import QosKernel.Exec.CExec
import QosKernel.Proc.CProcCount

/-! # What a wait tells its caller

A pid is a 32-bit word, and the result of `qos_proc_wait` a signed integer
that also stands for "nothing yet" and for errors. So the result tells what
was reaped exactly when the pid of the child is below 2 ^ 31.
-/
open Framework
namespace QosKernel
namespace Family.Table
variable {n : Nat} {t : Table n} {parent_pid : UInt32} {pid : Int32} {i : Fin n}
/-- Process `i` is an exited child that a wait for `pid` asks for. -/
def Asked (t : Table n) (parent_pid : UInt32) (pid : Int32) (i : Fin n) : Prop :=
  (t i).used = true ∧ (t i).ppid = parent_pid ∧ (t i).exited = true ∧
    (pid = -1 ∨ (t i).pid = pid.toUInt32)

theorem reaped_iff (h : t.Ok) : t.reaped parent_pid pid = some i ↔
    (t.find parent_pid).isSome = true ∧ t.Asked parent_pid pid i ∧
      ∀ j < i, ¬t.Asked parent_pid pid j := by
  unfold reaped
  split
  next hparent =>
    rw [and_iff_right hparent]
    unfold waited
    by_cases hany : pid = -1
    · rw [if_pos hany]
      have hasked : ∀ j, t.Asked parent_pid pid j ↔
          ((t j).used && (t j).ppid == parent_pid && (t j).exited) = true := by
        intro j
        simp [Asked, hany, and_assoc]
      simp only [hasked, Bool.not_eq_true]
      constructor
      · intro hfirst
        exact ⟨first_some hfirst, fun j hj => first_min hfirst hj⟩
      intro ⟨hi, hmin⟩
      exact first_of_min hi hmin
    rw [if_neg hany, Option.filter_eq_some_iff, Bool.and_eq_true, beq_iff_eq]
    constructor
    · intro ⟨hfind, hppid, hexited⟩
      obtain ⟨hused, hpid⟩ := find_some hfind
      refine ⟨⟨hused, hppid, hexited, .inr hpid⟩, fun j hj hasked => ?_⟩
      -- no other process has the pid
      have hji := h.distinct j i hasked.1 hused ((hasked.2.2.2.resolve_left hany).trans hpid.symm)
      exact Fin.ne_of_lt hj hji
    intro ⟨⟨hused, hppid, hexited, hpid⟩, _⟩
    rw [← hpid.resolve_left hany]
    exact ⟨h.find hused, hppid, hexited⟩
  next hparent => simp [hparent]
end Family.Table
namespace CProc.Procs
variable {t : Procs} {parent_pid options : UInt32} {pid : Int32}
/-- A wait that returns `rc` and leaves `t'` tells what it did: without a pid
nothing is reaped, and a pid is that of the process that is gone. -/
structure Faithful (t : Procs) (rc : Int) (t' : Procs) : Prop where
  kept : rc ≤ 0 → t' = t
  gone : 0 < rc → ∃ i, (t.procs i).used = true ∧ ((t.procs i).pid.toNat : Int) = rc ∧
    t' = ⟨set t.procs i .free, t.count - 1⟩

/-- The child that the wait asks for, the first one if there are several, has a
pid below 2 ^ 31. -/
def LowPid (t : Procs) (parent_pid : UInt32) (pid : Int32) : Prop :=
  (t.find_pid parent_pid).isSome = true → ∀ i, t.family.Asked parent_pid pid i →
    (∀ j < i, ¬t.family.Asked parent_pid pid j) → (t.procs i).pid.toNat < 2 ^ 31

theorem Sized.faithful_iff (h : t.Sized) :
    Faithful t (t.qos_proc_wait parent_pid pid options).1.toInt
      (t.qos_proc_wait parent_pid pid options).2.2 ↔ LowPid t parent_pid pid := by
  unfold LowPid
  obtain ⟨rc, hrc, hnone, heq⟩ | ⟨child, hchild, heq⟩ := t.wait_ends parent_pid pid options
  · rw [heq]
    have hle : rc.toInt ≤ 0 := by rcases hrc with rfl | rfl <;> decide
    refine iff_of_true ⟨fun _ => rfl, fun hpos => absurd hle (Int.not_le.mpr hpos)⟩ ?_
    intro hparent i hasked hmin
    have hreaped := (Family.Table.reaped_iff h.ok).mpr ⟨hparent, hasked, hmin⟩
    rw [hnone] at hreaped
    cases hreaped
  have hused : (t.procs child).used = true := (Family.Table.reaped_some hchild).1
  obtain ⟨hparent, hasked, hmin⟩ := (Family.Table.reaped_iff h.ok).mp hchild
  rw [heq, reap_eq h.ok hused]
  constructor
  · -- a pid that reads as a negative number would be a process that is gone unseen
    intro hfaithful _ i hi himin
    have hreaped := (Family.Table.reaped_iff h.ok).mpr ⟨hparent, hi, himin⟩
    rw [hchild] at hreaped
    cases hreaped
    by_contra hge
    have hsame := hfaithful.kept (Int.le_of_lt (Int32.lt_iff_toInt_lt.mp (toInt32_neg.mpr (Nat.le_of_not_lt hge))))
    have hfree := congrFun (congrArg Procs.procs hsame) child
    dsimp only at hfree
    rw [set_self] at hfree
    rw [← hfree] at hused
    cases hused
  intro hlow
  have hpid := toInt32_toInt (hlow hparent child hasked hmin)
  have hne : (t.procs child).pid.toNat ≠ 0 := by
    intro hzero
    exact h.ok.nonzero child hused (UInt32.toNat_inj.mp hzero)
  refine ⟨fun hle => ?_, fun _ => ⟨child, hused, hpid.symm, rfl⟩⟩
  rw [hpid] at hle
  omega

/-- In every table that calls can reach, `qos_proc_wait` and `WAITPID` tell what
they did exactly when the pid of the child that is asked for is below
2 ^ 31. -/
theorem wait_faithful_iff {tr : List Call} (hr : system.Reach anyStep tr t) :
    (∀ parent_pid pid options, Faithful t (t.qos_proc_wait parent_pid pid options).1.toInt
      (t.qos_proc_wait parent_pid pid options).2.2 ↔ LowPid t parent_pid pid) ∧
    ∀ env k a0 a1 a2 a3, ∃ answer,
      ProcKernel.process_op env k t .waitpid a0 a1 a2 a3 = some answer ∧
      (Faithful t answer.rc answer.procs ↔ LowPid t a0.toUInt32 a1.toUInt32.toInt32) := by
  have h := sized_of_reach hr
  refine ⟨fun parent_pid pid options => h.faithful_iff, fun env k a0 a1 a2 a3 => ⟨_, rfl, ?_⟩⟩
  exact h.faithful_iff

/-- The exited child 7 is reaped, and the wait says so. -/
theorem wait_faithful_iff_reaped :
    ∃ t, system.Reach anyStep [.create 1 0, .create 7 1, .exit 7 3] t ∧
      (t.qos_proc_wait 1 (-1) 0).1 = 7 ∧ (t.qos_proc_wait 1 (-1) 0).2.2.find_pid 7 = none ∧
      Faithful t (t.qos_proc_wait 1 (-1) 0).1.toInt (t.qos_proc_wait 1 (-1) 0).2.2 := by
  refine System.exists_exec (P := fun t => (t.qos_proc_wait 1 (-1) 0).1 = 7 ∧
    (t.qos_proc_wait 1 (-1) 0).2.2.find_pid 7 = none ∧
    ∀ i, (t.procs i).pid.toNat < 2 ^ 31) (by decide +kernel) ?_
  intro t hr ⟨hrc, hgone, hlow⟩
  exact ⟨hrc, hgone, ((wait_faithful_iff hr).1 1 (-1) 0).mpr fun _ i _ _ => hlow i⟩

/-- A child with a pid from 2 ^ 31 on is reaped, and the wait reads as failed. -/
theorem wait_high_pid_unreported :
    ∃ t, system.Reach anyStep [.create 1 0, .create 0x80000001 1, .exit 0x80000001 3] t ∧
      (t.qos_proc_wait 1 (-1) 0).1 = -2147483647 ∧
      (t.qos_proc_wait 1 (-1) 0).2.2.find_pid 0x80000001 = none ∧
      ¬Faithful t (t.qos_proc_wait 1 (-1) 0).1.toInt (t.qos_proc_wait 1 (-1) 0).2.2 := by
  refine System.exists_exec (P := fun t => (t.qos_proc_wait 1 (-1) 0).1 = -2147483647 ∧
    (t.qos_proc_wait 1 (-1) 0).2.2.find_pid 0x80000001 = none ∧
    (t.qos_proc_wait 1 (-1) 0).2.2.count = 1 ∧ t.count = 2) (by decide +kernel) ?_
  intro t _ ⟨hrc, hgone, hafter, hbefore⟩
  refine ⟨hrc, hgone, fun hfaithful => ?_⟩
  have hkept := hfaithful.kept (by rw [hrc]; decide)
  rw [hkept, hbefore] at hafter
  cases hafter
end CProc.Procs
end QosKernel
