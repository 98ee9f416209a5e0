import QosKernel.Framework.Births
import QosKernel.Framework.ArrayLoops
import QosKernel.Framework.System

/-! # Parents and children

What the process tables of the two kernels have in common, as far as
parents and children go: who is in the table, who has exited, and the pids
of a process and of its parent.

The parent is recorded as a pid. To tell the processes that have had the
same pid apart, the processes are numbered, and the number of the parent
is noted when a process comes into the table.
-/
open Framework
namespace QosKernel.Family
structure Member where
  pid : UInt32
  ppid : UInt32
  used : Bool
  exited : Bool
  deriving DecidableEq

def Member.free : Member := ⟨0, 0, false, false⟩
def Member.new (pid ppid : UInt32) : Member := ⟨pid, ppid, true, false⟩
def Member.live (m : Member) : Bool := m.used && !m.exited

inductive Call where
  | create (pid ppid : UInt32)
  | fork (parent_pid child_pid : UInt32)
  | exit (pid : UInt32) (code : Int32)
  | remove (pid : UInt32)
  | wait (parent_pid : UInt32) (pid : Int32) (options : UInt32)

abbrev Table (n : Nat) := Fin n → Member

namespace Table
variable {parent_pid ppid options : UInt32} {m : Member} {n : Nat}
def empty : Table n := fun _ => .free

section
variable (t : Table n)
def find (pid : UInt32) : Option (Fin n) := first fun i => (t i).used && (t i).pid == pid
def free_slot : Option (Fin n) := first fun i => !(t i).used

def enter (pid ppid : UInt32) : Table n :=
  if pid = 0 ∨ (t.find pid).isSome then t
  else (t.free_slot).elim t fun i => set t i (.new pid ppid)

def admits (pid : UInt32) : Bool :=
  pid != 0 && (t.find pid).isNone && t.free_slot.isSome

/-- The child that a wait reaps. -/
def waited (parent_pid : UInt32) (pid : Int32) : Option (Fin n) :=
  if pid = -1 then first fun i => (t i).used && (t i).ppid == parent_pid && (t i).exited
  else (t.find pid.toUInt32).filter fun i => (t i).ppid == parent_pid && (t i).exited

def step : Call → Table n
  | .create pid ppid => t.enter pid ppid
  | .fork parent_pid child_pid => if (t.find parent_pid).isSome then t.enter child_pid parent_pid else t
  | .exit pid _ => (t.find pid).elim t fun i => set t i { t i with exited := true }
  | .remove pid => (t.find pid).elim t fun i => set t i .free
  | .wait parent_pid pid _ =>
    if (t.find parent_pid).isSome then (t.waited parent_pid pid).elim t fun i => set t i .free else t
end
/-! ### What a call can do -/
variable {t : Table n} {pid : UInt32} {i : Fin n}
theorem find_some (h : t.find pid = some i) : (t i).used = true ∧ (t i).pid = pid := by
  have hi := first_some h
  simpa using hi

theorem find_none (h : t.find pid = none) (hi : (t i).used = true) : (t i).pid ≠ pid := by
  have hi' := first_none.mp h i
  simpa [hi] using hi'

theorem free_slot_some (h : t.free_slot = some i) : (t i).used = false := by
  have hi := first_some h
  simpa using hi

theorem waited_some {pid : Int32} (h : t.waited parent_pid pid = some i) :
    (t i).used = true ∧ (t i).ppid = parent_pid ∧ (t i).exited = true := by
  unfold waited at h
  split at h
  · have hi := first_some h
    simp only [Bool.and_eq_true, beq_iff_eq] at hi
    exact ⟨hi.1.1, hi.1.2, hi.2⟩
  obtain ⟨hfind, hi⟩ := Option.filter_eq_some_iff.mp h
  simp only [Bool.and_eq_true, beq_iff_eq] at hi
  exact ⟨(find_some hfind).1, hi.1, hi.2⟩

section
variable (t : Table n) (parent_pid : UInt32) (pid : Int32)
/-- The child that a wait by a process of the table reaps. -/
def reaped : Option (Fin n) :=
  if (t.find parent_pid).isSome then t.waited parent_pid pid else none

theorem step_wait (options : UInt32) :
    t.step (.wait parent_pid pid options) =
      (t.reaped parent_pid pid).elim t fun i => set t i .free := by
  dsimp only [step]
  unfold reaped
  split <;> rfl
end
theorem reaped_some {pid : Int32} (h : t.reaped parent_pid pid = some i) :
    (t i).used = true ∧ (t i).ppid = parent_pid ∧ (t i).exited = true := by
  unfold reaped at h
  split at h
  · exact waited_some h
  cases h

/-- As the kernels write it: the tests of a child that is asked for by its pid
are made one after the other. -/
theorem reaped_eq (t : Table n) (parent_pid : UInt32) (pid : Int32) :
    t.reaped parent_pid pid =
      match t.find parent_pid with
      | none => none
      | some _ =>
        if pid = -1 then first fun i => (t i).used && (t i).ppid == parent_pid && (t i).exited
        else
          match t.find pid.toUInt32 with
          | none => none
          | some i =>
            if (t i).ppid ≠ parent_pid then none else if !(t i).exited then none else some i := by
  unfold reaped waited
  cases t.find parent_pid with
  | none => rfl
  | some parent =>
  dsimp only [Option.isSome_some]
  rw [if_pos rfl]
  by_cases hany : pid = -1
  · rw [if_pos hany, if_pos hany]
  rw [if_neg hany, if_neg hany]
  cases t.find pid.toUInt32 with
  | none => rfl
  | some i =>
  by_cases hppid : (t i).ppid = parent_pid
  · cases hexited : (t i).exited with
    | true => simp [Option.filter, hppid, hexited]
    | false => simp [Option.filter, hexited]
  simp [Option.filter, hppid]

theorem admits_iff : t.admits pid = true ↔ pid ≠ 0 ∧ t.find pid = none ∧ ∃ i, t.free_slot = some i := by
  simp [admits, Option.isSome_iff_exists, and_assoc]

theorem enter_of_not_admits (h : t.admits pid = false) : t.enter pid ppid = t := by
  unfold enter
  split
  · rfl
  next hpid =>
  obtain ⟨hzero, hfind⟩ := not_or.mp hpid
  cases hslot : t.free_slot with
  | none => rfl
  | some i =>
  have hadmits : t.admits pid = true := admits_iff.mpr ⟨hzero, by simpa using hfind, i, hslot⟩
  rw [h] at hadmits
  cases hadmits

theorem enter_of_admits (h : t.admits pid = true) (hslot : t.free_slot = some i) :
    t.enter pid ppid = set t i (.new pid ppid) := by
  obtain ⟨hzero, hfind, -⟩ := admits_iff.mp h
  have hpid : ¬(pid = 0 ∨ (t.find pid).isSome = true) := by simp [hzero, hfind]
  unfold enter
  rw [if_neg hpid, hslot]
  rfl

theorem enter_cases (t : Table n) (pid ppid : UInt32) :
    t.enter pid ppid = t ∨ ∃ i, t.admits pid = true ∧ t.free_slot = some i ∧
      t.enter pid ppid = set t i (.new pid ppid) := by
  cases hadmits : t.admits pid with
  | false => exact .inl (enter_of_not_admits hadmits)
  | true =>
  obtain ⟨-, -, i, hslot⟩ := admits_iff.mp hadmits
  exact .inr ⟨i, rfl, hslot, enter_of_admits hadmits hslot⟩

theorem step_fork_of_refused (h : t.admits pid = false ∨ t.find parent_pid = none) :
    t.step (.fork parent_pid pid) = t := by
  dsimp only [step]
  split
  next hparent =>
    rcases h with hadmits | hnone
    · exact enter_of_not_admits hadmits
    rw [hnone] at hparent
    cases hparent
  next => rfl

theorem step_fork {parent : Fin n} (h : t.admits pid = true)
    (hparent : t.find parent_pid = some parent) (hslot : t.free_slot = some i) :
    t.step (.fork parent_pid pid) = set t i (.new pid parent_pid) := by
  dsimp only [step]
  rw [if_pos (Option.isSome_of_eq_some hparent), enter_of_admits h hslot]

/-- All that a call can do: a process comes in, exits, is reaped or is
removed. -/
theorem step_cases (t : Table n) (c : Call) : t.step c = t ∨
    (∃ i pid ppid, (c = .create pid ppid ∨ c = .fork ppid pid) ∧ t.admits pid = true ∧
      t.free_slot = some i ∧ t.step c = set t i (.new pid ppid)) ∨
    (∃ i pid code, c = .exit pid code ∧ t.find pid = some i ∧
      t.step c = set t i { t i with exited := true }) ∨
    ∃ i, (t i).used = true ∧ ((t i).exited = true ∨ ∃ pid, c = .remove pid ∧ t.find pid = some i) ∧
      t.step c = set t i .free := by
  cases c with
  | create pid ppid =>
    rcases t.enter_cases pid ppid with heq | ⟨i, hadmits, hslot, heq⟩
    · exact .inl heq
    exact .inr (.inl ⟨i, pid, ppid, .inl rfl, hadmits, hslot, heq⟩)
  | fork parent_pid child_pid =>
    dsimp only [step]
    split
    · rcases t.enter_cases child_pid parent_pid with heq | ⟨i, hadmits, hslot, heq⟩
      · exact .inl heq
      exact .inr (.inl ⟨i, child_pid, parent_pid, .inr rfl, hadmits, hslot, heq⟩)
    exact .inl rfl
  | exit pid code =>
    dsimp only [step]
    cases hfind : t.find pid with
    | none => exact .inl rfl
    | some i => exact .inr (.inr (.inl ⟨i, pid, code, rfl, hfind, rfl⟩))
  | remove pid =>
    dsimp only [step]
    cases hfind : t.find pid with
    | none => exact .inl rfl
    | some i =>
    exact .inr (.inr (.inr ⟨i, (find_some hfind).1, .inr ⟨pid, rfl, hfind⟩, rfl⟩))
  | wait parent_pid pid options =>
  dsimp only [step]
  split
  · cases hwaited : t.waited parent_pid pid with
    | none => exact .inl rfl
    | some i =>
      obtain ⟨hused, -, hexited⟩ := waited_some hwaited
      exact .inr (.inr (.inr ⟨i, hused, .inl hexited, rfl⟩))
  exact .inl rfl

/-! ### Pids -/
/-- No two processes have the same pid, and none has pid 0. -/
structure Ok (t : Table n) : Prop where
  nonzero : ∀ i, (t i).used = true → (t i).pid ≠ 0
  distinct : ∀ i j, (t i).used = true → (t j).used = true → (t i).pid = (t j).pid → i = j

theorem Ok.find (h : t.Ok) (hi : (t i).used = true) : t.find (t i).pid = some i := by
  refine first_eq_some (by simp [hi]) fun j hj => ?_
  simp only [Bool.and_eq_true, beq_iff_eq] at hj
  exact h.distinct j i hj.1 hi hj.2

theorem ok_empty : (empty : Table n).Ok := by
  constructor
  · intro i hi
    cases hi
  intro i j hi
  cases hi

theorem Ok.new (h : t.Ok) (hpid : m.pid ≠ 0) (hfind : t.find m.pid = none) : Ok (set t i m) := by
  constructor
  · intro j hj
    by_cases hji : j = i
    · rw [hji, set_self]
      exact hpid
    rw [set_ne hji] at hj ⊢
    exact h.nonzero j hj
  intro j k hj hk heq
  by_cases hji : j = i <;> by_cases hki : k = i
  · rw [hji, hki]
  · rw [set_ne hki] at hk heq
    rw [hji, set_self] at heq
    exact absurd heq.symm (find_none hfind hk)
  · rw [set_ne hji] at hj heq
    rw [hki, set_self] at heq
    exact absurd heq (find_none hfind hj)
  rw [set_ne hji] at hj heq
  rw [set_ne hki] at hk heq
  exact h.distinct j k hj hk heq

theorem Ok.fewer (h : t.Ok) {t' : Table n}
    (hsub : ∀ i, (t' i).used = true → (t i).used = true ∧ (t' i).pid = (t i).pid) : t'.Ok := by
  constructor
  · intro i hi
    rw [(hsub i hi).2]
    exact h.nonzero i (hsub i hi).1
  intro i j hi hj heq
  rw [(hsub i hi).2, (hsub j hj).2] at heq
  exact h.distinct i j (hsub i hi).1 (hsub j hj).1 heq

theorem Ok.change (h : t.Ok) (hused : m.used = (t i).used) (hpid : m.pid = (t i).pid) :
    Ok (set t i m) := by
  refine h.fewer fun j hj => ?_
  by_cases hji : j = i
  · rw [hji, set_self] at hj ⊢
    exact ⟨hused ▸ hj, hpid⟩
  rw [set_ne hji] at hj ⊢
  exact ⟨hj, rfl⟩

theorem used_of_leave {j : Fin n} (h : (set t i .free j).used = true) :
    j ≠ i ∧ (t j).used = true := by
  by_cases hji : j = i
  · rw [hji, set_self] at h
    cases h
  rw [set_ne hji] at h
  exact ⟨hji, h⟩

theorem Ok.leave (h : t.Ok) : Ok (set t i .free) := by
  refine h.fewer fun j hj => ?_
  obtain ⟨hji, hused⟩ := used_of_leave hj
  rw [set_ne hji]
  exact ⟨hused, rfl⟩

theorem Ok.step (h : t.Ok) (c : Call) : (t.step c).Ok := by
  obtain heq | ⟨i, pid, ppid, -, hadmits, -, heq⟩ | ⟨i, _, _, -, -, heq⟩ | ⟨i, -, -, heq⟩ :=
    t.step_cases c <;> rw [heq]
  · exact h
  · obtain ⟨hpid, hfind, -⟩ := admits_iff.mp hadmits
    exact h.new hpid hfind
  · exact h.change rfl rfl
  exact h.leave

/-! ### Who can be reaped -/
/-- The table after some waits by `parent_pid`, each with its arguments. -/
def waits (t : Table n) (parent_pid : UInt32) (args : List (Int32 × UInt32)) : Table n :=
  args.foldl (fun t arg => t.step (.wait parent_pid arg.1 arg.2)) t

/-- A live process can reap process `i`. -/
def Reapable (t : Table n) (i : Fin n) : Prop :=
  ∃ q, (t q).live = true ∧ ∃ args, (t.waits (t q).pid args i).used = false

theorem step_wait_of_ppid_ne {pid : Int32} (h : (t i).ppid ≠ parent_pid) :
    t.step (.wait parent_pid pid options) i = t i := by
  dsimp only [step]
  split
  · cases hwaited : t.waited parent_pid pid with
    | none => rfl
    | some j =>
      have hji : i ≠ j := by
        rintro rfl
        exact h (waited_some hwaited).2.1
      exact set_ne hji
  rfl

theorem wait_reaps {pid : Int32} (hi : (t i).used = true)
    (hgone : (t.step (.wait parent_pid pid options) i).used = false) :
    (t i).exited = true ∧ (t i).ppid = parent_pid ∧ ∃ p, t.find parent_pid = some p := by
  dsimp only [step] at hgone
  split at hgone
  next hparent =>
    cases hwaited : t.waited parent_pid pid with
    | none =>
      rw [hwaited, Option.elim_none, hi] at hgone
      cases hgone
    | some j =>
    obtain rfl : i = j := by
      by_contra hij
      rw [hwaited, Option.elim_some, set_ne hij, hi] at hgone
      cases hgone
    obtain ⟨-, hppid, hexited⟩ := waited_some hwaited
    exact ⟨hexited, hppid, Option.isSome_iff_exists.mp hparent⟩
  next =>
  rw [hi] at hgone
  cases hgone

theorem waits_of_ppid_ne (args : List (Int32 × UInt32)) (h : (t i).ppid ≠ parent_pid) :
    t.waits parent_pid args i = t i := by
  induction args generalizing t with
  | nil => rfl
  | cons arg rest ih =>
  have hstep : t.step (.wait parent_pid arg.1 arg.2) i = t i := step_wait_of_ppid_ne h
  have hrest := ih (t := t.step (.wait parent_pid arg.1 arg.2)) (by rw [hstep]; exact h)
  exact hrest.trans hstep

/-- The children that `parent_pid` can reap. -/
def zombies (t : Table n) (parent_pid : UInt32) : Finset (Fin n) :=
  Finset.univ.filter fun i => ((t i).used && (t i).ppid == parent_pid && (t i).exited) = true

theorem mem_zombies : i ∈ t.zombies parent_pid ↔
    (t i).used = true ∧ (t i).ppid = parent_pid ∧ (t i).exited = true := by
  simp [zombies, and_assoc]

theorem card_zombies_leave (hi : i ∈ t.zombies parent_pid) :
    (zombies (set t i .free) parent_pid).card < (t.zombies parent_pid).card := by
  have hsub : zombies (set t i .free) parent_pid ⊆ (t.zombies parent_pid).erase i := by
    intro k hk
    obtain ⟨hused, hppid, hexited⟩ := mem_zombies.mp hk
    obtain ⟨hki, -⟩ := used_of_leave hused
    rw [set_ne hki] at hused hppid hexited
    exact Finset.mem_erase.mpr ⟨hki, mem_zombies.mpr ⟨hused, hppid, hexited⟩⟩
  exact (Finset.card_le_card hsub).trans_lt (Finset.card_erase_lt_of_mem hi)

theorem live_iff : m.live = true ↔ m.used = true ∧ m.exited = false := by simp [Member.live]

theorem Ok.wait_any (h : t.Ok) {q : Fin n} (hq : (t q).used = true) (hi : i ∈ t.zombies (t q).pid) :
    ∃ j ∈ t.zombies (t q).pid, t.step (.wait (t q).pid (-1) 0) = set t j .free := by
  obtain ⟨hused, hppid, hexited⟩ := mem_zombies.mp hi
  have hsome : (first fun j => (t j).used && (t j).ppid == (t q).pid && (t j).exited).isSome =
      true := first_isSome.mpr ⟨i, by simp [*]⟩
  obtain ⟨j, hj⟩ := Option.isSome_iff_exists.mp hsome
  have hfind : (t.find (t q).pid).isSome = true := by rw [h.find hq, Option.isSome_some]
  refine ⟨j, by simpa [mem_zombies, and_assoc] using first_some hj, ?_⟩
  dsimp only [Table.step, waited]
  rw [if_pos hfind, if_pos rfl, hj]
  rfl

/-- A live parent can reap its child: it waits until the child's turn comes. -/
theorem Ok.reap (h : t.Ok) {q : Fin n} (hq : (t q).live = true) (hi : i ∈ t.zombies (t q).pid) :
    ∃ args, (t.waits (t q).pid args i).used = false := by
  -- by induction on the number of children that can be reaped
  obtain ⟨m, hm⟩ : ∃ m, (t.zombies (t q).pid).card ≤ m := ⟨_, Nat.le_refl _⟩
  induction m generalizing t with
  | zero =>
    rw [Finset.card_eq_zero.mp (Nat.le_zero.mp hm)] at hi
    cases hi
  | succ m ih =>
  obtain ⟨j, hj, hstep⟩ := h.wait_any (live_iff.mp hq).1 hi
  by_cases hij : i = j
  · refine ⟨[(-1, 0)], ?_⟩
    show (t.step (.wait (t q).pid (-1) 0) i).used = false
    rw [hstep, hij, set_self]
    rfl
  -- another child goes first, and it is not the parent
  have hqj : q ≠ j := by
    rintro rfl
    have hexited := (mem_zombies.mp hj).2.2
    rw [(live_iff.mp hq).2] at hexited
    cases hexited
  have hq' : set t j .free q = t q := set_ne hqj
  have hi' : i ∈ zombies (set t j .free) (t q).pid := by
    rw [mem_zombies, set_ne hij]
    exact mem_zombies.mp hi
  have hlt := card_zombies_leave hj
  obtain ⟨args, hargs⟩ := ih (t := set t j .free) h.leave (by rw [hq']; exact hq)
    (by rw [hq']; exact hi') (by rw [hq']; omega)
  refine ⟨(-1, 0) :: args, ?_⟩
  show ((t.step (.wait (t q).pid (-1) 0)).waits (t q).pid args i).used = false
  rw [hstep, ← hq']
  exact hargs

theorem Ok.reapable_iff (h : t.Ok) (hi : (t i).used = true) (hexited : (t i).exited = true) :
    t.Reapable i ↔ ∃ q, (t q).live = true ∧ (t q).pid = (t i).ppid := by
  constructor
  · rintro ⟨q, hq, args, hgone⟩
    refine ⟨q, hq, ?_⟩
    by_contra hne
    rw [waits_of_ppid_ne args (Ne.symm hne), hi] at hgone
    cases hgone
  rintro ⟨q, hq, hpid⟩
  exact ⟨q, hq, h.reap hq (mem_zombies.mpr ⟨hi, hpid.symm, hexited⟩)⟩
end Table
end QosKernel.Family
