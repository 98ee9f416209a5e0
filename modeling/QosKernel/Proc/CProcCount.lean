import QosKernel.Framework.RefCount
import QosKernel.Proc.CSignals

/-! # The C process table counts its processes

The pids, the flags of the slots and the counter are kept by different
functions. After every sequence of calls the pids in use are distinct, the
counter is the number of slots in use, and a wait frees at most one slot:
that of a child of the caller that has exited.
-/
open Framework
namespace QosKernel.CProc
namespace Procs
variable {i : Slot}
/-- Pids are distinct, and the counter is the number of processes. -/
structure Sized (t : Procs) : Prop where
  ok : t.family.Ok
  count : t.count.toNat = slotCount Process.used t.procs

theorem sized_reset : qos_proc_reset.Sized where
  ok := Family.Table.ok_empty
  count := (slotCount_eq_zero.mpr fun _ => rfl).symm

variable {t : Procs}
theorem Sized.count_le (h : t.Sized) : t.count.toNat ≤ QOS_PROC_MAX := by
  rw [h.count]
  exact slotCount_le

theorem Sized.count_lt (h : t.Sized) : t.count.toNat + 1 < 2 ^ 32 :=
  Nat.lt_of_le_of_lt (Nat.succ_le_succ h.count_le) (by decide)

theorem Sized.count_enter (h : t.Sized) (hi : t.free_slot = some i) {p : Process}
    (hused : p.used = true) : (t.count + 1).toNat = slotCount Process.used (set t.procs i p) := by
  rw [toNat_succ h.count_lt, slotCount_insert (unused_of_free_slot hi) hused, h.count]

theorem Sized.count_leave (h : t.Sized) (hi : (t.procs i).used = true) :
    (t.count - 1).toNat = slotCount Process.used (set t.procs i .free) := by
  have hpos : 1 ≤ t.count.toNat := by
    rw [h.count]
    exact slotCount_pos hi
  rw [toNat_pred hpos, slotCount_erase hi rfl, h.count]

theorem Sized.step (h : t.Sized) (c : Call) : (t.step c).Sized := by
  refine ⟨ok_step h.ok c, ?_⟩
  obtain heq | ⟨pid, ppid, slot, -, -, -, hslot, heq⟩ |
    ⟨parent_pid, child_pid, parent, slot, -, -, -, -, hslot, heq⟩ | ⟨i, hused, -, heq⟩ |
    ⟨pid, f, i, hc, -, heq⟩ := t.step_cases c <;> rw [heq]
  · exact h.count
  · exact h.count_enter hslot rfl
  · exact h.count_enter hslot rfl
  · exact h.count_leave hused
  have hsame := Process.same_of_acts hc (t.procs i)
  rw [h.count]
  exact (slotCount_set_of_eq hsame.1).symm

theorem sized_of_reach {tr : List Call} (hr : system.Reach anyStep tr t) : t.Sized := by
  refine hr.invariant Sized sized_reset ?_
  intro t c t' h _ hstep
  cases hstep
  exact h.step c

theorem Sized.wait (h : t.Sized) (parent_pid : UInt32) (pid : Int32) (options : UInt32) :
    (t.qos_proc_wait parent_pid pid options).2.2 = t ∨
    ∃ child, (t.procs child).used = true ∧ (t.procs child).exited = true ∧
      (t.procs child).ppid = parent_pid ∧
      (t.qos_proc_wait parent_pid pid options).2.2 = ⟨set t.procs child .free, t.count - 1⟩ := by
  obtain ⟨rc, -, -, heq⟩ | ⟨child, hchild, heq⟩ := t.wait_ends parent_pid pid options
  · rw [heq]
    exact .inl rfl
  obtain ⟨hused, hppid, hexited⟩ := Family.Table.reaped_some hchild
  rw [heq, reap_eq h.ok hused]
  exact .inr ⟨child, hused, hexited, hppid, rfl⟩

/-- What holds of the table between any two calls. -/
structure WellFormed (t : Procs) : Prop where
  nonzero : ∀ i, (t.procs i).used = true → (t.procs i).pid ≠ 0
  distinct : ∀ i j, (t.procs i).used = true → (t.procs j).used = true →
    (t.procs i).pid = (t.procs j).pid → i = j
  count : t.qos_proc_count.toNat = slotCount Process.used t.procs
  room : t.qos_proc_count.toNat ≤ QOS_PROC_MAX
  wait : ∀ (parent_pid : UInt32) (pid : Int32) (options : UInt32) (t' : Procs),
    t' = (t.qos_proc_wait parent_pid pid options).2.2 → t' = t ∨
    ∃ child, (t.procs child).used = true ∧ (t.procs child).exited = true ∧
      (t.procs child).ppid = parent_pid ∧ (t'.procs child).used = false ∧
      ∀ i, i ≠ child → t'.procs i = t.procs i

theorem Sized.wellFormed (h : t.Sized) : t.WellFormed where
  nonzero := h.ok.nonzero
  distinct := h.ok.distinct
  count := h.count
  room := h.count_le
  wait parent_pid pid options t' heq := by
    obtain hsame | ⟨child, hused, hexited, hppid, hfree⟩ := h.wait parent_pid pid options
    · exact .inl (heq.trans hsame)
    refine .inr ⟨child, hused, hexited, hppid, ?_⟩
    rw [heq, hfree]
    refine ⟨congrArg Process.used set_self, ?_⟩
    intro i hi
    exact set_ne hi
end Procs
/-- After every sequence of calls, pids in use are not zero and distinct, the
counter is the number of slots in use and at most the size of the table, and
every wait frees at most one slot, of a child that has exited. -/
theorem process_table_wellFormed {tr : List Call} {t : Procs}
    (hr : Procs.system.Reach anyStep tr t) : t.WellFormed :=
  (Procs.sized_of_reach hr).wellFormed

/-- A parent whose child has exited: two processes are counted, and a wait
frees the slot of the child. -/
theorem process_table_wellFormed_forked :
    ∃ t, Procs.system.Reach anyStep [.create 5 0, .fork 5 6, .exit 6 3] t ∧ t.WellFormed ∧
      t.qos_proc_count = 2 ∧ (t.qos_proc_wait 5 (-1) 0).1 = 6 ∧
      (t.qos_proc_wait 5 (-1) 0).2.2.qos_proc_count = 1 := by
  refine System.exists_exec (P := fun t => t.qos_proc_count = 2 ∧
    (t.qos_proc_wait 5 (-1) 0).1 = 6 ∧ (t.qos_proc_wait 5 (-1) 0).2.2.qos_proc_count = 1)
    (by decide +kernel) ?_
  intro t hr ht
  exact ⟨process_table_wellFormed hr, ht⟩
end QosKernel.CProc
