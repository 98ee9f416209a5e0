import QosKernel.Framework.Slots

/-! # Softirqs

The pending mask of `irq/softirq.c` and of the Rust kernel, which treat it
alike: raising sets the bit of a vector, and the run loop takes the lowest
bit until no bit is set.
-/
open Framework
namespace QosKernel
def QOS_SOFTIRQ_MAX : Nat := 8
def QOS_SOFTIRQ_TIMER : Fin QOS_SOFTIRQ_MAX := ⟨0, by decide⟩
def QOS_SOFTIRQ_WORKQUEUE : Fin QOS_SOFTIRQ_MAX := ⟨2, by decide⟩

/-- `pending_mask`, bit by bit. Only the bits of valid vectors are ever set. -/
abbrev PendingMask := Fin QOS_SOFTIRQ_MAX → Bool
variable {mask mask' : PendingMask} {v : Fin QOS_SOFTIRQ_MAX}
def softirq_reset : PendingMask := fun _ => false

section
variable (mask : PendingMask)
def softirq_raise (vector : Fin QOS_SOFTIRQ_MAX) : PendingMask :=
  set mask vector true

theorem softirq_raise_self (v : Fin QOS_SOFTIRQ_MAX) : softirq_raise mask v v = true := set_self

/-- One round of the loop of `softirq_run`: the lowest bit that is set is
cleared, and its handler is due. -/
def softirq_take : Option (PendingMask × Fin QOS_SOFTIRQ_MAX) :=
  (first mask).map fun vector => (set mask vector false, vector)
end
theorem softirq_take_none (h : softirq_take mask = none) : ∀ v, mask v = false :=
  first_none.mp (Option.map_eq_none_iff.mp h)

theorem softirq_take_some (h : softirq_take mask = some (mask', v)) :
    mask v = true ∧ mask' = set mask v false := by
  obtain ⟨w, hw, heq⟩ := Option.map_eq_some_iff.mp h
  obtain ⟨rfl, rfl⟩ := Prod.mk.inj heq
  exact ⟨first_some hw, rfl⟩

def raisedCount (mask : PendingMask) : Nat :=
  ((List.finRange QOS_SOFTIRQ_MAX).filter fun v => mask v).length

/-- A round of the loop leaves one bit less. -/
theorem raisedCount_take (h : softirq_take mask = some (mask', v)) :
    raisedCount mask' < raisedCount mask := by
  obtain ⟨hv, rfl⟩ := softirq_take_some h
  have hsub : ((List.finRange QOS_SOFTIRQ_MAX).filter fun w => set mask v false w) =
      ((List.finRange QOS_SOFTIRQ_MAX).filter fun w => mask w).filter fun w => w ≠ v := by
    rw [List.filter_filter]
    refine List.filter_congr fun w _ => ?_
    by_cases hw : w = v <;> simp [hw]
  unfold raisedCount
  rw [hsub, List.length_filter_lt_length_iff_exists]
  exact ⟨v, by simp [hv], by simp⟩
end QosKernel
