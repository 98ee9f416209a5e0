import Mathlib.Tactic.Common

/-! # Words as sets

A 32-bit word is used as a set of numbers below 32: the test is
`w & (1 << s)`, and sets are combined with the bit operations.
-/
namespace Framework
def bitAt (w s : UInt32) : Bool := w.toBitVec.getLsbD s.toNat

section
variable {v w s k : UInt32}
theorem bitAt_zero : bitAt 0 s = false := by simp [bitAt]
theorem bitAt_and : bitAt (v &&& w) s = (bitAt v s && bitAt w s) := by simp [bitAt]
theorem bitAt_or : bitAt (v ||| w) s = (bitAt v s || bitAt w s) := by simp [bitAt]
theorem bitAt_not (hs : s.toNat < 32) : bitAt (~~~w) s = !bitAt w s := by simp [bitAt, hs]

theorem bitAt_shift (hk : k.toNat < 32) (hs : s.toNat < 32) :
    bitAt (1 <<< k) s = decide (s = k) := by
  have hmod : k.toNat % 32 = k.toNat := Nat.mod_eq_of_lt hk
  rw [Bool.eq_iff_iff, decide_eq_true_iff, ← UInt32.toNat_inj]
  simp [bitAt, hs, hmod]
  omega

theorem eq_of_bitAt (h : ∀ s : UInt32, s.toNat < 32 → bitAt v s = bitAt w s) : v = w := by
  refine UInt32.toBitVec_inj.mp (BitVec.eq_of_getLsbD_eq fun i hi => ?_)
  have hi' := h (UInt32.ofNat i) (by simp; omega)
  have hmod : i % 4294967296 = i := by omega
  simpa [bitAt, hmod] using hi'

/-- The test of a bit, as programs write it. -/
theorem and_shift_ne_zero (hs : s.toNat < 32) : w &&& (1 <<< s) ≠ 0 ↔ bitAt w s = true := by
  constructor
  · intro hne
    by_contra hbit
    refine hne (eq_of_bitAt fun k hk => ?_)
    rw [bitAt_and, bitAt_shift hs hk, bitAt_zero]
    by_cases hks : k = s
    · simpa [hks] using hbit
    simp [hks]
  intro hbit heq
  have hzero : bitAt (w &&& (1 <<< s)) s = false := by rw [heq, bitAt_zero]
  rw [bitAt_and, bitAt_shift hs hs, hbit] at hzero
  simp at hzero
end
end Framework
