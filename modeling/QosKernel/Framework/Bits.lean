import Mathlib.Data.Nat.Bitwise

/-! # Words as numbers

The mask idioms of page arithmetic, `v & ~(2^k - 1)` and `v & (2^k - 1)`,
as division and remainder by `2^k`, on naturals and on 64-bit words; words
that are read as signed numbers; and additions that saturate.
-/
namespace Framework
/-- Clearing the low `k` bits of a `w`-bit number rounds it down to a multiple
of `2^k`. -/
theorem Nat.and_high_mask {v w k : Nat} (hv : v < 2 ^ w) (hk : k ≤ w) :
    v &&& (2 ^ w - 2 ^ k) = v / 2 ^ k * 2 ^ k := by
  have hmask : 2 ^ w - 2 ^ k = (2 ^ (w - k) - 1) * 2 ^ k := by
    rw [Nat.sub_mul, ← Nat.pow_add, Nat.sub_add_cancel hk, Nat.one_mul]
  apply Nat.eq_of_testBit_eq
  intro i
  rw [hmask, Nat.testBit_and, Nat.testBit_mul_two_pow, Nat.testBit_mul_two_pow,
    Nat.testBit_two_pow_sub_one, Nat.testBit_div_two_pow]
  by_cases hki : k ≤ i
  · have hadd : i - k + k = i := Nat.sub_add_cancel hki
    by_cases hiw : i < w
    · have : i - k < w - k := by omega
      simp [hki, this, hadd]
    -- above the word there are no bits left to keep
    have hlow : v < 2 ^ i := Nat.lt_of_lt_of_le hv (Nat.pow_le_pow_right (by decide) (by omega))
    simp [hadd, Nat.testBit_lt_two_pow hlow]
  simp [hki]

variable (v : UInt64)
/-- The page mask `~(4096 - 1)` on 64-bit words. -/
theorem UInt64.toNat_and_not_4095 :
    (v &&& ~~~(4096 - 1)).toNat = v.toNat / 4096 * 4096 := by
  have hmask : (~~~(4096 - 1) : UInt64).toNat = 2 ^ 64 - 2 ^ 12 := by decide
  rw [UInt64.toNat_and, hmask]
  exact Nat.and_high_mask v.toNat_lt (by decide)

/-- The offset mask `4096 - 1` on 64-bit words. -/
theorem UInt64.toNat_and_4095 : (v &&& (4096 - 1)).toNat = v.toNat % 4096 := by
  have hmask : ((4096 - 1 : UInt64)).toNat = 2 ^ 12 - 1 := by decide
  rw [UInt64.toNat_and, hmask]
  exact Nat.and_two_pow_sub_one_eq_mod v.toNat 12

/-! ### Signed words -/
variable {h : UInt32}
theorem toInt32_toInt_eq (h : UInt32) :
    h.toInt32.toInt = if 2 * h.toNat < 2 ^ 32 then (h.toNat : Int) else h.toNat - 2 ^ 32 :=
  BitVec.toInt_eq_toNat_cond h.toBitVec

theorem toInt32_toInt (hh : h.toNat < 2 ^ 31) : h.toInt32.toInt = h.toNat := by
  rw [toInt32_toInt_eq, if_pos (by omega)]

/-- The upper half of the words is negative. -/
theorem toInt32_neg : h.toInt32 < 0 ↔ 2 ^ 31 ≤ h.toNat := by
  have hlt := h.toNat_lt
  have hzero : Int32.toInt 0 = 0 := rfl
  rw [Int32.lt_iff_toInt_lt, toInt32_toInt_eq, hzero]
  split <;> omega

/-! ### Saturation -/
/-- `u64::saturating_add`. -/
def UInt64.saturating_add (a b : UInt64) : UInt64 :=
  if a.toNat + b.toNat < 2 ^ 64 then a + b else .ofNat (2 ^ 64 - 1)

/-- `u32::saturating_add`. -/
def UInt32.saturating_add (a b : UInt32) : UInt32 :=
  if a.toNat + b.toNat < 2 ^ 32 then a + b else .ofNat (2 ^ 32 - 1)
end Framework
