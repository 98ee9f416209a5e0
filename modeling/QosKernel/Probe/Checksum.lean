import Mathlib.Algebra.Ring.Nat

/-! # The Internet checksum of the probes

`ones_complement_checksum` of `tools/aarch64-c-probe/main.c` and of
`tools/aarch64-probe/src/main.rs`. The two have the same loops.
-/
namespace QosKernel.Probe
/-- The loop over pairs of bytes and the byte that may be left; `sum` has 32 bits. -/
def sumWords (sum : Nat) : List UInt8 → Nat
  | a :: b :: data => sumWords ((sum + (a.toNat <<< 8 ||| b.toNat)) % 0x100000000) data
  | [a] => (sum + a.toNat <<< 8) % 0x100000000
  | [] => sum

def addCarries (sum : Nat) : Nat :=
  if sum / 0x10000 = 0 then sum else addCarries (sum % 0x10000 + sum / 0x10000)
termination_by sum
decreasing_by omega

def ones_complement_checksum (data : List UInt8) : Nat :=
  (0xFFFFFFFF - addCarries (sumWords 0 data)) % 0x10000

def Rust.ones_complement_checksum (data : List UInt8) : Nat :=
  0xFFFF - addCarries (sumWords 0 data) % 0x10000

theorem addCarries_mod (sum : Nat) : addCarries sum < 0x10000 ∧
    addCarries sum % 65535 = sum % 65535 ∧ (addCarries sum = 0 ↔ sum = 0) := by
  fun_induction addCarries sum with
  | case1 sum h => exact ⟨by omega, rfl, Iff.rfl⟩
  | case2 sum h ih => exact ⟨ih.1, ih.2.1.trans (by omega), ih.2.2.trans (by omega)⟩

/-- The sum of the words. -/
def total : List UInt8 → Nat
  | a :: b :: data => a.toNat * 256 + b.toNat + total data
  | [a] => a.toNat * 256
  | [] => 0

theorem total_le (data : List UInt8) : total data ≤ (data.length + 1) / 2 * 65535 := by
  fun_induction total data with
  | case1 a b data ih =>
    have ha := a.toNat_lt
    have hb := b.toNat_lt
    simp only [List.length_cons]
    omega
  | case2 a =>
    have ha := a.toNat_lt
    simp only [List.length_singleton]
    omega
  | case3 => exact Nat.le_refl 0

theorem sumWords_eq {data : List UInt8} {sum : Nat} (h : sum + total data < 0x100000000) :
    sumWords sum data = sum + total data := by
  fun_induction sumWords sum data with
  | case1 sum a b data ih =>
    rw [total, ← Nat.add_assoc] at h
    rw [total]
    have hword : a.toNat <<< 8 ||| b.toNat = a.toNat * 256 + b.toNat := by
      rw [← Nat.shiftLeft_add_eq_or_of_lt b.toNat_lt, Nat.shiftLeft_eq]
    have hroom : sum + (a.toNat * 256 + b.toNat) < 0x100000000 :=
      Nat.lt_of_le_of_lt (Nat.le_add_right _ _) h
    rw [hword, Nat.mod_eq_of_lt hroom] at ih ⊢
    rw [ih h, Nat.add_assoc]
  | case2 sum a =>
    rw [Nat.shiftLeft_eq]
    exact Nat.mod_eq_of_lt h
  | case3 sum => rfl

theorem total_append {pre : List UInt8} (post : List UInt8) (h : pre.length % 2 = 0) :
    total (pre ++ post) = total pre + total post := by
  fun_induction total pre with
  | case1 a b pre ih =>
    have heven : pre.length % 2 = 0 := (Nat.add_mod_right pre.length 2).symm.trans h
    rw [List.cons_append, List.cons_append, total, ih heven]
    exact (Nat.add_assoc _ _ _).symm
  | case2 a => cases h
  | case3 => exact (Nat.zero_add _).symm

/-- The checksum completes the sum to a multiple of 65535. -/
theorem checksum_completes {data : List UInt8} (hlen : data.length ≤ 2 ^ 17) :
    ones_complement_checksum data < 0x10000 ∧
      (ones_complement_checksum data + total data) % 65535 = 0 ∧
      (ones_complement_checksum data = 65535 ↔ total data = 0) := by
  have hle := total_le data
  have hsum := @sumWords_eq data 0 (by omega)
  obtain ⟨hlt, hmod, hzero⟩ := addCarries_mod (sumWords 0 data)
  unfold ones_complement_checksum
  generalize addCarries (sumWords 0 data) = f at hlt hmod hzero ⊢
  rw [hsum] at hmod hzero
  omega

/-- The checksum `c` of a string with an empty field at an even offset completes
its sum to a multiple of 65535, and the string has checksum 0 once `c` stands in
the field. -/
theorem checksum_validates {pre post : List UInt8} {c : Nat} (heven : pre.length % 2 = 0)
    (hlen : (pre ++ 0 :: 0 :: post).length ≤ 2 ^ 17)
    (hc : ones_complement_checksum (pre ++ 0 :: 0 :: post) = c) :
    (c < 0x10000 ∧ (c + total (pre ++ 0 :: 0 :: post)) % 65535 = 0) ∧
      ones_complement_checksum (pre ++ .ofNat (c / 256) :: .ofNat c :: post) = 0 ∧
      Rust.ones_complement_checksum (pre ++ 0 :: 0 :: post) = c := by
  obtain ⟨hlt, hmod, hzero⟩ := checksum_completes hlen
  obtain ⟨hlt', hmod', hzero'⟩ :=
    @checksum_completes (pre ++ .ofNat (c / 256) :: .ofNat c :: post) (by simpa using hlen)
  rw [hc] at hlt hmod hzero
  refine ⟨⟨hlt, hmod⟩, ?_⟩
  have hfield : (UInt8.ofNat (c / 256)).toNat * 256 + (UInt8.ofNat c).toNat = c := by
    rw [UInt8.toNat_ofNat', UInt8.toNat_ofNat']
    omega
  rw [total_append _ heven, total, hfield] at hmod' hzero'
  rw [total_append _ heven, total] at hmod hzero
  have h0 : (0 : UInt8).toNat = 0 := rfl
  constructor
  · omega
  rw [← hc]
  have hcar := addCarries_mod (sumWords 0 (pre ++ 0 :: 0 :: post))
  show 0xFFFF - _ % 0x10000 = (0xFFFFFFFF - _) % 0x10000
  omega

theorem checksum_validates_word :
    let data : List UInt8 := [69, 0] ++ 0 :: 0 :: [1]
    let c := ones_complement_checksum data
    (c < 0x10000 ∧ (c + total data) % 65535 = 0) ∧
      ones_complement_checksum ([69, 0] ++ .ofNat (c / 256) :: .ofNat c :: [1]) = 0 ∧
      Rust.ones_complement_checksum data = c :=
  checksum_validates (by decide) (by decide) rfl
end QosKernel.Probe
