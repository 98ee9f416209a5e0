import Mathlib.Tactic.Common

/-! # Numbers in ASCII

`number` writes a number, `digits` is the loop that programs read one with:
it goes over digits as long as the value stays below a limit.
-/
namespace Framework
def number (base n : Nat) : List UInt8 := (Nat.toDigits base n).map Char.toUInt8
def isDigit (ch : UInt8) : Bool := 48 ≤ ch && ch ≤ 57

/-- The value of the digits `ds` behind those that gave `n`. -/
def value (ds : List UInt8) (n : Nat) : Nat := ds.foldl (fun n ch => n * 10 + (ch - 48).toNat) n

/-- The value and the rest of the text; `none` as soon as the value is above the
limit. -/
def digits (limit : Nat) : List UInt8 → Nat → Option (Nat × List UInt8)
  | [], n => some (n, [])
  | ch :: s, n =>
    if isDigit ch then
      let n := n * 10 + (ch - 48).toNat
      if limit < n then none else digits limit s n
    else some (n, ch :: s)

variable {limit n : Nat} {s ds : List UInt8}
theorem le_value (ds : List UInt8) (n : Nat) : n ≤ value ds n := by
  induction ds generalizing n with
  | nil => exact Nat.le_refl n
  | cons ch ds ih => exact Nat.le_trans (by omega) (ih (n * 10 + (ch - 48).toNat))

/-- Values only grow, so it is the value of all digits that is compared. -/
theorem digits_eq (hn : n ≤ limit) : digits limit s n = if value (s.takeWhile isDigit) n ≤ limit
    then some (value (s.takeWhile isDigit) n, s.dropWhile isDigit) else none := by
  induction s generalizing n with
  | nil => exact (if_pos hn).symm
  | cons ch s ih =>
  rw [digits, List.takeWhile_cons, List.dropWhile_cons]
  split
  · dsimp only
    split
    next hlt =>
      refine (if_neg fun hle => ?_).symm
      exact Nat.not_le.mpr hlt (Nat.le_trans (le_value _ _) hle)
    next hle => exact ih (Nat.not_lt.mp hle)
  exact (if_pos hn).symm

theorem exists_of_digits {rest : List UInt8} (h : digits limit s 0 = some (n, rest)) :
    ∃ ds, s = ds ++ rest ∧ (∀ ch ∈ ds, isDigit ch = true) ∧ value ds 0 = n ∧ n ≤ limit := by
  rw [digits_eq (Nat.zero_le _)] at h
  split at h
  next hle =>
    cases h
    refine ⟨_, List.takeWhile_append_dropWhile.symm, ?_, rfl, hle⟩
    exact List.all_eq_true.mp List.all_takeWhile
  next => cases h

theorem digits_append {rest : List UInt8} (hds : ∀ ch ∈ ds, isDigit ch = true)
    (hrest : ∀ ch ∈ rest.head?, isDigit ch = false) : digits limit (ds ++ rest) 0 =
      if value ds 0 ≤ limit then some (value ds 0, rest) else none := by
  have hstop : rest.takeWhile isDigit = [] ∧ rest.dropWhile isDigit = rest := by
    cases rest with
    | nil => exact ⟨rfl, rfl⟩
    | cons ch rest => simp [hrest ch rfl]
  rw [digits_eq (Nat.zero_le _), List.takeWhile_append_of_pos hds,
    List.dropWhile_append_of_pos hds, hstop.1, hstop.2, List.append_nil]

theorem isDigit_byte {c : Char} (hc : c.isDigit = true) :
    isDigit c.toUInt8 = true ∧ (c.toUInt8 - 48).toNat = c.toNat - '0'.toNat := by
  obtain ⟨hle, hge⟩ := Char.isDigit_iff_toNat.mp hc
  have hle : 48 ≤ c.toNat := hle
  have hge : c.toNat ≤ 57 := hge
  have hbyte : c.toUInt8.toNat = c.toNat :=
    (UInt32.toNat_toUInt8 _).trans (Nat.mod_eq_of_lt (Nat.lt_of_le_of_lt hge (by decide)))
  have hle' : 48 ≤ c.toUInt8 := by rwa [UInt8.le_iff_toNat_le, hbyte]
  have hge' : c.toUInt8 ≤ 57 := by rwa [UInt8.le_iff_toNat_le, hbyte]
  exact ⟨by simp [isDigit, hle', hge'], by rw [UInt8.toNat_sub_of_le _ _ hle', hbyte]; rfl⟩

theorem number_ne_nil (n : Nat) : number 10 n ≠ [] := by simp [number, Nat.toDigits_ne_nil]

theorem isDigit_number {ch : UInt8} (h : ch ∈ number 10 n) : isDigit ch = true := by
  obtain ⟨c, hc, rfl⟩ := List.mem_map.mp h
  exact (isDigit_byte (Nat.isDigit_of_mem_toDigits (by decide) (by decide) hc)).1

theorem value_number (n : Nat) : value (number 10 n) 0 = n := by
  have hall : ∀ (l : List Char) (k : Nat), (∀ c ∈ l, c.isDigit = true) →
      value (l.map Char.toUInt8) k = Nat.ofDigitChars 10 l k := by
    intro l
    induction l with
    | nil => exact fun _ _ => rfl
    | cons c l ih =>
    intro k h
    rw [Nat.ofDigitChars_cons, ← ih _ fun c hc => h c (List.mem_cons_of_mem _ hc),
      ← (isDigit_byte (h c List.mem_cons_self)).2, Nat.mul_comm]
    rfl
  rw [number, hall _ _ fun c hc => Nat.isDigit_of_mem_toDigits (by decide) (by decide) hc,
    Nat.ofDigitChars_ten_toDigits]
end Framework
