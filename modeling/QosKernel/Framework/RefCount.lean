import QosKernel.Framework.Slots
import Mathlib.Algebra.Order.BigOperators.Group.Finset
import Mathlib.Data.Fintype.BigOperators

/-! # Reference counts

A table of live things, each with a key and a count, and elsewhere the
number of references to each key. `Counted` says that the counts are those
numbers and that exactly the things with references are live.

* `Counted.acquire`, `Counted.add` and `Counted.release`: the three writes of
  the table, each together with the change of the number of references.
* `slotCount`: how many slots of a table meet a test, for references that
  are themselves held in a table.
-/
namespace Framework
variable {c : UInt32}
/-! ### Counting slots -/
section slotCount
variable {n : Nat} {α : Type u} {t : Fin n → α} {i : Fin n} {a : α} {p : α → Bool}
/-- The number of slots that meet a test. -/
def slotCount (p : α → Bool) (t : Fin n → α) : Nat := ∑ i, (p (t i)).toNat

theorem slotCount_set :
    slotCount p (set t i a) + (p (t i)).toNat = slotCount p t + (p a).toNat := by
  unfold slotCount
  rw [← Finset.add_sum_erase _ _ (Finset.mem_univ i),
    ← Finset.add_sum_erase _ (fun j => (p (t j)).toNat) (Finset.mem_univ i), set_self]
  have hrest : ∑ j ∈ Finset.univ.erase i, (p (set t i a j)).toNat =
      ∑ j ∈ Finset.univ.erase i, (p (t j)).toNat := by
    refine Finset.sum_congr rfl fun j hj => ?_
    rw [set_ne (Finset.ne_of_mem_erase hj)]
  rw [hrest]
  omega

theorem slotCount_set_of_eq (h : p a = p (t i)) : slotCount p (set t i a) = slotCount p t := by
  have hset := slotCount_set (t := t) (i := i) (a := a) (p := p)
  rw [h] at hset
  omega

theorem slotCount_le : slotCount p t ≤ n := by
  unfold slotCount
  calc ∑ i, (p (t i)).toNat ≤ ∑ _i : Fin n, 1 := Finset.sum_le_sum fun i _ => Bool.toNat_le _
    _ = n := by simp

theorem slotCount_eq_zero : slotCount p t = 0 ↔ ∀ i, p (t i) = false := by
  unfold slotCount
  simp

theorem slotCount_pos (h : p (t i) = true) : 1 ≤ slotCount p t := by
  by_contra hlt
  have hzero := slotCount_eq_zero.mp (Nat.lt_one_iff.mp (Nat.lt_of_not_le hlt)) i
  rw [h] at hzero
  cases hzero

theorem slotCount_insert (hold : p (t i) = false) (hnew : p a = true) :
    slotCount p (set t i a) = slotCount p t + 1 := by
  have hset := slotCount_set (t := t) (i := i) (a := a) (p := p)
  rw [hold, hnew] at hset
  exact hset

theorem slotCount_erase (hold : p (t i) = true) (hnew : p a = false) :
    slotCount p (set t i a) = slotCount p t - 1 := by
  have hset := slotCount_set (t := t) (i := i) (a := a) (p := p)
  rw [hold, hnew, Bool.toNat_true, Bool.toNat_false] at hset
  omega
end slotCount
/-! ### Counters of 32 bits -/
theorem toNat_succ (h : c.toNat + 1 < 2 ^ 32) : (c + 1).toNat = c.toNat + 1 := by
  rw [UInt32.toNat_add, UInt32.toNat_one, Nat.mod_eq_of_lt h]

theorem toNat_pred (h : 1 ≤ c.toNat) : (c - 1).toNat = c.toNat - 1 := by
  have hle : (1 : UInt32) ≤ c := UInt32.le_iff_toNat_le.mpr (by rwa [UInt32.toNat_one])
  rw [UInt32.toNat_sub_of_le _ _ hle, UInt32.toNat_one]

/-! ### Counts of references -/
section Counted
variable {n : Nat} {H : Type u} {rows : Fin n → Option (H × Nat)} {refs : H → Nat} {i : Fin n}
  {h : H} {c : Nat}
/-- The live rows are those of the keys that have references, one for each,
and their counts are the numbers of references. -/
structure Counted (rows : Fin n → Option (H × Nat)) (refs : H → Nat) : Prop where
  count : ∀ i h c, rows i = some (h, c) → c = refs h
  used : ∀ i h c, rows i = some (h, c) → 0 < c
  live : ∀ h, 0 < refs h → ∃ i c, rows i = some (h, c)
  distinct : ∀ i j h c d, rows i = some (h, c) → rows j = some (h, d) → i = j

theorem Counted.empty (hrows : ∀ i, rows i = none) : Counted rows fun _ => 0 where
  count i h c hi := by
    rw [hrows i] at hi
    cases hi
  used i h c hi := by
    rw [hrows i] at hi
    cases hi
  live h hh := absurd hh (Nat.lt_irrefl 0)
  distinct i j h c d hi _ := by
    rw [hrows i] at hi
    cases hi

variable [DecidableEq H]
/-- The references after one more, or one less, to `h`. -/
def bump (refs : H → Nat) (h : H) : H → Nat := set refs h (refs h + 1)
def drop (refs : H → Nat) (h : H) : H → Nat := set refs h (refs h - 1)
@[simp] theorem bump_self : bump refs h h = refs h + 1 := set_self
@[simp] theorem bump_ne {k : H} (hk : k ≠ h) : bump refs h k = refs k := set_ne hk

theorem le_bump (k : H) : refs k ≤ bump refs h k := by
  by_cases hk : k = h
  · subst hk
    rw [bump_self]
    omega
  rw [bump_ne hk]

theorem bump_le (k : H) : bump refs h k ≤ refs k + 1 := by
  by_cases hk : k = h
  · subst hk
    rw [bump_self]
  rw [bump_ne hk]
  omega

@[simp] theorem drop_self : drop refs h h = refs h - 1 := set_self
@[simp] theorem drop_ne {k : H} (hk : k ≠ h) : drop refs h k = refs k := set_ne hk

/-- Writing the row of `h`: nothing changes for the other keys. -/
theorem Counted.write (hc : Counted rows refs) {row : Option (H × Nat)} {refs' : H → Nat}
    (hother : ∀ k, k ≠ h → refs' k = refs k) (hold : ∀ j k d, rows j = some (k, d) → k = h → j = i)
    (hown : ∀ k d, rows i = some (k, d) → k = h)
    (hrow : row = if refs' h = 0 then none else some (h, refs' h)) :
    Counted (set rows i row) refs' where
  count j k d hj := by
    by_cases hji : j = i
    · subst hji
      rw [set_self, hrow] at hj
      split at hj <;> cases hj
      rfl
    rw [set_ne hji] at hj
    rw [hother k fun hk => hji (hold j k d hj hk)]
    exact hc.count j k d hj
  used j k d hj := by
    by_cases hji : j = i
    · subst hji
      rw [set_self, hrow] at hj
      split at hj
      · cases hj
      cases hj
      omega
    rw [set_ne hji] at hj
    exact hc.used j k d hj
  live k hk := by
    by_cases hkh : k = h
    · subst hkh
      exact ⟨i, refs' k, by rw [set_self, hrow, if_neg (by omega)]⟩
    rw [hother k hkh] at hk
    obtain ⟨j, d, hj⟩ := hc.live k hk
    have hji : j ≠ i := fun e => hkh (hown k d (e ▸ hj))
    exact ⟨j, d, by rw [set_ne hji, hj]⟩
  distinct j l k d e hj hl := by
    by_cases hji : j = i <;> by_cases hli : l = i
    · rw [hji, hli]
    · subst hji
      rw [set_self, hrow] at hj
      rw [set_ne hli] at hl
      split at hj <;> cases hj
      exact absurd (hold l h e hl rfl) hli
    · subst hli
      rw [set_self, hrow] at hl
      rw [set_ne hji] at hj
      split at hl <;> cases hl
      exact absurd (hold j h d hj rfl) hji
    rw [set_ne hji] at hj
    rw [set_ne hli] at hl
    exact hc.distinct j l k d e hj hl

theorem Counted.acquire (hc : Counted rows refs) (hi : rows i = some (h, c)) :
    Counted (set rows i (some (h, c + 1))) (bump refs h) := by
  refine hc.write (fun k hk => bump_ne hk) ?_ ?_ ?_
  · rintro j k d hj rfl
    exact hc.distinct j i k d c hj hi
  · intro k d hk
    rw [hi] at hk
    cases hk
    rfl
  rw [bump_self, if_neg (by omega), hc.count i h c hi]

/-- A key without references gets its first one, and a free row. -/
theorem Counted.add (hc : Counted rows refs) (hi : rows i = none) (hh : refs h = 0) :
    Counted (set rows i (some (h, 1))) (bump refs h) := by
  refine hc.write (fun k hk => bump_ne hk) ?_ ?_ ?_
  · rintro j k d hj rfl
    have hcount := hc.count j k d hj
    have hused := hc.used j k d hj
    omega
  · intro k d hk
    rw [hi] at hk
    cases hk
  rw [bump_self, hh]
  rfl

/-- A reference is given back; the row of a key that has no other is freed. -/
theorem Counted.release (hc : Counted rows refs) (hi : rows i = some (h, c)) :
    Counted (set rows i (if c - 1 = 0 then none else some (h, c - 1))) (drop refs h) := by
  refine hc.write (fun k hk => drop_ne hk) ?_ ?_ ?_
  · rintro j k d hj rfl
    exact hc.distinct j i k d c hj hi
  · intro k d hk
    rw [hi] at hk
    cases hk
    rfl
  rw [drop_self, hc.count i h c hi]
end Counted
end Framework
