import Mathlib.Data.Fintype.Card

/-! # Slot tables

A table is a function from `Fin n`. Programs search such tables with a
loop from index 0 that stops at the first hit: `first`. Writes are
functional updates.
-/
namespace Framework
/-! ### The first slot that meets a test -/
/-- The loop `for i in 0..n: if p i then return i`. -/
def first {n : Nat} (p : Fin n → Bool) : Option (Fin n) :=
  (List.finRange n).find? p

section first
variable {n : Nat} {p : Fin n → Bool}
theorem first_some {i : Fin n} (h : first p = some i) : p i = true := List.find?_some h
theorem first_none : first p = none ↔ ∀ i, p i = false := by simp [first, List.find?_eq_none]

theorem first_isSome : (first p).isSome = true ↔ ∃ i, p i = true := by
  rw [Option.isSome_iff_ne_none, ne_eq, first_none, not_forall]
  simp

theorem first_congr {q : Fin n → Bool} (h : ∀ i, p i = q i) : first p = first q := by rw [funext h]

theorem first_eq_some {i : Fin n} (hi : p i = true) (huniq : ∀ j, p j = true → j = i) :
    first p = some i := by
  cases hf : first p with
  | none => simp [first_none.mp hf i] at hi
  | some j => rw [huniq j (first_some hf)]

theorem first_min {i j : Fin n} (h : first p = some i) (hj : j < i) : p j = false := by
  obtain ⟨-, pre, post, hsplit, hpre⟩ := List.find?_eq_some_iff_append.mp h
  have hmem : j ∈ pre ++ i :: post := hsplit ▸ List.mem_finRange j
  have hsorted : (pre ++ i :: post).Pairwise (· < ·) := hsplit ▸ List.pairwise_lt_finRange n
  rcases List.mem_append.mp hmem with hin | hin
  · simpa using hpre j hin
  have hle : i ≤ j := by
    rcases List.mem_cons.mp hin with rfl | hpost
    · exact le_refl _
    exact le_of_lt ((List.pairwise_cons.mp (List.pairwise_append.mp hsorted).2.1).1 j hpost)
  exact absurd hj (not_lt_of_ge hle)

theorem first_of_min {i : Fin n} (hi : p i = true) (hmin : ∀ j, j < i → p j = false) :
    first p = some i := by
  cases hf : first p with
  | none => simp [first_none.mp hf i] at hi
  | some j =>
  rcases lt_trichotomy j i with hlt | rfl | hlt
  · exact absurd (first_some hf) (by simp [hmin j hlt])
  · rfl
  simp [first_min hf hlt] at hi
end first
/-! ### Updates -/
/-- The table `t` with slot `i` set to `a`. -/
abbrev set {ι : Type v} [DecidableEq ι] {α : Type u} (t : ι → α) (i : ι) (a : α) : ι → α :=
  Function.update t i a

section set
variable {ι : Type v} [DecidableEq ι] {α : Type u} {t : ι → α} {i j : ι} {a b : α}
theorem set_self : set t i a i = a := Function.update_self ..
theorem set_ne (h : j ≠ i) : set t i a j = t j := Function.update_of_ne h ..
theorem set_apply : set t i a j = if j = i then a else t j := Function.update_apply ..
theorem set_set : set (set t i a) i b = set t i b := Function.update_idem ..
theorem set_comm (h : j ≠ i) : set (set t i a) j b = set (set t j b) i a :=
  Function.update_comm h.symm ..
theorem set_eq_self : set t i (t i) = t := Function.update_eq_self ..
theorem set_eq_iff : set t i a = t ↔ a = t i := Function.update_eq_self_iff
theorem set_comp {β : Type w} (f : α → β) :
    (fun j => f (set t i a j)) = set (fun j => f (t j)) i (f a) := Function.comp_update ..
end set
end Framework
