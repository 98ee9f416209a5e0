import QosKernel.Framework.Slots

/-! # Numbering what lives in the slots of a table

Slots are used again, and so are the names of what they hold. To speak of
one and the same thing over a whole run, everything that comes into a slot
is given the next number. The numbers are found by looking at the table
before and after a step.
-/
namespace Framework
structure Births (n : Nat) where
  /-- How many things have come into the table. -/
  born : Nat
  /-- The number of what is in each slot. -/
  birth : Fin n → Nat

namespace Births
variable {n : Nat} {b : Births n} {used used' : Fin n → Bool}
def init : Births n := ⟨0, fun _ => 0⟩

/-- A slot that is used after a step and was not before holds something new.
No step brings in more than one thing. -/
def observe (b : Births n) (used used' : Fin n → Bool) : Births n where
  born := if (first fun i => used' i && !used i).isSome then b.born + 1 else b.born
  birth i := if used' i && !used i then b.born else b.birth i

/-- Different things have different numbers. -/
structure Ok (b : Births n) (used : Fin n → Bool) : Prop where
  past : ∀ i, used i = true → b.birth i < b.born
  distinct : ∀ i j, used i = true → used j = true → b.birth i = b.birth j → i = j

theorem observe_eq_self (h : ∀ i, used' i = true → used i = true) : b.observe used used' = b := by
  have hold : ∀ i, (used' i && !used i) = false := by
    intro i
    cases hi : used' i with
    | false => rfl
    | true => rw [h i hi]; rfl
  have hnone : (first fun i => used' i && !used i) = none := first_none.mpr hold
  unfold observe
  rw [hnone]
  simp [hold]

theorem observe_new {i : Fin n} (hi : used i = false) (hi' : used' i = true)
    (hother : ∀ j, j ≠ i → used' j = used j) :
    b.observe used used' = ⟨b.born + 1, set b.birth i b.born⟩ := by
  have hnew : ∀ j, (used' j && !used j) = decide (j = i) := by
    intro j
    by_cases hji : j = i
    · simp [hji, hi, hi']
    simp [hji, hother j hji]
  unfold observe
  have hsome : (first fun j => used' j && !used j).isSome = true :=
    first_isSome.mpr ⟨i, by simp [hnew]⟩
  rw [if_pos hsome]
  congr 1
  funext j
  rw [hnew, set_apply]
  by_cases hji : j = i <;> simp [hji]

theorem init_ok (h : ∀ i, used i = false) : init.Ok used := by
  constructor
  · intro i hi
    rw [h i] at hi
    cases hi
  intro i j hi
  rw [h i] at hi
  cases hi

theorem Ok.fewer (h : b.Ok used) (hsub : ∀ i, used' i = true → used i = true) : b.Ok used' :=
  ⟨fun i hi => h.past i (hsub i hi), fun i j hi hj => h.distinct i j (hsub i hi) (hsub j hj)⟩

theorem Ok.new {i : Fin n} (h : b.Ok used) (hother : ∀ j, j ≠ i → used' j = used j) :
    Ok ⟨b.born + 1, set b.birth i b.born⟩ used' := by
  have hpast : ∀ j, j ≠ i → used' j = true → b.birth j < b.born := by
    intro j hji hj
    exact h.past j (hother j hji ▸ hj)
  constructor
  · intro j hj
    by_cases hji : j = i
    · show set b.birth i b.born j < b.born + 1
      rw [hji, set_self]
      exact Nat.lt_succ_self _
    show set b.birth i b.born j < b.born + 1
    rw [set_ne hji]
    exact Nat.lt_succ_of_lt (hpast j hji hj)
  intro j k hj hk heq
  replace heq : set b.birth i b.born j = set b.birth i b.born k := heq
  by_cases hji : j = i <;> by_cases hki : k = i
  · rw [hji, hki]
  · rw [hji, set_self, set_ne hki] at heq
    have := hpast k hki hk
    omega
  · rw [hki, set_self, set_ne hji] at heq
    have := hpast j hji hj
    omega
  rw [set_ne hji, set_ne hki] at heq
  exact h.distinct j k (hother j hji ▸ hj) (hother k hki ▸ hk) heq
end Births
end Framework
