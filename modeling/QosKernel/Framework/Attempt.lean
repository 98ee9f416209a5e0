import Mathlib.Order.Basic
import Mathlib.Tactic.Common
import Mathlib.Algebra.Ring.Nat

/-! # Code that gives up or faults

A piece of code ends in one of three ways: it returns a value, it gives up
(an early `return` of an error value), or it faults (it reads outside of a
buffer, or its arithmetic overflows where that is checked).

* `Attempt`: the three endings, as a monad.
* `Attempt.index`, `add`, `sub`, `mul`, `div`: the operations that fault,
  each with the condition under which it does not.
* `Attempt.loop`: a counting loop that may be left early, with the rule to
  compare two of them.
-/
namespace Framework
inductive Attempt (α : Type u) where
  | ok (a : α)
  | giveUp
  | fault
  deriving DecidableEq

namespace Attempt
variable {p : Prop} {i a b n : Nat} {α : Type u} {β : Type v}
def bind (x : Attempt α) (f : α → Attempt β) : Attempt β :=
  match x with
  | .ok a => f a
  | .giveUp => .giveUp
  | .fault => .fault

instance : Monad Attempt where
  pure := .ok
  bind := bind

@[simp] theorem ok_bind {β : Type u} (a : α) (f : α → Attempt β) : (.ok a >>= f) = f a := rfl

@[simp] theorem giveUp_bind {β : Type u} (f : α → Attempt β) :
    ((.giveUp : Attempt α) >>= f) = .giveUp := rfl

/-- The code goes on only if `p` holds. -/
def require (p : Prop) [Decidable p] : Attempt Unit := if p then .ok () else .giveUp

theorem require_bind [Decidable p] {β : Type} (f : Unit → Attempt β) :
    (require p >>= f) = if p then f () else .giveUp := by
  unfold require
  split <;> rfl

theorem require_ok [Decidable p] {u : Unit} (h : require p = .ok u) : p := by
  unfold require at h
  split at h
  · assumption
  cases h

/-! ### Going step by step -/
section steps
variable {α β : Type u} {x : Attempt α} {f g : α → Attempt β}
theorem bind_congr (h : ∀ a, x = .ok a → f a = g a) : (x >>= f) = (x >>= g) := by
  cases x with
  | ok a => exact h a rfl
  | giveUp | fault => rfl
end steps
/-! ### Operations that are checked -/
/-- One element of a buffer. -/
def index (l : List α) (i : Nat) : Attempt α :=
  match l[i]? with
  | some a => .ok a
  | none => .fault

theorem index_eq {l : List α} (h : i < l.length) : index l i = .ok l[i] := by
  unfold index
  rw [List.getElem?_eq_getElem h]

/-- The result of an operation on words of 64 bits; it faults if the result
does not fit. -/
def word (n : Nat) : Attempt Nat := if n < 2 ^ 64 then .ok n else .fault

section
variable (a b : Nat)
def add : Attempt Nat := word (a + b)
def mul : Attempt Nat := word (a * b)
def sub : Attempt Nat := if b ≤ a then .ok (a - b) else .fault
def div : Attempt Nat := if b = 0 then .fault else .ok (a / b)
end
theorem add_eq (h : a + b < 2 ^ 64) : add a b = .ok (a + b) := if_pos h
theorem mul_eq (h : a * b < 2 ^ 64) : mul a b = .ok (a * b) := if_pos h
theorem sub_eq (h : b ≤ a) : sub a b = .ok (a - b) := if_pos h
theorem div_eq (h : b ≠ 0) : div a b = .ok (a / b) := if_neg h

/-! ### Loops -/
/-- The loop `for i in i..i + n`. -/
def loop {σ : Type u} (body : Nat → σ → Attempt σ) : Nat → Nat → σ → Attempt σ
  | 0, _, s => .ok s
  | n + 1, i, s => body i s >>= loop body n (i + 1)

/-- Two loops whose bodies agree wherever the invariant holds. -/
theorem loop_congr {σ : Type u} {f g : Nat → σ → Attempt σ} (inv : Nat → σ → Prop) {s : σ}
    (hbody : ∀ j s, i ≤ j → j < i + n → inv j s → f j s = g j s)
    (hkeep : ∀ j s s', i ≤ j → j < i + n → inv j s → f j s = .ok s' → inv (j + 1) s') (h : inv i s) :
    loop f n i s = loop g n i s := by
  induction n generalizing i s with
  | zero => rfl
  | succ n ih =>
  unfold loop
  have hfg := hbody i s (Nat.le_refl i) (by omega) h
  rw [← hfg]
  cases hf : f i s with
  | giveUp | fault => rfl
  | ok s' =>
  -- the rest of both loops starts from the same state
  have hs' := hkeep i s s' (Nat.le_refl i) (by omega) h hf
  refine ih (fun j s hij hj hinv => hbody j s (by omega) (by omega) hinv) ?_ hs'
  intro j s s' hij hj hinv
  exact hkeep j s s' (by omega) (by omega) hinv

/-- A loop whose body goes on or gives up, by a test of the number alone: it
comes to its end exactly when all numbers pass. -/
theorem loop_ends {σ : Type u} {f : Nat → σ → Attempt σ} {Pass : Nat → Prop}
    (inv : Nat → σ → Prop) {s : σ}
    (hbody : ∀ j s, i ≤ j → j < i + n → inv j s →
      Pass j ∧ (∃ s', f j s = .ok s' ∧ inv (j + 1) s') ∨ ¬Pass j ∧ f j s = .giveUp) (h : inv i s) :
    (∀ j, i ≤ j → j < i + n → Pass j) ∧ (∃ s', loop f n i s = .ok s' ∧ inv (i + n) s') ∨
      (¬∀ j, i ≤ j → j < i + n → Pass j) ∧ loop f n i s = .giveUp := by
  induction n generalizing i s with
  | zero => exact .inl ⟨fun j hij hj => by omega, s, rfl, h⟩
  | succ n ih =>
  unfold loop
  obtain ⟨hpass, s', hf, hs'⟩ | ⟨hpass, hf⟩ := hbody i s (Nat.le_refl i) (by omega) h
  · rw [hf]
    have hall : (∀ j, i ≤ j → j < i + (n + 1) → Pass j) ↔
        ∀ j, i + 1 ≤ j → j < i + 1 + n → Pass j := by
      constructor
      · intro hall j hij hj
        exact hall j (by omega) (by omega)
      intro hall j hij hj
      rcases Nat.eq_or_lt_of_le hij with rfl | hlt
      · exact hpass
      exact hall j hlt (by omega)
    have hend : i + (n + 1) = i + 1 + n := by omega
    rw [hall, hend]
    exact ih (fun j s hij hj hinv => hbody j s (by omega) (by omega) hinv) hs'
  rw [hf]
  exact .inr ⟨fun hall => hpass (hall i (Nat.le_refl i) (by omega)), rfl⟩
end Attempt
end Framework
