import Mathlib.Tactic.Common
import Mathlib.Algebra.Ring.Nat

/-! # Code that may not return

A piece of code returns a value, or it ends in a trap: a check that the
language makes fails, or the code waits for something that never comes.

* `Checked`: such code, as a monad.
* `Checked.slice`, `Checked.ensure` and `Checked.add`: the checks.
* `Returns x P`: the code `x` returns, and what it returns has `P`. There
  is one rule for each way to build code.
* `Checked.find`: a search whose test may trap.
-/
namespace Framework
/-- Why code does not return. -/
inductive Trap where
  /-- An index or a slice is out of range. -/
  | bounds
  /-- The result of an operation does not fit. -/
  | overflow
  /-- The code waits for ever. -/
  | spin
  deriving DecidableEq

abbrev Checked (α : Type) := Except Trap α

/-! ### Checks -/
namespace Checked
variable {a b : UInt64} {α β : Type}
def ensure (p : Prop) [Decidable p] (trap : Trap) : Checked Unit :=
  if p then .ok () else .error trap

/-- The slice `lo..hi` of a buffer of `len` elements. -/
def slice (lo hi len : Nat) : Checked Unit := ensure (lo ≤ hi ∧ hi ≤ len) .bounds

def add (a b : UInt64) : Checked UInt64 :=
  if a.toNat + b.toNat < 2 ^ 64 then .ok (a + b) else .error .overflow

@[simp] theorem ok_bind (a : α) (f : α → Checked β) : ((.ok a : Checked α) >>= f) = f a := rfl

theorem ensure_of {p : Prop} [Decidable p] (hp : p) (trap : Trap) :
    ensure p trap = .ok () := if_pos hp

theorem slice_of {lo hi len : Nat} (hlo : lo ≤ hi) (hhi : hi ≤ len) :
    slice lo hi len = .ok () := if_pos ⟨hlo, hhi⟩

theorem add_of (h : a.toNat + b.toNat < 2 ^ 64) : add a b = .ok (a + b) := if_pos h
theorem add_of_not (h : ¬a.toNat + b.toNat < 2 ^ 64) : add a b = .error .overflow := if_neg h

theorem bind_eq_ok {x : Checked α} {f : α → Checked β} {b : β} (h : (x >>= f) = .ok b) :
    ∃ a, x = .ok a ∧ f a = .ok b := by
  cases x with
  | error trap => cases h
  | ok a => exact ⟨a, rfl, h⟩

/-- The trap that code ends in, if it does. -/
def ending : Checked α → Option Trap
  | .ok _ => none
  | .error trap => some trap

theorem eq_error_of_ending {x : Checked α} {trap : Trap} (h : x.ending = some trap) :
    x = .error trap := by
  cases x with
  | ok a => cases h
  | error t => rw [Option.some.inj h]

theorem exists_ok_of_any {x : Checked α} {P : α → Prop} [DecidablePred P]
    (h : x.toOption.any (fun a => decide (P a)) = true) : ∃ a, x = .ok a ∧ P a := by
  cases x with
  | ok a => exact ⟨a, rfl, of_decide_eq_true h⟩
  | error t => cases h
end Checked
/-! ### Code that returns -/
section Returns
variable {p : Prop} {α β : Type} {x : Checked α} {P Q : α → Prop}
/-- The code returns a value with `P`. -/
def Returns (x : Checked α) (P : α → Prop) : Prop := ∃ a, x = .ok a ∧ P a
theorem returns_ok {a : α} (h : P a) : Returns (.ok a) P := ⟨a, rfl, h⟩

theorem Returns.bind {f : α → Checked β} {R : β → Prop} (hx : Returns x P)
    (hf : ∀ a, P a → Returns (f a) R) : Returns (x >>= f) R := by
  obtain ⟨a, rfl, ha⟩ := hx
  exact hf a ha

theorem Returns.mono (hx : Returns x P) (h : ∀ a, P a → Q a) : Returns x Q := by
  obtain ⟨a, ha, hp⟩ := hx
  exact ⟨a, ha, h a hp⟩

theorem returns_ite [Decidable p] {y : Checked α} (hx : p → Returns x P) (hy : ¬p → Returns y P) :
    Returns (if p then x else y) P := by
  split
  · exact hx ‹_›
  exact hy ‹_›

theorem returns_guard [Decidable p] {a : α} {y : Checked α} (ha : P a) (hy : Returns y P) :
    Returns (if p then .ok a else y) P :=
  returns_ite (fun _ => returns_ok ha) fun _ => hy

theorem returns_ensure [Decidable p] {trap : Trap} (hp : p) :
    Returns (Checked.ensure p trap) fun _ => True :=
  ⟨(), Checked.ensure_of hp trap, trivial⟩

theorem returns_slice {lo hi len : Nat} (hlo : lo ≤ hi) (hhi : hi ≤ len) :
    Returns (Checked.slice lo hi len) fun _ => True :=
  returns_ensure ⟨hlo, hhi⟩

theorem Returns.of_eq_ok (hx : Returns x P) {a : α} (h : x = .ok a) : P a := by
  obtain ⟨b, hb, hp⟩ := hx
  rw [hb] at h
  cases h
  exact hp
end Returns
/-! ### Searches -/
namespace Checked
variable {α : Type} {p : α → Checked Bool} {q : α → Bool}
/-- A search that stops at the first hit. -/
def find (p : α → Checked Bool) : List α → Checked (Option α)
  | [] => .ok none
  | a :: rest => p a >>= fun hit => if hit then .ok (some a) else find p rest

/-- If the test never traps, the search is the one that cannot trap. -/
theorem find_eq {l : List α} (h : ∀ a ∈ l, p a = .ok (q a)) : find p l = .ok (l.find? q) := by
  induction l with
  | nil => rfl
  | cons a rest ih =>
  have hrest := ih fun b hb => h b (List.mem_cons_of_mem a hb)
  rw [find, h a List.mem_cons_self, ok_bind, hrest, List.find?_cons]
  cases q a with
  | true | false => rfl
end Checked
end Framework
