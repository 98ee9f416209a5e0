import Mathlib.Data.List.GetD
import Mathlib.Tactic.Common

/-! # Writes to an array, and what it holds after them

A `Patch` is a write of consecutive elements. From the list of the
patches so far follows what an array holds that was blank before the first
of them: at each position the element that was written there last.
-/
namespace Framework
variable {α : Type u}
/-- The elements `data`, written from position `pos` on. -/
structure Patch (α : Type u) where
  pos : Nat
  data : List α

namespace Patch
section
variable (w : Patch α)
def stop : Nat := w.pos + w.data.length
def covers (k : Nat) : Bool := decide (w.pos ≤ k ∧ k < w.stop)

def apply (a : Nat → α) : Nat → α :=
  fun k => if w.covers k then w.data.getD (k - w.pos) (a k) else a k
end
/-- What a write puts at a position does not depend on what was there. -/
theorem getD_of_covers {w : Patch α} {k : Nat} (h : w.covers k = true) (a b : α) :
    w.data.getD (k - w.pos) a = w.data.getD (k - w.pos) b := by
  have hk : w.pos ≤ k ∧ k < w.pos + w.data.length := of_decide_eq_true h
  have hlt : k - w.pos < w.data.length := by omega
  rw [List.getD_eq_getElem _ a hlt, List.getD_eq_getElem _ b hlt]
end Patch
section
variable (log : List (Patch α))
/-- The element that was written last at a position; `blank` where none was. -/
def lastAt (blank : α) (k : Nat) : α :=
  match log.reverse.find? (·.covers k) with
  | none => blank
  | some w => w.data.getD (k - w.pos) blank

/-- The position behind the last one that was written. -/
def extent : Nat := (log.map Patch.stop).foldr max 0

/-- What is found from position `pos` on: up to `len` elements, as far as the
writes went. -/
def readBack (blank : α) (pos len : Nat) : List α :=
  (List.range (min len (extent log - pos))).map fun k => lastAt log blank (pos + k)

theorem lastAt_append (blank : α) (w : Patch α) :
    lastAt (log ++ [w]) blank = w.apply (lastAt log blank) := by
  funext k
  unfold lastAt Patch.apply
  rw [List.reverse_append, List.reverse_singleton, List.singleton_append, List.find?_cons]
  cases h : w.covers k with
  | false => rfl
  | true => exact Patch.getD_of_covers h _ _

theorem extent_append (w : Patch α) : extent (log ++ [w]) = max (extent log) w.stop := by
  induction log with
  | nil => exact Nat.max_comm w.stop 0
  | cons v log ih =>
  show max v.stop (extent (log ++ [w])) = max (max v.stop (extent log)) w.stop
  rw [ih, Nat.max_assoc]
end
theorem readBack_of_extent_le {log : List (Patch α)} {pos : Nat} (h : extent log ≤ pos)
    (blank : α) (len : Nat) : readBack log blank pos len = [] := by
  rw [readBack, Nat.sub_eq_zero_of_le h, Nat.min_zero]
  rfl
end Framework
