import QosKernel.Framework.ArrayLoops
import Mathlib.Data.Nat.ModEq

/-! # Ring buffers

A queue of at most `n` elements in an array, with head, tail and count.
The structure carries what ties the three together, so every ring is the
list of its elements, `toList`: `push` appends and `pop` takes the first.
-/
namespace Framework
structure Ring (α : Type u) (n : Nat) where
  cells : Nat → α
  head : Nat
  tail : Nat
  count : Nat
  head_lt : head < n
  tail_eq : tail = (head + count) % n
  count_le : count ≤ n

namespace Ring
variable {α : Type u} {n : Nat}
def empty (hn : 0 < n) (a : α) : Ring α n where
  cells _ := a
  head := 0
  tail := 0
  count := 0
  head_lt := hn
  tail_eq := (Nat.zero_mod n).symm
  count_le := Nat.zero_le n

section
variable (r : Ring α n)
def push (a : α) : Option (Ring α n) :=
  if h : r.count < n then
    some
      { cells := set r.cells r.tail a
        head := r.head
        tail := (r.tail + 1) % n
        count := r.count + 1
        head_lt := r.head_lt
        tail_eq := by rw [r.tail_eq, Nat.mod_add_mod, Nat.add_assoc]
        count_le := h }
  else none

def pop : Option (α × Ring α n) :=
  if h : 0 < r.count then
    some (r.cells r.head,
      { cells := r.cells
        head := (r.head + 1) % n
        tail := r.tail
        count := r.count - 1
        head_lt := Nat.mod_lt _ (Nat.lt_of_le_of_lt (Nat.zero_le _) r.head_lt)
        tail_eq := by
          rw [r.tail_eq, Nat.mod_add_mod]
          congr 1
          omega
        count_le := (Nat.sub_le _ _).trans r.count_le })
  else none

/-- The elements, first in first. -/
def toList : List α :=
  (List.range r.count).map fun j => r.cells ((r.head + j) % n)

@[simp] theorem length_toList : r.toList.length = r.count := by simp [toList]
end
@[simp] theorem toList_empty (hn : 0 < n) (a : α) : (empty hn a).toList = [] := rfl

theorem push_none {r : Ring α n} {a : α} (h : r.push a = none) : n ≤ r.count := by
  unfold push at h
  split at h
  · cases h
  next hlt => exact Nat.le_of_not_lt hlt

theorem push_eq_none {r : Ring α n} {a : α} : r.push a = none ↔ r.count = n := by
  constructor
  · intro h
    exact Nat.le_antisymm r.count_le (push_none h)
  intro h
  unfold push
  exact dif_neg (Nat.not_lt_of_le h.ge)

theorem toList_push {r r' : Ring α n} {a : α} (h : r.push a = some r') :
    r'.toList = r.toList ++ [a] := by
  unfold push at h
  split at h
  next hlt =>
    obtain rfl := Option.some.inj h
    unfold toList
    rw [List.range_succ, List.map_append, List.map_singleton]
    congr 1
    · refine List.map_congr_left fun j hj => ?_
      -- the cell written is behind the elements that are there
      have hne : (r.head + j) % n ≠ r.tail := by
        intro heq
        rw [r.tail_eq] at heq
        have hmod : j % n = r.count % n := Nat.ModEq.add_left_cancel' r.head heq
        have hj' := List.mem_range.mp hj
        rw [Nat.mod_eq_of_lt (hj'.trans hlt), Nat.mod_eq_of_lt hlt] at hmod
        omega
      exact set_ne hne
    dsimp only
    rw [← r.tail_eq, set_self]
  next => cases h

theorem pop_none {r : Ring α n} (h : r.pop = none) : r.toList = [] := by
  unfold pop at h
  split at h
  · cases h
  next h0 => exact List.length_eq_zero_iff.mp (by rw [length_toList]; omega)

theorem toList_pop {r r' : Ring α n} {a : α} (h : r.pop = some (a, r')) :
    r.toList = a :: r'.toList := by
  unfold pop at h
  split at h
  next hpos =>
    obtain ⟨rfl, rfl⟩ := Prod.mk.inj (Option.some.inj h)
    obtain ⟨m, hm⟩ : ∃ m, r.count = m + 1 := ⟨r.count - 1, by omega⟩
    unfold toList
    dsimp only
    rw [hm, Nat.add_sub_cancel, List.range_succ_eq_map, List.map_cons, List.map_map]
    congr 1
    · rw [Nat.add_zero, Nat.mod_eq_of_lt r.head_lt]
    refine List.map_congr_left fun j _ => ?_
    simp only [Function.comp, Nat.mod_add_mod]
    congr 2
    omega
  next => cases h
end Ring
end Framework
