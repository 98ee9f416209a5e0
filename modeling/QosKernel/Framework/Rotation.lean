import Mathlib.Data.List.Rotate

/-! # Turns in a circle

Elements stand in a list and are served in turns: the first one is served
and moves to the end. `turns l m` are the elements served in the first
`m` turns.

An array with a cursor is such a circle, cut open at the cursor:
`l.rotate c` is the order in which its elements are served. The lemmas at
the end say which cursor keeps this order when an element is taken out.
-/
namespace Framework
variable {α : Type u}
/-- The elements served in `m` turns. -/
def turns : List α → Nat → List α
  | [], _ => []
  | _, 0 => []
  | x :: xs, m + 1 => x :: turns (xs ++ [x]) m

theorem turns_zero (l : List α) : turns l 0 = [] := by
  cases l with
  | nil | cons x xs => rfl

theorem turns_succ {l : List α} (h : l ≠ []) (m : Nat) :
    turns l (m + 1) = l.head h :: turns (l.rotate 1) m := by
  cases l with
  | nil => contradiction
  | cons x xs => rw [turns, List.head_cons, List.rotate_cons_succ, List.rotate_zero]

theorem length_turns {l : List α} (h : l ≠ []) (m : Nat) : (turns l m).length = m := by
  induction m generalizing l with
  | zero => rw [turns_zero, List.length_nil]
  | succ m ih =>
  rw [turns_succ h, List.length_cons, ih]
  simpa using h

/-- Turn `k` serves the element that stands `k` places behind the first, where
the places are counted in a circle. -/
theorem getElem?_turns {l : List α} (h : l ≠ []) {m k : Nat} (hk : k < m) :
    (turns l m)[k]? = l[k % l.length]? := by
  induction m generalizing l k with
  | zero => omega
  | succ m ih =>
  have hpos : 0 < l.length := List.length_pos_iff.mpr h
  rw [turns_succ h]
  cases k with
  | zero =>
    rw [Nat.zero_mod, List.getElem?_cons_zero, ← List.head?_eq_getElem?, List.head?_eq_some_head h]
  | succ k =>
  have hrot : l.rotate 1 ≠ [] := by simpa using h
  rw [List.getElem?_cons_succ, ih hrot (by omega), List.length_rotate,
    List.getElem?_rotate (Nat.mod_lt _ hpos), Nat.mod_add_mod]

/-- In as many turns as there are elements each of them is served once. -/
theorem turns_length (l : List α) : turns l l.length = l := by
  by_cases h : l = []
  · subst h
    rfl
  apply List.ext_getElem?
  intro k
  by_cases hk : k < l.length
  · rw [getElem?_turns h hk, Nat.mod_eq_of_lt hk]
  rw [List.getElem?_eq_none (by rw [length_turns h]; omega), List.getElem?_eq_none (by omega)]

/-- With at least two elements, the first one is not the one behind it. -/
theorem head?_rotate_ne {l : List α} (hnodup : l.Nodup) (hlen : 2 ≤ l.length) :
    (l.rotate 1).head? ≠ l.head? := by
  match l, hlen with
  | x :: y :: rest, _ =>
    rw [List.rotate_cons_succ, List.rotate_zero, List.cons_append, List.head?_cons, List.head?_cons]
    intro h
    have hne : x ≠ y := List.ne_of_not_mem_cons (List.nodup_cons.mp hnodup).1
    exact hne (Option.some.inj h).symm

theorem rotate_of_length_le {l : List α} (hlen : l.length ≤ 1) : l.rotate 1 = l := by
  match l, hlen with
  | [], _ => rfl
  | [x], _ => exact List.rotate_singleton x 1

/-! ### Taking an element out -/
variable [DecidableEq α] {l : List α} {c : Nat} {x : α}
/-- An element behind the cursor leaves, and the cursor stays. -/
theorem rotate_erase_of_mem_drop (hc : c ≤ l.length) (h : x ∉ l.take c) :
    (l.erase x).rotate c = (l.rotate c).erase x := by
  by_cases hx : x ∈ l
  · have hdrop : x ∈ l.drop c := by
      rw [← List.take_append_drop c l, List.mem_append] at hx
      exact hx.resolve_left h
    have herase : l.erase x = l.take c ++ (l.drop c).erase x := by
      conv_lhs => rw [← List.take_append_drop c l]
      exact List.erase_append_right _ h
    have hlen : (l.take c).length = c := List.length_take_of_le hc
    have hrot := List.rotate_append_length_eq (l.take c) ((l.drop c).erase x)
    rw [hlen] at hrot
    rw [herase, hrot, List.rotate_eq_drop_append_take hc, List.erase_append_left _ hdrop]
  have hrot : x ∉ l.rotate c := by simpa using hx
  rw [List.erase_of_not_mem hx, List.erase_of_not_mem hrot]

/-- An element before the cursor leaves, and the cursor moves down by one. -/
theorem rotate_erase_of_mem_take (hc : c ≤ l.length) (hnodup : l.Nodup) (h : x ∈ l.take c) :
    (l.erase x).rotate (c - 1) = (l.rotate c).erase x := by
  have hdrop : x ∉ l.drop c := by
    intro hx
    rw [← List.take_append_drop c l] at hnodup
    exact List.disjoint_of_nodup_append hnodup h hx
  have herase : l.erase x = (l.take c).erase x ++ l.drop c := by
    conv_lhs => rw [← List.take_append_drop c l]
    exact List.erase_append_left _ h
  have hlen : ((l.take c).erase x).length = c - 1 := by
    rw [List.length_erase_of_mem h, List.length_take_of_le hc]
  have hrot := List.rotate_append_length_eq ((l.take c).erase x) (l.drop c)
  rw [hlen] at hrot
  rw [herase, hrot, List.rotate_eq_drop_append_take hc, List.erase_append_right _ hdrop]

/-! ### The next turn after an element has left -/
theorem head?_erase {y : α} (hhead : l.head? = some x) (hne : y ≠ x) :
    (l.erase y).head? = some x := by
  cases l with
  | nil => cases hhead
  | cons z zs =>
  cases hhead
  rw [List.erase_cons_tail (by simpa using Ne.symm hne), List.head?_cons]

/-- `y` leaves the circle, and the one whose turn it is may be put to the end by
mistake. It then loses its turn, unless it is alone. -/
theorem turn_kept_iff {l' : List α} {y : α} {late : Prop} [Decidable late] (hnodup : l.Nodup)
    (hhead : l.head? = some x) (hmem : y ∈ l) (hne : y ≠ x)
    (hl' : l' = if late then (l.erase y).rotate 1 else l.erase y) :
    (l'.head? = some x ↔ ¬(late ∧ 3 ≤ l.length)) ∧
    (¬(late ∧ 3 ≤ l.length) → l' = l.erase y) := by
  have hhead' := head?_erase hhead hne
  have hlen : (l.erase y).length + 1 = l.length := by
    have := List.length_pos_of_mem hmem
    rw [List.length_erase_of_mem hmem]
    omega
  by_cases hlate : late
  · rw [if_pos hlate] at hl'
    by_cases hthree : 3 ≤ l.length
    · have hlost := head?_rotate_ne (hnodup.erase y) (by omega)
      rw [hhead', ← hl'] at hlost
      exact ⟨iff_of_false hlost fun h => h ⟨hlate, hthree⟩, fun h => absurd ⟨hlate, hthree⟩ h⟩
    rw [rotate_of_length_le (by omega)] at hl'
    exact ⟨iff_of_true (hl' ▸ hhead') fun h => hthree h.2, fun _ => hl'⟩
  rw [if_neg hlate] at hl'
  exact ⟨iff_of_true (hl' ▸ hhead') fun h => hlate h.1, fun _ => hl'⟩
end Framework
