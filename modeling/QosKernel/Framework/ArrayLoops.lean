import QosKernel.Framework.Slots

/-! # Loops that shift array elements

An array is a function on indices; `view a n` is the list of its first
`n` elements. Three loops that edit an array in place are described by
what they do to the view:

* `shiftDown` moves the elements after an index one place down;
* `compact` moves the elements that are kept to the front;
* `fill` overwrites a range;

and a loop that resets elements by what it does to each of them.
-/
namespace Framework
variable {i n k : Nat} {α : Type u} {a : Nat → α} {x : α} {p : α → Bool}
section
variable (a : Nat → α)
def view (n : Nat) : List α :=
  (List.range n).map a

@[simp] theorem view_length (n : Nat) : (view a n).length = n := by simp [view]
theorem view_succ (n : Nat) : view a (n + 1) = view a n ++ [a n] := by simp [view, List.range_succ]
end
theorem view_congr {b : Nat → α} (h : ∀ i < n, a i = b i) : view a n = view b n := by
  apply List.map_congr_left
  intro i hi
  exact h i (List.mem_range.mp hi)

@[simp] theorem view_getElem (a : Nat → α) (n i : Nat) (h : i < (view a n).length) :
    (view a n)[i] = a i := by
  simp [view]

theorem mem_view : x ∈ view a n ↔ ∃ i < n, a i = x := by simp [view]

theorem view_set_ge (h : n ≤ i) : view (set a i x) n = view a n := by
  apply view_congr
  intro j hj
  rw [set_ne (by omega)]

/-! ### Searching -/
/-- The loop `for i in i..i+m: if p a[i] then return i`. -/
def search (p : α → Bool) (a : Nat → α) : Nat → Nat → Option Nat
  | _, 0 => none
  | i, m + 1 => if p (a i) then some i else search p a (i + 1) m

theorem search_none : ∀ {m i : Nat},
    search p a i m = none → ∀ j, i ≤ j → j < i + m → p (a j) = false := by
  intro m
  induction m with
  | zero => intro i _ j h1 h2; omega
  | succ m ih =>
  intro i h j h1 h2
  unfold search at h
  split at h
  · simp at h
  next hp =>
  rcases Nat.eq_or_lt_of_le h1 with rfl | hlt
  · simpa using hp
  exact ih h j hlt (by omega)

theorem search_some : ∀ {m i k : Nat}, search p a i m = some k →
    i ≤ k ∧ k < i + m ∧ p (a k) = true ∧ ∀ j, i ≤ j → j < k → p (a j) = false := by
  intro m
  induction m with
  | zero => intro i k h; simp [search] at h
  | succ m ih =>
  intro i k h
  unfold search at h
  split at h
  · next hp =>
    simp only [Option.some.injEq] at h
    subst h
    exact ⟨Nat.le_refl _, by omega, hp, fun j h1 h2 => by omega⟩
  next hp =>
  obtain ⟨h1, h2, h3, h4⟩ := ih h
  refine ⟨by omega, by omega, h3, fun j hj1 hj2 => ?_⟩
  rcases Nat.eq_or_lt_of_le hj1 with rfl | hlt
  · simpa using hp
  exact h4 j hlt hj2

theorem search_split (h : search p a 0 n = some k) :
    view a n = view a k ++ a k :: ((List.range (n - k - 1)).map fun i => a (k + 1 + i)) ∧
      p (a k) = true ∧ ∀ x ∈ view a k, p x = false := by
  obtain ⟨-, hk, hp, hbefore⟩ := search_some h
  refine ⟨?_, hp, ?_⟩
  · have hn : n = k + ((n - k - 1) + 1) := by omega
    have hrange : List.range n = List.range k ++ (List.range ((n - k - 1) + 1)).map (k + ·) := by
      rw [← List.range_add, ← hn]
    rw [view, hrange, List.map_append, List.range_succ_eq_map]
    simp only [List.map_cons, List.map_map, Nat.add_zero]
    refine congrArg _ (congrArg _ (List.map_congr_left fun i _ => ?_))
    show a (k + (i + 1)) = a (k + 1 + i)
    rw [Nat.add_right_comm, Nat.add_assoc]
  intro x hx
  obtain ⟨i, hi, rfl⟩ := mem_view.mp hx
  exact hbefore i (Nat.zero_le _) hi

/-! ### Shifting down -/
/-- The loop `while j + 1 < n: a[j] = a[j + 1]; j++`, with `m = n - 1 - j`
iterations. -/
def shiftDown (a : Nat → α) : Nat → Nat → Nat → α
  | _, 0 => a
  | j, m + 1 => shiftDown (set a j (a (j + 1))) (j + 1) m

theorem shiftDown_apply : ∀ (m : Nat) (a : Nat → α) (j i : Nat),
    shiftDown a j m i = if j ≤ i ∧ i < j + m then a (i + 1) else a i := by
  intro m
  induction m with
  | zero => intro a j i; rw [shiftDown, if_neg (by omega)]
  | succ m ih =>
  intro a j i
  rw [shiftDown, ih]
  by_cases h : j + 1 ≤ i ∧ i < j + 1 + m
  · rw [if_pos h, if_pos (by omega), set_ne (by omega)]
  rw [if_neg h]
  by_cases hij : i = j
  · subst hij; rw [set_self, if_pos (by omega)]
  rw [set_ne hij, if_neg (by omega)]

/-- Shifting down over index `k` removes the element there from the view. -/
theorem view_shiftDown (hk : k < n) (x : α) :
    view (set (shiftDown a k (n - 1 - k)) (n - 1) x) (n - 1) =
      view a k ++ (List.range (n - k - 1)).map fun i => a (k + 1 + i) := by
  apply List.ext_getElem
  · simp; omega
  intro i hi hi'
  have hlt : i < n - 1 := by simpa using hi
  rw [view_getElem, set_ne (by omega), shiftDown_apply]
  by_cases hik : i < k
  · rw [if_neg (by omega), List.getElem_append_left (by simpa using hik), view_getElem]
  rw [if_pos (by omega), List.getElem_append_right (by simpa using hik)]
  simp only [view_length, List.getElem_map, List.getElem_range]
  congr 1
  omega

/-! ### Compaction -/
/-- The loop that copies the elements at `src, src + 1, ...` that do not meet
`p` to `dst, dst + 1, ...`, for `m` elements. Returns the array and the
final `dst`. -/
def compact (p : α → Bool) (a : Nat → α) : Nat → Nat → Nat → (Nat → α) × Nat
  | _, dst, 0 => (a, dst)
  | src, dst, m + 1 =>
    if p (a src) then compact p a (src + 1) dst m
    else compact p (if dst ≠ src then set a dst (a src) else a) (src + 1) (dst + 1) m

/-- Compaction appends the kept elements to what stands before `dst`, and
touches nothing from `src + m` on. -/
theorem view_compact (p : α → Bool) : ∀ (m : Nat) (a : Nat → α) (src dst : Nat), dst ≤ src →
    view (compact p a src dst m).1 (compact p a src dst m).2 =
      view a dst ++ (((List.range m).map fun i => a (src + i)).filter fun x => !p x) ∧
    (compact p a src dst m).2 ≤ src + m := by
  intro m
  induction m with
  | zero => intro a src dst h; exact ⟨by simp [compact], by simpa [compact] using h⟩
  | succ m ih =>
  intro a src dst h
  have hrange : (List.range (m + 1)).map (fun i => a (src + i)) =
      a src :: (List.range m).map fun i => a (src + 1 + i) := by
    rw [List.range_succ_eq_map, List.map_cons, List.map_map]
    refine congrArg _ (List.map_congr_left fun i _ => ?_)
    show a (src + (i + 1)) = a (src + 1 + i)
    rw [Nat.add_right_comm, Nat.add_assoc]
  rw [hrange]
  unfold compact
  rcases hp : p (a src) with _ | _
  · -- kept: the element moves to `dst`
    simp only [Bool.false_eq_true, if_false]
    obtain ⟨hview, hle⟩ := ih (if dst ≠ src then set a dst (a src) else a) (src + 1) (dst + 1)
      (by omega)
    have hdst : (if dst ≠ src then set a dst (a src) else a) dst = a src := by
      split
      · simp
      next hne => rw [not_not.mp hne]
    have hbefore : view (if dst ≠ src then set a dst (a src) else a) dst = view a dst := by
      split
      · exact view_set_ge (Nat.le_refl _)
      rfl
    have hafter : ∀ i, (if dst ≠ src then set a dst (a src) else a) (src + 1 + i) =
        a (src + 1 + i) := by
      intro i
      split
      · rw [set_ne (by omega)]
      rfl
    refine ⟨?_, by omega⟩
    rw [hview, view_succ, hbefore, hdst]
    simp [hafter, hp]
  -- dropped
  simp only [if_true]
  obtain ⟨hview, hle⟩ := ih a (src + 1) dst (by omega)
  exact ⟨by rw [hview]; simp [hp], by omega⟩

/-! ### Filling -/
/-- The loop `while i < n: a[i] = x; i++`, with `m = n - i` iterations. -/
def fill (x : α) (a : Nat → α) : Nat → Nat → Nat → α
  | _, 0 => a
  | i, m + 1 => fill x (set a i x) (i + 1) m

theorem fill_apply (x : α) : ∀ (m : Nat) (a : Nat → α) (i j : Nat),
    fill x a i m j = if i ≤ j ∧ j < i + m then x else a j := by
  intro m
  induction m with
  | zero => intro a i j; rw [fill, if_neg (by omega)]
  | succ m ih =>
  intro a i j
  rw [fill, ih]
  by_cases h : i + 1 ≤ j ∧ j < i + 1 + m
  · rw [if_pos h, if_pos (by omega)]
  rw [if_neg h]
  by_cases hij : j = i
  · subst hij; rw [set_self, if_pos (by omega)]
  rw [set_ne hij, if_neg (by omega)]

theorem view_fill (x : α) (a : Nat → α) (h : i ≤ n) :
    view (fill x a i (n - i)) n = view a i ++ List.replicate (n - i) x := by
  apply List.ext_getElem
  · simp; omega
  intro j hj hj'
  have hlt : j < n := by simpa using hj
  rw [view_getElem, fill_apply]
  by_cases hij : j < i
  · rw [if_neg (by omega), List.getElem_append_left (by simpa using hij), view_getElem]
  rw [if_pos (by omega), List.getElem_append_right (by simpa using hij), List.getElem_replicate]

/-! ### Resetting elements -/
/-- A loop over some indices that sets all elements but those equal to `keep`
to `x`. -/
theorem foldl_reset {ι : Type v} [DecidableEq α] (idx : ι → Nat) (keep x : α) (l : List ι)
    (a : Nat → α) (k : Nat) :
    l.foldl (fun a i => if a (idx i) ≠ keep then set a (idx i) x else a) a k =
      if k ∈ l.map idx then (if a k = keep then keep else x) else a k := by
  induction l generalizing a with
  | nil => simp
  | cons i rest ih =>
  rw [List.foldl_cons, ih, List.map_cons]
  by_cases hk : k = idx i
  · -- this step has set the element, and a later one finds it set
    subst hk
    by_cases hkeep : a (idx i) = keep
    · simp [hkeep]
    simp only [hkeep, ne_eq, not_false_eq_true, if_true, set_self, if_false,
      List.mem_cons, true_or]
    split
    · split
      next hx => exact hx.symm
      next => rfl
    rfl
  have hstep : (if a (idx i) ≠ keep then set a (idx i) x else a) k = a k := by
    split
    · exact set_ne hk
    rfl
  rw [hstep]
  simp [hk]
end Framework
