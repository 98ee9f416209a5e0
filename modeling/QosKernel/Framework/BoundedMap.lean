import Mathlib.Data.List.Nodup

/-! # Bounded maps, and ranges of keys with rollback

A store of type `σ` that holds a bounded map: `put` fails when a new key
finds no room, `del` fails on a key without a value. Two loops over a
list of keys are analysed:

* `putAll` puts the keys one after the other and, when one fails, deletes
  those it has put, whether or not they had a value before;
* `delAll` deletes the keys one after the other and stops at the first
  that fails.

For each the result is characterised exactly, and with it the condition
under which a failing loop leaves the map as it was.
-/
namespace Framework
/-- The operations of a store that holds a map, and the laws they obey for the
keys in `dom`. -/
structure BoundedMap (σ : Type u) (K : Type v) (V : Type w) [DecidableEq K] where
  get : σ → K → Option V
  put : σ → K → V → Option σ
  del : σ → K → Option σ
  room : σ → Nat
  cap : Nat
  dom : K → Prop
  put_none : ∀ s k v, dom k → (put s k v = none ↔ get s k = none ∧ room s = 0)
  put_get : ∀ s k v s', dom k → put s k v = some s' →
    ∀ k', get s' k' = if k' = k then some v else get s k'
  put_room : ∀ s k v s', dom k → put s k v = some s' →
    room s = room s' + if get s k = none then 1 else 0
  del_none : ∀ s k, dom k → (del s k = none ↔ get s k = none)
  del_get : ∀ s k s', dom k → del s k = some s' →
    ∀ k', get s' k' = if k' = k then none else get s k'
  bounded : ∀ s (ks : List K), ks.Nodup → (∀ k ∈ ks, dom k ∧ get s k ≠ none) → ks.length ≤ cap

namespace BoundedMap
variable {σ : Type u} {K : Type v} {V : Type w} [DecidableEq K] (B : BoundedMap σ K V)
variable {ks : List K} {s : σ}
/-! ### The loops -/
/-- Deletes the keys of a list, skipping those that fail. -/
def rollback (s : σ) (ks : List K) : σ :=
  ks.foldl (fun s k => (B.del s k).getD s) s

/-- Puts `val k` for the keys of `todo`; `done` are the keys put so far, the
latest first. -/
def putAll (val : K → V) (s : σ) (done : List K) : List K → Except σ σ
  | [] => .ok s
  | k :: todo =>
    match B.put s k (val k) with
    | some s' => putAll val s' (k :: done) todo
    | none => .error (B.rollback s done)

/-- Deletes the keys of a list; stops at the first that fails. -/
def delAll (s : σ) : List K → Except σ σ
  | [] => .ok s
  | k :: todo =>
    match B.del s k with
    | some s' => delAll s' todo
    | none => .error s

/-- The number of keys of a list that have no value. -/
def missing (s : σ) (ks : List K) : Nat :=
  (ks.filter fun k => (B.get s k).isNone).length

/-! ### Rollback -/
/-- Rollback leaves every key of the list without a value. -/
theorem get_rollback (hdom : ∀ k ∈ ks, B.dom k) (s : σ) (k : K) :
    B.get (B.rollback s ks) k = if k ∈ ks then none else B.get s k := by
  induction ks generalizing s with
  | nil => simp [rollback]
  | cons k₀ ks ih =>
  have hstep : B.rollback s (k₀ :: ks) = B.rollback ((B.del s k₀).getD s) ks := rfl
  rw [hstep, ih (fun k hk => hdom k (by simp [hk]))]
  by_cases hk : k ∈ ks
  · simp [hk]
  rcases hd : B.del s k₀ with _ | s'
  · -- nothing to delete: the key had no value
    have hnone := (B.del_none s k₀ (hdom k₀ (by simp))).mp hd
    by_cases hkk : k = k₀
    · subst hkk; simp [hnone]
    simp [hk, hkk]
  have hget := B.del_get s k₀ s' (hdom k₀ (by simp)) hd k
  rw [if_neg hk, Option.getD_some, hget]
  by_cases hkk : k = k₀ <;> simp [hk, hkk]

/-! ### Missing keys -/
theorem missing_cons (s : σ) (k : K) (ks : List K) :
    B.missing s (k :: ks) = (if B.get s k = none then 1 else 0) + B.missing s ks := by
  rcases h : B.get s k with _ | v
  · simp [missing, h, Nat.add_comm]
  simp [missing, h]

/-- Putting one key does not change what is missing among the others. -/
theorem missing_put {s' : σ} {k : K} {v : V} (hdom : B.dom k)
    (hk : k ∉ ks) (h : B.put s k v = some s') : B.missing s' ks = B.missing s ks := by
  refine congrArg List.length (List.filter_congr fun k' hk' => ?_)
  have hne : k' ≠ k := fun e => hk (e ▸ hk')
  rw [B.put_get s k v s' hdom h k', if_neg hne]

theorem missing_le_length (s : σ) (ks : List K) : B.missing s ks ≤ ks.length :=
  List.length_filter_le _ _

theorem missing_eq_length (h : ∀ k ∈ ks, B.get s k = none) : B.missing s ks = ks.length := by
  refine congrArg List.length (List.filter_eq_self.mpr fun k hk => ?_)
  simp [h k hk]

/-! ### Putting a range -/
section
variable (val : K → V)
theorem putAll_ok (hdom : ∀ k ∈ ks, B.dom k) (hnd : ks.Nodup) (done : List K)
    (hroom : B.missing s ks ≤ B.room s) :
    ∃ s', B.putAll val s done ks = .ok s' ∧
      ∀ k, B.get s' k = if k ∈ ks then some (val k) else B.get s k := by
  induction ks generalizing s done with
  | nil => exact ⟨s, rfl, by simp⟩
  | cons k₀ ks ih =>
  have hk₀ := hdom k₀ (by simp)
  rw [List.nodup_cons] at hnd
  rw [missing_cons] at hroom
  rcases hp : B.put s k₀ (val k₀) with _ | s₁
  · have := (B.put_none s k₀ (val k₀) hk₀).mp hp
    simp only [this.1, this.2, if_true] at hroom
    omega
  have hr := B.put_room s k₀ (val k₀) s₁ hk₀ hp
  have hm := B.missing_put hk₀ hnd.1 hp
  obtain ⟨s', hs', hget⟩ := ih (fun k hk => hdom k (by simp [hk])) hnd.2 (s := s₁)
    (k₀ :: done) (by omega)
  refine ⟨s', by simp only [putAll, hp, hs'], fun k => ?_⟩
  rw [hget k, B.put_get s k₀ (val k₀) s₁ hk₀ hp k]
  by_cases hkk : k = k₀
  · subst hkk; simp [hnd.1]
  simp [hkk]

/-- Without room for every missing key, the loop stops at the first missing
key that finds no room, and rollback leaves the keys before it without a
value. -/
theorem putAll_error (hdom : ∀ k ∈ ks, B.dom k) (hnd : ks.Nodup) (done : List K)
    (hdone : ∀ k ∈ done, B.dom k) (hroom : B.room s < B.missing s ks) :
    ∃ s' pre k post, ks = pre ++ k :: post ∧ B.putAll val s done ks = .error s' ∧
      B.get s k = none ∧ B.missing s pre = B.room s ∧
      ∀ k', B.get s' k' = if k' ∈ done ∨ k' ∈ pre then none else B.get s k' := by
  induction ks generalizing s done with
  | nil => simp [missing] at hroom
  | cons k₀ ks ih =>
  have hk₀ := hdom k₀ (by simp)
  rw [List.nodup_cons] at hnd
  rw [missing_cons] at hroom
  rcases hp : B.put s k₀ (val k₀) with _ | s₁
  · have hnone := (B.put_none s k₀ (val k₀) hk₀).mp hp
    refine ⟨B.rollback s done, [], k₀, ks, rfl, by simp [putAll, hp], hnone.1, ?_, ?_⟩
    · rw [hnone.2]; rfl
    intro k'
    simp [B.get_rollback hdone]
  have hr := B.put_room s k₀ (val k₀) s₁ hk₀ hp
  have hm := B.missing_put hk₀ hnd.1 hp
  obtain ⟨s', pre, k, post, rfl, hs', hgk, hmiss, hget⟩ :=
    ih (fun k hk => hdom k (by simp [hk])) hnd.2 (s := s₁) (k₀ :: done)
      (by simpa [hk₀] using hdone) (by omega)
  have hput := B.put_get s k₀ (val k₀) s₁ hk₀ hp
  have hkk : k ≠ k₀ := fun e => hnd.1 (by simp [e])
  have hpre : k₀ ∉ pre := fun e => hnd.1 (by simp [e])
  refine ⟨s', k₀ :: pre, k, post, rfl, by simp only [putAll, hp, hs'], ?_, ?_, ?_⟩
  · rw [hput k, if_neg hkk] at hgk
    exact hgk
  · rw [missing_cons, ← B.missing_put hk₀ hpre hp]
    omega
  intro k'
  rw [hget k', hput k']
  by_cases hk' : k' = k₀
  · subst hk'; simp
  simp [hk']

/-- A failing `putAll` leaves the map as it was exactly when none of the keys
up to the one that finds no room had a value. -/
theorem putAll_error_unchanged (hdom : ∀ k ∈ ks, B.dom k)
    (hnd : ks.Nodup) (hroom : B.room s < B.missing s ks) :
    ∃ s', B.putAll val s [] ks = .error s' ∧ ((∀ k ∈ ks.take (B.room s + 1), B.get s k = none) →
        ∀ k, B.get s' k = B.get s k) ∧
      ((¬∀ k ∈ ks.take (B.room s + 1), B.get s k = none) →
        ∃ k ∈ ks, B.get s k ≠ none ∧ B.get s' k = none) := by
  obtain ⟨s', pre, k, post, rfl, hs', hgk, hmiss, hget⟩ :=
    B.putAll_error val hdom hnd [] (by simp) hroom
  -- the keys before the failing one are missing exactly when there are `room` many
  have hlen := B.missing_le_length s pre
  refine ⟨s', hs', fun hnone k' => ?_, fun hsome => ?_⟩
  · rw [hget k']
    by_cases hk' : k' ∈ pre
    · have hpre : pre.length ≤ B.room s := by
        by_contra hlt
        have htake : (pre ++ k :: post).take (B.room s + 1) = pre.take (B.room s + 1) :=
          List.take_append_of_le_length (by omega)
        rw [htake] at hnone
        have hmt := B.missing_eq_length hnone
        have hle : B.missing s (pre.take (B.room s + 1)) ≤ B.missing s pre :=
          ((List.take_sublist _ _).filter _).length_le
        rw [List.length_take] at hmt
        omega
      have : B.get s k' = none := by
        apply hnone k'
        rw [List.take_append, List.take_of_length_le (by omega)]
        exact List.mem_append_left _ hk'
      simp [hk', this]
    simp [hk']
  by_contra hall
  push Not at hall
  apply hsome
  have hpre : ∀ k' ∈ pre, B.get s k' = none := by
    intro k' hk'
    by_contra hne
    exact hall k' (by simp [hk']) hne (by simp [hget k', hk'])
  have hlen' := B.missing_eq_length hpre
  intro k' hk'
  have htake : (pre ++ k :: post).take (B.room s + 1) = pre ++ [k] := by
    have hone : B.room s + 1 - pre.length = 1 := by omega
    rw [List.take_append, List.take_of_length_le (by omega), hone]
    rfl
  rw [htake, List.mem_append, List.mem_singleton] at hk'
  rcases hk' with hk' | rfl
  · exact hpre k' hk'
  exact hgk
end
/-! ### Deleting a range -/
theorem delAll_ok (hdom : ∀ k ∈ ks, B.dom k) (hnd : ks.Nodup) (hall : ∀ k ∈ ks, B.get s k ≠ none) :
    ∃ s', B.delAll s ks = .ok s' ∧ ∀ k, B.get s' k = if k ∈ ks then none else B.get s k := by
  induction ks generalizing s with
  | nil => exact ⟨s, rfl, by simp⟩
  | cons k₀ ks ih =>
  have hk₀ := hdom k₀ (by simp)
  rw [List.nodup_cons] at hnd
  rcases hd : B.del s k₀ with _ | s₁
  · exact absurd ((B.del_none s k₀ hk₀).mp hd) (hall k₀ (by simp))
  have hget₁ := B.del_get s k₀ s₁ hk₀ hd
  obtain ⟨s', hs', hget⟩ := ih (fun k hk => hdom k (by simp [hk])) hnd.2 (s := s₁) (by
    intro k hk
    have hne : k ≠ k₀ := fun e => hnd.1 (e ▸ hk)
    rw [hget₁ k, if_neg hne]
    exact hall k (by simp [hk]))
  refine ⟨s', by simp only [delAll, hd, hs'], fun k => ?_⟩
  rw [hget k, hget₁ k]
  by_cases hkk : k = k₀
  · subst hkk; simp
  simp [hkk]

/-- When some key of the range has no value, the loop stops at the first such
key, with the keys before it deleted. -/
theorem delAll_error (hdom : ∀ k ∈ ks, B.dom k) (hnd : ks.Nodup)
    (hsome : ∃ k ∈ ks, B.get s k = none) :
    ∃ s' pre k post, ks = pre ++ k :: post ∧ B.delAll s ks = .error s' ∧
      B.get s k = none ∧ (∀ k' ∈ pre, B.get s k' ≠ none) ∧
      ∀ k', B.get s' k' = if k' ∈ pre then none else B.get s k' := by
  induction ks generalizing s with
  | nil => obtain ⟨k, hk, -⟩ := hsome; simp at hk
  | cons k₀ ks ih =>
  have hk₀ := hdom k₀ (by simp)
  rw [List.nodup_cons] at hnd
  rcases hd : B.del s k₀ with _ | s₁
  · have hnone := (B.del_none s k₀ hk₀).mp hd
    exact ⟨s, [], k₀, ks, rfl, by simp [delAll, hd], hnone, by simp, by simp⟩
  have hne₀ : B.get s k₀ ≠ none := fun h => by simp [(B.del_none s k₀ hk₀).mpr h] at hd
  have hget₁ := B.del_get s k₀ s₁ hk₀ hd
  obtain ⟨s', pre, k, post, rfl, hs', hgk, hpre, hget⟩ :=
    ih (fun k hk => hdom k (by simp [hk])) hnd.2 (s := s₁) (by
      obtain ⟨k, hk, hgk⟩ := hsome
      rcases List.mem_cons.mp hk with rfl | hk
      · exact absurd hgk hne₀
      exact ⟨k, hk, by rw [hget₁ k, hgk, ite_self]⟩)
  have hin : ∀ k', k' ∈ pre ++ k :: post → k' ≠ k₀ := fun k' hk' e => hnd.1 (e ▸ hk')
  refine ⟨s', k₀ :: pre, k, post, rfl, by simp only [delAll, hd, hs'], ?_, ?_, ?_⟩
  · rw [hget₁ k, if_neg (hin k (by simp))] at hgk
    exact hgk
  · intro k' hk'
    rcases List.mem_cons.mp hk' with rfl | hk'
    · exact hne₀
    have := hpre k' hk'
    rw [hget₁ k', if_neg (hin k' (by simp [hk']))] at this
    exact this
  intro k'
  rw [hget k', hget₁ k']
  by_cases hkk : k' = k₀
  · subst hkk; simp
  simp [hkk]
end BoundedMap
end Framework
