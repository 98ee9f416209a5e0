import QosKernel.Framework.Slots

/-! # Finite maps in slot tables

A map with at most `n` entries, kept in a table of `n` slots without
order. Searches are linear; a new key takes the first empty slot. The
structure carries the fact that no key occupies two slots.
-/
namespace Framework
structure SlotMap (κ : Type u) (ν : Type v) (n : Nat) where
  slots : Fin n → Option (κ × ν)
  distinct : ∀ i j k v w, slots i = some (k, v) → slots j = some (k, w) → i = j

namespace SlotMap
variable {κ : Type u} {ν : Type v} {n : Nat} [DecidableEq κ]
/-! ### Operations -/
def empty : SlotMap κ ν n := ⟨fun _ => none, by simp⟩

section
variable (m : SlotMap κ ν n)
def find (k : κ) : Option (Fin n) :=
  first fun i => (m.slots i).any fun e => e.1 = k

def freeSlot : Option (Fin n) :=
  first fun i => (m.slots i).isNone

def get (k : κ) : Option ν :=
  (m.find k).bind fun i => (m.slots i).map Prod.snd
end
theorem find_some {m : SlotMap κ ν n} {k : κ} {i : Fin n} (h : m.find k = some i) :
    ∃ v, m.slots i = some (k, v) := by
  have hi := first_some h
  rcases hs : m.slots i with _ | ⟨k', v⟩
  · simp [hs] at hi
  simp only [hs, Option.any_some, decide_eq_true_eq] at hi
  exact ⟨v, by rw [hi]⟩

theorem find_none {m : SlotMap κ ν n} {k : κ} (h : m.find k = none) :
    ∀ i v, m.slots i ≠ some (k, v) := by
  intro i v hs
  have := first_none.mp h i
  simp [hs] at this

omit [DecidableEq κ] in
theorem freeSlot_some {m : SlotMap κ ν n} {i : Fin n} (h : m.freeSlot = some i) :
    m.slots i = none := by
  simpa using first_some h

section
variable (m : SlotMap κ ν n)
/-- Writing `(k, v)` into slot `i` keeps keys distinct if `k` is nowhere else. -/
def write (i : Fin n) (k : κ) (v : ν)
    (h : ∀ j w, m.slots j = some (k, w) → j = i) : SlotMap κ ν n where
  slots := set m.slots i (some (k, v))
  distinct := by
    intro a b k' v' w' ha hb
    rw [set_apply] at ha hb
    split at ha <;> split at hb
    · next ha' hb' => rw [ha', hb']
    · next ha' hb' =>
      simp only [Option.some.injEq, Prod.mk.injEq] at ha
      exact absurd (h b w' (ha.1 ▸ hb)) hb'
    · next ha' hb' =>
      simp only [Option.some.injEq, Prod.mk.injEq] at hb
      exact absurd (h a v' (hb.1 ▸ ha)) ha'
    exact m.distinct a b k' v' w' ha hb

/-- Emptying slot `i`. -/
def clear (i : Fin n) : SlotMap κ ν n where
  slots := set m.slots i none
  distinct := by
    intro a b k v w ha hb
    rw [set_apply] at ha hb
    split at ha <;> split at hb
    · simp at ha
    · simp at ha
    · simp at hb
    exact m.distinct a b k v w ha hb

/-- Sets the value of `k`, in its slot or else in the first empty one; fails
if there is neither. -/
def put (k : κ) (v : ν) : Option (SlotMap κ ν n) :=
  match hf : m.find k with
  | some i =>
    some (m.write i k v fun j w hj => by
      obtain ⟨v', hi⟩ := find_some hf
      exact m.distinct j i k w v' hj hi)
  | none =>
    match m.freeSlot with
    | some i => some (m.write i k v fun j w hj => absurd hj (find_none hf j w))
    | none => none

/-- Removes `k`; fails if there is no such key. -/
def del (k : κ) : Option (SlotMap κ ν n) :=
  match m.find k with
  | some i => some (m.clear i)
  | none => none

/-- Changes the values in all slots; what has no new value is dropped. -/
def adjust (f : ν → Option ν) : SlotMap κ ν n where
  slots i := (m.slots i).bind fun (k, v) => (f v).map (k, ·)
  distinct := by
    intro i j k v w hi hj
    simp only [Option.bind_eq_some_iff, Option.map_eq_some_iff, Prod.exists, Prod.mk.injEq] at hi hj
    obtain ⟨_, v', hi, _, -, rfl, -⟩ := hi
    obtain ⟨_, w', hj, _, -, rfl, -⟩ := hj
    exact m.distinct i j _ v' w' hi hj

def room : Nat :=
  (Finset.univ.filter fun i => (m.slots i).isNone).card
end
variable {m : SlotMap κ ν n} {k k' : κ} {i : Fin n} {v : ν}
/-! ### Entries -/
theorem get_eq_some : m.get k = some v ↔ ∃ i, m.slots i = some (k, v) := by
  constructor
  · intro h
    simp only [get, Option.bind_eq_some_iff, Option.map_eq_some_iff] at h
    obtain ⟨i, hi, e, he, rfl⟩ := h
    obtain ⟨w, hw⟩ := find_some hi
    rw [he, Option.some.injEq] at hw
    exact ⟨i, by rw [he, hw]⟩
  rintro ⟨i, hi⟩
  have hfind : m.find k = some i := by
    apply first_eq_some
    · simp [hi]
    intro j hj
    rcases hs : m.slots j with _ | ⟨k', w⟩
    · simp [hs] at hj
    simp only [hs, Option.any_some, decide_eq_true_eq] at hj
    exact m.distinct j i k w v (by rw [hs, hj]) hi
  simp [get, hfind, hi]

theorem get_eq_none : m.get k = none ↔ ∀ i v, m.slots i ≠ some (k, v) := by
  rw [Option.eq_none_iff_forall_ne_some]
  constructor
  · intro h i v hi
    exact h v (get_eq_some.mpr ⟨i, hi⟩)
  intro h v hv
  obtain ⟨i, hi⟩ := get_eq_some.mp hv
  exact h i v hi

@[simp] theorem get_empty : (empty : SlotMap κ ν n).get k = none := by
  rw [get_eq_none]
  simp [empty]

/-- After a write the key has the new value; other keys that did not live in
the slot keep theirs. -/
theorem get_write {h : ∀ j w, m.slots j = some (k, w) → j = i}
    (hi : ∀ k' w, m.slots i = some (k', w) → k' = k) :
    (m.write i k v h).get k' = if k' = k then some v else m.get k' := by
  by_cases hk : k' = k
  · subst hk
    rw [if_pos rfl, get_eq_some]
    exact ⟨i, by simp [write]⟩
  rw [if_neg hk]
  apply Option.ext
  intro w
  rw [get_eq_some, get_eq_some]
  constructor
  · rintro ⟨j, hj⟩
    by_cases hji : j = i
    · subst hji
      simp only [write, set_self, Option.some.injEq, Prod.mk.injEq] at hj
      exact absurd hj.1.symm hk
    exact ⟨j, by simpa [write, hji] using hj⟩
  rintro ⟨j, hj⟩
  have hji : j ≠ i := fun e => hk (hi k' w (e ▸ hj))
  exact ⟨j, by simpa [write, hji] using hj⟩

omit [DecidableEq κ] in
theorem empty_occupied (i : Fin n) (k : κ) (j : Fin n) (w : ν)
    (h : (empty : SlotMap κ ν n).slots j = some (k, w)) : j = i := by
  simp [empty] at h

/-- The map with one entry, in slot `i`. -/
def single (i : Fin n) (k : κ) (v : ν) : SlotMap κ ν n :=
  empty.write i k v (empty_occupied i k)

theorem get_single : (single i k v).get k' = if k' = k then some v else none := by
  rw [single, get_write (h := empty_occupied i k) (by simp [empty]), get_empty]

theorem get_clear (hi : m.slots i = some (k, v)) :
    (m.clear i).get k' = if k' = k then none else m.get k' := by
  by_cases hk : k' = k
  · subst hk
    rw [if_pos rfl, get_eq_none]
    intro j w hj
    by_cases hji : j = i
    · subst hji; simp [clear] at hj
    exact hji (m.distinct j i k' w v (by simpa [clear, hji] using hj) hi)
  rw [if_neg hk]
  apply Option.ext
  intro w
  rw [get_eq_some, get_eq_some]
  constructor
  · rintro ⟨j, hj⟩
    by_cases hji : j = i
    · subst hji; simp [clear] at hj
    exact ⟨j, by simpa [clear, hji] using hj⟩
  rintro ⟨j, hj⟩
  have hji : j ≠ i := by
    rintro rfl
    rw [hi, Option.some.injEq, Prod.mk.injEq] at hj
    exact hk hj.1.symm
  exact ⟨j, by simpa [clear, hji] using hj⟩

theorem get_adjust (f : ν → Option ν) : (m.adjust f).get k = (m.get k).bind f := by
  refine Option.ext fun v => ?_
  simp only [get_eq_some, adjust, Option.bind_eq_some_iff, Option.map_eq_some_iff, Prod.exists,
    Prod.mk.injEq]
  constructor
  · rintro ⟨i, _, w, hi, _, hf, rfl, rfl⟩
    exact ⟨w, ⟨i, hi⟩, hf⟩
  rintro ⟨w, ⟨i, hi⟩, hf⟩
  exact ⟨i, k, w, hi, v, hf, rfl, rfl⟩

/-! ### Empty slots -/
omit [DecidableEq κ] in
theorem room_eq_zero : m.room = 0 ↔ m.freeSlot = none := by
  simp only [room, freeSlot, Finset.card_eq_zero, Finset.filter_eq_empty_iff, first_none,
    Finset.mem_univ, true_implies, Bool.not_eq_true]

omit [DecidableEq κ] in
theorem room_write_some
    {h : ∀ j w, m.slots j = some (k, w) → j = i} (hi : (m.slots i).isSome = true) :
    (m.write i k v h).room = m.room := by
  refine congrArg Finset.card (Finset.filter_congr fun j _ => ?_)
  by_cases hj : j = i
  · subst hj
    rcases hs : m.slots j with _ | e
    · simp [hs] at hi
    simp [write]
  simp [write, hj]

omit [DecidableEq κ] in
theorem room_write_none {h : ∀ j w, m.slots j = some (k, w) → j = i} (hi : m.slots i = none) :
    (m.write i k v h).room + 1 = m.room := by
  have hmem : i ∈ Finset.univ.filter fun j => (m.slots j).isNone = true := by simp [hi]
  have herase : (Finset.univ.filter fun j => ((m.write i k v h).slots j).isNone = true) =
      (Finset.univ.filter fun j => (m.slots j).isNone = true).erase i := by
    ext j
    by_cases hj : j = i
    · subst hj; simp [write]
    simp [write, hj]
  rw [room, herase, Finset.card_erase_add_one hmem, room]

omit [DecidableEq κ] in
theorem room_clear (hi : (m.slots i).isSome = true) : (m.clear i).room = m.room + 1 := by
  have hmem : i ∉ Finset.univ.filter fun j => (m.slots j).isNone = true := by
    rcases hs : m.slots i with _ | e
    · simp [hs] at hi
    simp [hs]
  have hinsert : (Finset.univ.filter fun j => ((m.clear i).slots j).isNone = true) =
      insert i (Finset.univ.filter fun j => (m.slots j).isNone = true) := by
    ext j
    by_cases hj : j = i
    · subst hj; simp [clear]
    simp [clear, hj]
  rw [room, hinsert, Finset.card_insert_of_notMem hmem, room]

/-! ### What `put` and `del` do -/
theorem find_eq_none : m.find k = none ↔ m.get k = none := by
  constructor
  · intro h; simp [get, h]
  intro h
  rcases hf : m.find k with _ | i
  · rfl
  obtain ⟨v, hv⟩ := find_some hf
  exact absurd hv (get_eq_none.mp h i v)

/-- `put` fails exactly for a new key when no slot is empty. -/
theorem put_eq_none : m.put k v = none ↔ m.get k = none ∧ m.room = 0 := by
  rw [← find_eq_none, room_eq_zero]
  unfold put
  split
  · next i hf => simp [hf]
  next hf =>
  rcases hfree : m.freeSlot with _ | i
  · simp [hf]
  simp

/-- A successful `put` sets one key and takes a slot if the key is new. -/
theorem put_eq_some {m' : SlotMap κ ν n} (h : m.put k v = some m') :
    (∀ k', m'.get k' = if k' = k then some v else m.get k') ∧
      m.room = m'.room + (if m.get k = none then 1 else 0) := by
  unfold put at h
  split at h
  · next i hf =>
    obtain ⟨w, hw⟩ := find_some hf
    have hget : m.get k ≠ none := by rw [get_eq_some.mpr ⟨i, hw⟩]; simp
    simp only [Option.some.injEq] at h
    subst h
    refine ⟨fun k' => get_write ?_, ?_⟩
    · intro k'' w' hi
      rw [hw, Option.some.injEq, Prod.mk.injEq] at hi
      exact hi.1.symm
    rw [room_write_some (by simp [hw]), if_neg hget, Nat.add_zero]
  next hf =>
  have hget := find_eq_none.mp hf
  split at h
  · next i hfree =>
    have hi := freeSlot_some hfree
    simp only [Option.some.injEq] at h
    subst h
    refine ⟨fun k' => get_write ?_, ?_⟩
    · intro k'' w' hi'
      rw [hi] at hi'
      simp at hi'
    rw [if_pos hget, room_write_none hi]
  simp at h

theorem del_eq_none : m.del k = none ↔ m.get k = none := by
  rw [← find_eq_none, del]
  rcases hf : m.find k with _ | i <;> simp

/-- A successful `del` removes one key and frees its slot. -/
theorem del_eq_some {m' : SlotMap κ ν n} (h : m.del k = some m') :
    (∀ k', m'.get k' = if k' = k then none else m.get k') ∧ m'.room = m.room + 1 := by
  unfold del at h
  rcases hf : m.find k with _ | i
  · simp [hf] at h
  obtain ⟨v, hv⟩ := find_some hf
  simp only [hf, Option.some.injEq] at h
  subst h
  exact ⟨fun k' => get_clear hv, room_clear (by simp [hv])⟩

theorem keys_length_le {ks : List κ} (hnd : ks.Nodup)
    (hks : ∀ k ∈ ks, m.get k ≠ none) : ks.length ≤ n := by
  -- distinct keys occupy distinct slots
  have hmap : (ks.map m.find).Nodup := by
    refine hnd.map_on fun k hk k' hk' heq => ?_
    rcases hf : m.find k with _ | i
    · exact absurd (find_eq_none.mp hf) (hks k hk)
    obtain ⟨v, hv⟩ := find_some hf
    obtain ⟨v', hv'⟩ := find_some (heq ▸ hf)
    rw [hv, Option.some.injEq, Prod.mk.injEq] at hv'
    exact hv'.1
  have hsub : (ks.map m.find).toFinset ⊆ Finset.univ.image some := by
    intro o ho
    obtain ⟨k, hk, rfl⟩ := List.mem_map.mp (List.mem_toFinset.mp ho)
    rcases hf : m.find k with _ | i
    · exact absurd (find_eq_none.mp hf) (hks k hk)
    simp
  calc ks.length = (ks.map m.find).toFinset.card := by
        rw [List.toFinset_card_of_nodup hmap, List.length_map]
    _ ≤ (Finset.univ.image (some : Fin n → Option (Fin n))).card := Finset.card_le_card hsub
    _ ≤ n := by simpa using Finset.card_image_le (s := (Finset.univ : Finset (Fin n)))
end SlotMap
end Framework
