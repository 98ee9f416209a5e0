import QosKernel.Framework.SlotMap
import Mathlib.Data.Set.Card

/-! # Finite partial maps with a capacity

The abstract side of a slot table: a partial function with a bound on the
number of its keys. `SlotMap` refines it, operation by operation, and the
entries of a slot table can be listed in the order of its slots.
-/
namespace Framework
namespace PartialMap
variable {κ : Type u} {ν : Type v} [DecidableEq κ]
def keys (f : κ → Option ν) : Set κ := {k | f k ≠ none}

open Classical in
/-- Sets the value of `k`; a new key needs room. -/
noncomputable def put (cap : Nat) (f : κ → Option ν) (k : κ) (v : ν) : Option (κ → Option ν) :=
  if f k = none ∧ cap ≤ (keys f).ncard then none
  else some fun k' => if k' = k then some v else f k'

/-- Removes `k`, which must have a value. -/
def del (f : κ → Option ν) (k : κ) : Option (κ → Option ν) :=
  match f k with
  | none => none
  | some _ => some fun k' => if k' = k then none else f k'
end PartialMap
namespace SlotMap
open PartialMap
variable {κ : Type u} {ν : Type v} {n : Nat} {m : SlotMap κ ν n}
/-! ### Entries in the order of the slots -/
section
variable (m : SlotMap κ ν n)
def entries : List (κ × ν) := (List.finRange n).filterMap m.slots

theorem entries_keys_nodup : (m.entries.map Prod.fst).Nodup := by
  rw [entries, List.map_filterMap]
  refine (List.nodup_finRange n).filterMap fun i j k hi hj => ?_
  -- a key stands in one slot only
  simp only [Option.mem_def, Option.map_eq_some_iff, Prod.exists, exists_and_right,
    exists_eq_right] at hi hj
  obtain ⟨v, hv⟩ := hi
  obtain ⟨w, hw⟩ := hj
  exact m.distinct i j k v w hv hw

theorem length_entries : m.entries.length + m.room = n := by
  have hroom : m.room = (List.finRange n).countP fun i => (m.slots i).isNone := by
    rw [room, List.countP_eq_length_filter,
      ← List.toFinset_card_of_nodup ((List.nodup_finRange n).filter _)]
    congr 1
    ext i
    simp
  have hused : m.entries.length = (List.finRange n).countP fun i => (m.slots i).isSome := by
    rw [entries, List.length_filterMap_eq_countP]
  have hall := List.length_eq_countP_add_countP (fun i => (m.slots i).isSome) (l := List.finRange n)
  have hnone : (List.finRange n).countP (fun i => decide ¬(m.slots i).isSome = true) = m.room := by
    rw [hroom]
    refine List.countP_congr fun i _ => ?_
    simp
  rw [hnone, List.length_finRange] at hall
  rw [hused, ← hall]
end
variable [DecidableEq κ]
theorem mem_entries {k : κ} {v : ν} : (k, v) ∈ m.entries ↔ m.get k = some v := by
  rw [entries, List.mem_filterMap, get_eq_some]
  simp

/-! ### The map in the table -/
section
variable (m : SlotMap κ ν n)
theorem keys_eq_entries : keys m.get = ((m.entries.map Prod.fst).toFinset : Set κ) := by
  ext k
  simp only [keys, Set.mem_ofPred_eq, Option.ne_none_iff_exists', List.coe_toFinset, List.mem_map,
    Prod.exists, exists_and_right, exists_eq_right, mem_entries]

theorem keys_finite : (keys m.get).Finite := by
  rw [keys_eq_entries]
  exact Finset.finite_toSet _

theorem ncard_keys : (keys m.get).ncard = m.entries.length := by
  rw [keys_eq_entries, Set.ncard_coe_finset, List.toFinset_card_of_nodup m.entries_keys_nodup,
    List.length_map]

theorem ncard_keys_filter (p : κ → Bool) :
    {k | k ∈ keys m.get ∧ p k = true}.ncard = (m.entries.filter fun e => p e.1).length := by
  have hset : {k | k ∈ keys m.get ∧ p k = true} =
      (((m.entries.filter fun e => p e.1).map Prod.fst).toFinset : Set κ) := by
    rw [keys_eq_entries]
    ext k
    simp only [Set.mem_ofPred_eq, List.coe_toFinset, List.mem_map, List.mem_filter, Prod.exists,
      exists_and_right, exists_eq_right]
  have hnd : ((m.entries.filter fun e => p e.1).map Prod.fst).Nodup :=
    m.entries_keys_nodup.sublist (List.filter_sublist.map Prod.fst)
  rw [hset, Set.ncard_coe_finset, List.toFinset_card_of_nodup hnd, List.length_map]

/-- The keys fill the slots that are not empty. -/
theorem ncard_keys_add_room : (keys m.get).ncard + m.room = n := by rw [ncard_keys, length_entries]

/-- A table is full when it has as many keys as slots. -/
theorem room_eq_zero_iff_ncard : m.room = 0 ↔ n ≤ (keys m.get).ncard := by
  have := m.ncard_keys_add_room
  omega

theorem put_refines (k : κ) (v : ν) : (m.put k v).map get = PartialMap.put n m.get k v := by
  unfold PartialMap.put
  cases hput : m.put k v with
  | none =>
    obtain ⟨hget, hroom⟩ := put_eq_none.mp hput
    rw [if_pos ⟨hget, m.room_eq_zero_iff_ncard.mp hroom⟩]
    rfl
  | some m' =>
  have hnot : ¬(m.get k = none ∧ n ≤ (keys m.get).ncard) := by
    rintro ⟨hget, hfull⟩
    rw [put_eq_none.mpr ⟨hget, m.room_eq_zero_iff_ncard.mpr hfull⟩] at hput
    cases hput
  rw [if_neg hnot, Option.map_some]
  exact congrArg some (funext (put_eq_some hput).1)

theorem del_refines (k : κ) : (m.del k).map get = PartialMap.del m.get k := by
  unfold PartialMap.del
  cases hdel : m.del k with
  | none =>
    rw [del_eq_none.mp hdel]
    rfl
  | some m' =>
  cases hget : m.get k with
  | none =>
    rw [del_eq_none.mpr hget] at hdel
    cases hdel
  | some v => exact congrArg some (funext (del_eq_some hdel).1)
end
end SlotMap
/-! ### Loops over the slots -/
def countUsed {α : Type u} (slots : List (Option α)) : UInt32 :=
  slots.foldl (fun count slot => if slot.isSome then count + 1 else count) 0

/-- The slot in use with a given ordinal; `seen` counts those passed. -/
def nthUsed {α : Type u} (ordinal : UInt32) : List (Option α) → UInt32 → Option α
  | [], _ => none
  | none :: rest, seen => nthUsed ordinal rest seen
  | some a :: rest, seen => if seen = ordinal then some a else nthUsed ordinal rest (seen + 1)

theorem countUsed_eq {α : Type u} (slots : List (Option α)) :
    countUsed slots = UInt32.ofNat (slots.filterMap id).length := by
  have hloop : ∀ (l : List (Option α)) (c : UInt32),
      l.foldl (fun count slot => if slot.isSome then count + 1 else count) c =
        c + UInt32.ofNat (l.filterMap id).length := by
    intro l
    induction l with
    | nil => intro c; simp
    | cons slot l ih =>
    intro c
    cases slot with
    | none => simpa using ih c
    | some a =>
    rw [List.foldl_cons, ih]
    simp only [Option.isSome_some, if_true, List.filterMap_cons, id, List.length_cons,
      UInt32.ofNat_add, UInt32.add_assoc]
    rw [UInt32.add_comm 1]
    rfl
  rw [countUsed, hloop, UInt32.zero_add]

/-- The counter of the loop is exact as long as it cannot wrap around. -/
theorem nthUsed_eq {α : Type u} (ordinal : UInt32) (slots : List (Option α)) (seen : UInt32)
    (hle : seen.toNat ≤ ordinal.toNat) (hlen : seen.toNat + slots.length < 2 ^ 32) :
    nthUsed ordinal slots seen = (slots.filterMap id)[ordinal.toNat - seen.toNat]? := by
  induction slots generalizing seen with
  | nil => rfl
  | cons slot rest ih =>
  rw [List.length_cons] at hlen
  cases slot with
  | none => simpa [nthUsed] using ih seen hle (by omega)
  | some a =>
  unfold nthUsed
  by_cases heq : seen = ordinal
  · rw [if_pos heq, heq]
    simp
  have hne : seen.toNat ≠ ordinal.toNat := fun h => heq (UInt32.toNat_inj.mp h)
  have hsucc : (seen + 1).toNat = seen.toNat + 1 := by
    rw [UInt32.toNat_add]
    exact Nat.mod_eq_of_lt (by show seen.toNat + 1 < 2 ^ 32; omega)
  rw [if_neg heq, ih (seen + 1) (by omega) (by omega), hsucc]
  have hidx : ordinal.toNat - seen.toNat = ordinal.toNat - (seen.toNat + 1) + 1 := by omega
  rw [hidx]
  simp
end Framework
