import QosKernel.Framework.BoundedMap
import QosKernel.Mm.Boot

/-! # The loops of MMAP and MUNMAP

Both kernels map and unmap a range page by page with the same loops; they
differ in the page tables underneath. `map` and `unmap` below are the
kernel's own operations on one page of the current address space.

The loops run on a 64-bit offset that could wrap, so they are given fuel.
Over a table with at most `cap` entries they stop after at most `cap + 1`
iterations; `mmap_loop_eq` and `munmap_loop_eq` prove it and compute the
result.
-/
open Framework
namespace QosKernel
variable {va len : UInt64}
/-- The value of a 64-bit word returned as `int64_t`. -/
def asInt64 (v : UInt64) : Int := if v.toNat < 2 ^ 63 then v.toNat else v.toNat - 2 ^ 64

theorem asInt64_ne_neg_one {v : UInt64} (h : is_page_aligned v = true) : asInt64 v ≠ -1 := by
  rw [is_page_aligned_iff] at h
  unfold asInt64
  split <;> omega

section loops
variable {σ : Type u} (map unmap : σ → UInt64 → Option σ) (va len : UInt64)
/-- `while (off > 0) { off -= PAGE; unmap(va + off); }` -/
def unmap_back : Nat → σ → UInt64 → Option σ
  | 0, _, _ => none
  | fuel + 1, s, off =>
    if 0 < off then
      -- a page that cannot be unmapped is passed over
      unmap_back fuel ((unmap s (va + (off - QOS_PAGE_SIZE))).getD s) (off - QOS_PAGE_SIZE)
    else some s

/-- The loop of MMAP: the return value and the state. -/
def mmap_loop : Nat → σ → UInt64 → Option (Int × σ)
  | 0, _, _ => none
  | fuel + 1, s, off =>
    if off < len then
      match map s (va + off) with
      | some s' => mmap_loop fuel s' (off + QOS_PAGE_SIZE)
      -- all pages before this one are unmapped, also those that were mapped before the call
      | none => (unmap_back unmap va (off.toNat / 4096 + 1) s off).map fun s' => (-1, s')
    else some (asInt64 va, s)

/-- The loop of MUNMAP: the return value and the state. -/
def munmap_loop : Nat → σ → UInt64 → Option (Int × σ)
  | 0, _, _ => none
  | fuel + 1, s, off =>
    if off < len then
      match unmap s (va + off) with
      | some s' => munmap_loop fuel s' (off + QOS_PAGE_SIZE)
      -- no rollback: the pages before stay unmapped
      | none => some (-1, s)
    else some (0, s)
end loops
section fail
variable {σ : Type u} {map unmap : σ → UInt64 → Option σ} {va len : UInt64} {s : σ}
variable (fuel : Nat)
theorem mmap_loop_fail (hlen : len ≠ 0) (h : map s va = none) :
    mmap_loop map unmap va len (fuel + 1) s 0 = some (-1, s) := by
  have hpos : (0 : UInt64) < len := UInt64.pos_iff_ne_zero.mpr hlen
  rw [mmap_loop, if_pos hpos, UInt64.add_zero, h]
  rfl

theorem munmap_loop_fail (hlen : len ≠ 0) (h : unmap s va = none) :
    munmap_loop unmap va len (fuel + 1) s 0 = some (-1, s) := by
  have hpos : (0 : UInt64) < len := UInt64.pos_iff_ne_zero.mpr hlen
  rw [munmap_loop, if_pos hpos, UInt64.add_zero, h]
end fail
/-! ### The pages of a request -/
/-- The page with number `j` of a request at `va`. -/
def pageAt (va : UInt64) (j : Nat) : UInt64 := va + UInt64.ofNat (4096 * j)
def pageCount (len : UInt64) : Nat := (len.toNat + 4095) / 4096

def requestPages (va len : UInt64) : List UInt64 :=
  (List.range (pageCount len)).map (pageAt va)

theorem pageAt_toNat (va : UInt64) (j : Nat) :
    (pageAt va j).toNat = (va.toNat + 4096 * j) % 2 ^ 64 := by
  rw [pageAt, UInt64.toNat_add, UInt64.toNat_ofNat']
  exact Nat.add_mod_mod va.toNat (4096 * j) (2 ^ 64)

theorem pageAt_aligned (h : is_page_aligned va = true) (j : Nat) :
    is_page_aligned (pageAt va j) = true := by
  rw [is_page_aligned_iff] at h ⊢
  rw [pageAt_toNat]
  omega

theorem pageAt_inj {i j : Nat} (hi : i < 2 ^ 52) (hj : j < 2 ^ 52) (h : pageAt va i = pageAt va j) :
    i = j := by
  -- the addresses may wrap, but not by a whole turn
  have hva := va.toNat_lt
  have := congrArg UInt64.toNat h
  rw [pageAt_toNat, pageAt_toNat] at this
  omega

theorem pageCount_le (len : UInt64) : pageCount len ≤ 2 ^ 52 := by
  have := len.toNat_lt
  unfold pageCount
  omega

theorem requestPages_nodup (va len : UInt64) : (requestPages va len).Nodup := by
  have hle := pageCount_le len
  refine List.nodup_range.map_on fun i hi j hj h => ?_
  rw [List.mem_range] at hi hj
  exact pageAt_inj (by omega) (by omega) h

theorem requestPages_aligned (h : is_page_aligned va = true) :
    ∀ p ∈ requestPages va len, is_page_aligned p = true := by
  intro p hp
  obtain ⟨j, -, rfl⟩ := List.mem_map.mp hp
  exact pageAt_aligned h j

theorem requestPages_cons (h : len ≠ 0) :
    requestPages va len = va :: ((List.range (pageCount len - 1)).map fun j => pageAt va (j + 1))
    := by
  have hcount : pageCount len = (pageCount len - 1) + 1 := by
    have : len.toNat ≠ 0 := fun e => h (UInt64.toNat_inj.mp e)
    unfold pageCount
    omega
  rw [requestPages, hcount, List.range_succ_eq_map, List.map_cons, List.map_map]
  simp [pageAt, Function.comp_def]

/-! ### Offsets -/
section offsets
variable {j : Nat} {K : Type v} {emb : UInt64 → K} {va len : UInt64}
theorem offset_toNat (hj : j < 2 ^ 52) : (UInt64.ofNat (4096 * j)).toNat = 4096 * j := by
  rw [UInt64.toNat_ofNat']
  omega

theorem offset_lt_iff (hj : j < 2 ^ 52) : UInt64.ofNat (4096 * j) < len ↔ j < pageCount len := by
  rw [UInt64.lt_iff_toNat_lt, offset_toNat hj, pageCount]
  omega

theorem offset_succ (j : Nat) :
    UInt64.ofNat (4096 * j) + QOS_PAGE_SIZE = UInt64.ofNat (4096 * (j + 1)) := by
  rw [QOS_PAGE_SIZE, ← UInt64.toNat_inj, UInt64.toNat_add, UInt64.toNat_ofNat', UInt64.toNat_ofNat']
  show (4096 * j % 2 ^ 64 + 4096) % 2 ^ 64 = _
  omega

theorem offset_pred (j : Nat) :
    UInt64.ofNat (4096 * (j + 1)) - QOS_PAGE_SIZE = UInt64.ofNat (4096 * j) := by
  rw [← offset_succ, UInt64.add_sub_cancel]

theorem offset_pos (hj : j < 2 ^ 52) : 0 < UInt64.ofNat (4096 * j) ↔ 0 < j := by
  rw [UInt64.lt_iff_toNat_lt, offset_toNat hj, UInt64.toNat_zero]
  omega

section
variable (emb : UInt64 → K) (va : UInt64) (j : Nat)
def keysUpTo : List K :=
  (List.range j).map fun i => emb (pageAt va i)

theorem keysUpTo_succ : keysUpTo emb va (j + 1) = keysUpTo emb va j ++ [emb (pageAt va j)] := by
  simp [keysUpTo, List.range_succ]
end
theorem keysUpTo_nodup (hemb : Function.Injective emb) (hj : j ≤ 2 ^ 52) :
    (keysUpTo emb va j).Nodup := by
  refine List.nodup_range.map_on fun i hi i' hi' h => ?_
  rw [List.mem_range] at hi hi'
  exact pageAt_inj (by omega) (by omega) (hemb h)

/-- The keys of the pages of a request from page `j` on. -/
def keysFrom (emb : UInt64 → K) (va len : UInt64) (j : Nat) : List K :=
  ((requestPages va len).drop j).map emb

theorem keysFrom_of_lt (hj : j < pageCount len) :
    keysFrom emb va len j = emb (pageAt va j) :: keysFrom emb va len (j + 1) := by
  have hlen : j < (requestPages va len).length := by simpa [requestPages] using hj
  rw [keysFrom, List.drop_eq_getElem_cons hlen, List.map_cons, keysFrom]
  simp [requestPages]

theorem keysFrom_of_ge (hj : ¬j < pageCount len) : keysFrom emb va len j = [] := by
  rw [keysFrom, List.drop_of_length_le (by simpa [requestPages] using hj), List.map_nil]
end offsets
/-! ### The loops over a bounded map -/
/-- `map` and `unmap` are, in the states with `I`, the operations of the bounded
map `B` on the pages of a request at `va`. -/
structure Implements {σ : Type u} {K : Type v} {V : Type w} [DecidableEq K]
    (B : BoundedMap σ K V) (I : σ → Prop) (emb : UInt64 → K) (val : K → V)
    (map unmap : σ → UInt64 → Option σ) (va : UInt64) : Prop where
  inj : Function.Injective emb
  dom : ∀ j, B.dom (emb (pageAt va j))
  cap_lt : B.cap < 2 ^ 52
  map_eq : ∀ s j, I s → map s (pageAt va j) = B.put s (emb (pageAt va j)) (val (emb (pageAt va j)))
  unmap_eq : ∀ s j, I s → unmap s (pageAt va j) = B.del s (emb (pageAt va j))
  put_keeps : ∀ s k v s', I s → B.put s k v = some s' → I s'
  del_keeps : ∀ s k s', I s → B.del s k = some s' → I s'

namespace Implements
variable {σ : Type u} {K : Type v} {V : Type w} [DecidableEq K] {B : BoundedMap σ K V}
  {I : σ → Prop} {emb : UInt64 → K} {val : K → V} {map unmap : σ → UInt64 → Option σ}
  {va len : UInt64}
section
variable (h : Implements B I emb val map unmap va)
include h
/-- The inner loop deletes the pages before the offset, the last one first. -/
theorem unmap_back_eq : ∀ (j fuel : Nat) (s : σ), I s → j < fuel → j < 2 ^ 52 →
    unmap_back unmap va fuel s (UInt64.ofNat (4096 * j)) =
      some (B.rollback s (keysUpTo emb va j).reverse) := by
  intro j
  induction j with
  | zero =>
    intro fuel s _ hfuel _
    obtain ⟨fuel, rfl⟩ := Nat.exists_eq_add_of_lt hfuel
    rw [Nat.zero_add, unmap_back, if_neg (by rw [offset_pos (by decide)]; omega)]
    rfl
  | succ j ih =>
  intro fuel s hs hfuel hj
  obtain ⟨fuel, rfl⟩ : ∃ f, fuel = f + 1 := ⟨fuel - 1, by omega⟩
  have hdel : I ((unmap s (pageAt va j)).getD s) := by
    rw [h.unmap_eq s j hs]
    rcases hd : B.del s (emb (pageAt va j)) with _ | s'
    · exact hs
    exact h.del_keeps s _ s' hs hd
  rw [unmap_back, if_pos ((offset_pos hj).mpr (by omega)), offset_pred]
  change unmap_back unmap va fuel ((unmap s (pageAt va j)).getD s) _ = _
  rw [ih fuel _ hdel (by omega) (by omega), keysUpTo_succ, List.reverse_append, h.unmap_eq s j hs]
  rfl

theorem mapped_le_cap {j : Nat} (hj : j ≤ 2 ^ 52) {s : σ}
    (hmapped : ∀ k ∈ keysUpTo emb va j, B.get s k ≠ none) : j ≤ B.cap := by
  have hle := B.bounded s (keysUpTo emb va j) (keysUpTo_nodup h.inj hj) (by
    intro k hk
    obtain ⟨i, -, rfl⟩ := List.mem_map.mp hk
    exact ⟨h.dom i, hmapped _ hk⟩)
  simpa [keysUpTo] using hle

theorem mmap_loop_eq : ∀ (fuel j : Nat) (s : σ), I s → j ≤ pageCount len → B.cap + 2 ≤ fuel + j →
    (∀ k ∈ keysUpTo emb va j, B.get s k ≠ none) →
    mmap_loop map unmap va len fuel s (UInt64.ofNat (4096 * j)) =
      some (match B.putAll val s (keysUpTo emb va j).reverse (keysFrom emb va len j) with
        | .ok s' => (asInt64 va, s')
        | .error s' => (-1, s')) := by
  intro fuel
  have hcount := pageCount_le len
  have hcap := h.cap_lt
  induction fuel with
  | zero =>
    intro j s hs hj hfuel hmapped
    -- without fuel `j` would be above the capacity, but `j` pages are mapped
    have := h.mapped_le_cap (by omega) hmapped
    omega
  | succ fuel ih =>
  intro j s hs hj hfuel hmapped
  have hjcap := h.mapped_le_cap (by omega) hmapped
  rw [mmap_loop]
  by_cases hlt : j < pageCount len
  · rw [if_pos ((offset_lt_iff (by omega)).mpr hlt), keysFrom_of_lt hlt]
    change (match map s (pageAt va j) with
      | some s' => mmap_loop map unmap va len fuel s' (UInt64.ofNat (4096 * j) + QOS_PAGE_SIZE)
      | none => (unmap_back unmap va ((UInt64.ofNat (4096 * j)).toNat / 4096 + 1) s
          (UInt64.ofNat (4096 * j))).map fun s' => (-1, s')) = _
    rw [h.map_eq s j hs, BoundedMap.putAll]
    -- the page does not fit: the loop goes back; or it fits: the loop goes on
    rcases hp : B.put s (emb (pageAt va j)) (val (emb (pageAt va j))) with _ | s₁
    · dsimp only
      rw [offset_toNat (by omega), h.unmap_back_eq j _ s hs (by omega) (by omega), Option.map_some]
    dsimp only
    have hget := B.put_get s _ _ s₁ (h.dom j) hp
    rw [offset_succ, ih (j + 1) s₁ (h.put_keeps s _ _ s₁ hs hp) (by omega) (by omega), keysUpTo_succ,
      List.reverse_append]
    · rfl
    -- the pages mapped before stay mapped
    intro k hk
    rw [hget k]
    split
    · simp
    next hne =>
    rw [keysUpTo_succ, List.mem_append, List.mem_singleton] at hk
    exact hmapped k (hk.resolve_right hne)
  rw [if_neg (fun hoff => hlt ((offset_lt_iff (by omega)).mp hoff)), keysFrom_of_ge hlt]
  rfl

theorem munmap_loop_eq (s₀ : σ) :
    ∀ (fuel j : Nat) (s : σ), I s → j ≤ pageCount len → B.cap + 2 ≤ fuel + j →
    (∀ k ∈ keysUpTo emb va j, B.get s₀ k ≠ none) →
    (∀ k, B.get s k ≠ none → B.get s₀ k ≠ none) →
    munmap_loop unmap va len fuel s (UInt64.ofNat (4096 * j)) =
      some (match B.delAll s (keysFrom emb va len j) with
        | .ok s' => (0, s')
        | .error s' => (-1, s')) := by
  intro fuel
  have hcount := pageCount_le len
  have hcap := h.cap_lt
  induction fuel with
  | zero =>
    intro j s hs hj hfuel hmapped _
    have := h.mapped_le_cap (by omega) hmapped
    omega
  | succ fuel ih =>
  intro j s hs hj hfuel hmapped hsub
  -- the pages unmapped so far were all in the table, so there are at most `cap`
  have hjcap := h.mapped_le_cap (by omega) hmapped
  rw [munmap_loop]
  by_cases hlt : j < pageCount len
  · rw [if_pos ((offset_lt_iff (by omega)).mpr hlt), keysFrom_of_lt hlt]
    change (match unmap s (pageAt va j) with
      | some s' => munmap_loop unmap va len fuel s' (UInt64.ofNat (4096 * j) + QOS_PAGE_SIZE)
      | none => some (-1, s)) = _
    rw [h.unmap_eq s j hs, BoundedMap.delAll]
    rcases hd : B.del s (emb (pageAt va j)) with _ | s₁
    · rfl
    dsimp only
    have hget := B.del_get s _ s₁ (h.dom j) hd
    have hne : B.get s (emb (pageAt va j)) ≠ none := by
      intro hnone
      rw [(B.del_none s _ (h.dom j)).mpr hnone] at hd
      simp at hd
    rw [offset_succ, ih (j + 1) s₁ (h.del_keeps s _ s₁ hs hd) (by omega) (by omega)]
    · -- every page unmapped so far was mapped at the start
      intro k hk
      rw [keysUpTo_succ, List.mem_append, List.mem_singleton] at hk
      rcases hk with hk | rfl
      · exact hmapped k hk
      exact hsub _ hne
    intro k hk
    rw [hget k] at hk
    split at hk
    · simp at hk
    exact hsub k hk
  rw [if_neg (fun hoff => hlt ((offset_lt_iff (by omega)).mp hoff)), keysFrom_of_ge hlt]
  rfl

/-! ### Outcomes -/
theorem keys_dom : ∀ k ∈ (requestPages va len).map emb, B.dom k := by
  intro k hk
  obtain ⟨p, hp, rfl⟩ := List.mem_map.mp hk
  obtain ⟨j, -, rfl⟩ := List.mem_map.mp hp
  exact h.dom j

theorem keys_nodup : ((requestPages va len).map emb).Nodup := (requestPages_nodup va len).map h.inj

/-- MMAP of an aligned range either maps all its pages, or fails for lack of
room. A failing call leaves the map as it was exactly when none of the
first `room + 1` pages was mapped. -/
theorem mmap_outcome (len : UInt64) {s : σ} (hs : I s) :
    ∃ rc s', mmap_loop map unmap va len (B.cap + 2) s 0 = some (rc, s') ∧
      ((B.missing s ((requestPages va len).map emb) ≤ B.room s ∧ rc = asInt64 va ∧ ∀ k, B.get s' k =
          if k ∈ (requestPages va len).map emb then some (val k) else B.get s k) ∨
      (B.room s < B.missing s ((requestPages va len).map emb) ∧ rc = -1 ∧
        ((∀ k ∈ ((requestPages va len).map emb).take (B.room s + 1), B.get s k = none) →
          ∀ k, B.get s' k = B.get s k) ∧
        ((¬∀ k ∈ ((requestPages va len).map emb).take (B.room s + 1), B.get s k = none) →
          ∃ k ∈ (requestPages va len).map emb, B.get s k ≠ none ∧ B.get s' k = none))) := by
  have hloop := h.mmap_loop_eq (B.cap + 2) 0 s hs (Nat.zero_le (pageCount len)) (by omega)
    (by simp [keysUpTo])
  have hkeys : keysFrom emb va len 0 = (requestPages va len).map emb := rfl
  rw [hkeys] at hloop
  change mmap_loop map unmap va len (B.cap + 2) s 0 = some (match B.putAll val s [] _ with
    | .ok s' => (asInt64 va, s')
    | .error s' => (-1, s')) at hloop
  -- the call succeeds exactly when the pages that are not mapped yet fit
  by_cases hroom : B.missing s ((requestPages va len).map emb) ≤ B.room s
  · obtain ⟨s', hok, hget⟩ := B.putAll_ok val h.keys_dom h.keys_nodup [] hroom
    rw [hok] at hloop
    exact ⟨_, s', hloop, .inl ⟨hroom, rfl, hget⟩⟩
  rw [Nat.not_le] at hroom
  obtain ⟨s', herr, hsame, hlost⟩ := B.putAll_error_unchanged val h.keys_dom h.keys_nodup hroom
  rw [herr] at hloop
  exact ⟨_, s', hloop, .inr ⟨hroom, rfl, hsame, hlost⟩⟩

/-- MUNMAP of an aligned range either unmaps all its pages, all of which were
mapped, or fails. A failing call leaves the map as it was exactly when the
first page was not mapped. -/
theorem munmap_outcome (hlen : len ≠ 0) {s : σ} (hs : I s) :
    ∃ rc s', munmap_loop unmap va len (B.cap + 2) s 0 = some (rc, s') ∧
      (((∀ k ∈ (requestPages va len).map emb, B.get s k ≠ none) ∧ rc = 0 ∧
        ∀ k, B.get s' k = if k ∈ (requestPages va len).map emb then none else B.get s k) ∨
      ((∃ k ∈ (requestPages va len).map emb, B.get s k = none) ∧ rc = -1 ∧
        (B.get s (emb va) = none → ∀ k, B.get s' k = B.get s k) ∧
        (B.get s (emb va) ≠ none → B.get s' (emb va) = none))) := by
  have hloop := h.munmap_loop_eq s (B.cap + 2) 0 s hs (Nat.zero_le (pageCount len)) (by omega)
    (by simp [keysUpTo]) (fun _ hk => hk)
  change munmap_loop unmap va len (B.cap + 2) s 0 =
    some (match B.delAll s ((requestPages va len).map emb) with
    | .ok s' => (0, s')
    | .error s' => (-1, s')) at hloop
  by_cases hall : ∀ k ∈ (requestPages va len).map emb, B.get s k ≠ none
  · obtain ⟨s', hok, hget⟩ := B.delAll_ok h.keys_dom h.keys_nodup hall
    rw [hok] at hloop
    exact ⟨_, s', hloop, .inl ⟨hall, rfl, hget⟩⟩
  push Not at hall
  obtain ⟨s', pre, k, post, hsplit, herr, hgk, hpre, hget⟩ :=
    B.delAll_error h.keys_dom h.keys_nodup hall
  rw [herr] at hloop
  rw [requestPages_cons hlen, List.map_cons] at hsplit
  refine ⟨_, s', hloop, .inr ⟨hall, rfl, fun hnone k' => ?_, fun hsome => ?_⟩⟩
  · -- the loop stops at once
    rcases pre with _ | ⟨k₀, pre⟩
    · simp [hget k']
    rw [List.cons_append, List.cons.injEq] at hsplit
    exact absurd (hsplit.1 ▸ hnone) (hpre k₀ (by simp))
  -- the first page is already gone when the loop stops
  rcases pre with _ | ⟨k₀, pre⟩
  · rw [List.nil_append, List.cons.injEq] at hsplit
    exact absurd (hsplit.1 ▸ hgk) hsome
  rw [List.cons_append, List.cons.injEq] at hsplit
  rw [hget (emb va), hsplit.1, if_pos List.mem_cons_self]
end
end Implements
/-! ### All or nothing -/
section atomic
variable {σ : Type u} {A : Type z}
/-- All or nothing: a call that returns -1 changes no translation in any
address space; any other call sets the translations of the pages of the
request in the address space `cur`, as `target` says, and changes no
other. -/
def AllOrNothing (tr : σ → A → UInt64 → Option UInt64) (cur : A) (va len : UInt64)
    (target : UInt64 → Option UInt64) (s : σ) (rc : Int) (s' : σ) : Prop :=
  (rc = -1 → ∀ a v, tr s' a v = tr s a v) ∧
  (rc ≠ -1 → ∀ a v, (a = cur ∧ align_down v ∈ requestPages va len → tr s' a v = target v) ∧
    (¬(a = cur ∧ align_down v ∈ requestPages va len) → tr s' a v = tr s a v))

theorem AllOrNothing.of_unchanged {tr : σ → A → UInt64 → Option UInt64} {cur : A}
    {va len : UInt64} {target : UInt64 → Option UInt64} {s : σ} :
    AllOrNothing tr cur va len target s (-1) s :=
  ⟨fun _ _ _ => rfl, fun h => absurd rfl h⟩

variable {K : Type v} {V : Type w} [DecidableEq K] {B : BoundedMap σ K V}
/-- `tr` reads the translation of an address off the bounded map `B`: `key`
names the page of an address space, if there is one. -/
structure Reads (B : BoundedMap σ K V) (tr : σ → A → UInt64 → Option UInt64)
    (key : A → UInt64 → Option K) (pa : V → UInt64) (cur : A) (emb : UInt64 → K)
    (val : K → V) : Prop where
  tr_eq : ∀ s a v, tr s a v = (key a (align_down v)).bind fun k =>
    (B.get s k).map fun m => pa m + (v &&& (QOS_PAGE_SIZE - 1))
  key_cur : ∀ p, key cur p = some (emb p)
  key_inj : ∀ a p p', key a p = some (emb p') → a = cur ∧ p = p'
  pa_val : ∀ p, pa (val (emb p)) = p

namespace Reads
variable {p : UInt64}
variable {tr : σ → A → UInt64 → Option UInt64} {key : A → UInt64 → Option K} {pa : V → UInt64}
  {cur : A} {emb : UInt64 → K} {val : K → V} {va len : UInt64} {s s' : σ}
section
variable (h : Reads B tr key pa cur emb val)
include h
theorem unchanged (hget : ∀ k, B.get s' k = B.get s k) : ∀ a v, tr s' a v = tr s a v := by
  intro a v
  rw [h.tr_eq, h.tr_eq]
  simp only [hget]

theorem tr_page (hp : is_page_aligned p = true) : tr s cur p = none ↔ B.get s (emb p) = none := by
  rw [h.tr_eq, align_down_of_aligned hp, h.key_cur, Option.bind_some, Option.map_eq_none_iff]

theorem lost (hp : is_page_aligned p = true)
    (hsome : B.get s (emb p) ≠ none) (hnone : B.get s' (emb p) = none) :
    ¬∀ a v, tr s' a v = tr s a v := by
  intro hall
  have hnone' := (h.tr_page (s := s') hp).mpr hnone
  rw [hall cur p] at hnone'
  exact hsome ((h.tr_page hp).mp hnone')

theorem updated (out : K → Option V) {target : UInt64 → Option UInt64}
    (htarget : ∀ v, target v = (out (emb (align_down v))).map
      fun m => pa m + (v &&& (QOS_PAGE_SIZE - 1)))
    (hget : ∀ k, B.get s' k = if k ∈ (requestPages va len).map emb then out k else B.get s k)
    (a : A) (v : UInt64) :
    (a = cur ∧ align_down v ∈ requestPages va len → tr s' a v = target v) ∧
    (¬(a = cur ∧ align_down v ∈ requestPages va len) → tr s' a v = tr s a v) := by
  refine ⟨?_, fun hnot => ?_⟩
  · rintro ⟨rfl, hin⟩
    rw [h.tr_eq, h.key_cur, Option.bind_some, hget, if_pos (List.mem_map_of_mem hin), htarget]
  rw [h.tr_eq, h.tr_eq]
  rcases hk : key a (align_down v) with _ | k
  · rfl
  have hout : k ∉ (requestPages va len).map emb := by
    intro hmem
    obtain ⟨p, hp, rfl⟩ := List.mem_map.mp hmem
    -- the key of another page or address space is not touched
    obtain ⟨ha, hv⟩ := h.key_inj a _ p hk
    exact hnot ⟨ha, hv ▸ hp⟩
  simp only [Option.bind_some, hget, if_neg hout]
end
end Reads
variable {tr : σ → A → UInt64 → Option UInt64} {key : A → UInt64 → Option K} {pa : V → UInt64}
  {cur : A} {emb : UInt64 → K} {val : K → V} {va len : UInt64} {I : σ → Prop}
  {map unmap : σ → UInt64 → Option σ}
/-- MMAP of an aligned range returns, and is all-or-nothing exactly when there
is room for its unmapped pages or none of the first `room + 1` pages is
mapped. -/
theorem mmap_allOrNothing (hr : Reads B tr key pa cur emb val)
    (h : Implements B I emb val map unmap va) (hva : is_page_aligned va = true)
    (len : UInt64) {s : σ} (hs : I s) :
    ∃ rc s', mmap_loop map unmap va len (B.cap + 2) s 0 = some (rc, s') ∧
      (AllOrNothing tr cur va len some s rc s' ↔
        B.missing s ((requestPages va len).map emb) ≤ B.room s ∨
        ∀ p ∈ (requestPages va len).take (B.room s + 1), B.get s (emb p) = none) := by
  obtain ⟨rc, s', hloop, hout⟩ := h.mmap_outcome len hs
  refine ⟨rc, s', hloop, ?_⟩
  rw [← List.map_take] at hout
  rcases hout with ⟨hroom, rfl, hget⟩ | ⟨hroom, rfl, hsame, hlost⟩
  · refine iff_of_true ⟨fun hneg => absurd hneg (asInt64_ne_neg_one hva), fun _ => ?_⟩ (.inl hroom)
    refine hr.updated (fun k => some (val k)) (fun v => ?_) hget
    rw [Option.map_some, hr.pa_val, align_down_add_offset]
  have hnot : ¬B.missing s ((requestPages va len).map emb) ≤ B.room s := by omega
  simp only [hnot, false_or]
  rw [List.forall_mem_map] at hsame hlost
  constructor
  · intro hall
    -- a page that was mapped before the call is lost
    by_contra hcon
    obtain ⟨k, hk, hsome, hnone⟩ := hlost hcon
    obtain ⟨p, hp, rfl⟩ := List.mem_map.mp hk
    exact hr.lost (requestPages_aligned hva p hp) hsome hnone (hall.1 rfl)
  intro hall
  exact ⟨fun _ => hr.unchanged (hsame hall), fun hne => absurd rfl hne⟩

/-- MUNMAP of an aligned range returns, and is all-or-nothing exactly when all
its pages are mapped or the first one is not. -/
theorem munmap_allOrNothing (hr : Reads B tr key pa cur emb val)
    (h : Implements B I emb val map unmap va) (hva : is_page_aligned va = true)
    (hlen : len ≠ 0) {s : σ} (hs : I s) :
    ∃ rc s', munmap_loop unmap va len (B.cap + 2) s 0 = some (rc, s') ∧
      (AllOrNothing tr cur va len (fun _ => none) s rc s' ↔
        (∀ p ∈ requestPages va len, B.get s (emb p) ≠ none) ∨ B.get s (emb va) = none) := by
  obtain ⟨rc, s', hloop, hout⟩ := h.munmap_outcome hlen hs
  refine ⟨rc, s', hloop, ?_⟩
  rcases hout with ⟨hall, rfl, hget⟩ | ⟨hsome, rfl, hsame, hlost⟩
  · rw [List.forall_mem_map] at hall
    refine iff_of_true ⟨fun hneg => absurd hneg (by decide), fun _ => ?_⟩ (.inl hall)
    exact hr.updated (fun _ => none) (fun v => rfl) hget
  have hnot : ¬∀ p ∈ requestPages va len, B.get s (emb p) ≠ none := by
    obtain ⟨k, hk, hnone⟩ := hsome
    obtain ⟨p, hp, rfl⟩ := List.mem_map.mp hk
    exact fun hall => hall p hp hnone
  simp only [hnot, false_or]
  constructor
  · intro hall
    by_contra hcon
    exact hr.lost hva hcon (hlost hcon) (hall.1 rfl)
  intro hnone
  exact ⟨fun _ => hr.unchanged (hsame hnone), fun hne => absurd rfl hne⟩
end atomic
end QosKernel
