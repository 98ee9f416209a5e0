import QosKernel.Mm.CVmm

/-! # The C page tables as partial maps

What the page tables of the C kernel are for: every address space is a
partial map from pages to frames and flags, with room for
`QOS_VMM_MAX_MAPPINGS` pages. The tables refine these maps call by call,
and listing the mappings by ordinal lists the map.
-/
open Framework
namespace QosKernel
/-- The calls on the page tables, for any address space. -/
inductive VmmCall where
  | map (asid : UInt32) (va pa : UInt64) (flags : UInt32)
  | unmap (asid : UInt32) (va : UInt64)
  | translate (asid : UInt32) (va : UInt64)
  deriving DecidableEq

def VmmCall.asid : VmmCall → UInt32
  | .map asid _ _ _ | .unmap asid _ | .translate asid _ => asid

inductive VmmResult where
  | code (rc : Int)
  | address (pa : UInt64)
  deriving DecidableEq

namespace CVmm
variable {va : UInt64} {a : Space} {b : UInt32}
/-! ### Address spaces -/
/-- One partial map from pages for each address space. -/
abbrev Spaces := Space → UInt64 → Option Mapping

namespace Spaces
def unmapped : Spaces := fun _ _ => none

/-- Maps a page: `none` for an address space, flags or addresses that are not
valid, and for a new page without room. -/
noncomputable def map (M : Spaces) (asid : UInt32) (va pa : UInt64) (flags : UInt32) :
    Option Spaces :=
  match asid_valid asid with
  | none => none
  | some a =>
    if flags ≠ 0 ∧ is_page_aligned va = true ∧ is_page_aligned pa = true then
      (PartialMap.put QOS_VMM_MAX_MAPPINGS (M a) va ⟨pa, flags⟩).map (set M a)
    else none

section
variable (M : Spaces) (asid : UInt32) (va : UInt64)
def unmap : Option Spaces :=
  match asid_valid asid with
  | none => none
  | some a =>
    if is_page_aligned va = true then (PartialMap.del (M a) va).map (set M a) else none

/-- The frame of the page and the offset in the page; 0 if it is not mapped. -/
def translate : UInt64 :=
  match asid_valid asid with
  | none => 0
  | some a =>
    match M a (align_down va) with
    | none => 0
    | some m => m.pa + (va &&& (QOS_PAGE_SIZE - 1))
end
/-- An operation that fails changes nothing. -/
def commit (M : Spaces) : Option Spaces → VmmResult × Spaces
  | none => (.code (-1), M)
  | some M' => (.code 0, M')

noncomputable def step (M : Spaces) : VmmCall → VmmResult × Spaces
  | .map asid va pa flags => M.commit (M.map asid va pa flags)
  | .unmap asid va => M.commit (M.unmap asid va)
  | .translate asid va => (.address (M.translate asid va), M)

noncomputable def run (tr : List VmmCall) : Spaces := tr.foldl (fun M c => (M.step c).2) unmapped
end Spaces
/-! ### The tables refine the maps -/
def step (s : Vmm) : VmmCall → VmmResult × Vmm
  | .map asid va pa flags =>
    (.code (qos_vmm_map_as s asid va pa flags).1, (qos_vmm_map_as s asid va pa flags).2)
  | .unmap asid va => (.code (qos_vmm_unmap_as s asid va).1, (qos_vmm_unmap_as s asid va).2)
  | .translate asid va => (.address (qos_vmm_translate_as s asid va), s)

def run (tr : List VmmCall) : Vmm := tr.foldl (fun s c => (step s c).2) qos_vmm_reset
def spaces (s : Vmm) : Spaces := fun a => (s.tables a).get

variable {s : Vmm}
theorem aligned_iff : ¬va &&& (QOS_PAGE_SIZE - 1) ≠ 0 ↔ is_page_aligned va = true := by
  simp [is_page_aligned]

theorem spaces_set {t : SlotMap UInt64 Mapping QOS_VMM_MAX_MAPPINGS} :
    spaces { s with tables := set s.tables a t } = set (spaces s) a t.get :=
  set_comp SlotMap.get

theorem commit_spaces (o : Option (SlotMap UInt64 Mapping QOS_VMM_MAX_MAPPINGS)) :
    (spaces s).commit ((o.map SlotMap.get).map (set (spaces s) a)) =
      match o with
      | none => (.code (-1), spaces s)
      | some t => (.code 0, spaces { s with tables := set s.tables a t }) := by
  cases o with
  | none => rfl
  | some t =>
  dsimp only
  rw [spaces_set]
  rfl

section
variable (s : Vmm) (asid : UInt32)
theorem map_refines (va pa : UInt64) (flags : UInt32) :
    (spaces s).step (.map asid va pa flags) = (.code (qos_vmm_map_as s asid va pa flags).1,
        spaces (qos_vmm_map_as s asid va pa flags).2) := by
  unfold Spaces.step Spaces.map qos_vmm_map_as
  dsimp only
  cases asid_valid asid with
  | none => rfl
  | some a =>
  dsimp only
  by_cases hflags : flags = 0
  · rw [if_pos hflags, if_neg (fun h => h.1 hflags)]
    rfl
  rw [if_neg hflags]
  by_cases haligned : is_page_aligned va = true ∧ is_page_aligned pa = true
  · obtain ⟨hva, hpa⟩ := haligned
    have hor : ¬(va &&& (QOS_PAGE_SIZE - 1) ≠ 0 ∨ pa &&& (QOS_PAGE_SIZE - 1) ≠ 0) :=
      not_or.mpr ⟨aligned_iff.mpr hva, aligned_iff.mpr hpa⟩
    rw [if_pos ⟨hflags, hva, hpa⟩, if_neg hor, align_down_of_aligned hva]
    have hput := SlotMap.put_refines (s.tables a) va ⟨pa, flags⟩
    show (spaces s).commit ((PartialMap.put _ (s.tables a).get va _).map _) = _
    rw [← hput, commit_spaces]
    cases (s.tables a).put va ⟨pa, flags⟩ with
    | none | some t => dsimp only
  have hor : va &&& (QOS_PAGE_SIZE - 1) ≠ 0 ∨ pa &&& (QOS_PAGE_SIZE - 1) ≠ 0 := by
    by_contra hnot
    obtain ⟨hva, hpa⟩ := not_or.mp hnot
    exact haligned ⟨aligned_iff.mp hva, aligned_iff.mp hpa⟩
  rw [if_pos hor, if_neg fun h => haligned h.2]
  rfl

variable (va : UInt64)
theorem unmap_refines :
    (spaces s).step (.unmap asid va) =
      (.code (qos_vmm_unmap_as s asid va).1, spaces (qos_vmm_unmap_as s asid va).2) := by
  unfold Spaces.step Spaces.unmap qos_vmm_unmap_as
  dsimp only
  cases asid_valid asid with
  | none => rfl
  | some a =>
  dsimp only
  by_cases hva : is_page_aligned va = true
  · rw [if_pos hva, if_neg (aligned_iff.mpr hva), align_down_of_aligned hva]
    have hdel := SlotMap.del_refines (s.tables a) va
    show (spaces s).commit ((PartialMap.del (s.tables a).get va).map _) = _
    rw [← hdel, commit_spaces]
    cases (s.tables a).del va with
    | none | some t => dsimp only
  rw [if_neg hva, if_pos (by simpa [is_page_aligned] using hva)]
  rfl

theorem translate_refines : (spaces s).translate asid va = qos_vmm_translate_as s asid va := by
  unfold Spaces.translate qos_vmm_translate_as
  cases asid_valid asid with
  | none => rfl
  | some a =>
  dsimp only [translation, spaces]
  cases (s.tables a).get (align_down va) <;> rfl
end
theorem step_refines (s : Vmm) (c : VmmCall) :
    (spaces s).step c = ((step s c).1, spaces (step s c).2) := by
  cases c with
  | map asid va pa flags => exact map_refines s asid va pa flags
  | unmap asid va => exact unmap_refines s asid va
  | translate asid va =>
  show (VmmResult.address _, _) = _
  rw [translate_refines]
  rfl

theorem spaces_reset : spaces qos_vmm_reset = Spaces.unmapped := by
  funext a p
  simp only [spaces, qos_vmm_reset, SlotMap.get_empty, Spaces.unmapped]

theorem run_refines (tr : List VmmCall) : spaces (run tr) = Spaces.run tr := by
  -- the maps of the state so far are the abstract state so far
  have hloop : ∀ (s : Vmm), spaces (tr.foldl (fun s c => (step s c).2) s) =
      tr.foldl (fun M c => (Spaces.step M c).2) (spaces s) := by
    induction tr with
    | nil => intro s; simp only [List.foldl_nil]
    | cons c tr ih =>
    intro s
    rw [List.foldl_cons, List.foldl_cons, ih, step_refines]
  rw [run, hloop, spaces_reset]
  rfl

/-! ### Other address spaces, and failures -/
theorem Spaces.step_other (M : Spaces) (c : VmmCall) (ha : asid_valid c.asid ≠ some a) :
    (M.step c).2 a = M a := by
  have hset : ∀ {b : Space} (o : Option (UInt64 → Option Mapping)),
      a ≠ b → (M.commit (o.map (set M b))).2 a = M a := by
    intro b o hab
    cases o with
    | none => rfl
    | some f => exact set_ne hab
  cases c with
  | translate asid va => rfl
  | map asid va pa flags =>
    unfold Spaces.step Spaces.map
    dsimp only
    cases hasid : asid_valid asid with
    | none => rfl
    | some b =>
    have hab : a ≠ b := fun e => ha (by rw [VmmCall.asid, hasid, e])
    dsimp only
    split
    · exact hset _ hab
    rfl
  | unmap asid va =>
  unfold Spaces.step Spaces.unmap
  dsimp only
  cases hasid : asid_valid asid with
  | none => rfl
  | some b =>
  have hab : a ≠ b := fun e => ha (by rw [VmmCall.asid, hasid, e])
  dsimp only
  split
  · exact hset _ hab
  rfl

theorem asid_valid_inj {asid : UInt32} (h : asid_valid asid = some a) (hb : asid_valid b = some a) :
    asid = b := by
  unfold asid_valid at h hb
  split at h
  · split at hb
    · cases h
      simp only [Option.some.injEq, Fin.mk.injEq] at hb
      exact UInt32.toNat_inj.mp hb.symm
    cases hb
  cases h

section
variable (s : Vmm) (c : VmmCall)
theorem translate_other (hb : b ≠ c.asid) (va : UInt64) :
    qos_vmm_translate_as (step s c).2 b va = qos_vmm_translate_as s b va := by
  have hspaces : spaces (step s c).2 = ((spaces s).step c).2 := by rw [step_refines]
  rw [← translate_refines, ← translate_refines, hspaces]
  unfold Spaces.translate
  cases hvalid : asid_valid b with
  | none => rfl
  | some a =>
  have hother : asid_valid c.asid ≠ some a := fun h => hb (asid_valid_inj hvalid h)
  dsimp only
  rw [Spaces.step_other _ c hother]

theorem step_failed (h : (step s c).1 = .code (-1)) : (step s c).2 = s := by
  cases c with
  | translate asid va => rfl
  | map asid va pa flags =>
    unfold step qos_vmm_map_as at h ⊢
    dsimp only at h ⊢
    repeat' split
    all_goals first | rfl | skip
    -- the one branch that succeeds does not return -1
    simp_all
  | unmap asid va =>
  unfold step qos_vmm_unmap_as at h ⊢
  dsimp only at h ⊢
  repeat' split
  all_goals first | rfl | skip
  simp_all
end
/-! ### Listing the mappings -/
/-- The mappings by their ordinals: as many as the map has pages, each of them
a mapping of the map, and every mapping with exactly one ordinal. -/
structure Lists (s : Vmm) (asid : UInt32) (f : UInt64 → Option Mapping) : Prop where
  count : (qos_vmm_mapping_count_as s asid).toNat = (PartialMap.keys f).ncard
  mapped : ∀ k, k < qos_vmm_mapping_count_as s asid →
    ∃ p m, qos_vmm_mapping_get_as s asid k = some (p, m.pa, m.flags) ∧ f p = some m
  once : ∀ p m, f p = some m → ∃ k, k < qos_vmm_mapping_count_as s asid ∧
    qos_vmm_mapping_get_as s asid k = some (p, m.pa, m.flags) ∧
    ∀ k' pa flags, qos_vmm_mapping_get_as s asid k' = some (p, pa, flags) → k' = k

section
variable (s : Vmm) (a : Space)
theorem filterMap_slotList : (slotList s a).filterMap id = (s.tables a).entries := by
  rw [slotList, List.filterMap_map]
  rfl

theorem length_slotList : (slotList s a).length = QOS_VMM_MAX_MAPPINGS := by
  rw [slotList, List.length_map, List.length_finRange]
end
section Listing
variable {asid : UInt32} {a : Space}
theorem entries_lt (s : Vmm) (a : Space) :
    (s.tables a).entries.length ≤ QOS_VMM_MAX_MAPPINGS := by
  have := (s.tables a).length_entries
  omega

theorem mapping_count_eq (h : asid_valid asid = some a) :
    (qos_vmm_mapping_count_as s asid).toNat = (s.tables a).entries.length := by
  unfold qos_vmm_mapping_count_as
  rw [h]
  dsimp only
  rw [countUsed_eq, filterMap_slotList, UInt32.toNat_ofNat']
  apply Nat.mod_eq_of_lt
  exact Nat.lt_of_le_of_lt (entries_lt s a) (by rw [QOS_VMM_MAX_MAPPINGS]; omega)

theorem mapping_get_eq (h : asid_valid asid = some a) (k : UInt32) :
    qos_vmm_mapping_get_as s asid k =
      ((s.tables a).entries[k.toNat]?).map fun e => (e.1, e.2.pa, e.2.flags) := by
  unfold qos_vmm_mapping_get_as
  rw [h]
  dsimp only
  rw [nthUsed_eq k _ 0 (Nat.zero_le _), filterMap_slotList]
  · rfl
  rw [length_slotList, QOS_VMM_MAX_MAPPINGS]
  decide

theorem lists_entries (s : Vmm) (h : asid_valid asid = some a) : Lists s asid (spaces s a) where
  count := by rw [mapping_count_eq h, spaces, SlotMap.ncard_keys]
  mapped k hk := by
    rw [UInt32.lt_iff_toNat_lt, mapping_count_eq h] at hk
    have hentry := List.getElem?_eq_getElem hk
    rcases hpm : (s.tables a).entries[k.toNat] with ⟨p, m⟩
    refine ⟨p, m, ?_, ?_⟩
    · rw [mapping_get_eq h, hentry, hpm]
      rfl
    exact SlotMap.mem_entries.mp (hpm ▸ List.getElem_mem hk)
  once p m hpm := by
    obtain ⟨k, hk, hentry⟩ := List.getElem_of_mem (SlotMap.mem_entries.mpr hpm)
    have hlen := entries_lt s a
    have hval : (UInt32.ofNat k).toNat = k := by
      rw [UInt32.toNat_ofNat']
      exact Nat.mod_eq_of_lt (Nat.lt_trans hk (Nat.lt_of_le_of_lt hlen
        (by rw [QOS_VMM_MAX_MAPPINGS]; omega)))
    refine ⟨UInt32.ofNat k, ?_, ?_, fun k' pa flags hk' => ?_⟩
    · rw [UInt32.lt_iff_toNat_lt, mapping_count_eq h, hval]
      exact hk
    · rw [mapping_get_eq h, hval, List.getElem?_eq_getElem hk, hentry]
      rfl
    -- two ordinals of one page are the same, since keys are distinct
    rw [mapping_get_eq h, Option.map_eq_some_iff] at hk'
    obtain ⟨e, he, hpage⟩ := hk'
    have hnd := (s.tables a).entries_keys_nodup
    have hkey : ((s.tables a).entries.map Prod.fst)[k]? =
        ((s.tables a).entries.map Prod.fst)[k'.toNat]? := by
      rw [List.getElem?_map, List.getElem?_map, he, List.getElem?_eq_getElem hk, hentry]
      exact congrArg some (Prod.mk.inj hpage).1.symm
    have heq := (List.getElem?_inj (by simpa using hk) hnd).mp hkey
    rw [← UInt32.toNat_inj, hval, heq]
end Listing
/-! ### The contract -/
/-- The tables behave as the maps `M`. -/
structure Behaves (s : Vmm) (M : Spaces) : Prop where
  result : ∀ c, (step s c).1 = (M.step c).1
  next : ∀ c, spaces (step s c).2 = (M.step c).2
  capacity : ∀ a, (PartialMap.keys (M a)).Finite ∧
    (PartialMap.keys (M a)).ncard ≤ QOS_VMM_MAX_MAPPINGS
  other : ∀ c b va, b ≠ c.asid →
    qos_vmm_translate_as (step s c).2 b va = qos_vmm_translate_as s b va
  failed : ∀ c, (step s c).1 = .code (-1) → (step s c).2 = s
  lists : ∀ asid a, asid_valid asid = some a → Lists s asid (M a)

theorem behaves_spaces (s : Vmm) : Behaves s (spaces s) where
  result c := by rw [step_refines]
  next c := by rw [step_refines]
  capacity a := by
    refine ⟨(s.tables a).keys_finite, ?_⟩
    have := (s.tables a).ncard_keys_add_room
    show (PartialMap.keys (s.tables a).get).ncard ≤ _
    omega
  other c b va hb := translate_other s c hb va
  failed := step_failed s
  lists asid a h := lists_entries s h

/-- After every sequence of calls the C page tables behave as one partial map
for each address space, the one that the same calls build. -/
theorem c_vmm_refines_maps (tr : List VmmCall) : Behaves (run tr) (Spaces.run tr) := by
  rw [← run_refines]
  exact behaves_spaces (run tr)
end CVmm
end QosKernel
