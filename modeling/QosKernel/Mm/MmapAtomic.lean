import QosKernel.Mm.CVmm
import QosKernel.Mm.RustVmm

/-! # MMAP and MUNMAP as transactions

When a request is all-or-nothing, in both kernels and from every state of
the page tables. MMAP restores the tables after a failure only if it met
no page that was mapped before: rollback unmaps those too. MUNMAP does
not roll back, so it keeps the tables only if it fails on the first page.
-/
open Framework
namespace QosKernel
open SlotMap
/-! ### The C kernel -/
namespace CVmm
variable {s : Vmm} {p : UInt64} {flags : UInt32}
theorem asid_valid_get (s : Vmm) : asid_valid (qos_vmm_get_asid s) = some s.asid := by
  have hlt : s.asid.val < 64 := s.asid.isLt
  have hval : (UInt32.ofNat s.asid.val).toNat = s.asid.val := by
    rw [UInt32.toNat_ofNat']
    omega
  have hvalid : (UInt32.ofNat s.asid.val).toNat < QOS_VMM_MAX_AS := by rw [hval]; exact hlt
  rw [asid_valid, qos_vmm_get_asid, dif_pos hvalid]
  exact congrArg some (Fin.ext hval)

/-- The tables as a bounded map whose room is that of address space `a`. -/
def pageMap (a : Space) :
    BoundedMap Vmm (Space × UInt64) Mapping where
  get s k := (s.tables k.1).get k.2
  put s k v := ((s.tables k.1).put k.2 v).map fun t => { s with tables := set s.tables k.1 t }
  del s k := ((s.tables k.1).del k.2).map fun t => { s with tables := set s.tables k.1 t }
  room s := (s.tables a).room
  cap := QOS_VMM_MAX_MAPPINGS
  dom k := k.1 = a
  put_none := by
    rintro s ⟨b, p⟩ v rfl
    rw [Option.map_eq_none_iff, put_eq_none]
  put_get := by
    rintro s ⟨b, p⟩ v s' - h ⟨b', p'⟩
    obtain ⟨t, ht, rfl⟩ := Option.map_eq_some_iff.mp h
    by_cases hb : b' = b
    · subst hb
      simp only [set_self, (put_eq_some ht).1, Prod.mk.injEq, true_and]
    simp [hb]
  put_room := by
    rintro s ⟨b, p⟩ v s' rfl h
    obtain ⟨t, ht, rfl⟩ := Option.map_eq_some_iff.mp h
    simpa using (put_eq_some ht).2
  del_none := by
    rintro s ⟨b, p⟩ rfl
    rw [Option.map_eq_none_iff, del_eq_none]
  del_get := by
    rintro s ⟨b, p⟩ s' - h ⟨b', p'⟩
    obtain ⟨t, ht, rfl⟩ := Option.map_eq_some_iff.mp h
    by_cases hb : b' = b
    · subst hb
      simp only [set_self, (del_eq_some ht).1, Prod.mk.injEq, true_and]
    simp [hb]
  bounded := by
    intro s ks hnd hks
    -- all keys are of one address space, so their pages are distinct
    have hnd' : (ks.map Prod.snd).Nodup := by
      refine hnd.map_on fun k hk k' hk' h => ?_
      exact Prod.ext ((hks k hk).1.trans (hks k' hk').1.symm) h
    have hle := keys_length_le (m := s.tables a) hnd' (by
      intro p hp
      obtain ⟨k, hk, rfl⟩ := List.mem_map.mp hp
      have := hks k hk
      rw [this.1] at this
      exact this.2)
    simpa using hle

theorem okState_map (hf : flags ≠ 0) (hp : is_page_aligned p = true) :
    okState (qos_vmm_map s p p flags) = (pageMap s.asid).put s (s.asid, p) ⟨p, flags⟩ := by
  have hmask : p &&& (QOS_PAGE_SIZE - 1) = 0 := by simpa only [is_page_aligned, beq_iff_eq] using hp
  simp only [qos_vmm_map, qos_vmm_map_as, asid_valid_get, hf, if_false, hmask, ne_eq,
    not_true_eq_false, or_self, align_down_of_aligned hp, pageMap]
  rcases (s.tables s.asid).put p ⟨p, flags⟩ with _ | t
  all_goals rfl

theorem okState_unmap (hp : is_page_aligned p = true) :
    okState (qos_vmm_unmap s p) = (pageMap s.asid).del s (s.asid, p) := by
  have hmask : p &&& (QOS_PAGE_SIZE - 1) = 0 := by simpa only [is_page_aligned, beq_iff_eq] using hp
  simp only [qos_vmm_unmap, qos_vmm_unmap_as, asid_valid_get, hmask, ne_eq, not_true_eq_false,
    if_false, align_down_of_aligned hp, pageMap]
  rcases (s.tables s.asid).del p with _ | t
  all_goals rfl

section
variable (a : Space)
theorem implements (hf : flags ≠ 0) {va : UInt64}
    (hva : is_page_aligned va = true) :
    Implements (pageMap a) (fun s => s.asid = a) (fun p => (a, p)) (fun k => ⟨k.2, flags⟩)
      (fun s p => okState (qos_vmm_map s p p flags)) (fun s p => okState (qos_vmm_unmap s p))
      va where
  inj _ _ h := (Prod.mk.inj h).2
  dom _ := rfl
  cap_lt := by show QOS_VMM_MAX_MAPPINGS < 2 ^ 52; decide
  map_eq := by
    rintro s j rfl
    exact okState_map hf (pageAt_aligned hva j)
  unmap_eq := by
    rintro s j rfl
    exact okState_unmap (pageAt_aligned hva j)
  put_keeps := by
    rintro s k v s' rfl h
    simp only [pageMap, Option.map_eq_some_iff] at h
    obtain ⟨t, -, rfl⟩ := h
    rfl
  del_keeps := by
    rintro s k s' rfl h
    simp only [pageMap, Option.map_eq_some_iff] at h
    obtain ⟨t, -, rfl⟩ := h
    rfl

theorem reads (flags : UInt32) :
    Reads (pageMap a) translation (fun b p => some (b, p)) Mapping.pa a (fun p => (a, p))
      (fun k => ⟨k.2, flags⟩) where
  tr_eq s b v := by simp only [translation, pageMap, Option.bind_some]
  key_cur _ := rfl
  key_inj := by
    intro b p p' h
    simpa using h
  pa_val _ := rfl
end
section
variable (s : Vmm)
def Mapped (p : UInt64) : Prop := (s.tables s.asid).get p ≠ none

/-- The number of pages of a request that are not mapped yet. -/
def unmappedPages (va len : UInt64) : Nat :=
  ((requestPages va len).filter fun p => ((s.tables s.asid).get p).isNone).length

/-- The number of free slots of the current address space. -/
def freeSlots : Nat := (s.tables s.asid).room

variable (va len : UInt64)
/-- When an MMAP is all-or-nothing: it is refused at once, or there are enough
free slots, or it meets no mapped page before it runs out of slots. -/
def MmapSafe : Prop :=
  va = 0 ∨ len = 0 ∨ is_page_aligned va = false ∨ unmappedPages s va len ≤ freeSlots s ∨
    ∀ p ∈ (requestPages va len).take (freeSlots s + 1), ¬Mapped s p

/-- When an MUNMAP is all-or-nothing: it is refused at once, or all its pages
are mapped, or its first page is not. -/
def MunmapSafe : Prop :=
  va = 0 ∨ len = 0 ∨ is_page_aligned va = false ∨
    (∀ p ∈ requestPages va len, Mapped s p) ∨ ¬Mapped s va

theorem missing_eq :
    (pageMap s.asid).missing s ((requestPages va len).map fun p => (s.asid, p)) =
      unmappedPages s va len := by
  simp only [BoundedMap.missing, List.filter_map, List.length_map, unmappedPages, pageMap,
    Function.comp_def]
end
theorem okState_map_unaligned (hp : is_page_aligned p = false) :
    okState (qos_vmm_map s p p flags) = none := by
  have hmask : p &&& (QOS_PAGE_SIZE - 1) ≠ 0 := by
    simpa only [is_page_aligned, beq_eq_false_iff_ne] using hp
  by_cases hf : flags = 0
  · simp [qos_vmm_map, qos_vmm_map_as, asid_valid_get, hf, okState]
  simp only [qos_vmm_map, qos_vmm_map_as, asid_valid_get, hf, if_false, hmask, ne_eq,
    not_false_eq_true, true_or, if_true]
  rfl

theorem okState_unmap_unaligned (hp : is_page_aligned p = false) :
    okState (qos_vmm_unmap s p) = none := by
  have hmask : p &&& (QOS_PAGE_SIZE - 1) ≠ 0 := by
    simpa only [is_page_aligned, beq_eq_false_iff_ne] using hp
  simp only [qos_vmm_unmap, qos_vmm_unmap_as, asid_valid_get, hmask, ne_eq, not_false_eq_true,
    if_true]
  rfl

theorem sys_mmap_allOrNothing (s : Vmm) (va len a2 : UInt64) :
    ∃ rc s', sys_mmap s va len a2 = some (rc, s') ∧
      (AllOrNothing translation s.asid va len some s rc s' ↔ MmapSafe s va len) := by
  by_cases hzero : va = 0 ∨ len = 0
  · exact ⟨-1, s, by simp only [sys_mmap, if_pos hzero],
      iff_of_true .of_unchanged (or_assoc.mp (.inl hzero))⟩
  rcases not_or.mp hzero with ⟨hva, hlen⟩
  simp only [sys_mmap, if_neg hzero]
  rcases hal : is_page_aligned va with _ | _
  · exact ⟨-1, s, mmap_loop_fail _ hlen (okState_map_unaligned hal),
      iff_of_true .of_unchanged (.inr (.inr (.inl hal)))⟩
  -- flags 0 stand for the default, so the flags are never 0
  · have hf : (if a2.toUInt32 = 0 then QOS_VMM_DEFAULT_FLAGS else a2.toUInt32) ≠ 0 := by
      split
      · decide
      assumption
    obtain ⟨rc, s', hloop, hiff⟩ :=
      mmap_allOrNothing (reads s.asid _) (implements s.asid hf hal) hal len rfl
    refine ⟨rc, s', hloop, hiff.trans ?_⟩
    rw [missing_eq]
    simp [MmapSafe, Mapped, hva, hlen, hal, freeSlots, pageMap]

theorem sys_munmap_allOrNothing (s : Vmm) (va len : UInt64) :
    ∃ rc s', sys_munmap s va len = some (rc, s') ∧
      (AllOrNothing translation s.asid va len (fun _ => none) s rc s' ↔ MunmapSafe s va len) := by
  by_cases hzero : va = 0 ∨ len = 0
  · exact ⟨-1, s, by simp only [sys_munmap, if_pos hzero],
      iff_of_true .of_unchanged (or_assoc.mp (.inl hzero))⟩
  rcases not_or.mp hzero with ⟨hva, hlen⟩
  simp only [sys_munmap, if_neg hzero]
  rcases hal : is_page_aligned va with _ | _
  · exact ⟨-1, s, munmap_loop_fail _ hlen (okState_unmap_unaligned hal),
      iff_of_true .of_unchanged (.inr (.inr (.inl hal)))⟩
  obtain ⟨rc, s', hloop, hiff⟩ := munmap_allOrNothing (reads s.asid 1)
    (implements s.asid (by decide) hal) hal hlen rfl
  refine ⟨rc, s', hloop, hiff.trans ?_⟩
  simp [MunmapSafe, Mapped, hva, hlen, hal, pageMap]
end CVmm
/-! ### The Rust kernel -/
namespace RustVmm
variable {s : Vmm} {p : UInt64} {flags : UInt32}
def pageMap : BoundedMap Vmm (UInt32 × UInt64) Mapping where
  get s k := s.table.get k
  put s k v := (s.table.put k v).map fun t => { s with table := t }
  del s k := (s.table.del k).map fun t => { s with table := t }
  room s := s.table.room
  cap := QOS_VMM_MAX_MAPPINGS
  dom _ := True
  put_none s k v _ := by rw [Option.map_eq_none_iff, put_eq_none]
  put_get s k v s' _ h := by
    obtain ⟨t, ht, rfl⟩ := Option.map_eq_some_iff.mp h
    exact (put_eq_some ht).1
  put_room s k v s' _ h := by
    obtain ⟨t, ht, rfl⟩ := Option.map_eq_some_iff.mp h
    exact (put_eq_some ht).2
  del_none s k _ := by rw [Option.map_eq_none_iff, del_eq_none]
  del_get s k s' _ h := by
    obtain ⟨t, ht, rfl⟩ := Option.map_eq_some_iff.mp h
    exact (del_eq_some ht).1
  bounded s ks hnd hks := keys_length_le hnd fun k hk => (hks k hk).2

theorem asid_valid_current (s : Vmm) : asid_valid s.current_asid = true := by
  simpa [asid_valid] using s.current_valid

theorem map_eq_put (hf : flags ≠ 0) (hp : is_page_aligned p = true) :
    (vmm_map s p p flags).toOption = pageMap.put s (s.current_asid, p) ⟨p, flags⟩ := by
  have hflags : (flags == 0) = false := by simpa using hf
  simp only [vmm_map, vmm_map_as, asid_valid_current, hflags, hp, Bool.not_true, Bool.or_false,
    Bool.false_eq_true, if_false, align_down_of_aligned hp, pageMap]
  rcases s.table.put (s.current_asid, p) ⟨p, flags⟩ with _ | t
  all_goals rfl

theorem unmap_eq_del (hp : is_page_aligned p = true) :
    vmm_unmap s p = pageMap.del s (s.current_asid, p) := by
  simp only [vmm_unmap, vmm_unmap_as, asid_valid_current, hp, Bool.not_true, Bool.or_false,
    Bool.false_eq_true, if_false, align_down_of_aligned hp, pageMap]
  rcases s.table.del (s.current_asid, p) with _ | t
  all_goals rfl

theorem implements (a : UInt32) (hf : flags ≠ 0) {va : UInt64} (hva : is_page_aligned va = true) :
    Implements pageMap (fun s => s.current_asid = a) (fun p => (a, p)) (fun k => ⟨k.2, flags⟩)
      (fun s p => (vmm_map s p p flags).toOption) vmm_unmap va where
  inj _ _ h := (Prod.mk.inj h).2
  dom _ := trivial
  cap_lt := by show QOS_VMM_MAX_MAPPINGS < 2 ^ 52; decide
  map_eq := by
    rintro s j rfl
    exact map_eq_put hf (pageAt_aligned hva j)
  unmap_eq := by
    rintro s j rfl
    exact unmap_eq_del (pageAt_aligned hva j)
  put_keeps := by
    rintro s k v s' rfl h
    simp only [pageMap, Option.map_eq_some_iff] at h
    obtain ⟨t, -, rfl⟩ := h
    rfl
  del_keeps := by
    rintro s k s' rfl h
    simp only [pageMap, Option.map_eq_some_iff] at h
    obtain ⟨t, -, rfl⟩ := h
    rfl

theorem reads {a : UInt32} (ha : asid_valid a = true) (flags : UInt32) :
    Reads pageMap vmm_translate_as (fun b p => if asid_valid b then some (b, p) else none)
      Mapping.pa a (fun p => (a, p)) (fun k => ⟨k.2, flags⟩) where
  tr_eq s b v := by
    rcases hb : asid_valid b with _ | _
    · simp [vmm_translate_as, hb]
    simp [vmm_translate_as, hb, pageMap]
  key_cur p := by rw [if_pos ha]
  key_inj := by
    intro b p p' h
    rcases hb : asid_valid b with _ | _
    · simp [hb] at h
    simpa [hb] using h
  pa_val _ := rfl

variable (s : Vmm)
def Mapped (p : UInt64) : Prop := s.table.get (s.current_asid, p) ≠ none

def unmappedPages (va len : UInt64) : Nat :=
  ((requestPages va len).filter fun p => (s.table.get (s.current_asid, p)).isNone).length

def freeSlots : Nat := s.table.room

/-- When an MMAP is all-or-nothing: it is refused at once (also for flags whose
low 32 bits are 0), or there are enough free slots, or it meets no mapped
page before it runs out of slots. -/
def MmapSafe (va len a2 : UInt64) : Prop :=
  va = 0 ∨ len = 0 ∨ is_page_aligned va = false ∨ (a2 ≠ 0 ∧ a2.toUInt32 = 0) ∨
    unmappedPages s va len ≤ freeSlots s ∨
    ∀ p ∈ (requestPages va len).take (freeSlots s + 1), ¬Mapped s p

def MunmapSafe (va len : UInt64) : Prop :=
  va = 0 ∨ len = 0 ∨ is_page_aligned va = false ∨
    (∀ p ∈ requestPages va len, Mapped s p) ∨ ¬Mapped s va

theorem missing_eq (va len : UInt64) :
    pageMap.missing s ((requestPages va len).map fun p => (s.current_asid, p)) =
      unmappedPages s va len := by
  simp only [BoundedMap.missing, List.filter_map, List.length_map, unmappedPages, pageMap,
    Function.comp_def]

theorem sys_mmap_allOrNothing (va len a2 : UInt64) :
    ∃ rc s', sys_mmap s va len a2 = some (rc, s') ∧
      (AllOrNothing vmm_translate_as s.current_asid va len some s rc s' ↔
        MmapSafe s va len a2) := by
  by_cases hzero : va = 0 ∨ len = 0
  · exact ⟨-1, s, by simp only [sys_mmap, if_pos hzero],
      iff_of_true .of_unchanged (or_assoc.mp (.inl hzero))⟩
  rcases not_or.mp hzero with ⟨hva, hlen⟩
  simp only [sys_mmap, if_neg hzero]
  rcases hal : is_page_aligned va with _ | _
  · refine ⟨-1, s, mmap_loop_fail _ hlen ?_, iff_of_true .of_unchanged (.inr (.inr (.inl hal)))⟩
    simp [vmm_map, hal, Except.toOption]
  by_cases hf : (if a2 = 0 then VM_READ else a2.toUInt32) = 0
  · -- flags 0 are refused by `vmm_map`
    have ha2 : a2 ≠ 0 ∧ a2.toUInt32 = 0 := by
      by_cases h0 : a2 = 0
      · rw [if_pos h0] at hf; exact absurd hf (by decide)
      rw [if_neg h0] at hf; exact ⟨h0, hf⟩
    refine ⟨-1, s, mmap_loop_fail _ hlen ?_,
      iff_of_true .of_unchanged (.inr (.inr (.inr (.inl ha2))))⟩
    simp [vmm_map, hf, Except.toOption]
  have ha2 : ¬(a2 ≠ 0 ∧ a2.toUInt32 = 0) := by
    rintro ⟨h0, hz⟩
    exact hf (by rw [if_neg h0, hz])
  obtain ⟨rc, s', hloop, hiff⟩ := mmap_allOrNothing (reads (asid_valid_current s) _)
    (implements s.current_asid hf hal) hal len rfl
  refine ⟨rc, s', hloop, hiff.trans ?_⟩
  rw [missing_eq]
  simp only [MmapSafe, hva, hlen, hal, ha2, false_or, Bool.true_eq_false, Mapped, not_not,
    freeSlots, pageMap]

theorem sys_munmap_allOrNothing (va len : UInt64) :
    ∃ rc s', sys_munmap s va len = some (rc, s') ∧
      (AllOrNothing vmm_translate_as s.current_asid va len (fun _ => none) s rc s' ↔
        MunmapSafe s va len) := by
  by_cases hzero : va = 0 ∨ len = 0
  · exact ⟨-1, s, by simp only [sys_munmap, if_pos hzero],
      iff_of_true .of_unchanged (or_assoc.mp (.inl hzero))⟩
  rcases not_or.mp hzero with ⟨hva, hlen⟩
  simp only [sys_munmap, if_neg hzero]
  rcases hal : is_page_aligned va with _ | _
  · refine ⟨-1, s, munmap_loop_fail _ hlen ?_, iff_of_true .of_unchanged (.inr (.inr (.inl hal)))⟩
    simp [vmm_unmap, vmm_unmap_as, hal]
  obtain ⟨rc, s', hloop, hiff⟩ := munmap_allOrNothing (reads (asid_valid_current s) 1)
    (implements s.current_asid (by decide) hal) hal hlen rfl
  refine ⟨rc, s', hloop, hiff.trans ?_⟩
  simp [MunmapSafe, Mapped, hva, hlen, hal, pageMap]
end RustVmm
/-- In both kernels, from every state of the page tables and for every
request, MMAP and MUNMAP return, and the call is all-or-nothing exactly
under the condition stated for it. -/
theorem mmap_munmap_all_or_nothing (s : CVmm.Vmm) (t : RustVmm.Vmm) (va len a2 : UInt64) :
    (∃ rc s', CVmm.sys_mmap s va len a2 = some (rc, s') ∧
      (AllOrNothing CVmm.translation s.asid va len some s rc s' ↔ CVmm.MmapSafe s va len)) ∧
    (∃ rc s', CVmm.sys_munmap s va len = some (rc, s') ∧
      (AllOrNothing CVmm.translation s.asid va len (fun _ => none) s rc s' ↔
        CVmm.MunmapSafe s va len)) ∧
    (∃ rc t', RustVmm.sys_mmap t va len a2 = some (rc, t') ∧
      (AllOrNothing RustVmm.vmm_translate_as t.current_asid va len some t rc t' ↔
        RustVmm.MmapSafe t va len a2)) ∧
    (∃ rc t', RustVmm.sys_munmap t va len = some (rc, t') ∧
      (AllOrNothing RustVmm.vmm_translate_as t.current_asid va len (fun _ => none) t rc t' ↔
        RustVmm.MunmapSafe t va len)) :=
  ⟨CVmm.sys_mmap_allOrNothing s va len a2, CVmm.sys_munmap_allOrNothing s va len,
    RustVmm.sys_mmap_allOrNothing t va len a2, RustVmm.sys_munmap_allOrNothing t va len⟩

/-- One page, at 0x1000, mapped in the current address space. -/
def CVmm.onePage : CVmm.Vmm :=
  ⟨fun _ => single ⟨0, by decide⟩ 0x1000 ⟨0x1000, 1⟩, ⟨0, Nat.succ_pos _⟩⟩

def RustVmm.onePage : RustVmm.Vmm :=
  ⟨single ⟨0, by decide⟩ (0, 0x1000) ⟨0x1000, 1⟩, 0, vmm_reset.current_valid⟩

/-- MUNMAP of two pages of which only the first is mapped fails and unmaps it
all the same, in both kernels. -/
theorem munmap_not_all_or_nothing :
    (∃ rc s', CVmm.sys_munmap CVmm.onePage 0x1000 0x2000 = some (rc, s') ∧
      ¬AllOrNothing CVmm.translation CVmm.onePage.asid 0x1000 0x2000 (fun _ => none)
        CVmm.onePage rc s') ∧
    (∃ rc s', RustVmm.sys_munmap RustVmm.onePage 0x1000 0x2000 = some (rc, s') ∧
      ¬AllOrNothing RustVmm.vmm_translate_as RustVmm.onePage.current_asid 0x1000 0x2000
        (fun _ => none) RustVmm.onePage rc s') := by
  -- the first page is mapped and the second is not, so no case of the condition holds
  have hpages : requestPages 0x1000 0x2000 = [0x1000, 0x2000] := by decide
  constructor
  · obtain ⟨rc, s', hcall, hiff⟩ := CVmm.sys_munmap_allOrNothing CVmm.onePage 0x1000 0x2000
    have hget : ∀ p, (CVmm.onePage.tables CVmm.onePage.asid).get p =
        if p = 0x1000 then some ⟨0x1000, 1⟩ else none := fun _ => get_single
    refine ⟨rc, s', hcall, fun hall => ?_⟩
    rcases hiff.mp hall with h | h | h | h | h
    · exact absurd h (by decide)
    · exact absurd h (by decide)
    · exact absurd h (by decide)
    · exact absurd (h 0x2000 (by simp [hpages])) (by simp [CVmm.Mapped, hget])
    exact h (by simp [CVmm.Mapped, hget])
  obtain ⟨rc, s', hcall, hiff⟩ := RustVmm.sys_munmap_allOrNothing RustVmm.onePage 0x1000 0x2000
  have hget : ∀ k, RustVmm.onePage.table.get k =
      if k = (0, 0x1000) then some ⟨0x1000, 1⟩ else none := fun _ => get_single
  have hcur : RustVmm.onePage.current_asid = 0 := rfl
  refine ⟨rc, s', hcall, fun hall => ?_⟩
  rcases hiff.mp hall with h | h | h | h | h
  · exact absurd h (by decide)
  · exact absurd h (by decide)
  · exact absurd h (by decide)
  · exact absurd (h 0x2000 (by simp [hpages])) (by simp [RustVmm.Mapped, hget, hcur])
  exact h (by simp [RustVmm.Mapped, hget, hcur])
end QosKernel
