import QosKernel.Mm.MmapAtomic
import QosKernel.Syscall.RustDispatch

/-! # Memory at the end of the address space

The loops of `MMAP` and `MUNMAP` in the Rust kernel add the offset to the
address with a checked addition. A request that goes on behind the last
page of the address space therefore panics, unless the loop stops at an
earlier page.
-/
open Framework Framework.Checked
namespace QosKernel.RustSys
open RustVmm
variable {s : RustSys} {a0 a1 a2 : UInt64}
/-- The bytes from an address to the end of the address space. -/
def toEnd (va : UInt64) : UInt64 := 0 - va

/-- An `MMAP` that runs into the end of the address space: all the pages up to
there can be mapped. -/
def MmapRunsOut (vmm : Vmm) (va len a2 : UInt64) : Prop :=
  va ≠ 0 ∧ is_page_aligned va = true ∧ ¬(a2 ≠ 0 ∧ a2.toUInt32 = 0) ∧ toEnd va < len ∧
    unmappedPages vmm va (toEnd va) ≤ freeSlots vmm

/-- An `MUNMAP` that runs into the end of the address space: all the pages up to
there are mapped. -/
def MunmapRunsOut (vmm : Vmm) (va len : UInt64) : Prop :=
  va ≠ 0 ∧ is_page_aligned va = true ∧ toEnd va < len ∧
    ∀ p ∈ requestPages va (toEnd va), Mapped vmm p

/-! ### Offsets -/
theorem toNat_toEnd {va : UInt64} (hva : va ≠ 0) : (toEnd va).toNat = 2 ^ 64 - va.toNat := by
  have hpos : va.toNat ≠ 0 := fun e => hva (UInt64.toNat_inj.mp e)
  have hlt := va.toNat_lt
  rw [toEnd, UInt64.toNat_sub, UInt64.toNat_zero, Nat.add_zero, Nat.mod_eq_of_lt (by omega)]

section offsets
variable {j : Nat} {a : UInt32} {va len : UInt64} (hva : va ≠ 0) (hal : is_page_aligned va = true)
include hva hal
/-- The end is a whole number of pages away, and less than all of them. -/
theorem end_eq : va.toNat + 4096 * pageCount (toEnd va) = 2 ^ 64 ∧ pageCount (toEnd va) < 2 ^ 52 := by
  have hpos : va.toNat ≠ 0 := fun e => hva (UInt64.toNat_inj.mp e)
  have hlt := va.toNat_lt
  rw [is_page_aligned_iff] at hal
  rw [pageCount, toNat_toEnd hva]
  omega

theorem end_lt_iff : toEnd va < len ↔ pageCount (toEnd va) < pageCount len := by
  have hlt := va.toNat_lt
  rw [is_page_aligned_iff] at hal
  rw [UInt64.lt_iff_toNat_lt, pageCount, pageCount, toNat_toEnd hva]
  omega

theorem add_page (hj : j < pageCount (toEnd va)) :
    add va (.ofNat (4096 * j)) = .ok (pageAt va j) := by
  obtain ⟨hend, hcount⟩ := end_eq hva hal
  refine add_of ?_
  rw [offset_toNat (by omega)]
  omega

theorem add_end : add va (.ofNat (4096 * pageCount (toEnd va))) = .error .overflow := by
  obtain ⟨hend, hcount⟩ := end_eq hva hal
  refine add_of_not ?_
  rw [offset_toNat hcount]
  omega

theorem add_offset (hj : j < pageCount (toEnd va)) :
    add (.ofNat (4096 * j)) QOS_PAGE_SIZE = .ok (.ofNat (4096 * (j + 1))) := by
  obtain ⟨hend, hcount⟩ := end_eq hva hal
  rw [← offset_succ]
  refine add_of ?_
  rw [offset_toNat (by omega)]
  change 4096 * j + 4096 < 2 ^ 64
  omega

/-! ### The loops -/
theorem map_pages_returns (flags : UInt32) (left j : Nat) (vmm : Vmm)
    (hj : j + left ≤ pageCount (toEnd va)) :
    Returns (map_pages va flags vmm j left) fun _ => True := by
  induction left generalizing j vmm with
  | zero => exact returns_ok trivial
  | succ left ih =>
  rw [map_pages, add_page hva hal (by omega), ok_bind]
  cases vmm_map vmm (pageAt va j) (pageAt va j) flags with
  | error e => exact returns_ok trivial
  | ok vmm' =>
  dsimp only
  rw [add_offset hva hal (by omega), ok_bind]
  exact ih (j + 1) vmm' (by omega)

theorem unmap_pages_returns (left j : Nat) (vmm : Vmm) (hj : j + left ≤ pageCount (toEnd va)) :
    Returns (unmap_pages va vmm j left) fun _ => True := by
  induction left generalizing j vmm with
  | zero => exact returns_ok trivial
  | succ left ih =>
  rw [unmap_pages, add_page hva hal (by omega), ok_bind]
  cases vmm_unmap vmm (pageAt va j) with
  | none => exact returns_ok trivial
  | some vmm' =>
  dsimp only
  rw [add_offset hva hal (by omega), ok_bind]
  exact ih (j + 1) vmm' (by omega)

/-- A longer request returns exactly if some page before the end cannot be
mapped. The induction follows the loop; the pages behind `j` are those
still to be put. -/
theorem map_pages_split {flags : UInt32} (hf : flags ≠ 0) (left j : Nat) (vmm : Vmm)
    (ha : vmm.current_asid = a) (hj : j ≤ pageCount (toEnd va))
    (hlong : pageCount (toEnd va) < j + left) (done : List (UInt32 × UInt64)) :
    match pageMap.putAll (fun k => ⟨k.2, flags⟩) vmm done
      (keysFrom (fun p => (a, p)) va (toEnd va) j) with
    | .ok _ => map_pages va flags vmm j left = .error .overflow
    | .error _ => Returns (map_pages va flags vmm j left) fun _ => True := by
  have himpl := implements a hf hal
  induction left generalizing j vmm done with
  | zero => omega
  | succ left ih =>
  by_cases hlt : j < pageCount (toEnd va)
  · rw [keysFrom_of_lt hlt, BoundedMap.putAll, map_pages, add_page hva hal hlt, ok_bind]
    have hput : (vmm_map vmm (pageAt va j) (pageAt va j) flags).toOption =
        pageMap.put vmm (a, pageAt va j) ⟨pageAt va j, flags⟩ := himpl.map_eq vmm j ha
    rw [← hput]
    cases hmap : vmm_map vmm (pageAt va j) (pageAt va j) flags with
    | error e => exact returns_ok trivial
    | ok vmm' =>
    rw [hmap] at hput
    simp only [Except.toOption, add_offset hva hal hlt, ok_bind]
    exact ih (j + 1) vmm' (himpl.put_keeps vmm _ _ vmm' ha hput.symm) (by omega) (by omega) _
  obtain rfl : j = pageCount (toEnd va) := by omega
  rw [keysFrom_of_ge hlt, map_pages, add_end hva hal]
  rfl

theorem unmap_pages_split (left j : Nat) (vmm : Vmm) (ha : vmm.current_asid = a)
    (hj : j ≤ pageCount (toEnd va)) (hlong : pageCount (toEnd va) < j + left) :
    match pageMap.delAll vmm (keysFrom (fun p => (a, p)) va (toEnd va) j) with
    | .ok _ => unmap_pages va vmm j left = .error .overflow
    | .error _ => Returns (unmap_pages va vmm j left) fun _ => True := by
  have himpl := implements a (show (1 : UInt32) ≠ 0 by decide) hal
  induction left generalizing j vmm with
  | zero => omega
  | succ left ih =>
  by_cases hlt : j < pageCount (toEnd va)
  · rw [keysFrom_of_lt hlt, BoundedMap.delAll, unmap_pages, add_page hva hal hlt, ok_bind]
    have hdel := himpl.unmap_eq vmm j ha
    rw [← hdel]
    cases hunmap : vmm_unmap vmm (pageAt va j) with
    | none => exact returns_ok trivial
    | some vmm' =>
    rw [hunmap] at hdel
    simp only [add_offset hva hal hlt, ok_bind]
    exact ih (j + 1) vmm' (himpl.del_keeps vmm _ vmm' ha hdel.symm) (by omega) (by omega)
  obtain rfl : j = pageCount (toEnd va) := by omega
  rw [keysFrom_of_ge hlt, unmap_pages, add_end hva hal]
  rfl
end offsets
/-! ### The system calls -/
theorem keysFrom_zero {K : Type} (emb : UInt64 → K) (va len : UInt64) :
    keysFrom emb va len 0 = (requestPages va len).map emb := by
  rw [keysFrom, List.drop_zero]

theorem endKeys_nodup (a : UInt32) (va : UInt64) :
    ((requestPages va (toEnd va)).map fun p => (a, p)).Nodup :=
  (requestPages_nodup va (toEnd va)).map fun _ _ h => (Prod.mk.inj h).2

theorem room_pageMap (vmm : Vmm) : pageMap.room vmm = freeSlots vmm := by
  simp only [freeSlots, pageMap]

theorem mapped_iff (vmm : Vmm) (p : UInt64) :
    Mapped vmm p ↔ pageMap.get vmm (vmm.current_asid, p) ≠ none := by
  simp only [Mapped, pageMap]

section calls
variable {flags : UInt32} {vmm : Vmm} {va len : UInt64}
theorem add_first : add va (.ofNat (4096 * 0)) = .ok va := by
  rw [add_of (by simpa using va.toNat_lt)]
  simp

theorem map_pages_refused (hbad : flags = 0 ∨ is_page_aligned va = false) (n : Nat) :
    Returns (map_pages va flags vmm 0 n) fun _ => True := by
  cases n with
  | zero => exact returns_ok trivial
  | succ n =>
  have hmap : vmm_map vmm va va flags = .error .InvalidAddress := by
    unfold vmm_map
    rcases hbad with rfl | hal
    · rfl
    rw [hal]
    simp
  rw [map_pages, add_first, ok_bind, hmap]
  exact returns_ok trivial

theorem unmap_pages_refused (hal : is_page_aligned va = false) (n : Nat) :
    Returns (unmap_pages va vmm 0 n) fun _ => True := by
  cases n with
  | zero => exact returns_ok trivial
  | succ n =>
  have hunmap : vmm_unmap vmm va = none := by
    rw [vmm_unmap, vmm_unmap_as, hal]
    simp
  rw [unmap_pages, add_first, ok_bind, hunmap]
  exact returns_ok trivial

variable (hva : va ≠ 0)
include hva
theorem map_pages_runsOut (hf : flags ≠ 0) (hal : is_page_aligned va = true) (hend : toEnd va < len)
    (hroom : unmappedPages vmm va (toEnd va) ≤ freeSlots vmm) :
    map_pages va flags vmm 0 (pageCount len) = .error .overflow := by
  have hsplit := map_pages_split hva hal hf (pageCount len) 0 vmm rfl (Nat.zero_le _)
    (by rw [Nat.zero_add]; exact (end_lt_iff hva hal).mp hend) []
  rw [← missing_eq, ← room_pageMap] at hroom
  obtain ⟨s', hok, -⟩ := pageMap.putAll_ok (fun k => ⟨k.2, flags⟩) (fun _ _ => trivial)
    (endKeys_nodup vmm.current_asid va) [] hroom
  rw [keysFrom_zero, hok] at hsplit
  exact hsplit

theorem map_pages_stops (hf : flags ≠ 0) (hal : is_page_aligned va = true)
    (hroom : toEnd va < len → ¬unmappedPages vmm va (toEnd va) ≤ freeSlots vmm) :
    Returns (map_pages va flags vmm 0 (pageCount len)) fun _ => True := by
  by_cases hend : toEnd va < len
  · have hsplit := map_pages_split hva hal hf (pageCount len) 0 vmm rfl (Nat.zero_le _)
      (by rw [Nat.zero_add]; exact (end_lt_iff hva hal).mp hend) []
    have hfull := hroom hend
    rw [← missing_eq, ← room_pageMap, Nat.not_le] at hfull
    obtain ⟨s', -, -, -, -, herr, -⟩ := pageMap.putAll_error (fun k => ⟨k.2, flags⟩)
      (fun _ _ => trivial) (endKeys_nodup vmm.current_asid va) [] (fun _ _ => trivial) hfull
    rw [keysFrom_zero, herr] at hsplit
    exact hsplit
  refine map_pages_returns hva hal flags _ 0 vmm ?_
  rw [end_lt_iff hva hal] at hend
  omega

theorem unmap_pages_runsOut (hal : is_page_aligned va = true) (hend : toEnd va < len)
    (hall : ∀ p ∈ requestPages va (toEnd va), Mapped vmm p) :
    unmap_pages va vmm 0 (pageCount len) = .error .overflow := by
  have hsplit := unmap_pages_split hva hal (pageCount len) 0 vmm rfl (Nat.zero_le _)
    (by rw [Nat.zero_add]; exact (end_lt_iff hva hal).mp hend)
  simp only [mapped_iff] at hall
  obtain ⟨s', hok, -⟩ := pageMap.delAll_ok (fun _ _ => trivial)
    (endKeys_nodup vmm.current_asid va) (List.forall_mem_map.mpr hall)
  rw [keysFrom_zero, hok] at hsplit
  exact hsplit

theorem unmap_pages_stops (hal : is_page_aligned va = true)
    (hsome : toEnd va < len → ¬∀ p ∈ requestPages va (toEnd va), Mapped vmm p) :
    Returns (unmap_pages va vmm 0 (pageCount len)) fun _ => True := by
  by_cases hend : toEnd va < len
  · have hsplit := unmap_pages_split hva hal (pageCount len) 0 vmm rfl (Nat.zero_le _)
      (by rw [Nat.zero_add]; exact (end_lt_iff hva hal).mp hend)
    have hhole : ∃ k ∈ (requestPages va (toEnd va)).map fun p => (vmm.current_asid, p),
        pageMap.get vmm k = none := by
      have hhole := hsome hend
      simp only [mapped_iff] at hhole
      push Not at hhole
      obtain ⟨p, hp, hnone⟩ := hhole
      exact ⟨_, List.mem_map_of_mem hp, hnone⟩
    obtain ⟨s', -, -, -, -, herr, -⟩ := pageMap.delAll_error (fun _ _ => trivial)
      (endKeys_nodup vmm.current_asid va) hhole
    rw [keysFrom_zero, herr] at hsplit
    exact hsplit
  refine unmap_pages_returns hva hal _ 0 vmm ?_
  rw [end_lt_iff hva hal] at hend
  omega
end calls
/-- The flags that `MMAP` passes on are 0 exactly for an argument whose low word
alone is 0. -/
theorem mmap_flags_eq_zero (a2 : UInt64) :
    (if a2 = 0 then VM_READ else a2.toUInt32) = 0 ↔ a2 ≠ 0 ∧ a2.toUInt32 = 0 := by
  split
  next h => exact iff_of_false (by decide) fun hne => hne.1 h
  next h => exact ⟨fun hz => ⟨h, hz⟩, And.right⟩

theorem op_mmap_error (h : MmapRunsOut s.vmm a0 a1 a2) : s.op_mmap a0 a1 a2 = .error .overflow := by
  obtain ⟨hva, hal, hflags, hend, hroom⟩ := h
  have hlen : a1 ≠ 0 := by
    rintro rfl
    exact UInt64.not_lt_zero hend
  unfold op_mmap
  rw [if_neg (not_or.mpr ⟨hva, hlen⟩),
    map_pages_runsOut hva ((mmap_flags_eq_zero a2).not.mpr hflags) hal hend hroom]
  rfl

theorem op_mmap_returns (h : ¬MmapRunsOut s.vmm a0 a1 a2) :
    Returns (s.op_mmap a0 a1 a2) fun o => ∃ vmm, o.state = { s with vmm := vmm } := by
  unfold op_mmap
  refine returns_ite (fun _ => returns_ok ⟨s.vmm, rfl⟩) fun hzero => ?_
  have hva : a0 ≠ 0 := fun e => hzero (.inl e)
  refine Returns.bind (P := fun _ => True) ?_ fun r _ => returns_ok ⟨r.2, rfl⟩
  by_cases hbad : (if a2 = 0 then VM_READ else a2.toUInt32) = 0 ∨ is_page_aligned a0 = false
  · exact map_pages_refused hbad _
  rw [not_or, Bool.not_eq_false] at hbad
  refine map_pages_stops hva hbad.1 hbad.2 fun hend hroom => h ?_
  exact ⟨hva, hbad.2, (mmap_flags_eq_zero a2).not.mp hbad.1, hend, hroom⟩

theorem op_munmap_error (h : MunmapRunsOut s.vmm a0 a1) : s.op_munmap a0 a1 = .error .overflow := by
  obtain ⟨hva, hal, hend, hall⟩ := h
  have hlen : a1 ≠ 0 := by
    rintro rfl
    exact UInt64.not_lt_zero hend
  unfold op_munmap
  rw [if_neg (not_or.mpr ⟨hva, hlen⟩), unmap_pages_runsOut hva hal hend hall]
  rfl

theorem op_munmap_returns (h : ¬MunmapRunsOut s.vmm a0 a1) :
    Returns (s.op_munmap a0 a1) fun o => ∃ vmm, o.state = { s with vmm := vmm } := by
  unfold op_munmap
  refine returns_ite (fun _ => returns_ok ⟨s.vmm, rfl⟩) fun hzero => ?_
  have hva : a0 ≠ 0 := fun e => hzero (.inl e)
  refine Returns.bind (P := fun _ => True) ?_ fun r _ => returns_ok ⟨r.2, rfl⟩
  cases hal : is_page_aligned a0 with
  | false => exact unmap_pages_refused hal _
  | true => exact unmap_pages_stops hva hal fun hend hall => h ⟨hva, hal, hend, hall⟩

/-! ### The other build

`RustVmm.sys_mmap` and `RustVmm.sys_munmap` are the same loops with sums that
wrap. Where no sum overflows, they do the same. -/
section wrapping
variable {va len : UInt64} {r r' : Int × Vmm}
theorem unmap_back_wrapping (va : UInt64) : ∀ (j fuel : Nat) (vmm : Vmm), j < fuel → j < 2 ^ 52 →
    QosKernel.unmap_back vmm_unmap va fuel vmm (.ofNat (4096 * j)) = some (unmap_back va vmm j)
  | 0, fuel + 1, vmm, _, hj => by
    rw [QosKernel.unmap_back, if_neg ((offset_pos hj).not.mpr (Nat.lt_irrefl 0)), unmap_back]
  | j + 1, fuel + 1, vmm, hfuel, hj => by
    rw [QosKernel.unmap_back, if_pos ((offset_pos hj).mpr j.succ_pos), offset_pred, unmap_back]
    exact unmap_back_wrapping va j fuel _ (by omega) (by omega)

/-- The offset of the next page, if the loop goes on. -/
theorem lt_of_add_offset {j : Nat} {off : UInt64} (hj : j < 2 ^ 52)
    (h : add (.ofNat (4096 * j)) QOS_PAGE_SIZE = .ok off) : j + 1 < 2 ^ 52 := by
  by_contra hlast
  rw [add_of_not] at h
  · cases h
  rw [offset_toNat hj]
  change ¬4096 * j + 4096 < 2 ^ 64
  omega

theorem map_pages_wrapping {flags : UInt32} (left : Nat) : ∀ {j fuel vmm}, j < 2 ^ 52 →
    j + left = pageCount len → map_pages va flags vmm j left = .ok r →
    mmap_loop (fun s p => (vmm_map s p p flags).toOption) vmm_unmap va len fuel vmm
      (.ofNat (4096 * j)) = some r' → r' = r := by
  induction left with
  | zero =>
    rintro j (_ | fuel) vmm hj hcount h h'
    · cases h'
    rw [mmap_loop, if_neg ((offset_lt_iff hj).not.mpr (by omega))] at h'
    cases h
    cases h'
    rfl
  | succ left ih =>
  rintro j (_ | fuel) vmm hj hcount h h'
  · cases h'
  rw [map_pages] at h
  obtain ⟨page, hpage, h⟩ := bind_eq_ok h
  obtain rfl : pageAt va j = page := by
    unfold add at hpage
    split at hpage <;> cases hpage
    rfl
  rw [mmap_loop, if_pos ((offset_lt_iff hj).mpr (by omega))] at h'
  rw [show va + .ofNat (4096 * j) = pageAt va j from rfl] at h'
  cases hmap : vmm_map vmm (pageAt va j) (pageAt va j) flags with
  | error e =>
    rw [hmap] at h h'
    cases h
    simp only [Except.toOption] at h'
    rw [offset_toNat hj, unmap_back_wrapping va j _ _ (by omega) hj] at h'
    cases h'
    rfl
  | ok vmm' =>
  rw [hmap] at h h'
  obtain ⟨off, hoff, h⟩ := bind_eq_ok h
  simp only [Except.toOption, offset_succ] at h'
  exact ih (lt_of_add_offset hj hoff) (by omega) h h'

theorem op_mmap_wrapping {o : Outcome} (h : s.op_mmap a0 a1 a2 = .ok o) :
    sys_mmap s.vmm a0 a1 a2 = some (o.rc, o.state.vmm) := by
  obtain ⟨rc, vmm, hw, -⟩ := sys_mmap_allOrNothing s.vmm a0 a1 a2
  unfold op_mmap at h
  by_cases hzero : a0 = 0 ∨ a1 = 0
  · rw [if_pos hzero] at h
    cases h
    exact if_pos hzero
  rw [if_neg hzero] at h
  obtain ⟨r, hr, h⟩ := bind_eq_ok h
  cases h
  rw [hw]
  simp only [sys_mmap, if_neg hzero] at hw
  exact congrArg some (map_pages_wrapping (pageCount a1) (j := 0) (by decide) (Nat.zero_add _) hr hw)
end wrapping
end QosKernel.RustSys
