import QosKernel.Mm.CPmm
import QosKernel.Mm.RustPmm

/-! # Safety of the physical memory managers

What whole sequences of page allocations and frees guarantee after
initialisation from an arbitrary accepted boot record.

* No page is handed out twice exactly when the pages that initialisation
  leaves free are distinct: overlapping usable entries put a page into the
  table more than once.
* The C kernel hands out only usable memory outside its reservations when
  no free page straddles the start of a reserved range, no range wraps and
  nobody frees a reserved page.
-/
open Framework
namespace QosKernel
open FramePool
/-! ### No page is handed out twice -/
namespace CPmm
/-- The boot records with which the kernel starts. -/
def Accepts (img : KernelImage) (boot_info : UInt64) (info : BootInfo) : Prop :=
  qos_boot_info_validate boot_info info = 0 ∧ (qos_pmm_init img boot_info info).1 = 0

instance (img : KernelImage) (boot_info : UInt64) (info : BootInfo) :
    Decidable (Accepts img boot_info info) :=
  inferInstanceAs (Decidable (_ ∧ _))

/-- No call sequence allocates a page that is still held. -/
def NoDoubleAllocation (s : Pmm) : Prop :=
  ∀ tr u, (users s).Reach anyStep tr u →
    ∀ page, (qos_pmm_alloc_page u.pmm).1 = page → page ≠ QOS_PMM_PAGE_NONE → page ∉ u.held

/-- The pages of the usable entries, as far as the table has room, that start
in no reserved range. -/
def freshPages (img : KernelImage) (boot_info : UInt64) (info : BootInfo) : List UInt64 :=
  (tablePages info).filter fun p => !reserved img boot_info info p

theorem noDoubleAllocation_pool {s : Pmm} (hs : Pmm.Aligned s.frames) :
    NoDoubleAllocation s ↔ NoDoubleAlloc s.frames := by
  have hm := users_matches hs (fun _ => True)
  constructor
  · intro h tr t hr a fs' hal
    obtain ⟨u, hu, rfl, hru⟩ := hm.backward hr
    obtain ⟨hpage, hne⟩ := (alloc_page_iff hu).mpr ⟨fs', hal⟩
    exact h tr u hru a hpage hne
  intro h tr u hr page hpage hne
  obtain ⟨hu, hr⟩ := hm.forward hr
  obtain ⟨fs', hal⟩ := (alloc_page_iff hu).mp ⟨hpage, hne⟩
  exact h tr u.holding hr page fs' hal

theorem noDoubleAllocation_iff {img : KernelImage} {boot_info : UInt64} {info : BootInfo}
    (h : Accepts img boot_info info) :
    NoDoubleAllocation (qos_pmm_init img boot_info info).2 ↔
      (freshPages img boot_info info).Nodup := by
  have hinit := init_holds h.2
  rw [noDoubleAllocation_pool hinit.aligned, noDoubleAlloc_iff hinit.flag,
    hinit.freeAddrs, freshPages]
end CPmm
namespace RustPmm
/-- The boot records with which the kernel starts, from any earlier state. -/
def Accepts (img : Option KernelImage) (old : Pmm) (info : BootInfo) : Prop :=
  (pmm_init_from_boot_info img old info).1 = .ok ()

def NoDoubleAllocation (s : Pmm) : Prop :=
  ∀ tr u, (users s).Reach anyStep tr u →
    ∀ page, (pmm_alloc_page u.pmm).1 = some page → page ∉ u.held

def freshPages (img : Option KernelImage) (info : BootInfo) : List UInt64 :=
  (tablePages info).filter fun p => !reserved img info p

theorem noDoubleAllocation_pool {s : Pmm} (hs : Pmm.Aligned s.frames) :
    NoDoubleAllocation s ↔ NoDoubleAlloc s.frames := by
  have hm := users_matches hs
  constructor
  · intro h tr t hr a fs' hal
    obtain ⟨u, -, rfl, hru⟩ := hm.backward hr
    exact h tr u hru a (alloc_page_iff.mpr ⟨fs', hal⟩)
  intro h tr u hr page hpage
  obtain ⟨fs', hal⟩ := alloc_page_iff.mp hpage
  exact h tr u.holding (hm.forward hr).2 page fs' hal

theorem noDoubleAllocation_iff {img : Option KernelImage} {old : Pmm} {info : BootInfo}
    (h : Accepts img old info) :
    NoDoubleAllocation (pmm_init_from_boot_info img old info).2 ↔ (freshPages img info).Nodup := by
  have hinit := init_holds h
  rw [noDoubleAllocation_pool hinit.aligned, noDoubleAlloc_iff hinit.flag,
    hinit.freeAddrs, freshPages]
end RustPmm
/-- In both kernels, and for every boot record the kernel accepts, no sequence
of allocations and frees hands out a page that is still held exactly when
the unreserved pages of the usable entries, up to the size of the table,
are distinct. -/
theorem pmm_no_double_allocation (info : BootInfo) (img : KernelImage) (boot_info : UInt64)
    (img' : Option KernelImage) (old : Pmm) :
    (CPmm.Accepts img boot_info info →
      (CPmm.NoDoubleAllocation (CPmm.qos_pmm_init img boot_info info).2 ↔
        (CPmm.freshPages img boot_info info).Nodup)) ∧
    (RustPmm.Accepts img' old info →
      (RustPmm.NoDoubleAllocation (RustPmm.pmm_init_from_boot_info img' old info).2 ↔
        (RustPmm.freshPages img' info).Nodup)) :=
  ⟨fun h => CPmm.noDoubleAllocation_iff h, fun h => RustPmm.noDoubleAllocation_iff h⟩

/-- A boot record with the given memory map entries and no initramfs. -/
def bootInfoOf (es : List MmapEntry) : BootInfo where
  magic := QOS_BOOT_MAGIC
  mmap_entry_count := UInt32.ofNat es.length
  mmap_entries i := es.getD i.val ⟨0, 0, 0⟩
  initramfs_addr := 0
  initramfs_size := 0

/-- One usable page at 2 MiB. -/
def pageEntry : MmapEntry := ⟨0x200000, 0x1000, 1⟩

/-- No symbols for the kernel image. -/
def noImage : KernelImage := ⟨0, 0⟩

theorem pmm_no_double_allocation_one_page :
    CPmm.NoDoubleAllocation (CPmm.qos_pmm_init noImage 0x8000 (bootInfoOf [pageEntry])).2 ∧
    RustPmm.NoDoubleAllocation
      (RustPmm.pmm_init_from_boot_info none Pmm.reset (bootInfoOf [pageEntry])).2 :=
  ⟨((pmm_no_double_allocation (bootInfoOf [pageEntry]) noImage 0x8000 none Pmm.reset).1
      (by decide)).mpr (by decide),
    ((pmm_no_double_allocation (bootInfoOf [pageEntry]) noImage 0x8000 none Pmm.reset).2
      rfl).mpr (by decide)⟩

/-- Two usable entries for the same page: both kernels accept the map and hand
out the page twice in a row. -/
theorem pmm_overlapping_entries_allocated_twice :
    (CPmm.Accepts noImage 0x8000 (bootInfoOf [pageEntry, pageEntry]) ∧ ¬CPmm.NoDoubleAllocation
        (CPmm.qos_pmm_init noImage 0x8000 (bootInfoOf [pageEntry, pageEntry])).2) ∧
    (RustPmm.Accepts none Pmm.reset (bootInfoOf [pageEntry, pageEntry]) ∧
      ¬RustPmm.NoDoubleAllocation (RustPmm.pmm_init_from_boot_info none Pmm.reset
          (bootInfoOf [pageEntry, pageEntry])).2) := by
  refine ⟨⟨by decide, fun h => ?_⟩, ⟨rfl, fun h => ?_⟩⟩
  · have := h [.alloc] ⟨⟨[⟨0x200000, true⟩, ⟨0x200000, false⟩], 1⟩, [0x200000]⟩
      (System.reach_of_exec rfl) 0x200000 (by decide) (by decide)
    exact this (by decide)
  have := h [.alloc] ⟨⟨[⟨0x200000, true⟩, ⟨0x200000, false⟩], 1⟩, [0x200000]⟩
    (System.reach_of_exec rfl) 0x200000 (by decide)
  exact this (by decide)

/-! ### Reservations of the C kernel -/
namespace CPmm
/-- The page at `p` and the bytes from `lo` below `hi` have a byte in common. -/
def SharesByte (p lo hi : Nat) : Prop :=
  ∃ b, (p ≤ b ∧ b < p + 4096) ∧ lo ≤ b ∧ b < hi

/-- The page at `p` lies entirely inside the usable entry `e`. -/
def InsideEntry (e : MmapEntry) (p : UInt64) : Prop :=
  e.type_ = 1 ∧ e.base.toNat ≤ p.toNat ∧ p.toNat + 4096 ≤ e.base.toNat + e.length.toNat

/-- A page that may be handed out: inside one usable entry, and apart from the
low 1 MiB, the kernel image, the boot record and the initramfs. -/
structure Grantable (img : KernelImage) (boot_info : UInt64) (info : BootInfo)
    (p : UInt64) : Prop where
  inside : ∃ e ∈ info.entries, InsideEntry e p
  low : ¬SharesByte p.toNat 0 0x100000
  image : ¬SharesByte p.toNat img.kernel_phys_start.toNat img.kernel_phys_end.toNat
  boot : ¬SharesByte p.toNat boot_info.toNat (boot_info.toNat + sizeof_boot_info.toNat)
  initramfs : ¬SharesByte p.toNat info.initramfs_addr.toNat
    (info.initramfs_addr.toNat + info.initramfs_size.toNat)

/-- A non-empty range that starts inside the page at `p`, after its first
byte. -/
def Straddles (p base length : UInt64) : Prop :=
  length ≠ 0 ∧ p.toNat < base.toNat ∧ base.toNat < p.toNat + 4096

/-- The end of the range, computed in 64 bits, wraps. -/
def Wraps (base length : UInt64) : Prop :=
  2 ^ 64 ≤ base.toNat + length.toNat

/-- A page that is not marked by the reservation of a range shares a byte with
the range only if it straddles the start, or if the end wraps. -/
theorem sharesByte_iff {p base length : UInt64} (h : inReserve base length p = false) :
    SharesByte p.toNat base.toNat (base.toNat + length.toNat) ↔
      Straddles p base length ∨ (Wraps base length ∧ base ≤ p) := by
  have hp : p.toNat < 2 ^ 64 := p.toNat_lt
  have hmod : (base + length).toNat = (base.toNat + length.toNat) % 2 ^ 64 :=
    UInt64.toNat_add base length
  have hlen : length ≠ 0 ↔ length.toNat ≠ 0 := by rw [ne_eq, ne_eq, ← UInt64.toNat_inj]; rfl
  have hcov : length.toNat = 0 ∨ p.toNat < base.toNat ∨
      (base.toNat + length.toNat) % 2 ^ 64 ≤ p.toNat := by
    by_contra hcon
    push Not at hcon
    have : inReserve base length p = true := by
      simp only [inReserve, Pmm.inReserve, Pmm.inRange, Bool.and_eq_true, bne_iff_ne,
        decide_eq_true_eq, UInt64.le_iff_toNat_le, UInt64.lt_iff_toNat_lt, hmod]
      exact ⟨hlen.mpr hcon.1, hcon.2.1, hcon.2.2⟩
    rw [h] at this
    simp at this
  simp only [Straddles, Wraps, hlen, UInt64.le_iff_toNat_le]
  constructor
  · rintro ⟨b, hb, hb'⟩
    omega
  rintro (⟨h0, h1, h2⟩ | ⟨hw, hle⟩)
  · exact ⟨base.toNat, by omega, by omega⟩
  exact ⟨p.toNat, by omega, by omega⟩

/-- The pages that one usable entry contributes. -/
def entryPages (e : MmapEntry) : List UInt64 :=
  pagesFrom (align_up e.base) (align_down (e.base + e.length))

/-- What makes the reservation of every range effective for the page `p`. -/
structure Contained (img : KernelImage) (boot_info : UInt64) (info : BootInfo)
    (p : UInt64) : Prop where
  /-- If `p` comes from an entry whose base, rounded up, wraps to 0, then it
  also lies inside some usable entry. -/
  rounding : ∀ e ∈ info.entries, Pmm.usable e = true → 2 ^ 64 ≤ e.base.toNat + 4095 →
    p ∈ entryPages e → ∃ e' ∈ info.entries, InsideEntry e' p
  /-- The kernel image does not start inside `p`. -/
  image_start : img.kernel_phys_start < img.kernel_phys_end →
    ¬Straddles p img.kernel_phys_start (img.kernel_phys_end - img.kernel_phys_start)
  /-- An image that starts at address 0, which is not reserved, ends below `p`. -/
  image_null : img.kernel_phys_start = 0 → img.kernel_phys_end ≤ p
  /-- The boot record does not start inside `p`, and does not wrap below `p`. -/
  boot : ¬Straddles p boot_info sizeof_boot_info ∧
    ¬(Wraps boot_info sizeof_boot_info ∧ boot_info ≤ p)
  /-- The initramfs does not start inside `p`, and does not wrap below `p`. -/
  initramfs : ¬Straddles p info.initramfs_addr info.initramfs_size ∧
    ¬(Wraps info.initramfs_addr info.initramfs_size ∧ info.initramfs_addr ≤ p)

section fresh
variable {img : KernelImage} {boot_info : UInt64} {info : BootInfo} {p : UInt64}
theorem fresh_not_reserved (hp : p ∈ freshPages img boot_info info) :
    inReserve 0 0x100000 p = false ∧ Pmm.inImage inReserve img p = false ∧
      inReserve boot_info sizeof_boot_info p = false ∧
      inReserve info.initramfs_addr info.initramfs_size p = false := by
  have hr := (List.mem_filter.mp hp).2
  simpa [reserved, and_assoc] using hr

theorem fresh_contributed (hp : p ∈ freshPages img boot_info info) :
    ∃ e ∈ info.entries, Pmm.usable e = true ∧ p ∈ entryPages e := by
  have ht := List.mem_of_mem_take (List.mem_filter.mp hp).1
  obtain ⟨e, he, hpe⟩ := List.mem_flatMap.mp ht
  exact ⟨e, (List.mem_filter.mp he).1, (List.mem_filter.mp he).2, hpe⟩

/-- An entry whose base rounds up without wrapping contains its pages. -/
theorem insideEntry_of_mem {e : MmapEntry} (hu : Pmm.usable e = true)
    (hbase : e.base.toNat + 4095 < 2 ^ 64) (hp : p ∈ entryPages e) : InsideEntry e p := by
  have htype : e.type_ = 1 := by
    simp only [Pmm.usable, Bool.and_eq_true, beq_iff_eq] at hu
    exact hu.1
  obtain ⟨hal, hlo, hhi⟩ :=
    (mem_pagesFrom (is_page_aligned_align_up _) (is_page_aligned_align_down _)).mp hp
  rw [is_page_aligned_iff] at hal
  rw [align_up_toNat] at hlo
  rw [align_down_toNat, UInt64.toNat_add] at hhi
  refine ⟨htype, ?_, ?_⟩ <;> omega

section
variable (hp : p ∈ freshPages img boot_info info)
include hp
theorem inside_iff :
    (∃ e ∈ info.entries, InsideEntry e p) ↔
      ∀ e ∈ info.entries, Pmm.usable e = true → 2 ^ 64 ≤ e.base.toNat + 4095 →
        p ∈ entryPages e → ∃ e' ∈ info.entries, InsideEntry e' p := by
  refine ⟨fun h _ _ _ _ _ => h, fun h => ?_⟩
  obtain ⟨e, he, hu, hpe⟩ := fresh_contributed hp
  by_cases hbase : e.base.toNat + 4095 < 2 ^ 64
  · exact ⟨e, he, insideEntry_of_mem hu hbase hpe⟩
  exact h e he hu (by omega) hpe

/-- Only a kernel image at address 0 or one that starts inside the page is not
kept apart from a fresh page. -/
theorem image_iff :
    ¬SharesByte p.toNat img.kernel_phys_start.toNat img.kernel_phys_end.toNat ↔
      (img.kernel_phys_start < img.kernel_phys_end →
        ¬Straddles p img.kernel_phys_start (img.kernel_phys_end - img.kernel_phys_start)) ∧
      (img.kernel_phys_start = 0 → img.kernel_phys_end ≤ p) := by
  have hres := (fresh_not_reserved hp).2.1
  obtain ⟨lo, hi⟩ := img
  simp only [Pmm.inImage] at hres ⊢
  by_cases hlt : lo < hi
  · have hlt' := UInt64.lt_iff_toNat_lt.mp hlt
    have hsub : (hi - lo).toNat = hi.toNat - lo.toNat :=
      UInt64.toNat_sub_of_le _ _ (UInt64.le_iff_toNat_le.mpr (by omega))
    have hend : lo.toNat + (hi - lo).toNat = hi.toNat := by omega
    by_cases h0 : lo = 0
    · subst h0
      have hnot : ¬Straddles p 0 (hi - 0) := fun h => absurd h.2.1 (by simp)
      simp only [hnot, not_false_eq_true, implies_true, true_and, true_imp_iff,
        UInt64.le_iff_toNat_le]
      constructor
      · intro h
        by_contra hlt
        exact h ⟨p.toNat, by omega, by simp, by omega⟩
      rintro h ⟨b, hb, -, hb'⟩
      omega
    have hcov : inReserve lo (hi - lo) p = false := by
      rw [bne_iff_ne.mpr h0, decide_eq_true hlt] at hres
      simpa using hres
    have hiff := sharesByte_iff hcov
    have hwrap : ¬Wraps lo (hi - lo) := by
      have := hi.toNat_lt
      rw [Wraps, hend]; omega
    rw [hend] at hiff
    simp [hiff, hwrap, h0, hlt]
  -- an image that ends before it starts is empty
  have hempty : ¬SharesByte p.toNat lo.toNat hi.toNat := by
    rintro ⟨b, -, hb⟩
    rw [UInt64.lt_iff_toNat_lt] at hlt
    omega
  have hnull : lo = 0 → hi ≤ p := by
    rintro rfl
    rw [UInt64.lt_iff_toNat_lt] at hlt
    rw [UInt64.le_iff_toNat_le]
    simp at hlt
    omega
  exact iff_of_true hempty ⟨fun h => absurd h hlt, hnull⟩

theorem grantable_iff : Grantable img boot_info info p ↔ Contained img boot_info info p := by
  obtain ⟨hlow, -, hboot, hramfs⟩ := fresh_not_reserved hp
  have hlow' : ¬SharesByte p.toNat 0 0x100000 := by
    have hiff := sharesByte_iff hlow
    simp only [UInt64.toNat_zero, Nat.zero_add] at hiff
    rintro h
    rcases hiff.mp h with ⟨-, hlt, -⟩ | ⟨hw, -⟩
    · simp at hlt
    exact absurd hw (by simp [Wraps])
  constructor
  · rintro ⟨hin, -, himg, hb, hr⟩
    rw [sharesByte_iff hboot, not_or] at hb
    rw [sharesByte_iff hramfs, not_or] at hr
    exact ⟨(inside_iff hp).mp hin, ((image_iff hp).mp himg).1, ((image_iff hp).mp himg).2, hb, hr⟩
  rintro ⟨hround, hstart, hnull, hb, hr⟩
  refine ⟨(inside_iff hp).mpr hround, hlow', (image_iff hp).mpr ⟨hstart, hnull⟩, ?_, ?_⟩
  · rw [sharesByte_iff hboot, not_or]; exact hb
  rw [sharesByte_iff hramfs, not_or]; exact hr
end
end fresh
/-- A call that does not free a page reserved at initialisation. -/
def KeepsReserved (img : KernelImage) (boot_info : UInt64) (info : BootInfo) :
    Op UInt64 → Prop
  | .alloc => True
  | .free page => ¬reserved img boot_info info page = true
end CPmm
/-- For every boot record the C kernel accepts: the sequences of calls that
free no reserved page return only pages inside one usable entry and apart
from every reserved range, exactly when every page left free by
initialisation is contained. -/
theorem pmm_reservations_hold (img : KernelImage) (boot_info : UInt64) (info : BootInfo)
    (h : CPmm.Accepts img boot_info info) :
    (∀ tr u, (CPmm.users (CPmm.qos_pmm_init img boot_info info).2).Reach
        (fun _ op => CPmm.KeepsReserved img boot_info info op) tr u →
      ∀ page, (CPmm.qos_pmm_alloc_page u.pmm).1 = page → page ≠ CPmm.QOS_PMM_PAGE_NONE →
        CPmm.Grantable img boot_info info page) ↔
    ∀ p ∈ CPmm.freshPages img boot_info info, CPmm.Contained img boot_info info p := by
  have hinit := CPmm.init_holds h.2
  have hcond : FramePool.Keeps (fun p => CPmm.reserved img boot_info info p = true) =
      fun _ op => CPmm.KeepsReserved img boot_info info op := by
    funext _ op
    cases op <;> rfl
  have hm := CPmm.users_matches hinit.aligned (CPmm.KeepsReserved img boot_info info)
  have hpool := allocs_in_iff (R := fun p => CPmm.reserved img boot_info info p = true)
    (P := CPmm.Contained img boot_info info) hinit.used
  rw [hinit.freeAddrs, hcond] at hpool
  rw [CPmm.freshPages, ← hpool]
  -- what a run hands out is fresh, so being grantable and being contained agree on it
  have hfresh : ∀ {tr t a fs'},
      (pool (CPmm.qos_pmm_init img boot_info info).2.frames).Reach
        (fun _ op => CPmm.KeepsReserved img boot_info info op) tr t →
      alloc t.frames = some (a, fs') → a ∈ CPmm.freshPages img boot_info info := by
    intro tr t a fs' hr hal
    rw [← hcond] at hr
    rw [CPmm.freshPages, ← hinit.freeAddrs]
    apply (reach_free (R := fun p => CPmm.reserved img boot_info info p = true) hinit.used hr).2 a
    rw [alloc_freeAddrs hal]
    exact List.mem_cons_self
  constructor
  · intro hgrant tr t hr a fs' hal
    obtain ⟨u, hu, rfl, hru⟩ := hm.backward hr
    obtain ⟨hpage, hne⟩ := (CPmm.alloc_page_iff hu).mpr ⟨fs', hal⟩
    exact (CPmm.grantable_iff (hfresh hr hal)).mp (hgrant tr u hru a hpage hne)
  intro hcont tr u hru page hpage hne
  obtain ⟨hu, hr⟩ := hm.forward hru
  obtain ⟨fs', hal⟩ := (CPmm.alloc_page_iff hu).mp ⟨hpage, hne⟩
  exact (CPmm.grantable_iff (hfresh hr hal)).mpr (hcont tr u.holding hr page fs' hal)

/-- One usable page: the first allocation returns it, and it may be handed
out. -/
theorem pmm_reservations_hold_one_page :
    (CPmm.qos_pmm_alloc_page (CPmm.qos_pmm_init noImage 0x8000 (bootInfoOf [pageEntry])).2).1 =
        0x200000 ∧
      CPmm.Grantable noImage 0x8000 (bootInfoOf [pageEntry]) 0x200000 := by
  refine ⟨by decide,
    (pmm_reservations_hold noImage 0x8000 (bootInfoOf [pageEntry]) (by decide)).mpr ?_
      [] _ .init 0x200000 (by decide) (by decide)⟩
  have hfresh : CPmm.freshPages noImage 0x8000 (bootInfoOf [pageEntry]) = [0x200000] := by decide
  have hentries : (bootInfoOf [pageEntry]).entries = [pageEntry] := by decide
  intro p hp
  rw [hfresh, List.mem_singleton] at hp
  subst hp
  refine ⟨?_, fun h => absurd h (by decide), fun _ => by decide, ?_, ?_⟩
  · intro e he _ hbase
    rw [hentries, List.mem_singleton] at he
    subst he
    exact absurd hbase (by decide)
  · exact ⟨fun h => absurd h.2.1 (by decide), fun h => absurd h.1 (by unfold CPmm.Wraps; decide)⟩
  exact ⟨fun h => absurd rfl h.1, fun h => absurd h.1 (by unfold CPmm.Wraps; decide)⟩

/-- Two ways to lose a reservation. Freeing the reserved page just below
1 MiB makes the next allocation return it; and with the boot record at
2 MiB + 16 the page that holds it is returned at once. -/
theorem pmm_reserved_page_returned :
    (CPmm.Accepts noImage 0x8000 (bootInfoOf [⟨0xff000, 0x2000, 1⟩]) ∧ ¬∀ tr u, (CPmm.users
          (CPmm.qos_pmm_init noImage 0x8000 (bootInfoOf [⟨0xff000, 0x2000, 1⟩])).2).Reach
            anyStep tr u →
        ∀ page, (CPmm.qos_pmm_alloc_page u.pmm).1 = page → page ≠ CPmm.QOS_PMM_PAGE_NONE →
          CPmm.Grantable noImage 0x8000 (bootInfoOf [⟨0xff000, 0x2000, 1⟩]) page) ∧
    (CPmm.Accepts noImage 0x200010 (bootInfoOf [pageEntry]) ∧ ¬∀ tr u, (CPmm.users
          (CPmm.qos_pmm_init noImage 0x200010 (bootInfoOf [pageEntry])).2).Reach anyStep tr u →
        ∀ page, (CPmm.qos_pmm_alloc_page u.pmm).1 = page → page ≠ CPmm.QOS_PMM_PAGE_NONE →
          CPmm.Grantable noImage 0x200010 (bootInfoOf [pageEntry]) page) := by
  refine ⟨⟨by decide, fun h => ?_⟩, ⟨by decide, fun h => ?_⟩⟩
  · have := h [.free 0xff000] ⟨⟨[⟨0xff000, false⟩, ⟨0x100000, false⟩], 2⟩, []⟩
      (System.reach_of_exec rfl) 0xff000 (by decide) (by decide)
    exact this.low ⟨0xff000, by decide, by decide⟩
  have := h [] ⟨⟨[⟨0x200000, false⟩], 1⟩, []⟩
    (System.reach_of_exec rfl) 0x200000 (by decide) (by decide)
  exact this.boot ⟨0x200010, by decide, by decide⟩
end QosKernel
