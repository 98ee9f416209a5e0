import QosKernel.Framework.RefCount
import QosKernel.Mm.PmmSafety

/-! # The free counter of the C memory manager

The counter is kept apart from the flags: initialisation adds to it page by
page and takes from it frame by frame, and every call changes it by one.
After any accepted boot record and any sequence of calls it is the number
of frames that are not marked, and so the number of allocations that
succeed.
-/
open Framework
namespace QosKernel
open FramePool
namespace Pmm
/-- The counter is the number of frames not marked, and the table has its
size. -/
structure Counted (s : Pmm) : Prop where
  count : s.free_count.toNat = (freeAddrs s.frames).length
  bound : s.frames.length ≤ QOS_PMM_MAX_PAGES

variable {s : Pmm}
theorem Counted.free_le (h : s.Counted) : s.free_count.toNat ≤ s.frames.length := by
  rw [h.count]
  exact freeAddrs_length_le _

theorem Counted.lt_word (h : s.Counted) : s.frames.length < 2 ^ 32 :=
  lt_of_le_of_lt h.bound (by decide)

/-! ### Initialisation -/
theorem Counted.push (h : s.Counted) (page : UInt64) (hroom : s.frames.length < QOS_PMM_MAX_PAGES) :
    (Pmm.mk (s.frames ++ [⟨page, false⟩]) (s.free_count + 1)).Counted := by
  have hle := h.free_le
  have hlt := h.lt_word
  have hmax : QOS_PMM_MAX_PAGES = 4096 := rfl
  constructor
  · have hsum : (s.free_count + 1).toNat = s.free_count.toNat + 1 := toNat_succ (by omega)
    simp [hsum, h.count, freeAddrs]
  simp only [List.length_append, List.length_singleton]
  exact hroom

theorem Counted.add_pages (stop : UInt64) (room : Nat) :
    ∀ (start : UInt64) {s : Pmm}, s.Counted → s.frames.length + room ≤ QOS_PMM_MAX_PAGES →
      (add_pages stop room start s).Counted := by
  induction room with
  | zero =>
    intro start s h _
    exact h
  | succ room ih =>
  intro start s h hroom
  unfold Pmm.add_pages
  split
  · refine ih _ (h.push start (by omega)) ?_
    simp only [List.length_append, List.length_singleton]
    omega
  exact h

theorem Counted.add_range (h : s.Counted) (base stop : UInt64) :
    (s.add_range base stop).Counted := by
  have hbound := h.bound
  exact h.add_pages stop _ _ (by omega)

theorem Counted.add_entries (add : Pmm → UInt64 → UInt64 → Pmm)
    (hadd : ∀ (s : Pmm) base length, s.Counted → (add s base length).Counted)
    (es : List MmapEntry) : ∀ {s : Pmm}, s.Counted → (s.add_entries add es).Counted := by
  induction es with
  | nil =>
    intro s h
    exact h
  | cons e es ih =>
  intro s h
  change Counted (Pmm.add_entries add es (if usable e then add s e.base e.length else s))
  split
  · exact ih (hadd s e.base e.length h)
  exact ih h

section
variable (base stop : UInt64) (fs : List (Frame UInt64))
/-- The loop takes one from the counter for every frame it marks; `k` is what
the frames before these contribute. -/
theorem mark_frames_count :
    ∀ (n : UInt32) (k : Nat), n.toNat = (freeAddrs fs).length + k →
      (mark_frames base stop fs n).free_count.toNat =
        (freeAddrs (mark_frames base stop fs n).frames).length + k := by
  induction fs with
  | nil =>
    intro n k h
    exact h
  | cons f fs ih =>
  intro n k h
  obtain ⟨a, used⟩ := f
  unfold mark_frames
  cases used with
  | true =>
    rw [if_neg (by simp)]
    simpa using ih n k (by simpa using h)
  | false =>
  have hn : n.toNat = (freeAddrs fs).length + (k + 1) := by
    simp at h
    omega
  split
  · have hsub : (n - 1).toNat = (freeAddrs fs).length + k := by
      rw [toNat_pred (by omega), hn]
      rfl
    simpa using ih (n - 1) k hsub
  have hrest := ih n (k + 1) hn
  simp
  omega

theorem mark_frames_length (n : UInt32) :
    (mark_frames base stop fs n).frames.length = fs.length := by
  rw [mark_frames_frames, reserve, List.length_map]
end
theorem Counted.reserve_range (h : s.Counted) (base length stop : UInt64) :
    (s.reserve_range base length stop).Counted := by
  unfold Pmm.reserve_range
  split
  · exact h
  constructor
  · exact mark_frames_count base stop s.frames s.free_count 0 h.count
  rw [mark_frames_length]
  exact h.bound
end Pmm
namespace CPmm
variable {u : Users}
theorem counted_init (img : KernelImage) (boot_info : UInt64) (info : BootInfo) :
    (qos_pmm_init img boot_info info).2.Counted := by
  have hreset : Pmm.reset.Counted := ⟨rfl, Nat.zero_le _⟩
  have hadd : (Pmm.reset.add_entries pmm_add_range info.entries).Counted :=
    Pmm.Counted.add_entries pmm_add_range (fun s base length h => h.add_range base _) _ hreset
  have hreserve {s : Pmm} (base length : UInt64) (h : s.Counted) :
      (pmm_reserve_range s base length).Counted := h.reserve_range base length _
  unfold qos_pmm_init
  split
  · exact hreset
  split
  · exact hreset
  dsimp only
  split
  · exact hadd
  have himage : (pmm_reserve_kernel_image img (pmm_reserve_range
      (Pmm.reset.add_entries pmm_add_range info.entries) 0 0x100000)).Counted := by
    unfold pmm_reserve_kernel_image Pmm.reserve_image
    split
    · exact hreserve _ _ (hreserve _ _ hadd)
    exact hreserve _ _ hadd
  have hrecord := hreserve boot_info sizeof_boot_info himage
  split
  · exact hreserve _ _ hrecord
  exact hrecord

/-! ### Calls -/
variable {s : Pmm}
theorem alloc_page_counted (h : s.Counted) : (qos_pmm_alloc_page s).2.Counted ∧
    (qos_pmm_alloc_page s).2.free_count.toNat = s.free_count.toNat - 1 := by
  unfold qos_pmm_alloc_page
  cases hal : alloc s.frames with
  | none =>
    have hzero : s.free_count.toNat = 0 := by
      rw [h.count, alloc_eq_none.mp hal]
      rfl
    exact ⟨h, by simp [hzero]⟩
  | some r =>
  obtain ⟨page, frames⟩ := r
  have hcount := h.count
  rw [alloc_freeAddrs hal, List.length_cons] at hcount
  have hsub : (s.free_count - 1).toNat = s.free_count.toNat - 1 := toNat_pred (by omega)
  refine ⟨⟨?_, ?_⟩, hsub⟩
  · change (s.free_count - 1).toNat = (freeAddrs frames).length
    omega
  obtain ⟨pre, post, hfs, rfl, -⟩ := alloc_split hal
  have hbound := h.bound
  rw [hfs] at hbound
  simpa using hbound

theorem free_page_counted (h : s.Counted) (page : UInt64) :
    (qos_pmm_free_page s page).2.Counted := by
  unfold qos_pmm_free_page
  split
  · exact h
  cases hfr : free page s.frames with
  | none => exact h
  | some frames =>
  have hlen : frames.length = s.frames.length := by
    obtain ⟨pre, post, hfs, rfl, -⟩ := free_split hfr
    rw [hfs]
    simp
  have hcount := free_freeAddrs_length hfr
  have hle := freeAddrs_length_le frames
  have hlt := h.lt_word
  constructor
  · have hsum : (s.free_count + 1).toNat = s.free_count.toNat + 1 := by
      apply toNat_succ
      rw [h.count]
      omega
    change (s.free_count + 1).toNat = (freeAddrs frames).length
    rw [hsum, h.count, hcount]
  change frames.length ≤ _
  rw [hlen]
  exact h.bound

/-- The counter agrees with the flags, and the addresses are pages. -/
structure Users.Sound (u : Users) : Prop where
  counted : u.pmm.Counted
  aligned : Pmm.Aligned u.pmm.frames

theorem Users.Sound.step (h : u.Sound) (op : Op UInt64) : (u.step op).Sound := by
  refine ⟨?_, (Users.step_holding h.aligned op).1⟩
  cases op with
  | alloc =>
    have hnext := (alloc_page_counted h.counted).1
    unfold Users.step
    dsimp only
    split
    all_goals exact hnext
  | free page =>
  have hnext := free_page_counted h.counted page
  unfold Users.step
  dsimp only
  split
  all_goals exact hnext

theorem users_sound {img : KernelImage} {boot_info : UInt64} {info : BootInfo}
    (hinit : (qos_pmm_init img boot_info info).1 = 0) {tr : List (Op UInt64)}
    (hr : (users (qos_pmm_init img boot_info info).2).Reach anyStep tr u) : u.Sound := by
  refine hr.invariant Users.Sound ⟨counted_init img boot_info info, ?_⟩ ?_
  · exact (init_holds hinit).aligned
  intro u op u' hu _ hstep
  cases hstep
  exact hu.step op

/-! ### Allocations in a row -/
def allocs : Nat → Pmm → Pmm
  | 0, s => s
  | n + 1, s => allocs n (qos_pmm_alloc_page s).2

theorem alloc_page_none_iff (hc : s.Counted) (ha : Pmm.Aligned s.frames) :
    (qos_pmm_alloc_page s).1 = QOS_PMM_PAGE_NONE ↔ s.free_count = 0 := by
  have hzero : s.free_count = 0 ↔ alloc s.frames = none := by
    rw [alloc_eq_none, ← List.length_eq_zero_iff, ← hc.count, ← UInt32.toNat_inj]
    rfl
  rw [hzero]
  constructor
  · intro hpage
    cases hal : alloc s.frames with
    | none => rfl
    | some r =>
    obtain ⟨hsame, hne⟩ := (alloc_page_iff ha).mpr ⟨r.2, hal⟩
    exact absurd (hsame.symm.trans hpage) hne
  intro hal
  rw [qos_pmm_alloc_page, hal]

theorem allocs_succeed (n : Nat) : ∀ {s : Pmm}, s.Counted → Pmm.Aligned s.frames →
    ((qos_pmm_alloc_page (allocs n s)).1 ≠ QOS_PMM_PAGE_NONE ↔ n < s.free_count.toNat) := by
  induction n with
  | zero =>
    intro s hc ha
    rw [allocs, ne_eq, alloc_page_none_iff hc ha, ← UInt32.toNat_inj]
    exact Nat.pos_iff_ne_zero.symm
  | succ n ih =>
  intro s hc ha
  obtain ⟨hnext, hcount⟩ := alloc_page_counted hc
  have haligned : Pmm.Aligned (qos_pmm_alloc_page s).2.frames := by
    unfold qos_pmm_alloc_page
    cases hal : alloc s.frames with
    | none => exact ha
    | some r => exact (ha.alloc hal).2
  rw [allocs, ih hnext haligned, hcount]
  omega
end CPmm
/-- After every accepted boot record and every sequence of calls, the counter is
the number of frames not marked and at most the number of frames, an
allocation fails exactly if it is zero, and of any number of allocations in
a row exactly that many succeed. -/
theorem pmm_free_count_exact (img : KernelImage) (boot_info : UInt64) (info : BootInfo)
    (hinit : (CPmm.qos_pmm_init img boot_info info).1 = 0) (tr : List (Op UInt64)) (u : CPmm.Users)
    (hr : (CPmm.users (CPmm.qos_pmm_init img boot_info info).2).Reach anyStep tr u) :
    (CPmm.qos_pmm_free_pages u.pmm).toNat = u.pmm.frames.countP (fun f => !f.used) ∧
    CPmm.qos_pmm_free_pages u.pmm ≤ CPmm.qos_pmm_total_pages u.pmm ∧
    (CPmm.qos_pmm_total_pages u.pmm).toNat = u.pmm.frames.length ∧
    ((CPmm.qos_pmm_alloc_page u.pmm).1 = CPmm.QOS_PMM_PAGE_NONE ↔
      CPmm.qos_pmm_free_pages u.pmm = 0) ∧
    ∀ n, (CPmm.qos_pmm_alloc_page (CPmm.allocs n u.pmm)).1 ≠ CPmm.QOS_PMM_PAGE_NONE ↔
      n < (CPmm.qos_pmm_free_pages u.pmm).toNat := by
  obtain ⟨hcounted, haligned⟩ := CPmm.users_sound hinit hr
  have htotal : (CPmm.qos_pmm_total_pages u.pmm).toNat = u.pmm.frames.length :=
    UInt32.toNat_ofNat_of_lt' hcounted.lt_word
  refine ⟨?_, ?_, htotal, CPmm.alloc_page_none_iff hcounted haligned, ?_⟩
  · rw [CPmm.qos_pmm_free_pages, hcounted.count, freeAddrs, List.length_map,
      List.countP_eq_length_filter]
  · rw [UInt32.le_iff_toNat_le, htotal]
    exact hcounted.free_le
  intro n
  exact CPmm.allocs_succeed n hcounted haligned

/-- One usable page: the first allocation succeeds and the second fails. -/
theorem pmm_free_count_exact_one_page :
    (CPmm.qos_pmm_alloc_page (CPmm.qos_pmm_init noImage 0x8000 (bootInfoOf [pageEntry])).2).1 ≠
        CPmm.QOS_PMM_PAGE_NONE ∧
      (CPmm.qos_pmm_alloc_page
        (CPmm.allocs 1 (CPmm.qos_pmm_init noImage 0x8000 (bootInfoOf [pageEntry])).2)).1 =
        CPmm.QOS_PMM_PAGE_NONE := by
  have h := (pmm_free_count_exact noImage 0x8000 (bootInfoOf [pageEntry]) (by decide)
    [] _ .init).2.2.2.2
  exact ⟨(h 0).mpr (by decide), not_not.mp (mt (h 1).mp (by decide))⟩
end QosKernel
