import QosKernel.Mm.Pmm

/-! # The C physical memory manager

`c-os/kernel/mm/mm.c` and the boot check of `c-os/kernel/kernel.c`. The
address of the boot record and the two linker symbols of the kernel image
are parameters. `Users` adds the pages that callers hold, and `users` is
the system of all sequences of `qos_pmm_alloc_page` and
`qos_pmm_free_page` calls after initialisation.
-/
open Framework
namespace QosKernel.CPmm
open FramePool
variable {s : Pmm}
/-- `UINT64_MAX`, returned when no page is left. -/
def QOS_PMM_PAGE_NONE : UInt64 := 0xFFFFFFFFFFFFFFFF

/-- `sizeof(boot_info_t)`. -/
def sizeof_boot_info : UInt64 := 3144

/-! ### Functions -/
/-- `boot_info` is the address of the record; 0 is the null pointer. -/
def qos_boot_info_validate (boot_info : UInt64) (info : BootInfo) : Int :=
  if boot_info = 0 then -1 else if info.wellFormed then 0 else -1

section
variable (s : Pmm) (base length : UInt64)
def pmm_add_range : Pmm :=
  s.add_range base (align_down (base + length))

def pmm_reserve_range : Pmm :=
  s.reserve_range base length (base + length)
end
def pmm_reserve_kernel_image (img : KernelImage) (s : Pmm) : Pmm :=
  s.reserve_image pmm_reserve_range img

def qos_pmm_init (img : KernelImage) (boot_info : UInt64) (info : BootInfo) : Int × Pmm :=
  if boot_info = 0 ∨ info.magic ≠ QOS_BOOT_MAGIC then (-1, Pmm.reset)
  else if info.mmap_entry_count = 0 ∨ QOS_MMAP_MAX_ENTRIES < info.mmap_entry_count.toNat then
    (-1, Pmm.reset)
  else
    let s := Pmm.reset.add_entries pmm_add_range info.entries
    if s.frames.length = 0 then (-1, s)
    else
      let s := pmm_reserve_range s 0 0x100000
      let s := pmm_reserve_kernel_image img s
      let s := pmm_reserve_range s boot_info sizeof_boot_info
      let s :=
        if info.initramfs_size ≠ 0 then
          pmm_reserve_range s info.initramfs_addr info.initramfs_size
        else s
      (0, s)

section
variable (s : Pmm)
def qos_pmm_total_pages : UInt32 := .ofNat s.frames.length
def qos_pmm_free_pages : UInt32 := s.free_count

def qos_pmm_alloc_page : UInt64 × Pmm :=
  match alloc s.frames with
  | some (page, frames) => (page, ⟨frames, s.free_count - 1⟩)
  | none => (QOS_PMM_PAGE_NONE, s)

def qos_pmm_free_page (page : UInt64) : Int × Pmm :=
  if page &&& (QOS_PAGE_SIZE - 1) ≠ 0 then (-1, s)
  else
    match free page s.frames with
    | some frames => (0, ⟨frames, s.free_count + 1⟩)
    | none => (-1, s)
end
/-! ### Callers -/
/-- The memory manager and the pages its callers hold. -/
structure Users where
  pmm : Pmm
  held : List UInt64

/-- One call. A page is held from the allocation that returned it to the
first free of it that succeeds. -/
def Users.step (u : Users) : Op UInt64 → Users
  | .alloc =>
    let (page, pmm) := qos_pmm_alloc_page u.pmm
    if page = QOS_PMM_PAGE_NONE then ⟨pmm, u.held⟩ else ⟨pmm, page :: u.held⟩
  | .free page =>
    let (rc, pmm) := qos_pmm_free_page u.pmm page
    if rc = 0 then ⟨pmm, u.held.erase page⟩ else ⟨pmm, u.held⟩

def users (s : Pmm) : System Users (Op UInt64) where
  init := ⟨s, []⟩
  step u op := some (u.step op)

/-! ### The table after initialisation -/
/-- The page `p` starts in the range of `length` bytes at `base`, as the
reservation loop sees it: the end of the range wraps. -/
def inReserve (base length p : UInt64) : Bool :=
  Pmm.inReserve base length (base + length) p

/-- The page `p` starts in one of the ranges that initialisation reserves. -/
def reserved (img : KernelImage) (boot_info : UInt64) (info : BootInfo) (p : UInt64) : Bool :=
  inReserve 0 0x100000 p || Pmm.inImage inReserve img p || inReserve boot_info sizeof_boot_info p ||
    inReserve info.initramfs_addr info.initramfs_size p

/-- The pages initialisation puts into the table: the first
`QOS_PMM_MAX_PAGES` pages of the usable entries. -/
def tablePages (info : BootInfo) : List UInt64 :=
  (Pmm.contributed (· + ·) info.entries).take QOS_PMM_MAX_PAGES

/-- After a successful initialisation the table holds the first pages of the
usable entries, with the reserved ones marked. -/
theorem init_holds {img : KernelImage} {boot_info : UInt64} {info : BootInfo}
    (h : (qos_pmm_init img boot_info info).1 = 0) :
    (qos_pmm_init img boot_info info).2.Holds (tablePages info) (reserved img boot_info info) := by
  have hreset : Pmm.reset.Holds (([] : List UInt64).take QOS_PMM_MAX_PAGES) fun _ => false := rfl
  have hadd := hreset.add_entries pmm_add_range (· + ·) (fun _ _ _ => rfl) info.entries
  have hlow := hadd.reserve_range 0 0x100000 (0 + 0x100000)
  have himg := hlow.reserve_image pmm_reserve_range inReserve
    (fun base length => hlow.reserve_range base length _) img
  have hboot := himg.reserve_range boot_info sizeof_boot_info (boot_info + sizeof_boot_info)
  have hramfs := hboot.reserve_range info.initramfs_addr info.initramfs_size
    (info.initramfs_addr + info.initramfs_size)
  unfold qos_pmm_init at h ⊢
  split at h
  · simp at h
  split at h
  · simp at h
  rename_i hnull hcount
  rw [if_neg hnull, if_neg hcount]
  dsimp only at h ⊢
  by_cases hempty : (Pmm.reset.add_entries pmm_add_range info.entries).frames.length = 0
  · simp [hempty] at h
  rw [if_neg hempty]
  by_cases hsize : info.initramfs_size = 0
  · rw [if_neg (not_not.mpr hsize)]
    exact hboot.congr fun p => by simp [reserved, inReserve, Pmm.inReserve, hsize]
  rw [if_pos hsize]
  exact hramfs.congr fun p => rfl

/-! ### Callers and pools -/
/-- The pool behind the memory manager. -/
def Users.holding (u : Users) : Holding UInt64 := ⟨u.pmm.frames, u.held⟩
theorem page_none_not_aligned : is_page_aligned QOS_PMM_PAGE_NONE = false := by decide

/-- What `qos_pmm_alloc_page` returns from an aligned table is a page, if it
is not `QOS_PMM_PAGE_NONE`. -/
theorem alloc_page_iff (hs : Pmm.Aligned s.frames) {a : UInt64} :
    ((qos_pmm_alloc_page s).1 = a ∧ a ≠ QOS_PMM_PAGE_NONE) ↔
      ∃ fs', alloc s.frames = some (a, fs') := by
  cases hal : alloc s.frames with
  | none =>
    simp only [qos_pmm_alloc_page, hal]
    constructor
    · rintro ⟨rfl, hne⟩; exact absurd rfl hne
    rintro ⟨_, h⟩; simp at h
  | some r =>
  obtain ⟨b, fs'⟩ := r
  have hb : b ≠ QOS_PMM_PAGE_NONE := by
    rintro rfl
    have := (hs.alloc hal).1
    rw [page_none_not_aligned] at this
    simp at this
  simp only [qos_pmm_alloc_page, hal, Option.some.injEq, Prod.mk.injEq, exists_and_left,
    exists_eq', and_true]
  exact ⟨fun h => h.1, fun h => ⟨h, h ▸ hb⟩⟩

theorem Users.step_holding {u : Users} (hu : Pmm.Aligned u.pmm.frames) (op : Op UInt64) :
    Pmm.Aligned (u.step op).pmm.frames ∧ (u.step op).holding = u.holding.step op := by
  cases op with
  | alloc =>
    cases hal : alloc u.pmm.frames with
    | none => simp [Users.step, Users.holding, Holding.step, qos_pmm_alloc_page, hal, hu]
    | some r =>
    obtain ⟨b, fs'⟩ := r
    have hb := ((alloc_page_iff hu).mpr ⟨fs', hal⟩).2
    simp [Users.step, Users.holding, Holding.step, qos_pmm_alloc_page, hal, hb, (hu.alloc hal).2]
  | free page =>
  cases hfr : free page u.pmm.frames with
  | none => simp [Users.step, Users.holding, Holding.step, qos_pmm_free_page, hfr, hu]
  | some fs' =>
  have hpage : page &&& (QOS_PAGE_SIZE - 1) = 0 := by
    simpa only [is_page_aligned, beq_iff_eq] using (hu.free hfr).1
  simp [Users.step, Users.holding, Holding.step, qos_pmm_free_page, hfr, hpage, (hu.free hfr).2]

/-- The call sequences of the C kernel are the runs of the pool, for every
condition on the requests. -/
theorem users_matches (hs : Pmm.Aligned s.frames) (C : Op UInt64 → Prop) :
    System.Matches (users s) (fun _ op => C op) (pool s.frames) (fun _ op => C op)
      (fun u => Pmm.Aligned u.pmm.frames) Users.holding where
  init := ⟨hs, rfl⟩
  cond_iff _ _ := Iff.rfl
  keep u op u' hu _ hstep := by
    simp only [users, Option.some.injEq] at hstep
    exact hstep ▸ (Users.step_holding hu op).1
  step u op hu := by simp [users, pool, (Users.step_holding hu op).2]
end QosKernel.CPmm
