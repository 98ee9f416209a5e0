import QosKernel.Mm.Pmm

/-! # The Rust physical memory manager

The `pmm_` functions of `rust-os/kernel/src/lib.rs`. Ends of ranges
saturate. The kernel image is reserved on the bare-metal aarch64 target
only: there the image is `some img`, elsewhere `none`. The boot record
itself is not reserved.
-/
open Framework
namespace QosKernel.RustPmm
open FramePool
variable {s : Pmm}
/-- The error initialisation can return. -/
inductive KernelError where
  | InvalidBootInfo
  deriving DecidableEq, Repr

/-! ### Functions -/
def boot_info_valid (info : BootInfo) : Bool := info.wellFormed

section
variable (s : Pmm) (base length : UInt64)
def pmm_add_range : Pmm :=
  s.add_range base (align_down (UInt64.saturating_add base length))

def pmm_reserve_range : Pmm :=
  s.reserve_range base length (UInt64.saturating_add base length)
end
section
variable (img : Option KernelImage)
def pmm_reserve_kernel_image (s : Pmm) : Pmm :=
  match img with
  | none => s
  | some img => s.reserve_image pmm_reserve_range img

/-- `old` is the state before the call; a record that is not valid leaves it. -/
def pmm_init_from_boot_info (old : Pmm) (info : BootInfo) :
    Except KernelError Unit × Pmm :=
  if !boot_info_valid info then (.error .InvalidBootInfo, old)
  else
    let s := Pmm.reset.add_entries pmm_add_range info.entries
    if s.frames.length = 0 then (.error .InvalidBootInfo, s)
    else
      let s := pmm_reserve_range s 0 0x100000
      let s := pmm_reserve_kernel_image img s
      let s :=
        if info.initramfs_size ≠ 0 then
          pmm_reserve_range s info.initramfs_addr info.initramfs_size
        else s
      (.ok (), s)
end
def pmm_alloc_page (s : Pmm) : Option UInt64 × Pmm :=
  match alloc s.frames with
  | some (page, frames) => (some page, ⟨frames, s.free_count - 1⟩)
  | none => (none, s)

def pmm_free_page (s : Pmm) (page : UInt64) : Bool × Pmm :=
  if !is_page_aligned page then (false, s)
  else
    match free page s.frames with
    | some frames => (true, ⟨frames, s.free_count + 1⟩)
    | none => (false, s)

/-! ### Callers -/
structure Users where
  pmm : Pmm
  held : List UInt64

def Users.step (u : Users) : Op UInt64 → Users
  | .alloc =>
    match pmm_alloc_page u.pmm with
    | (some page, pmm) => ⟨pmm, page :: u.held⟩
    | (none, pmm) => ⟨pmm, u.held⟩
  | .free page =>
    match pmm_free_page u.pmm page with
    | (true, pmm) => ⟨pmm, u.held.erase page⟩
    | (false, pmm) => ⟨pmm, u.held⟩

/-- All call sequences from the state `s` of the memory manager. -/
def users (s : Pmm) : System Users (Op UInt64) where
  init := ⟨s, []⟩
  step u op := some (u.step op)

/-! ### The table after initialisation -/
/-- The page `p` starts in the range of `length` bytes at `base`, as the
reservation loop sees it. -/
def inReserve (base length p : UInt64) : Bool :=
  Pmm.inReserve base length (UInt64.saturating_add base length) p

def reserved (img : Option KernelImage) (info : BootInfo) (p : UInt64) : Bool :=
  inReserve 0 0x100000 p || img.any (Pmm.inImage inReserve · p) ||
    inReserve info.initramfs_addr info.initramfs_size p

def tablePages (info : BootInfo) : List UInt64 :=
  (Pmm.contributed UInt64.saturating_add info.entries).take QOS_PMM_MAX_PAGES

theorem reserve_kernel_image_holds {ps : List UInt64} {r : UInt64 → Bool} (h : s.Holds ps r)
    (img : Option KernelImage) :
    (pmm_reserve_kernel_image img s).Holds ps fun p =>
      r p || img.any (Pmm.inImage inReserve · p) := by
  cases img with
  | none => exact h.congr fun p => by simp
  | some img =>
  exact h.reserve_image pmm_reserve_range inReserve
    (fun base length => h.reserve_range base length _) img

theorem init_holds {img : Option KernelImage} {old : Pmm} {info : BootInfo}
    (h : (pmm_init_from_boot_info img old info).1 = .ok ()) :
    (pmm_init_from_boot_info img old info).2.Holds (tablePages info) (reserved img info) := by
  have hreset : Pmm.reset.Holds (([] : List UInt64).take QOS_PMM_MAX_PAGES) fun _ => false := rfl
  have hadd := hreset.add_entries pmm_add_range UInt64.saturating_add (fun _ _ _ => rfl) info.entries
  have hlow := hadd.reserve_range 0 0x100000 (UInt64.saturating_add 0 0x100000)
  have himg := reserve_kernel_image_holds hlow img
  have hramfs := himg.reserve_range info.initramfs_addr info.initramfs_size
    (UInt64.saturating_add info.initramfs_addr info.initramfs_size)
  unfold pmm_init_from_boot_info at h ⊢
  split at h
  · simp at h
  rename_i hvalid
  rw [if_neg hvalid]
  dsimp only at h ⊢
  by_cases hempty : (Pmm.reset.add_entries pmm_add_range info.entries).frames.length = 0
  · simp [hempty] at h
  rw [if_neg hempty]
  by_cases hsize : info.initramfs_size = 0
  · rw [if_neg (not_not.mpr hsize)]
    exact himg.congr fun p => by simp [reserved, inReserve, Pmm.inReserve, hsize]
  rw [if_pos hsize]
  exact hramfs.congr fun p => rfl

/-! ### Callers and pools -/
def Users.holding (u : Users) : Holding UInt64 := ⟨u.pmm.frames, u.held⟩

theorem alloc_page_iff {a : UInt64} :
    (pmm_alloc_page s).1 = some a ↔ ∃ fs', alloc s.frames = some (a, fs') := by
  cases hal : alloc s.frames with
  | none => simp [pmm_alloc_page, hal]
  | some r => simp [pmm_alloc_page, hal, Prod.ext_iff]

theorem Users.step_holding {u : Users} (hu : Pmm.Aligned u.pmm.frames) (op : Op UInt64) :
    Pmm.Aligned (u.step op).pmm.frames ∧ (u.step op).holding = u.holding.step op := by
  cases op with
  | alloc =>
    cases hal : alloc u.pmm.frames with
    | none => simp [Users.step, Users.holding, Holding.step, pmm_alloc_page, hal, hu]
    | some r =>
    simp [Users.step, Users.holding, Holding.step, pmm_alloc_page, hal, (hu.alloc hal).2]
  | free page =>
  cases hfr : free page u.pmm.frames with
  | none =>
    cases hpage : is_page_aligned page <;>
      simp [Users.step, Users.holding, Holding.step, pmm_free_page, hfr, hpage, hu]
  | some fs' =>
  obtain ⟨hpage, hal⟩ := hu.free hfr
  simp [Users.step, Users.holding, Holding.step, pmm_free_page, hfr, hpage, hal]

theorem users_matches (hs : Pmm.Aligned s.frames) :
    System.Matches (users s) anyStep (pool s.frames) anyStep
      (fun u => Pmm.Aligned u.pmm.frames) Users.holding where
  init := ⟨hs, rfl⟩
  cond_iff _ _ := Iff.rfl
  keep u op u' hu _ hstep := by
    simp only [users, Option.some.injEq] at hstep
    exact hstep ▸ (Users.step_holding hu op).1
  step u op hu := by simp [users, pool, (Users.step_holding hu op).2]
end QosKernel.RustPmm
