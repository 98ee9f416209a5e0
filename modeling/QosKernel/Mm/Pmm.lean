import QosKernel.Framework.FramePool
import QosKernel.Mm.Boot

/-! # Physical page tables and their loops

The state of the physical memory manager and the loops over it that the C
and the Rust kernel have in common. The two differ in how they compute
the end of a range (the C kernel wraps, the Rust kernel saturates) and in
what they reserve; those functions are in `CPmm` and `RustPmm`.
-/
open Framework
namespace QosKernel
def QOS_PMM_MAX_PAGES : Nat := 4096

/-- The addresses of the linker symbols `__kernel_phys_start` and
`__kernel_phys_end`. -/
structure KernelImage where
  kernel_phys_start : UInt64
  kernel_phys_end : UInt64

/-- The frame table with its flags, and the free counter. `frames.length` is
the frame count. -/
structure Pmm where
  frames : List (Frame UInt64)
  free_count : UInt32

namespace Pmm
variable {stop : UInt64 → UInt64 → UInt64} {es : List MmapEntry} {fs fs' : List (Frame UInt64)}
variable {a : UInt64}
def reset : Pmm := ⟨[], 0⟩

/-! ### Loops -/
/-- The loop that appends the pages from `start` below `stop`; `room` is the
number of table entries left. -/
def add_pages (stop : UInt64) : Nat → UInt64 → Pmm → Pmm
  | 0, _, s => s
  | room + 1, start, s =>
    if start < stop then
      add_pages stop room (start + QOS_PAGE_SIZE)
        ⟨s.frames ++ [⟨start, false⟩], s.free_count + 1⟩
    else s

/-- Appends the pages from `base`, rounded up, below `stop`, as far as the
table has room. -/
def add_range (s : Pmm) (base stop : UInt64) : Pmm :=
  add_pages stop (QOS_PMM_MAX_PAGES - s.frames.length) (align_up base) s

/-- A map entry that initialisation takes pages from. -/
def usable (e : MmapEntry) : Bool := e.type_ == 1 && QOS_PAGE_SIZE ≤ e.length

/-- The loop over the memory map; `add` is the kernel's own `pmm_add_range`. -/
def add_entries (add : Pmm → UInt64 → UInt64 → Pmm) (es : List MmapEntry) (s : Pmm) : Pmm :=
  es.foldl (fun s e => if usable e then add s e.base e.length else s) s

/-- An address in the half-open range from `base` to `stop`. -/
def inRange (base stop p : UInt64) : Bool := base ≤ p && p < stop

/-- The loop that marks the frames from `base` below `stop` that are not in
use yet. -/
def mark_frames (base stop : UInt64) : List (Frame UInt64) → UInt32 → Pmm
  | [], n => ⟨[], n⟩
  | f :: fs, n =>
    if inRange base stop f.addr && !f.used then
      let rest := mark_frames base stop fs (n - 1)
      ⟨⟨f.addr, true⟩ :: rest.frames, rest.free_count⟩
    else
      let rest := mark_frames base stop fs n
      ⟨f :: rest.frames, rest.free_count⟩

/-- Marks a range of `length` bytes at `base` that ends at `stop`; an empty
range is left alone. -/
def reserve_range (s : Pmm) (base length stop : UInt64) : Pmm :=
  if length = 0 then s else mark_frames base stop s.frames s.free_count

/-- Marks the kernel image, if its symbols are set; `reserve` is the kernel's
own `pmm_reserve_range`. -/
def reserve_image (reserve : Pmm → UInt64 → UInt64 → Pmm) (img : KernelImage) (s : Pmm) : Pmm :=
  if img.kernel_phys_start ≠ 0 ∧ img.kernel_phys_start < img.kernel_phys_end then
    reserve s img.kernel_phys_start (img.kernel_phys_end - img.kernel_phys_start)
  else s

/-! ### What the loops compute -/
theorem add_pages_frames {stop : UInt64} (he : is_page_aligned stop = true) :
    ∀ (room : Nat) (start : UInt64) (s : Pmm), is_page_aligned start = true →
    (add_pages stop room start s).frames =
      s.frames ++ ((pagesFrom start stop).take room).map (⟨·, false⟩) := by
  intro room
  induction room with
  | zero => intro start s _; simp [add_pages]
  | succ room ih =>
  intro start s hs
  by_cases hlt : start < stop
  · obtain ⟨hnext, hpages⟩ := pagesFrom_of_lt hs he hlt
    have hrest := ih (start + QOS_PAGE_SIZE)
      ⟨s.frames ++ [⟨start, false⟩], s.free_count + 1⟩ hnext
    simp only [add_pages, hlt, if_true, hrest, hpages, List.take_succ_cons, List.map_cons,
      List.append_assoc, List.singleton_append]
    rfl
  simp [add_pages, hlt, pagesFrom_of_not_lt hlt]

theorem mark_frames_frames (base stop : UInt64) : ∀ (fs : List (Frame UInt64)) (n : UInt32),
    (mark_frames base stop fs n).frames = FramePool.reserve (inRange base stop) fs := by
  intro fs
  induction fs with
  | nil => intro n; rfl
  | cons f fs ih =>
  intro n
  obtain ⟨a, u⟩ := f
  have hcons : FramePool.reserve (inRange base stop) (⟨a, u⟩ :: fs) =
      ⟨a, u || inRange base stop a⟩ :: FramePool.reserve (inRange base stop) fs := rfl
  rw [hcons]
  cases hin : inRange base stop a <;> cases u <;> simp [mark_frames, hin, ih]

/-! ### A freshly initialised table -/
/-- The pages the usable entries contribute when `stop` computes the end of an
entry: what an unbounded table would hold. -/
def contributed (stop : UInt64 → UInt64 → UInt64) (es : List MmapEntry) : List UInt64 :=
  (es.filter usable).flatMap fun e =>
    pagesFrom (align_up e.base) (align_down (stop e.base e.length))

/-- The table whose frames are the pages `ps`, marked where `reserved`. -/
def Holds (s : Pmm) (ps : List UInt64) (reserved : UInt64 → Bool) : Prop :=
  s.frames = ps.map fun p => ⟨p, reserved p⟩

variable {s : Pmm} {ps : List UInt64} {reserved : UInt64 → Bool}
theorem Holds.congr {r' : UInt64 → Bool} (h : s.Holds ps reserved)
    (hr : ∀ p, reserved p = r' p) : s.Holds ps r' := by
  rw [← funext hr]
  exact h

theorem Holds.add_range (h : s.Holds (ps.take QOS_PMM_MAX_PAGES) fun _ => false)
    (base stop : UInt64) :
    (s.add_range base (align_down stop)).Holds
      ((ps ++ pagesFrom (align_up base) (align_down stop)).take QOS_PMM_MAX_PAGES)
      fun _ => false := by
  have hroom : QOS_PMM_MAX_PAGES - s.frames.length = QOS_PMM_MAX_PAGES - ps.length := by
    rw [h, List.length_map, List.length_take]
    omega
  rw [Holds, Pmm.add_range, add_pages_frames (is_page_aligned_align_down _) _ _ _
    (is_page_aligned_align_up _), hroom, h, List.take_append, List.map_append]

theorem Holds.add_entries (h : s.Holds (ps.take QOS_PMM_MAX_PAGES) fun _ => false)
    (add : Pmm → UInt64 → UInt64 → Pmm) (stop : UInt64 → UInt64 → UInt64)
    (hadd : ∀ s base length, add s base length = s.add_range base (align_down (stop base length)))
    (es : List MmapEntry) :
    (s.add_entries add es).Holds
      ((ps ++ contributed stop es).take QOS_PMM_MAX_PAGES) fun _ => false := by
  induction es generalizing s ps with
  | nil => simpa [Pmm.add_entries, contributed] using h
  | cons e es ih =>
  cases hu : usable e with
  | true =>
    have hstep := ih (h.add_range e.base (stop e.base e.length))
    simpa [Pmm.add_entries, contributed, hu, hadd] using hstep
  | false => simpa [Pmm.add_entries, contributed, hu] using ih h

theorem Holds.mark (h : s.Holds ps reserved) (base stop : UInt64) :
    (mark_frames base stop s.frames s.free_count).Holds ps
      fun p => reserved p || inRange base stop p := by
  rw [Holds, mark_frames_frames, h, FramePool.reserve, List.map_map]
  rfl

/-- The page `p` starts in the range of `length` bytes at `base` with computed
end `stop`. -/
def inReserve (base length stop p : UInt64) : Bool :=
  length != 0 && inRange base stop p

/-- The page `p` starts in the kernel image, for symbols that are set. -/
def inImage (covers : UInt64 → UInt64 → UInt64 → Bool) (img : KernelImage) (p : UInt64) : Bool :=
  (img.kernel_phys_start != 0 && img.kernel_phys_start < img.kernel_phys_end) &&
    covers img.kernel_phys_start (img.kernel_phys_end - img.kernel_phys_start) p

section
variable (h : s.Holds ps reserved)
include h
theorem Holds.reserve_range (base length stop : UInt64) :
    (s.reserve_range base length stop).Holds ps
      fun p => reserved p || inReserve base length stop p := by
  by_cases hl : length = 0
  · rw [Pmm.reserve_range, if_pos hl]
    exact h.congr fun p => by simp [inReserve, hl]
  rw [Pmm.reserve_range, if_neg hl]
  exact (h.mark base stop).congr fun p => by rw [inReserve, bne_iff_ne.mpr hl, Bool.true_and]

theorem Holds.reserve_image
    (reserve : Pmm → UInt64 → UInt64 → Pmm) (covers : UInt64 → UInt64 → UInt64 → Bool)
    (hreserve : ∀ base length, (reserve s base length).Holds ps
      fun p => reserved p || covers base length p) (img : KernelImage) :
    (s.reserve_image reserve img).Holds ps fun p => reserved p || inImage covers img p := by
  by_cases hc : img.kernel_phys_start ≠ 0 ∧ img.kernel_phys_start < img.kernel_phys_end
  · rw [Pmm.reserve_image, if_pos hc]
    exact (hreserve _ _).congr fun p => by
      rw [inImage, bne_iff_ne.mpr hc.1, decide_eq_true hc.2, Bool.true_and, Bool.true_and]
  rw [Pmm.reserve_image, if_neg hc]
  have hcond : (img.kernel_phys_start != 0 &&
      decide (img.kernel_phys_start < img.kernel_phys_end)) = false := by
    simpa [Bool.eq_false_iff] using hc
  exact h.congr fun p => by rw [inImage, hcond, Bool.false_and, Bool.or_false]

theorem Holds.freeAddrs : FramePool.freeAddrs s.frames = ps.filter fun p => !reserved p := by
  rw [h, FramePool.freeAddrs, List.filter_map, List.map_map]
  exact List.map_id _

theorem Holds.flag : ∀ f ∈ s.frames, ∀ g ∈ s.frames, f.addr = g.addr → f.used = g.used := by
  intro f hf g hg heq
  rw [h] at hf hg
  obtain ⟨p, -, rfl⟩ := List.mem_map.mp hf
  obtain ⟨q, -, rfl⟩ := List.mem_map.mp hg
  exact congrArg reserved heq

/-- The frames of a fresh table that are marked are the reserved ones. -/
theorem Holds.used : ∀ f ∈ s.frames, f.used = true → reserved f.addr = true := by
  intro f hf hu
  rw [h] at hf
  obtain ⟨p, -, rfl⟩ := List.mem_map.mp hf
  exact hu
end
/-! ### Aligned tables -/
/-- Every frame address is the start of a page. -/
def Aligned (fs : List (Frame UInt64)) : Prop :=
  ∀ a ∈ fs.map Frame.addr, is_page_aligned a = true

theorem contributed_aligned {p : UInt64} (hp : p ∈ contributed stop es) :
    is_page_aligned p = true := by
  obtain ⟨e, -, he⟩ := List.mem_flatMap.mp hp
  exact ((mem_pagesFrom (is_page_aligned_align_up _) (is_page_aligned_align_down _)).mp he).1

theorem Holds.aligned (h : s.Holds ((contributed stop es).take QOS_PMM_MAX_PAGES) reserved) :
    Aligned s.frames := by
  intro a ha
  rw [h, List.map_map] at ha
  obtain ⟨p, hp, rfl⟩ := List.mem_map.mp ha
  exact contributed_aligned (List.mem_of_mem_take hp)

theorem Aligned.alloc (h : Aligned fs) (hal : FramePool.alloc fs = some (a, fs')) :
    is_page_aligned a = true ∧ Aligned fs' := by
  obtain ⟨pre, post, rfl, rfl, -⟩ := FramePool.alloc_split hal
  exact ⟨h a (by simp), fun b hb => h b (by simpa using hb)⟩

theorem Aligned.free (h : Aligned fs) (hfr : FramePool.free a fs = some fs') :
    is_page_aligned a = true ∧ Aligned fs' := by
  obtain ⟨pre, post, rfl, rfl, -⟩ := FramePool.free_split hfr
  exact ⟨h a (by simp), fun b hb => h b (by simpa using hb)⟩
end Pmm
end QosKernel
