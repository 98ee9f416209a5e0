import QosKernel.Framework.Bits

/-! # Boot information

The record the boot loader hands to the kernel, as far as memory set-up
reads it, and the page arithmetic both kernels share. The frame buffer,
ACPI and device tree fields are read by no modelled function.

The arithmetic is that of release builds: 64-bit additions wrap.
-/
open Framework
namespace QosKernel
variable {start stop : UInt64}
def QOS_PAGE_SIZE : UInt64 := 4096
def QOS_BOOT_MAGIC : UInt64 := 0x514F53424F4F5400
def QOS_MMAP_MAX_ENTRIES : Nat := 128

/-- One entry of the memory map; `type_ = 1` is usable memory. -/
structure MmapEntry where
  base : UInt64
  length : UInt64
  type_ : UInt32
  deriving DecidableEq, Repr, Inhabited

structure BootInfo where
  magic : UInt64
  mmap_entry_count : UInt32
  mmap_entries : Fin QOS_MMAP_MAX_ENTRIES → MmapEntry
  initramfs_addr : UInt64
  initramfs_size : UInt64

/-- The entries that the loops over the memory map visit, in order. -/
def BootInfo.entries (info : BootInfo) : List MmapEntry :=
  ((List.finRange QOS_MMAP_MAX_ENTRIES).take info.mmap_entry_count.toNat).map
    info.mmap_entries

/-- The checks both kernels make on the record itself. -/
def BootInfo.wellFormed (info : BootInfo) : Bool :=
  if info.magic != QOS_BOOT_MAGIC then false
  else if info.mmap_entry_count == 0 || QOS_MMAP_MAX_ENTRIES < info.mmap_entry_count.toNat then
    false
  else if (info.mmap_entries ⟨0, by decide⟩).length == 0 ||
      (info.mmap_entries ⟨0, by decide⟩).type_ == 0 then false
  else if info.initramfs_size != 0 && info.initramfs_addr == 0 then false
  else true

/-! ### Page arithmetic -/
section
variable (value : UInt64)
def align_up : UInt64 :=
  (value + (QOS_PAGE_SIZE - 1)) &&& ~~~(QOS_PAGE_SIZE - 1)

def align_down : UInt64 :=
  value &&& ~~~(QOS_PAGE_SIZE - 1)

def is_page_aligned : Bool :=
  value &&& (QOS_PAGE_SIZE - 1) == 0
end
section
variable (v : UInt64)
theorem align_down_toNat : (align_down v).toNat = v.toNat / 4096 * 4096 :=
  UInt64.toNat_and_not_4095 v

theorem align_up_toNat : (align_up v).toNat = (v.toNat + 4095) % 2 ^ 64 / 4096 * 4096 := by
  rw [align_up, QOS_PAGE_SIZE, UInt64.toNat_and_not_4095, UInt64.toNat_add]
  rfl

theorem is_page_aligned_iff : is_page_aligned v = true ↔ v.toNat % 4096 = 0 := by
  rw [is_page_aligned, QOS_PAGE_SIZE, beq_iff_eq, ← UInt64.toNat_inj, UInt64.toNat_and_4095]
  rfl

theorem is_page_aligned_align_down : is_page_aligned (align_down v) = true := by
  rw [is_page_aligned_iff, align_down_toNat]
  omega

theorem is_page_aligned_align_up : is_page_aligned (align_up v) = true := by
  rw [is_page_aligned_iff, align_up_toNat]
  omega
end
theorem align_down_of_aligned {v : UInt64} (h : is_page_aligned v = true) : align_down v = v := by
  rw [is_page_aligned_iff] at h
  rw [← UInt64.toNat_inj, align_down_toNat]
  omega

theorem align_down_add_offset (v : UInt64) : align_down v + (v &&& (QOS_PAGE_SIZE - 1)) = v := by
  have hoff : (v &&& (QOS_PAGE_SIZE - 1)).toNat = v.toNat % 4096 := UInt64.toNat_and_4095 v
  have := v.toNat_lt
  rw [← UInt64.toNat_inj, UInt64.toNat_add, align_down_toNat, hoff]
  omega

/-! ### The pages of a range -/
/-- The pages `start, start + 4096, ...` below `stop`, both page aligned. -/
def pagesFrom (start stop : UInt64) : List UInt64 :=
  (List.range ((stop.toNat - start.toNat) / 4096)).map fun k =>
    UInt64.ofNat (start.toNat + 4096 * k)

theorem mem_pagesFrom {p : UInt64} (hs : is_page_aligned start = true)
    (he : is_page_aligned stop = true) :
    p ∈ pagesFrom start stop ↔
      is_page_aligned p = true ∧ start.toNat ≤ p.toNat ∧ p.toNat < stop.toNat := by
  rw [is_page_aligned_iff] at hs he ⊢
  have hstop : stop.toNat < UInt64.size := stop.toNat_lt
  simp only [pagesFrom, List.mem_map, List.mem_range]
  constructor
  · rintro ⟨k, hk, rfl⟩
    rw [UInt64.toNat_ofNat_of_lt' (by omega)]
    omega
  rintro ⟨hp, hle, hlt⟩
  refine ⟨(p.toNat - start.toNat) / 4096, by omega, ?_⟩
  rw [← UInt64.toNat_inj, UInt64.toNat_ofNat_of_lt' (by omega)]
  omega

theorem pagesFrom_of_lt (hs : is_page_aligned start = true) (he : is_page_aligned stop = true)
    (h : start < stop) :
    is_page_aligned (start + 4096) = true ∧
      pagesFrom start stop = start :: pagesFrom (start + 4096) stop := by
  rw [is_page_aligned_iff] at hs he
  rw [is_page_aligned_iff]
  rw [UInt64.lt_iff_toNat_lt] at h
  have hstop := stop.toNat_lt
  have hnext : (start + 4096).toNat = start.toNat + 4096 := by
    rw [UInt64.toNat_add]
    show (start.toNat + 4096) % 2 ^ 64 = _
    omega
  have hcount : (stop.toNat - start.toNat) / 4096 =
      (stop.toNat - (start + 4096).toNat) / 4096 + 1 := by
    rw [hnext]; omega
  refine ⟨by rw [hnext]; omega, ?_⟩
  rw [pagesFrom, hcount, List.range_succ_eq_map, List.map_cons, List.map_map, pagesFrom, hnext]
  refine congrArg₂ List.cons (by simp) (List.map_congr_left fun k _ => ?_)
  exact congrArg UInt64.ofNat (by rw [Nat.succ_eq_add_one]; omega)

theorem pagesFrom_of_not_lt (h : ¬start < stop) : pagesFrom start stop = [] := by
  rw [UInt64.lt_iff_toNat_lt] at h
  have : (stop.toNat - start.toNat) / 4096 = 0 := by omega
  simp [pagesFrom, this]
end QosKernel
