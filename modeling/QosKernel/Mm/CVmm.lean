import QosKernel.Framework.PartialMap
import QosKernel.Mm.Mmap

/-! # The C virtual memory manager

The `qos_vmm_` functions of `c-os/kernel/mm/mm.c` and the MMAP and MUNMAP
system calls. Every address space has its own table of
`QOS_VMM_MAX_MAPPINGS` slots, keyed by the virtual page.
-/
open Framework
namespace QosKernel.CVmm
def QOS_VMM_MAX_AS : Nat := 64
/-- An address space. -/
abbrev Space := Fin QOS_VMM_MAX_AS
def QOS_VMM_MAX_MAPPINGS : Nat := 2048
def QOS_VMM_DEFAULT_FLAGS : UInt32 := 1

/-- The physical page and the flags of a mapped page. -/
structure Mapping where
  pa : UInt64
  flags : UInt32
  deriving DecidableEq, Repr

/-- One table for each address space, and the current address space. -/
structure Vmm where
  tables : Space → SlotMap UInt64 Mapping QOS_VMM_MAX_MAPPINGS
  asid : Space

/-! ### Functions -/
def qos_vmm_reset : Vmm := ⟨fun _ => SlotMap.empty, ⟨0, by decide⟩⟩

/-- `asid_valid`, with the address space it names. -/
def asid_valid (asid : UInt32) : Option Space :=
  if h : asid.toNat < QOS_VMM_MAX_AS then some ⟨asid.toNat, h⟩ else none

section
variable (s : Vmm)
def qos_vmm_set_asid (asid : UInt32) : Vmm :=
  match asid_valid asid with
  | some a => { s with asid := a }
  | none => s

def qos_vmm_get_asid : UInt32 := UInt32.ofNat s.asid.val

def qos_vmm_map_as (asid : UInt32) (va pa : UInt64) (flags : UInt32) : Int × Vmm :=
  match asid_valid asid with
  | none => (-1, s)
  | some a =>
    if flags = 0 then (-1, s)
    else if va &&& (QOS_PAGE_SIZE - 1) ≠ 0 ∨ pa &&& (QOS_PAGE_SIZE - 1) ≠ 0 then (-1, s)
    else
      match (s.tables a).put (align_down va) ⟨pa, flags⟩ with
      | some t => (0, { s with tables := set s.tables a t })
      | none => (-1, s)

def qos_vmm_map (va pa : UInt64) (flags : UInt32) : Int × Vmm :=
  qos_vmm_map_as s (qos_vmm_get_asid s) va pa flags

def qos_vmm_unmap_as (asid : UInt32) (va : UInt64) : Int × Vmm :=
  match asid_valid asid with
  | none => (-1, s)
  | some a =>
    if va &&& (QOS_PAGE_SIZE - 1) ≠ 0 then (-1, s)
    else
      match (s.tables a).del (align_down va) with
      | some t => (0, { s with tables := set s.tables a t })
      | none => (-1, s)

def qos_vmm_unmap (va : UInt64) : Int × Vmm :=
  qos_vmm_unmap_as s (qos_vmm_get_asid s) va

/-- The translation of an address, `none` where the page is not mapped. -/
def translation (a : Space) (va : UInt64) : Option UInt64 :=
  ((s.tables a).get (align_down va)).map fun m => m.pa + (va &&& (QOS_PAGE_SIZE - 1))

/-- The C function returns 0 where the page is not mapped. -/
def qos_vmm_translate_as (asid : UInt32) (va : UInt64) : UInt64 :=
  match asid_valid asid with
  | none => 0
  | some a => (translation s a va).getD 0

def qos_vmm_translate (va : UInt64) : UInt64 :=
  qos_vmm_translate_as s (qos_vmm_get_asid s) va

def qos_vmm_flags_as (asid : UInt32) (va : UInt64) : UInt32 :=
  match asid_valid asid with
  | none => 0
  | some a => (((s.tables a).get (align_down va)).map Mapping.flags).getD 0

/-- The slots of an address space, in the order of the loops. -/
def slotList (a : Space) : List (Option (UInt64 × Mapping)) :=
  (List.finRange QOS_VMM_MAX_MAPPINGS).map (s.tables a).slots

def qos_vmm_mapping_count_as (asid : UInt32) : UInt32 :=
  match asid_valid asid with
  | none => 0
  | some a => countUsed (slotList s a)

/-- The page, the frame and the flags of a mapping; `none` is the result -1. -/
def qos_vmm_mapping_get_as (asid ordinal : UInt32) : Option (UInt64 × UInt64 × UInt32) :=
  match asid_valid asid with
  | none => none
  | some a => (nthUsed ordinal (slotList s a) 0).map fun e => (e.1, e.2.pa, e.2.flags)
end
/-! ### System calls -/
/-- The result of a call that returns 0 for success. -/
def okState (r : Int × Vmm) : Option Vmm := if r.1 = 0 then some r.2 else none

/-- More iterations than the loops of MMAP and MUNMAP can take. -/
def loopFuel : Nat := QOS_VMM_MAX_MAPPINGS + 2

def sys_mmap (s : Vmm) (a0 a1 a2 : UInt64) : Option (Int × Vmm) :=
  let va := a0
  let len := a1
  let flags := a2.toUInt32
  if va = 0 ∨ len = 0 then some (-1, s)
  else
    let flags := if flags = 0 then QOS_VMM_DEFAULT_FLAGS else flags
    mmap_loop (fun s p => okState (qos_vmm_map s p p flags))
      (fun s p => okState (qos_vmm_unmap s p)) va len loopFuel s 0

def sys_munmap (s : Vmm) (a0 a1 : UInt64) : Option (Int × Vmm) :=
  let va := a0
  let len := a1
  if va = 0 ∨ len = 0 then some (-1, s)
  else munmap_loop (fun s p => okState (qos_vmm_unmap s p)) va len loopFuel s 0
end QosKernel.CVmm
