import QosKernel.Framework.SlotMap
import QosKernel.Mm.Mmap

/-! # The Rust virtual memory manager

The `vmm_` functions of `rust-os/kernel/src/lib.rs` and the MMAP and
MUNMAP system calls. All address spaces share one table of
`QOS_VMM_MAX_MAPPINGS` slots, keyed by address space and virtual page.
-/
open Framework
namespace QosKernel.RustVmm
def QOS_VMM_MAX_AS : Nat := 64
def QOS_VMM_MAX_MAPPINGS : Nat := 2048
def VM_READ : UInt32 := 1

inductive KernelError where
  | InvalidAddress
  | VmmFull
  deriving DecidableEq, Repr

structure Mapping where
  pa : UInt64
  flags : UInt32
  deriving DecidableEq, Repr

/-- The shared table, and the current address space, which `vmm_set_asid` keeps
valid. -/
structure Vmm where
  table : SlotMap (UInt32 × UInt64) Mapping QOS_VMM_MAX_MAPPINGS
  current_asid : UInt32
  current_valid : current_asid.toNat < QOS_VMM_MAX_AS

/-! ### Functions -/
def vmm_reset : Vmm := ⟨SlotMap.empty, 0, by decide⟩
def asid_valid (asid : UInt32) : Bool := asid.toNat < QOS_VMM_MAX_AS

section
variable (s : Vmm)
def vmm_set_asid (asid : UInt32) : Vmm :=
  if h : asid.toNat < QOS_VMM_MAX_AS then { s with current_asid := asid, current_valid := h }
  else s

def vmm_map_as (asid : UInt32) (va pa : UInt64) (flags : UInt32) :
    Except KernelError Vmm :=
  if !asid_valid asid || flags == 0 || !is_page_aligned va || !is_page_aligned pa then
    .error .InvalidAddress
  else
    match s.table.put (asid, align_down va) ⟨pa, flags⟩ with
    | some t => .ok { s with table := t }
    | none => .error .VmmFull

def vmm_map (va pa : UInt64) (flags : UInt32) : Except KernelError Vmm :=
  if flags == 0 || !is_page_aligned va || !is_page_aligned pa then .error .InvalidAddress
  else vmm_map_as s s.current_asid va pa flags

/-- `some` for the result `true`. -/
def vmm_unmap_as (asid : UInt32) (va : UInt64) : Option Vmm :=
  if !asid_valid asid || !is_page_aligned va then none
  else
    match s.table.del (asid, align_down va) with
    | some t => some { s with table := t }
    | none => none

def vmm_unmap (va : UInt64) : Option Vmm :=
  vmm_unmap_as s s.current_asid va

def vmm_translate_as (asid : UInt32) (va : UInt64) : Option UInt64 :=
  if !asid_valid asid then none
  else (s.table.get (asid, align_down va)).map fun m => m.pa + (va &&& (QOS_PAGE_SIZE - 1))
end
/-! ### System calls -/
def loopFuel : Nat := QOS_VMM_MAX_MAPPINGS + 2

/-- The loops of both calls as a release build runs them: sums wrap. -/
def sys_mmap (s : Vmm) (a0 a1 a2 : UInt64) : Option (Int × Vmm) :=
  let va := a0
  let len := a1
  let flags := if a2 = 0 then VM_READ else a2.toUInt32
  if va = 0 ∨ len = 0 then some (-1, s)
  else mmap_loop (fun s p => (vmm_map s p p flags).toOption) vmm_unmap va len loopFuel s 0

def sys_munmap (s : Vmm) (a0 a1 : UInt64) : Option (Int × Vmm) :=
  let va := a0
  let len := a1
  if va = 0 ∨ len = 0 then some (-1, s)
  else munmap_loop vmm_unmap va len loopFuel s 0
end QosKernel.RustVmm
