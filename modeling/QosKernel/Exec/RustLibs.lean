import QosKernel.Exec.CLibs
import QosKernel.Syscall.RustTables

/-! # Executable images, shared libraries and modules of the Rust kernel

The library table and the module table of `rust-os/kernel/src/lib.rs` are
those of the C kernel. The functions here differ from the C ones in their
counters, which stop at the largest number, and in that a path that does
not fit is refused.
-/
open Framework Framework.Checked
namespace QosKernel.RustCalls
/-! ### Images -/
/-- What a parser of images returns: an early return is `None`, a fault is a
panic. -/
def parsed {α : Type} : Attempt α → Checked (Option α)
  | .ok a => .ok (some a)
  | .giveUp => .ok none
  | .fault => .error .bounds

def parse_shared_elf_image (image : Image) : Checked Bool :=
  if RustElf.len image < 64 then return false
  else do
    if (← parsed (RustElf.elf_u16 image 16)) ≠ some QOS_ELF_ET_DYN then return false
    else return (← parsed (RustElf.parse_exec_elf_image image)).isSome

/-! ### Libraries -/
def syscall_shlib_find_path (l : Libs) (path : CStr) : Checked (Option LibSlot) :=
  findPath (fun i => if (l.shlibs i).used then some (l.shlibs i).path else none) path

section
variable (k : KState) (l : Libs) (path : CStr)
/-- The second half of `syscall_shlib_load`: a library that is not there yet.
The path was checked before, so copying it does not fail. -/
def shlib_add : Checked (Option UInt32 × Libs) := do
  match ← syscall_file_find k path with
  | none => return (none, l)
  | some f =>
    let len := (k.files f).len
    if !(k.files f).used then return (none, l)
    else if len = 0 then return (none, l)
    else
      slice 0 len QOS_PIPE_CAP
      if !(← parse_shared_elf_image (k.files f).image) then return (none, l)
      else
        match l.shlib_free_slot with
        | none => return (none, l)
        | some slot =>
          let (handle, l1) := l.shlib_next_handle
          return (some handle, l1.setShlib slot ⟨true, handle, 1, .ofNat f.val, path⟩)

def syscall_shlib_load (force_new : Bool) :
    Checked (Option UInt32 × Libs) :=
  if !Vfs.path_valid path then return (none, l)
  else do
    let found ← if force_new then pure none else syscall_shlib_find_path l path
    match found with
    | some slot =>
      let row := l.shlibs slot
      return (some row.handle,
        l.setShlib slot { row with refcount := UInt32.saturating_add row.refcount 1 })
    | none => shlib_add k l path
end
def syscall_shlib_release (l : Libs) (handle : UInt32) : Bool × Libs :=
  let r := l.shlib_release_handle handle
  (r.1 == 0, r.2)

/-! ### Modules -/
section
variable (l : Libs) (path : CStr)
def syscall_module_find_path : Checked (Option ModuleSlot) :=
  findPath (fun m => if (l.modules m).used then some (l.modules m).path else none) path

/-- The end of `syscall_module_load`: the library is there, and a slot is
needed. -/
def module_add (handle : UInt32) : Option UInt32 × Libs :=
  match l.module_free_slot with
  | none => (none, (syscall_shlib_release l handle).2)
  | some m =>
    let (id, l1) := l.module_next_id
    (some id, l1.setModule m ⟨true, id, 1, handle, path⟩)
end
def syscall_module_load (k : KState) (l : Libs) (path : CStr) : Checked (Option UInt32 × Libs) :=
  if !Vfs.path_valid path then return (none, l)
  else do
    match ← syscall_module_find_path l path with
    | some m => return (some (l.modules m).id, l)
    | none =>
      let r ← syscall_shlib_load k l path false
      match r.1 with
      | none => return (none, r.2)
      | some handle => return module_add r.2 path handle

def syscall_module_unload (l : Libs) (module_id : UInt32) : Bool × Libs :=
  let r := l.module_unload_id module_id
  (r.1 == 0, r.2)

/-- A stored path came from a text, so it is one again. -/
def syscall_module_reload (k : KState) (l : Libs) (module_id : UInt32) :
    Checked (Option UInt32 × Libs) :=
  match l.module_find_slot_by_id module_id with
  | none => return (none, l)
  | some m =>
    let path := (l.modules m).path
    if path.length = 0 ∨ QOS_VFS_PATH_MAX ≤ path.length then return (none, l)
    else do
      let r ← syscall_shlib_load k l path true
      match r.1 with
      | none => return (none, r.2)
      | some new_handle =>
        let row := r.2.modules m
        let next := UInt32.saturating_add row.generation 1
        let generation := if next == 0 then 1 else next
        let l1 := r.2.setModule m { row with shlib_handle := new_handle, generation := generation }
        return (some generation,
          if row.shlib_handle != 0 then (syscall_shlib_release l1 row.shlib_handle).2 else l1)
end QosKernel.RustCalls
