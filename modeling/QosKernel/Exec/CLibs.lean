import QosKernel.Exec.Elf
import QosKernel.Framework.Bits
import QosKernel.Syscall.CDispatch

/-! # Shared libraries and modules of the C kernel

The library table and the module table of `c-os/kernel/syscall/syscall.c`,
the functions on them and the six system calls that use them. A library
has a handle and a count of references; a module holds one reference to its
library. Both tables are next to the state of the other system calls, which
change the files that libraries are loaded from.
-/
open Framework
namespace QosKernel
def QOS_SHLIB_MAX : Nat := 64
abbrev LibSlot := Fin QOS_SHLIB_MAX
def QOS_MODULE_MAX : Nat := 32
abbrev ModuleSlot := Fin QOS_MODULE_MAX

/-- One row of the `g_shlib_` arrays. -/
structure Shlib where
  used : Bool
  handle : UInt32
  refcount : UInt32
  file_id : UInt16
  path : CStr
  deriving DecidableEq

def Shlib.free : Shlib := ⟨false, 0, 0, 0xFFFF, []⟩

/-- One row of the `g_module_` arrays. -/
structure Module where
  used : Bool
  id : UInt32
  generation : UInt32
  shlib_handle : UInt32
  path : CStr
  deriving DecidableEq

def Module.free : Module := ⟨false, 0, 0, 0, []⟩

structure Libs where
  shlibs : LibSlot → Shlib
  next_handle : UInt32
  modules : ModuleSlot → Module
  next_id : UInt32

/-- A number from a counter that leaves out 0, and the counter afterwards. -/
def nextNonzero (counter : UInt32) : UInt32 × UInt32 :=
  let first := (counter, counter + 1)
  let second := if first.1 == 0 then (first.2, first.2 + 1) else first
  if second.1 == 0 then (1, 2) else second

/-- The contents of a file. `g_file_len` is 16 bits wide. -/
def File.image (file : File) : Image where
  bytes := (List.range (UInt16.ofNat file.len).toNat).map file.data
  fits := by
    rw [List.length_map, List.length_range]
    exact Nat.lt_trans (UInt16.toNat_lt _) (by decide)

namespace CElf
open Attempt
def parse_shared_elf_image (image : Image) : Attempt Unit := do
  require (¬len image < 64)
  let e_type ← elf_u16 image 16
  require (e_type = QOS_ELF_ET_DYN)
  let _ ← parse_exec_elf_image image
  return ()
end CElf
namespace Libs
def reset : Libs := ⟨fun _ => .free, 1, fun _ => .free, 1⟩

/-! ### Libraries -/
section
variable (l : Libs)
def setShlib (i : LibSlot) (row : Shlib) : Libs :=
  { l with shlibs := set l.shlibs i row }

def shlib_find_slot_by_handle (handle : UInt32) : Option LibSlot :=
  if handle == 0 then none
  else first fun i => (l.shlibs i).used && (l.shlibs i).handle == handle

def shlib_find_slot_by_path (path : CStr) : Option LibSlot :=
  first fun i => (l.shlibs i).used && (l.shlibs i).path == path

def shlib_free_slot : Option LibSlot :=
  first fun i => !(l.shlibs i).used

def shlib_next_handle : UInt32 × Libs :=
  let r := nextNonzero l.next_handle
  (r.1, { l with next_handle := r.2 })
end
section
variable (k : KState)
/-- The file that a library at `path` is loaded from. -/
def loadable (path : CStr) : Option FileSlot :=
  match k.file_find path with
  | none => none
  | some f =>
    if !(k.files f).used || (k.files f).len == 0 then none
    else if CElf.parse_shared_elf_image (k.files f).image ≠ .ok () then none
    else some f

/-- The second half of `shlib_load_path`: a library that is not there yet. -/
def shlib_add (l : Libs) (path : CStr) : Int32 × Libs :=
  match loadable k path with
  | none => (-1, l)
  | some f =>
    match l.shlib_free_slot with
    | none => (-1, l)
    | some i =>
      let (handle, l1) := l.shlib_next_handle
      let copied := path.take (QOS_FILE_PATH_MAX - 1)
      if copied.isEmpty then (-1, l1.setShlib i .free)
      else (handle.toInt32, l1.setShlib i ⟨true, handle, 1, .ofNat f.val, copied⟩)

/-- `none` is a null pointer. -/
def shlib_load_path (l : Libs) (path : Option CStr) (force_new : Bool) :
    Int32 × Libs :=
  match path with
  | none => (-1, l)
  | some path =>
    if path.head? ≠ some Vfs.slash then (-1, l)
    else if force_new then l.shlib_add k path
    else
      match l.shlib_find_slot_by_path path with
      | some i =>
        ((l.shlibs i).handle.toInt32,
          l.setShlib i { l.shlibs i with refcount := (l.shlibs i).refcount + 1 })
      | none => l.shlib_add k path
end
section
variable (l : Libs)
def shlib_release_handle (handle : UInt32) : Int32 × Libs :=
  match l.shlib_find_slot_by_handle handle with
  | none => (-1, l)
  | some i =>
    if (l.shlibs i).refcount == 0 then (-1, l)
    else
      let left := (l.shlibs i).refcount - 1
      (0, l.setShlib i (if left == 0 then .free else { l.shlibs i with refcount := left }))

/-! ### Modules -/
def setModule (m : ModuleSlot) (row : Module) : Libs :=
  { l with modules := set l.modules m row }

def module_find_slot_by_id (module_id : UInt32) : Option ModuleSlot :=
  if module_id == 0 then none
  else first fun m => (l.modules m).used && (l.modules m).id == module_id

def module_find_slot_by_path (path : CStr) : Option ModuleSlot :=
  first fun m => (l.modules m).used && (l.modules m).path == path

def module_free_slot : Option ModuleSlot :=
  first fun m => !(l.modules m).used

def module_next_id : UInt32 × Libs :=
  let r := nextNonzero l.next_id
  (r.1, { l with next_id := r.2 })

/-- The end of `module_load_path`: the library is there, and a slot is needed. -/
def module_add (path : CStr) (handle : Int32) : Int32 × Libs :=
  match l.module_free_slot with
  | none => (-1, (l.shlib_release_handle handle.toUInt32).2)
  | some m =>
    let (id, l1) := l.module_next_id
    let copied := path.take (QOS_FILE_PATH_MAX - 1)
    if copied.isEmpty then
      (-1, ((l1.setModule m .free).shlib_release_handle handle.toUInt32).2)
    else (id.toInt32, l1.setModule m ⟨true, id, 1, handle.toUInt32, copied⟩)
end
def module_load_path (k : KState) (l : Libs) (path : Option CStr) : Int32 × Libs :=
  match path with
  | none => (-1, l)
  | some path =>
    if path.head? ≠ some Vfs.slash then (-1, l)
    else
      match l.module_find_slot_by_path path with
      | some m => ((l.modules m).id.toInt32, l)
      | none =>
        let r := l.shlib_load_path k (some path) false
        if r.1 < 0 then (-1, r.2) else r.2.module_add path r.1

def module_unload_id (l : Libs) (module_id : UInt32) : Int32 × Libs :=
  match l.module_find_slot_by_id module_id with
  | none => (-1, l)
  | some m =>
    let handle := (l.modules m).shlib_handle
    let l1 := l.setModule m .free
    (0, if handle != 0 then (l1.shlib_release_handle handle).2 else l1)

def module_reload_id (k : KState) (l : Libs) (module_id : UInt32) : Int32 × Libs :=
  match l.module_find_slot_by_id module_id with
  | none => (-1, l)
  | some m =>
    let r := l.shlib_load_path k (some (l.modules m).path) true
    if r.1 < 0 then (-1, r.2)
    else
      let row := r.2.modules m
      let generation := if row.generation + 1 == 0 then 1 else row.generation + 1
      let l1 := r.2.setModule m
        { row with shlib_handle := r.1.toUInt32, generation := generation }
      (generation.toInt32,
        if row.shlib_handle != 0 then (l1.shlib_release_handle row.shlib_handle).2 else l1)

/-! ### Symbols -/
def symbol_hash32 (name : CStr) : UInt32 :=
  if name.isEmpty then 0
  else name.foldl (fun hash c => ((hash <<< 5) + hash) ^^^ c.toUInt32) 5381

/-- The address of a symbol; `none` is the return value -1. -/
def symbol (l : Libs) (handle : UInt32) (name : Option CStr) : Option UInt64 :=
  match l.shlib_find_slot_by_handle handle, name with
  | some _, some name =>
    let hash := symbol_hash32 name
    if name.isEmpty then none
    else if hash == 0 then none
    else
      some ((0x7000000000000000 : UInt64) ||| handle.toUInt64 <<< 24 |||
        (hash &&& 0x00FFFFFF).toUInt64)
  | _, _ => none
end Libs
/-! ### System calls -/
/-- The state of all system calls of files, descriptors and libraries. -/
structure LibKernel where
  kernel : KState
  libs : Libs

/-- A call on libraries: its operation, its first argument as a handle or an id,
its result and the libraries after it. -/
structure LibCall where
  op : SyscallOp
  arg : UInt32
  rc : Int
  after : Libs

namespace LibKernel
variable {s : LibKernel} {c : Syscall}
def text (env : Env) (addr : UInt64) : Option CStr := if addr == 0 then none else some (env.str addr)

/-- The result of a library call: -1 for every negative number. -/
def answer (r : Int32 × Libs) : Int × Libs := (if r.1 < 0 then -1 else r.1.toInt, r.2)

def address : Option UInt64 → Int
  | none => -1
  | some addr => addr.toInt64.toInt

/-- The branches of `qos_syscall_dispatch` for libraries and modules; `none`
for the other operations. -/
def library_op (env : Env) (k : KState) (l : Libs) (op : SyscallOp) (a0 a1 : UInt64) :
    Option (Int × Libs) :=
  match op with
  | .dlopen => some (answer (l.shlib_load_path k (text env a0) false))
  | .dlclose =>
    let r := l.shlib_release_handle a0.toUInt32
    some (if r.1 == 0 then 0 else -1, r.2)
  | .dlsym => some (address (l.symbol a0.toUInt32 (text env a1)), l)
  | .modload => some (answer (l.module_load_path k (text env a0)))
  | .modunload =>
    let r := l.module_unload_id a0.toUInt32
    some (if r.1 == 0 then 0 else -1, r.2)
  | .modreload => some (answer (l.module_reload_id k a0.toUInt32))
  | _ => none

def opOf (s : LibKernel) (nr : UInt32) : Option SyscallOp :=
  if h : nr.toNat < QOS_SYSCALL_MAX then (s.kernel.calls ⟨nr.toNat, h⟩).map (·.1) else none

section
variable (env : Env) (s : LibKernel) (nr : UInt32)
/-- The library call that a dispatch of `nr` is, if it is one. -/
def library_call (a0 a1 : UInt64) : Option LibCall :=
  (s.opOf nr).bind fun op =>
    (library_op env s.kernel s.libs op a0 a1).map fun r => ⟨op, a0.toUInt32, r.1, r.2⟩

def qos_syscall_dispatch (a0 a1 a2 a3 : UInt64) :
    Int × List (UInt64 × List UInt8) × LibKernel :=
  match s.library_call env nr a0 a1 with
  | some e => (e.rc, [], { s with libs := e.after })
  | none =>
    let o := s.kernel.qos_syscall_dispatch env nr a0 a1 a2 a3
    (o.rc, o.out, { s with kernel := o.state })
end
def call (s : LibKernel) : Syscall → LibKernel
  | .register nr op value => { s with kernel := (s.kernel.qos_syscall_register nr op value).2 }
  | .unregister nr => { s with kernel := (s.kernel.qos_syscall_unregister nr).2 }
  | .dispatch env nr a0 a1 a2 a3 => (s.qos_syscall_dispatch env nr a0 a1 a2 a3).2.2

def event (s : LibKernel) : Syscall → Option LibCall
  | .dispatch env nr a0 a1 _ _ => s.library_call env nr a0 a1
  | .register .. | .unregister .. => none

theorem libs_of_event_none (h : s.event c = none) : (s.call c).libs = s.libs := by
  cases c with
  | register | unregister => rfl
  | dispatch env nr a0 a1 a2 a3 =>
  have h : s.library_call env nr a0 a1 = none := h
  simp only [call, qos_syscall_dispatch, h]

theorem event_some {e : LibCall} (h : s.event c = some e) : s.call c = { s with libs := e.after } ∧
    ∃ env a0 a1, e.arg = a0.toUInt32 ∧
      library_op env s.kernel s.libs e.op a0 a1 = some (e.rc, e.after) := by
  cases c with
  | register | unregister => cases h
  | dispatch env nr a0 a1 a2 a3 =>
  have h : s.library_call env nr a0 a1 = some e := h
  refine ⟨by simp only [call, qos_syscall_dispatch, h], env, a0, a1, ?_⟩
  simp only [library_call, Option.bind_eq_some_iff, Option.map_eq_some_iff] at h
  obtain ⟨op, -, r, hr, rfl⟩ := h
  exact ⟨rfl, hr⟩
end LibKernel
def libraryRuns (vfs : Vfs) : System LibKernel Syscall where
  init := ⟨.reset vfs, .reset⟩
  step s c := some (s.call c)
end QosKernel
