import QosKernel.Framework.WriteLog
import QosKernel.Locks.Descriptors

/-! # The files of the Rust system calls

The part of the state of `rust-os/kernel/src/lib.rs` that files live in,
and the calls on it: `MKDIR`, `UNLINK`, `OPEN`, `READ`, `WRITE`, `LSEEK`,
`DUP2` and `CLOSE`. The fields of sockets and pipes, and what `CLOSE` and
`DUP2` give back of them, are not part of it: these calls never look at
them to decide about a file.
-/
open Framework
namespace QosKernel
/-- What a call finds outside of this state. -/
structure RustFiles.Env extends RustKernel.UserMem where
  proc_alive : UInt32 → Bool
  /-- The length of the text of a descriptor below `/proc`. -/
  proc_total : ProcKind → UInt32 → Nat
  /-- What the buffer of that text, and the stack behind it, holds. -/
  proc_byte : ProcKind → UInt32 → Nat → UInt8
  /-- What `READ` and `WRITE` of a pipe or a socket return, and the bytes that
  are read. -/
  channel : Int × List UInt8

/-- One row of the `fd_` arrays. -/
structure RustFiles.FdRow where
  used : Bool
  kind : FdKind
  offset : UInt64
  file_id : UInt16
  proc_kind : ProcKind
  proc_pid : UInt32

namespace RustFiles.FdRow
def fresh (kind : FdKind) : FdRow := ⟨true, kind, 0, 0xFFFF, .none, 0⟩
def closed : FdRow := ⟨false, .none, 0, 0xFFFF, .none, 0⟩
def isFile (row : FdRow) : Bool := row.used && row.kind == .vfs
end RustFiles.FdRow
/-- The registry of paths is kept, searched and changed as the one in C. -/
structure RustFiles where
  vfs : Vfs
  fds : FdNum → RustFiles.FdRow
  files : NodeSlot → File

namespace RustFiles
def reset : RustFiles := ⟨.reset, fun _ => .closed, fun _ => .empty⟩

section
variable (s : RustFiles)
def setFd (i : FdNum) (row : FdRow) : RustFiles :=
  { s with fds := set s.fds i row }

def setOffset (i : FdNum) (offset : Nat) : RustFiles :=
  s.setFd i { s.fds i with offset := .ofNat offset }

/-! ### The tables -/
def fdAt (fd : UInt32) : Option FdNum :=
  if h : fd.toNat < QOS_FD_MAX then
    if (s.fds ⟨fd.toNat, h⟩).used then some ⟨fd.toNat, h⟩ else none
  else none

def fileAt (file_id : UInt16) : Option NodeSlot :=
  if h : file_id.toNat < QOS_VFS_MAX_NODES then
    if (s.files ⟨file_id.toNat, h⟩).used then some ⟨file_id.toNat, h⟩ else none
  else none

def syscall_fd_alloc (kind : FdKind) : Option (FdNum × RustFiles) :=
  (first fun i => !(s.fds i).used).map fun i => (i, s.setFd i (.fresh kind))

section
variable (path : CStr)
def syscall_file_find : Option NodeSlot :=
  first fun f => (s.files f).used && (s.files f).path == path

def syscall_file_alloc : Option (NodeSlot × RustFiles) :=
  (first fun f => !(s.files f).used).map fun f =>
    (f, { s with files := set s.files f (.new path) })

def syscall_file_ensure : Option (NodeSlot × RustFiles) :=
  match s.syscall_file_find path with
  | some f => some (f, s)
  | none => s.syscall_file_alloc path
end
section
variable (f : NodeSlot)
def syscall_file_has_refs : Bool :=
  (first fun i => (s.fds i).isFile && (s.fds i).file_id.toNat == f.val).isSome

def syscall_file_drop : RustFiles :=
  { s with files := set s.files f .empty }
end
/-- A file that was unlinked goes with its last descriptor. -/
def syscall_file_maybe_gc (file_id : UInt16) : RustFiles :=
  match s.fileAt file_id with
  | none => s
  | some f =>
    if !(s.files f).path.isEmpty || s.syscall_file_has_refs f then s else s.syscall_file_drop f

def syscall_fd_clear (i : FdNum) : RustFiles :=
  if !(s.fds i).used then s
  else (s.setFd i .closed).syscall_file_maybe_gc (s.fds i).file_id
end
/-! ### What a call returns -/
structure Outcome where
  rc : Int
  out : List (UInt64 × List UInt8)
  state : RustFiles

namespace Outcome
def ret (s : RustFiles) (rc : Int) : Outcome := ⟨rc, [], s⟩
def fail (s : RustFiles) : Outcome := ⟨-1, [], s⟩
def bytes (o : Outcome) : List UInt8 := o.out.flatMap (·.2)
end Outcome
/-! ### Paths -/
/-- The answer of `syscall_proc_path_kind`, which takes no lock; `none` where
it panics. -/
def procPathKind (path : CStr) : Option (Option (ProcKind × UInt32)) :=
  match (RustKernel.syscall_proc_path_kind path).run ⟨fun _ => false, .reset, []⟩ with
  | .ret answer _ => some answer
  | .spin _ | .panic => none

def open_proc (env : Env) (s : RustFiles) : Option (ProcKind × UInt32) → Outcome
  | none => .fail s
  | some (proc_kind, proc_pid) =>
    if proc_kind == .status && !env.proc_alive proc_pid then .fail s
    else
      match s.syscall_fd_alloc .proc with
      | none => .fail s
      | some (i, s1) =>
        .ret (s1.setFd i { s1.fds i with proc_kind := proc_kind, proc_pid := proc_pid }) i.val

def open_file (s : RustFiles) (path : CStr) : Outcome :=
  match s.syscall_fd_alloc .vfs with
  | none => .fail s
  | some (i, s1) =>
    match s1.syscall_file_ensure path with
    | none => .fail (s1.syscall_fd_clear i)
    | some (f, s2) => .ret (s2.setFd i { s2.fds i with file_id := .ofNat f.val }) i.val

section
variable (env : Env) (s : RustFiles) (a0 : UInt64)
/-- `none` is a panic. -/
def op_open : Option Outcome :=
  if a0 == 0 then some (.fail s)
  else
    match env.str a0 with
    | none => some (.fail s)
    | some path =>
      if s.vfs.qos_vfs_exists path then some (s.open_file path)
      else (procPathKind path).map (s.open_proc env)

def op_mkdir : Outcome :=
  if a0 == 0 then .fail s
  else
    match env.str a0 with
    | none => .fail s
    | some path =>
      if Vfs.qos_vfs_fs_kind path = some .procfs then .fail s
      else
        let r := s.vfs.qos_vfs_create path
        .ret { s with vfs := r.2 } (if r.1 = 0 then 0 else -1)
end
/-- `UNLINK` behind `vfs_remove`. -/
def unlink_file (s : RustFiles) (path : CStr) : RustFiles :=
  match s.syscall_file_find path with
  | none => s
  | some f =>
    { s with files := set s.files f { s.files f with path := [] } }.syscall_file_maybe_gc
      (.ofNat f.val)

section
variable (env : Env) (s : RustFiles)
def op_unlink (a0 : UInt64) : Outcome :=
  if a0 == 0 then .fail s
  else
    match env.str a0 with
    | none => .fail s
    | some path =>
      if Vfs.qos_vfs_fs_kind path = some .procfs then .fail s
      else
        let r := s.vfs.qos_vfs_remove path
        if r.1 ≠ 0 then .fail { s with vfs := r.2 }
        else .ret ({ s with vfs := r.2 }.unlink_file path) 0

/-! ### Reading and writing -/
def read_proc (i : FdNum) (addr : UInt64) (len : Nat) :
    Outcome :=
  let row := s.fds i
  let offset := row.offset.toNat
  let total := env.proc_total row.proc_kind row.proc_pid
  let copy_len := min len (total - offset)
  if total ≤ offset then .ret s 0
  else if copy_len = 0 then .ret s 0
  else
    ⟨copy_len, [(addr, (List.range copy_len).map fun k =>
      env.proc_byte row.proc_kind row.proc_pid (offset + k))], s.setOffset i (offset + copy_len)⟩
end
def read_file (s : RustFiles) (i : FdNum) (addr : UInt64) (len : Nat) : Outcome :=
  match s.fileAt (s.fds i).file_id with
  | none => .fail s
  | some f =>
    let offset := (s.fds i).offset.toNat
    let copy_len := min len ((s.files f).len - offset)
    if (s.files f).len ≤ offset then .ret s 0
    else if copy_len = 0 then .ret s 0
    else
      ⟨copy_len, [(addr, (List.range copy_len).map fun k => (s.files f).data (offset + k))],
        s.setOffset i (offset + copy_len)⟩

section
variable (env : Env) (s : RustFiles)
def write_file (i : FdNum) (addr : UInt64) (len : Nat) :
    Outcome :=
  match s.fileAt (s.fds i).file_id with
  | none => .fail s
  | some f =>
    let file := s.files f
    let offset := (s.fds i).offset.toNat
    let write_len := min len (QOS_PIPE_CAP - offset)
    if QOS_PIPE_CAP ≤ offset then .fail s
    else if write_len = 0 then .ret s 0
    else
      let src := env.bytes addr write_len
      let file' : File := { file with
        len := if file.len < offset + write_len then offset + write_len else file.len
        data := (Patch.mk offset src).apply file.data }
      .ret ({ s with files := set s.files f file' }.setOffset i (offset + write_len)) write_len

variable (a0 a1 a2 : UInt64)
/-- Pipes and sockets are read and written in tables that are not here. -/
def op_read : Outcome :=
  match s.fdAt a0.toUInt32 with
  | none => .fail s
  | some i =>
    if a1 == 0 then .fail s
    else
      match (s.fds i).kind with
      | .proc => s.read_proc env i a1 a2.toNat
      | .vfs => s.read_file i a1 a2.toNat
      | .pipeR | .socket => ⟨env.channel.1, [(a1, env.channel.2)], s⟩
      | .pipeW | .none => .fail s

def op_write : Outcome :=
  match s.fdAt a0.toUInt32 with
  | none => .fail s
  | some i =>
    if a1 == 0 then .fail s
    else
      match (s.fds i).kind with
      | .vfs => s.write_file env i a1 a2.toNat
      | .pipeW | .socket => .ret s env.channel.1
      | .proc | .pipeR | .none => .fail s
end
/-! ### Offsets and descriptors -/
/-- `i64::checked_add`. -/
def checked_add (a b : Int) : Option Int :=
  if KState.INT64_MIN ≤ a + b ∧ a + b ≤ KState.INT64_MAX then some (a + b) else none

section
variable (env : Env) (s : RustFiles)
def seek_base (i : FdNum) (whence : UInt32) : Option Int :=
  if whence == 0 then some 0
  else if whence == 1 then some (s.fds i).offset.toInt64.toInt
  else if whence == 2 then
    if (s.fds i).kind == .proc then some (env.proc_total (s.fds i).proc_kind (s.fds i).proc_pid)
    else (s.fileAt (s.fds i).file_id).map fun f => (s.files f).len
  else none

def op_lseek (a0 a1 a2 : UInt64) : Outcome :=
  match s.fdAt a0.toUInt32 with
  | none => .fail s
  | some i =>
    if (s.fds i).kind ≠ .vfs ∧ (s.fds i).kind ≠ .proc then .fail s
    else
      match (s.seek_base env i a2.toUInt32).bind (checked_add · a1.toInt64.toInt) with
      | none => .fail s
      | some next => if next < 0 then .fail s else .ret (s.setOffset i next.toNat) next
end
variable (s : RustFiles)
def op_close (a0 : UInt64) : Outcome :=
  match s.fdAt a0.toUInt32 with
  | none => .fail s
  | some i => .ret (s.syscall_fd_clear i) 0

/-- The row is copied after `newfd` is closed. -/
def op_dup2 (a0 a1 : UInt64) : Outcome :=
  match s.fdAt a0.toUInt32 with
  | none => .fail s
  | some old =>
    if h : a1.toUInt32.toNat < QOS_FD_MAX then
      let new : FdNum := ⟨a1.toUInt32.toNat, h⟩
      if old = new then .ret s new.val
      else
        let s1 := s.syscall_fd_clear new
        .ret (s1.setFd new { s1.fds old with used := true }) new.val
    else .fail s

/-! ### Runs -/
end RustFiles
inductive FileOp where
  | mkdir | unlink | open | read | write | lseek | dup2 | close
  deriving DecidableEq

structure FileCall where
  env : RustFiles.Env
  op : FileOp
  a0 : UInt64
  a1 : UInt64
  a2 : UInt64

namespace RustFiles
/-- The branches of `syscall_dispatch`; `none` is a panic. -/
def dispatch (s : RustFiles) (c : FileCall) : Option Outcome :=
  match c.op with
  | .mkdir => some (s.op_mkdir c.env c.a0)
  | .unlink => some (s.op_unlink c.env c.a0)
  | .open => s.op_open c.env c.a0
  | .read => some (s.op_read c.env c.a0 c.a1 c.a2)
  | .write => some (s.op_write c.env c.a0 c.a1 c.a2)
  | .lseek => some (s.op_lseek c.env c.a0 c.a1 c.a2)
  | .dup2 => some (s.op_dup2 c.a0 c.a1)
  | .close => some (s.op_close c.a0)
end RustFiles
end QosKernel
