import QosKernel.Syscall.CSockets

/-! # The C system calls on files, pipes and descriptors

The other branches of `qos_syscall_dispatch` that work on the descriptor
table.
-/
open Framework
namespace QosKernel.KState
/-! ### Opening and closing -/
def syscall_op_open (env : Env) (s : KState) (a0 : UInt64) : Outcome :=
  let path := env.str a0
  if a0 == 0 then .fail s
  else if s.vfs.qos_vfs_exists path then
    match s.fd_alloc .vfs with
    | none => .fail s
    | some (i, s1) =>
      match s1.file_ensure path with
      | none => .fail (s1.fd_clear i)
      | some (f, s2) => .ret (s2.setFd i { s2.fds i with file_id := UInt16.ofNat f.val }) i.val
  else
    match proc_path_kind path with
    | none => .fail s
    | some (proc_kind, proc_pid) =>
      if proc_kind == .status && !env.proc_alive proc_pid then .fail s
      else
        match s.fd_alloc .proc with
        | none => .fail s
        | some (i, s1) =>
          .ret (s1.setFd i { s1.fds i with proc_kind := proc_kind, proc_pid := proc_pid }) i.val

section
variable (s : KState)
def syscall_op_close (a0 : UInt64) : Outcome :=
  match s.openFd a0.toUInt32 with
  | none => .fail s
  | some i => .ret (s.fd_clear i) 0

/-- The row that is copied is the one before `newfd` is closed: closing
`newfd` does not change it. -/
def syscall_op_dup2 (a0 a1 : UInt64) : Outcome :=
  match s.openFd a0.toUInt32 with
  | none => .fail s
  | some old =>
    if h : a1.toUInt32.toNat < QOS_FD_MAX then
      let new : FdNum := ⟨a1.toUInt32.toNat, h⟩
      if old = new then .ret s new.val
      else
        let s1 := if (s.fds new).used then s.fd_clear new else s
        .ret (s1.setFd new { s1.fds old with used := true }) new.val
    else .fail s

def syscall_op_pipe (a0 : UInt64) : Outcome :=
  if a0 == 0 then .fail s
  else
    match s.pipe_alloc with
    | none => .fail s
    | some (p, s1) =>
      let unused (t : KState) : KState :=
        { t with pipes := set t.pipes p { t.pipes p with used := false } }
      match s1.fd_alloc .pipeR with
      | none => .fail (unused s1)
      | some (rfd, s2) =>
        match s2.fd_alloc .pipeW with
        | none => .fail (unused (s2.fd_clear rfd))
        | some (wfd, s3) =>
          let s4 := s3.setFd rfd { s3.fds rfd with pipe_id := UInt16.ofNat p.val }
          let s5 := s4.setFd wfd { s4.fds wfd with pipe_id := UInt16.ofNat p.val }
          ⟨0, [(a0, leBytes 4 (.ofNat rfd.val) ++ leBytes 4 (.ofNat wfd.val))], s5⟩
end
/-! ### Reading and writing -/
def read_proc (env : Env) (s : KState) (i : FdNum) (addr : UInt64) (len : Nat) : Outcome :=
  let offset := (s.fds i).pos
  let text := proc_fd_render env s (s.fds i)
  let copy_len := min (text.length - offset) len
  if text.length ≤ offset then .ret s 0
  else if copy_len = 0 then .ret s 0
  else
    ⟨copy_len, [(addr, (List.range copy_len).map fun k => proc_text_byte env text (offset + k))],
      s.setFd i { s.fds i with offset := .ofNat (offset + copy_len) }⟩

def read_file (s : KState) (i : FdNum) (addr : UInt64) (len : Nat) : Outcome :=
  match s.openFile (s.fds i).file_id with
  | none => .fail s
  | some f =>
    let offset := (s.fds i).pos
    let copy_len := min len ((s.files f).len - offset)
    if (s.files f).len ≤ offset then .ret s 0
    else if copy_len = 0 then .ret s 0
    else
      ⟨copy_len, [(addr, (List.range copy_len).map fun k => (s.files f).data (offset + k))],
        s.setFd i { s.fds i with offset := .ofNat (offset + copy_len) }⟩

def write_file (env : Env) (s : KState) (i : FdNum) (addr : UInt64) (len : Nat) :
    Outcome :=
  match s.openFile (s.fds i).file_id with
  | none => .fail s
  | some f =>
    let file := s.files f
    let offset := (s.fds i).pos
    let write_len := min len (QOS_PIPE_CAP - offset)
    if QOS_PIPE_CAP ≤ offset then .fail s
    else if write_len = 0 then .ret s 0
    else
      let file' : File := { file with
        len := max file.len (offset + write_len)
        data := fun k =>
          if offset ≤ k ∧ k < offset + write_len then env.byte (addr + .ofNat (k - offset))
          else file.data k }
      .ret ({ s with files := set s.files f file' }.setFd i
        { s.fds i with offset := .ofNat (offset + write_len) }) write_len

section
variable (s : KState) (i : FdNum)
def read_pipe (addr : UInt64) (len : Nat) : Outcome :=
  match s.openPipe (s.fds i).pipe_id with
  | none => .fail s
  | some p =>
    let buf := (s.pipes p).buf
    let copy_len := min buf.length len
    if buf.isEmpty then .fail s
    else if copy_len = 0 then .ret s 0
    else
      ⟨copy_len, [(addr, buf.take copy_len)],
        { s with pipes := set s.pipes p { s.pipes p with buf := buf.drop copy_len } }⟩

/-- A write that does not fit as a whole fails. -/
def write_pipe (data : List UInt8) : Outcome :=
  match s.openPipe (s.fds i).pipe_id with
  | none => .fail s
  | some p =>
    let buf := (s.pipes p).buf
    if QOS_PIPE_CAP - buf.length < data.length then .fail s
    else
      .ret { s with pipes := set s.pipes p { s.pipes p with buf := buf ++ data } } data.length
end
section
variable (env : Env) (s : KState) (a0 a1 a2 : UInt64)
def syscall_op_read : Outcome :=
  match s.openFd a0.toUInt32 with
  | none => .fail s
  | some i =>
    let len := a2.toUInt32.toNat
    if a1 == 0 then .fail s
    else
      match (s.fds i).kind with
      | .proc => s.read_proc env i a1 len
      | .vfs => s.read_file i a1 len
      | .pipeR => s.read_pipe i a1 len
      | .socket => s.read_socket i a1 len
      | .pipeW | .none => .fail s

def syscall_op_write : Outcome :=
  match s.openFd a0.toUInt32 with
  | none => .fail s
  | some i =>
    let len := a2.toUInt32.toNat
    if a1 == 0 then .fail s
    else
      match (s.fds i).kind with
      | .vfs => s.write_file env i a1 len
      | .pipeW => s.write_pipe i (env.bytes a1 len)
      | .socket => s.write_socket i (env.bytes a1 len)
      | .proc | .pipeR | .none => .fail s
end
/-! ### Offsets -/
def INT64_MAX : Int := 9223372036854775807
def INT64_MIN : Int := -9223372036854775808

section
variable (env : Env) (s : KState)
/-- The position that an offset of `LSEEK` counts from. -/
def seek_base (i : FdNum) (whence : UInt32) : Option Int :=
  if whence == 0 then some 0
  else if whence == 1 then some (s.fds i).offset.toInt64.toInt
  else if whence == 2 then
    if (s.fds i).kind == .proc then some (proc_fd_render env s (s.fds i)).length
    else
      match s.openFile (s.fds i).file_id with
      | none => none
      | some f => some (s.files f).len
  else none

def syscall_op_lseek (a0 a1 a2 : UInt64) : Outcome :=
  match s.openFd a0.toUInt32 with
  | none => .fail s
  | some i =>
    let offset := a1.toInt64.toInt
    if (s.fds i).kind ≠ .vfs ∧ (s.fds i).kind ≠ .proc then .fail s
    else
      match s.seek_base env i a2.toUInt32 with
      | none => .fail s
      | some base =>
        if (0 < offset ∧ INT64_MAX - offset < base) ∨ (offset < 0 ∧ base < INT64_MIN - offset) then
          .fail s
        else if base + offset < 0 then .fail s
        else
          .ret (s.setFd i { s.fds i with offset := .ofNat (base + offset).toNat }) (base + offset)
end
/-! ### Paths -/
def syscall_op_getdents (s : KState) (a0 a1 a2 : UInt64) : Outcome :=
  match s.openFd a0.toUInt32 with
  | none => .fail s
  | some i =>
    if (s.fds i).kind ≠ .vfs ∨ a1 = 0 then .fail s
    else if a2 < 4 then .fail s
    else ⟨s.vfs.count.toNat, [(a1, leBytes 4 s.vfs.count.toUInt64)], s⟩

variable (env : Env) (s : KState)
def syscall_op_stat (a0 a1 : UInt64) : Outcome :=
  let path := env.str a0
  let found (type : UInt64) : Outcome :=
    ⟨0, if a1 == 0 then [] else [(a1, leBytes 8 (.ofNat path.length) ++ leBytes 8 type)], s⟩
  if a0 == 0 then .fail s
  else if s.vfs.qos_vfs_exists path then found 1
  else
    match proc_path_kind path with
    | none => .fail s
    | some (proc_kind, proc_pid) =>
      if proc_kind == .status && !env.proc_alive proc_pid then .fail s else found 2

variable (a0 : UInt64)
def syscall_op_mkdir : Outcome :=
  let path := env.str a0
  if a0 == 0 then .fail s
  else if Vfs.qos_vfs_fs_kind path = some .procfs then .fail s
  else
    let r := s.vfs.qos_vfs_create path
    .ret { s with vfs := r.2 } (if r.1 = 0 then 0 else -1)

def syscall_op_unlink : Outcome :=
  let path := env.str a0
  if a0 == 0 then .fail s
  else if Vfs.qos_vfs_fs_kind path = some .procfs then .fail s
  else
    let r := s.vfs.qos_vfs_remove path
    if r.1 ≠ 0 then .fail { s with vfs := r.2 }
    else .ret ({ s with vfs := r.2 }.file_unlink_path path) 0
end QosKernel.KState
