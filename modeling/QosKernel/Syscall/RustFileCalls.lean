import QosKernel.Syscall.RustSockets

/-! # The Rust system calls on files, pipes and descriptors

The other branches of `syscall_dispatch` that work on the descriptor table.
What `OPEN` and `STAT` ask the process table is the argument `alive`; the
texts below `/proc` are not here.
-/
open Framework Framework.Checked
namespace QosKernel.RustCalls
open RustKernel (UserMem)
/-! ### Opening and closing -/
def open_file (s : KState) (path : CStr) : Checked Outcome :=
  match s.fd_alloc .vfs with
  | none => return .fail s
  | some (i, s1) => do
    match ← syscall_file_ensure s1 path with
    | none => return .fail (← syscall_fd_clear s1 i)
    | some (f, s2) => return .ret (s2.setFd i { s2.fds i with file_id := UInt16.ofNat f.val }) i.val

def open_proc (alive : UInt32 → Bool) (s : KState) (path : CStr) : Checked Outcome := do
  match ← syscall_proc_path_kind path with
  | none => return .fail s
  | some (proc_kind, proc_pid) =>
    if proc_kind == .status && !alive proc_pid then return .fail s
    else
      match s.fd_alloc .proc with
      | none => return .fail s
      | some (i, s1) =>
        return .ret (s1.setFd i { s1.fds i with proc_kind := proc_kind, proc_pid := proc_pid })
          i.val

def op_open (mem : UserMem) (alive : UInt32 → Bool) (s : KState) (a0 : UInt64) : Checked Outcome :=
  if a0 == 0 then return .fail s
  else
    match mem.str a0 with
    | none => return .fail s
    | some path => do
      if ← vfs_exists s.vfs path then open_file s path else open_proc alive s path

section
variable (s : KState)
def op_close (a0 : UInt64) : Checked Outcome :=
  match s.openFd a0.toUInt32 with
  | none => return .fail s
  | some i => do return .ret (← syscall_fd_clear s i) 0

def op_dup2 (a0 a1 : UInt64) : Checked Outcome :=
  match s.openFd a0.toUInt32 with
  | none => return .fail s
  | some old =>
    if h : a1.toUInt32.toNat < QOS_FD_MAX then
      let new : FdNum := ⟨a1.toUInt32.toNat, h⟩
      if old = new then return .ret s new.val
      else do
        let s1 ← if (s.fds new).used then syscall_fd_clear s new else pure s
        return .ret (s1.setFd new { s1.fds old with used := true }) new.val
    else return .fail s

def op_pipe (a0 : UInt64) : Checked Outcome :=
  if a0 == 0 then return .fail s
  else
    match s.pipe_alloc with
    | none => return .fail s
    | some (p, s1) =>
      let unused (t : KState) : KState :=
        { t with pipes := set t.pipes p { t.pipes p with used := false } }
      match s1.fd_alloc .pipeR with
      | none => return .fail (unused s1)
      | some (rfd, s2) =>
        match s2.fd_alloc .pipeW with
        | none => do return .fail (unused (← syscall_fd_clear s2 rfd))
        | some (wfd, s3) =>
          let s4 := s3.setFd rfd { s3.fds rfd with pipe_id := UInt16.ofNat p.val }
          let s5 := s4.setFd wfd { s4.fds wfd with pipe_id := UInt16.ofNat p.val }
          return ⟨0, [(a0, leBytes 4 (.ofNat rfd.val) ++ leBytes 4 (.ofNat wfd.val))], s5⟩

/-! ### Reading and writing -/
/-- Offsets are used with all their 64 bits. -/
def read_file (i : FdNum) (addr : UInt64) (len : Nat) : Outcome :=
  match s.openFile (s.fds i).file_id with
  | none => .fail s
  | some f =>
    let offset := (s.fds i).offset.toNat
    let copy_len := min len ((s.files f).len - offset)
    if (s.files f).len ≤ offset then .ret s 0
    else if copy_len = 0 then .ret s 0
    else
      ⟨copy_len, [(addr, (List.range copy_len).map fun k => (s.files f).data (offset + k))],
        s.setFd i { s.fds i with offset := .ofNat (offset + copy_len) }⟩
end
def write_file (mem : UserMem) (s : KState) (i : FdNum) (addr : UInt64) (len : Nat) :
    Checked Outcome :=
  match s.openFile (s.fds i).file_id with
  | none => return .fail s
  | some f =>
    let file := s.files f
    let offset := (s.fds i).offset.toNat
    let write_len := min len (QOS_PIPE_CAP - offset)
    if QOS_PIPE_CAP ≤ offset then return .fail s
    else if write_len = 0 then return .ret s 0
    else do
      slice offset (offset + write_len) QOS_PIPE_CAP
      let file' : File := { file with
        len := if file.len < offset + write_len then offset + write_len else file.len
        data := fun k =>
          if offset ≤ k ∧ k < offset + write_len then mem.byte (addr + .ofNat (k - offset))
          else file.data k }
      return .ret ({ s with files := set s.files f file' }.setFd i
        { s.fds i with offset := .ofNat (offset + write_len) }) write_len

section
variable (s : KState) (i : FdNum)
/-- The slice is the loop that moves the rest to the front. -/
def read_pipe (addr : UInt64) (len : Nat) : Checked Outcome :=
  match s.openPipe (s.fds i).pipe_id with
  | none => return .fail s
  | some p =>
    let pipe_len := (s.pipes p).buf.length
    let copy_len := min pipe_len len
    if pipe_len = 0 then return .fail s
    else if copy_len = 0 then return .ret s 0
    else do
      slice copy_len pipe_len QOS_PIPE_CAP
      return s.read_pipe i addr len

def write_pipe (data : List UInt8) : Checked Outcome :=
  match s.openPipe (s.fds i).pipe_id with
  | none => return .fail s
  | some p =>
    let start := (s.pipes p).buf.length
    if QOS_PIPE_CAP - start < data.length then return .fail s
    else do
      slice start (start + data.length) QOS_PIPE_CAP
      return s.write_pipe i data

/-- `READ` behind the check of its arguments, except for texts below `/proc`. -/
def read_data (addr : UInt64) (len : Nat) : Checked Outcome :=
  match (s.fds i).kind with
  | .vfs => return read_file s i addr len
  | .pipeR => read_pipe s i addr len
  | .socket => read_socket s i addr len
  | .proc | .pipeW | .none => return .fail s
end
def op_write (mem : UserMem) (s : KState) (a0 a1 a2 : UInt64) : Checked Outcome :=
  match s.openFd a0.toUInt32 with
  | none => return .fail s
  | some i =>
    let len := a2.toNat
    if a1 == 0 then return .fail s
    else
      match (s.fds i).kind with
      | .vfs => write_file mem s i a1 len
      | .pipeW => write_pipe s i (mem.bytes a1 len)
      | .socket => return write_socket s i (mem.bytes a1 len)
      | .proc | .pipeR | .none => return .fail s

/-! ### Offsets -/
section
variable (s : KState)
/-- The base of an `LSEEK` in a file. -/
def seek_base (i : FdNum) (whence : UInt32) : Option Int :=
  if whence == 0 then some 0
  else if whence == 1 then some (s.fds i).offset.toInt64.toInt
  else if whence == 2 then (s.openFile (s.fds i).file_id).map fun f => (s.files f).len
  else none

/-- The end of `LSEEK`. -/
def seek_to (i : FdNum) (base : Option Int) (offset : Int) : Outcome :=
  match base.bind (RustFiles.checked_add · offset) with
  | none => .fail s
  | some next =>
    if next < 0 then .fail s
    else .ret (s.setFd i { s.fds i with offset := .ofNat next.toNat }) next

/-! ### Paths -/
def op_getdents (a0 a1 a2 : UInt64) : Outcome :=
  match s.openFd a0.toUInt32 with
  | none => .fail s
  | some i =>
    if (s.fds i).kind ≠ .vfs ∨ a1 = 0 then .fail s
    else if a2 < 4 then .fail s
    else ⟨s.vfs.count.toNat, [(a1, leBytes 4 s.vfs.count.toUInt64)], s⟩

def stat_found (path : CStr) (a1 kind : UInt64) : Outcome :=
  ⟨0, if a1 == 0 then [] else [(a1, leBytes 8 (.ofNat path.length) ++ leBytes 8 kind)], s⟩
end
variable (mem : UserMem)
def op_stat (alive : UInt32 → Bool) (s : KState) (a0 a1 : UInt64) :
    Checked Outcome :=
  if a0 == 0 then return .fail s
  else
    match mem.str a0 with
    | none => return .fail s
    | some path => do
      if ← vfs_exists s.vfs path then return stat_found s path a1 1
      else
        match ← syscall_proc_path_kind path with
        | none => return .fail s
        | some (proc_kind, proc_pid) =>
          if proc_kind == .status && !alive proc_pid then return .fail s
          else return stat_found s path a1 2

variable (s : KState) (a0 : UInt64)
def op_mkdir : Checked Outcome :=
  if a0 == 0 then return .fail s
  else
    match mem.str a0 with
    | none => return .fail s
    | some path =>
      if Vfs.qos_vfs_fs_kind path = some .procfs then return .fail s
      else do
        let r ← vfs_create s.vfs path
        return .ret { s with vfs := r.2 } (if r.1 then 0 else -1)

def op_unlink : Checked Outcome :=
  if a0 == 0 then return .fail s
  else
    match mem.str a0 with
    | none => return .fail s
    | some path =>
      if Vfs.qos_vfs_fs_kind path = some .procfs then return .fail s
      else do
        let r ← vfs_remove s.vfs path
        if !r.1 then return .fail s
        else return .ret (← unlink_file { s with vfs := r.2 } path) 0

/-! ### The part that files live in

`RustFiles` keeps that part of the tables alone. A file is read there, and the
base of an `LSEEK` found, as it is here. -/
section files
variable (s : KState) (i : FdNum)
def fileRow (fd : Fd) : RustFiles.FdRow :=
  ⟨fd.used, fd.kind, fd.offset, fd.file_id, fd.proc_kind, fd.proc_pid⟩

def filesOf : RustFiles := ⟨s.vfs, fun i => fileRow (s.fds i), s.files⟩
def filesOut (o : Outcome) : RustFiles.Outcome := ⟨o.rc, o.out, filesOf o.state⟩

theorem filesOf_setFd (fd : Fd) : filesOf (s.setFd i fd) = (filesOf s).setFd i (fileRow fd) :=
  congrArg (RustFiles.mk s.vfs · s.files) (set_comp fileRow)

theorem read_file_files (addr : UInt64) (len : Nat) :
    filesOut (read_file s i addr len) = (filesOf s).read_file i addr len := by
  have hf : (filesOf s).fileAt ((filesOf s).fds i).file_id = s.openFile (s.fds i).file_id := rfl
  unfold read_file RustFiles.read_file
  rw [hf]
  cases s.openFile (s.fds i).file_id with
  | none => rfl
  | some f =>
  dsimp only
  rw [apply_ite filesOut, apply_ite filesOut]
  refine if_congr Iff.rfl rfl (if_congr Iff.rfl rfl ?_)
  exact congrArg (RustFiles.Outcome.mk _ _) (filesOf_setFd s i _)

theorem seek_base_files (env : RustFiles.Env) (whence : UInt32) (hk : (s.fds i).kind ≠ .proc) :
    seek_base s i whence = (filesOf s).seek_base env i whence := by
  have hk : (((filesOf s).fds i).kind == .proc) = false := beq_eq_false_iff_ne.mpr hk
  unfold seek_base RustFiles.seek_base
  rw [hk]
  rfl
end files
end QosKernel.RustCalls
