import QosKernel.Framework.Trap
import QosKernel.Locks.Operations
import QosKernel.Syscall.RustFiles

/-! # The tables behind the Rust system calls

`rust-os/kernel/src/lib.rs` keeps the same tables for its system calls as
the C kernel, and many of its functions on them do the same: these are
taken from there. This module has the functions that are written
differently. A function here ends in a trap where the Rust code panics.

Buffers are kept as the bytes in use, so a buffer that is read behind its
end shows as a slice that is checked against the size of the buffer.
-/
open Framework Framework.Checked
namespace QosKernel.RustCalls
/-! ### Paths -/
/-- The comparison of a stored path with another one: first the lengths, then
a slice of the stored bytes. -/
def samePath (stored path : CStr) : Checked Bool :=
  if stored.length = path.length then do
    slice 0 path.length QOS_VFS_PATH_MAX
    return stored == path
  else return false

/-- A search for a path; rows without one are passed over. -/
def findPath {n : Nat} (rows : Fin n → Option CStr) (path : CStr) : Checked (Option (Fin n)) :=
  find (fun i =>
    match rows i with
    | none => .ok false
    | some stored => samePath stored path) (List.finRange n)

section
variable (vfs : Vfs) (path : CStr)
def vfs_find : Checked (Option NodeSlot) :=
  findPath vfs.nodes path

def vfs_exists : Checked Bool :=
  if !Vfs.path_valid path then return false
  else do return (← vfs_find vfs path).isSome

def vfs_create : Checked (Bool × Vfs) :=
  if !Vfs.path_valid path then return (false, vfs)
  else do
    if (← vfs_find vfs path).isSome then return (false, vfs)
    else
      match first fun i => (vfs.nodes i).isNone with
      | none => return (false, vfs)
      | some slot => do
        ensure (vfs.count.toNat + 1 < 2 ^ 32) .overflow
        return (true, ⟨set vfs.nodes slot (some path), vfs.count + 1⟩)

def vfs_remove : Checked (Bool × Vfs) :=
  if !Vfs.path_valid path then return (false, vfs)
  else do
    match ← vfs_find vfs path with
    | none => return (false, vfs)
    | some idx => do
      ensure (1 ≤ vfs.count.toNat) .overflow
      return (true, ⟨set vfs.nodes idx none, vfs.count - 1⟩)
end
def syscall_proc_path_kind (path : CStr) : Checked (Option (ProcKind × UInt32)) :=
  match RustFiles.procPathKind path with
  | none => .error .bounds
  | some kind => .ok kind

/-! ### Files -/
def filePath (file : File) : Option CStr := if file.used then some file.path else none

section
variable (s : KState) (path : CStr)
def syscall_file_find : Checked (Option FileSlot) :=
  findPath (fun f => filePath (s.files f)) path

def syscall_file_alloc : Checked (Option (FileSlot × KState)) :=
  match first fun f => !(s.files f).used with
  | none => return none
  | some f => do
    slice 0 path.length QOS_VFS_PATH_MAX
    return some (f, { s with files := set s.files f (.new path) })

def syscall_file_ensure :
    Checked (Option (FileSlot × KState)) := do
  match ← syscall_file_find s path with
  | some f => return some (f, s)
  | none => syscall_file_alloc s path

/-- The end of `UNLINK`: the file loses its name, and goes if it is not open. -/
def unlink_file : Checked KState := do
  match ← syscall_file_find s path with
  | none => return s
  | some f =>
    return { s with files := set s.files f { s.files f with path := [] } }.releaseFile (.ofNat f.val)
end
/-! ### Ports -/
def net_udp_unbind (udp : Udp) (port : UInt16) : Checked Udp :=
  match RustUdp.net_udp_unbind udp port with
  | (false, _) => return udp
  | (true, udp') => do
    -- the loops that drop the datagrams of the port
    ensure (udp.udp_count ≤ QOS_NET_UDP_MAX_DATAGRAMS) .bounds
    return udp'

def net_tcp_unlisten (net : Net) (port : UInt16) : Net :=
  if port < QOS_NET_PORT_MIN_DYNAMIC then net else (net.qos_net_tcp_unlisten port).2

/-! ### Closing a descriptor -/
variable (s : KState)
def releaseListener (fd : Fd) : KState :=
  if fd.kind == .socket && fd.sock_type == .stream && fd.sock_listening &&
      !s.socket_listener_in_use fd.sock_lport then
    { s with net := net_tcp_unlisten s.net fd.sock_lport }
  else s

def releasePort (fd : Fd) : Checked KState :=
  if fd.kind == .socket && fd.sock_bound && !s.socket_port_in_use fd.sock_lport fd.sock_type then
    if fd.sock_type == .dgram then do
      let udp ← net_udp_unbind s.net.udp fd.sock_lport
      return { s with net := { s.net with udp := udp } }.socket_port_unmark fd.sock_type
        fd.sock_lport
    else return s.socket_port_unmark fd.sock_type fd.sock_lport
  else return s

/-- `syscall_fd_clear` of an open descriptor. -/
def syscall_fd_clear (i : FdNum) : Checked KState :=
  let fd := s.fds i
  let s1 := ((s.setFd i .closed).releasePipe fd.pipe_id).releaseFile fd.file_id
  releasePort (releaseListener s1 fd) fd
end QosKernel.RustCalls
