import QosKernel.Fs.CVfs
import QosKernel.Net.CNet

/-! # The tables behind the C system calls

The descriptors, files, pipes and port bitmaps of
`c-os/kernel/syscall/syscall.c`, and the functions that allocate and
release them. Ownership is never counted: whether a file, a pipe or a
port has users is found out by a scan over the descriptors.
-/
open Framework
namespace QosKernel
def QOS_SYSCALL_MAX : Nat := 128
def QOS_FD_MAX : Nat := 256
/-- A row of the descriptor table. -/
abbrev FdNum := Fin QOS_FD_MAX
def QOS_PIPE_MAX : Nat := 32
abbrev PipeSlot := Fin QOS_PIPE_MAX
def QOS_PIPE_CAP : Nat := 1024
def QOS_FILE_MAX : Nat := 128
abbrev FileSlot := Fin QOS_FILE_MAX
def QOS_FILE_PATH_MAX : Nat := 128
def QOS_SOCK_PORT_MIN : UInt16 := 1024
def QOS_SOCK_PENDING_MAX : Nat := 16

inductive FdKind where
  | none | vfs | socket | pipeR | pipeW | proc
  deriving DecidableEq

inductive SockType where
  | none | stream | dgram | raw
  deriving DecidableEq

inductive ProcKind where
  | none | meminfo | status | kernelStatus | netDev | syscalls | uptime | runtimeMap
  deriving DecidableEq

/-- A connection that waits to be accepted: the peer and the connection id. -/
structure PendingConn where
  rport : UInt16
  rip : UInt32
  conn_id : Int
  deriving DecidableEq

def PendingConn.zero : PendingConn := ⟨0, 0, -1⟩

/-- One row of the `g_fd_` arrays. -/
structure Fd where
  used : Bool
  kind : FdKind
  sock_bound : Bool
  sock_listening : Bool
  sock_connected : Bool
  /-- At most the capacity of the queue: `LISTEN` cuts it off. -/
  sock_backlog : Fin (QOS_SOCK_PENDING_MAX + 1)
  sock_type : SockType
  sock_lport : UInt16
  sock_rport : UInt16
  sock_rip : UInt32
  sock_conn_id : Int
  /-- The first `stream_len` bytes of the stream buffer. -/
  sock_stream : List UInt8
  /-- The first `raw_len` bytes of the raw buffer. -/
  sock_raw : List UInt8
  sock_raw_src_ip : UInt32
  /-- The peer that was accepted last. -/
  sock_accepted : PendingConn
  /-- The queue with its head, its tail and its length. -/
  sock_pending : Ring PendingConn QOS_SOCK_PENDING_MAX
  pipe_id : UInt16
  offset : UInt64
  file_id : UInt16
  proc_kind : ProcKind
  proc_pid : UInt32

/-- A row as `fd_alloc` leaves it. -/
def Fd.fresh (kind : FdKind) : Fd where
  used := true
  kind := kind
  sock_bound := false
  sock_listening := false
  sock_connected := false
  sock_backlog := ⟨0, by decide⟩
  sock_type := .none
  sock_lport := 0
  sock_rport := 0
  sock_rip := 0
  sock_conn_id := -1
  sock_stream := []
  sock_raw := []
  sock_raw_src_ip := 0
  sock_accepted := .zero
  sock_pending := .empty (by decide) .zero
  pipe_id := 0
  offset := 0
  file_id := 0xFFFF
  proc_kind := .none
  proc_pid := 0

/-- A row as `fd_clear` leaves it. -/
def Fd.closed : Fd := { Fd.fresh .none with used := false }

/-- The row of a socket that holds `port`. -/
def Fd.boundTo (fd : Fd) (port : UInt16) : Fd := { fd with sock_bound := true, sock_lport := port }

/-- The row of a socket that is connected to a peer. -/
def Fd.connectedTo (fd : Fd) (remote_port : UInt16) (remote_ip : UInt32) : Fd :=
  { fd with sock_connected := true, sock_rport := remote_port, sock_rip := remote_ip }

/-- Offsets are 64 bits wide, but `READ` and `WRITE` use the lower 32. -/
def Fd.pos (fd : Fd) : Nat := fd.offset.toUInt32.toNat

structure File where
  used : Bool
  path : CStr
  len : Nat
  data : Nat → UInt8

def File.empty : File := ⟨false, [], 0, fun _ => 0⟩
def File.new (path : CStr) : File := ⟨true, path, 0, fun _ => 0⟩

structure Pipe where
  used : Bool
  /-- The first `pipe_len` bytes of the buffer. -/
  buf : List UInt8

def Pipe.empty : Pipe := ⟨false, []⟩

/-- The operations a system call number can be registered with. -/
inductive SyscallOp where
  | const | add | query | kill | sigpending | sigaction | sigprocmask | sigaltstack
  | sigsuspend | fork | exec | sigreturn | exit | getpid | waitpid | stat | mkdir | unlink
  | chdir | getcwd | open | read | write | close | dup2 | mmap | munmap | yield | sleep
  | socket | bind | listen | accept | connect | send | recv | getdents | lseek | pipe
  | dlopen | dlclose | dlsym | modload | modunload | modreload
  deriving DecidableEq

/-- The state that the system calls on descriptors work on. -/
structure KState where
  /-- The registered numbers with their operation and value. -/
  calls : Fin QOS_SYSCALL_MAX → Option (SyscallOp × Int)
  count : UInt32
  fds : FdNum → Fd
  files : FileSlot → File
  pipes : PipeSlot → Pipe
  /-- The bitmaps of used ports, bit by bit. -/
  stream_ports : UInt16 → Bool
  dgram_ports : UInt16 → Bool
  vfs : Vfs
  net : Net

namespace KState
/-- The state after a reset, with the paths the VFS then holds. -/
def reset (vfs : Vfs) : KState where
  calls _ := none
  count := 0
  fds _ := .closed
  files _ := .empty
  pipes _ := .empty
  stream_ports _ := false
  dgram_ports _ := false
  vfs := vfs
  net := .reset

/-! ### Ports -/
section
variable (s : KState) (sock_type : SockType) (port : UInt16)
/-- `socket_port_mark`: `none` is the return value -1. -/
def socket_port_mark : Option KState :=
  match sock_type with
  | .stream =>
    if port < QOS_SOCK_PORT_MIN || s.stream_ports port then none
    else some { s with stream_ports := fun p => p == port || s.stream_ports p }
  | .dgram =>
    if port < QOS_SOCK_PORT_MIN || s.dgram_ports port then none
    else some { s with dgram_ports := fun p => p == port || s.dgram_ports p }
  | .raw | .none => none

def socket_port_unmark : KState :=
  if port < QOS_SOCK_PORT_MIN then s
  else
    match sock_type with
    | .stream => { s with stream_ports := fun p => p != port && s.stream_ports p }
    | .dgram => { s with dgram_ports := fun p => p != port && s.dgram_ports p }
    | .raw | .none => s
end
/-- The ports in the order in which `socket_port_alloc` tries them: from 49152
upwards, then from 1024. -/
def portOrder : List UInt16 :=
  (List.range' 49152 16384 ++ List.range' 1024 48128).map UInt16.ofNat

/-- `socket_port_alloc`: `none` is the return value 0. -/
def socket_port_alloc (s : KState) (sock_type : SockType) : Option (UInt16 × KState) :=
  portOrder.findSome? fun port => (s.socket_port_mark sock_type port).map fun s' => (port, s')

def holdsPort (sock_type : SockType) (port : UInt16) (fd : Fd) : Bool :=
  fd.used && fd.kind == .socket && fd.sock_bound && fd.sock_type == sock_type &&
    fd.sock_lport == port

/-- The descriptor is an open socket that listens on `port`. -/
def listensOn (port : UInt16) (fd : Fd) : Bool :=
  fd.used && fd.kind == .socket && fd.sock_type == .stream && fd.sock_listening &&
    fd.sock_lport == port

section
variable (s : KState)
def socket_port_in_use (port : UInt16) (sock_type : SockType) : Bool :=
  (first fun i => holdsPort sock_type port (s.fds i)).isSome

def socket_listener_in_use (port : UInt16) : Bool :=
  (first fun i => listensOn port (s.fds i)).isSome

/-! ### Descriptors, files and pipes -/
def setFd (i : FdNum) (fd : Fd) : KState :=
  { s with fds := set s.fds i fd }

/-- `fd_valid`: the index of an open descriptor. -/
def openFd (fd : UInt32) : Option FdNum :=
  if h : fd.toNat < QOS_FD_MAX then
    if (s.fds ⟨fd.toNat, h⟩).used then some ⟨fd.toNat, h⟩ else none
  else none

def fd_alloc (kind : FdKind) : Option (FdNum × KState) :=
  (first fun i => !(s.fds i).used).map fun i => (i, s.setFd i (.fresh kind))

variable (path : CStr)
def file_find : Option FileSlot :=
  first fun i => (s.files i).used && (s.files i).path == path

/-- The path is copied with `strncpy`, which cuts it off. -/
def file_alloc : Option (FileSlot × KState) :=
  (first fun i => !(s.files i).used).map fun i =>
    (i, { s with files := set s.files i (.new (path.take (QOS_FILE_PATH_MAX - 1))) })

def file_ensure : Option (FileSlot × KState) :=
  match s.file_find path with
  | some i => some (i, s)
  | none => s.file_alloc path
end
def refersToFile (file_id : Nat) (fd : Fd) : Bool :=
  fd.used && fd.kind == .vfs && fd.file_id.toNat == file_id

section
variable (s : KState)
/-- The file slot of a descriptor, if the slot is in use. -/
def openFile (file_id : UInt16) : Option FileSlot :=
  if h : file_id.toNat < QOS_FILE_MAX then
    if (s.files ⟨file_id.toNat, h⟩).used then some ⟨file_id.toNat, h⟩ else none
  else none

def file_has_refs (file_id : Nat) : Bool :=
  (first fun i => refersToFile file_id (s.fds i)).isSome

def file_drop (i : FileSlot) : KState :=
  { s with files := set s.files i .empty }

def file_unlink_path (path : CStr) : KState :=
  match s.file_find path with
  | none => s
  | some i =>
    let s' := { s with files := set s.files i { s.files i with path := [] } }
    if s'.file_has_refs i then s' else s'.file_drop i
end
def refersToPipe (pipe_id : Nat) (fd : Fd) : Bool :=
  fd.used && (fd.kind == .pipeR || fd.kind == .pipeW) && fd.pipe_id.toNat == pipe_id

variable (s : KState)
def pipe_in_use (pipe_id : Nat) : Bool :=
  (first fun i => refersToPipe pipe_id (s.fds i)).isSome

/-- The pipe of a descriptor, if the pipe is in use. -/
def openPipe (pipe_id : UInt16) : Option PipeSlot :=
  if h : pipe_id.toNat < QOS_PIPE_MAX then
    if (s.pipes ⟨pipe_id.toNat, h⟩).used then some ⟨pipe_id.toNat, h⟩ else none
  else none

def pipe_alloc : Option (PipeSlot × KState) :=
  (first fun i => !(s.pipes i).used).map fun i =>
    (i, { s with pipes := set s.pipes i ⟨true, []⟩ })

/-! ### Closing a descriptor

`fd_clear` first clears the row and then releases what the row held, if
no other descriptor holds it. One function for each thing it may hold. -/
def releasePipe (pipe_id : UInt16) : KState :=
  if h : pipe_id.toNat < QOS_PIPE_MAX then
    if s.pipe_in_use pipe_id.toNat then s
    else { s with pipes := set s.pipes ⟨pipe_id.toNat, h⟩ .empty }
  else s

def releaseFile (file_id : UInt16) : KState :=
  if h : file_id.toNat < QOS_FILE_MAX then
    if (s.files ⟨file_id.toNat, h⟩).used && (s.files ⟨file_id.toNat, h⟩).path.isEmpty &&
        !s.file_has_refs file_id.toNat then s.file_drop ⟨file_id.toNat, h⟩
    else s
  else s

/-- `fd` is the row before it was cleared. -/
def releaseListener (fd : Fd) : KState :=
  if fd.kind == .socket && fd.sock_type == .stream && fd.sock_listening &&
      !s.socket_listener_in_use fd.sock_lport then
    { s with net := (s.net.qos_net_tcp_unlisten fd.sock_lport).2 }
  else s

def releasePort (fd : Fd) : KState :=
  if fd.kind == .socket && fd.sock_bound && !s.socket_port_in_use fd.sock_lport fd.sock_type then
    let s' := if fd.sock_type == .dgram then
        { s with net := { s.net with udp := (CUdp.qos_net_udp_unbind s.net.udp fd.sock_lport).2 } }
      else s
    s'.socket_port_unmark fd.sock_type fd.sock_lport
  else s

def release (fd : Fd) : KState :=
  (((s.releasePipe fd.pipe_id).releaseFile fd.file_id).releaseListener fd).releasePort fd

/-- `fd_clear` of an open descriptor. -/
def fd_clear (i : FdNum) : KState := (s.setFd i .closed).release (s.fds i)
end KState
end QosKernel
