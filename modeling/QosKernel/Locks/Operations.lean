import QosKernel.Locks.Descriptors

/-! # The operations of `syscall_dispatch`

One definition for each operation, in the order of the source. They run
under the lock of the system calls. The fields of sockets, pipes and files
are answers, and so are the results of the helpers that work on them.
-/
open Framework Framework.Prog
namespace QosKernel.RustKernel
open Kernel
/-- The return value of a call that succeeds with a number, or fails. -/
def orFail (n : Option Nat) : Int :=
  match n with
  | none => -1
  | some n => n

def zeroOrFail (ok : Bool) : Int := if ok then 0 else -1

/-- The socket type in an answer. -/
def SockType.ofCode : Nat → SockType
  | 1 => .stream
  | 2 => .dgram
  | 3 => .raw
  | _ => .none

/-- What `init_state` returns is an answer; it takes no lock. -/
def init_state : RustM Nat := ask

def syscall_query_value (query : UInt32) (syscall_count : UInt32) : RustM Int := do
  match query.toNat with
  | 1 => return ← init_state
  | 2 => return ← pmm_total_pages
  | 3 => return ← pmm_free_pages
  | 4 => return ← sched_count
  | 5 => return (← vfs_count).toNat
  | 6 => return ← net_queue_len
  | 7 => return ← drivers_count
  | 8 => return syscall_count.toNat
  | 9 => return ← proc_count
  | _ => return -1

theorem syscall_query_value_keeps (query syscall_count : UInt32) :
    Keeps Others Ok (syscall_query_value query syscall_count) := by
  unfold syscall_query_value
  split
  case h_1 => exact keeps_bind keeps_ask fun _ => keeps_pure
  case h_5 => exact keeps_bind (vfs_count_keeps (by grind)) fun _ => keeps_pure
  case h_8 => exact keeps_pure
  case h_10 => exact keeps_pure
  all_goals exact keeps_bind (by grind) fun _ => keeps_pure

/-! ### Files -/
section files
variable {I : Kernel → Prop}
/-- The check of `OPEN` and `STAT` behind `syscall_proc_path_kind`. -/
def proc_path_dead (proc_kind : ProcKind) (proc_pid : UInt32) : RustM Bool :=
  if proc_kind == .status then do return !(← proc_alive proc_pid) else return false

def op_open (mem : UserMem) (a0 : UInt64) : RustM Int :=
  if a0 == 0 then return -1
  else
    match mem.str a0 with
    | none => return -1
    | some path => do
      if !(← vfs_exists path) then
        match ← syscall_proc_path_kind path with
        | none => return -1
        | some (proc_kind, proc_pid) =>
          if ← proc_path_dead proc_kind proc_pid then return -1
          else
            match ← syscall_fd_alloc .proc with
            | none => return -1
            | some fd =>
              onSyscall fun s => ((), { s with
                fds := set s.fds fd { s.fds fd with proc_kind := proc_kind, proc_pid := proc_pid } })
              return (fd : Nat)
      else
        match ← syscall_fd_alloc .vfs with
        | none => return -1
        | some fd =>
          if (← askOption).isNone then
            -- no room for the file
            syscall_fd_clear fd
            return -1
          else return (fd : Nat)

section
variable (len : UInt64)
/-- A datagram socket reads what was sent to its port. -/
def read_dgram : RustM Int := do
  let local_port ← ask
  if local_port == 0 then return -1
  else return orFail (← net_udp_recv (.ofNat local_port) len.toNat)

/-- A stream to the gateway is read from a buffer of the socket, another one
from the packets of the network. -/
def read_stream : RustM Int := do
  let host ← askBool
  if host then return orFail (← askOption)
  else return orFail (← net_dequeue_packet len.toNat)

def read_socket : RustM Int := do
  let connected ← askBool
  if !connected || len == 0 then return -1
  else
    match SockType.ofCode (← ask) with
    | .raw => return orFail (← askOption)
    | .dgram => read_dgram len
    | _ => read_stream len
end
def op_read (a0 a1 a2 : UInt64) : RustM Int := do
  match ← syscall_fd a0.toUInt32 with
  | none => return -1
  | some (i, fd) =>
    if a1 == 0 then return -1
    else
      match fd.kind with
      | .proc =>
        let total ← syscall_proc_render i
        let offset ← ask
        return if total ≤ offset then 0 else (min a2.toNat (total - offset) : Nat)
      | .vfs => return orFail (← askOption)
      | .pipeR => return orFail (← askOption)
      | .socket => read_socket a2
      | _ => return -1

def write_stream (src : List UInt8) : RustM Int := do
  let host ← askBool
  if host then return orFail (← askOption)
  else return if ← net_enqueue_packet src then src.length else -1

def write_socket (src : List UInt8) : RustM Int := do
  let connected ← askBool
  if !connected || src.isEmpty then return -1
  else
    match SockType.ofCode (← ask) with
    | .raw =>
      let remote_ip ← ask
      -- `net_icmp_echo` takes no lock
      return if (net_icmp_echo (.ofNat remote_ip) src QOS_NET_MAX_PACKET).isNone then -1
        else src.length
    | .dgram =>
      let local_port ← ask
      let remote_port ← ask
      let remote_ip ← ask
      if local_port == 0 || remote_port == 0 || remote_ip == 0 then return -1
      else
        let sent ← net_udp_send (.ofNat local_port) QOS_NET_IPV4_LOCAL (.ofNat remote_port) src
        return orFail sent
    | _ => write_stream src

def op_write (mem : UserMem) (a0 a1 a2 : UInt64) : RustM Int := do
  match ← syscall_fd a0.toUInt32 with
  | none => return -1
  | some (_, fd) =>
    if a1 == 0 then return -1
    else
      match fd.kind with
      | .vfs => return orFail (← askOption)
      | .pipeW => return orFail (← askOption)
      | .socket => write_socket (mem.bytes a1 a2.toNat)
      | _ => return -1

def op_close (a0 : UInt64) : RustM Int := do
  match ← syscall_fd a0.toUInt32 with
  | none => return -1
  | some (i, _) =>
    syscall_fd_clear i
    return 0

def op_dup2 (a0 a1 : UInt64) : RustM Int := do
  match ← syscall_fd a0.toUInt32 with
  | none => return -1
  | some (old, _) =>
    if h : a1.toUInt32.toNat < QOS_FD_MAX then
      let new : FdNum := ⟨a1.toUInt32.toNat, h⟩
      if old = new then return (new : Nat)
      else
        -- `syscall_fd_clear` leaves a descriptor alone that is not open
        syscall_fd_clear new
        onSyscall fun s => ((), { s with fds := set s.fds new (s.fds old) })
        return (new : Nat)
    else return -1

def op_getdents (a0 a1 a2 : UInt64) : RustM Int := do
  match ← syscall_fd a0.toUInt32 with
  | none => return -1
  | some (_, fd) =>
    if fd.kind != .vfs || a1 == 0 then return -1
    else if a2 < 4 then return -1
    else return (← vfs_count).toNat

/-- Where `LSEEK` counts from: the start, the offset, or the end. -/
def lseek_base (i : FdNum) (kind : FdKind) (whence : UInt32) : RustM (Option Nat) :=
  if whence == 0 then return some 0
  else if whence == 1 then do return some (← ask)
  else if whence == 2 then
    if kind == .proc then do return some (← syscall_proc_render i) else askOption
  else return none

def op_lseek (a0 a1 a2 : UInt64) : RustM Int := do
  match ← syscall_fd a0.toUInt32 with
  | none => return -1
  | some (i, fd) =>
    if fd.kind != .vfs && fd.kind != .proc then return -1
    else
      match ← lseek_base i fd.kind a2.toUInt32 with
      | none => return -1
      | some base =>
        let next := (base : Int) + asInt64 a1
        return if next < 0 || 2 ^ 63 ≤ next then -1 else next

def op_pipe (a0 : UInt64) : RustM Int :=
  if a0 == 0 then return -1
  else do
    if (← askOption).isNone then return -1
    else
      match ← syscall_fd_alloc .pipeR with
      | none => return -1
      | some rfd =>
        match ← syscall_fd_alloc .pipeW with
        | none =>
          syscall_fd_clear rfd
          return -1
        | some _ => return 0

/-! The helpers that the operations share, with the lock of the system calls
held. -/
@[grind .] theorem proc_path_dead_keeps (proc_kind : ProcKind) (proc_pid : UInt32) :
    Keeps Others I (proc_path_dead proc_kind proc_pid) := by
  grind [proc_path_dead]

section
variable (len : UInt64)
@[grind .] theorem read_dgram_keeps : Keeps Others I (read_dgram len) := by grind [read_dgram]

@[grind .] theorem read_stream_keeps : Keeps Others I (read_stream len) := by grind [read_stream]

@[grind .] theorem read_socket_keeps : Keeps Others I (read_socket len) := by
  unfold read_socket
  refine keeps_bind keeps_askBool fun connected => ?_
  split
  · exact keeps_pure
  refine keeps_bind keeps_ask fun sock_type => ?_
  split
  all_goals grind
end

@[grind .] theorem write_stream_keeps (src : List UInt8) : Keeps Others I (write_stream src) := by
  grind [write_stream]

@[grind .] theorem write_socket_keeps (src : List UInt8) : Keeps Others I (write_socket src) := by
  unfold write_socket
  refine keeps_bind keeps_askBool fun connected => ?_
  split
  · exact keeps_pure
  refine keeps_bind keeps_ask fun sock_type => ?_
  split
  all_goals grind

theorem op_open_keeps (mem : UserMem) (a0 : UInt64) : Keeps Others Ok (op_open mem a0) := by
  unfold op_open
  refine keeps_ite keeps_pure ?_
  cases mem.str a0 with
  | none => exact keeps_pure
  | some path =>
  refine keeps_bind (vfs_exists_keeps (by grind) path) fun found => ?_
  split
  · refine keeps_bind_option (syscall_proc_path_kind_keeps path) keeps_pure fun answer => ?_
    refine keeps_bind (proc_path_dead_keeps _ _) fun dead => keeps_ite keeps_pure ?_
    refine keeps_bind_option (syscall_fd_alloc_keeps _) keeps_pure fun fd => ?_
    exact keeps_bind (onSyscall_keeps _) fun _ => keeps_pure
  refine keeps_bind_option (syscall_fd_alloc_keeps _) keeps_pure fun fd => ?_
  refine keeps_bind keeps_askOption fun file_id => keeps_ite ?_ keeps_pure
  exact keeps_bind (syscall_fd_clear_keeps (by grind) fd) fun _ => keeps_pure

theorem op_write_keeps (mem : UserMem) (a0 a1 a2 : UInt64) :
    Keeps Others Ok (op_write mem a0 a1 a2) := by
  refine keeps_bind_option (syscall_fd_keeps _) keeps_pure fun row => ?_
  refine keeps_ite keeps_pure ?_
  split
  · exact keeps_bind keeps_askOption fun _ => keeps_pure
  · exact keeps_bind keeps_askOption fun _ => keeps_pure
  · exact write_socket_keeps _
  exact keeps_pure

theorem op_close_keeps (a0 : UInt64) : Keeps Others Ok (op_close a0) := by
  refine keeps_bind_option (syscall_fd_keeps _) keeps_pure fun row => ?_
  exact keeps_bind (syscall_fd_clear_keeps (by grind) _) fun _ => keeps_pure

theorem op_dup2_keeps (a0 a1 : UInt64) : Keeps Others Ok (op_dup2 a0 a1) := by
  refine keeps_bind_option (syscall_fd_keeps _) keeps_pure fun row => ?_
  dsimp only
  split
  · refine keeps_ite keeps_pure ?_
    refine keeps_bind (syscall_fd_clear_keeps (by grind) _) fun _ => ?_
    exact keeps_bind (onSyscall_keeps _) fun _ => keeps_pure
  exact keeps_pure

theorem op_getdents_keeps (a0 a1 a2 : UInt64) : Keeps Others Ok (op_getdents a0 a1 a2) := by
  refine keeps_bind_option (syscall_fd_keeps _) keeps_pure fun row => ?_
  refine keeps_ite keeps_pure (keeps_ite keeps_pure ?_)
  exact keeps_bind (vfs_count_keeps (by grind)) fun _ => keeps_pure

theorem op_pipe_keeps (a0 : UInt64) : Keeps Others Ok (op_pipe a0) := by
  refine keeps_ite keeps_pure (keeps_bind keeps_askOption fun pipe_id => keeps_ite keeps_pure ?_)
  refine keeps_bind_option (syscall_fd_alloc_keeps _) keeps_pure fun rfd => ?_
  refine keeps_bind (syscall_fd_alloc_keeps _) fun wfd => ?_
  cases wfd with
  | none => exact keeps_bind (syscall_fd_clear_keeps (by grind) rfd) fun _ => keeps_pure
  | some wfd => exact keeps_pure
end files
/-! ### Memory and scheduler -/
section memory
/-- The loop of `MMAP` that undoes its first pages. -/
def unmap_pages_back (va : UInt64) : Nat → RustM Unit
  | 0 => return ()
  | done + 1 => do
    let _ ← vmm_unmap (pageAt va done)
    unmap_pages_back va done

/-- The loop of `MMAP` when `done` pages are mapped. The table is full long
before the offset could wrap. -/
def map_pages (va : UInt64) (flags : UInt32) (done : Nat) : Nat → RustM Int
  | 0 => return asInt64 va
  | left + 1 => do
    if ← vmm_map (pageAt va done) (pageAt va done) flags then
      map_pages va flags (done + 1) left
    else
      unmap_pages_back va done
      return -1

def op_mmap (a0 a1 a2 : UInt64) : RustM Int :=
  if a0 == 0 || a1 == 0 then return -1
  else map_pages a0 (if a2 == 0 then RustVmm.VM_READ else a2.toUInt32) 0 (pageCount a1)

def unmap_pages (va : UInt64) (done : Nat) : Nat → RustM Int
  | 0 => return 0
  | left + 1 => do
    if ← vmm_unmap (pageAt va done) then unmap_pages va (done + 1) left else return -1

def op_munmap (a0 a1 : UInt64) : RustM Int :=
  if a0 == 0 || a1 == 0 then return -1 else unmap_pages a0 0 (pageCount a1)

def op_yield : RustM Int := do return orFail (← sched_next)

section
variable (va : UInt64)
@[grind .] theorem unmap_pages_back_keeps (done : Nat) :
    Keeps Others Ok (unmap_pages_back va done) := by
  induction done with
  | zero => exact keeps_pure
  | succ done ih => exact keeps_bind (by grind) fun _ => ih

@[grind .] theorem map_pages_keeps (flags : UInt32) (done left : Nat) :
    Keeps Others Ok (map_pages va flags done left) := by
  induction left generalizing done with
  | zero => exact keeps_pure
  | succ left ih =>
  refine keeps_bind (by grind) fun mapped => ?_
  split
  · exact ih (done + 1)
  exact keeps_bind (unmap_pages_back_keeps va done) fun _ => keeps_pure

@[grind .] theorem unmap_pages_keeps (done left : Nat) :
    Keeps Others Ok (unmap_pages va done left) := by
  induction left generalizing done with
  | zero => exact keeps_pure
  | succ left ih =>
  refine keeps_bind (by grind) fun unmapped => ?_
  split
  · exact ih (done + 1)
  exact keeps_pure
end
theorem op_mmap_keeps (a0 a1 a2 : UInt64) : Keeps Others Ok (op_mmap a0 a1 a2) :=
  keeps_ite keeps_pure (map_pages_keeps _ _ _ _)

theorem op_munmap_keeps (a0 a1 : UInt64) : Keeps Others Ok (op_munmap a0 a1) :=
  keeps_ite keeps_pure (unmap_pages_keeps _ _ _)
end memory
/-! ### Sockets -/
section sockets
variable {I : Kernel → Prop}
def QOS_TCP_EVT_RX_SYN_ACK : UInt32 := 2

def syscall_parse_sockaddr (mem : UserMem) (addr len : UInt64) : Option (UInt16 × UInt32) :=
  if addr == 0 || len < 8 then none
  else
    let port := (mem.byte (addr + 2)).toUInt16 <<< 8 ||| (mem.byte (addr + 3)).toUInt16
    let ip := (mem.byte (addr + 4)).toUInt32 <<< 24 ||| (mem.byte (addr + 5)).toUInt32 <<< 16 |||
      (mem.byte (addr + 6)).toUInt32 <<< 8 ||| (mem.byte (addr + 7)).toUInt32
    if port == 0 || ip == 0 then none else some (port, ip)

/-- The open socket behind a descriptor. -/
def socket_fd (fd : UInt32) : RustM (Option FdNum) := do
  match ← syscall_fd fd with
  | none => return none
  | some (i, row) => return if row.kind == .socket then some i else none

def op_socket (a0 a1 : UInt64) : RustM Int :=
  if a0 != 2 || (SockType.ofCode a1.toUInt8.toNat == .none) then return -1
  else do return orFail ((← syscall_fd_alloc .socket).map Fin.val)

def op_bind (mem : UserMem) (a0 a1 a2 : UInt64) : RustM Int :=
  match syscall_parse_sockaddr mem a1 a2 with
  | none => return -1
  | some (port, _) => do
    if (← socket_fd a0.toUInt32).isNone then return -1
    else if ← askBool then
      -- the socket is bound already
      return -1
    else
      match SockType.ofCode (← ask) with
      | .raw => return 0
      | sock_type =>
        let marked ← askBool
        if !marked then return -1
        else if sock_type == .dgram then return zeroOrFail (← net_udp_bind port)
        else return 0

def op_listen (a0 a1 : UInt64) : RustM Int := do
  if (← socket_fd a0.toUInt32).isNone then return -1
  else
    let bound_stream ← askBool
    let lport ← ask
    if !bound_stream || lport == 0 || a1 == 0 then return -1
    else return if (← net_tcp_listen (.ofNat lport)).isNone then -1 else 0

def op_accept (a0 : UInt64) : RustM Int := do
  if (← socket_fd a0.toUInt32).isNone then return -1
  else
    let pending ← askBool
    if !pending then return -1
    else
      match ← syscall_fd_alloc .socket with
      | none => return -1
      | some newfd =>
        if (← askOption).isNone then
          -- nothing could be taken from the queue
          syscall_fd_clear newfd
          return -1
        else return (newfd : Nat)

/-- The local port of a datagram socket: its own, or a new one that is bound
here. -/
def dgram_local_port : RustM (Option Nat) := do
  let local_port ← ask
  if local_port != 0 then return some local_port
  else
    match ← askOption with
    | none => return none
    | some port => return if ← net_udp_bind (.ofNat port) then some port else none

def connect_stream (remote_port : UInt16) (remote_ip : UInt32) : RustM Int := do
  let listener ← askOption
  if listener.isNone then
    -- only the gateway can be connected to without a listener here
    if remote_ip != QOS_NET_IPV4_GATEWAY then return -1
    else return if (← askOption).isNone then -1 else 0
  else
    let room ← askBool
    if !room then return -1
    else
      match ← askOption with
      | none => return -1
      | some local_port =>
        match ← net_tcp_connect (.ofNat local_port) remote_ip remote_port with
        | none => return -1
        | some conn_id =>
          if !(← net_tcp_step (.ofNat conn_id) QOS_TCP_EVT_RX_SYN_ACK) then return -1
          else return zeroOrFail (← askBool)

section
variable (mem : UserMem)
def op_connect (a0 a1 a2 : UInt64) : RustM Int :=
  match syscall_parse_sockaddr mem a1 a2 with
  | none => return -1
  | some (remote_port, remote_ip) => do
    if (← socket_fd a0.toUInt32).isNone then return -1
    else
      match SockType.ofCode (← ask) with
      | .stream => connect_stream remote_port remote_ip
      | .dgram => return if (← dgram_local_port).isNone then -1 else 0
      | .raw => return 0
      | .none => return -1

/-- The peer of a raw or datagram socket that sends: the one it is connected
to, or the one at the address `a3`. -/
def send_peer (a3 : UInt64) : RustM (Option (UInt16 × UInt32)) := do
  let connected ← askBool
  if connected then
    let rport ← ask
    let rip ← ask
    return some (.ofNat rport, .ofNat rip)
  else return syscall_parse_sockaddr mem a3 16

def op_send (a0 a1 a2 a3 : UInt64) : RustM Int := do
  if (← socket_fd a0.toUInt32).isNone || a1 == 0 || a2 == 0 then return -1
  else
    let src := mem.bytes a1 a2.toNat
    match SockType.ofCode (← ask) with
    | .raw =>
      match ← send_peer mem a3 with
      | none => return -1
      | some (_, remote_ip) =>
        return if (net_icmp_echo remote_ip src QOS_NET_MAX_PACKET).isNone then -1 else src.length
    | .dgram =>
      match ← send_peer mem a3 with
      | none => return -1
      | some (remote_port, remote_ip) =>
        match ← dgram_local_port with
        | none => return -1
        | some local_port =>
          if remote_port == 0 || remote_ip == 0 then return -1
          else return orFail (← net_udp_send (.ofNat local_port) QOS_NET_IPV4_LOCAL remote_port src)
    | _ =>
      let connected ← askBool
      if !connected then return -1 else write_stream src
end
def op_recv (a0 a1 a2 : UInt64) : RustM Int := do
  if (← socket_fd a0.toUInt32).isNone || a1 == 0 || a2 == 0 then return -1
  else
    match SockType.ofCode (← ask) with
    | .raw => return orFail (← askOption)
    | .dgram => read_dgram a2
    | _ =>
      let connected ← askBool
      if !connected then return -1 else read_stream a2

@[grind .] theorem socket_fd_keeps (fd : UInt32) : Keeps Others I (socket_fd fd) := by
  exact keeps_bind_option (syscall_fd_keeps fd) keeps_pure fun row => keeps_pure

@[grind .] theorem dgram_local_port_keeps : Keeps Others I dgram_local_port := by
  refine keeps_bind keeps_ask fun local_port => ?_
  split
  · exact keeps_pure
  refine keeps_bind_option keeps_askOption keeps_pure fun port => ?_
  grind

@[grind .] theorem connect_stream_keeps (remote_port : UInt16) (remote_ip : UInt32) :
    Keeps Others I (connect_stream remote_port remote_ip) := by
  unfold connect_stream
  repeat' first | with_reducible refine keeps_bind ?_ fun _ => ?_ | split
  all_goals grind

@[grind .] theorem send_peer_keeps (mem : UserMem) (a3 : UInt64) :
    Keeps Others I (send_peer mem a3) := by
  grind [send_peer]

theorem op_socket_keeps (a0 a1 : UInt64) : Keeps Others Ok (op_socket a0 a1) :=
  keeps_ite keeps_pure (keeps_bind (syscall_fd_alloc_keeps _) fun _ => keeps_pure)

theorem op_bind_keeps (mem : UserMem) (a0 a1 a2 : UInt64) :
    Keeps Others Ok (op_bind mem a0 a1 a2) := by
  unfold op_bind
  split
  · exact keeps_pure
  refine keeps_bind (socket_fd_keeps _) fun fd => keeps_ite keeps_pure ?_
  refine keeps_bind keeps_askBool fun bound => keeps_ite keeps_pure ?_
  refine keeps_bind keeps_ask fun sock_type => ?_
  split
  · exact keeps_pure
  refine keeps_bind keeps_askBool fun marked => keeps_ite keeps_pure (keeps_ite ?_ keeps_pure)
  exact keeps_bind (by grind) fun _ => keeps_pure

theorem op_listen_keeps (a0 a1 : UInt64) : Keeps Others Ok (op_listen a0 a1) := by
  refine keeps_bind (socket_fd_keeps _) fun fd => keeps_ite keeps_pure ?_
  refine keeps_bind keeps_askBool fun bound => keeps_bind keeps_ask fun lport => ?_
  exact keeps_ite keeps_pure (keeps_bind (by grind) fun _ => keeps_pure)

theorem op_accept_keeps (a0 : UInt64) : Keeps Others Ok (op_accept a0) := by
  refine keeps_bind (socket_fd_keeps _) fun fd => keeps_ite keeps_pure ?_
  refine keeps_bind keeps_askBool fun pending => keeps_ite keeps_pure ?_
  refine keeps_bind_option (syscall_fd_alloc_keeps _) keeps_pure fun newfd => ?_
  refine keeps_bind keeps_askOption fun peer => keeps_ite ?_ keeps_pure
  exact keeps_bind (syscall_fd_clear_keeps (by grind) newfd) fun _ => keeps_pure

theorem op_connect_keeps (mem : UserMem) (a0 a1 a2 : UInt64) :
    Keeps Others Ok (op_connect mem a0 a1 a2) := by
  unfold op_connect
  split
  · exact keeps_pure
  refine keeps_bind (socket_fd_keeps _) fun fd => keeps_ite keeps_pure ?_
  refine keeps_bind keeps_ask fun sock_type => ?_
  split
  · exact connect_stream_keeps _ _
  · exact keeps_bind dgram_local_port_keeps fun _ => keeps_pure
  all_goals exact keeps_pure

theorem op_send_keeps (mem : UserMem) (a0 a1 a2 a3 : UInt64) :
    Keeps Others Ok (op_send mem a0 a1 a2 a3) := by
  refine keeps_bind (socket_fd_keeps _) fun fd => keeps_ite keeps_pure ?_
  refine keeps_bind keeps_ask fun sock_type => ?_
  split
  · exact keeps_bind_option (send_peer_keeps mem a3) keeps_pure fun peer => keeps_pure
  · refine keeps_bind_option (send_peer_keeps mem a3) keeps_pure fun peer => ?_
    refine keeps_bind_option dgram_local_port_keeps keeps_pure fun local_port => ?_
    exact keeps_ite keeps_pure (keeps_bind (by grind) fun _ => keeps_pure)
  refine keeps_bind keeps_askBool fun connected => ?_
  exact keeps_ite keeps_pure (write_stream_keeps _)

theorem op_recv_keeps (a0 a1 a2 : UInt64) : Keeps Others Ok (op_recv a0 a1 a2) := by
  refine keeps_bind (socket_fd_keeps _) fun fd => keeps_ite keeps_pure ?_
  refine keeps_bind keeps_ask fun sock_type => ?_
  split
  · exact keeps_bind keeps_askOption fun _ => keeps_pure
  · exact read_dgram_keeps a2
  refine keeps_bind keeps_askBool fun connected => ?_
  exact keeps_ite keeps_pure (read_stream_keeps a2)
end sockets
/-! ### Processes and signals -/
section processes
def op_kill (a0 a1 : UInt64) : RustM Int := do
  return zeroOrFail (← proc_signal_send a0.toUInt32 a1.toUInt32)

def op_sigpending (a0 : UInt64) : RustM Int := do
  return orFail (← proc_signal_pending a0.toUInt32)

def op_sigaction (a0 a1 a2 : UInt64) : RustM Int := do
  match ← proc_signal_get_handler a0.toUInt32 a1.toUInt32 with
  | none => return -1
  | some old =>
    if a2 == 0xFFFFFFFFFFFFFFFF then return old
    else if ← proc_signal_set_handler a0.toUInt32 a1.toUInt32 a2.toUInt32 then return old
    else return -1

def op_sigprocmask (a0 a1 a2 : UInt64) : RustM Int := do
  match ← proc_signal_mask a0.toUInt32 with
  | none => return -1
  | some old =>
    match RustProc.ProcState.new_mask (.ofNat old) a1.toUInt32 a2.toUInt32 with
    | none => return -1
    | some mask => if ← proc_signal_set_mask a0.toUInt32 mask then return old else return -1

def op_sigaltstack (a0 a1 a2 a3 : UInt64) : RustM Int := do
  match ← proc_signal_get_altstack a0.toUInt32 with
  | none => return -1
  | some old =>
    if a1 == 0xFFFFFFFFFFFFFFFF then return old
    else if ← proc_signal_set_altstack a0.toUInt32 a1 a2 a3.toUInt32 then return old
    else return -1

section
variable (a0 a1 : UInt64)
def op_sigsuspend : RustM Int := do
  match ← proc_signal_mask a0.toUInt32 with
  | none => return -1
  | some old =>
    if !(← proc_signal_set_mask a0.toUInt32 a1.toUInt32) then return -1
    else
      let delivered ← proc_signal_next a0.toUInt32
      if !(← proc_signal_set_mask a0.toUInt32 (.ofNat old)) then return -1
      else return delivered

def op_sigreturn : RustM Int := do
  return zeroOrFail (← proc_signal_set_mask a0.toUInt32 a1.toUInt32)

def op_fork : RustM Int := do
  return if ← proc_fork a0.toUInt32 a1.toUInt32 then asInt64 a1 else -1
end
def op_exec (mem : UserMem) (a0 a1 : UInt64) : RustM Int :=
  if a1 == 0 then do return zeroOrFail (← proc_exec_signal_reset a0.toUInt32)
  else
    match mem.str a1 with
    | none => return -1
    | some _ => do
      -- the file is looked up and its image parsed
      if (← askOption).isNone then return -1
      else if !(← proc_exec_signal_reset a0.toUInt32) then return -1
      else return zeroOrFail (← proc_exec_image_set a0.toUInt32)

def op_exit (a0 a1 : UInt64) : RustM Int := do
  return zeroOrFail (← proc_exit a0.toUInt32 (asInt64 a1))

def op_getpid (a0 : UInt64) : RustM Int := do
  return if ← proc_alive a0.toUInt32 then asInt64 a0 else -1

def op_waitpid (a0 a1 a3 : UInt64) : RustM Int := do
  return ← proc_wait_status a0.toUInt32 (asInt64 a1) a3.toUInt32

theorem op_sigaction_keeps (a0 a1 a2 : UInt64) : Keeps Others Ok (op_sigaction a0 a1 a2) := by
  refine keeps_bind_option (by grind) keeps_pure fun old => ?_
  refine keeps_ite keeps_pure (keeps_bind (by grind) fun done => ?_)
  exact keeps_ite keeps_pure keeps_pure

theorem op_sigprocmask_keeps (a0 a1 a2 : UInt64) : Keeps Others Ok (op_sigprocmask a0 a1 a2) := by
  refine keeps_bind_option (by grind) keeps_pure fun old => ?_
  dsimp only
  split
  · exact keeps_pure
  exact keeps_bind (by grind) fun done => keeps_ite keeps_pure keeps_pure

theorem op_sigaltstack_keeps (a0 a1 a2 a3 : UInt64) :
    Keeps Others Ok (op_sigaltstack a0 a1 a2 a3) := by
  refine keeps_bind_option (by grind) keeps_pure fun old => ?_
  refine keeps_ite keeps_pure (keeps_bind (by grind) fun done => ?_)
  exact keeps_ite keeps_pure keeps_pure

theorem op_sigsuspend_keeps (a0 a1 : UInt64) : Keeps Others Ok (op_sigsuspend a0 a1) := by
  refine keeps_bind_option (by grind) keeps_pure fun old => ?_
  refine keeps_bind (by grind) fun masked => keeps_ite keeps_pure ?_
  refine keeps_bind (by grind) fun delivered => keeps_bind (by grind) fun restored => ?_
  exact keeps_ite keeps_pure keeps_pure

theorem op_exec_keeps (mem : UserMem) (a0 a1 : UInt64) : Keeps Others Ok (op_exec mem a0 a1) := by
  refine keeps_ite (keeps_bind (by grind) fun _ => keeps_pure) ?_
  cases mem.str a1 with
  | none => exact keeps_pure
  | some path =>
  refine keeps_bind keeps_askOption fun image => keeps_ite keeps_pure ?_
  refine keeps_bind (by grind) fun done => keeps_ite keeps_pure ?_
  exact keeps_bind (by grind) fun _ => keeps_pure
end processes
/-! ### Paths -/
section paths
section
variable (mem : UserMem) (a0 : UInt64)
def op_stat : RustM Int :=
  if a0 == 0 then return -1
  else
    match mem.str a0 with
    | none => return -1
    | some path => do
      if ← vfs_exists path then return 0
      else
        match ← syscall_proc_path_kind path with
        | none => return -1
        | some (proc_kind, proc_pid) => return if ← proc_path_dead proc_kind proc_pid then -1 else 0

def op_mkdir : RustM Int :=
  if a0 == 0 then return -1
  else
    match mem.str a0 with
    | none => return -1
    | some path =>
      if vfs_fs_kind path == some .procfs then return -1
      else do return zeroOrFail (← vfs_create path)

def op_unlink : RustM Int :=
  if a0 == 0 then return -1
  else
    match mem.str a0 with
    | none => return -1
    | some path =>
      if vfs_fs_kind path == some .procfs then return -1
      else do return zeroOrFail (← vfs_remove path)
end
def op_chdir (mem : UserMem) (a0 a1 : UInt64) : RustM Int :=
  if a1 == 0 then return -1
  else
    match mem.str a1 with
    | none => return -1
    | some path => do
      if !(← vfs_exists path) then return -1
      else return zeroOrFail (← proc_cwd_set a0.toUInt32 path)

def op_getcwd (a0 a1 a2 : UInt64) : RustM Int :=
  if a1 == 0 then do return orFail (← proc_cwd_len a0.toUInt32)
  else if a2 == 0 then return -1
  else do
    match ← proc_cwd_snapshot a0.toUInt32 with
    | none => return -1
    | some len => return if a2.toNat < len + 1 then -1 else len

section
variable (mem : UserMem) (a0 : UInt64)
theorem op_stat_keeps : Keeps Others Ok (op_stat mem a0) := by
  unfold op_stat
  refine keeps_ite keeps_pure ?_
  cases mem.str a0 with
  | none => exact keeps_pure
  | some path =>
  refine keeps_bind (vfs_exists_keeps (by grind) path) fun found => keeps_ite keeps_pure ?_
  refine keeps_bind_option (syscall_proc_path_kind_keeps path) keeps_pure fun answer => ?_
  exact keeps_bind (proc_path_dead_keeps _ _) fun _ => keeps_pure

theorem op_mkdir_keeps : Keeps Others Ok (op_mkdir mem a0) := by
  unfold op_mkdir
  refine keeps_ite keeps_pure ?_
  cases mem.str a0 with
  | none => exact keeps_pure
  | some path =>
  refine keeps_ite keeps_pure ?_
  exact keeps_bind (vfs_create_keeps (by grind) path) fun _ => keeps_pure

theorem op_unlink_keeps : Keeps Others Ok (op_unlink mem a0) := by
  unfold op_unlink
  refine keeps_ite keeps_pure ?_
  cases mem.str a0 with
  | none => exact keeps_pure
  | some path =>
  refine keeps_ite keeps_pure ?_
  exact keeps_bind (vfs_remove_keeps (by grind) path) fun _ => keeps_pure
end
theorem op_chdir_keeps (mem : UserMem) (a0 a1 : UInt64) : Keeps Others Ok (op_chdir mem a0 a1) := by
  unfold op_chdir
  refine keeps_ite keeps_pure ?_
  cases mem.str a1 with
  | none => exact keeps_pure
  | some path =>
  refine keeps_bind (vfs_exists_keeps (by grind) path) fun found => keeps_ite keeps_pure ?_
  exact keeps_bind (by grind) fun _ => keeps_pure

theorem op_getcwd_keeps (a0 a1 a2 : UInt64) : Keeps Others Ok (op_getcwd a0 a1 a2) := by
  refine keeps_ite (keeps_bind (by grind) fun _ => keeps_pure) (keeps_ite keeps_pure ?_)
  exact keeps_bind_option (by grind) keeps_pure fun len => keeps_pure
end paths
/-! ### Libraries and modules

They have tables of their own among those of the system calls, so they
take no lock. -/
section libraries
/-- `DLOPEN` and `MODLOAD`. -/
def op_load (mem : UserMem) (a0 : UInt64) : RustM Int :=
  if a0 == 0 then return -1
  else
    match mem.str a0 with
    | none => return -1
    | some _ => do return orFail (← askOption)

/-- `DLCLOSE` and `MODUNLOAD`. -/
def op_unload : RustM Int := do return zeroOrFail (← askBool)

def op_dlsym (mem : UserMem) (a1 : UInt64) : RustM Int :=
  if a1 == 0 then return -1
  else do
    let loaded ← askBool
    if !loaded then return -1
    else
      match mem.str a1 with
      | none => return -1
      | some _ => return orFail (← askOption)

def op_modreload : RustM Int := do return orFail (← askOption)

variable (mem : UserMem)
theorem op_load_keeps (a0 : UInt64) : Keeps Others Ok (op_load mem a0) := by
  unfold op_load
  refine keeps_ite keeps_pure ?_
  cases mem.str a0 with
  | none => exact keeps_pure
  | some path => exact keeps_bind keeps_askOption fun _ => keeps_pure

theorem op_dlsym_keeps (a1 : UInt64) : Keeps Others Ok (op_dlsym mem a1) := by
  unfold op_dlsym
  refine keeps_ite keeps_pure (keeps_bind keeps_askBool fun loaded => keeps_ite keeps_pure ?_)
  cases mem.str a1 with
  | none => exact keeps_pure
  | some name => exact keeps_bind keeps_askOption fun _ => keeps_pure
end libraries
end QosKernel.RustKernel
