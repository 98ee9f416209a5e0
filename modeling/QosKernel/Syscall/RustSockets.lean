import QosKernel.Syscall.RustTables

/-! # The Rust socket system calls

The branches of `syscall_dispatch` for the socket operations, and the
socket branches of `READ` and `WRITE`. Lengths are 64 bits wide here.
Where a branch does what the one of the C kernel does, it is that one with
the checks of the Rust code in front.
-/
open Framework Framework.Checked
namespace QosKernel.RustCalls
open RustKernel (UserMem syscall_parse_sockaddr)
/-! ### Data of a socket -/
section
variable (s : KState) (i : FdNum) (addr : UInt64) (len : Nat)
/-- The second slice is the loop that moves the rest to the front. -/
def stream_take : Checked Outcome :=
  let got := (s.fds i).sock_stream.length
  let copy_len := min got len
  if got = 0 then return .fail s
  else do
    slice 0 copy_len QOS_NET_MAX_PACKET
    slice copy_len got QOS_NET_MAX_PACKET
    return s.stream_take i addr len

def raw_take
    (src : List (UInt64 × List UInt8)) : Checked Outcome :=
  let got := (s.fds i).sock_raw.length
  if got = 0 ∨ len < got then return .fail s
  else do
    slice 0 got QOS_NET_MAX_PACKET
    return s.raw_take i addr len src
end
/-- The length of the datagram and what it carries. -/
def net_udp_recv (udp : Udp) (dst_port : UInt16) (out : Nat) :
    Checked (Option (Nat × Message) × Udp) :=
  if dst_port == 0 || out == 0 then return (none, udp)
  else do
    -- the loops over the datagrams
    ensure (udp.udp_count ≤ QOS_NET_UDP_MAX_DATAGRAMS) .bounds
    match search (Udp.addressed dst_port) udp.datagrams 0 udp.udp_count with
    | none => return (none, udp)
    | some i =>
      let d := udp.datagrams i
      if out < d.len.toNat then return (none, udp)
      else do
        slice 0 d.len.toNat QOS_NET_MAX_PACKET
        return (some (d.len.toNat, d.message), udp.remove i)

section
variable (s : KState)
def udp_take (i : FdNum) (addr : UInt64) (len : Nat) (src : UInt64) : Checked Outcome :=
  if (s.fds i).sock_lport == 0 then return .fail s
  else do
    match ← net_udp_recv s.net.udp (s.fds i).sock_lport len with
    | (none, _) => return .fail s
    | (some (n, m), udp) =>
      return ⟨n, (addr, m.payload) :: write_sockaddr src m.src_port m.src_ip,
        { s with net := { s.net with udp := udp } }⟩

/-- Unlike in C, a port that nobody has bound is an error. -/
def udp_put (local_port remote_port : UInt16) (data : List UInt8) : Outcome :=
  match RustUdp.net_udp_send s.net.udp local_port QOS_NET_IPV4_LOCAL remote_port data with
  | (none, _) => .fail s
  | (some n, udp) => .ret { s with net := { s.net with udp := udp } } n

def packet_take (addr : UInt64) (len : Nat) : Checked Outcome :=
  match s.net.packets.pop with
  | none => return .fail s
  | some (data, _) =>
    if len < data.length then return .fail s
    else do
      slice 0 data.length QOS_NET_MAX_PACKET
      return s.packet_take addr len

def read_socket (i : FdNum) (addr : UInt64) (len : Nat) : Checked Outcome :=
  let fd := s.fds i
  if !fd.sock_connected || len == 0 then return .fail s
  else if KState.toGateway fd then stream_take s i addr len
  else
    match fd.sock_type with
    | .raw => raw_take s i addr len []
    | .dgram => udp_take s i addr len 0
    | .stream | .none => packet_take s addr len

def write_socket (i : FdNum) (data : List UInt8) : Outcome :=
  let fd := s.fds i
  if !fd.sock_connected || data.isEmpty then .fail s
  else if KState.toGateway fd then
    match s.stream_host_response_prepare i data with
    | none => .fail s
    | some s' => .ret s' data.length
  else
    match fd.sock_type with
    | .raw => s.raw_echo i fd.sock_rport fd.sock_rip data
    | .dgram =>
      if fd.sock_lport == 0 || fd.sock_rport == 0 || fd.sock_rip == 0 then .fail s
      else udp_put s fd.sock_lport fd.sock_rport data
    | .stream | .none => s.packet_put data

/-! ### Operations -/
/-- Only the low byte of the type counts. -/
def op_socket (a0 a1 : UInt64) : Outcome :=
  if a0 ≠ 2 then .fail s
  else
    match KState.sockTypeOf a1.toUInt8.toUInt64 with
    | none => .fail s
    | some sock_type =>
      match s.fd_alloc .socket with
      | none => .fail s
      | some (i, s') => .ret (s'.setFd i { s'.fds i with sock_type := sock_type }) i.val
end
/-- The address is looked at first, and must not be 0. -/
def op_bind (mem : UserMem) (s : KState) (a0 a1 a2 : UInt64) : Outcome :=
  match syscall_parse_sockaddr mem a1 a2 with
  | none => .fail s
  | some (port, _) =>
    match s.openSocket a0.toUInt32 with
    | none => .fail s
    | some i =>
      if (s.fds i).sock_bound then .fail s
      else if (s.fds i).sock_type == .raw then .ret (s.setFd i ((s.fds i).boundTo port)) 0
      else
        match s.socket_port_mark (s.fds i).sock_type port with
        | none => .fail s
        | some s1 =>
          let r := if (s.fds i).sock_type == .dgram then s1.udp_claim port else (true, s1)
          if r.1 then .ret (r.2.setFd i ((r.2.fds i).boundTo port)) 0 else .fail r.2

def op_listen (s : KState) (a0 a1 : UInt64) : Outcome :=
  let backlog := min a1.toNat QOS_SOCK_PENDING_MAX
  match s.openSocket a0.toUInt32 with
  | none => .fail s
  | some i =>
    let fd := s.fds i
    if fd.sock_type ≠ .stream || !fd.sock_bound || fd.sock_lport == 0 || a1 == 0 then .fail s
    else if backlog == 0 then .fail s
    else
      match s.net.qos_net_tcp_listen fd.sock_lport with
      | none => .fail s
      | some (_, net) =>
        .ret ({ s with net := net }.setFd i { fd with
          sock_listening := true
          sock_backlog := ⟨backlog, Nat.lt_succ_of_le (Nat.min_le_right _ _)⟩ }) 0

section
variable (mem : UserMem)
def memWord (addr : UInt64) : UInt32 :=
  (mem.byte addr).toUInt32 ||| (mem.byte (addr + 1)).toUInt32 <<< 8 |||
    (mem.byte (addr + 2)).toUInt32 <<< 16 ||| (mem.byte (addr + 3)).toUInt32 <<< 24

def accept_out (a1 a2 : UInt64) (peer : PendingConn) : List (UInt64 × List UInt8) :=
  if a1 ≠ 0 ∧ a2 ≠ 0 then
    if 16 ≤ memWord mem a2 then [(a1, sockaddr peer.rport peer.rip), (a2, leBytes 4 16)]
    else [(a2, leBytes 4 0)]
  else if a2 ≠ 0 then [(a2, leBytes 4 0)]
  else []

section
variable (s : KState) (a0 a1 a2 : UInt64)
def op_accept : Checked Outcome :=
  match s.openSocket a0.toUInt32 with
  | none => return .fail s
  | some i =>
    let fd := s.fds i
    if fd.sock_type ≠ .stream || !fd.sock_listening || fd.sock_pending.count == 0 then
      return .fail s
    else
      match s.fd_alloc .socket with
      | none => return .fail s
      | some (j, s1) =>
        match KState.socket_pending_pop fd.sock_pending with
        | none => do return .fail (← syscall_fd_clear s1 j)
        | some (peer, pending) =>
          let s2 := s1.setFd j { (s1.fds j).boundTo fd.sock_lport with
            sock_connected := true, sock_type := .stream
            sock_rport := peer.rport, sock_rip := peer.rip, sock_conn_id := peer.conn_id }
          return ⟨j.val, accept_out mem a1 a2 peer,
            s2.setFd i { s2.fds i with sock_pending := pending, sock_accepted := peer }⟩

/-! ### Connecting -/
def op_connect : Outcome :=
  match syscall_parse_sockaddr mem a1 a2 with
  | none => .fail s
  | some (remote_port, remote_ip) =>
    match s.openSocket a0.toUInt32 with
    | none => .fail s
    | some i => s.connect_socket i remote_port remote_ip
end
/-! ### Sending and receiving -/
def send_peer (fd : Fd) (a3 : UInt64) : Option (UInt16 × UInt32) :=
  if fd.sock_connected then some (fd.sock_rport, fd.sock_rip)
  else syscall_parse_sockaddr mem a3 16
end
def send_dgram (s : KState) (i : FdNum) (remote_port : UInt16) (remote_ip : UInt32)
    (data : List UInt8) : Outcome :=
  let r := s.dgram_local_port i
  if !r.1 then .fail r.2
  else if remote_port == 0 || remote_ip == 0 then .fail r.2
  else
    let s2 := r.2.setFd i { r.2.fds i with sock_rport := remote_port, sock_rip := remote_ip }
    udp_put s2 (s2.fds i).sock_lport remote_port data

def op_send (mem : UserMem) (s : KState) (a0 a1 a2 a3 : UInt64) : Outcome :=
  match s.openSocket a0.toUInt32 with
  | none => .fail s
  | some i =>
    let fd := s.fds i
    let data := mem.bytes a1 a2.toNat
    if a1 == 0 || data.isEmpty then .fail s
    else if fd.sock_type == .stream && !fd.sock_connected then .fail s
    else
      match fd.sock_type with
      | .raw =>
        match send_peer mem fd a3 with
        | none => .fail s
        | some (remote_port, remote_ip) => s.raw_echo i remote_port remote_ip data
      | .dgram =>
        match send_peer mem fd a3 with
        | none => .fail s
        | some (remote_port, remote_ip) => send_dgram s i remote_port remote_ip data
      | .stream | .none =>
        if KState.toGateway fd then
          match s.stream_host_response_prepare i data with
          | none => .fail s
          | some s' => .ret s' data.length
        else s.packet_put data

def op_recv (s : KState) (a0 a1 a2 a3 : UInt64) : Checked Outcome :=
  match s.openSocket a0.toUInt32 with
  | none => return .fail s
  | some i =>
    let fd := s.fds i
    let len := a2.toNat
    if a1 == 0 || len == 0 then return .fail s
    else if fd.sock_type == .stream && !fd.sock_connected then return .fail s
    else
      match fd.sock_type with
      | .raw => raw_take s i a1 len (write_sockaddr a3 1 fd.sock_raw_src_ip)
      | .dgram => udp_take s i a1 len a3
      | .stream | .none =>
        if KState.toGateway fd then stream_take s i a1 len else packet_take s a1 len
end QosKernel.RustCalls
