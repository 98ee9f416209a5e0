import QosKernel.Syscall.CCall
import Mathlib.Algebra.Ring.Nat

/-! # The C socket system calls

The branches of `qos_syscall_dispatch` for the socket operations, and the
socket branches of `READ` and `WRITE`. Each function is named after the
`SYSCALL_OP_` constant of its branch.
-/
open Framework
namespace QosKernel.KState
/-! ### Data of a socket -/
/-- A stream socket that is connected to the gateway and not to a listener. -/
def toGateway (fd : Fd) : Bool :=
  fd.sock_type == .stream && decide (fd.sock_conn_id < 0) && fd.sock_rip == QOS_NET_IPV4_GATEWAY

section
variable (s : KState) (i : FdNum)
/-- The host behind the gateway answers every request that starts with
`GET `, with the same text. -/
def stream_host_response_prepare (req : List UInt8) : Option KState :=
  if (cstr "GET ").isPrefixOf req then
    some (s.setFd i { s.fds i with
      sock_stream := cstr "HTTP/1.0 200 OK\r\nContent-Length: 4\r\n\r\nqos\n" })
  else none

section
variable (addr : UInt64) (len : Nat)
/-- Takes up to `len` bytes from the answer of the gateway. -/
def stream_take : Outcome :=
  let got := (s.fds i).sock_stream
  if got.isEmpty then .fail s
  else
    let copy_len := min got.length len
    ⟨copy_len, [(addr, got.take copy_len)],
      s.setFd i { s.fds i with sock_stream := got.drop copy_len }⟩

/-- Takes the reply that a raw socket holds; it must fit in the buffer. -/
def raw_take
    (src : List (UInt64 × List UInt8)) : Outcome :=
  let got := (s.fds i).sock_raw
  if got.isEmpty || len < got.length then .fail s
  else
    ⟨got.length, (addr, got) :: src,
      s.setFd i { s.fds i with sock_raw := [], sock_raw_src_ip := 0 }⟩
end
/-- Sends an echo request and keeps the reply in the socket. -/
def raw_echo (remote_port : UInt16) (remote_ip : UInt32)
    (data : List UInt8) : Outcome :=
  if remote_ip == 0 || QOS_NET_MAX_PACKET < data.length then .fail s
  else
    match Net.qos_net_icmp_echo remote_ip data QOS_NET_MAX_PACKET with
    | none => .fail s
    | some (reply, src_ip) =>
      .ret (s.setFd i { s.fds i with
        sock_rport := remote_port, sock_rip := remote_ip
        sock_raw := reply, sock_raw_src_ip := src_ip }) data.length

/-- `qos_net_udp_recv` for a bound socket, into a buffer of `len` bytes. -/
def udp_take (addr : UInt64) (len : Nat) (src : UInt64) : Outcome :=
  if (s.fds i).sock_lport == 0 then .fail s
  else
    match CUdp.qos_net_udp_recv s.net.udp (s.fds i).sock_lport (some len) with
    | (_, none, _) => .fail s
    | (rc, some m, udp) =>
      ⟨rc, (addr, m.payload) :: write_sockaddr src m.src_port m.src_ip,
        { s with net := { s.net with udp := udp } }⟩
end
section
variable (s : KState)
def udp_put (local_port remote_port : UInt16) (data : List UInt8) : Outcome :=
  let r := CUdp.qos_net_udp_send s.net.udp local_port QOS_NET_IPV4_LOCAL remote_port (some data)
  .ret { s with net := { s.net with udp := r.2 } } r.1

def packet_take (addr : UInt64) (len : Nat) : Outcome :=
  let r := s.net.qos_net_dequeue_packet len
  ⟨r.1, [(addr, r.2.1)], { s with net := r.2.2 }⟩

def packet_put (data : List UInt8) : Outcome :=
  let r := s.net.qos_net_enqueue_packet data
  .ret { s with net := r.2 } (if r.1 = 0 then data.length else -1)

def read_socket (i : FdNum) (addr : UInt64) (len : Nat) : Outcome :=
  let fd := s.fds i
  if !fd.sock_connected || len == 0 then .fail s
  else if toGateway fd then s.stream_take i addr len
  else
    match fd.sock_type with
    | .raw => s.raw_take i addr len []
    | .dgram => s.udp_take i addr len 0
    | .stream | .none => s.packet_take addr len

def write_socket (i : FdNum) (data : List UInt8) : Outcome :=
  let fd := s.fds i
  if !fd.sock_connected || data.isEmpty then .fail s
  else if toGateway fd then
    match s.stream_host_response_prepare i data with
    | none => .fail s
    | some s' => .ret s' data.length
  else
    match fd.sock_type with
    | .raw => s.raw_echo i fd.sock_rport fd.sock_rip data
    | .dgram =>
      if fd.sock_lport == 0 || fd.sock_rport == 0 || fd.sock_rip == 0 then .fail s
      else s.udp_put fd.sock_lport fd.sock_rport data
    | .stream | .none => s.packet_put data

/-! ### Operations -/
/-- The descriptor of an open socket. -/
def openSocket (fd : UInt32) : Option FdNum :=
  match s.openFd fd with
  | none => none
  | some i => if (s.fds i).kind == .socket then some i else none
end
/-- The socket types that `SOCKET` takes. -/
def sockTypeOf (a1 : UInt64) : Option SockType :=
  if a1 == 1 then some .stream
  else if a1 == 2 then some .dgram
  else if a1 == 3 then some .raw
  else none

def syscall_op_socket (s : KState) (a0 a1 : UInt64) : Outcome :=
  if a0 ≠ 2 then .fail s
  else
    match sockTypeOf a1 with
    | none => .fail s
    | some sock_type =>
      match s.fd_alloc .socket with
      | none => .fail s
      | some (i, s') => .ret (s'.setFd i { s'.fds i with sock_type := sock_type }) i.val

/-- `qos_net_udp_bind` for a port that was marked before; the mark is taken
back if it fails. -/
def udp_claim (s : KState) (port : UInt16) : Bool × KState :=
  let r := CUdp.qos_net_udp_bind s.net.udp port
  if r.1 = 0 then (true, { s with net := { s.net with udp := r.2 } })
  else (false, s.socket_port_unmark .dgram port)

def syscall_op_bind (env : Env) (s : KState) (a0 a1 a2 : UInt64) : Outcome :=
  match s.openSocket a0.toUInt32 with
  | none => .fail s
  | some i =>
    if (s.fds i).sock_bound then .fail s
    else
      match parse_sockaddr env a1 a2.toUInt32 true with
      | none => .fail s
      | some (port, _) =>
        if (s.fds i).sock_type == .raw then .ret (s.setFd i ((s.fds i).boundTo port)) 0
        else
          match s.socket_port_mark (s.fds i).sock_type port with
          | none => .fail s
          | some s1 =>
            let r := if (s.fds i).sock_type == .dgram then s1.udp_claim port else (true, s1)
            if r.1 then .ret (r.2.setFd i ((r.2.fds i).boundTo port)) 0 else .fail r.2

def syscall_op_listen (s : KState) (a0 a1 : UInt64) : Outcome :=
  match s.openSocket a0.toUInt32 with
  | none => .fail s
  | some i =>
    let fd := s.fds i
    if fd.sock_type ≠ .stream || !fd.sock_bound || fd.sock_lport == 0 || a1 == 0 then .fail s
    else if a1.toUInt32 == 0 then .fail s
    else
      match s.net.qos_net_tcp_listen fd.sock_lport with
      | none => .fail s
      | some (_, net) =>
        .ret ({ s with net := net }.setFd i { fd with
          sock_listening := true
          sock_backlog := ⟨min a1.toUInt32.toNat QOS_SOCK_PENDING_MAX,
            Nat.lt_succ_of_le (Nat.min_le_right _ _)⟩ }) 0

/-- `socket_pending_pop`: an empty queue starts again at cell 0. -/
def socket_pending_pop (q : Ring PendingConn QOS_SOCK_PENDING_MAX) :
    Option (PendingConn × Ring PendingConn QOS_SOCK_PENDING_MAX) :=
  match q.pop with
  | none => none
  | some (peer, q') => some (peer, if q'.count = 0 then .empty (Nat.succ_pos _) .zero else q')

def accept_out (env : Env) (a1 a2 : UInt64) (peer : PendingConn) : List (UInt64 × List UInt8) :=
  if a2 == 0 then []
  else if a1 == 0 || env.word a2 < 16 then [(a2, leBytes 4 0)]
  else [(a1, sockaddr peer.rport peer.rip), (a2, leBytes 4 16)]

def syscall_op_accept (env : Env) (s : KState) (a0 a1 a2 : UInt64) : Outcome :=
  match s.openSocket a0.toUInt32 with
  | none => .fail s
  | some i =>
    let fd := s.fds i
    if fd.sock_type ≠ .stream || !fd.sock_listening || fd.sock_pending.count == 0 then .fail s
    else
      match s.fd_alloc .socket with
      | none => .fail s
      | some (j, s1) =>
        match socket_pending_pop fd.sock_pending with
        | none => .fail (s1.fd_clear j)
        | some (peer, pending) =>
          let s2 := s1.setFd j { (s1.fds j).boundTo fd.sock_lport with
            sock_connected := true, sock_type := .stream
            sock_rport := peer.rport, sock_rip := peer.rip, sock_conn_id := peer.conn_id }
          ⟨j.val, accept_out env a1 a2 peer,
            s2.setFd i { s2.fds i with sock_pending := pending, sock_accepted := peer }⟩

/-! ### Connecting -/
section
variable (s : KState)
/-- The local port of a stream socket; one is marked if it has none yet, and
the flag then tells so. -/
def stream_local_port (i : FdNum) : Option (UInt16 × Bool × KState) :=
  if (s.fds i).sock_lport == 0 then
    match s.socket_port_alloc .stream with
    | none => none
    | some (port, s') => some (port, true, s')
  else some ((s.fds i).sock_lport, false, s)

/-- Without a listener, only the host behind the gateway can be reached. -/
def connect_gateway (i : FdNum) (remote_port : UInt16)
    (remote_ip : UInt32) : Outcome :=
  if remote_ip ≠ QOS_NET_IPV4_GATEWAY then .fail s
  else
    match s.stream_local_port i with
    | none => .fail s
    | some (port, _, s1) =>
      .ret (s1.setFd i { ((s1.fds i).boundTo port).connectedTo remote_port remote_ip with
        sock_conn_id := -1 }) 0

/-- Connects to the listener in row `l` and puts the connection in its queue. -/
def connect_listener (i l : FdNum) (remote_port : UInt16)
    (remote_ip : UInt32) : Outcome :=
  let backlog := (s.fds l).sock_backlog.val
  if backlog == 0 || decide (backlog ≤ (s.fds l).sock_pending.count) then .fail s
  else
    match s.stream_local_port i with
    | none => .fail s
    | some (port, allocated_local, s1) =>
      let undo (t : KState) := if allocated_local then t.socket_port_unmark .stream port else t
      match s1.net.qos_net_tcp_connect port remote_ip remote_port with
      | none => .fail (undo s1)
      | some (conn_id, net) =>
        let r := net.qos_net_tcp_step conn_id .rxSynAck
        let s2 := { s1 with net := r.2 }
        if r.1 ≠ 0 then .fail (undo s2)
        else
          let s3 := s2.setFd i
            { ((s2.fds i).boundTo port).connectedTo remote_port remote_ip with
              sock_conn_id := conn_id.val }
          match (s3.fds l).sock_pending.push ⟨port, QOS_NET_IPV4_LOCAL, conn_id.val⟩ with
          | none => .fail (undo s3)
          | some pending => .ret (s3.setFd l { s3.fds l with sock_pending := pending }) 0

/-- A datagram socket without a local port gets one: marked and bound. -/
def dgram_local_port (i : FdNum) : Bool × KState :=
  if (s.fds i).sock_lport == 0 then
    match s.socket_port_alloc .dgram with
    | none => (false, s)
    | some (port, s1) =>
      let r := s1.udp_claim port
      if r.1 then (true, r.2.setFd i ((r.2.fds i).boundTo port)) else r
  else (true, s)
end
/-- `CONNECT` behind the checks of its arguments, which is the same in both
kernels. -/
def connect_socket (s : KState) (i : FdNum) (remote_port : UInt16) (remote_ip : UInt32) : Outcome :=
  match (s.fds i).sock_type with
  | .stream =>
    match first fun j => decide (j ≠ i) && listensOn remote_port (s.fds j) with
    | none => s.connect_gateway i remote_port remote_ip
    | some l => s.connect_listener i l remote_port remote_ip
  | .dgram =>
    let r := s.dgram_local_port i
    if r.1 then .ret (r.2.setFd i ((r.2.fds i).connectedTo remote_port remote_ip)) 0
    else .fail r.2
  | .raw =>
    let port := if (s.fds i).sock_lport == 0 then 1 else (s.fds i).sock_lport
    .ret (s.setFd i (((s.fds i).boundTo port).connectedTo remote_port remote_ip)) 0
  | .none => .fail s

def syscall_op_connect (env : Env) (s : KState) (a0 a1 a2 : UInt64) : Outcome :=
  match s.openSocket a0.toUInt32 with
  | none => .fail s
  | some i =>
    match parse_sockaddr env a1 a2.toUInt32 false with
    | none => .fail s
    | some (remote_port, remote_ip) => s.connect_socket i remote_port remote_ip

/-! ### Sending and receiving -/
/-- The peer of a socket that is not a stream: the one it is connected to, or
the one the caller names. -/
def send_peer (env : Env) (fd : Fd) (a3 : UInt64) : Option (UInt16 × UInt32) :=
  if fd.sock_connected then some (fd.sock_rport, fd.sock_rip)
  else parse_sockaddr env a3 16 false

def send_dgram (s : KState) (i : FdNum) (remote_port : UInt16) (remote_ip : UInt32)
    (data : List UInt8) : Outcome :=
  let r := s.dgram_local_port i
  if !r.1 then .fail r.2
  else if remote_port == 0 || remote_ip == 0 then .fail r.2
  else
    let s2 := r.2.setFd i { r.2.fds i with sock_rport := remote_port, sock_rip := remote_ip }
    s2.udp_put (s2.fds i).sock_lport remote_port data

def syscall_op_send (env : Env) (s : KState) (a0 a1 a2 a3 : UInt64) : Outcome :=
  match s.openSocket a0.toUInt32 with
  | none => .fail s
  | some i =>
    let fd := s.fds i
    let data := env.bytes a1 a2.toUInt32.toNat
    if a1 == 0 || data.isEmpty then .fail s
    else
      match fd.sock_type with
      | .raw =>
        match send_peer env fd a3 with
        | none => .fail s
        | some (remote_port, remote_ip) => s.raw_echo i remote_port remote_ip data
      | .dgram =>
        match send_peer env fd a3 with
        | none => .fail s
        | some (remote_port, remote_ip) => s.send_dgram i remote_port remote_ip data
      | .stream | .none =>
        if fd.sock_type == .stream && !fd.sock_connected then .fail s
        else if toGateway fd then
          match s.stream_host_response_prepare i data with
          | none => .fail s
          | some s' => .ret s' data.length
        else s.packet_put data

def syscall_op_recv (s : KState) (a0 a1 a2 a3 : UInt64) : Outcome :=
  match s.openSocket a0.toUInt32 with
  | none => .fail s
  | some i =>
    let fd := s.fds i
    let len := a2.toUInt32.toNat
    if a1 == 0 || len == 0 then .fail s
    else
      match fd.sock_type with
      | .raw => s.raw_take i a1 len (write_sockaddr a3 1 fd.sock_raw_src_ip)
      | .dgram => s.udp_take i a1 len a3
      | .stream | .none =>
        if fd.sock_type == .stream && !fd.sock_connected then .fail s
        else if toGateway fd then s.stream_take i a1 len
        else s.packet_take a1 len
end QosKernel.KState
