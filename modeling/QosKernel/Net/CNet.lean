import QosKernel.Framework.Ring
import QosKernel.Net.Udp

/-! # The C network layer

The packet queue, the ICMP echo and the TCP tables of
`c-os/kernel/net/net.c`. The ARP cache is not here: no system call
reaches it.
-/
open Framework
namespace QosKernel
def QOS_NET_MAX_QUEUE : Nat := 32
def QOS_NET_TCP_MAX_LISTENERS : Nat := 64
abbrev ListenerSlot := Fin QOS_NET_TCP_MAX_LISTENERS
def QOS_NET_TCP_MAX_CONNS : Nat := 128
abbrev ConnSlot := Fin QOS_NET_TCP_MAX_CONNS
def QOS_NET_IPV4_LOCAL : UInt32 := 0x0A00020F
def QOS_NET_IPV4_GATEWAY : UInt32 := 0x0A000202

inductive TcpState where
  | closed | listen | synSent | synReceived | established | finWait1 | finWait2 | closeWait
  | closing | lastAck | timeWait
  deriving DecidableEq

/-- The events of `qos_net_tcp_step`; `other` is any other event number. -/
inductive TcpEvent where
  | rxSyn | rxSynAck | rxAck | appClose | rxFin | timeout | other
  deriving DecidableEq

structure TcpConn where
  used : Bool
  state : TcpState
  local_port : UInt16
  remote_port : UInt16
  remote_ip : UInt32
  rto_ms : UInt32
  retries : UInt8
  deriving DecidableEq

def TcpConn.zero : TcpConn := ⟨false, .closed, 0, 0, 0, 0, 0⟩

structure Net where
  packets : Ring (List UInt8) QOS_NET_MAX_QUEUE
  udp : Udp
  listeners : ListenerSlot → Option UInt16
  conns : ConnSlot → TcpConn

namespace Net
def reset : Net where
  packets := .empty (by decide) []
  udp := .reset
  listeners _ := none
  conns _ := .zero

/-! ### Packets -/
/-- `data` is the buffer behind a pointer that is not null. -/
def qos_net_enqueue_packet (s : Net) (data : List UInt8) : Int × Net :=
  if data.length == 0 || QOS_NET_MAX_PACKET < data.length then (-1, s)
  else
    match s.packets.push data with
    | none => (-1, s)
    | some packets => (0, { s with packets := packets })

/-- The return value, the bytes written to the caller, and the state. -/
def qos_net_dequeue_packet (s : Net) (cap : Nat) : Int × List UInt8 × Net :=
  if cap == 0 then (-1, [], s)
  else
    match s.packets.pop with
    | none => (-1, [], s)
    | some (data, packets) =>
      if cap < data.length then (-1, [], s)
      else (data.length, data, { s with packets := packets })

/-- An echo request to the gateway or to the host itself is answered with its
payload: the reply and its source address. -/
def qos_net_icmp_echo (dst_ip : UInt32) (payload : List UInt8) (cap : Nat) :
    Option (List UInt8 × UInt32) :=
  if dst_ip == 0 || payload.length == 0 || QOS_NET_MAX_PACKET < payload.length ||
      cap < payload.length then none
  else if dst_ip ≠ QOS_NET_IPV4_GATEWAY ∧ dst_ip ≠ QOS_NET_IPV4_LOCAL then none
  else some (payload, dst_ip)

/-! ### TCP -/
section
variable (s : Net) (port : UInt16)
def tcp_listener_exists : Bool :=
  (first fun i => s.listeners i == some port).isSome

def qos_net_tcp_listen : Option (ListenerSlot × Net) :=
  if port < QOS_NET_PORT_MIN_DYNAMIC || s.tcp_listener_exists port then none
  else
    (first fun i => (s.listeners i).isNone).map fun i =>
      (i, { s with listeners := set s.listeners i (some port) })

def qos_net_tcp_unlisten : Int × Net :=
  match first fun i => s.listeners i == some port with
  | some i => (0, { s with listeners := set s.listeners i none })
  | none => (-1, s)
end
def qos_net_tcp_connect (s : Net) (local_port : UInt16) (remote_ip : UInt32)
    (remote_port : UInt16) : Option (ConnSlot × Net) :=
  if local_port < QOS_NET_PORT_MIN_DYNAMIC || remote_ip == 0 || remote_port == 0 ||
      !s.tcp_listener_exists remote_port then none
  else
    (first fun i => !(s.conns i).used).map fun i =>
      (i, { s with
        conns := set s.conns i ⟨true, .synSent, local_port, remote_port, remote_ip, 500, 0⟩ })

def tcp_next_rto (rto_ms : UInt32) : UInt32 :=
  if 60000 ≤ rto_ms then 60000 else if 30000 < rto_ms then 60000 else rto_ms * 2

/-- The state machine of a connection: `none` for an event that its state does
not take. -/
def tcp_transition (conn : TcpConn) (event : TcpEvent) : Option TcpConn :=
  match conn.state, event with
  | .timeWait, .timeout => some { conn with state := .closed }
  | .synSent, .timeout =>
    if 5 ≤ conn.retries then some { conn with state := .closed }
    else some { conn with retries := conn.retries + 1, rto_ms := tcp_next_rto conn.rto_ms }
  | .listen, .rxSyn => some { conn with state := .synReceived }
  | .synSent, .rxSynAck => some { conn with state := .established }
  | .synReceived, .rxAck => some { conn with state := .established }
  | .established, .appClose => some { conn with state := .finWait1 }
  | .established, .rxFin => some { conn with state := .closeWait }
  | .finWait1, .rxAck => some { conn with state := .finWait2 }
  | .finWait1, .rxFin => some { conn with state := .closing }
  | .finWait2, .rxFin => some { conn with state := .timeWait }
  | .closeWait, .appClose => some { conn with state := .lastAck }
  | .closing, .rxAck => some { conn with state := .timeWait }
  | .lastAck, .rxAck => some { conn with state := .closed }
  | _, _ => none

/-- `conn_id` is an id that `qos_net_tcp_connect` returned. -/
def qos_net_tcp_step (s : Net) (conn_id : ConnSlot) (event : TcpEvent) :
    Int × Net :=
  if !(s.conns conn_id).used then (-1, s)
  else
    match tcp_transition (s.conns conn_id) event with
    | none => (-1, s)
    | some conn => (0, { s with conns := set s.conns conn_id conn })
end Net
end QosKernel
