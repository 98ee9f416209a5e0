import QosKernel.Framework.System
import QosKernel.Net.CNet

/-! # TCP listeners and connections in the two kernels

The TCP part of `c-os/kernel/net/net.c`, called with the ids and event
numbers of the interface, and the `net_tcp_` functions of
`rust-os/kernel/src/lib.rs`. C keeps one record for each connection, Rust
one array for each field. States and events have the same numbers in both
kernels.
-/
open Framework
namespace QosKernel
open TcpState
def QOS_TCP_EVT_RX_SYN : UInt32 := 1
def QOS_TCP_EVT_RX_SYN_ACK : UInt32 := 2
def QOS_TCP_EVT_RX_ACK : UInt32 := 3
def QOS_TCP_EVT_APP_CLOSE : UInt32 := 4
def QOS_TCP_EVT_RX_FIN : UInt32 := 5
def QOS_TCP_EVT_TIMEOUT : UInt32 := 6

/-- The number of a state: `QOS_TCP_STATE_CLOSED` and so on. -/
def TcpState.code : TcpState → UInt32
  | .closed => 0
  | .listen => 1
  | .synSent => 2
  | .synReceived => 3
  | .established => 4
  | .finWait1 => 5
  | .finWait2 => 6
  | .closeWait => 7
  | .closing => 8
  | .lastAck => 9
  | .timeWait => 10

/-! ### C -/
namespace CTcp
/-- `qos_net_tcp_listen` with its return value. -/
def qos_net_tcp_listen (s : Net) (port : UInt16) : Int × Net :=
  match s.qos_net_tcp_listen port with
  | none => (-1, s)
  | some (i, s') => (i.val, s')

/-- `qos_net_tcp_connect` with its return value. -/
def qos_net_tcp_connect (s : Net) (local_port : UInt16) (remote_ip : UInt32)
    (remote_port : UInt16) : Int × Net :=
  match s.qos_net_tcp_connect local_port remote_ip remote_port with
  | none => (-1, s)
  | some (i, s') => (i.val, s')

/-- The `switch` over the states. -/
def tcp_switch (state : TcpState) (event : UInt32) : Option TcpState :=
  match state with
  | .listen => if event == QOS_TCP_EVT_RX_SYN then some .synReceived else none
  | .synSent => if event == QOS_TCP_EVT_RX_SYN_ACK then some .established else none
  | .synReceived => if event == QOS_TCP_EVT_RX_ACK then some .established else none
  | .established =>
    if event == QOS_TCP_EVT_APP_CLOSE then some .finWait1
    else if event == QOS_TCP_EVT_RX_FIN then some .closeWait
    else none
  | .finWait1 =>
    if event == QOS_TCP_EVT_RX_ACK then some .finWait2
    else if event == QOS_TCP_EVT_RX_FIN then some .closing
    else none
  | .finWait2 => if event == QOS_TCP_EVT_RX_FIN then some .timeWait else none
  | .closeWait => if event == QOS_TCP_EVT_APP_CLOSE then some .lastAck else none
  | .closing => if event == QOS_TCP_EVT_RX_ACK then some .timeWait else none
  | .lastAck => if event == QOS_TCP_EVT_RX_ACK then some .closed else none
  | .closed | .timeWait => none

/-- What an event makes of a connection; `none` is the return value -1. -/
def tcp_event (conn : TcpConn) (event : UInt32) : Option TcpConn :=
  if event == QOS_TCP_EVT_TIMEOUT && conn.state == .timeWait then
    some { conn with state := .closed }
  else if event == QOS_TCP_EVT_TIMEOUT && conn.state == .synSent then
    if 5 ≤ conn.retries then some { conn with state := .closed }
    else some { conn with
      retries := conn.retries + 1, rto_ms := Net.tcp_next_rto conn.rto_ms }
  else (tcp_switch conn.state event).map fun state => { conn with state := state }

theorem tcp_event_used {conn conn' : TcpConn} {event : UInt32}
    (h : tcp_event conn event = some conn') : conn'.used = conn.used := by
  unfold tcp_event at h
  split at h
  · cases h
    rfl
  split at h
  · split at h
    · cases h
      rfl
    cases h
    rfl
  obtain ⟨state, -, rfl⟩ := Option.map_eq_some_iff.mp h
  rfl

def qos_net_tcp_step (s : Net) (conn_id : Int) (event : UInt32) : Int × Net :=
  if h : 0 ≤ conn_id ∧ conn_id.toNat < QOS_NET_TCP_MAX_CONNS then
    let i : ConnSlot := ⟨conn_id.toNat, h.2⟩
    if !(s.conns i).used then (-1, s)
    else
      match tcp_event (s.conns i) event with
      | none => (-1, s)
      | some conn => (0, { s with conns := set s.conns i conn })
  else (-1, s)
end CTcp
/-! ### Rust -/
structure RustTcp where
  tcp_listener_used : ListenerSlot → UInt8
  tcp_listeners : ListenerSlot → UInt16
  tcp_conn_used : ConnSlot → UInt8
  tcp_conn_state : ConnSlot → UInt8
  tcp_local_port : ConnSlot → UInt16
  tcp_remote_port : ConnSlot → UInt16
  tcp_remote_ip : ConnSlot → UInt32
  tcp_rto_ms : ConnSlot → UInt32
  tcp_retries : ConnSlot → UInt8

namespace RustTcp
def new : RustTcp where
  tcp_listener_used _ := 0
  tcp_listeners _ := 0
  tcp_conn_used _ := 0
  tcp_conn_state _ := 0
  tcp_local_port _ := 0
  tcp_remote_port _ := 0
  tcp_remote_ip _ := 0
  tcp_rto_ms _ := 0
  tcp_retries _ := 0

section
variable (s : RustTcp) (port : UInt16)
/-- The test of the loops over the listeners. -/
def listensAt (i : ListenerSlot) : Bool :=
  s.tcp_listener_used i != 0 && s.tcp_listeners i == port

def net_tcp_listener_exists : Bool :=
  (first (s.listensAt port)).isSome

def net_tcp_listen : Option UInt16 × RustTcp :=
  if port < QOS_NET_PORT_MIN_DYNAMIC then (none, s)
  else if s.net_tcp_listener_exists port then (none, s)
  else
    match first fun i => s.tcp_listener_used i == 0 with
    | none => (none, s)
    | some i =>
      (some (.ofNat i.val), { s with
        tcp_listener_used := set s.tcp_listener_used i 1
        tcp_listeners := set s.tcp_listeners i port })

def net_tcp_unlisten : Bool × RustTcp :=
  if port < QOS_NET_PORT_MIN_DYNAMIC then (false, s)
  else
    match first (s.listensAt port) with
    | none => (false, s)
    | some i =>
      (true, { s with
        tcp_listener_used := set s.tcp_listener_used i 0
        tcp_listeners := set s.tcp_listeners i 0 })
end
def net_tcp_connect (s : RustTcp) (local_port : UInt16) (remote_ip : UInt32)
    (remote_port : UInt16) : Option UInt16 × RustTcp :=
  if local_port < QOS_NET_PORT_MIN_DYNAMIC || remote_ip == 0 || remote_port == 0 then (none, s)
  else if !s.net_tcp_listener_exists remote_port then (none, s)
  else
    match first fun i => s.tcp_conn_used i == 0 with
    | none => (none, s)
    | some i =>
      (some (.ofNat i.val), { s with
        tcp_conn_used := set s.tcp_conn_used i 1
        tcp_conn_state := set s.tcp_conn_state i synSent.code.toUInt8
        tcp_local_port := set s.tcp_local_port i local_port
        tcp_remote_port := set s.tcp_remote_port i remote_port
        tcp_remote_ip := set s.tcp_remote_ip i remote_ip
        tcp_rto_ms := set s.tcp_rto_ms i 500
        tcp_retries := set s.tcp_retries i 0 })

/-- `rto_ms.saturating_mul(2)` at the end. -/
def net_tcp_next_rto (rto_ms : UInt32) : UInt32 :=
  if 60000 ≤ rto_ms then 60000
  else if 30000 < rto_ms then 60000
  else .ofNat (min (rto_ms.toNat * 2) 0xFFFFFFFF)

/-- `retries.saturating_add(1)`. -/
def next_retries (retries : UInt8) : UInt8 := .ofNat (min (retries.toNat + 1) 0xFF)

section
variable (s : RustTcp) (i : ConnSlot)
/-- The connection at `i` moves to another state. -/
def moveTo (state : TcpState) : RustTcp :=
  { s with tcp_conn_state := set s.tcp_conn_state i state.code.toUInt8 }

/-- `net_tcp_step` behind the check of the id. -/
def stepConn (event : UInt32) : Bool × RustTcp :=
  let cur := (s.tcp_conn_state i).toUInt32
  if s.tcp_conn_used i == 0 then (false, s)
  else if event == QOS_TCP_EVT_TIMEOUT && cur == timeWait.code then
    (true, s.moveTo i .closed)
  else if event == QOS_TCP_EVT_TIMEOUT && cur == synSent.code then
    if 5 ≤ s.tcp_retries i then (true, s.moveTo i .closed)
    else
      (true, { s with
        tcp_retries := set s.tcp_retries i (next_retries (s.tcp_retries i))
        tcp_rto_ms := set s.tcp_rto_ms i (net_tcp_next_rto (s.tcp_rto_ms i)) })
  else if cur == listen.code && event == QOS_TCP_EVT_RX_SYN then
    (true, s.moveTo i .synReceived)
  else if cur == synSent.code && event == QOS_TCP_EVT_RX_SYN_ACK then
    (true, s.moveTo i .established)
  else if cur == synReceived.code && event == QOS_TCP_EVT_RX_ACK then
    (true, s.moveTo i .established)
  else if cur == established.code && event == QOS_TCP_EVT_APP_CLOSE then
    (true, s.moveTo i .finWait1)
  else if cur == established.code && event == QOS_TCP_EVT_RX_FIN then
    (true, s.moveTo i .closeWait)
  else if cur == finWait1.code && event == QOS_TCP_EVT_RX_ACK then
    (true, s.moveTo i .finWait2)
  else if cur == finWait1.code && event == QOS_TCP_EVT_RX_FIN then
    (true, s.moveTo i .closing)
  else if cur == finWait2.code && event == QOS_TCP_EVT_RX_FIN then
    (true, s.moveTo i .timeWait)
  else if cur == closeWait.code && event == QOS_TCP_EVT_APP_CLOSE then
    (true, s.moveTo i .lastAck)
  else if cur == closing.code && event == QOS_TCP_EVT_RX_ACK then
    (true, s.moveTo i .timeWait)
  else if cur == lastAck.code && event == QOS_TCP_EVT_RX_ACK then
    (true, s.moveTo i .closed)
  else (false, s)
end
def net_tcp_step (s : RustTcp) (conn_id : UInt16) (event : UInt32) : Bool × RustTcp :=
  if h : conn_id.toNat < QOS_NET_TCP_MAX_CONNS then s.stepConn ⟨conn_id.toNat, h⟩ event
  else (false, s)
end RustTcp
/-! ### Calls -/
inductive TcpCall where
  | listen (port : UInt16)
  | unlisten (port : UInt16)
  | connect (local_port : UInt16) (remote_ip : UInt32) (remote_port : UInt16)
  | step (conn_id : UInt16) (event : UInt32)

/-- The results of the Rust functions. -/
inductive TcpReply where
  | id (n : Option UInt16)
  | done (ok : Bool)

/-- The return value that stands for a result in C: an id, 0, or -1. -/
def TcpReply.rc : TcpReply → Int
  | .id none => -1
  | .id (some n) => n.toNat
  | .done ok => if ok then 0 else -1

def CTcp.call (s : Net) : TcpCall → Int × Net
  | .listen port => qos_net_tcp_listen s port
  | .unlisten port => s.qos_net_tcp_unlisten port
  | .connect local_port remote_ip remote_port =>
    qos_net_tcp_connect s local_port remote_ip remote_port
  | .step conn_id event => qos_net_tcp_step s conn_id.toNat event

def RustTcp.call (s : RustTcp) : TcpCall → TcpReply × RustTcp
  | .listen port => (.id (s.net_tcp_listen port).1, (s.net_tcp_listen port).2)
  | .unlisten port => (.done (s.net_tcp_unlisten port).1, (s.net_tcp_unlisten port).2)
  | .connect local_port remote_ip remote_port =>
    (.id (s.net_tcp_connect local_port remote_ip remote_port).1,
      (s.net_tcp_connect local_port remote_ip remote_port).2)
  | .step conn_id event => (.done (s.net_tcp_step conn_id event).1, (s.net_tcp_step conn_id event).2)
end QosKernel
