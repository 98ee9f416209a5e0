import QosKernel.Syscall.CContracts
import QosKernel.Syscall.Connections

/-! # Connections after any run of C system calls

The descriptors, the queues of the listeners and the connection table hold
copies of the same facts, and they agree in every run. A connection is
given out once and in order as long as listeners are not copied while
connections wait. Connection slots are never given back.
-/
open Framework
namespace QosKernel
variable {fd : Fd} {port : UInt16}
/-- The runs of the system calls, with what callers know of connections. -/
def streamRuns (vfs : Vfs) : System (KState × StreamLog) Syscall :=
  eventRuns vfs .empty StreamLog.record

def Fd.IsStream (fd : Fd) : Prop :=
  fd.used = true ∧ fd.kind = .socket ∧ fd.sock_type = .stream

theorem Fd.endpoint_of_isStream (h : fd.IsStream) : fd.endpoint = .stream fd.sock :=
  Fd.endpoint_stream h.1 h.2.1 h.2.2

theorem Fd.isStream_of_endpoint {k : StreamSock} (h : fd.endpoint = .stream k) :
    fd.IsStream ∧ fd.sock = k := by
  unfold Fd.endpoint at h
  split at h
  next hu =>
    split at h
    · cases h
    · cases h
    next hk =>
      split at h
      next ht => exact ⟨⟨hu, hk, ht⟩, Endpoint.stream.inj h⟩
      · cases h
    all_goals cases h
  · cases h

namespace Endpoints
theorem consistent_reset : Endpoints.reset.Consistent .empty := by
  intro i k hi
  cases hi

theorem counted_reset : Endpoints.reset.Counted .empty := by
  refine ⟨[], List.nodup_nil, rfl, fun c => ?_⟩
  exact iff_of_false Bool.false_ne_true List.not_mem_nil

theorem inOrder_reset : Endpoints.reset.InOrder .empty := by
  refine ⟨fun port => List.Sublist.refl _, fun i k hi => ?_⟩
  cases hi
end Endpoints
theorem consistent_of_reach {vfs : Vfs} {cond : KState → Syscall → Prop} {tr : List Syscall}
    {x : KState × StreamLog} (hr : (streamRuns vfs).Reach (fun x c => cond x.1 c) tr x) :
    x.1.Owns ∧ x.1.endpoints.Consistent x.2 ∧ x.1.endpoints.Counted x.2 := by
  apply eventRuns_invariant hr fun v l => v.Consistent l ∧ v.Counted l
  · exact ⟨Endpoints.consistent_reset, Endpoints.counted_reset⟩
  intro s l c v ⟨hok, hcounted⟩ _ he
  exact ⟨hok.effect he, hcounted.effect he⟩

/-! ### Descriptors, queues and the connection table -/
/-- Descriptors and waiting connections refer to established connections with
the same ports; `accepted` tells the descriptors that have their connection
from `ACCEPT`, which see it from the other side. -/
structure KState.ConnectionsInStep (s : KState) (accepted : FdNum → Bool) : Prop where
  conn : ∀ i, (s.fds i).IsStream → (s.fds i).sock_connected = true → 0 ≤ (s.fds i).sock_conn_id →
    ∃ c, (s.fds i).sock_conn_id = c.val ∧
      if accepted i then (s.net.conns c).Joins (s.fds i).sock_rport (s.fds i).sock_lport
      else (s.net.conns c).Joins (s.fds i).sock_lport (s.fds i).sock_rport
  pending : ∀ i, (s.fds i).IsStream → ∀ e ∈ (s.fds i).sock_pending.toList,
    ∃ c, e.conn_id = c.val ∧ (s.net.conns c).Joins e.rport (s.fds i).sock_lport

/-- After every run of system calls, every connected stream socket with a
connection id and every waiting connection refers to an established
connection with the same ports, or with the two ports swapped if the
socket is an accepted one. -/
theorem connections_consistent (vfs : Vfs) (tr : List Syscall) (x : KState × StreamLog)
    (hr : (streamRuns vfs).Reach anyStep tr x) : x.1.ConnectionsInStep x.2.fromAccept := by
  have hr : (streamRuns vfs).Reach (fun x c => anyStep x.1 c) tr x := hr
  obtain ⟨-, hok, -⟩ := consistent_of_reach hr
  constructor
  · intro i hi hc hid
    exact (hok i _ (Fd.endpoint_of_isStream hi)).conn hc hid
  intro i hi e he
  exact (hok i _ (Fd.endpoint_of_isStream hi)).pending e he

/-- A caller with a socket address for port 5000 of host 10.0.0.0 at
address 1. -/
def netEnv : Env :=
  { plainEnv with
    byte := fun a => if a == 3 then 19 else if a == 4 then 136 else if a == 5 then 10 else 0 }

/-- The numbers of the socket calls, a listener on port 5000 at descriptor 0
and a connection to it at descriptor 1. -/
def connectCalls : List Syscall :=
  [.register 8 24 0, .register 9 25 0, .register 14 30 0, .register 15 31 0, .register 16 32 0,
    .register 17 33 0, .register 18 34 0, .dispatch netEnv 14 2 1 0 0, .dispatch netEnv 15 0 1 8 0,
    .dispatch netEnv 16 0 4 0 0, .dispatch netEnv 14 2 1 0 0, .dispatch netEnv 18 1 1 8 0]

/-- The run, and then an `ACCEPT`: descriptor 2 is an accepted one, and its
connection has the ports swapped. -/
theorem connections_consistent_accepted : ∃ x,
    (streamRuns .reset).Reach anyStep (connectCalls ++ [.dispatch netEnv 17 0 0 0 0]) x ∧
    (x.1.fds ⟨2, by decide⟩).sock_connected = true ∧ x.2.fromAccept ⟨2, by decide⟩ = true ∧
    x.1.ConnectionsInStep x.2.fromAccept := by
  refine System.exists_exec (P := fun x => (x.1.fds ⟨2, by decide⟩).sock_connected = true ∧
    x.2.fromAccept ⟨2, by decide⟩ = true) ?_ ?_
  · decide +kernel
  intro x hr hx
  exact ⟨hx.1, hx.2, connections_consistent .reset _ x hr⟩

/-! ### Giving out connections -/
/-- If a connection is given out, no other descriptor that listens on the port
has connections waiting. -/
def KState.QueueAlone (s : KState) : Event → Prop
  | .accepted i _ _ _ => ∀ j, j ≠ i → KState.listensOn (s.fds i).sock_lport (s.fds j) = true →
      (s.fds j).sock_pending.count = 0
  | _ => True

instance (s : KState) : ∀ e, Decidable (s.QueueAlone e)
  | .accepted i _ _ _ => inferInstanceAs (Decidable (∀ j, j ≠ i →
      KState.listensOn (s.fds i).sock_lport (s.fds j) = true → (s.fds j).sock_pending.count = 0))
  | .quiet | .opened _ | .closed _ | .copied .. | .piped .. | .got .. | .wrote ..
  | .connected .. => .isTrue trivial

def KState.OneQueue (s : KState) (c : Syscall) : Prop := s.QueueAlone (s.event c)

instance (s : KState) (c : Syscall) : Decidable (s.OneQueue c) :=
  inferInstanceAs (Decidable (s.QueueAlone (s.event c)))

theorem KState.soleQueue_of_oneQueue {s : KState} {c : Syscall} (h : s.OneQueue c)
    {i j : FdNum} {conn_id : Int} (he : s.event c = .accepted i j port conn_id) :
    s.endpoints.SoleQueue i := by
  unfold OneQueue at h
  rw [he] at h
  change ∀ j, j ≠ i → _ at h
  intro k hi l m hl hlrow hlistening hport
  obtain ⟨-, rfl⟩ := Fd.isStream_of_endpoint hi
  obtain ⟨⟨hu, hk, ht⟩, rfl⟩ := Fd.isStream_of_endpoint hlrow
  have hlistens : KState.listensOn (s.fds i).sock_lport (s.fds l) = true := by
    have hport : (s.fds l).sock_lport = (s.fds i).sock_lport := hport
    have hlistening : (s.fds l).sock_listening = true := hlistening
    simp [KState.listensOn, hu, hk, ht, hlistening, hport]
  have hcount := h l hl hlistens
  exact List.length_eq_zero_iff.mp ((Ring.length_toList _).trans hcount)

/-- In every run in which a connection is given out only if no other descriptor
that listens on its port has connections waiting, no connection is given
out twice, and the connections given out on a port are some of those
established to it, in the same order. -/
theorem accepted_once_in_order (vfs : Vfs) (tr : List Syscall) (x : KState × StreamLog)
    (hr : (streamRuns vfs).Reach (fun x c => x.1.OneQueue c) tr x) :
    (x.2.established.map (·.2)).Nodup ∧ (x.2.accepted.map (·.2)).Nodup ∧
    ∀ port, List.Sublist (x.2.acceptedOn port) (x.2.establishedOn port) := by
  have hinv : x.1.Owns ∧ x.1.endpoints.Consistent x.2 ∧ x.1.endpoints.InOrder x.2 := by
    apply eventRuns_invariant hr fun v l => v.Consistent l ∧ v.InOrder l
    · exact ⟨Endpoints.consistent_reset, Endpoints.inOrder_reset⟩
    intro s l c v ⟨hok, horder⟩ hc he
    exact ⟨hok.effect he, horder.effect hok he fun _ _ _ _ heq => s.soleQueue_of_oneQueue hc heq⟩
  obtain ⟨-, -, hcounted⟩ := consistent_of_reach hr
  exact ⟨hcounted.established_nodup, hinv.2.2.accepted_nodup hcounted, hinv.2.2.order⟩

/-- Two connections wait at the listener and are given out in that order. -/
theorem accepted_once_in_order_two : ∃ x,
    (streamRuns .reset).Reach (fun x c => x.1.OneQueue c)
      (connectCalls ++ [.dispatch netEnv 14 2 1 0 0, .dispatch netEnv 18 2 1 8 0,
        .dispatch netEnv 17 0 0 0 0, .dispatch netEnv 17 0 0 0 0]) x ∧
    x.2.accepted = [(5000, 0), (5000, 1)] ∧
    List.Sublist (x.2.acceptedOn 5000) (x.2.establishedOn 5000) :=
  System.exists_execIf (P := fun x => x.2.accepted = [(5000, 0), (5000, 1)]) (by decide +kernel)
    fun x hr hx => ⟨hx, (accepted_once_in_order .reset _ x hr).2.2 5000⟩

/-- The listener is copied while a connection waits, and both copies give the
connection out. -/
theorem accepted_twice : ∃ x,
    (streamRuns .reset).Reach anyStep (connectCalls ++ [.dispatch netEnv 9 0 5 0 0,
      .dispatch netEnv 17 0 0 0 0, .dispatch netEnv 17 5 0 0 0]) x ∧
    x.2.established = [(5000, 0)] ∧ x.2.accepted = [(5000, 0), (5000, 0)] :=
  System.exists_exec (by decide +kernel) fun _ _ hx => hx

/-! ### Connection slots -/
namespace KState
variable {s : KState} {i : FdNum}
theorem binds_unique {hold : Hold} {type : SockType} {p q : UInt16} (hp : hold.binds type p)
    (hq : hold.binds type q) : p = q := by
  cases hold with
  | socket k => exact hp.2.2.symm.trans hq.2.2
  | nothing | file _ | pipe _ => exact hp.elim

theorem Owns.exists_free_port (h : s.Owns) :
    ∃ port ∈ portOrder, QOS_SOCK_PORT_MIN ≤ port ∧ s.stream_ports port = false := by
  have hval (n : Fin (QOS_FD_MAX + 1)) : (UInt16.ofNat (49152 + n.val)).toNat = 49152 + n.val := by
    have hn : n.val < 257 := n.isLt
    rw [UInt16.toNat_ofNat']
    omega
  by_contra hnot
  have hmarked : ∀ n : Fin (QOS_FD_MAX + 1),
      s.stream_ports (UInt16.ofNat (49152 + n.val)) = true := by
    intro n
    by_contra hfree
    refine hnot ⟨UInt16.ofNat (49152 + n.val), ?_, ?_, Bool.eq_false_iff.mpr hfree⟩
    · have hn : n.val < 257 := n.isLt
      apply List.mem_map_of_mem
      apply List.mem_append_left
      rw [List.mem_range'_1]
      omega
    rw [UInt16.le_iff_toNat_le, hval]
    have hmin : QOS_SOCK_PORT_MIN.toNat = 1024 := rfl
    omega
  have hheld : ∀ n : Fin (QOS_FD_MAX + 1), ∃ j,
      (s.holds j).binds .stream (UInt16.ofNat (49152 + n.val)) :=
    fun n => h.ns.stream.held _ (hmarked n)
  choose row hrow using hheld
  -- a row holds one port only
  have hinj : Function.Injective row := by
    intro n m hnm
    have hm := hrow m
    rw [← hnm] at hm
    have hport := congrArg UInt16.toNat (binds_unique (hrow n) hm)
    rw [hval, hval] at hport
    exact Fin.ext (Nat.add_left_cancel hport)
  have hcard := Fintype.card_le_of_injective row hinj
  rw [Fintype.card_fin, Fintype.card_fin] at hcard
  exact absurd hcard (Nat.not_succ_le_self QOS_FD_MAX)

theorem Owns.exists_local_port (h : s.Owns) (hi : (s.fds i).IsStream) :
    ∃ port allocated s', s.stream_local_port i = some (port, allocated, s') ∧
      QOS_SOCK_PORT_MIN ≤ port := by
  unfold KState.stream_local_port
  split
  next hz =>
    cases halloc : s.socket_port_alloc .stream with
    | none =>
      obtain ⟨port, hmem, hmin, hfree⟩ := h.exists_free_port
      have hnone := List.findSome?_eq_none_iff.mp halloc port hmem
      simp [KState.socket_port_mark, UInt16.not_lt.mpr hmin, hfree] at hnone
    | some r =>
    exact ⟨r.1, true, r.2, rfl, (socket_port_mark_stream (socket_port_alloc_some halloc)).1⟩
  next hz =>
  have hb := h.bound_of_port hi.1 hi.2.1 (.inl hi.2.2) (by simpa using hz)
  have hkey := h.ns.keys i _ (Fd.hold_socket hi.1 hi.2.1 (.inl hi.2.2))
  exact ⟨_, false, s, rfl, hkey.bound hb⟩

theorem Owns.connect_listener_rc (h : s.Owns) (hi : (s.fds i).IsStream) {l : FdNum}
    (hli : l ≠ i) {remote_port : UInt16} {remote_ip : UInt32}
    (hl : listensOn remote_port (s.fds l) = true) (hport : remote_port ≠ 0) (hip : remote_ip ≠ 0)
    (hbacklog : 0 < (s.fds l).sock_backlog.val) (hempty : (s.fds l).sock_pending.count = 0) :
    (s.connect_listener i l remote_port remote_ip).rc = 0 ↔ ∃ c, (s.net.conns c).used = false := by
  constructor
  · intro hrc
    rcases s.connect_listener_cases hli remote_port remote_ip with
      heq | ⟨port, c, pending, t, -, hconn, -⟩
    · rw [heq] at hrc
      cases hrc
    exact ⟨c, hconn.free⟩
  rintro ⟨c, hc⟩
  obtain ⟨port, allocated, s1, hlocal, hmin⟩ := h.exists_local_port hi
  obtain ⟨ports, rfl⟩ := stream_local_port_frame hlocal
  have hlistener : s.net.tcp_listener_exists remote_port = true :=
    Net.tcp_listener_exists_iff.mpr (h.ns.tcp.live _ ⟨l, listensOn_iff.mp hl⟩)
  have hconnect : ∃ d net, s.net.qos_net_tcp_connect port remote_ip remote_port =
      some (d, net) := by
    have hguard : ¬(port < QOS_NET_PORT_MIN_DYNAMIC || remote_ip == 0 || remote_port == 0 ||
        !s.net.tcp_listener_exists remote_port) = true := by
      have hlow : ¬port < QOS_NET_PORT_MIN_DYNAMIC := UInt16.not_lt.mpr hmin
      simp [hlow, hip, hport, hlistener]
    obtain ⟨d, hd⟩ := Option.isSome_iff_exists.mp (first_isSome.mpr ⟨c, by rw [hc]; rfl⟩ :
        (first fun c => !(s.net.conns c).used).isSome = true)
    unfold Net.qos_net_tcp_connect
    rw [if_neg hguard, hd]
    exact ⟨d, _, rfl⟩
  obtain ⟨d, net, hconnect⟩ := hconnect
  obtain ⟨-, -, rfl⟩ := Net.qos_net_tcp_connect_some hconnect
  have hroom : ¬((s.fds l).sock_backlog.val == 0 ||
      decide ((s.fds l).sock_backlog.val ≤ (s.fds l).sock_pending.count)) = true := by
    simp only [Bool.or_eq_true, beq_iff_eq, decide_eq_true_eq, hempty]
    omega
  unfold KState.connect_listener
  dsimp only
  rw [if_neg hroom, hlocal]
  dsimp only
  rw [hconnect]
  dsimp only
  rw [Net.qos_net_tcp_step_synAck, if_neg (fun hrc => hrc rfl)]
  simp only [setFd_ne hli]
  split
  next hpush =>
    have hfull := Ring.push_none hpush
    rw [hempty] at hfull
    exact absurd hfull (by decide)
  · rfl
end KState
theorem Fd.listensOn_iff_isListener : KState.listensOn port fd = true ↔ fd.IsListener port := by
  rw [KState.listensOn_iff, Fd.isListener_iff]

/-- A `CONNECT` of the open stream socket `i` to a port on which others listen,
all with nothing waiting. -/
structure KState.FreshConnect (s : KState) (env : Env) (a0 a1 a2 : UInt64) (i : FdNum)
    (port : UInt16) (ip : UInt32) : Prop where
  socket : s.openSocket a0.toUInt32 = some i
  stream : (s.fds i).sock_type = .stream
  address : parse_sockaddr env a1 a2.toUInt32 false = some (port, ip)
  listener : ∃ l, l ≠ i ∧ (s.fds l).IsListener port
  fresh : ∀ l, l ≠ i → (s.fds l).IsListener port → (s.fds l).sock_pending.count = 0

theorem parse_sockaddr_some {env : Env} {addr : UInt64} {len : UInt32} {ip : UInt32}
    (h : parse_sockaddr env addr len false = some (port, ip)) : port ≠ 0 ∧ ip ≠ 0 := by
  unfold parse_sockaddr at h
  split at h
  · cases h
  dsimp only at h
  split at h
  · cases h
  next hport =>
  split at h
  · cases h
  next hip =>
  obtain ⟨rfl, rfl⟩ := Prod.mk.inj (Option.some.inj h)
  exact ⟨by simpa using hport, by simpa using hip⟩

/-- After every run of system calls, no connection slot is in use exactly if no
connection to a listener was ever established, whatever was closed since;
and a `CONNECT` to listeners with nothing waiting succeeds exactly if fewer
than 128 connections were ever established. -/
theorem connection_slots (vfs : Vfs) (tr : List Syscall) (x : KState × StreamLog)
    (hr : (streamRuns vfs).Reach anyStep tr x) :
    ((∀ c, (x.1.net.conns c).used = false) ↔ x.2.established = []) ∧
    ∀ env a0 a1 a2 i port ip, x.1.FreshConnect env a0 a1 a2 i port ip →
      ((x.1.syscall_op_connect env a0 a1 a2).rc = 0 ↔ x.2.established.length < 128) := by
  have hr : (streamRuns vfs).Reach (fun x c => anyStep x.1 c) tr x := hr
  obtain ⟨howns, hok, hcounted⟩ := consistent_of_reach hr
  refine ⟨hcounted.unused_iff, ?_⟩
  rintro env a0 a1 a2 i port ip ⟨hsocket, hstream, haddress, ⟨l, hli, hlistener⟩, hfresh⟩
  obtain ⟨hu, hk⟩ := KState.openSocket_some hsocket
  obtain ⟨hport, hip⟩ := parse_sockaddr_some haddress
  have hfree : (∃ c, (x.1.net.conns c).used = false) ↔ x.2.established.length < 128 :=
    hcounted.free_iff
  unfold KState.syscall_op_connect KState.connect_socket
  rw [hsocket]
  dsimp only
  rw [haddress]
  dsimp only
  rw [hstream]
  dsimp only
  split
  next hnone =>
    have hno := first_none.mp hnone l
    simp [hli, Fd.listensOn_iff_isListener.mpr hlistener] at hno
  next m hm =>
  have hfirst := first_some hm
  simp only [Bool.and_eq_true, decide_eq_true_eq] at hfirst
  have hlisten := Fd.listensOn_iff_isListener.mp hfirst.2
  have hbacklog := (hok m _ (Fd.endpoint_stream hlisten.1 hlisten.2.1 hlisten.2.2.1)).backlog
    hlisten.2.2.2.1
  rw [← hfree]
  exact howns.connect_listener_rc ⟨hu, hk, hstream⟩ hfirst.1 hfirst.2 hport hip hbacklog
    (hfresh m hfirst.1 hlisten)

/-- The run up to the `CONNECT`, which then succeeds. -/
theorem connection_slots_fresh : ∃ x, (streamRuns .reset).Reach anyStep (connectCalls.take 11) x ∧
    x.1.FreshConnect netEnv 1 1 8 ⟨1, by decide⟩ 5000 0x0A000000 ∧
    (x.1.syscall_op_connect netEnv 1 1 8).rc = 0 := by
  refine System.exists_exec (P := fun x => x.1.openSocket 1 = some ⟨1, by decide⟩ ∧
    (x.1.fds ⟨1, by decide⟩).sock_type = .stream ∧
    KState.listensOn 5000 (x.1.fds ⟨0, by decide⟩) = true ∧
    (∀ l, l ≠ ⟨1, by decide⟩ → KState.listensOn 5000 (x.1.fds l) = true →
      (x.1.fds l).sock_pending.count = 0) ∧ x.2.established = []) ?_ ?_
  · decide +kernel
  rintro x hr ⟨hsocket, hstream, hlistener, hfresh, hnone⟩
  have hconnect : x.1.FreshConnect netEnv 1 1 8 ⟨1, by decide⟩ 5000 0x0A000000 :=
    ⟨hsocket, hstream, by decide +kernel, ⟨_, by decide, Fd.listensOn_iff_isListener.mp hlistener⟩,
      fun l hl hlisten => hfresh l hl (Fd.listensOn_iff_isListener.mpr hlisten)⟩
  refine ⟨hconnect, ?_⟩
  rw [(connection_slots .reset _ x hr).2 _ _ _ _ _ _ _ hconnect, hnone]
  decide

/-- The run, and then both sockets are closed: no descriptor is open, and the
slot is still in use. -/
theorem connection_slot_kept : ∃ x,
    (streamRuns .reset).Reach anyStep
      (connectCalls ++ [.dispatch netEnv 8 1 0 0 0, .dispatch netEnv 8 0 0 0 0]) x ∧
    (∀ i, (x.1.fds i).used = false) ∧ (x.1.net.conns ⟨0, by decide⟩).used = true :=
  System.exists_exec (by decide +kernel) fun _ _ hx => hx

/-! ### A connect that fails -/
/-- A call that fails has changed nothing. -/
def Outcome.Kept (s : KState) (o : Outcome) : Prop := o.rc < 0 → o.state = s

namespace KState
variable {s : KState} {i : FdNum}
theorem kept_ret (t : KState) : (Outcome.ret t 0).Kept s := fun h => absurd h (Int.lt_irrefl 0)

theorem dgram_local_port_failed (h : (s.dgram_local_port i).1 = false) :
    (s.dgram_local_port i).2 = s := by
  unfold dgram_local_port at h ⊢
  split
  next hz =>
    rw [if_pos hz] at h
    split
    · rfl
    next port s1 hm =>
    simp only [hm] at h
    rcases Owns.udp_claim_cases (socket_port_alloc_some hm) with heq | ⟨u, -, -, heq⟩
    · simp [heq]
    simp [heq] at h
  · rfl

/-- Once a connection slot is taken, the handshake step succeeds, and the queue
of the listener has room, since its backlog was looked at before. -/
theorem connect_late {l : FdNum} {port remote_port : UInt16} {remote_ip : UInt32}
    {allocated : Bool} {s1 : KState} {c : ConnSlot} {net : Net} (hli : l ≠ i)
    (hroom : (s.fds l).sock_pending.count < (s.fds l).sock_backlog.val)
    (hs : s.stream_local_port i = some (port, allocated, s1))
    (hc : s1.net.qos_net_tcp_connect port remote_ip remote_port = some (c, net)) (fd : Fd)
    (peer : PendingConn) :
    (net.qos_net_tcp_step c .rxSynAck).1 = 0 ∧
      (({ s1 with net := (net.qos_net_tcp_step c .rxSynAck).2 }.setFd i fd).fds l).sock_pending.push
        peer ≠ none := by
  obtain ⟨ports, rfl⟩ := stream_local_port_frame hs
  obtain ⟨-, -, rfl⟩ := Net.qos_net_tcp_connect_some hc
  rw [Net.qos_net_tcp_step_synAck, setFd_ne hli]
  refine ⟨rfl, fun hpush => ?_⟩
  have hfull := Ring.push_none hpush
  have hlt := (s.fds l).sock_backlog.isLt
  dsimp only at hfull
  omega

theorem connect_gateway_kept (s : KState) (i : FdNum) (remote_port : UInt16)
    (remote_ip : UInt32) : (s.connect_gateway i remote_port remote_ip).Kept s := by
  unfold connect_gateway
  split
  · exact fun _ => rfl
  split
  · exact fun _ => rfl
  exact kept_ret _

theorem connect_kept (env : Env) (s : KState) (a0 a1 a2 : UInt64) :
    (s.syscall_op_connect env a0 a1 a2).Kept s := by
  simp only [syscall_op_connect, connect_socket]
  split
  · exact fun _ => rfl
  next i hi =>
  split
  · exact fun _ => rfl
  split
  · split
    · exact connect_gateway_kept s i _ _
    next l hl =>
    have hfirst := first_some hl
    simp only [Bool.and_eq_true, decide_eq_true_eq] at hfirst
    obtain heq | ⟨port, c, pending, t, heq, -, -⟩ := s.connect_listener_cases hfirst.1 _ _
    · rw [heq]
      exact fun _ => rfl
    rw [heq]
    exact kept_ret t
  · cases hport : (s.dgram_local_port i).1 with
    | true => exact kept_ret _
    | false => exact fun _ => dgram_local_port_failed hport
  · exact kept_ret _
  exact fun _ => rfl
end KState
/-- `CONNECT` is atomic in every state: if it fails, nothing has changed, and the
two failures behind the taking of a connection slot do not happen. -/
theorem connect_atomic (env : Env) (s : KState) (a0 a1 a2 : UInt64) :
    (s.syscall_op_connect env a0 a1 a2).Kept s ∧
    ∀ i l port remote_port remote_ip allocated s1 c net, l ≠ i →
      (s.fds l).sock_pending.count < (s.fds l).sock_backlog.val →
      s.stream_local_port i = some (port, allocated, s1) →
      s1.net.qos_net_tcp_connect port remote_ip remote_port = some (c, net) → ∀ fd peer,
        (net.qos_net_tcp_step c .rxSynAck).1 = 0 ∧
        (({ s1 with net := (net.qos_net_tcp_step c .rxSynAck).2 }.setFd i
          fd).fds l).sock_pending.push peer ≠ none :=
  ⟨s.connect_kept env a0 a1 a2, fun _ _ _ _ _ _ _ _ _ hli hroom hs hc =>
    KState.connect_late hli hroom hs hc⟩
end QosKernel
