import QosKernel.Net.RustTcp

/-! # The two TCP layers side by side

Both layers get the same calls. `TcpSame` ties their tables; every call
keeps it and returns corresponding results. Rust refuses to unlisten a
port below `QOS_NET_PORT_MIN_DYNAMIC` and C does not look at the port: no
listener has such a port, so C finds none.
-/
open Framework
namespace QosKernel
/-! ### The state machine -/
def TcpEvent.ofCode (event : UInt32) : TcpEvent :=
  if event == QOS_TCP_EVT_RX_SYN then .rxSyn
  else if event == QOS_TCP_EVT_RX_SYN_ACK then .rxSynAck
  else if event == QOS_TCP_EVT_RX_ACK then .rxAck
  else if event == QOS_TCP_EVT_APP_CLOSE then .appClose
  else if event == QOS_TCP_EVT_RX_FIN then .rxFin
  else if event == QOS_TCP_EVT_TIMEOUT then .timeout
  else .other

theorem event_cases (event : UInt32) :
    event = QOS_TCP_EVT_RX_SYN ∨ event = QOS_TCP_EVT_RX_SYN_ACK ∨ event = QOS_TCP_EVT_RX_ACK ∨
    event = QOS_TCP_EVT_APP_CLOSE ∨ event = QOS_TCP_EVT_RX_FIN ∨ event = QOS_TCP_EVT_TIMEOUT ∨
    ((event == QOS_TCP_EVT_RX_SYN) = false ∧ (event == QOS_TCP_EVT_RX_SYN_ACK) = false ∧
      (event == QOS_TCP_EVT_RX_ACK) = false ∧ (event == QOS_TCP_EVT_APP_CLOSE) = false ∧
      (event == QOS_TCP_EVT_RX_FIN) = false ∧ (event == QOS_TCP_EVT_TIMEOUT) = false) := by
  simp only [beq_eq_false_iff_ne]
  tauto

theorem CTcp.tcp_event_eq (conn : TcpConn) (event : UInt32) :
    tcp_event conn event = Net.tcp_transition conn (.ofCode event) := by
  obtain ⟨used, state, local_port, remote_port, remote_ip, rto_ms, retries⟩ := conn
  rcases event_cases event with rfl | rfl | rfl | rfl | rfl | rfl | ⟨h1, h2, h3, h4, h5, h6⟩
  case inr.inr.inr.inr.inr.inr =>
    cases state <;> simp [tcp_event, tcp_switch, TcpEvent.ofCode, Net.tcp_transition, *]
  all_goals cases state <;> rfl

theorem CTcp.qos_net_tcp_step_eq (s : Net) (i : ConnSlot) (event : UInt32) :
    qos_net_tcp_step s i.val event = s.qos_net_tcp_step i (.ofCode event) := by
  unfold qos_net_tcp_step Net.qos_net_tcp_step
  have hi : (0 : Int) ≤ (i.val : Int) ∧ (i.val : Int).toNat < QOS_NET_TCP_MAX_CONNS :=
    ⟨Int.natCast_nonneg _, i.isLt⟩
  simp only [tcp_event_eq]
  exact dif_pos hi

/-! ### Retries -/
section retries
variable {conn conn' : TcpConn} {s : Net}
/-- Not a listener, and 500 ms were doubled with each of at most 5 retries. -/
def TcpConn.Dialled (conn : TcpConn) : Prop :=
  conn.state ≠ .listen ∧ conn.state ≠ .synReceived ∧ (conn.rto_ms, conn.retries) ∈
    [(500, 0), (1000, 1), (2000, 2), (4000, 3), (8000, 4), (16000, 5)]

theorem TcpConn.Dialled.event {event : UInt32} (h : conn.Dialled)
    (hev : CTcp.tcp_event conn event = some conn') : conn'.Dialled := by
  rw [CTcp.tcp_event_eq] at hev
  unfold Net.tcp_transition at hev
  split at hev <;> grind [TcpConn.Dialled, Net.tcp_next_rto]

/-- Every connection in use is one of a call of `qos_net_tcp_connect`. -/
def Net.Dialled (s : Net) : Prop := ∀ i, (s.conns i).used = true → (s.conns i).Dialled

theorem Net.Dialled.setConn (h : s.Dialled) (i : ConnSlot) (hconn : conn.Dialled) :
    { s with conns := set s.conns i conn }.Dialled := by
  intro j hj
  by_cases hji : j = i
  · subst hji
    simpa only [set_self] using hconn
  simp only [set_ne hji] at hj ⊢
  exact h j hj

theorem Net.Dialled.call (h : s.Dialled) (call : TcpCall) : (CTcp.call s call).2.Dialled := by
  cases call with
  | listen port =>
    dsimp only [CTcp.call, CTcp.qos_net_tcp_listen, Net.qos_net_tcp_listen]
    split
    · exact h
    next heq =>
    obtain ⟨-, heq⟩ := Option.ite_none_left_eq_some.mp heq
    obtain ⟨i, -, heq⟩ := Option.map_eq_some_iff.mp heq
    cases heq
    exact h
  | unlisten port =>
    dsimp only [CTcp.call, Net.qos_net_tcp_unlisten]
    split <;> exact h
  | connect local_port remote_ip remote_port =>
    dsimp only [CTcp.call, CTcp.qos_net_tcp_connect, Net.qos_net_tcp_connect]
    split
    · exact h
    next heq =>
    obtain ⟨-, heq⟩ := Option.ite_none_left_eq_some.mp heq
    obtain ⟨i, -, heq⟩ := Option.map_eq_some_iff.mp heq
    cases heq
    exact h.setConn _ (by simp [TcpConn.Dialled])
  | step conn_id event =>
  dsimp only [CTcp.call, CTcp.qos_net_tcp_step]
  split
  · split
    · exact h
    next hused =>
    split
    · exact h
    next hev => exact h.setConn _ ((h _ (by simpa using hused)).event hev)
  exact h

/-- The network after calls of the TCP layer. -/
def CTcp.run (calls : List TcpCall) : Net := calls.foldl (fun s c => (call s c).2) .reset

/-- Whatever calls and events come, the limit of 60 s is out of reach. -/
theorem tcp_backoff (calls : List TcpCall) (i : ConnSlot)
    (hused : ((CTcp.run calls).conns i).used = true) : ((CTcp.run calls).conns i).Dialled := by
  have hrun : (CTcp.run calls).Dialled := by
    refine List.foldlRecOn calls _ (fun _ hused => absurd hused Bool.false_ne_true) ?_
    exact fun _ h call _ => h.call call
  exact hrun i hused

theorem tcp_backoff_retried :
    ∃ conn, (CTcp.run [.listen 5000, .connect 49152 1 5000, .step 0 6, .step 0 6]).conns
        ⟨0, by decide⟩ = conn ∧ conn.used = true ∧ conn.rto_ms = 2000 ∧ conn.Dialled :=
  ⟨_, rfl, by decide, by decide, tcp_backoff _ _ (by decide)⟩
end retries
/-! ### Connections -/
/-- Row `i` of the arrays holds the connection. -/
structure ConnSame (conn : TcpConn) (r : RustTcp) (i : ConnSlot) : Prop where
  used : conn.used = (r.tcp_conn_used i != 0)
  state : conn.state.code.toUInt8 = r.tcp_conn_state i
  local_port : conn.local_port = r.tcp_local_port i
  remote_port : conn.remote_port = r.tcp_remote_port i
  remote_ip : conn.remote_ip = r.tcp_remote_ip i
  rto_ms : conn.rto_ms = r.tcp_rto_ms i
  retries : conn.retries = r.tcp_retries i

namespace RustTcp
def setConn (r : RustTcp) (i : ConnSlot) (used : UInt8) (conn : TcpConn) :
    RustTcp :=
  { r with
    tcp_conn_used := set r.tcp_conn_used i used
    tcp_conn_state := set r.tcp_conn_state i conn.state.code.toUInt8
    tcp_local_port := set r.tcp_local_port i conn.local_port
    tcp_remote_port := set r.tcp_remote_port i conn.remote_port
    tcp_remote_ip := set r.tcp_remote_ip i conn.remote_ip
    tcp_rto_ms := set r.tcp_rto_ms i conn.rto_ms
    tcp_retries := set r.tcp_retries i conn.retries }
end RustTcp
section conns
variable {used : UInt8} {conn : TcpConn} {r : RustTcp} {i : ConnSlot}
theorem connSame_setConn (h : conn.used = (used != 0)) :
    ConnSame conn (r.setConn i used conn) i := by
  constructor <;> simp [RustTcp.setConn, h]

theorem ConnSame.setConn_ne {conn' : TcpConn} {j : ConnSlot}
    (h : ConnSame conn r j) (hj : j ≠ i) : ConnSame conn (r.setConn i used conn') j := by
  constructor
  · exact h.used.trans (by simp [RustTcp.setConn, hj])
  · exact h.state.trans (by simp [RustTcp.setConn, hj])
  · exact h.local_port.trans (by simp [RustTcp.setConn, hj])
  · exact h.remote_port.trans (by simp [RustTcp.setConn, hj])
  · exact h.remote_ip.trans (by simp [RustTcp.setConn, hj])
  · exact h.rto_ms.trans (by simp [RustTcp.setConn, hj])
  exact h.retries.trans (by simp [RustTcp.setConn, hj])

theorem ConnSame.moveTo (h : ConnSame conn r i) (state : TcpState) :
    r.moveTo i state = r.setConn i (r.tcp_conn_used i) { conn with state := state } := by
  simp only [RustTcp.moveTo, RustTcp.setConn, h.local_port, h.remote_port, h.remote_ip, h.rto_ms,
    h.retries, set_eq_self]

/-- Below the limit the two ways to count and to back off are the same. -/
theorem next_retries_eq {retries : UInt8} (h : ¬5 ≤ retries) :
    RustTcp.next_retries retries = retries + 1 := by
  rw [UInt8.le_iff_toNat_le] at h
  apply UInt8.toNat_inj.mp
  have hlt : retries.toNat < 5 := Nat.lt_of_not_le h
  rw [RustTcp.next_retries, UInt8.toNat_ofNat', UInt8.toNat_add, UInt8.toNat_one]
  omega

theorem net_tcp_next_rto_eq (rto_ms : UInt32) :
    RustTcp.net_tcp_next_rto rto_ms = Net.tcp_next_rto rto_ms := by
  unfold RustTcp.net_tcp_next_rto Net.tcp_next_rto
  split
  · rfl
  split
  · rfl
  rename_i h
  rw [UInt32.lt_iff_toNat_lt] at h
  have hle : rto_ms.toNat ≤ 30000 := Nat.le_of_not_lt h
  apply UInt32.toNat_inj.mp
  rw [UInt32.toNat_ofNat', UInt32.toNat_mul]
  have htwo : (2 : UInt32).toNat = 2 := rfl
  rw [htwo]
  omega

theorem ConnSame.retry (h : ConnSame conn r i) (hlt : ¬5 ≤ conn.retries) :
    { r with
      tcp_retries := set r.tcp_retries i (RustTcp.next_retries (r.tcp_retries i))
      tcp_rto_ms := set r.tcp_rto_ms i (RustTcp.net_tcp_next_rto (r.tcp_rto_ms i)) } =
    r.setConn i (r.tcp_conn_used i) { conn with
      retries := conn.retries + 1, rto_ms := Net.tcp_next_rto conn.rto_ms } := by
  rw [← h.retries, ← h.rto_ms, next_retries_eq hlt, net_tcp_next_rto_eq]
  simp only [RustTcp.setConn, h.state, h.local_port, h.remote_port, h.remote_ip, set_eq_self]

theorem code_round (state : TcpState) : state.code.toUInt8.toUInt32 = state.code := by
  cases state <;> rfl

/-- The chain of tests in Rust does what the C code does. -/
theorem ConnSame.step (h : ConnSame conn r i) (hused : conn.used = true) (event : UInt32) :
    r.stepConn i event =
      match CTcp.tcp_event conn event with
      | none => (false, r)
      | some conn' => (true, r.setConn i (r.tcp_conn_used i) conn') := by
  have hopen : (r.tcp_conn_used i == 0) = false := by
    have hne := h.used
    rw [hused] at hne
    simpa using hne.symm
  rw [RustTcp.stepConn, hopen, ← h.state, code_round]
  simp only [h.moveTo]
  -- only a timeout of a connection request looks at the retries
  rcases event_cases event with rfl | rfl | rfl | rfl | rfl | rfl | ⟨h1, h2, h3, h4, h5, h6⟩
  case inr.inr.inr.inr.inr.inl =>
    by_cases hretry : 5 ≤ conn.retries
    · have hretry' : 5 ≤ r.tcp_retries i := h.retries ▸ hretry
      rw [if_pos hretry']
      cases hs : conn.state <;> simp only [CTcp.tcp_event, hs, if_pos hretry] <;> rfl
    have hretry' : ¬5 ≤ r.tcp_retries i := h.retries ▸ hretry
    rw [if_neg hretry', h.retry hretry]
    cases hs : conn.state <;> simp only [CTcp.tcp_event, hs, if_neg hretry] <;> rfl
  case inr.inr.inr.inr.inr.inr =>
    cases hs : conn.state <;> simp [CTcp.tcp_event, CTcp.tcp_switch, *]
  all_goals cases hs : conn.state <;> simp only [CTcp.tcp_event, hs] <;> rfl
end conns
/-! ### The tables -/
/-- The two layers hold the same listeners and connections. -/
structure TcpSame (c : Net) (r : RustTcp) : Prop where
  listeners : ∀ i, c.listeners i =
    if r.tcp_listener_used i == 0 then none else some (r.tcp_listeners i)
  /-- Ports below the limit are refused by both. -/
  dynamic : ∀ i port, c.listeners i = some port → ¬port < QOS_NET_PORT_MIN_DYNAMIC
  conns : ∀ i, ConnSame (c.conns i) r i

namespace TcpSame
variable {c : Net} {r : RustTcp}
theorem init : TcpSame .reset .new where
  listeners _ := rfl
  dynamic _ _ h := by cases h
  conns _ := by constructor <;> rfl

section
variable (h : TcpSame c r)
include h
theorem listensAt_eq (port : UInt16) (i : ListenerSlot) :
    (c.listeners i == some port) = r.listensAt port i := by
  rw [h.listeners i, RustTcp.listensAt]
  cases hused : r.tcp_listener_used i == 0 <;> simp [bne, hused]

theorem listener_exists_eq (port : UInt16) :
    c.tcp_listener_exists port = r.net_tcp_listener_exists port := by
  rw [Net.tcp_listener_exists, RustTcp.net_tcp_listener_exists, first_congr (h.listensAt_eq port)]

theorem free_listener_eq (i : ListenerSlot) :
    (c.listeners i).isNone = (r.tcp_listener_used i == 0) := by
  rw [h.listeners i]
  cases r.tcp_listener_used i == 0 <;> rfl

theorem free_conn_eq (i : ConnSlot) :
    (!(c.conns i).used) = (r.tcp_conn_used i == 0) := by
  rw [(h.conns i).used, bne, Bool.not_not]

theorem setListener (i : ListenerSlot) {port : Option UInt16}
    {used : UInt8} {value : UInt16} (hport : port = if used == 0 then none else some value)
    (hdyn : ∀ p, port = some p → ¬p < QOS_NET_PORT_MIN_DYNAMIC) :
    TcpSame { c with listeners := set c.listeners i port }
      { r with
        tcp_listener_used := set r.tcp_listener_used i used
        tcp_listeners := set r.tcp_listeners i value } where
  listeners j := by
    by_cases hj : j = i
    · subst hj
      simp only [set_self, hport]
    simp only [set_ne hj, h.listeners j]
  dynamic j p hp := by
    by_cases hj : j = i
    · rw [hj] at hp
      exact hdyn p (set_self.symm.trans hp)
    exact h.dynamic j p ((set_ne hj).symm.trans hp)
  conns j := ⟨(h.conns j).used, (h.conns j).state, (h.conns j).local_port, (h.conns j).remote_port,
    (h.conns j).remote_ip, (h.conns j).rto_ms, (h.conns j).retries⟩

theorem setConn (i : ConnSlot) (used : UInt8) (conn : TcpConn)
    (hused : conn.used = (used != 0)) :
    TcpSame { c with conns := set c.conns i conn } (r.setConn i used conn) where
  listeners := h.listeners
  dynamic := h.dynamic
  conns j := by
    by_cases hj : j = i
    · subst hj
      simp only [set_self]
      exact connSame_setConn hused
    simp only [set_ne hj]
    exact (h.conns j).setConn_ne hj
end
/-! ### The calls -/
/-- The results correspond, and the tables stay the same. -/
def Corresponds (c : Int × Net) (r : TcpReply × RustTcp) : Prop :=
  c.1 = r.1.rc ∧ TcpSame c.2 r.2

theorem id_rc {n : Nat} (hn : n < 65536) : (n : Int) = (TcpReply.id (some (.ofNat n))).rc := by
  rw [TcpReply.rc, UInt16.toNat_ofNat', Nat.mod_eq_of_lt hn]

theorem listen (h : TcpSame c r) (port : UInt16) :
    Corresponds (CTcp.call c (.listen port)) (r.call (.listen port)) := by
  dsimp only [CTcp.call, RustTcp.call]
  unfold CTcp.qos_net_tcp_listen Net.qos_net_tcp_listen RustTcp.net_tcp_listen
  rw [h.listener_exists_eq, first_congr h.free_listener_eq]
  by_cases hport : port < QOS_NET_PORT_MIN_DYNAMIC
  · simp only [hport, decide_true, Bool.true_or, if_true]
    exact ⟨rfl, h⟩
  cases hex : r.net_tcp_listener_exists port with
  | true =>
    simp only [hport, decide_false, Bool.false_or, if_true, if_false]
    exact ⟨rfl, h⟩
  | false =>
  simp only [hport, decide_false, Bool.false_or, if_false, Bool.false_eq_true]
  cases hf : first fun i => r.tcp_listener_used i == 0 with
  | none => exact ⟨rfl, h⟩
  | some i =>
  refine ⟨id_rc (Nat.lt_trans i.isLt (by decide)), h.setListener i rfl ?_⟩
  rintro p ⟨⟩
  exact hport

theorem unlisten (h : TcpSame c r) (port : UInt16) :
    Corresponds (CTcp.call c (.unlisten port)) (r.call (.unlisten port)) := by
  dsimp only [CTcp.call, RustTcp.call]
  unfold Net.qos_net_tcp_unlisten RustTcp.net_tcp_unlisten
  rw [first_congr (h.listensAt_eq port)]
  cases hf : first (r.listensAt port) with
  | none =>
    simp only [ite_self]
    exact ⟨rfl, h⟩
  | some i =>
  -- a listener has a port that Rust does not refuse
  have hlisten : c.listeners i = some port := by
    have hi := first_some hf
    rwa [← h.listensAt_eq, beq_iff_eq] at hi
  rw [if_neg (h.dynamic i port hlisten)]
  exact ⟨rfl, h.setListener i rfl fun p hp => by cases hp⟩

theorem connect (h : TcpSame c r) (local_port : UInt16) (remote_ip : UInt32)
    (remote_port : UInt16) :
    Corresponds (CTcp.call c (.connect local_port remote_ip remote_port))
      (r.call (.connect local_port remote_ip remote_port)) := by
  dsimp only [CTcp.call, RustTcp.call]
  unfold CTcp.qos_net_tcp_connect Net.qos_net_tcp_connect RustTcp.net_tcp_connect
  rw [h.listener_exists_eq, first_congr h.free_conn_eq]
  cases hbad : decide (local_port < QOS_NET_PORT_MIN_DYNAMIC) || remote_ip == 0 ||
      remote_port == 0 with
  | true =>
    simp only [Bool.true_or, if_true]
    exact ⟨rfl, h⟩
  | false =>
    cases hex : r.net_tcp_listener_exists remote_port with
    | false => exact ⟨rfl, h⟩
    | true =>
    cases hf : first fun i => r.tcp_conn_used i == 0 with
    | none => exact ⟨rfl, h⟩
    | some i =>
    refine ⟨id_rc (Nat.lt_trans i.isLt (by decide)), ?_⟩
    exact h.setConn i 1 ⟨true, .synSent, local_port, remote_port, remote_ip, 500, 0⟩ rfl

theorem step (h : TcpSame c r) (conn_id : UInt16) (event : UInt32) :
    Corresponds (CTcp.call c (.step conn_id event)) (r.call (.step conn_id event)) := by
  dsimp only [CTcp.call, RustTcp.call]
  by_cases hlt : conn_id.toNat < QOS_NET_TCP_MAX_CONNS
  · have hc := CTcp.qos_net_tcp_step_eq c ⟨conn_id.toNat, hlt⟩ event
    rw [Net.qos_net_tcp_step, ← CTcp.tcp_event_eq] at hc
    rw [RustTcp.net_tcp_step, dif_pos hlt]
    dsimp only at hc ⊢
    rw [hc]
    have hconn := h.conns ⟨conn_id.toNat, hlt⟩
    cases hused : (c.conns ⟨conn_id.toNat, hlt⟩).used with
    | false =>
      have hfree := h.free_conn_eq ⟨conn_id.toNat, hlt⟩
      rw [hused] at hfree
      rw [RustTcp.stepConn, ← hfree]
      exact ⟨rfl, h⟩
    | true =>
    rw [hconn.step hused]
    cases hev : CTcp.tcp_event (c.conns ⟨conn_id.toNat, hlt⟩) event with
    | none => exact ⟨rfl, h⟩
    | some conn =>
    exact ⟨rfl, h.setConn _ _ conn ((CTcp.tcp_event_used hev).trans hconn.used)⟩
  rw [CTcp.qos_net_tcp_step, RustTcp.net_tcp_step, dif_neg hlt, dif_neg fun hand => hlt hand.2]
  exact ⟨rfl, h⟩

theorem call (h : TcpSame c r) (call : TcpCall) : Corresponds (CTcp.call c call) (r.call call) := by
  cases call with
  | listen port => exact h.listen port
  | unlisten port => exact h.unlisten port
  | connect local_port remote_ip remote_port => exact h.connect local_port remote_ip remote_port
  | step conn_id event => exact h.step conn_id event
end TcpSame
/-! ### Runs -/
def bothTcp : System (Net × RustTcp) TcpCall :=
  .ofStep (.reset, .new) fun s call => ((CTcp.call s.1 call).2, (s.2.call call).2)

/-- In every state that a sequence of calls leads to, the two layers hold the
same listeners and the same connections, and the next call, whatever it is,
returns corresponding results. -/
theorem tcp_layers_equivalent {tr : List TcpCall} {s : Net × RustTcp}
    (hr : bothTcp.Reach anyStep tr s) :
    TcpSame s.1 s.2 ∧ ∀ call, (CTcp.call s.1 call).1 = (s.2.call call).1.rc := by
  have h : TcpSame s.1 s.2 := by
    refine hr.invariant (fun s => TcpSame s.1 s.2) .init fun s call s' h _ hs => ?_
    cases hs
    exact (h.call call).2
  exact ⟨h, fun call => (h.call call).1⟩

/-- A connection that is retried once and then established. -/
theorem tcp_layers_equivalent_retried :
    ∃ s, bothTcp.Reach anyStep [.listen 5000, .connect 49152 1 5000, .step 0 6, .step 0 2] s ∧
      s.2.tcp_conn_state ⟨0, by decide⟩ = 4 ∧ s.2.tcp_rto_ms ⟨0, by decide⟩ = 1000 ∧
      TcpSame s.1 s.2 ∧ ∀ call, (CTcp.call s.1 call).1 = (s.2.call call).1.rc := by
  have hr := System.reach_foldl (Net.reset, RustTcp.new)
    (fun s call => ((CTcp.call s.1 call).2, (s.2.call call).2))
    [.listen 5000, .connect 49152 1 5000, .step 0 6, .step 0 2]
  exact ⟨_, hr, by decide +kernel, by decide +kernel, tcp_layers_equivalent hr⟩
end QosKernel
