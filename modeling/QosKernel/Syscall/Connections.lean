import QosKernel.Framework.KeyedLog
import QosKernel.Syscall.Endpoints

/-! # Connections and what callers know of them

A `StreamLog` lists the connections to listeners and the connections
given out, in order, and which descriptors have an accepted connection.
Three invariants tie it to the endpoints:

* `Consistent`: sockets and waiting connections refer to established
  connections with the right ports;
* `Counted`: a slot is in use exactly if its connection was established;
* `InOrder`: on each port, the connections given out and then the waiting
  ones are in the order in which they were established. It is kept only
  if no two sockets have connections of one port waiting when one is given
  out.
-/
open Framework
namespace QosKernel
structure StreamLog where
  /-- The port and the id of the connections to listeners. -/
  established : List (UInt16 × Int)
  /-- The port and the id of the connections that `ACCEPT` gave out. -/
  accepted : List (UInt16 × Int)
  /-- The descriptors that have their connection from `ACCEPT`. -/
  fromAccept : FdNum → Bool

namespace StreamLog
def empty : StreamLog := ⟨[], [], fun _ => false⟩

variable (l : StreamLog)
def record : Event → StreamLog
  | .connected i port conn_id =>
    { l with
      established := l.established ++ [(port, conn_id)], fromAccept := set l.fromAccept i false }
  | .accepted _ j port conn_id =>
    { l with accepted := l.accepted ++ [(port, conn_id)], fromAccept := set l.fromAccept j true }
  | .copied i j => { l with fromAccept := set l.fromAccept j (l.fromAccept i) }
  | .opened i | .closed i => { l with fromAccept := set l.fromAccept i false }
  | .quiet | .piped .. | .got .. | .wrote .. => l

variable (port : UInt16)
/-- The ids of the connections to listeners on `port`. -/
def establishedOn : List Int := onKey l.established port
def acceptedOn : List Int := onKey l.accepted port
end StreamLog
/-- An established connection between two ports. -/
def TcpConn.Joins (conn : TcpConn) (local_port remote_port : UInt16) : Prop :=
  conn.used = true ∧ conn.state = .established ∧ conn.local_port = local_port ∧
    conn.remote_port = remote_port

namespace Endpoints
variable {e : Event} {v v' : Endpoints} {l : StreamLog}
/-! ### Consistency -/
/-- The connections of a socket; `accepted` tells that it has its own from
`ACCEPT`, and then the ports are those of the peer. -/
structure SockOk (conns : ConnSlot → TcpConn) (accepted : Bool)
    (k : StreamSock) : Prop where
  conn : k.connected = true → 0 ≤ k.conn_id → ∃ c, k.conn_id = c.val ∧
    if accepted then (conns c).Joins k.rport k.lport else (conns c).Joins k.lport k.rport
  pending : ∀ e ∈ k.pending, ∃ c, e.conn_id = c.val ∧ (conns c).Joins e.rport k.lport
  queued : k.pending ≠ [] → k.listening = true
  unbound : k.lport = 0 → k.listening = false ∧ k.connected = false
  backlog : k.listening = true → 0 < k.backlog

def Consistent (v : Endpoints) (l : StreamLog) : Prop :=
  ∀ i k, v.rows i = .stream k → SockOk v.conns (l.fromAccept i) k

namespace SockOk
variable {c : ConnSlot} {port remote_port : UInt16}
variable {conns : ConnSlot → TcpConn} {b : Bool} {k : StreamSock}
theorem fresh : SockOk conns b .fresh where
  conn h := by cases h
  pending _ h := by cases h
  queued h := absurd rfl h
  unbound _ := ⟨rfl, rfl⟩
  backlog h := by cases h

section
variable (h : SockOk conns b k)
include h
theorem pending_nil (hk : k.lport = 0) : k.pending = [] := by
  by_contra hne
  have hl := h.queued hne
  rw [(h.unbound hk).1] at hl
  cases hl

theorem mono {conn : TcpConn} (hc : (conns c).used = false) : SockOk (set conns c conn) b k := by
  have hjoins : ∀ d p q, (conns d).Joins p q → (set conns c conn d).Joins p q := by
    intro d p q hd
    have hne : d ≠ c := by
      rintro rfl
      exact absurd (hd.1.symm.trans hc) (by decide)
    rw [set_ne hne]
    exact hd
  refine ⟨fun hk hid => ?_, fun e he => ?_, h.queued, h.unbound, h.backlog⟩
  · obtain ⟨d, hd, hports⟩ := h.conn hk hid
    refine ⟨d, hd, ?_⟩
    cases b with
    | true | false => exact hjoins d _ _ hports
  obtain ⟨d, hd, hports⟩ := h.pending e he
  exact ⟨d, hd, hjoins d _ _ hports⟩

theorem pending_port (hport : k.lport = 0 ∨ k.lport = port) :
    ∀ e ∈ k.pending, ∃ c, e.conn_id = c.val ∧ (conns c).Joins e.rport port := by
  rcases hport with hz | rfl
  · rw [h.pending_nil hz]
    intro e he
    cases he
  exact h.pending

theorem bind (hk : k.lport = 0) (port : UInt16) : SockOk conns b { k with lport := port } := by
  obtain ⟨hlistening, hconnected⟩ := h.unbound hk
  refine ⟨fun hc => ?_, h.pending_port (.inl hk), h.queued, fun _ => ⟨hlistening, hconnected⟩,
    h.backlog⟩
  change k.connected = true at hc
  rw [hconnected] at hc
  cases hc

theorem listen (hk : k.lport ≠ 0) {backlog : Nat} (hb : 0 < backlog) :
    SockOk conns b { k with listening := true, backlog := backlog } :=
  ⟨h.conn, h.pending, fun _ => rfl, fun hz => absurd hz hk, fun _ => hb⟩

theorem gateway (hport : k.lport = 0 ∨ k.lport = port) (hne : port ≠ 0) :
    SockOk conns b (k.connect port remote_port (-1)) :=
  ⟨fun _ hid => absurd hid (Int.not_le.mpr (Int.negSucc_lt_zero 0)), h.pending_port hport,
    h.queued, fun hz => absurd hz hne, h.backlog⟩

theorem connect (hport : k.lport = 0 ∨ k.lport = port) (hne : port ≠ 0)
    (hc : (conns c).Joins port remote_port) :
    SockOk conns false (k.connect port remote_port c.val) :=
  ⟨fun _ _ => ⟨c, rfl, hc⟩, h.pending_port hport, h.queued, fun hz => absurd hz hne, h.backlog⟩

theorem push (hl : k.listening = true) (hc : (conns c).Joins port k.lport) :
    SockOk conns b { k with pending := k.pending ++ [⟨port, QOS_NET_IPV4_LOCAL, c.val⟩] } := by
  refine ⟨h.conn, fun e he => ?_, fun _ => hl, h.unbound, h.backlog⟩
  rcases List.mem_append.mp he with he | he
  · exact h.pending e he
  obtain rfl := List.mem_singleton.mp he
  exact ⟨c, rfl, hc⟩

theorem pop {peer : PendingConn} {rest : List PendingConn} (hpending : k.pending = peer :: rest) :
    SockOk conns b { k with pending := rest } ∧ SockOk conns true (k.accept peer) := by
  have hne : k.pending ≠ [] := by
    rw [hpending]
    exact List.cons_ne_nil peer rest
  obtain ⟨c, hid, hc⟩ := h.pending peer (by rw [hpending]; exact List.mem_cons_self)
  constructor
  · refine ⟨h.conn, fun e he => h.pending e ?_, fun _ => h.queued hne, h.unbound, h.backlog⟩
    rw [hpending]
    exact List.mem_cons_of_mem peer he
  refine ⟨fun _ _ => ⟨c, hid, hc⟩, fun e he => ?_, fun hnil => absurd rfl hnil, fun hz => ?_,
    fun hl => ?_⟩
  · cases he
  · -- a listener has a port
    exact absurd (h.pending_nil hz) hne
  cases hl
end
end SockOk
theorem Consistent.set_row (h : v.Consistent l) (i : FdNum) (row : Endpoint) (b : Bool)
    (hrow : ∀ k, row = .stream k → SockOk v.conns b k) :
    (v.setRow i row).Consistent { l with fromAccept := set l.fromAccept i b } := by
  intro j k hj
  change set v.rows i row j = .stream k at hj
  show SockOk v.conns (set l.fromAccept i b j) k
  by_cases hji : j = i
  · rw [hji, set_self] at hj
    rw [hji, set_self]
    exact hrow k hj
  rw [set_ne hji] at hj
  rw [set_ne hji]
  exact h j k hj

theorem Consistent.keep_row (h : v.Consistent l) (i : FdNum) (row : Endpoint)
    (hrow : ∀ k, row = .stream k → SockOk v.conns (l.fromAccept i) k) :
    (v.setRow i row).Consistent l := by
  have hset := h.set_row i row (l.fromAccept i) hrow
  rw [set_eq_self] at hset
  exact hset

theorem Consistent.take_slot (h : v.Consistent l) {c : ConnSlot}
    (hc : (v.conns c).used = false) (conn : TcpConn) :
    Consistent { v with conns := set v.conns c conn } l :=
  fun i k hi => (h i k hi).mono hc

theorem Consistent.effect (h : v.Consistent l) (he : v.Effect e v') :
    v'.Consistent (l.record e) := by
  cases he with
  | same => exact h
  | @opened i row _ hrow =>
    apply h.set_row i row false
    rintro k rfl
    rcases hrow with hrow | hrow
    · cases hrow
    cases hrow
    exact .fresh
  | @closed i => exact h.set_row i .free false fun k hk => by cases hk
  | @copied i j => exact h.set_row j (v.rows i) (l.fromAccept i) fun k hk => h i k hk
  | @piped r w p =>
    have hr := h.keep_row r (.reader p) fun k hk => by cases hk
    exact hr.keep_row w (.writer p) fun k hk => by cases hk
  | read | written | readElse | writtenElse => exact h
  | @bound i k port hi hk =>
    apply h.keep_row i
    rintro k' ⟨⟩
    exact (h i k hi).bind hk port
  | @listening i k backlog hi hk hb =>
    apply h.keep_row i
    rintro k' ⟨⟩
    exact (h i k hi).listen hk hb
  | @gateway i k port remote_port hi hport hne =>
    apply h.keep_row i
    rintro k' ⟨⟩
    exact (h i k hi).gateway hport hne
  | @connected i j k m port remote_ip c hi hj hji hlistening hm hport hne hc =>
    have hslot := h.take_slot hc ⟨true, .established, port, m.lport, remote_ip, 500, 0⟩
    have hjoins : (set v.conns c ⟨true, .established, port, m.lport, remote_ip, 500, 0⟩ c).Joins
        port m.lport := by
      rw [set_self]
      exact ⟨rfl, rfl, rfl, rfl⟩
    have hrow := hslot.set_row i (.stream (k.connect port m.lport c.val)) false (by
      rintro k' ⟨⟩
      exact (hslot i k hi).connect hport hne hjoins)
    refine hrow.keep_row j (.stream { m with
      pending := m.pending ++ [⟨port, QOS_NET_IPV4_LOCAL, c.val⟩] }) ?_
    rintro m' ⟨⟩
    have hm : set v.rows i (.stream (k.connect port m.lport c.val)) j = .stream m := by
      rw [set_ne hji, hj]
    exact (hrow j m hm).push hlistening hjoins
  | @accepted i j k peer rest hi hlistening hj hpending =>
  have hij : i ≠ j := by
    rintro rfl
    rw [hi] at hj
    cases hj
  have hrow := h.set_row j (.stream (k.accept peer)) true (by
    rintro k' ⟨⟩
    exact ((h i k hi).pop hpending).2)
  refine hrow.keep_row i (.stream { k with pending := rest }) ?_
  rintro k' ⟨⟩
  have hk : set v.rows j (.stream (k.accept peer)) i = .stream k := by rw [set_ne hij, hi]
  exact ((hrow i k hk).pop hpending).1

/-! ### Slots -/
/-- The connections that were established are those of the slots in use. -/
def Counted (v : Endpoints) (l : StreamLog) : Prop :=
  ∃ slots : List ConnSlot, slots.Nodup ∧
    l.established.map (·.2) = slots.map (fun c => (c.val : Int)) ∧
    ∀ c, (v.conns c).used = true ↔ c ∈ slots

theorem Counted.effect (h : v.Counted l) (he : v.Effect e v') : v'.Counted (l.record e) := by
  cases he with
  | @connected i j k m port remote_ip c hi hj hji hlistening hm hport hne hc =>
    obtain ⟨slots, hnodup, hmap, hused⟩ := h
    have hnew : c ∉ slots := fun hmem => absurd ((hused c).mpr hmem |>.symm.trans hc) (by decide)
    refine ⟨slots ++ [c], ?_, ?_, ?_⟩
    · rw [List.nodup_append]
      refine ⟨hnodup, List.nodup_singleton c, fun d hd d' hd' heq => hnew ?_⟩
      rw [← List.mem_singleton.mp hd', ← heq]
      exact hd
    · show (l.established ++ [(m.lport, (c.val : Int))]).map (·.2) = _
      rw [List.map_append, List.map_append, hmap]
      rfl
    intro d
    show (set v.conns c ⟨true, .established, port, m.lport, remote_ip, 500, 0⟩ d).used = true ↔ _
    rw [List.mem_append, List.mem_singleton, ← hused d]
    by_cases hd : d = c
    · rw [hd, set_self]
      exact iff_of_true rfl (.inr rfl)
    rw [set_ne hd]
    exact (or_iff_left hd).symm
  | _ => exact h

/-- No slot is in use exactly if no connection was ever established. -/
theorem Counted.unused_iff (h : v.Counted l) :
    (∀ c, (v.conns c).used = false) ↔ l.established = [] := by
  obtain ⟨slots, -, hmap, hused⟩ := h
  have hslots : slots = [] ↔ l.established = [] := by
    rw [← List.map_eq_nil_iff (l := l.established), hmap, List.map_eq_nil_iff]
  rw [← hslots, List.eq_nil_iff_forall_not_mem]
  refine forall_congr' fun c => ?_
  rw [← hused c, Bool.not_eq_true]

/-- A slot is free exactly if fewer connections than there are slots were ever
established. -/
theorem Counted.free_iff (h : v.Counted l) :
    (∃ c, (v.conns c).used = false) ↔ l.established.length < QOS_NET_TCP_MAX_CONNS := by
  obtain ⟨slots, hnodup, hmap, hused⟩ := h
  have hlen : l.established.length = slots.toFinset.card := by
    rw [List.toFinset_card_of_nodup hnodup, ← List.length_map (·.2), hmap, List.length_map]
  have hmem : ∀ c, (v.conns c).used = false ↔ c ∉ slots.toFinset := by
    intro c
    rw [List.mem_toFinset, ← hused c, Bool.not_eq_true]
  have hcard := Finset.card_lt_iff_ne_univ slots.toFinset
  rw [Fintype.card_fin, ne_eq, Finset.eq_univ_iff_forall, not_forall] at hcard
  rw [hlen, hcard]
  exact exists_congr hmem

theorem Counted.established_nodup (h : v.Counted l) : (l.established.map (·.2)).Nodup := by
  obtain ⟨slots, hnodup, hmap, -⟩ := h
  rw [hmap]
  apply hnodup.map
  intro c d hcd
  exact Fin.ext (Int.ofNat_inj.mp hcd)

/-! ### Order -/
/-- On each port, the connections given out and then those that wait at one
socket are among the connections established, in this order. -/
structure InOrder (v : Endpoints) (l : StreamLog) : Prop where
  order : ∀ port, List.Sublist (l.acceptedOn port) (l.establishedOn port)
  queue : ∀ i k, v.rows i = .stream k →
    List.Sublist (l.acceptedOn k.lport ++ k.pending.map (·.conn_id)) (l.establishedOn k.lport)

/-- No other listener on the port of `i` has connections waiting. -/
def SoleQueue (v : Endpoints) (i : FdNum) : Prop :=
  ∀ k, v.rows i = .stream k → ∀ j m, j ≠ i → v.rows j = .stream m → m.listening = true →
    m.lport = k.lport → m.pending = []

namespace InOrder
variable {k : StreamSock} {i j : FdNum} {port : UInt16}
section
variable (h : v.InOrder l)
include h
theorem setRow (i : FdNum) (row : Endpoint)
    (hrow : ∀ k, row = .stream k →
      List.Sublist (l.acceptedOn k.lport ++ k.pending.map (·.conn_id)) (l.establishedOn k.lport)) :
    (v.setRow i row).InOrder l := by
  refine ⟨h.order, fun j k hj => ?_⟩
  change set v.rows i row j = .stream k at hj
  by_cases hji : j = i
  · rw [hji, set_self] at hj
    exact hrow k hj
  rw [set_ne hji] at hj
  exact h.queue j k hj

theorem of_nil (hk : k.pending = []) :
    List.Sublist (l.acceptedOn k.lport ++ k.pending.map (·.conn_id)) (l.establishedOn k.lport) := by
  rw [hk, List.map_nil, List.append_nil]
  exact h.order k.lport

theorem queue_port (hok : v.Consistent l) {k : StreamSock}
    (hi : v.rows i = .stream k) {port : UInt16} (hport : k.lport = 0 ∨ k.lport = port) :
    List.Sublist (l.acceptedOn port ++ k.pending.map (·.conn_id)) (l.establishedOn port) := by
  rcases hport with hz | rfl
  · rw [(hok i k hi).pending_nil hz, List.map_nil, List.append_nil]
    exact h.order port
  exact h.queue i k hi

theorem connected (hok : v.Consistent l) {m : StreamSock} {remote_ip : UInt32}
    {c : ConnSlot} (hi : v.rows i = .stream k) (hj : v.rows j = .stream m)
    (hport : k.lport = 0 ∨ k.lport = port) :
    InOrder { v with
      rows := set (set v.rows i (.stream (k.connect port m.lport c.val))) j
        (.stream { m with pending := m.pending ++ [⟨port, QOS_NET_IPV4_LOCAL, c.val⟩] })
      conns := set v.conns c ⟨true, .established, port, m.lport, remote_ip, 500, 0⟩ }
      (l.record (.connected i m.lport c.val)) := by
  have hmore (p : UInt16) : List.Sublist (l.establishedOn p)
      ((l.record (.connected i m.lport c.val)).establishedOn p) :=
    onKey_sublist_append l.established m.lport p c.val
  refine ⟨fun p => (h.order p).trans (hmore p), ?_⟩
  intro n q hn
  change set (set v.rows i (.stream (k.connect port m.lport c.val))) j _ n = .stream q at hn
  by_cases hnj : n = j
  · -- the listener
    rw [hnj, set_self] at hn
    cases hn
    show List.Sublist (l.acceptedOn m.lport ++
      (m.pending ++ [PendingConn.mk port QOS_NET_IPV4_LOCAL c.val]).map (·.conn_id)) _
    have hself : (l.record (.connected i m.lport c.val)).establishedOn m.lport =
        l.establishedOn m.lport ++ [(c.val : Int)] := onKey_append_self l.established m.lport c.val
    rw [hself, List.map_append, ← List.append_assoc]
    exact (h.queue j m hj).append (List.Sublist.refl _)
  rw [set_ne hnj] at hn
  refine List.Sublist.trans ?_ (hmore q.lport)
  by_cases hni : n = i
  · rw [hni, set_self] at hn
    cases hn
    exact h.queue_port hok hi hport
  rw [set_ne hni] at hn
  exact h.queue n q hn

theorem accepted (hok : v.Consistent l) {peer : PendingConn}
    {rest : List PendingConn} (hi : v.rows i = .stream k) (hpending : k.pending = peer :: rest)
    (hsole : v.SoleQueue i) :
    InOrder { v with
      rows := set (set v.rows j (.stream (k.accept peer))) i (.stream { k with pending := rest }) }
      (l.record (.accepted i j k.lport peer.conn_id)) := by
  have hqueue := h.queue i k hi
  rw [hpending, List.map_cons, List.append_cons] at hqueue
  have hport : List.Sublist (l.acceptedOn k.lport ++ [peer.conn_id]) (l.establishedOn k.lport) :=
    (List.sublist_append_left _ _).trans hqueue
  have hself : (l.record (.accepted i j k.lport peer.conn_id)).acceptedOn k.lport =
      l.acceptedOn k.lport ++ [peer.conn_id] := onKey_append_self l.accepted k.lport peer.conn_id
  have hother {p : UInt16} (hp : p ≠ k.lport) :
      (l.record (.accepted i j k.lport peer.conn_id)).acceptedOn p = l.acceptedOn p :=
    onKey_append_ne hp peer.conn_id
  have horder : ∀ p, List.Sublist ((l.record (.accepted i j k.lport peer.conn_id)).acceptedOn p)
      (l.establishedOn p) := by
    intro p
    by_cases hp : p = k.lport
    · rw [hp, hself]
      exact hport
    rw [hother hp]
    exact h.order p
  refine ⟨horder, ?_⟩
  intro n q hn
  change set (set v.rows j (.stream (k.accept peer))) i _ n = .stream q at hn
  by_cases hni : n = i
  · -- the listener
    rw [hni, set_self] at hn
    cases hn
    show List.Sublist ((l.record (.accepted i j k.lport peer.conn_id)).acceptedOn k.lport ++
      rest.map (·.conn_id)) (l.establishedOn k.lport)
    rw [hself]
    exact hqueue
  rw [set_ne hni] at hn
  by_cases hnj : n = j
  · rw [hnj, set_self] at hn
    cases hn
    show List.Sublist (_ ++ []) _
    rw [List.append_nil]
    exact horder k.lport
  rw [set_ne hnj] at hn
  by_cases hp : q.lport = k.lport
  · -- nothing else waits on this port
    have hnil : q.pending = [] := by
      by_contra hne
      exact hne (hsole k hi n q hni hn ((hok n q hn).queued hne) hp)
    rw [hnil, List.map_nil, List.append_nil]
    exact horder q.lport
  rw [hother hp]
  exact h.queue n q hn

/-- Every effect keeps the order, if a connection is only given out from the
only queue of its port. -/
theorem effect {e : Event} (hok : v.Consistent l) (he : v.Effect e v')
    (hsole : ∀ i j port conn_id, e = .accepted i j port conn_id → v.SoleQueue i) :
    v'.InOrder (l.record e) := by
  cases he with
  | same => exact h
  | @opened i row _ hrow =>
    have hset := h.setRow i row (by
      rintro k rfl
      rcases hrow with hrow | hrow
      · cases hrow
      cases hrow
      exact h.of_nil rfl)
    exact ⟨hset.order, hset.queue⟩
  | @closed i =>
    have hset := h.setRow i .free fun k hk => by cases hk
    exact ⟨hset.order, hset.queue⟩
  | @copied i j =>
    have hset := h.setRow j (v.rows i) fun k hk => h.queue i k hk
    exact ⟨hset.order, hset.queue⟩
  | @piped r w p =>
    have hr := h.setRow r (.reader p) fun k hk => by cases hk
    have hw := hr.setRow w (.writer p) fun k hk => by cases hk
    exact ⟨hw.order, hw.queue⟩
  | read | written => exact ⟨h.order, h.queue⟩
  | readElse | writtenElse => exact h
  | @bound i k port hi hk =>
    apply h.setRow i
    rintro k' ⟨⟩
    exact h.queue_port hok hi (.inl hk)
  | @listening i k backlog hi hk hb =>
    apply h.setRow i
    rintro k' ⟨⟩
    exact h.queue i k hi
  | @gateway i k port remote_port hi hport hne =>
    apply h.setRow i
    rintro k' ⟨⟩
    exact h.queue_port hok hi hport
  | connected hi hj _ _ _ hport _ _ => exact h.connected hok hi hj hport
  | accepted hi _ _ hpending => exact h.accepted hok hi hpending (hsole _ _ _ _ rfl)

theorem accepted_nodup (hc : v.Counted l) : (l.accepted.map (·.2)).Nodup :=
  nodup_of_onKey_sublist hc.established_nodup h.order
end
end InOrder
end Endpoints
end QosKernel
