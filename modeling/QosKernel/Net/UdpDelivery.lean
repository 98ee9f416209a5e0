import QosKernel.Framework.System
import QosKernel.Net.Udp
import Mathlib.Algebra.BigOperators.Group.List.Basic
import Mathlib.Algebra.Ring.Nat

/-! # UDP delivery over whole histories

The system of all sequences of bind, unbind, send and receive calls, in
the C and in the Rust kernel, with the history of every port since it was
last bound: what was accepted for it and what was received on it.

`Move` says once what a call of either kernel can do. Over it,
`Delivers` is an invariant of the runs in which no port is unbound while
a datagram for it is stored: everything accepted is received in order or
still stored, and nothing else is stored.
-/
open Framework
namespace QosKernel
open Udp
variable {s : Udp} {p src_port dst_port : UInt16} {src_ip : UInt32} {bytes : List UInt8}
/-! ### Calls, effects and histories -/
inductive UdpCall where
  | bind (port : UInt16)
  | unbind (port : UInt16)
  | send (src_port : UInt16) (src_ip : UInt32) (dst_port : UInt16) (data : Option (List UInt8))
  | recv (dst_port : UInt16) (out : Option Nat)

/-- What a call did, as its caller sees it. -/
inductive UdpEffect where
  | nothing
  | bound (port : UInt16)
  | unbound (port : UInt16)
  | accepted (port : UInt16) (m : Message)
  | delivered (port : UInt16) (m : Message)

/-- The state with the history of every port since it was last bound. -/
structure UdpRun where
  udp : Udp
  accepted : UInt16 → List Message
  received : UInt16 → List Message

/-- The state after a call: a bind starts the history of the port afresh. -/
def UdpRun.record (r : UdpRun) (e : UdpEffect) (udp : Udp) : UdpRun :=
  match e with
  | .nothing => { r with udp := udp }
  | .bound p =>
    { udp := udp
      accepted := fun q => if q = p then [] else r.accepted q
      received := fun q => if q = p then [] else r.received q }
  | .unbound _ => { r with udp := udp }
  | .accepted p m =>
    { r with udp := udp, accepted := fun q => if q = p then r.accepted q ++ [m] else r.accepted q }
  | .delivered p m =>
    { r with udp := udp, received := fun q => if q = p then r.received q ++ [m] else r.received q }

/-- A call of the C kernel. A send to a port that is not bound also returns
the length, but nothing is accepted for the port. -/
def CUdp.call (s : Udp) : UdpCall → UdpEffect × Udp
  | .bind port =>
    let r := qos_net_udp_bind s port
    (if r.1 = 0 then .bound port else .nothing, r.2)
  | .unbind port =>
    let r := qos_net_udp_unbind s port
    (if r.1 = 0 then .unbound port else .nothing, r.2)
  | .send src_port src_ip dst_port data =>
    let r := qos_net_udp_send s src_port src_ip dst_port data
    (if r.1 ≠ -1 ∧ s.port_is_bound dst_port then
      .accepted dst_port ⟨src_port, src_ip, data.getD []⟩ else .nothing, r.2)
  | .recv dst_port out =>
    let r := qos_net_udp_recv s dst_port out
    (match r.2.1 with
      | some m => .delivered dst_port m
      | none => .nothing, r.2.2)

def RustUdp.call (s : Udp) : UdpCall → UdpEffect × Udp
  | .bind port =>
    let r := net_udp_bind s port
    (if r.1 then .bound port else .nothing, r.2)
  | .unbind port =>
    let r := net_udp_unbind s port
    (if r.1 then .unbound port else .nothing, r.2)
  | .send src_port src_ip dst_port data =>
    let r := net_udp_send s src_port src_ip dst_port (data.getD [])
    (if r.1.isSome then .accepted dst_port ⟨src_port, src_ip, data.getD []⟩ else .nothing, r.2)
  | .recv dst_port out =>
    let r := net_udp_recv s dst_port (out.getD 0)
    (match r.1 with
      | some m => .delivered dst_port m
      | none => .nothing, r.2)

def udpRuns (call : Udp → UdpCall → UdpEffect × Udp) : System UdpRun UdpCall where
  init := ⟨reset, fun _ => [], fun _ => []⟩
  step r c := some (r.record (call r.udp c).1 (call r.udp c).2)

variable {r : UdpRun} {i : PortSlot} {κ : Type}
/-! ### What a call can do -/
/-- The moves of the port table and the datagram array. -/
inductive Move (s : Udp) : UdpEffect → Udp → Prop where
  | stay : Move s .nothing s
  | bind {i : PortSlot} {p : UInt16} :
      s.ports i = none → (∀ j, s.ports j ≠ some p) →
      Move s (.bound p) { s with ports := set s.ports i (some p) }
  | unbind {i : PortSlot} {p : UInt16} :
      s.ports i = some p →
      Move s (.unbound p) ({ s with ports := set s.ports i none }.drop_port_datagrams p)
  | accept {p : UInt16} {m : Message} :
      (∃ i, s.ports i = some p) → s.udp_count < QOS_NET_UDP_MAX_DATAGRAMS →
      m.payload.length ≤ QOS_NET_MAX_PACKET → Move s (.accepted p m) (s.store p m)
  | deliver {p : UInt16} {i : Nat} :
      search (addressed p) s.datagrams 0 s.udp_count = some i →
      Move s (.delivered p (s.datagrams i).message) (s.remove i)

theorem not_bound_iff : s.port_is_bound p = false ↔ ∀ i, s.ports i ≠ some p := by
  rw [← Bool.not_eq_true, port_is_bound_iff, not_exists]

/-- A send that the checks on the arguments let pass. -/
def SendOk (src_port : UInt16) (src_ip : UInt32) (dst_port : UInt16) (bytes : List UInt8) : Prop :=
  QOS_NET_PORT_MIN_DYNAMIC ≤ src_port ∧ src_ip ≠ 0 ∧ dst_port ≠ 0 ∧ bytes.length ≠ 0 ∧
    bytes.length ≤ QOS_NET_MAX_PACKET

theorem sendOk_iff :
    SendOk src_port src_ip dst_port bytes ↔
      ¬(decide (src_port < QOS_NET_PORT_MIN_DYNAMIC) || src_ip == 0 || dst_port == 0 ||
        bytes.length == 0 || decide (QOS_NET_MAX_PACKET < bytes.length)) = true := by
  simp only [SendOk, Bool.or_eq_true, not_or, decide_eq_true_eq, beq_iff_eq, UInt16.not_lt,
    Nat.not_lt, ne_eq, and_assoc]

/-! One lemma for each function says how it can end. -/
namespace CUdp
variable (s : Udp)
theorem qos_net_udp_bind_cases (port : UInt16) : qos_net_udp_bind s port = (-1, s) ∨
    ∃ i, s.ports i = none ∧ (∀ j, s.ports j ≠ some port) ∧
      qos_net_udp_bind s port = (0, { s with ports := set s.ports i (some port) }) := by
  unfold qos_net_udp_bind
  split
  · exact .inl rfl
  next hlow =>
  rcases hb : s.bind_port port with _ | s'
  · exact .inl rfl
  obtain ⟨i, hi, rfl⟩ := bind_port_some hb
  rw [Bool.or_eq_true, not_or, Bool.not_eq_true] at hlow
  exact .inr ⟨i, hi, not_bound_iff.mp (by simpa using hlow.2), rfl⟩

theorem qos_net_udp_unbind_cases (port : UInt16) : qos_net_udp_unbind s port = (-1, s) ∨
    ∃ i, s.ports i = some port ∧ qos_net_udp_unbind s port =
      (0, { s with ports := set s.ports i none }.drop_port_datagrams port) := by
  unfold qos_net_udp_unbind
  rcases hu : s.unbind_port port with _ | s'
  · exact .inl rfl
  obtain ⟨i, hi, rfl⟩ := unbind_port_some hu
  exact .inr ⟨i, hi, rfl⟩

theorem qos_net_udp_send_cases (src_port : UInt16) (src_ip : UInt32)
    (dst_port : UInt16) (bytes : List UInt8) :
    (¬SendOk src_port src_ip dst_port bytes ∧
      qos_net_udp_send s src_port src_ip dst_port (some bytes) = (-1, s)) ∨
    (SendOk src_port src_ip dst_port bytes ∧ s.port_is_bound dst_port = false ∧
      qos_net_udp_send s src_port src_ip dst_port (some bytes) = ((bytes.length : Int), s)) ∨
    (SendOk src_port src_ip dst_port bytes ∧ s.port_is_bound dst_port = true ∧
      QOS_NET_UDP_MAX_DATAGRAMS ≤ s.udp_count ∧
      qos_net_udp_send s src_port src_ip dst_port (some bytes) = (-1, s)) ∨
    (SendOk src_port src_ip dst_port bytes ∧ s.port_is_bound dst_port = true ∧
      s.udp_count < QOS_NET_UDP_MAX_DATAGRAMS ∧
      qos_net_udp_send s src_port src_ip dst_port (some bytes) =
        ((bytes.length : Int), s.store dst_port ⟨src_port, src_ip, bytes⟩)) := by
  simp only [qos_net_udp_send]
  split
  · next hbad => exact .inl ⟨fun h => sendOk_iff.mp h hbad, rfl⟩
  next hok =>
  rcases hb : s.port_is_bound dst_port with _ | _
  · exact .inr (.inl ⟨sendOk_iff.mpr hok, rfl, rfl⟩)
  by_cases hfull : QOS_NET_UDP_MAX_DATAGRAMS ≤ s.udp_count
  · exact .inr (.inr (.inl ⟨sendOk_iff.mpr hok, rfl, hfull, by simp [hfull]⟩))
  exact .inr (.inr (.inr ⟨sendOk_iff.mpr hok, rfl, by omega, by simp [hfull]⟩))

theorem qos_net_udp_recv_cases (dst_port : UInt16) (out : Option Nat) :
    qos_net_udp_recv s dst_port out = (-1, none, s) ∨
    ∃ i, search (addressed dst_port) s.datagrams 0 s.udp_count = some i ∧
      qos_net_udp_recv s dst_port out =
        (((s.datagrams i).len.toNat : Int), some (s.datagrams i).message, s.remove i) := by
  rcases out with _ | cap
  · exact .inl rfl
  simp only [qos_net_udp_recv]
  split
  · exact .inl rfl
  rcases hs : search (addressed dst_port) s.datagrams 0 s.udp_count with _ | i
  · exact .inl rfl
  by_cases hcap : cap < (s.datagrams i).len.toNat
  · exact .inl (by simp only [hcap, if_true])
  exact .inr ⟨i, rfl, by simp only [hcap, if_false]⟩

theorem call_move (c : UdpCall) : Move s (call s c).1 (call s c).2 := by
  match c with
  | .bind port =>
    rcases qos_net_udp_bind_cases s port with h | ⟨i, hi, hnot, h⟩
    · simpa [call, h] using Move.stay
    simpa [call, h] using Move.bind hi hnot
  | .unbind port =>
    rcases qos_net_udp_unbind_cases s port with h | ⟨i, hi, h⟩
    · simpa [call, h] using Move.stay
    simpa [call, h] using Move.unbind hi
  | .send src_port src_ip dst_port none => simpa [call, qos_net_udp_send] using Move.stay
  | .send src_port src_ip dst_port (some bytes) =>
    rcases qos_net_udp_send_cases s src_port src_ip dst_port bytes with
      ⟨-, h⟩ | ⟨-, hb, h⟩ | ⟨-, -, -, h⟩ | ⟨hok, hb, hroom, h⟩
    · simpa [call, h] using Move.stay
    · simpa [call, h, hb] using Move.stay
    · simpa [call, h] using Move.stay
    have hne : (bytes.length : Int) ≠ -1 := by omega
    have hmove := Move.accept (m := ⟨src_port, src_ip, bytes⟩) (port_is_bound_iff.mp hb) hroom
      hok.2.2.2.2
    simpa [call, h, hb, hne] using hmove
  | .recv dst_port out =>
    rcases qos_net_udp_recv_cases s dst_port out with h | ⟨i, hi, h⟩
    · simpa [call, h] using Move.stay
    simpa [call, h] using Move.deliver hi
end CUdp
namespace RustUdp
variable (s : Udp)
theorem net_udp_bind_cases (port : UInt16) : net_udp_bind s port = (false, s) ∨
    ∃ i, s.ports i = none ∧ (∀ j, s.ports j ≠ some port) ∧
      net_udp_bind s port = (true, { s with ports := set s.ports i (some port) }) := by
  unfold net_udp_bind
  split
  · exact .inl rfl
  split
  · exact .inl rfl
  next hbound =>
  rcases hb : s.bind_port port with _ | s'
  · exact .inl rfl
  obtain ⟨i, hi, rfl⟩ := bind_port_some hb
  exact .inr ⟨i, hi, not_bound_iff.mp (by simpa using hbound), rfl⟩

theorem net_udp_unbind_cases (port : UInt16) : net_udp_unbind s port = (false, s) ∨
    ∃ i, s.ports i = some port ∧ net_udp_unbind s port =
      (true, { s with ports := set s.ports i none }.drop_port_datagrams port) := by
  unfold net_udp_unbind
  split
  · exact .inl rfl
  rcases hu : s.unbind_port port with _ | s'
  · exact .inl rfl
  obtain ⟨i, hi, rfl⟩ := unbind_port_some hu
  exact .inr ⟨i, hi, rfl⟩

theorem net_udp_send_cases (src_port : UInt16) (src_ip : UInt32)
    (dst_port : UInt16) (bytes : List UInt8) :
    (¬SendOk src_port src_ip dst_port bytes ∧
      net_udp_send s src_port src_ip dst_port bytes = (none, s)) ∨
    (SendOk src_port src_ip dst_port bytes ∧
      (s.port_is_bound dst_port = false ∨ QOS_NET_UDP_MAX_DATAGRAMS ≤ s.udp_count) ∧
      net_udp_send s src_port src_ip dst_port bytes = (none, s)) ∨
    (SendOk src_port src_ip dst_port bytes ∧ s.port_is_bound dst_port = true ∧
      s.udp_count < QOS_NET_UDP_MAX_DATAGRAMS ∧
      net_udp_send s src_port src_ip dst_port bytes =
        (some bytes.length, s.store dst_port ⟨src_port, src_ip, bytes⟩)) := by
  have hempty : bytes.isEmpty = (bytes.length == 0) := by cases bytes <;> rfl
  simp only [net_udp_send, hempty]
  split
  · next hbad => exact .inl ⟨fun h => sendOk_iff.mp h hbad, rfl⟩
  next hok =>
  split
  · next hfull =>
    simp only [Bool.or_eq_true, Bool.not_eq_true', decide_eq_true_eq] at hfull
    exact .inr (.inl ⟨sendOk_iff.mpr hok, hfull, rfl⟩)
  next hfull =>
  simp only [Bool.or_eq_true, Bool.not_eq_true', decide_eq_true_eq, not_or,
    Bool.not_eq_false] at hfull
  exact .inr (.inr ⟨sendOk_iff.mpr hok, hfull.1, by omega, rfl⟩)

theorem net_udp_recv_cases (dst_port : UInt16) (out : Nat) :
    net_udp_recv s dst_port out = (none, s) ∨
    ∃ i, search (addressed dst_port) s.datagrams 0 s.udp_count = some i ∧
      net_udp_recv s dst_port out = (some (s.datagrams i).message, s.remove i) := by
  simp only [net_udp_recv]
  split
  · exact .inl rfl
  rcases hs : search (addressed dst_port) s.datagrams 0 s.udp_count with _ | i
  · exact .inl rfl
  by_cases hcap : out < (s.datagrams i).len.toNat
  · exact .inl (by simp only [hcap, if_true])
  exact .inr ⟨i, rfl, by simp only [hcap, if_false]⟩

theorem call_move (c : UdpCall) : Move s (call s c).1 (call s c).2 := by
  match c with
  | .bind port =>
    rcases net_udp_bind_cases s port with h | ⟨i, hi, hnot, h⟩
    · simpa [call, h] using Move.stay
    simpa [call, h] using Move.bind hi hnot
  | .unbind port =>
    rcases net_udp_unbind_cases s port with h | ⟨i, hi, h⟩
    · simpa [call, h] using Move.stay
    simpa [call, h] using Move.unbind hi
  | .send src_port src_ip dst_port data =>
    rcases net_udp_send_cases s src_port src_ip dst_port (data.getD []) with
      ⟨-, h⟩ | ⟨-, -, h⟩ | ⟨hok, hb, hroom, h⟩
    · simpa [call, h] using Move.stay
    · simpa [call, h] using Move.stay
    have hmove := Move.accept (m := ⟨src_port, src_ip, data.getD []⟩)
      (port_is_bound_iff.mp hb) hroom hok.2.2.2.2
    simpa [call, h] using hmove
  | .recv dst_port out =>
    rcases net_udp_recv_cases s dst_port (out.getD 0) with h | ⟨i, hi, h⟩
    · simpa [call, h] using Move.stay
    simpa [call, h] using Move.deliver hi
end RustUdp
/-! ### The invariant -/
/-- The messages stored for a port, oldest first. -/
def Udp.pending (s : Udp) (p : UInt16) : List Message :=
  (s.queue.filter (addressed p)).map Datagram.message

/-- Every port is bound once, every stored datagram is for a bound port, and
what was accepted for a port is what was received on it followed by what
is stored for it. -/
structure Delivers (r : UdpRun) : Prop where
  ports_inj : ∀ i j p, r.udp.ports i = some p → r.udp.ports j = some p → i = j
  live : ∀ d ∈ r.udp.queue, d.used = true ∧ ∃ i, r.udp.ports i = some d.dst_port
  room : r.udp.udp_count ≤ QOS_NET_UDP_MAX_DATAGRAMS
  history : ∀ p, r.accepted p = r.received p ++ r.udp.pending p

theorem Udp.queue_ports (s : Udp) (ports : PortSlot → Option UInt16) :
    ({ s with ports := ports } : Udp).queue = s.queue := rfl

theorem Delivers.bind (h : Delivers r) (hi : r.udp.ports i = none)
    (hp : ∀ j, r.udp.ports j ≠ some p) :
    Delivers (r.record (.bound p) { r.udp with ports := set r.udp.ports i (some p) }) := by
  have hkeep : ∀ j q, r.udp.ports j = some q → set r.udp.ports i (some p) j = some q := by
    intro j q hj
    have hne : j ≠ i := by rintro rfl; rw [hi] at hj; simp at hj
    rw [set_ne hne, hj]
  refine ⟨?_, ?_, h.room, ?_⟩
  · intro j k q hj hk
    simp only [UdpRun.record, set_apply] at hj hk
    split at hj <;> split at hk
    · next hj' hk' => rw [hj', hk']
    · simp only [Option.some.injEq] at hj; subst hj; exact absurd hk (hp k)
    · simp only [Option.some.injEq] at hk; subst hk; exact absurd hj (hp j)
    exact h.ports_inj j k q hj hk
  · intro d hd
    obtain ⟨hu, j, hj⟩ := h.live d hd
    exact ⟨hu, j, hkeep j _ hj⟩
  intro q
  simp only [UdpRun.record]
  by_cases hq : q = p
  · -- no datagram for a port that was not bound
    subst hq
    have hnone : r.udp.queue.filter (addressed q) = [] := by
      rw [List.filter_eq_nil_iff]
      intro d hd haddr
      obtain ⟨-, j, hj⟩ := h.live d hd
      simp only [addressed, Bool.and_eq_true, beq_iff_eq] at haddr
      exact hp j (haddr.2 ▸ hj)
    simp [pending, queue_ports, hnone]
  rw [if_neg hq, if_neg hq]
  exact h.history q

theorem Delivers.unbind (h : Delivers r) (hi : r.udp.ports i = some p)
    (hidle : ∀ d ∈ r.udp.queue, addressed p d = false) :
    Delivers (r.record (.unbound p)
      ({ r.udp with ports := set r.udp.ports i none }.drop_port_datagrams p)) := by
  -- nothing is dropped, so nothing is left over to clear
  have hqueue : ({ r.udp with ports := set r.udp.ports i none }.drop_port_datagrams p).queue =
      r.udp.queue := by
    have hall : r.udp.queue.filter (fun d => !addressed p d) = r.udp.queue :=
      List.filter_eq_self.mpr fun d hd => by simp [hidle d hd]
    rw [queue_drop, queue_ports, hall, queue_length, Nat.sub_self]
    simp
  have hcount : ({ r.udp with ports := set r.udp.ports i none }.drop_port_datagrams p).udp_count =
      r.udp.udp_count := by
    rw [← queue_length, hqueue, queue_length]
  refine ⟨?_, ?_, ?_, ?_⟩
  · intro j k q hj hk
    simp only [UdpRun.record, drop_port_datagrams, set_apply] at hj hk
    split at hj
    · simp at hj
    split at hk
    · simp at hk
    exact h.ports_inj j k q hj hk
  · intro d hd
    simp only [UdpRun.record] at hd
    rw [hqueue] at hd
    obtain ⟨hu, j, hj⟩ := h.live d hd
    have hne : j ≠ i := by
      rintro rfl
      rw [hi, Option.some.injEq] at hj
      have := hidle d hd
      simp [addressed, hu, ← hj] at this
    exact ⟨hu, j, by simp only [UdpRun.record, drop_port_datagrams, set_ne hne, hj]⟩
  · simpa only [UdpRun.record, hcount] using h.room
  intro q
  simp only [UdpRun.record, pending, hqueue]
  exact h.history q

theorem Delivers.accept (h : Delivers r) {m : Message} (hb : ∃ i, r.udp.ports i = some p)
    (hroom : r.udp.udp_count < QOS_NET_UDP_MAX_DATAGRAMS)
    (hlen : m.payload.length ≤ QOS_NET_MAX_PACKET) :
    Delivers (r.record (.accepted p m) (r.udp.store p m)) := by
  obtain ⟨d, hqueue, hused, hdst, hmsg⟩ := queue_store r.udp p hlen
  refine ⟨h.ports_inj, ?_, hroom, ?_⟩
  · intro d' hd'
    simp only [UdpRun.record] at hd'
    rw [hqueue, List.mem_append, List.mem_singleton] at hd'
    rcases hd' with hd' | rfl
    · exact h.live d' hd'
    exact ⟨hused, hdst ▸ hb⟩
  intro q
  simp only [UdpRun.record, pending, hqueue, List.filter_append, List.map_append,
    List.filter_singleton]
  have haddr : addressed q d = (p == q) := by simp [addressed, hused, hdst]
  by_cases hq : q = p
  · subst hq
    rw [if_pos rfl, h.history q, List.append_assoc]
    simp [pending, haddr, hmsg]
  have hno : addressed q d = false := by
    rw [haddr, beq_eq_false_iff_ne]
    exact fun e => hq e.symm
  rw [if_neg hq, h.history q]
  simp [pending, hno]

theorem Delivers.deliver (h : Delivers r) {i : Nat}
    (hs : search (addressed p) r.udp.datagrams 0 r.udp.udp_count = some i) :
    Delivers (r.record (.delivered p (r.udp.datagrams i).message) (r.udp.remove i)) := by
  obtain ⟨pre, post, hqueue, hremove, haddr, hpre⟩ := queue_remove hs
  have hdst : (r.udp.datagrams i).used = true ∧ (r.udp.datagrams i).dst_port = p := by
    simpa [addressed] using haddr
  refine ⟨h.ports_inj, ?_, ?_, ?_⟩
  · intro d hd
    simp only [UdpRun.record] at hd
    rw [hremove] at hd
    apply h.live d
    rw [hqueue]
    rcases List.mem_append.mp hd with hd | hd
    · exact List.mem_append_left _ hd
    exact List.mem_append_right _ (List.mem_cons_of_mem _ hd)
  · have := h.room
    simp only [UdpRun.record, remove]
    omega
  intro q
  have hhist := h.history q
  simp only [pending, hqueue, List.filter_append, List.filter_cons, List.map_append] at hhist
  simp only [UdpRun.record, pending, hremove, List.filter_append, List.map_append]
  by_cases hq : q = p
  · subst hq
    have hnil : pre.filter (addressed q) = [] :=
      List.filter_eq_nil_iff.mpr fun d hd => by simp [hpre d hd]
    rw [if_pos haddr, hnil] at hhist
    simpa [hnil] using hhist
  have hno : addressed q (r.udp.datagrams i) = false := by
    have hq' : p ≠ q := fun e => hq e.symm
    simp [addressed, hdst.2, hq']
  rw [hno] at hhist
  simpa [hq] using hhist

/-! ### Runs -/
/-- A call that does not unbind a port for which a datagram is stored. -/
def UnbindsIdle (r : UdpRun) : UdpCall → Prop
  | .unbind p => ∀ d ∈ r.udp.queue, addressed p d = false
  | _ => True

instance (r : UdpRun) : ∀ c, Decidable (UnbindsIdle r c)
  | .unbind p => inferInstanceAs (Decidable (∀ d ∈ r.udp.queue, addressed p d = false))
  | .bind _ | .send .. | .recv .. => .isTrue trivial

theorem Delivers.move (h : Delivers r) {e : UdpEffect} {udp : Udp} (hm : Move r.udp e udp)
    (hidle : ∀ p, e = .unbound p → ∀ d ∈ r.udp.queue, addressed p d = false) :
    Delivers (r.record e udp) := by
  match hm with
  | .stay => exact h
  | .bind hi hp => exact h.bind hi hp
  | .unbind hi => exact h.unbind hi (hidle _ rfl)
  | .accept hb hroom hlen => exact h.accept hb hroom hlen
  | .deliver hs => exact h.deliver hs

theorem delivers_init (call : Udp → UdpCall → UdpEffect × Udp) :
    Delivers (udpRuns call).init where
  ports_inj _ _ _ h := by simp [udpRuns, reset] at h
  live _ h := by simp [udpRuns, reset, queue, view] at h
  room := Nat.zero_le _
  history _ := rfl

/-- Along every run without a busy unbind, of a kernel whose calls are moves
and which unbinds only on request. -/
theorem delivers_of_reach {call : Udp → UdpCall → UdpEffect × Udp}
    (hmove : ∀ s c, Move s (call s c).1 (call s c).2)
    (hunbind : ∀ s c p, (call s c).1 = .unbound p → c = .unbind p) {tr : List UdpCall}
    (hr : (udpRuns call).Reach UnbindsIdle tr r) : Delivers r := by
  refine hr.invariant Delivers (delivers_init call) ?_
  intro r c r' h hc hstep
  simp only [udpRuns, Option.some.injEq] at hstep
  subst hstep
  apply h.move (hmove r.udp c)
  intro p he
  have hcall := hunbind r.udp c p he
  subst hcall
  exact hc

section
variable (s : Udp) (c : UdpCall) (p : UInt16)
theorem CUdp.call_unbound (h : (CUdp.call s c).1 = .unbound p) : c = .unbind p := by
  match c with
  | .bind port =>
    simp only [CUdp.call] at h
    split at h <;> simp at h
  | .unbind port =>
    simp only [CUdp.call] at h
    split at h <;> simp at h
    rw [h]
  | .send _ _ _ _ =>
    simp only [CUdp.call] at h
    split at h <;> simp at h
  | .recv _ _ =>
    simp only [CUdp.call] at h
    split at h <;> simp at h

theorem RustUdp.call_unbound
    (h : (RustUdp.call s c).1 = .unbound p) : c = .unbind p := by
  match c with
  | .bind port =>
    simp only [RustUdp.call] at h
    split at h <;> simp at h
  | .unbind port =>
    simp only [RustUdp.call] at h
    split at h <;> simp at h
    rw [h]
  | .send _ _ _ _ =>
    simp only [RustUdp.call] at h
    split at h <;> simp at h
  | .recv _ _ =>
    simp only [RustUdp.call] at h
    split at h <;> simp at h
end
/-! ### The number of undelivered datagrams -/
def Udp.boundPorts (s : Udp) : List UInt16 :=
  (List.finRange QOS_NET_UDP_PORT_MAX).filterMap s.ports

/-- The number of datagrams accepted for a bound port since it was bound and
not received yet. -/
def UdpRun.undelivered (r : UdpRun) : Nat :=
  (r.udp.boundPorts.map fun p => (r.accepted p).length - (r.received p).length).sum

theorem sum_indicator [DecidableEq κ] {a : κ} {ks : List κ} (hnd : ks.Nodup) (ha : a ∈ ks) :
    (ks.map fun k => if a = k then 1 else 0).sum = 1 := by
  induction ks with
  | nil => simp at ha
  | cons k ks ih =>
  rw [List.nodup_cons] at hnd
  by_cases hk : a = k
  · subst hk
    have hzero : (ks.map fun k => if a = k then 1 else 0).sum = 0 := by
      rw [List.sum_eq_zero]
      intro n hn
      obtain ⟨k, hk, rfl⟩ := List.mem_map.mp hn
      rw [if_neg]
      rintro rfl
      exact hnd.1 hk
    simp [hzero]
  have hmem := (List.mem_cons.mp ha).resolve_left hk
  simp [hk, ih hnd.2 hmem]

/-- Counting the elements of a list by key counts every element once, if the
keys are distinct and every element has one of them. -/
theorem sum_length_filter {α : Type} [DecidableEq κ] (f : α → κ) {ks : List κ} (hnd : ks.Nodup)
    {l : List α} (hl : ∀ x ∈ l, f x ∈ ks) :
    (ks.map fun k => (l.filter fun x => f x = k).length).sum = l.length := by
  induction l with
  | nil => simp
  | cons x l ih =>
  have hone := sum_indicator hnd (hl x (by simp))
  have hsplit : ∀ k, ((x :: l).filter fun x => f x = k).length =
      (if f x = k then 1 else 0) + (l.filter fun x => f x = k).length := by
    intro k
    by_cases hk : f x = k <;> simp [hk, Nat.add_comm]
  simp only [hsplit, List.sum_map_add, hone]
  rw [ih fun y hy => hl y (by simp [hy]), List.length_cons, Nat.add_comm]

theorem Delivers.undelivered_eq (h : Delivers r) : r.undelivered = r.udp.udp_count := by
  have hnd : r.udp.boundPorts.Nodup := by
    refine (List.nodup_finRange _).filterMap fun i j p hi hj => ?_
    exact h.ports_inj i j p hi hj
  have hmem : ∀ d ∈ r.udp.queue, d.dst_port ∈ r.udp.boundPorts := by
    intro d hd
    obtain ⟨-, i, hi⟩ := h.live d hd
    exact List.mem_filterMap.mpr ⟨i, List.mem_finRange i, hi⟩
  have hpend : ∀ p, (r.accepted p).length - (r.received p).length =
      (r.udp.queue.filter fun d => d.dst_port = p).length := by
    intro p
    have hfilter : r.udp.queue.filter (addressed p) =
        r.udp.queue.filter fun d => d.dst_port = p := by
      refine List.filter_congr fun d hd => ?_
      rw [addressed, (h.live d hd).1, Bool.true_and]
      rfl
    rw [h.history p, List.length_append, Nat.add_sub_cancel_left, pending, List.length_map, hfilter]
  rw [UdpRun.undelivered]
  simp only [hpend]
  rw [sum_length_filter Datagram.dst_port hnd hmem, queue_length]

/-! ### Delivery -/
/-- A receive into a buffer that is large enough returns the oldest datagram
that is stored for the port. -/
def ReturnsOldest (recv : Udp → UInt16 → Nat → Option Message) (s : Udp) : Prop :=
  ∀ p cap d rest, s.queue.filter (addressed p) = d :: rest → p ≠ 0 → cap ≠ 0 →
    d.len.toNat ≤ cap → recv s p cap = some d.message

/-- Correct delivery in one state of a run; `sendFails` says when a send with
these arguments fails, and `recv` what a receive into a buffer of that size
returns. -/
structure UdpCorrect (sendFails : Udp → UInt16 → UInt32 → UInt16 → List UInt8 → Prop)
    (recv : Udp → UInt16 → Nat → Option Message) (r : UdpRun) : Prop where
  /-- What was accepted for a port since it was bound is what was received on
  it, in order, followed by what is still stored for it. -/
  order : ∀ p, r.accepted p = r.received p ++ r.udp.pending p
  /-- The stored count is the number of undelivered datagrams. -/
  count : r.udp.udp_count = r.undelivered
  /-- A well-formed send to a bound port fails only at the maximum number of
  undelivered datagrams. -/
  full : ∀ src_port src_ip dst_port bytes, SendOk src_port src_ip dst_port bytes →
    r.udp.port_is_bound dst_port = true → sendFails r.udp src_port src_ip dst_port bytes →
    r.undelivered = QOS_NET_UDP_MAX_DATAGRAMS
  oldest : ReturnsOldest recv r.udp

section
variable (s : Udp) (src_port : UInt16) (src_ip : UInt32) (dst_port : UInt16) (bytes : List UInt8)
def CUdp.sendFails : Prop :=
  (CUdp.qos_net_udp_send s src_port src_ip dst_port (some bytes)).1 = -1

def RustUdp.sendFails : Prop :=
  (RustUdp.net_udp_send s src_port src_ip dst_port bytes).1 = none

def CUdp.recv (cap : Nat) : Option Message := (CUdp.qos_net_udp_recv s dst_port (some cap)).2.1

def RustUdp.recv (cap : Nat) : Option Message := (RustUdp.net_udp_recv s dst_port cap).1
end
theorem CUdp.full_of_sendFails (hok : SendOk src_port src_ip dst_port bytes)
    (hb : s.port_is_bound dst_port = true) (hf : CUdp.sendFails s src_port src_ip dst_port bytes) :
    QOS_NET_UDP_MAX_DATAGRAMS ≤ s.udp_count := by
  rw [CUdp.sendFails] at hf
  rcases CUdp.qos_net_udp_send_cases s src_port src_ip dst_port bytes with
    ⟨hbad, -⟩ | ⟨-, hnb, -⟩ | ⟨-, -, hfull, -⟩ | ⟨-, -, -, h⟩
  · exact absurd hok hbad
  · rw [hb] at hnb; simp at hnb
  · exact hfull
  rw [h] at hf; dsimp only at hf; omega

theorem RustUdp.full_of_sendFails (hok : SendOk src_port src_ip dst_port bytes)
    (hb : s.port_is_bound dst_port = true) (hf : RustUdp.sendFails s src_port src_ip dst_port bytes) :
    QOS_NET_UDP_MAX_DATAGRAMS ≤ s.udp_count := by
  rw [RustUdp.sendFails] at hf
  rcases RustUdp.net_udp_send_cases s src_port src_ip dst_port bytes with
    ⟨hbad, -⟩ | ⟨-, hfull, -⟩ | ⟨-, -, -, h⟩
  · exact absurd hok hbad
  · rcases hfull with hnb | hfull
    · rw [hb] at hnb; simp at hnb
    exact hfull
  rw [h] at hf; simp at hf

theorem search_oldest {d : Datagram} {rest : List Datagram}
    (hqueue : s.queue.filter (addressed p) = d :: rest) :
    ∃ i, search (addressed p) s.datagrams 0 s.udp_count = some i ∧ s.datagrams i = d := by
  cases hs : search (addressed p) s.datagrams 0 s.udp_count with
  | none =>
    have hd : d ∈ s.queue.filter (addressed p) := by simp [hqueue]
    obtain ⟨hmem, haddr⟩ := List.mem_filter.mp hd
    obtain ⟨j, hj, rfl⟩ := mem_view.mp hmem
    rw [search_none hs j (Nat.zero_le _) (by omega)] at haddr
    cases haddr
  | some i =>
  obtain ⟨hview, haddr, hbefore⟩ := search_split hs
  have hnil : (view s.datagrams i).filter (addressed p) = [] :=
    List.filter_eq_nil_iff.mpr fun x hx => by simp [hbefore x hx]
  rw [queue, hview, List.filter_append, hnil, List.nil_append, List.filter_cons_of_pos haddr]
    at hqueue
  exact ⟨i, rfl, (List.cons.inj hqueue).1⟩

theorem CUdp.recv_oldest (s : Udp) : ReturnsOldest CUdp.recv s := by
  intro p cap d rest hqueue hp hcap hlen
  obtain ⟨i, hs, rfl⟩ := search_oldest hqueue
  simp [CUdp.recv, CUdp.qos_net_udp_recv, hs, hp, hcap, Nat.not_lt.mpr hlen]

theorem RustUdp.recv_oldest (s : Udp) : ReturnsOldest RustUdp.recv s := by
  intro p cap d rest hqueue hp hcap hlen
  obtain ⟨i, hs, rfl⟩ := search_oldest hqueue
  simp [RustUdp.recv, RustUdp.net_udp_recv, hs, hp, hcap, Nat.not_lt.mpr hlen]

theorem Delivers.correct (h : Delivers r)
    {sendFails : Udp → UInt16 → UInt32 → UInt16 → List UInt8 → Prop}
    {recv : Udp → UInt16 → Nat → Option Message}
    (hfull : ∀ src_port src_ip dst_port bytes, SendOk src_port src_ip dst_port bytes →
      r.udp.port_is_bound dst_port = true → sendFails r.udp src_port src_ip dst_port bytes →
      QOS_NET_UDP_MAX_DATAGRAMS ≤ r.udp.udp_count)
    (hrecv : ReturnsOldest recv r.udp) : UdpCorrect sendFails recv r where
  order := h.history
  count := h.undelivered_eq.symm
  full src_port src_ip dst_port bytes hok hb hf := by
    have hle := hfull src_port src_ip dst_port bytes hok hb hf
    rw [h.undelivered_eq]
    exact Nat.le_antisymm h.room hle
  oldest := hrecv

/-- In both kernels, in every state reached by calls that never unbind a port
while a datagram for it is stored, UDP delivery is correct. -/
theorem udp_delivery_correct (tr : List UdpCall) (r : UdpRun) :
    ((udpRuns CUdp.call).Reach UnbindsIdle tr r → UdpCorrect CUdp.sendFails CUdp.recv r) ∧
    ((udpRuns RustUdp.call).Reach UnbindsIdle tr r → UdpCorrect RustUdp.sendFails RustUdp.recv r) := by
  constructor
  · intro hr
    have h := delivers_of_reach CUdp.call_move CUdp.call_unbound hr
    exact h.correct (fun _ _ _ _ => CUdp.full_of_sendFails) (CUdp.recv_oldest _)
  intro hr
  have h := delivers_of_reach RustUdp.call_move RustUdp.call_unbound hr
  exact h.correct (fun _ _ _ _ => RustUdp.full_of_sendFails) (RustUdp.recv_oldest _)

/-- Of two datagrams for port 5000 one is received; then port 5001, for which
nothing is stored, is unbound. -/
theorem udp_delivery_correct_received :
    let tr := [.bind 5000, .bind 5001, .send 6000 1 5000 (some [7]), .send 6000 1 5000 (some [8]),
      .recv 5000 (some 4), .unbind 5001]
    (∃ r, (udpRuns CUdp.call).Reach UnbindsIdle tr r ∧ r.received 5000 = [⟨6000, 1, [7]⟩] ∧
      r.undelivered = 1 ∧ UdpCorrect CUdp.sendFails CUdp.recv r) ∧
    ∃ r, (udpRuns RustUdp.call).Reach UnbindsIdle tr r ∧ r.received 5000 = [⟨6000, 1, [7]⟩] ∧
      r.undelivered = 1 ∧ UdpCorrect RustUdp.sendFails RustUdp.recv r := by
  let P (r : UdpRun) : Prop := r.received 5000 = [⟨6000, 1, [7]⟩] ∧ r.undelivered = 1
  constructor
  · refine System.exists_execIf (P := P) (by decide +kernel) fun r hr ⟨hreceived, hone⟩ => ?_
    exact ⟨hreceived, hone, (udp_delivery_correct _ r).1 hr⟩
  refine System.exists_execIf (P := P) (by decide +kernel) fun r hr ⟨hreceived, hone⟩ => ?_
  exact ⟨hreceived, hone, (udp_delivery_correct _ r).2 hr⟩

/-- Unbinding a port with one stored datagram leaves the count at 1, although
no datagram is undelivered, in both kernels. -/
theorem udp_unbind_keeps_count :
    (¬∀ tr r, (udpRuns CUdp.call).Reach anyStep tr r → UdpCorrect CUdp.sendFails CUdp.recv r) ∧
    (¬∀ tr r, (udpRuns RustUdp.call).Reach anyStep tr r → UdpCorrect RustUdp.sendFails RustUdp.recv r) := by
  constructor
  · intro h
    have hr : (udpRuns CUdp.call).Reach anyStep
        [.bind 5000, .send 6000 1 5000 (some [7]), .unbind 5000] _ := System.reach_of_exec rfl
    exact absurd (h _ _ hr).count (by decide)
  intro h
  have hr : (udpRuns RustUdp.call).Reach anyStep
      [.bind 5000, .send 6000 1 5000 (some [7]), .unbind 5000] _ := System.reach_of_exec rfl
  exact absurd (h _ _ hr).count (by decide)
end QosKernel
