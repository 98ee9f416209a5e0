import QosKernel.Net.UdpDelivery

/-! # UDP in the two kernels

Over the same calls, the C and the Rust kernel have the same ports and the
same datagrams at every point. Their sends return the same, unless nobody
has bound the destination port: the C kernel takes such a datagram to be
for the outside and returns its length, and the Rust kernel fails.
-/
open Framework
namespace QosKernel
namespace Udp
/-- Only ports that may be bound are bound. -/
def Dynamic (s : Udp) : Prop := ∀ i p, s.ports i = some p → QOS_NET_PORT_MIN_DYNAMIC ≤ p

variable {s : Udp} {port : UInt16}
theorem dynamic_reset : reset.Dynamic := by
  intro i p hi
  cases hi

theorem Dynamic.move {s' : Udp} {e : UdpEffect} (h : s.Dynamic) (hm : Move s e s')
    (hbound : ∀ p, e = .bound p → QOS_NET_PORT_MIN_DYNAMIC ≤ p) : s'.Dynamic := by
  intro j q hj
  cases hm with
  | stay => exact h j q hj
  | @bind i p _ _ =>
    change set s.ports i (some p) j = some q at hj
    rw [set_apply] at hj
    split at hj
    · cases hj
      exact hbound q rfl
    exact h j q hj
  | @unbind i p _ =>
    change set s.ports i none j = some q at hj
    rw [set_apply] at hj
    split at hj
    · cases hj
    exact h j q hj
  | accept | deliver => exact h j q hj

theorem Dynamic.unbind_port_low (h : s.Dynamic) (hlow : port < QOS_NET_PORT_MIN_DYNAMIC) :
    s.unbind_port port = none := by
  rcases hu : s.unbind_port port with _ | s'
  · rfl
  obtain ⟨i, hi, -⟩ := unbind_port_some hu
  exact absurd (h i port hi) (UInt16.not_le.mpr hlow)
end Udp
/-! ### The same call in both kernels -/
variable {s : Udp}
theorem qos_net_udp_bind_eq (s : Udp) (port : UInt16) :
    CUdp.qos_net_udp_bind s port =
      (if (RustUdp.net_udp_bind s port).1 then 0 else -1, (RustUdp.net_udp_bind s port).2) := by
  unfold CUdp.qos_net_udp_bind RustUdp.net_udp_bind
  by_cases hlow : port < QOS_NET_PORT_MIN_DYNAMIC
  · simp [hlow]
  rcases hb : s.port_is_bound port with _ | _
  · rcases hp : s.bind_port port with _ | s'
    all_goals simp [hlow]
  simp [hlow]

theorem qos_net_udp_unbind_eq (h : s.Dynamic) (port : UInt16) :
    CUdp.qos_net_udp_unbind s port = (if (RustUdp.net_udp_unbind s port).1 then 0 else -1,
        (RustUdp.net_udp_unbind s port).2) := by
  unfold CUdp.qos_net_udp_unbind RustUdp.net_udp_unbind
  by_cases hlow : port < QOS_NET_PORT_MIN_DYNAMIC
  · simp [hlow, h.unbind_port_low hlow]
  rcases hu : s.unbind_port port with _ | s'
  all_goals simp [hlow]

theorem qos_net_udp_recv_eq (s : Udp) (dst_port : UInt16) (out : Option Nat) :
    (CUdp.qos_net_udp_recv s dst_port out).2 = RustUdp.net_udp_recv s dst_port (out.getD 0) := by
  cases out with
  | none => simp [CUdp.qos_net_udp_recv, RustUdp.net_udp_recv]
  | some cap =>
  simp only [CUdp.qos_net_udp_recv, RustUdp.net_udp_recv, Option.getD_some]
  by_cases hbad : (dst_port == 0 || cap == 0) = true
  · simp only [if_pos hbad]
  rcases hs : search (Udp.addressed dst_port) s.datagrams 0 s.udp_count with _ | i
  · simp only [if_neg hbad]
  by_cases hcap : cap < (s.datagrams i).len.toNat
  · simp only [if_neg hbad, if_pos hcap]
  simp only [if_neg hbad, if_neg hcap]

theorem call_send_eq (s : Udp) (src_port : UInt16) (src_ip : UInt32) (dst_port : UInt16)
    (data : Option (List UInt8)) :
    CUdp.call s (.send src_port src_ip dst_port data) =
      RustUdp.call s (.send src_port src_ip dst_port data) := by
  cases data with
  | none => simp [CUdp.call, RustUdp.call, CUdp.qos_net_udp_send, RustUdp.net_udp_send]
  | some bytes =>
  simp only [CUdp.call, RustUdp.call, Option.getD_some]
  rcases CUdp.qos_net_udp_send_cases s src_port src_ip dst_port bytes with
    ⟨hbad, hc⟩ | ⟨hok, hb, hc⟩ | ⟨hok, hb, hfull, hc⟩ | ⟨hok, hb, hroom, hc⟩
  · rcases RustUdp.net_udp_send_cases s src_port src_ip dst_port bytes with
      ⟨-, hr⟩ | ⟨hgood, -⟩ | ⟨hgood, -⟩
    · simp [hc, hr]
    all_goals exact absurd hgood hbad
  · rcases RustUdp.net_udp_send_cases s src_port src_ip dst_port bytes with
      ⟨hbad, -⟩ | ⟨-, -, hr⟩ | ⟨-, hbound, -⟩
    · exact absurd hok hbad
    · simp [hc, hr, hb]
    rw [hb] at hbound
    cases hbound
  · rcases RustUdp.net_udp_send_cases s src_port src_ip dst_port bytes with
      ⟨hbad, -⟩ | ⟨-, -, hr⟩ | ⟨-, -, hroom, -⟩
    · exact absurd hok hbad
    · simp [hc, hr]
    exact absurd hroom (Nat.not_lt.mpr hfull)
  rcases RustUdp.net_udp_send_cases s src_port src_ip dst_port bytes with
    ⟨hbad, -⟩ | ⟨-, hwhy, -⟩ | ⟨-, -, -, hr⟩
  · exact absurd hok hbad
  · rcases hwhy with hnot | hfull
    · rw [hb] at hnot
      cases hnot
    exact absurd hroom (Nat.not_lt.mpr hfull)
  have hne : (bytes.length : Int) ≠ -1 := by omega
  simp [hc, hr, hb, hne]

theorem udp_call_eq (h : s.Dynamic) (c : UdpCall) : CUdp.call s c = RustUdp.call s c := by
  cases c with
  | bind port =>
    simp only [CUdp.call, RustUdp.call, qos_net_udp_bind_eq]
    cases (RustUdp.net_udp_bind s port).1 <;> rfl
  | unbind port =>
    simp only [CUdp.call, RustUdp.call, qos_net_udp_unbind_eq h]
    cases (RustUdp.net_udp_unbind s port).1 <;> rfl
  | send src_port src_ip dst_port data => exact call_send_eq s src_port src_ip dst_port data
  | recv dst_port out =>
  simp only [CUdp.call, RustUdp.call, qos_net_udp_recv_eq]

theorem RustUdp.call_bound {c : UdpCall} {p : UInt16} (h : (RustUdp.call s c).1 = .bound p) :
    QOS_NET_PORT_MIN_DYNAMIC ≤ p := by
  cases c with
  | bind port =>
    simp only [call] at h
    split at h
    next hbound =>
      cases h
      by_contra hlow
      rw [net_udp_bind, if_pos (UInt16.not_le.mp hlow)] at hbound
      cases hbound
    · cases h
  | unbind port | send src_port src_ip dst_port data | recv dst_port out =>
    simp only [call] at h
    split at h <;> cases h

theorem RustUdp.call_dynamic (h : s.Dynamic) (c : UdpCall) : (RustUdp.call s c).2.Dynamic :=
  h.move (call_move s c) fun _ => call_bound

/-! ### Whole runs -/
def bothUdp : System (Udp × Udp) UdpCall :=
  .ofStep (.reset, .reset) fun s c => ((CUdp.call s.1 c).2, (RustUdp.call s.2 c).2)

theorem bothUdp_same {tr : List UdpCall} {s : Udp × Udp} (hr : bothUdp.Reach anyStep tr s) :
    s.1 = s.2 ∧ s.2.Dynamic := by
  refine hr.invariant (fun s => s.1 = s.2 ∧ s.2.Dynamic) ⟨rfl, Udp.dynamic_reset⟩ ?_
  intro s c s' ⟨hsame, hdyn⟩ _ hstep
  cases hstep
  refine ⟨?_, RustUdp.call_dynamic hdyn c⟩
  show (CUdp.call s.1 c).2 = (RustUdp.call s.2 c).2
  rw [hsame, udp_call_eq hdyn]

/-- Both sends succeed with the same length, or both fail, and the datagrams
stored afterwards are the same. -/
def SendsAlike (s : Udp × Udp) (src_port : UInt16) (src_ip : UInt32) (dst_port : UInt16)
    (data : List UInt8) : Prop :=
  let c := CUdp.qos_net_udp_send s.1 src_port src_ip dst_port (some data)
  let r := RustUdp.net_udp_send s.2 src_port src_ip dst_port data
  ((∃ n : Nat, c.1 = n ∧ r.1 = some n) ∨ c.1 = -1 ∧ r.1 = none) ∧ c.2.queue = r.2.queue

/-- In one state, the results differ exactly if the arguments are good and
nobody has bound the port. -/
theorem sendsAlike_iff (s : Udp) (src_port : UInt16) (src_ip : UInt32) (dst_port : UInt16)
    (data : List UInt8) :
    SendsAlike (s, s) src_port src_ip dst_port data ↔
      (SendOk src_port src_ip dst_port data → s.port_is_bound dst_port = true) := by
  have hstored : (CUdp.qos_net_udp_send s src_port src_ip dst_port (some data)).2 =
      (RustUdp.net_udp_send s src_port src_ip dst_port data).2 :=
    congrArg Prod.snd (call_send_eq s src_port src_ip dst_port (some data))
  unfold SendsAlike
  dsimp only
  rw [hstored, and_iff_left rfl]
  rcases CUdp.qos_net_udp_send_cases s src_port src_ip dst_port data with
    ⟨hbad, hc⟩ | ⟨hok, hb, hc⟩ | ⟨hok, hb, hfull, hc⟩ | ⟨hok, hb, hroom, hc⟩
  all_goals
    rcases RustUdp.net_udp_send_cases s src_port src_ip dst_port data with
      ⟨hbad', hr⟩ | ⟨hok', hwhy, hr⟩ | ⟨hok', hb', hroom', hr⟩
  all_goals rw [hc, hr]
  case inl.inl => exact ⟨fun _ hok => absurd hok hbad, fun _ => .inr ⟨rfl, rfl⟩⟩
  case inl.inr.inl => exact absurd hok' hbad
  case inl.inr.inr => exact absurd hok' hbad
  case inr.inl.inl => exact absurd hok hbad'
  case inr.inl.inr.inl =>
    -- the C kernel sends to the outside
    rw [hb]
    constructor
    · rintro (⟨n, -, hn⟩ | ⟨hlen, -⟩)
      · cases hn
      change (data.length : Int) = -1 at hlen
      omega
    intro h
    cases h hok
  case inr.inl.inr.inr =>
    rw [hb] at hb'
    cases hb'
  case inr.inr.inl.inl => exact absurd hok hbad'
  case inr.inr.inl.inr.inl => exact ⟨fun _ _ => hb, fun _ => .inr ⟨rfl, rfl⟩⟩
  case inr.inr.inl.inr.inr => exact absurd hroom' (Nat.not_lt.mpr hfull)
  case inr.inr.inr.inl => exact absurd hok hbad'
  case inr.inr.inr.inr.inl =>
    rcases hwhy with hnot | hfull
    · rw [hb] at hnot
      cases hnot
    exact absurd hroom (Nat.not_lt.mpr hfull)
  case inr.inr.inr.inr.inr => exact ⟨fun _ _ => hb, fun _ => .inl ⟨data.length, rfl, rfl⟩⟩

/-- After every sequence of calls to both kernels, the ports and the datagrams
are the same, and a send has the same result and stores the same exactly if
the destination port is bound, or the arguments are refused. -/
theorem udp_sends_alike (tr : List UdpCall) (s : Udp × Udp) (hr : bothUdp.Reach anyStep tr s) :
    s.1 = s.2 ∧ ∀ src_port src_ip dst_port data, SendsAlike s src_port src_ip dst_port data ↔
        (SendOk src_port src_ip dst_port data → s.1.port_is_bound dst_port = true) := by
  obtain ⟨c, r⟩ := s
  obtain ⟨hsame, -⟩ := bothUdp_same hr
  change c = r at hsame
  subst hsame
  exact ⟨rfl, sendsAlike_iff c⟩

/-- A send to a bound port. -/
theorem udp_sends_alike_bound : ∃ s, bothUdp.Reach anyStep [.bind 5000] s ∧
    SendsAlike s 6000 1 5000 [7] :=
  System.exists_exec (P := fun s => s.1.port_is_bound 5000 = true) (by decide +kernel)
    fun s hr hb => ((udp_sends_alike _ s hr).2 6000 1 5000 [7]).mpr fun _ => hb

/-- A send to a port that nobody has bound returns 1 in C and fails in Rust. -/
theorem udp_sends_differ : ∃ s, bothUdp.Reach anyStep [] s ∧
    (CUdp.qos_net_udp_send s.1 6000 1 5000 (some [7])).1 = 1 ∧
    (RustUdp.net_udp_send s.2 6000 1 5000 [7]).1 = none ∧ ¬SendsAlike s 6000 1 5000 [7] := by
  refine ⟨(.reset, .reset), .init, by decide +kernel, by decide +kernel, ?_⟩
  rw [sendsAlike_iff]
  intro h
  have hok : SendOk 6000 1 5000 [7] := by
    unfold SendOk
    decide
  exact absurd (h hok) (by decide +kernel)

/-- After the same calls, the next one has the same effect in both kernels. -/
theorem udp_layers_agree {calls : List UdpCall} {s : Udp × Udp}
    (hr : bothUdp.Reach anyStep calls s) (c : UdpCall) : CUdp.call s.1 c = RustUdp.call s.2 c := by
  obtain ⟨hsame, hdyn⟩ := bothUdp_same hr
  rw [hsame, udp_call_eq hdyn]

theorem udp_layers_agree_bound : ∃ s, bothUdp.Reach anyStep [.bind 5000] s ∧
    ∀ c, CUdp.call s.1 c = RustUdp.call s.2 c :=
  ⟨_, System.reach_foldl _ _ _, udp_layers_agree (System.reach_foldl _ _ _)⟩
end QosKernel
