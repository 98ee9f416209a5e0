import QosKernel.Syscall.CInvariant

/-! # Sockets and the ownership invariant

First what the small functions of the system call layer return, then how
binding, accepting and the ports of connections keep the invariant.
-/
open Framework
namespace QosKernel
namespace Net
variable {s s' : Net} {c : ConnSlot} {lport rport : UInt16} {rip : UInt32}
theorem qos_net_tcp_listen_some {port : UInt16} {l : ListenerSlot}
    (h : s.qos_net_tcp_listen port = some (l, s')) :
    s.listeners l = none ∧ (∀ j, s.listeners j ≠ some port) ∧
      s' = { s with listeners := set s.listeners l (some port) } := by
  unfold qos_net_tcp_listen at h
  split at h
  · cases h
  next hc =>
  simp only [Bool.or_eq_true, not_or, tcp_listener_exists_iff] at hc
  simp only [Option.map_eq_some_iff, Prod.mk.injEq] at h
  obtain ⟨j, hj, rfl, rfl⟩ := h
  exact ⟨by simpa using first_some hj, fun k hk => hc.2 ⟨k, hk⟩, rfl⟩

theorem qos_net_tcp_connect_some (h : s.qos_net_tcp_connect lport rip rport = some (c, s')) :
    (s.conns c).used = false ∧ rport ≠ 0 ∧
      s' = { s with conns := set s.conns c ⟨true, .synSent, lport, rport, rip, 500, 0⟩ } := by
  unfold qos_net_tcp_connect at h
  split at h
  · cases h
  next hc =>
  simp only [Bool.or_eq_true, not_or, beq_iff_eq] at hc
  simp only [Option.map_eq_some_iff, Prod.mk.injEq] at h
  obtain ⟨j, hj, rfl, rfl⟩ := h
  exact ⟨by simpa using first_some hj, hc.1.2, rfl⟩

theorem qos_net_tcp_step_synAck : Net.qos_net_tcp_step { s with
      conns := set s.conns c ⟨true, .synSent, lport, rport, rip, 500, 0⟩ } c .rxSynAck =
    (0, { s with conns := set s.conns c ⟨true, .established, lport, rport, rip, 500, 0⟩ }) := by
  unfold qos_net_tcp_step
  simp only [set_self, tcp_transition, set_set]
  rfl
end Net
namespace KState
variable {fd fd' : Fd} {j : FdNum} {port : UInt16} {t : SockType}
variable {s s' : KState} {i : FdNum}
/-! ### What the small functions return -/
theorem openFd_some {fd : UInt32} (h : s.openFd fd = some i) : (s.fds i).used = true := by
  unfold openFd at h
  split at h
  · split at h
    · cases h
      assumption
    cases h
  cases h

theorem openSocket_some {fd : UInt32} (h : s.openSocket fd = some i) :
    (s.fds i).used = true ∧ (s.fds i).kind = .socket := by
  unfold openSocket at h
  split at h
  · cases h
  next j hj =>
  split at h
  next hk =>
    cases h
    exact ⟨openFd_some hj, by simpa using hk⟩
  · cases h

theorem fd_alloc_some {kind : FdKind} (h : s.fd_alloc kind = some (i, s')) :
    (s.fds i).used = false ∧ s' = s.setFd i (.fresh kind) := by
  simp only [fd_alloc, Option.map_eq_some_iff, Prod.mk.injEq] at h
  obtain ⟨j, hj, rfl, rfl⟩ := h
  exact ⟨by simpa using first_some hj, rfl⟩

@[simp] theorem setFd_self : (s.setFd i fd).fds i = fd := set_self
theorem setFd_setFd : (s.setFd i fd).setFd i fd' = s.setFd i fd' := by simp only [setFd, set_set]
theorem setFd_ne (h : j ≠ i) : (s.setFd i fd).fds j = s.fds j := set_ne h

theorem setFd_comm (h : j ≠ i) : (s.setFd i fd).setFd j fd' = (s.setFd j fd').setFd i fd := by
  simp only [setFd, set_comm h]

theorem socket_port_mark_stream (h : s.socket_port_mark .stream port = some s') :
    QOS_SOCK_PORT_MIN ≤ port ∧ s.stream_ports port = false ∧
      s' = { s with stream_ports := fun p => p == port || s.stream_ports p } := by
  simp only [socket_port_mark] at h
  split at h
  · cases h
  next hc =>
  simp only [Bool.or_eq_true, decide_eq_true_eq, not_or, Bool.not_eq_true] at hc
  exact ⟨UInt16.not_lt.mp hc.1, hc.2, (Option.some.inj h).symm⟩

theorem socket_port_mark_dgram (h : s.socket_port_mark .dgram port = some s') :
    QOS_SOCK_PORT_MIN ≤ port ∧ s.dgram_ports port = false ∧
      s' = { s with dgram_ports := fun p => p == port || s.dgram_ports p } := by
  simp only [socket_port_mark] at h
  split at h
  · cases h
  next hc =>
  simp only [Bool.or_eq_true, decide_eq_true_eq, not_or, Bool.not_eq_true] at hc
  exact ⟨UInt16.not_lt.mp hc.1, hc.2, (Option.some.inj h).symm⟩

theorem socket_port_alloc_some (h : s.socket_port_alloc t = some (port, s')) :
    s.socket_port_mark t port = some s' := by
  obtain ⟨p, -, hp⟩ := List.exists_of_findSome?_eq_some h
  simp only [Option.map_eq_some_iff, Prod.mk.injEq] at hp
  obtain ⟨t', ht, rfl, rfl⟩ := hp
  exact ht

theorem unmark_mark_bits {bits : UInt16 → Bool} (hfree : bits port = false) :
    (fun p => p != port && (p == port || bits p)) = bits := by
  funext p
  by_cases he : p = port
  · simp [he, hfree]
  simp [bne, beq_eq_false_iff_ne.mpr he]

theorem unmark_mark_dgram (h : s.socket_port_mark .dgram port = some s') :
    s'.socket_port_unmark .dgram port = s := by
  obtain ⟨hp, hfree, rfl⟩ := socket_port_mark_dgram h
  rw [socket_port_unmark_dgram _ hp]
  dsimp only
  rw [unmark_mark_bits hfree]

theorem unmark_mark_stream (h : s.socket_port_mark .stream port = some s') :
    s'.socket_port_unmark .stream port = s := by
  obtain ⟨hp, hfree, rfl⟩ := socket_port_mark_stream h
  rw [socket_port_unmark_stream _ hp]
  dsimp only
  rw [unmark_mark_bits hfree]

theorem stream_local_port_cases {allocated : Bool}
    (h : s.stream_local_port i = some (port, allocated, s')) :
    (allocated = true ∧ (s.fds i).sock_lport = 0 ∧ s.socket_port_mark .stream port = some s') ∨
    (allocated = false ∧ (s.fds i).sock_lport = port ∧ port ≠ 0 ∧ s' = s) := by
  unfold stream_local_port at h
  split at h
  next hz =>
    split at h
    · cases h
    next hm =>
    cases h
    exact .inl ⟨rfl, beq_iff_eq.mp hz, socket_port_alloc_some hm⟩
  next hz =>
  cases h
  exact .inr ⟨rfl, rfl, by simpa using hz, rfl⟩

theorem stream_local_port_frame {allocated : Bool}
    (h : s.stream_local_port i = some (port, allocated, s')) :
    ∃ ports, s' = { s with stream_ports := ports } := by
  obtain ⟨-, -, hm⟩ | ⟨-, -, -, rfl⟩ := stream_local_port_cases h
  · obtain ⟨-, -, rfl⟩ := socket_port_mark_stream hm
    exact ⟨_, rfl⟩
  exact ⟨_, rfl⟩

theorem stream_local_port_undo {allocated : Bool}
    (h : s.stream_local_port i = some (port, allocated, s')) :
    (if allocated = true then s'.socket_port_unmark .stream port else s') = s := by
  obtain ⟨rfl, -, hm⟩ | ⟨rfl, -, -, rfl⟩ := stream_local_port_cases h
  · exact unmark_mark_stream hm
  rfl

namespace Owns
variable {port : UInt16} {fd : Fd} {allocated : Bool}
theorem udp_claim_cases (hs : s.socket_port_mark .dgram port = some s') :
    s'.udp_claim port = (false, s) ∨
    ∃ u, s.net.udp.ports u = none ∧ (∀ j, s.net.udp.ports j ≠ some port) ∧
      s'.udp_claim port = (true, { s' with net := { s.net with
        udp := { s.net.udp with ports := set s.net.udp.ports u (some port) } } }) := by
  have hunmark := unmark_mark_dgram hs
  obtain ⟨-, -, rfl⟩ := socket_port_mark_dgram hs
  rcases CUdp.qos_net_udp_bind_cases s.net.udp port with heq | ⟨u, hu, hnot, heq⟩
  · refine .inl ?_
    simp only [KState.udp_claim, heq]
    rw [if_neg (by decide), hunmark]
  refine .inr ⟨u, hu, hnot, ?_⟩
  simp only [KState.udp_claim, heq]
  rw [if_pos trivial]

theorem bind_stream (h : s.Owns) (hu : (s.fds i).used = true) (hk : (s.fds i).kind = .socket)
    (ht : (s.fds i).sock_type = .stream)
    (hfree : (s.fds i).sock_bound = false ∨ (s.fds i).sock_lport = 0)
    (hs : s.socket_port_mark .stream port = some s') (hfd : fd.hold = ((s.fds i).boundTo port).hold) :
    (s'.setFd i fd).Owns := by
  obtain ⟨hp, -, rfl⟩ := socket_port_mark_stream hs
  have hrow := Fd.hold_socket hu hk (.inl ht)
  refine h.rekey hrow (hfd.trans (Fd.hold_socket hu hk (.inl ht))) rfl rfl rfl rfl ?_
  exact h.ns.bind_stream hrow ((h.ns.keys i _ hrow).not_bound hfree) ht hp

theorem bind_dgram (h : s.Owns) (hu : (s.fds i).used = true) (hk : (s.fds i).kind = .socket)
    (ht : (s.fds i).sock_type = .dgram)
    (hfree : (s.fds i).sock_bound = false ∨ (s.fds i).sock_lport = 0)
    (hs : s.socket_port_mark .dgram port = some s') {u : PortSlot}
    (hudp : s.net.udp.ports u = none) (hnot : ∀ j, s.net.udp.ports j ≠ some port)
    (hfd : fd.hold = ((s.fds i).boundTo port).hold) :
    ({ s' with net := { s.net with
      udp := { s.net.udp with ports := set s.net.udp.ports u (some port) } } }.setFd i fd).Owns
    := by
  obtain ⟨hp, -, rfl⟩ := socket_port_mark_dgram hs
  have hrow := Fd.hold_socket hu hk (.inr ht)
  refine h.rekey hrow (hfd.trans (Fd.hold_socket hu hk (.inr ht))) rfl rfl rfl rfl ?_
  exact h.ns.bind_dgram hrow ((h.ns.keys i _ hrow).not_bound hfree) ht hp hudp hnot

theorem accept (h : s.Owns) {j : FdNum} (hu : (s.fds i).used = true)
    (hk : (s.fds i).kind = .socket) (ht : (s.fds i).sock_type = .stream)
    (hl : (s.fds i).sock_listening = true) (hj : (s.fds j).used = false)
    (hfd : fd.hold = .socket ⟨.stream, true, false, (s.fds i).sock_lport⟩) :
    (s.setFd j fd).Owns := by
  have hrow : s.holds i = .socket (s.fds i).key := Fd.hold_socket hu hk (.inl ht)
  have hok := h.ns.keys i _ hrow
  -- a listener is bound
  have hb : (s.fds i).sock_bound = true := by
    cases hb : (s.fds i).sock_bound with
    | true => rfl
    | false => exact absurd ((hok.unbound hb).2.symm.trans hl) (by decide)
  apply h.share (Fd.hold_unused hj)
  · intro k hk'
    obtain rfl := Hold.socket.inj (hfd.symm.trans hk')
    exact .of_bound rfl (hok.bound hb)
  rw [hfd]
  refine ⟨fun t p hp => ⟨i, ?_⟩, fun _ hp => Bool.noConfusion hp.2.1, fun _ => False.elim,
    fun _ => False.elim⟩
  rw [hrow]
  exact ⟨ht.trans hp.1, hb, hp.2.2⟩

theorem bound_of_port (h : s.Owns) (hu : (s.fds i).used = true) (hk : (s.fds i).kind = .socket)
    (ht : (s.fds i).sock_type = .stream ∨ (s.fds i).sock_type = .dgram)
    (hp : (s.fds i).sock_lport ≠ 0) : (s.fds i).sock_bound = true := by
  have hrow : s.holds i = .socket (s.fds i).key := Fd.hold_socket hu hk ht
  cases hb : (s.fds i).sock_bound with
  | true => rfl
  | false => exact absurd ((h.ns.keys i _ hrow).unbound hb).1 hp

theorem stream_local_port (h : s.Owns) (hu : (s.fds i).used = true) (hk : (s.fds i).kind = .socket)
    (ht : (s.fds i).sock_type = .stream) (hs : s.stream_local_port i = some (port, allocated, s'))
    (hfd : fd.hold = ((s.fds i).boundTo port).hold) : (s'.setFd i fd).Owns := by
  obtain ⟨-, hz, hm⟩ | ⟨-, rfl, hne, rfl⟩ := stream_local_port_cases hs
  · exact h.bind_stream hu hk ht (.inr hz) hm hfd
  -- the socket has this port already
  apply h.touch
  rw [hfd, Fd.boundTo_self (h.bound_of_port hu hk (.inl ht) hne)]
end Owns
end KState
end QosKernel
