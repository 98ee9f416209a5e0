import QosKernel.Syscall.CSocketsKeep

/-! # Steps that write no file, no pipe, no path and no packet

The socket calls, apart from the data of local streams, and the closing of
descriptors leave files, pipes, paths and the packet queue alone, except
that files and pipes may be given back. They keep the buffers of the
sockets within their sizes. `QuietMove` says so; there is one lemma for
each function that both kernels have.
-/
open Framework
namespace QosKernel
/-- The buffers of a row have `QOS_NET_MAX_PACKET` bytes. -/
structure Fd.Sized (fd : Fd) : Prop where
  stream : fd.sock_stream.length ≤ QOS_NET_MAX_PACKET
  raw : fd.sock_raw.length ≤ QOS_NET_MAX_PACKET

theorem Fd.sized_fresh (kind : FdKind) : (Fd.fresh kind).Sized := ⟨Nat.zero_le _, Nat.zero_le _⟩
theorem Fd.sized_closed : Fd.closed.Sized := ⟨Nat.zero_le _, Nat.zero_le _⟩

/-- The datagrams fit in their array, and what they carry in its elements. -/
structure Udp.Sized (u : Udp) : Prop where
  count : u.udp_count ≤ QOS_NET_UDP_MAX_DATAGRAMS
  lens : ∀ d ∈ u.queue, d.len.toNat ≤ QOS_NET_MAX_PACKET

namespace Udp
variable {u : Udp}
theorem sized_reset : reset.Sized := ⟨Nat.zero_le _, fun _ hd => absurd hd List.not_mem_nil⟩

theorem mem_queue_store {port : UInt16} {m : Message} {d : Datagram}
    (hd : d ∈ (u.store port m).queue) : d ∈ u.queue ∨ d.len = UInt16.ofNat m.payload.length := by
  rw [queue, store] at hd
  dsimp only at hd
  rw [view_succ, view_set_ge (Nat.le_refl _), set_self, List.mem_append] at hd
  rcases hd with hd | hd
  · exact .inl hd
  rw [List.mem_singleton] at hd
  exact .inr (by rw [hd])

theorem Sized.move {u' : Udp} {e : UdpEffect} (h : u.Sized) (hm : Move u e u') : u'.Sized := by
  cases hm with
  | stay => exact h
  | bind => exact ⟨h.count, h.lens⟩
  | @unbind i p _ =>
    have hdrop := queue_drop { u with ports := set u.ports i none } p
    constructor
    · -- the number of datagrams stays what it was
      have hlen := congrArg List.length hdrop
      have hle := List.length_filter_le (fun d => !addressed p d) u.queue
      rw [queue_length] at hle
      simp only [List.length_append, List.length_replicate, queue_length] at hlen
      change _ = (u.queue.filter fun d => !addressed p d).length +
        (u.udp_count - (u.queue.filter fun d => !addressed p d).length) at hlen
      have hcount := h.count
      omega
    intro d hd
    rw [hdrop, List.mem_append] at hd
    rcases hd with hd | hd
    · exact h.lens d (List.mem_of_mem_filter hd)
    rw [(List.mem_replicate.mp hd).2]
    exact Nat.zero_le _
  | accept _ hroom hlen =>
    refine ⟨hroom, fun d hd => ?_⟩
    rcases mem_queue_store hd with hd | hd
    · exact h.lens d hd
    rw [hd, UInt16.toNat_ofNat']
    exact Nat.le_trans (Nat.mod_le _ _) hlen
  | deliver hs =>
  obtain ⟨pre, post, hsplit, hqueue, -⟩ := queue_remove hs
  refine ⟨Nat.le_trans (Nat.sub_le _ _) h.count, fun d hd => h.lens d ?_⟩
  rw [hqueue, List.mem_append] at hd
  rw [hsplit, List.mem_append]
  exact hd.imp_right (List.mem_cons_of_mem _)
end Udp
/-- The packets stay the same, and no connection is given back. -/
structure Net.Keeps (n n' : Net) : Prop where
  packets : n'.packets = n.packets
  conns : ∀ c, (n.conns c).used = true → (n'.conns c).used = true

namespace Net
variable {c : ConnSlot} {conn : TcpConn} {n n' n'' : Net}
theorem Keeps.refl (n : Net) : n.Keeps n := ⟨rfl, fun _ hc => hc⟩

theorem Keeps.trans (h : n.Keeps n') (h' : n'.Keeps n'') : n.Keeps n'' :=
  ⟨h'.packets.trans h.packets, fun c hc => h'.conns c (h.conns c hc)⟩

theorem keeps_setConn (hconn : (n.conns c).used = true → conn.used = true) :
    n.Keeps { n with conns := set n.conns c conn } := by
  refine ⟨rfl, fun d hd => ?_⟩
  dsimp only
  by_cases hdc : d = c
  · rw [hdc, set_self]
    exact hconn (hdc ▸ hd)
  rw [set_ne hdc]
  exact hd

theorem keeps_unlisten (n : Net) (port : UInt16) : n.Keeps (n.qos_net_tcp_unlisten port).2 := by
  unfold qos_net_tcp_unlisten
  split
  · exact ⟨rfl, fun _ hc => hc⟩
  exact .refl n
end Net
namespace KState
/-- What such a step leaves alone, and the sizes it keeps. -/
structure QuietMove (s s' : KState) : Prop where
  files : ∀ f, s'.files f = s.files f ∨ s'.files f = .empty
  pipes : ∀ p, s'.pipes p = s.pipes p ∨ s'.pipes p = .empty
  vfs : s'.vfs = s.vfs
  keeps : s.net.Keeps s'.net
  rows : (∀ i, (s.fds i).Sized) → ∀ i, (s'.fds i).Sized
  udp : s.net.udp.Sized → s'.net.udp.Sized

namespace QuietMove
variable {fd : Fd} {n : Net} {port : UInt16} {s s' s'' : KState} {i : FdNum}
theorem of_eq (hfiles : s'.files = s.files) (hpipes : s'.pipes = s.pipes) (hvfs : s'.vfs = s.vfs)
    (hkeeps : s.net.Keeps s'.net) (hrows : (∀ i, (s.fds i).Sized) → ∀ i, (s'.fds i).Sized)
    (hudp : s.net.udp.Sized → s'.net.udp.Sized) : QuietMove s s' :=
  ⟨fun f => .inl (congrFun hfiles f), fun p => .inl (congrFun hpipes p), hvfs, hkeeps, hrows, hudp⟩

theorem refl (s : KState) : QuietMove s s := .of_eq rfl rfl rfl (.refl _) id id

theorem trans (h : QuietMove s s') (h' : QuietMove s' s'') : QuietMove s s'' where
  files f := by
    rcases h'.files f with hf | hf
    · rw [hf]
      exact h.files f
    exact .inr hf
  pipes p := by
    rcases h'.pipes p with hp | hp
    · rw [hp]
      exact h.pipes p
    exact .inr hp
  vfs := h'.vfs.trans h.vfs
  keeps := h.keeps.trans h'.keeps
  rows := h'.rows ∘ h.rows
  udp := h'.udp ∘ h.udp

theorem setFd (hfd : (∀ j, (s.fds j).Sized) → fd.Sized) : QuietMove s (s.setFd i fd) := by
  refine .of_eq rfl rfl rfl (.refl _) (fun h j => ?_) id
  by_cases hj : j = i
  · subst hj
    rw [setFd_self]
    exact hfd h
  rw [setFd_ne hj]
  exact h j

theorem setFd_same (hstream : fd.sock_stream = (s.fds i).sock_stream)
    (hraw : fd.sock_raw = (s.fds i).sock_raw) : QuietMove s (s.setFd i fd) :=
  setFd fun h => ⟨hstream ▸ (h i).stream, hraw ▸ (h i).raw⟩

theorem net (hkeeps : s.net.Keeps n) (hudp : s.net.udp.Sized → n.udp.Sized) :
    QuietMove s { s with net := n } :=
  .of_eq rfl rfl rfl hkeeps id hudp

theorem udpMove {u : Udp} {e : UdpEffect} (hm : Move s.net.udp e u) :
    QuietMove s { s with net := { s.net with udp := u } } :=
  net ⟨rfl, fun _ hc => hc⟩ fun h => h.move hm

/-! ### Ports -/
theorem socket_port_mark {t : SockType} (h : s.socket_port_mark t port = some s') :
    QuietMove s s' := by
  cases t with
  | stream =>
    obtain ⟨-, -, rfl⟩ := socket_port_mark_stream h
    exact .of_eq rfl rfl rfl (.refl _) id id
  | dgram =>
    obtain ⟨-, -, rfl⟩ := socket_port_mark_dgram h
    exact .of_eq rfl rfl rfl (.refl _) id id
  | raw | none => cases h

theorem socket_port_unmark (s : KState) (t : SockType) (port : UInt16) :
    QuietMove s (s.socket_port_unmark t port) := by
  unfold KState.socket_port_unmark
  split
  · exact refl s
  cases t <;> exact .of_eq rfl rfl rfl (.refl _) id id

theorem udp_claim (s : KState) (port : UInt16) : QuietMove s (s.udp_claim port).2 := by
  simp only [KState.udp_claim]
  split
  · exact udpMove (CUdp.call_move s.net.udp (.bind port))
  exact socket_port_unmark s .dgram port

theorem stream_local_port {allocated : Bool}
    (h : s.stream_local_port i = some (port, allocated, s')) : QuietMove s s' := by
  obtain ⟨ports, rfl⟩ := stream_local_port_frame h
  exact .of_eq rfl rfl rfl (.refl _) id id

theorem dgram_local_port (s : KState) (i : FdNum) :
    QuietMove s (s.dgram_local_port i).2 := by
  unfold KState.dgram_local_port
  split
  · split
    · exact refl s
    next port s1 hp =>
    have hclaim := (socket_port_mark (socket_port_alloc_some hp)).trans (udp_claim s1 port)
    dsimp only
    split
    · exact hclaim.trans (setFd_same rfl rfl)
    exact hclaim
  exact refl s

/-! ### Data of a socket -/
theorem stream_host_response_prepare {req : List UInt8}
    (h : s.stream_host_response_prepare i req = some s') : QuietMove s s' := by
  unfold KState.stream_host_response_prepare at h
  split at h
  · cases h
    refine setFd fun hs => ⟨?_, (hs i).raw⟩
    dsimp only
    decide +kernel
  cases h

section
variable (s : KState) (i : FdNum)
section
variable (addr : UInt64) (len : Nat)
theorem stream_take : QuietMove s (s.stream_take i addr len).state := by
  simp only [KState.stream_take]
  split
  · exact refl s
  refine setFd fun hs => ⟨?_, (hs i).raw⟩
  have hle := (hs i).stream
  dsimp only
  rw [List.length_drop]
  omega

theorem raw_take
    (src : List (UInt64 × List UInt8)) : QuietMove s (s.raw_take i addr len src).state := by
  simp only [KState.raw_take]
  split
  · exact refl s
  exact setFd fun hs => ⟨(hs i).stream, Nat.zero_le _⟩
end
variable (remote_port : UInt16) (remote_ip : UInt32)
theorem raw_echo
    (data : List UInt8) : QuietMove s (s.raw_echo i remote_port remote_ip data).state := by
  unfold KState.raw_echo
  split
  · exact refl s
  next hdata =>
  split
  · exact refl s
  next reply src_ip hecho =>
  refine setFd fun hs => ⟨(hs i).stream, ?_⟩
  -- the reply is the payload
  have hreply : reply = data := by
    unfold Net.qos_net_icmp_echo at hecho
    split at hecho
    · cases hecho
    split at hecho
    · cases hecho
    cases hecho
    rfl
  simp only [Bool.or_eq_true, decide_eq_true_eq, not_or, Nat.not_lt] at hdata
  rw [hreply]
  exact hdata.2

/-! ### Connections -/
theorem connect_gateway : QuietMove s (s.connect_gateway i remote_port remote_ip).state := by
  unfold KState.connect_gateway
  split
  · exact refl s
  split
  · exact refl s
  next hp => exact (stream_local_port hp).trans (setFd_same rfl rfl)
end
theorem connect_listener (s : KState) (i l : FdNum) (remote_port : UInt16)
    (remote_ip : UInt32) : QuietMove s (s.connect_listener i l remote_port remote_ip).state := by
  simp only [KState.connect_listener]
  split
  · exact refl s
  split
  · exact refl s
  next port allocated s1 hs =>
  have hlocal := stream_local_port hs
  split
  · rw [Outcome.fail_state, stream_local_port_undo hs]
    exact refl s
  next c n hc =>
  obtain ⟨-, -, rfl⟩ := Net.qos_net_tcp_connect_some hc
  rw [Net.qos_net_tcp_step_synAck, if_neg fun hrc => hrc rfl]
  have hconn (conn : TcpConn) (hused : conn.used = true) :
      QuietMove s1 { s1 with net := { s1.net with conns := set s1.net.conns c conn } } :=
    net (Net.keeps_setConn fun _ => hused) id
  have hnet := hlocal.trans (hconn ⟨true, .established, port, remote_port, remote_ip, 500, 0⟩ rfl)
  have hundo (t : KState) :
      QuietMove t (if allocated then t.socket_port_unmark .stream port else t) := by
    split
    · exact socket_port_unmark t .stream port
    exact refl t
  -- the row is written, and with it the connection is one of the socket
  split
  · refine (hnet.trans ?_).trans (hundo _)
    exact setFd_same rfl rfl
  refine (hnet.trans ?_).trans (setFd_same rfl rfl)
  exact setFd_same rfl rfl

theorem listen {l : ListenerSlot} (h : s.net.qos_net_tcp_listen port = some (l, n)) :
    QuietMove s { s with net := n } := by
  obtain ⟨-, -, rfl⟩ := Net.qos_net_tcp_listen_some h
  exact net ⟨rfl, fun _ hc => hc⟩ id

/-! ### Descriptors -/
theorem fd_alloc {kind : FdKind} (h : s.fd_alloc kind = some (i, s')) : QuietMove s s' := by
  obtain ⟨-, rfl⟩ := fd_alloc_some h
  exact setFd fun _ => Fd.sized_fresh kind

variable (s : KState)
theorem dropPipe (p : PipeSlot) :
    QuietMove s { s with pipes := set s.pipes p .empty } where
  files _ := .inl rfl
  pipes q := by
    dsimp only
    rw [set_apply]
    split
    · exact .inr rfl
    exact .inl rfl
  vfs := rfl
  keeps := .refl _
  rows := id
  udp := id

theorem releasePipe (pipe_id : UInt16) : QuietMove s (s.releasePipe pipe_id) := by
  unfold KState.releasePipe
  split
  · split
    · exact refl s
    exact dropPipe s _
  exact refl s

theorem file_drop (f : FileSlot) : QuietMove s (s.file_drop f) where
  files g := by
    dsimp only [KState.file_drop]
    rw [set_apply]
    split
    · exact .inr rfl
    exact .inl rfl
  pipes _ := .inl rfl
  vfs := rfl
  keeps := .refl _
  rows := id
  udp := id

theorem releaseFile (file_id : UInt16) : QuietMove s (s.releaseFile file_id) := by
  unfold KState.releaseFile
  split
  · split
    · exact file_drop s _
    exact refl s
  exact refl s
end QuietMove
end KState
end QosKernel
