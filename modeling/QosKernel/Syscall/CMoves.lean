import QosKernel.Syscall.CEndpointCalls
import QosKernel.Syscall.Packets

/-! # What the C system calls do to the network

Every operation of the C kernel leaves the packet queue and the slots of
the connections alone, except those that send or receive data on a local
stream.
-/
open Framework
namespace QosKernel.KState
variable {t : KState}
/-- The network of `t` has the packets of the one of `s`, and its connections. -/
def NetStep (s t : KState) : Prop := s.net.Keeps t.net

namespace QuietMove
/-! ### Closing a descriptor -/
variable (s : KState)
theorem releaseListener (fd : Fd) : QuietMove s (s.releaseListener fd) := by
  unfold KState.releaseListener
  split
  · refine .net (s.net.keeps_unlisten _) ?_
    unfold Net.qos_net_tcp_unlisten
    split <;> exact id
  exact .refl s

theorem releasePort (fd : Fd) : QuietMove s (s.releasePort fd) := by
  unfold KState.releasePort
  split
  · refine .trans ?_ (.socket_port_unmark _ _ _)
    split
    · exact .udpMove (CUdp.call_move s.net.udp (.unbind fd.sock_lport))
    exact .refl s
  exact .refl s

theorem fd_clear (i : FdNum) : QuietMove s (s.fd_clear i) := by
  have hclosed : QuietMove s (s.setFd i .closed) := .setFd fun _ => Fd.sized_closed
  exact (((hclosed.trans (.releasePipe _ _)).trans (.releaseFile _ _)).trans
    (releaseListener _ _)).trans (releasePort _ _)
end QuietMove
variable {s : KState} {i : FdNum}
theorem QuietMove.netStep (h : QuietMove s t) : s.NetStep t := h.keeps

theorem netStep_of_net (h : t.net = s.net) : s.NetStep t := by
  rw [NetStep, h]
  exact .refl _

section
variable (s : KState)
theorem NetStep.refl : s.NetStep s := Net.Keeps.refl s.net

/-! ### Data of sockets -/
theorem udp_take_quiet (i : FdNum) (addr : UInt64) (len : Nat)
    (src : UInt64) : s.QuietMove (s.udp_take i addr len src).state := by
  have hmove := CUdp.call_move s.net.udp (.recv (s.fds i).sock_lport (some len))
  simp only [CUdp.call] at hmove
  unfold udp_take
  split
  · exact .refl s
  rcases hr : CUdp.qos_net_udp_recv s.net.udp (s.fds i).sock_lport (some len) with ⟨rc, _ | m, u⟩
  · exact .refl s
  rw [hr] at hmove
  exact .udpMove hmove

theorem udp_put_quiet (local_port remote_port : UInt16) (data : List UInt8) :
    s.QuietMove (s.udp_put local_port remote_port data).state :=
  .udpMove (CUdp.call_move s.net.udp (.send local_port QOS_NET_IPV4_LOCAL remote_port (some data)))
end
theorem read_socket_takes (hk : (s.fds i).kind = .socket) (addr : UInt64) (len : Nat) :
    Takes s.NetStep s (s.fds i).onPackets addr len (s.read_socket i addr len) := by
  simp only [read_socket]
  split
  · exact .fail (.refl s)
  split
  next hg => exact .off (Fd.onPackets_gateway hg) (QuietMove.stream_take s i addr len).netStep
  next hg =>
  split
  next ht => exact .off (Fd.onPackets_raw ht) (QuietMove.raw_take s i addr len []).netStep
  next ht => exact .off (Fd.onPackets_dgram ht) (s.udp_take_quiet i addr len 0).netStep
  next ht => exact packet_take_takes (.refl s) (Fd.onPackets_local hk (.inl ht) hg) len
  next ht => exact packet_take_takes (.refl s) (Fd.onPackets_local hk (.inr ht) hg) len

theorem write_socket_puts (hk : (s.fds i).kind = .socket) (data : List UInt8) :
    Puts s.NetStep s (s.fds i).onPackets data (s.write_socket i data) := by
  simp only [write_socket]
  split
  · exact .fail (.refl s)
  split
  next hg =>
    split
    · exact .fail (.refl s)
    next hs =>
    exact .off (Fd.onPackets_gateway hg) (QuietMove.stream_host_response_prepare hs).netStep
  next hg =>
  split
  next ht => exact .off (Fd.onPackets_raw ht) (QuietMove.raw_echo s i _ _ data).netStep
  next ht =>
    split
    · exact .fail (.refl s)
    exact .off (Fd.onPackets_dgram ht) (s.udp_put_quiet _ _ data).netStep
  next ht => exact packet_put_puts (.refl s) (Fd.onPackets_local hk (.inl ht) hg)
  next ht => exact packet_put_puts (.refl s) (Fd.onPackets_local hk (.inr ht) hg)

theorem send_dgram_quiet (s : KState) (i : FdNum) (remote_port : UInt16)
    (remote_ip : UInt32) (data : List UInt8) :
    s.QuietMove (s.send_dgram i remote_port remote_ip data).state := by
  have hlocal := QuietMove.dgram_local_port s i
  simp only [send_dgram]
  split
  · exact hlocal
  split
  · exact hlocal
  refine (hlocal.trans ?_).trans (udp_put_quiet _ _ _ data)
  exact .setFd_same rfl rfl

theorem syscall_op_send_puts (env : Env) (s : KState) (a0 a1 a2 a3 : UInt64) :
    Puts s.NetStep s (s.row a0).onPackets (env.bytes a1 a2.toUInt32.toNat)
      (s.syscall_op_send env a0 a1 a2 a3) := by
  unfold syscall_op_send
  split
  · exact .fail (.refl s)
  next i hi =>
  obtain ⟨hrow, hk⟩ := row_of_openSocket hi
  rw [hrow]
  dsimp only
  split
  · exact .fail (.refl s)
  split
  next ht =>
    split
    · exact .fail (.refl s)
    exact .off (Fd.onPackets_raw ht) (QuietMove.raw_echo s i _ _ _).netStep
  next ht =>
    split
    · exact .fail (.refl s)
    exact .off (Fd.onPackets_dgram ht) (s.send_dgram_quiet i _ _ _).netStep
  -- a stream that is connected, or a socket without a type
  all_goals
    next ht =>
    split
    · exact .fail (.refl s)
    split
    next hg =>
      split
      · exact .fail (.refl s)
      next hs =>
      exact .off (Fd.onPackets_gateway hg) (QuietMove.stream_host_response_prepare hs).netStep
    next hg => exact packet_put_puts (.refl s) (Fd.onPackets_local hk (by simp [ht]) hg)

theorem syscall_op_recv_takes (s : KState) (a0 a1 a2 a3 : UInt64) :
    Takes s.NetStep s (s.row a0).onPackets a1 a2.toUInt32.toNat
      (s.syscall_op_recv a0 a1 a2 a3) := by
  unfold syscall_op_recv
  split
  · exact .fail (.refl s)
  next i hi =>
  obtain ⟨hrow, hk⟩ := row_of_openSocket hi
  rw [hrow]
  dsimp only
  split
  · exact .fail (.refl s)
  have hstream : ∀ (ht : (s.fds i).sock_type = .stream ∨ (s.fds i).sock_type = .none),
      Takes s.NetStep s (s.fds i).onPackets a1 a2.toUInt32.toNat
        (if (s.fds i).sock_type == .stream && !(s.fds i).sock_connected then .fail s
        else if toGateway (s.fds i) then s.stream_take i a1 a2.toUInt32.toNat
        else s.packet_take a1 a2.toUInt32.toNat) := by
    intro ht
    split
    · exact .fail (.refl s)
    split
    next hg => exact .off (Fd.onPackets_gateway hg) (QuietMove.stream_take s i a1 _).netStep
    next hg => exact packet_take_takes (.refl s) (Fd.onPackets_local hk ht hg) _
  split
  next ht => exact .off (Fd.onPackets_raw ht) (QuietMove.raw_take s i a1 _ _).netStep
  next ht => exact .off (Fd.onPackets_dgram ht) (s.udp_take_quiet i a1 _ a3).netStep
  next ht => exact hstream (.inl ht)
  next ht => exact hstream (.inr ht)

/-! ### Reading and writing -/
theorem read_proc_net (env : Env) (s : KState) (i : FdNum) (addr : UInt64) (len : Nat) :
    (s.read_proc env i addr len).state.net = s.net := by
  simp only [read_proc]
  split
  · rfl
  split
  all_goals rfl

section
variable (s : KState) (i : FdNum) (addr : UInt64) (len : Nat)
theorem read_file_net : (s.read_file i addr len).state.net = s.net := by
  simp only [read_file]
  split
  · rfl
  split
  · rfl
  split
  all_goals rfl

theorem read_pipe_net : (s.read_pipe i addr len).state.net = s.net := by
  simp only [read_pipe]
  split
  · rfl
  split
  · rfl
  split
  all_goals rfl
end
theorem write_file_net (env : Env) (s : KState) (i : FdNum) (addr : UInt64) (len : Nat) :
    (s.write_file env i addr len).state.net = s.net := by
  simp only [write_file]
  split
  · rfl
  split
  · rfl
  split
  all_goals rfl

theorem write_pipe_net (s : KState) (i : FdNum) (data : List UInt8) :
    (s.write_pipe i data).state.net = s.net := by
  simp only [write_pipe]
  split
  · rfl
  split
  all_goals rfl

section
variable (env : Env) (s : KState) (a0 a1 a2 : UInt64)
theorem syscall_op_read_takes :
    Takes s.NetStep s (s.row a0).onPackets a1 a2.toUInt32.toNat
      (s.syscall_op_read env a0 a1 a2) := by
  unfold syscall_op_read
  split
  · exact .fail (.refl s)
  next i hi =>
  rw [row_of_openFd hi]
  dsimp only
  split
  · exact .fail (.refl s)
  split
  next hk => exact .off (Fd.onPackets_kind (by simp [hk])) (netStep_of_net (s.read_proc_net ..))
  next hk => exact .off (Fd.onPackets_kind (by simp [hk])) (netStep_of_net (s.read_file_net ..))
  next hk => exact .off (Fd.onPackets_kind (by simp [hk])) (netStep_of_net (s.read_pipe_net ..))
  next hk => exact read_socket_takes hk a1 _
  all_goals exact .fail (.refl s)

theorem syscall_op_write_puts :
    Puts s.NetStep s (s.row a0).onPackets (env.bytes a1 a2.toUInt32.toNat)
      (s.syscall_op_write env a0 a1 a2) := by
  unfold syscall_op_write
  split
  · exact .fail (.refl s)
  next i hi =>
  rw [row_of_openFd hi]
  dsimp only
  split
  · exact .fail (.refl s)
  split
  next hk => exact .off (Fd.onPackets_kind (by simp [hk])) (netStep_of_net (s.write_file_net ..))
  next hk => exact .off (Fd.onPackets_kind (by simp [hk])) (netStep_of_net (s.write_pipe_net ..))
  next hk => exact write_socket_puts hk _
  all_goals exact .fail (.refl s)
end
/-! ### Sockets -/
theorem syscall_op_socket_quiet (s : KState) (a0 a1 : UInt64) :
    s.QuietMove (s.syscall_op_socket a0 a1).state := by
  unfold syscall_op_socket
  split
  · exact .refl s
  split
  · exact .refl s
  split
  · exact .refl s
  next ha => exact (QuietMove.fd_alloc ha).trans (.setFd_same rfl rfl)

theorem syscall_op_bind_quiet (env : Env) (s : KState) (a0 a1 a2 : UInt64) :
    s.QuietMove (s.syscall_op_bind env a0 a1 a2).state := by
  unfold syscall_op_bind
  cases s.openSocket a0.toUInt32 with
  | none => exact .refl s
  | some i =>
  dsimp only
  split
  · exact .refl s
  cases parse_sockaddr env a1 a2.toUInt32 true with
  | none => exact .refl s
  | some addr =>
  obtain ⟨port, ip⟩ := addr
  dsimp only
  split
  · exact .setFd_same rfl rfl
  cases hmark : s.socket_port_mark (s.fds i).sock_type port with
  | none => exact .refl s
  | some s1 =>
  have hclaim : s.QuietMove
      (if (s.fds i).sock_type == .dgram then s1.udp_claim port else (true, s1)).2 := by
    refine (QuietMove.socket_port_mark hmark).trans ?_
    split
    · exact .udp_claim s1 port
    exact .refl s1
  dsimp only
  generalize (if (s.fds i).sock_type == .dgram then s1.udp_claim port else (true, s1)) = r
    at hclaim
  split
  · exact hclaim.trans (.setFd_same rfl rfl)
  exact hclaim

theorem syscall_op_listen_quiet (s : KState) (a0 a1 : UInt64) :
    s.QuietMove (s.syscall_op_listen a0 a1).state := by
  simp only [syscall_op_listen]
  split
  · exact .refl s
  split
  · exact .refl s
  split
  · exact .refl s
  split
  · exact .refl s
  next hl => exact (QuietMove.listen hl).trans (.setFd_same rfl rfl)

section
variable (env : Env) (s : KState) (a0 a1 a2 : UInt64)
theorem syscall_op_accept_quiet : s.QuietMove (s.syscall_op_accept env a0 a1 a2).state := by
  simp only [syscall_op_accept]
  split
  · exact .refl s
  split
  · exact .refl s
  split
  · exact .refl s
  next j s1 ha =>
  have halloc := QuietMove.fd_alloc ha
  split
  · exact halloc.trans (.fd_clear s1 j)
  refine (halloc.trans (.setFd_same ?_ ?_)).trans (.setFd_same rfl rfl)
  all_goals rfl

theorem syscall_op_connect_quiet : s.QuietMove (s.syscall_op_connect env a0 a1 a2).state := by
  simp only [syscall_op_connect, connect_socket]
  split
  · exact .refl s
  next i _ =>
  split
  · exact .refl s
  split
  · split
    · exact .connect_gateway s i _ _
    exact .connect_listener s i _ _ _
  · have hlocal := QuietMove.dgram_local_port s i
    split
    · exact hlocal.trans (.setFd_same rfl rfl)
    exact hlocal
  · exact .setFd_same rfl rfl
  exact .refl s
end
/-! ### Files and descriptors -/
theorem file_ensure_net {path : CStr} {f : FileSlot} {s' : KState}
    (h : s.file_ensure path = some (f, s')) : s'.net = s.net := by
  unfold file_ensure at h
  split at h
  · cases h
    rfl
  obtain ⟨g, -, heq⟩ := Option.map_eq_some_iff.mp h
  cases heq
  rfl

theorem syscall_op_open_net (env : Env) (s : KState) (a0 : UInt64) :
    s.NetStep (s.syscall_op_open env a0).state := by
  simp only [syscall_op_open]
  split
  · exact .refl s
  split
  · split
    · exact .refl s
    next i s1 ha =>
    have halloc := QuietMove.fd_alloc ha
    split
    · exact (halloc.trans (.fd_clear s1 i)).netStep
    next hf =>
    have hnet := halloc.keeps
    rw [← file_ensure_net hf] at hnet
    exact hnet
  split
  · exact .refl s
  split
  · exact .refl s
  split
  · exact .refl s
  next ha => exact (QuietMove.fd_alloc ha).keeps

section
variable (s : KState)
theorem syscall_op_close_quiet (a0 : UInt64) :
    s.QuietMove (s.syscall_op_close a0).state := by
  unfold syscall_op_close
  split
  · exact .refl s
  exact .fd_clear s _

theorem syscall_op_dup2_net (a0 a1 : UInt64) :
    s.NetStep (s.syscall_op_dup2 a0 a1).state := by
  simp only [syscall_op_dup2]
  split
  · exact .refl s
  split
  · split
    · exact .refl s
    split
    · exact (QuietMove.fd_clear s _).netStep
    exact .refl s
  exact .refl s

theorem syscall_op_pipe_net (a0 : UInt64) :
    s.NetStep (s.syscall_op_pipe a0).state := by
  simp only [syscall_op_pipe]
  split
  · exact .refl s
  split
  · exact .refl s
  next p s1 hp =>
  obtain ⟨q, -, heq⟩ := Option.map_eq_some_iff.mp hp
  cases heq
  split
  · exact .refl s
  next r s2 hr =>
  have hreader := QuietMove.fd_alloc hr
  split
  · exact (hreader.trans (.fd_clear s2 r)).keeps
  next hw => exact (hreader.trans (.fd_alloc hw)).keeps
end
variable (env : Env) (s : KState)
theorem syscall_op_lseek_net (a0 a1 a2 : UInt64) :
    (s.syscall_op_lseek env a0 a1 a2).state.net = s.net := by
  simp only [syscall_op_lseek]
  split
  · rfl
  split
  · rfl
  split
  · rfl
  split
  · rfl
  split
  all_goals rfl

theorem syscall_op_mkdir_net (a0 : UInt64) : (s.syscall_op_mkdir env a0).state.net = s.net := by
  simp only [syscall_op_mkdir]
  split
  · rfl
  split
  all_goals rfl

theorem syscall_op_unlink_net (a0 : UInt64) : (s.syscall_op_unlink env a0).state.net = s.net := by
  simp only [syscall_op_unlink]
  split
  · rfl
  split
  · rfl
  split
  · rfl
  simp only [Outcome.ret_state, file_unlink_path]
  split
  · rfl
  split
  all_goals rfl

/-! ### Dispatch -/
theorem syscall_op_moves (op : SyscallOp) (value : Int) (a0 a1 a2 a3 : UInt64) :
    Moves s.NetStep s op (env.bytes a1 a2.toUInt32.toNat) a0 a1
      (s.syscall_op env op value a0 a1 a2 a3) := by
  have hlen : (env.bytes a1 a2.toUInt32.toNat).length = a2.toUInt32.toNat := by
    rw [Env.bytes, List.length_map, List.length_range]
  cases op with
  | read =>
    unfold Moves
    rw [hlen]
    exact s.syscall_op_read_takes env a0 a1 a2
  | recv =>
    unfold Moves
    rw [hlen]
    exact s.syscall_op_recv_takes a0 a1 a2 a3
  | write => exact s.syscall_op_write_puts env a0 a1 a2
  | send => exact s.syscall_op_send_puts env a0 a1 a2 a3
  | «open» => exact s.syscall_op_open_net env a0
  | close => exact (s.syscall_op_close_quiet a0).netStep
  | dup2 => exact s.syscall_op_dup2_net a0 a1
  | socket => exact (s.syscall_op_socket_quiet a0 a1).netStep
  | bind => exact (s.syscall_op_bind_quiet env a0 a1 a2).netStep
  | listen => exact (s.syscall_op_listen_quiet a0 a1).netStep
  | accept => exact (s.syscall_op_accept_quiet env a0 a1 a2).netStep
  | connect => exact (s.syscall_op_connect_quiet env a0 a1 a2).netStep
  | getdents => exact netStep_of_net (congrArg KState.net (s.getdents_state a0 a1 a2))
  | lseek => exact netStep_of_net (s.syscall_op_lseek_net env a0 a1 a2)
  | pipe => exact s.syscall_op_pipe_net a0
  | stat => exact netStep_of_net (congrArg KState.net (s.stat_state env a0 a1))
  | mkdir => exact netStep_of_net (s.syscall_op_mkdir_net env a0)
  | unlink => exact netStep_of_net (s.syscall_op_unlink_net env a0)
  | _ => exact NetStep.refl s
end QosKernel.KState
