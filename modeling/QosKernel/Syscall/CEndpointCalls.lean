import QosKernel.Syscall.CEndpoints

/-! # Every C system call is an event

The other calls on descriptors: reading and writing, the socket calls,
and then all calls.
-/
open Framework
namespace QosKernel
namespace KState
variable {o : Outcome} {port : UInt16} {allocated : Bool}
variable {s s' t : KState} {i j : FdNum} {env : Env} {op : SyscallOp} {a0 a1 : UInt64}
/-! ### Reading and writing -/
theorem acts_readElse (h : s.Owns) (hi : s.openFd a0.toUInt32 = some i)
    (hrow : (s.fds i).endpoint.pipe? = none) (hs : s.Unseen o.state) :
    s.Acts .read env a0 a1 o := by
  refine ⟨hs.owns h, ?_⟩
  unfold Effects SyscallOp.event
  rw [hs.endpoints]
  split
  · exact .same
  show s.endpoints.Effect (.got (fdIndex a0.toUInt32.toNat) o.bytes) s.endpoints
  rw [fdIndex_of_openFd hi]
  exact .readElse hrow

theorem acts_writtenElse (h : s.Owns) (hi : s.openFd a0.toUInt32 = some i)
    (hrow : (s.fds i).endpoint.pipe? = none) (hs : s.Unseen o.state) :
    s.Acts .write env a0 a1 o := by
  refine ⟨hs.owns h, ?_⟩
  unfold Effects SyscallOp.event
  rw [hs.endpoints]
  split
  · exact .same
  show s.endpoints.Effect (.wrote (fdIndex a0.toUInt32.toNat) (env.bytes a1 o.rc.toNat)) s.endpoints
  rw [fdIndex_of_openFd hi]
  exact .writtenElse hrow

section
variable (s : KState)
theorem read_proc_unseen (env : Env) (i : FdNum) (addr : UInt64)
    (len : Nat) : s.Unseen (s.read_proc env i addr len).state := by
  simp only [read_proc]
  split
  · exact .refl s
  split
  · exact .refl s
  exact .row rfl rfl

theorem read_file_unseen (i : FdNum) (addr : UInt64) (len : Nat) :
    s.Unseen (s.read_file i addr len).state := by
  simp only [read_file]
  split
  · exact .refl s
  split
  · exact .refl s
  split
  · exact .refl s
  exact .row rfl rfl

theorem write_file_unseen (env : Env) (i : FdNum) (addr : UInt64)
    (len : Nat) : s.Unseen (s.write_file env i addr len).state := by
  simp only [write_file]
  split
  · exact .refl s
  next f _ =>
  split
  · exact .refl s
  next hoff =>
  split
  · exact .refl s
  refine ⟨fun h => Owns.touch ⟨h.ns, h.store.write_file rfl rfl ?_⟩ rfl, endpoints_touch rfl⟩
  have hlen := h.store.file_len f
  show max _ _ ≤ _
  omega
end
theorem acts_read_pipe (h : s.Owns) (hi : s.openFd a0.toUInt32 = some i)
    (hk : (s.fds i).kind = .pipeR) (len : Nat) : s.Acts .read env a0 a1 (s.read_pipe i a1 len) := by
  have hrow : s.endpoints.rows i = .reader (s.fds i).pipe_id.toNat :=
    Fd.endpoint_reader (openFd_some hi) hk
  simp only [read_pipe]
  split
  · exact acts_fail h
  next p hp =>
  obtain ⟨hbuf, hset⟩ := buffered_of_open hp
  have hread (n : Nat) : s.endpoints.Effect (.got (fdIndex a0.toUInt32.toNat)
      ((s.pipes p).buf.take n)) { s.endpoints with
        pipes := set s.endpoints.pipes (s.fds i).pipe_id.toNat
          (some ((s.pipes p).buf.drop n)) } := by
    rw [fdIndex_of_openFd hi]
    exact .read n hrow hbuf
  split
  · exact acts_fail h
  split
  next hzero =>
    -- a read of 0 bytes
    have hread := hread 0
    rw [List.drop_zero, ← hbuf, set_eq_self] at hread
    exact ⟨h, effects_of_done rfl hread⟩
  next hcopy =>
  refine ⟨⟨h.ns, h.store.write_pipe ?_⟩, effects_of_done rfl ?_⟩
  · have hlen := h.store.pipe_len p
    rw [List.length_drop]
    omega
  show s.endpoints.Effect (.got _ (Outcome.bytes ⟨_, _, _⟩)) _
  rw [hset]
  simp only [Outcome.bytes, List.flatMap_cons, List.flatMap_nil, List.append_nil]
  exact hread _

theorem acts_write_pipe (h : s.Owns) (hi : s.openFd a0.toUInt32 = some i)
    (hk : (s.fds i).kind = .pipeW) (len : Nat) :
    s.Acts .write env a0 a1 (s.write_pipe i (env.bytes a1 len)) := by
  have hrow : s.endpoints.rows i = .writer (s.fds i).pipe_id.toNat :=
    Fd.endpoint_writer (openFd_some hi) hk
  simp only [write_pipe]
  split
  · exact acts_fail h
  next p hp =>
  obtain ⟨hbuf, hset⟩ := buffered_of_open hp
  split
  · exact acts_fail h
  next hroom =>
  have hcap : ((s.pipes p).buf ++ env.bytes a1 len).length ≤ QOS_PIPE_CAP := by
    have hlen := h.store.pipe_len p
    rw [List.length_append]
    omega
  have hlen : (env.bytes a1 len).length = len := by simp [Env.bytes]
  refine ⟨⟨h.ns, h.store.write_pipe hcap⟩, effects_of_done rfl ?_⟩
  show s.endpoints.Effect (.wrote (fdIndex a0.toUInt32.toNat)
    (env.bytes a1 (env.bytes a1 len).length)) _
  rw [Outcome.ret_state, hset, fdIndex_of_openFd hi, hlen]
  exact .written hrow hbuf hcap

/-! ### Data of a socket

Sending and receiving leaves the endpoints alone. -/
theorem stream_host_response_prepare_unseen {req : List UInt8}
    (h : s.stream_host_response_prepare i req = some s') : s.Unseen s' := by
  unfold stream_host_response_prepare at h
  split at h
  · cases h
    exact .row rfl rfl
  cases h

section
variable (s : KState) (i : FdNum) (addr : UInt64) (len : Nat)
theorem stream_take_unseen : s.Unseen (s.stream_take i addr len).state := by
  simp only [stream_take]
  split
  · exact .refl s
  exact .row rfl rfl

theorem raw_take_unseen
    (src : List (UInt64 × List UInt8)) : s.Unseen (s.raw_take i addr len src).state := by
  simp only [raw_take]
  split
  · exact .refl s
  exact .row rfl rfl
end
theorem raw_echo_unseen (hu : (s.fds i).used = true) (hk : (s.fds i).kind = .socket)
    (ht : (s.fds i).sock_type = .raw) (remote_port : UInt16) (remote_ip : UInt32)
    (data : List UInt8) : s.Unseen (s.raw_echo i remote_port remote_ip data).state := by
  unfold raw_echo
  split
  · exact .refl s
  split
  · exact .refl s
  exact .socket rfl hu hk (by simp [ht]) rfl rfl rfl

section
variable (s : KState)
theorem udp_take_unseen (i : FdNum) (addr : UInt64) (len : Nat)
    (src : UInt64) : s.Unseen (s.udp_take i addr len src).state := by
  unfold udp_take
  split
  · exact .refl s
  rcases CUdp.qos_net_udp_recv_cases s.net.udp (s.fds i).sock_lport (some len) with
    heq | ⟨j, -, heq⟩
  · rw [heq]
    exact .refl s
  rw [heq]
  exact .net rfl rfl rfl

theorem udp_put_unseen (local_port remote_port : UInt16) (data : List UInt8) :
    s.Unseen (s.udp_put local_port remote_port data).state := by
  unfold udp_put
  refine .net ?_ rfl rfl
  rcases CUdp.qos_net_udp_send_cases s.net.udp local_port QOS_NET_IPV4_LOCAL remote_port data
    with ⟨-, heq⟩ | ⟨-, -, heq⟩ | ⟨-, -, -, heq⟩ | ⟨-, -, -, heq⟩
  · rw [heq]
  · rw [heq]
  · rw [heq]
  rw [heq]
  rfl

theorem packet_take_unseen (addr : UInt64) (len : Nat) :
    s.Unseen (s.packet_take addr len).state := by
  show s.Unseen { s with net := (s.net.qos_net_dequeue_packet len).2.2 }
  unfold Net.qos_net_dequeue_packet
  split
  · exact .refl s
  split
  · exact .refl s
  split
  · exact .refl s
  exact .net rfl rfl rfl

theorem packet_put_unseen (data : List UInt8) : s.Unseen (s.packet_put data).state := by
  show s.Unseen { s with net := (s.net.qos_net_enqueue_packet data).2 }
  unfold Net.qos_net_enqueue_packet
  split
  · exact .refl s
  split
  · exact .refl s
  exact .net rfl rfl rfl

theorem read_socket_unseen (i : FdNum) (addr : UInt64) (len : Nat) :
    s.Unseen (s.read_socket i addr len).state := by
  simp only [read_socket]
  split
  · exact .refl s
  split
  · exact s.stream_take_unseen i addr len
  split
  · exact s.raw_take_unseen i addr len []
  · exact s.udp_take_unseen i addr len 0
  all_goals exact s.packet_take_unseen addr len
end
theorem write_socket_unseen (hu : (s.fds i).used = true) (hk : (s.fds i).kind = .socket)
    (data : List UInt8) : s.Unseen (s.write_socket i data).state := by
  simp only [write_socket]
  split
  · exact .refl s
  split
  · split
    · exact .refl s
    next hs => exact stream_host_response_prepare_unseen hs
  split
  next ht => exact raw_echo_unseen hu hk ht _ _ data
  · split
    · exact .refl s
    exact s.udp_put_unseen _ _ data
  all_goals exact s.packet_put_unseen data

theorem acts_read (h : s.Owns) (env : Env) (a0 a1 a2 : UInt64) :
    s.Acts .read env a0 a1 (s.syscall_op_read env a0 a1 a2) := by
  simp only [syscall_op_read]
  split
  · exact acts_fail h
  next i hi =>
  have helse (hr : (s.fds i).kind ≠ .pipeR) (hw : (s.fds i).kind ≠ .pipeW) {o : Outcome}
      (hs : s.Unseen o.state) : s.Acts .read env a0 a1 o :=
    acts_readElse h hi (Fd.endpoint_pipe_none hr hw) hs
  split
  · exact acts_fail h
  split
  next hk => exact helse (by simp [hk]) (by simp [hk]) (s.read_proc_unseen env i a1 _)
  next hk => exact helse (by simp [hk]) (by simp [hk]) (s.read_file_unseen i a1 _)
  next hk => exact acts_read_pipe h hi hk _
  next hk => exact helse (by simp [hk]) (by simp [hk]) (s.read_socket_unseen i a1 _)
  all_goals exact acts_fail h

theorem acts_write (h : s.Owns) (env : Env) (a0 a1 a2 : UInt64) :
    s.Acts .write env a0 a1 (s.syscall_op_write env a0 a1 a2) := by
  simp only [syscall_op_write]
  split
  · exact acts_fail h
  next i hi =>
  have helse (hr : (s.fds i).kind ≠ .pipeR) (hw : (s.fds i).kind ≠ .pipeW) {o : Outcome}
      (hs : s.Unseen o.state) : s.Acts .write env a0 a1 o :=
    acts_writtenElse h hi (Fd.endpoint_pipe_none hr hw) hs
  split
  · exact acts_fail h
  split
  next hk => exact helse (by simp [hk]) (by simp [hk]) (s.write_file_unseen env i a1 _)
  next hk => exact acts_write_pipe h hi hk _
  next hk => exact helse (by simp [hk]) (by simp [hk]) (write_socket_unseen (openFd_some hi) hk _)
  all_goals exact acts_fail h

/-! ### Socket operations -/
theorem effects_of_quiet (hop : op.done env a0 a1 o = .quiet)
    (h : s.endpoints.Effect .quiet o.state.endpoints) : s.Effects op env a0 a1 o := by
  unfold Effects SyscallOp.event
  rw [hop, ite_self]
  exact h

theorem Unseen.acts (hs : s.Unseen o.state) (h : s.Owns) (hop : op.done env a0 a1 o = .quiet) :
    s.Acts op env a0 a1 o := by
  refine ⟨hs.owns h, effects_of_quiet hop ?_⟩
  rw [hs.endpoints]
  exact .same

theorem endpoints_stream (hu : (s.fds i).used = true) (hk : (s.fds i).kind = .socket)
    (ht : (s.fds i).sock_type = .stream) : s.endpoints.rows i = .stream (s.fds i).sock :=
  Fd.endpoint_stream hu hk ht

theorem Owns.lport_of_not_bound (h : s.Owns) (hu : (s.fds i).used = true)
    (hk : (s.fds i).kind = .socket) (ht : (s.fds i).sock_type = .stream)
    (hb : (s.fds i).sock_bound = false) : (s.fds i).sock_lport = 0 :=
  ((h.ns.keys i _ (Fd.hold_socket hu hk (.inl ht))).unbound hb).1

theorem unseen_bind_dgram (hu : (s.fds i).used = true) (hk : (s.fds i).kind = .socket)
    (ht : (s.fds i).sock_type = .dgram)
    (hfree : (s.fds i).sock_bound = false ∨ (s.fds i).sock_lport = 0)
    (hs : s.socket_port_mark .dgram port = some s') {u : PortSlot}
    (hudp : s.net.udp.ports u = none) (hnot : ∀ j, s.net.udp.ports j ≠ some port) :
    s.Unseen ({ s' with net := { s.net with
      udp := { s.net.udp with ports := set s.net.udp.ports u (some port) } } }.setFd i
        ((s'.fds i).boundTo port)) := by
  obtain ⟨-, -, rfl⟩ := socket_port_mark_dgram hs
  have hne : (s.fds i).sock_type ≠ .stream := by simp [ht]
  refine ⟨fun h => h.bind_dgram hu hk ht hfree hs hudp hnot rfl, endpoints_touch ?_⟩
  show ((s.fds i).boundTo port).endpoint = (s.fds i).endpoint
  rw [Fd.endpoint_socket hu hk hne]
  exact Fd.endpoint_socket hu hk hne

theorem acts_bind (h : s.Owns) (env : Env) (a0 a1 a2 : UInt64) :
    s.Acts .bind env a0 a1 (s.syscall_op_bind env a0 a1 a2) := by
  unfold syscall_op_bind
  split
  · exact acts_fail h
  next i hi =>
  obtain ⟨hu, hk⟩ := openSocket_some hi
  split
  · exact acts_fail h
  next hb =>
  have hb := Bool.eq_false_iff.mpr hb
  split
  · exact acts_fail h
  next port ip hport =>
  split
  next hraw =>
    -- a raw socket holds nothing, bound or not
    have hraw : (s.fds i).sock_type = .raw := by simpa using hraw
    refine Unseen.acts (.socket ?_ hu hk (by simp [hraw]) rfl rfl rfl) h rfl
    rw [Fd.hold_raw hk hraw]
    exact Fd.hold_raw hk hraw
  next hraw =>
  split
  · exact acts_fail h
  next s1 hs =>
  cases ht : (s.fds i).sock_type with
  | stream =>
    rw [ht] at hs
    obtain ⟨-, -, rfl⟩ := socket_port_mark_stream hs
    have hrow : ((s.fds i).boundTo port).endpoint =
        .stream { (s.fds i).sock with lport := port } := Fd.endpoint_stream hu hk ht
    refine ⟨h.bind_stream hu hk ht (.inl hb) hs rfl, effects_of_quiet rfl ?_⟩
    show s.endpoints.Effect .quiet (KState.setFd _ i ((s.fds i).boundTo port)).endpoints
    rw [endpoints_setFd, hrow]
    exact .bound (endpoints_stream hu hk ht) (h.lport_of_not_bound hu hk ht hb)
  | dgram =>
    rw [ht] at hs
    rcases Owns.udp_claim_cases hs with heq | ⟨u, hudp, hnot, heq⟩
    · simp only [heq]
      exact acts_fail h
    simp only [heq]
    exact (unseen_bind_dgram hu hk ht (.inl hb) hs hudp hnot).acts h rfl
  | raw | none =>
    rw [ht] at hs
    cases hs

theorem acts_listen (h : s.Owns) (env : Env) (a0 a1 : UInt64) :
    s.Acts .listen env a0 a1 (s.syscall_op_listen a0 a1) := by
  simp only [syscall_op_listen]
  split
  · exact acts_fail h
  next i hi =>
  obtain ⟨hu, hk⟩ := openSocket_some hi
  split
  · exact acts_fail h
  next hc =>
  simp only [Bool.or_eq_true, decide_eq_true_eq, not_or, not_not, Bool.not_eq_true',
    Bool.not_eq_false, beq_iff_eq] at hc
  obtain ⟨⟨⟨ht, hb⟩, hport⟩, -⟩ := hc
  split
  · exact acts_fail h
  next hbacklog =>
  split
  · exact acts_fail h
  next l net hl =>
  obtain ⟨hfree, hnot, rfl⟩ := Net.qos_net_tcp_listen_some hl
  have hhold := Fd.hold_socket hu hk (.inl ht)
  refine ⟨h.rekey hhold (Fd.hold_socket hu hk (.inl ht)) rfl rfl rfl rfl
    (h.ns.listen hhold hb ht hfree hnot), effects_of_quiet rfl ?_⟩
  have hpos : 0 < min a1.toUInt32.toNat QOS_SOCK_PENDING_MAX := by
    have hne : a1.toUInt32.toNat ≠ 0 := fun heq =>
      hbacklog (beq_iff_eq.mpr (UInt32.toNat_inj.mp heq))
    have hmax : QOS_SOCK_PENDING_MAX = 16 := rfl
    omega
  have hrow : Fd.endpoint { s.fds i with
      sock_listening := true
      sock_backlog := ⟨min a1.toUInt32.toNat QOS_SOCK_PENDING_MAX,
        Nat.lt_succ_of_le (Nat.min_le_right _ _)⟩ } = _ := Fd.endpoint_stream hu hk ht
  rw [Outcome.ret_state, endpoints_setFd, hrow]
  exact .listening (endpoints_stream hu hk ht) hport hpos

theorem socket_pending_pop_some {q q' : Ring PendingConn QOS_SOCK_PENDING_MAX}
    {peer : PendingConn} (h : socket_pending_pop q = some (peer, q')) :
    q.toList = peer :: q'.toList := by
  unfold socket_pending_pop at h
  split at h
  · cases h
  next p r hpop =>
  obtain ⟨rfl, rfl⟩ := Prod.mk.inj (Option.some.inj h)
  rw [Ring.toList_pop hpop]
  congr 1
  split
  next hzero => exact List.length_eq_zero_iff.mp (by rw [Ring.length_toList, hzero])
  · rfl

theorem acts_accept (h : s.Owns) (env : Env) (a0 a1 a2 : UInt64) :
    s.Acts .accept env a0 a1 (s.syscall_op_accept env a0 a1 a2) := by
  simp only [syscall_op_accept]
  split
  · exact acts_fail h
  next i hi =>
  obtain ⟨hu, hk⟩ := openSocket_some hi
  split
  · exact acts_fail h
  next hc =>
  simp only [Bool.or_eq_true, decide_eq_true_eq, not_or, not_not, Bool.not_eq_true',
    Bool.not_eq_false] at hc
  obtain ⟨⟨ht, hl⟩, -⟩ := hc
  split
  · exact acts_fail h
  next j s1 hs =>
  obtain ⟨hunused, rfl⟩ := fd_alloc_some hs
  split
  · -- the queue is not empty, but even then nothing would be lost
    exact (h.unseen_fd_clear_fresh hunused .socket).fails h
  next peer pending hpop =>
  have hij : i ≠ j := by
    rintro rfl
    rw [hu] at hunused
    cases hunused
  rw [setFd_setFd, setFd_self]
  refine ⟨Owns.touch (h.accept hu hk ht hl hunused rfl) rfl, effects_of_done rfl ?_⟩
  rw [setFd_ne hij]
  have hevent (t : KState) (out : List (UInt64 × List UInt8))
      (hlport : (t.fds j).sock_lport = (s.fds i).sock_lport)
      (hconn : (t.fds j).sock_conn_id = peer.conn_id) :
      SyscallOp.done .accept env a0 a1 ⟨j.val, out, t⟩ =
        .accepted i j (s.fds i).sock_lport peer.conn_id := by
    show Event.accepted (fdIndex a0.toUInt32.toNat) (fdIndex j.val)
      (t.fds (fdIndex j.val)).sock_lport (t.fds (fdIndex j.val)).sock_conn_id = _
    rw [fdIndex_of_openSocket hi, fdIndex_val, hlport, hconn]
  rw [hevent]
  · have hrow : Fd.endpoint { s.fds i with sock_pending := pending, sock_accepted := peer } =
        .stream { (s.fds i).sock with pending := pending.toList } :=
      Fd.endpoint_stream hu hk ht
    dsimp only
    rw [endpoints_setFd, endpoints_setFd, hrow]
    exact .accepted (endpoints_stream hu hk ht) hl (Fd.endpoint_unused hunused)
      (socket_pending_pop_some hpop)
  · rw [setFd_ne hij.symm, setFd_self]
    rfl
  rw [setFd_ne hij.symm, setFd_self]

/-! ### Connecting -/
theorem stream_local_port_some (h : s.stream_local_port i = some (port, allocated, s')) :
    ((s.fds i).sock_lport = 0 ∨ (s.fds i).sock_lport = port) ∧ port ≠ 0 := by
  obtain ⟨-, hz, hm⟩ | ⟨-, hport, hne, -⟩ := stream_local_port_cases h
  · refine ⟨.inl hz, ?_⟩
    rintro rfl
    exact absurd (socket_port_mark_stream hm).1 (by decide)
  exact ⟨.inr hport, hne⟩

theorem done_connect_quiet (hi : fdIndex a0.toUInt32.toNat = i)
    (h : (o.state.fds i).sock_type ≠ .stream ∨ (o.state.fds i).sock_conn_id < 0) :
    SyscallOp.done .connect env a0 a1 o = .quiet := by
  subst hi
  apply if_neg
  rintro ⟨ht, hconn⟩
  rcases h with h | h
  · exact h ht
  omega

theorem done_connect (hi : fdIndex a0.toUInt32.toNat = i) (ht : (o.state.fds i).sock_type = .stream)
    {c : Nat} (hc : (o.state.fds i).sock_conn_id = c) :
    SyscallOp.done .connect env a0 a1 o = .connected i (o.state.fds i).sock_rport c := by
  subst hi
  rw [← hc]
  exact if_pos ⟨ht, by omega⟩

theorem acts_connect_gateway (h : s.Owns) (hi : s.openSocket a0.toUInt32 = some i)
    (ht : (s.fds i).sock_type = .stream) (remote_port : UInt16) (remote_ip : UInt32) :
    s.Acts .connect env a0 a1 (s.connect_gateway i remote_port remote_ip) := by
  obtain ⟨hu, hk⟩ := openSocket_some hi
  unfold connect_gateway
  split
  · exact acts_fail h
  split
  · exact acts_fail h
  next port allocated s1 hs =>
  obtain ⟨hlport, hport⟩ := stream_local_port_some hs
  obtain ⟨ports, rfl⟩ := stream_local_port_frame hs
  have hrow : Fd.endpoint { ((s.fds i).boundTo port).connectedTo remote_port remote_ip with
      sock_conn_id := -1 } = .stream ((s.fds i).sock.connect port remote_port (-1)) :=
    Fd.endpoint_stream hu hk ht
  refine ⟨h.stream_local_port hu hk ht hs rfl, effects_of_quiet ?_ ?_⟩
  · apply done_connect_quiet (fdIndex_of_openSocket hi)
    rw [Outcome.ret_state, setFd_self]
    exact .inr (Int.negSucc_lt_zero 0)
  rw [Outcome.ret_state, endpoints_setFd, hrow]
  exact .gateway (endpoints_stream hu hk ht) hlport hport

variable {l : FdNum}
/-- The state `t` after a socket got a connection to the listener in row `l`. -/
structure Connected (s : KState) (i l : FdNum) (remote_port : UInt16)
    (remote_ip : UInt32) (port : UInt16) (c : ConnSlot)
    (pending : Ring PendingConn QOS_SOCK_PENDING_MAX) (t : KState) : Prop where
  lport : (s.fds i).sock_lport = 0 ∨ (s.fds i).sock_lport = port
  port_ne : port ≠ 0
  remote_ne : remote_port ≠ 0
  free : (s.net.conns c).used = false
  push : (s.fds l).sock_pending.push ⟨port, QOS_NET_IPV4_LOCAL, c.val⟩ = some pending
  fds : t.fds = set (set s.fds i
    { ((s.fds i).boundTo port).connectedTo remote_port remote_ip with sock_conn_id := c.val }) l
    { s.fds l with sock_pending := pending }
  pipes : t.pipes = s.pipes
  conns : t.net.conns = set s.net.conns c
    ⟨true, .established, port, remote_port, remote_ip, 500, 0⟩

theorem connect_listener_cases (s : KState) (hli : l ≠ i) (remote_port : UInt16)
    (remote_ip : UInt32) :
    s.connect_listener i l remote_port remote_ip = .fail s ∨
    ∃ port c pending t, s.connect_listener i l remote_port remote_ip = .ret t 0 ∧
      s.Connected i l remote_port remote_ip port c pending t ∧
      (s.Owns → (s.fds i).used = true → (s.fds i).kind = .socket →
        (s.fds i).sock_type = .stream → t.Owns) := by
  simp only [connect_listener]
  split
  · exact .inl rfl
  next hroom =>
  split
  · exact .inl rfl
  next port allocated s1 hs =>
  obtain ⟨hlport, hport⟩ := stream_local_port_some hs
  obtain ⟨ports, rfl⟩ := stream_local_port_frame hs
  split
  · -- no connection slot is free
    rw [stream_local_port_undo hs]
    exact .inl rfl
  next c net hc =>
  obtain ⟨hfree, hremote, rfl⟩ := Net.qos_net_tcp_connect_some hc
  rw [Net.qos_net_tcp_step_synAck, if_neg (fun hrc => hrc rfl)]
  simp only [setFd_ne hli]
  split
  next hpush =>
    -- the backlog is at most the size of the queue, so there is room
    have hfull := Ring.push_none hpush
    simp only [Bool.or_eq_true, decide_eq_true_eq, not_or, not_le] at hroom
    have hlt := (s.fds l).sock_backlog.isLt
    omega
  next q hpush =>
  refine .inr ⟨port, c, q, _, rfl, ⟨hlport, hport, hremote, hfree, hpush, rfl, rfl, rfl⟩,
    fun h hu hk ht => ?_⟩
  have hbound : ({ s with stream_ports := ports }.setFd i
      { ((s.fds i).boundTo port).connectedTo remote_port remote_ip with
        sock_conn_id := c.val }).Owns := h.stream_local_port hu hk ht hs rfl
  apply Owns.touch
  · exact hbound.net rfl rfl
  rw [setFd_ne hli]
  rfl

theorem acts_connect_listener (h : s.Owns) (hi : s.openSocket a0.toUInt32 = some i)
    (ht : (s.fds i).sock_type = .stream) (hli : l ≠ i) {remote_port : UInt16}
    (hl : listensOn remote_port (s.fds l) = true) (remote_ip : UInt32) :
    s.Acts .connect env a0 a1 (s.connect_listener i l remote_port remote_ip) := by
  obtain ⟨hu, hk⟩ := openSocket_some hi
  rcases s.connect_listener_cases hli remote_port remote_ip with
    heq | ⟨port, c, pending, t, heq, hconn, howns⟩
  · rw [heq]
    exact acts_fail h
  simp only [listensOn, Bool.and_eq_true, beq_iff_eq] at hl
  obtain ⟨⟨⟨⟨hlu, hlk⟩, hlt⟩, hlistening⟩, rfl⟩ := hl
  have hrow : t.fds i = { ((s.fds i).boundTo port).connectedTo (s.fds l).sock_lport remote_ip with
      sock_conn_id := c.val } := by
    rw [hconn.fds, set_ne hli.symm, set_self]
  have hi_row : Fd.endpoint { ((s.fds i).boundTo port).connectedTo (s.fds l).sock_lport remote_ip
      with sock_conn_id := c.val } =
        .stream ((s.fds i).sock.connect port (s.fds l).sock_lport c.val) :=
    Fd.endpoint_stream hu hk ht
  have hl_row : Fd.endpoint { s.fds l with sock_pending := pending } =
      .stream { (s.fds l).sock with
        pending := (s.fds l).sock.pending ++ [⟨port, QOS_NET_IPV4_LOCAL, c.val⟩] } := by
    have hlist : pending.toList = (s.fds l).sock.pending ++ [⟨port, QOS_NET_IPV4_LOCAL, c.val⟩] :=
      Ring.toList_push hconn.push
    rw [← hlist]
    exact Fd.endpoint_stream hlu hlk hlt
  have hview : t.endpoints = { s.endpoints with
      rows := set (set s.endpoints.rows i
        (.stream ((s.fds i).sock.connect port (s.fds l).sock_lport c.val))) l
        (.stream { (s.fds l).sock with
          pending := (s.fds l).sock.pending ++ [⟨port, QOS_NET_IPV4_LOCAL, c.val⟩] })
      conns := set s.endpoints.conns c
        ⟨true, .established, port, (s.fds l).sock_lport, remote_ip, 500, 0⟩ } := by
    show Endpoints.mk (fun j => (t.fds j).endpoint) t.buffered t.net.conns = _
    rw [hconn.fds, set_comp Fd.endpoint, set_comp Fd.endpoint, hi_row, hl_row, hconn.conns]
    have hbuffered : t.buffered = s.buffered := by
      unfold buffered
      rw [hconn.pipes]
    rw [hbuffered]
    rfl
  rw [heq]
  refine ⟨howns h hu hk ht, effects_of_done rfl ?_⟩
  rw [done_connect (fdIndex_of_openSocket hi) (by rw [Outcome.ret_state, hrow]; exact ht)
    (by rw [Outcome.ret_state, hrow]), Outcome.ret_state, hrow, hview]
  exact .connected (endpoints_stream hu hk ht) (endpoints_stream hlu hlk hlt) hli hlistening
    hconn.remote_ne hconn.lport hconn.port_ne hconn.free

theorem dgram_local_port_unseen (hu : (s.fds i).used = true) (hk : (s.fds i).kind = .socket)
    (ht : (s.fds i).sock_type = .dgram) :
    s.Unseen (s.dgram_local_port i).2 ∧ ((s.dgram_local_port i).2.fds i).used = true ∧
      ((s.dgram_local_port i).2.fds i).kind = .socket ∧
      ((s.dgram_local_port i).2.fds i).sock_type ≠ .stream := by
  have hne : (s.fds i).sock_type ≠ .stream := by simp [ht]
  unfold dgram_local_port
  split
  next hz =>
    split
    · exact ⟨.refl s, hu, hk, hne⟩
    next port s1 hm =>
    have hs := socket_port_alloc_some hm
    rcases Owns.udp_claim_cases hs with heq | ⟨u, hudp, hnot, heq⟩
    · simp only [heq]
      exact ⟨.refl s, hu, hk, hne⟩
    simp only [heq]
    refine ⟨unseen_bind_dgram hu hk ht (.inr (by simpa using hz)) hs hudp hnot, ?_⟩
    rw [if_pos trivial, setFd_self, (socket_port_mark_dgram hs).2.2]
    exact ⟨hu, hk, hne⟩
  · exact ⟨.refl s, hu, hk, hne⟩

theorem acts_connect (h : s.Owns) (env : Env) (a0 a1 a2 : UInt64) :
    s.Acts .connect env a0 a1 (s.syscall_op_connect env a0 a1 a2) := by
  simp only [syscall_op_connect, connect_socket]
  split
  · exact acts_fail h
  next i hi =>
  obtain ⟨hu, hk⟩ := openSocket_some hi
  split
  · exact acts_fail h
  next remote_port remote_ip hp =>
  split
  next ht =>
    split
    · exact acts_connect_gateway h hi ht remote_port remote_ip
    next l hl =>
    have hfirst := first_some hl
    simp only [Bool.and_eq_true, decide_eq_true_eq] at hfirst
    exact acts_connect_listener h hi ht hfirst.1 hfirst.2 remote_ip
  next ht =>
    obtain ⟨hlocal, hu', hk', hne⟩ := dgram_local_port_unseen hu hk ht
    split
    · refine Unseen.acts (hlocal.trans (.socket rfl hu' hk' hne rfl rfl rfl)) h ?_
      apply done_connect_quiet (fdIndex_of_openSocket hi)
      rw [Outcome.ret_state, setFd_self]
      exact .inl hne
    exact hlocal.fails h
  next ht =>
    have hne : (s.fds i).sock_type ≠ .stream := by simp [ht]
    refine Unseen.acts (.socket ?_ hu hk hne rfl rfl rfl) h ?_
    · rw [Fd.hold_raw hk ht]
      exact Fd.hold_raw hk ht
    apply done_connect_quiet (fdIndex_of_openSocket hi)
    rw [Outcome.ret_state, setFd_self]
    exact .inl hne
  · exact acts_fail h

/-! ### Sending and receiving -/
theorem send_dgram_unseen (hu : (s.fds i).used = true) (hk : (s.fds i).kind = .socket)
    (ht : (s.fds i).sock_type = .dgram) (remote_port : UInt16) (remote_ip : UInt32)
    (data : List UInt8) : s.Unseen (s.send_dgram i remote_port remote_ip data).state := by
  obtain ⟨hlocal, hu', hk', hne⟩ := dgram_local_port_unseen hu hk ht
  simp only [send_dgram]
  split
  · exact hlocal
  split
  · exact hlocal
  refine (hlocal.trans ?_).trans (udp_put_unseen _ _ _ data)
  exact .socket rfl hu' hk' hne rfl rfl rfl

section
variable (s : KState)
theorem send_unseen (env : Env) (a0 a1 a2 a3 : UInt64) :
    s.Unseen (s.syscall_op_send env a0 a1 a2 a3).state := by
  simp only [syscall_op_send]
  split
  · exact .refl s
  next i hi =>
  obtain ⟨hu, hk⟩ := openSocket_some hi
  split
  · exact .refl s
  split
  next ht =>
    split
    · exact .refl s
    exact raw_echo_unseen hu hk ht _ _ _
  next ht =>
    split
    · exact .refl s
    exact send_dgram_unseen hu hk ht _ _ _
  all_goals
    split
    · exact .refl s
    split
    · split
      · exact .refl s
      next hs => exact stream_host_response_prepare_unseen hs
    exact s.packet_put_unseen _

theorem recv_unseen (a0 a1 a2 a3 : UInt64) : s.Unseen (s.syscall_op_recv a0 a1 a2 a3).state := by
  simp only [syscall_op_recv]
  split
  · exact .refl s
  next i hi =>
  split
  · exact .refl s
  split
  · exact s.raw_take_unseen i _ _ _
  · exact s.udp_take_unseen i _ _ _
  all_goals
    split
    · exact .refl s
    split
    · exact s.stream_take_unseen i _ _
    exact s.packet_take_unseen _ _

/-! ### Paths and positions -/
theorem lseek_unseen (env : Env) (a0 a1 a2 : UInt64) :
    s.Unseen (s.syscall_op_lseek env a0 a1 a2).state := by
  simp only [syscall_op_lseek]
  split
  · exact .refl s
  split
  · exact .refl s
  split
  · exact .refl s
  split
  · exact .refl s
  split
  · exact .refl s
  exact .row rfl rfl

theorem getdents_state (a0 a1 a2 : UInt64) : (s.syscall_op_getdents a0 a1 a2).state = s := by
  unfold syscall_op_getdents
  split
  · rfl
  split
  · rfl
  split <;> rfl

variable (env : Env)
theorem stat_state (a0 a1 : UInt64) : (s.syscall_op_stat env a0 a1).state = s := by
  simp only [syscall_op_stat]
  split
  · rfl
  split
  · rfl
  split
  · rfl
  split <;> rfl

theorem mkdir_unseen (a0 : UInt64) : s.Unseen (s.syscall_op_mkdir env a0).state := by
  simp only [syscall_op_mkdir]
  split
  · exact .refl s
  split
  · exact .refl s
  rcases s.vfs.qos_vfs_create_cases (env.str a0) with heq | ⟨d, hd, -, -, heq⟩
  · rw [heq]
    exact .refl s
  rw [heq]
  exact ⟨fun h => ⟨h.ns, h.store.add_path hd⟩, rfl⟩
end
theorem unlink_unseen (h : s.Owns) (env : Env) (a0 : UInt64) :
    s.Unseen (s.syscall_op_unlink env a0).state := by
  simp only [syscall_op_unlink]
  split
  · exact .refl s
  split
  · exact .refl s
  rcases s.vfs.qos_vfs_remove_cases (env.str a0) with heq | ⟨d, hd, hvalid, heq⟩
  · rw [heq]
    exact .refl s
  rw [heq]
  obtain ⟨files', hs, hnot, hfiles⟩ :=
    Owns.file_unlink_path_spec { s with vfs := ⟨set s.vfs.nodes d none, s.vfs.count - 1⟩ }
      (Vfs.path_valid_ne_nil hvalid) fun i j => h.store.paths_distinct i j _
  rw [if_neg (fun h => h rfl), Outcome.ret_state, hs]
  exact ⟨fun h => ⟨h.ns, h.store.remove_path hd hnot hfiles⟩, rfl⟩

/-! ### Every call -/
theorem acts_syscall_op (h : s.Owns) (env : Env) (op : SyscallOp) (value : Int)
    (a0 a1 a2 a3 : UInt64) : s.Acts op env a0 a1 (s.syscall_op env op value a0 a1 a2 a3) := by
  cases op with
  | «open» => exact acts_open h
  | socket => exact acts_socket h
  | close => exact acts_close h
  | dup2 => exact acts_dup2 h
  | pipe => exact acts_pipe h
  | read => exact acts_read h env a0 a1 a2
  | write => exact acts_write h env a0 a1 a2
  | bind => exact acts_bind h env a0 a1 a2
  | listen => exact acts_listen h env a0 a1
  | accept => exact acts_accept h env a0 a1 a2
  | connect => exact acts_connect h env a0 a1 a2
  | send => exact (s.send_unseen env a0 a1 a2 a3).acts h rfl
  | recv => exact (s.recv_unseen a0 a1 a2 a3).acts h rfl
  | getdents =>
    refine Unseen.acts ?_ h rfl
    show s.Unseen (s.syscall_op_getdents a0 a1 a2).state
    rw [getdents_state]
    exact .refl s
  | lseek => exact (s.lseek_unseen env a0 a1 a2).acts h rfl
  | stat =>
    refine Unseen.acts ?_ h rfl
    show s.Unseen (s.syscall_op_stat env a0 a1).state
    rw [stat_state]
    exact .refl s
  | mkdir => exact (s.mkdir_unseen env a0).acts h rfl
  | unlink => exact (unlink_unseen h env a0).acts h rfl
  | _ => exact (Unseen.refl s).acts h rfl

theorem register_unseen (s : KState) (nr op : UInt32) (value : Int) :
    s.Unseen (s.qos_syscall_register nr op value).2 := by
  unfold qos_syscall_register
  split
  · split
    · exact .refl s
    split
    · exact .refl s
    exact ⟨fun h => ⟨h.ns, h.store⟩, rfl⟩
  exact .refl s

theorem unregister_unseen (s : KState) (nr : UInt32) :
    s.Unseen (s.qos_syscall_unregister nr).2 := by
  unfold qos_syscall_unregister
  split
  · split
    · exact .refl s
    exact ⟨fun h => ⟨h.ns, h.store⟩, rfl⟩
  exact .refl s

theorem acts_call (h : s.Owns) (c : Syscall) :
    (s.call c).Owns ∧ s.endpoints.Effect (s.event c) (s.call c).endpoints := by
  have hunseen {t : KState} (hs : s.Unseen t) : t.Owns ∧ s.endpoints.Effect .quiet t.endpoints := by
    refine ⟨hs.owns h, ?_⟩
    rw [hs.endpoints]
    exact .same
  cases c with
  | register nr op value => exact hunseen (s.register_unseen nr op value)
  | unregister nr => exact hunseen (s.unregister_unseen nr)
  | dispatch env nr a0 a1 a2 a3 =>
  simp only [event, call, qos_syscall_dispatch]
  split
  next hlt =>
    cases hcall : s.calls ⟨nr.toNat, hlt⟩ with
    | none => exact hunseen (.refl s)
    | some entry =>
    obtain ⟨howns, heffects⟩ := acts_syscall_op h env entry.1 entry.2 a0 a1 a2 a3
    exact ⟨howns, heffects⟩
  · exact hunseen (.refl s)

theorem owns_of_reach {vfs : Vfs} {tr : List Syscall} (hr : (syscallRuns vfs).Reach anyStep tr s) :
    s.Owns := by
  apply hr.invariant KState.Owns (Owns.reset vfs)
  intro s c s' h _ hs
  cases hs
  exact (acts_call h c).1

theorem endpoints_reset (vfs : Vfs) : (KState.reset vfs).endpoints = .reset := by
  have hbuffered : (KState.reset vfs).buffered = fun _ => none := by
    funext p
    unfold buffered
    split <;> rfl
  show Endpoints.mk _ (KState.reset vfs).buffered _ = _
  rw [hbuffered]
  rfl
end KState
/-! ### Runs with a log of events -/
/-- The runs of the system calls, with a log of their events. -/
def eventRuns {Log : Type} (vfs : Vfs) (start : Log) (record : Log → Event → Log) :
    System (KState × Log) Syscall :=
  (syscallRuns vfs).logged start fun l s c => record l (s.event c)

/-- What every effect keeps holds in every run, of the endpoints and the
log. -/
theorem eventRuns_invariant {Log : Type} {vfs : Vfs} {start : Log} {record : Log → Event → Log}
    {cond : KState → Syscall → Prop} {tr : List Syscall} {x : KState × Log}
    (hr : (eventRuns vfs start record).Reach (fun x c => cond x.1 c) tr x)
    (P : Endpoints → Log → Prop) (hinit : P .reset start)
    (hstep : ∀ s l c v, P s.endpoints l → cond s c → s.endpoints.Effect (s.event c) v →
      P v (record l (s.event c))) : x.1.Owns ∧ P x.1.endpoints x.2 := by
  apply hr.invariant fun x => x.1.Owns ∧ P x.1.endpoints x.2
  · refine ⟨KState.Owns.reset vfs, ?_⟩
    show P (KState.reset vfs).endpoints start
    rw [KState.endpoints_reset]
    exact hinit
  intro x c x' ⟨howns, hP⟩ hc hs
  obtain ⟨hcall, hlog⟩ := System.logged_step_some hs
  have hcall : x.1.call c = x'.1 := Option.some.inj hcall
  rw [← hcall, hlog]
  obtain ⟨howns', heffect⟩ := KState.acts_call howns c
  exact ⟨howns', hstep x.1 x.2 c _ hP hc heffect⟩
end QosKernel
