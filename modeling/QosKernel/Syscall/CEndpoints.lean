import QosKernel.Syscall.CFilesKeep
import QosKernel.Syscall.Endpoints
import QosKernel.Framework.PartialMap

/-! # The C system calls on endpoints

The endpoints of a kernel state, the event of a system call, and one
lemma for each call that opens, closes or copies descriptors: it keeps the
ownership invariant and has the effect that its event names.
-/
open Framework
namespace QosKernel
variable {fd : Fd}
/-! ### The endpoints of a state -/
def Fd.sock (fd : Fd) : StreamSock :=
  ⟨fd.sock_lport, fd.sock_rport, fd.sock_listening, fd.sock_connected, fd.sock_backlog.val,
    fd.sock_conn_id, fd.sock_pending.toList⟩

def Fd.endpoint (fd : Fd) : Endpoint :=
  if fd.used then
    match fd.kind with
    | .pipeR => .reader fd.pipe_id.toNat
    | .pipeW => .writer fd.pipe_id.toNat
    | .socket => if fd.sock_type = .stream then .stream fd.sock else .other
    | .vfs | .proc | .none => .other
  else .free

theorem Fd.endpoint_unused (h : fd.used = false) : fd.endpoint = .free := by simp [Fd.endpoint, h]

theorem Fd.endpoint_stream (hu : fd.used = true) (hk : fd.kind = .socket)
    (ht : fd.sock_type = .stream) : fd.endpoint = .stream fd.sock := by
  simp [Fd.endpoint, hu, hk, ht]

theorem Fd.endpoint_socket (hu : fd.used = true) (hk : fd.kind = .socket)
    (ht : fd.sock_type ≠ .stream) : fd.endpoint = .other := by
  simp [Fd.endpoint, hu, hk, ht]

theorem Fd.endpoint_reader (hu : fd.used = true) (hk : fd.kind = .pipeR) :
    fd.endpoint = .reader fd.pipe_id.toNat := by
  simp [Fd.endpoint, hu, hk]

theorem Fd.endpoint_writer (hu : fd.used = true) (hk : fd.kind = .pipeW) :
    fd.endpoint = .writer fd.pipe_id.toNat := by
  simp [Fd.endpoint, hu, hk]

theorem Fd.endpoint_pipe_iff {p : Nat} : fd.endpoint.pipe? = some p ↔ fd.hold.refersToPipe p := by
  unfold Fd.endpoint Fd.hold
  cases fd.used <;> cases fd.kind <;> cases fd.sock_type <;>
    simp [Endpoint.pipe?, Hold.refersToPipe]

theorem Fd.endpoint_pipe_none (hr : fd.kind ≠ .pipeR) (hw : fd.kind ≠ .pipeW) :
    fd.endpoint.pipe? = none := by
  unfold Fd.endpoint
  cases hk : fd.kind with
  | pipeR => exact absurd hk hr
  | pipeW => exact absurd hk hw
  | socket => cases fd.used <;> cases fd.sock_type <;> rfl
  | vfs | proc | none => cases fd.used <;> rfl

namespace KState
def buffered (s : KState) (p : Nat) : Option (List UInt8) :=
  if h : p < QOS_PIPE_MAX then
    if (s.pipes ⟨p, h⟩).used then some (s.pipes ⟨p, h⟩).buf else none
  else none

def endpoints (s : KState) : Endpoints where
  rows i := (s.fds i).endpoint
  pipes := s.buffered
  conns := s.net.conns

variable {s s' t : KState} {i j : FdNum} {env : Env}
theorem endpoints_setFd (s : KState) (i : FdNum) (fd : Fd) :
    (s.setFd i fd).endpoints = s.endpoints.setRow i fd.endpoint := by
  have hrows : (fun j => (set s.fds i fd j).endpoint) =
      set (fun j => (s.fds j).endpoint) i fd.endpoint := set_comp Fd.endpoint
  show Endpoints.mk (fun j => (set s.fds i fd j).endpoint) s.buffered s.net.conns = _
  rw [hrows]
  rfl

theorem endpoints_touch {fd : Fd} (h : fd.endpoint = (s.fds i).endpoint) :
    (s.setFd i fd).endpoints = s.endpoints := by
  have hrow : fd.endpoint = s.endpoints.rows i := h
  rw [endpoints_setFd, hrow, Endpoints.setRow, set_eq_self]

theorem piped_iff {p : Nat} :
    Endpoints.Piped s.endpoints.rows p ↔ Held Hold.refersToPipe s.holds p :=
  exists_congr fun _ => Fd.endpoint_pipe_iff

theorem buffered_set (s : KState) (p : PipeSlot) {pipe : Pipe} (hp : pipe.used = true) :
    KState.buffered { s with pipes := set s.pipes p pipe } =
      set s.buffered p.val (some pipe.buf) := by
  funext q
  unfold buffered
  by_cases hq : q = p.val
  · subst hq
    rw [set_self, dif_pos p.isLt]
    simp [hp]
  rw [set_ne hq]
  split
  next hlt =>
    have hne : (⟨q, hlt⟩ : PipeSlot) ≠ p := fun heq => hq (congrArg Fin.val heq)
    simp only [set_ne hne]
  · rfl

theorem buffered_of_open {pipe_id : UInt16} {p : PipeSlot}
    (h : s.openPipe pipe_id = some p) :
    s.endpoints.pipes pipe_id.toNat = some (s.pipes p).buf ∧
      ∀ buf, KState.endpoints { s with pipes := set s.pipes p { s.pipes p with buf := buf } } =
        { s.endpoints with pipes := set s.endpoints.pipes pipe_id.toNat (some buf) } := by
  unfold openPipe at h
  split at h
  next hlt =>
    split at h
    next hused =>
      cases h
      refine ⟨?_, fun buf => ?_⟩
      · show s.buffered pipe_id.toNat = _
        unfold buffered
        rw [dif_pos hlt, if_pos hused]
      have hpipe : ({ s.pipes ⟨pipe_id.toNat, hlt⟩ with buf := buf } : Pipe).used = true := hused
      unfold endpoints
      rw [s.buffered_set _ hpipe]
    · cases h
  · cases h

/-- In a state with the invariant, the pipes that have no end are not in use:
a pipe table that only lost pipes lost exactly those. -/
theorem Owns.endpoints_collect (ht : t.Owns)
    (hpipes : ∀ p, t.pipes p = s.pipes p ∨ (t.pipes p).used = false)
    (hconns : t.net.conns = s.net.conns) : t.endpoints = s.endpoints.collect t.endpoints.rows := by
  have hbuf : t.buffered = fun p => open Classical in
      if Endpoints.Piped t.endpoints.rows p then s.buffered p else none := by
    funext p
    split
    next hp =>
      obtain ⟨hlt, hused⟩ := ht.store.pipe.live p (piped_iff.mp hp)
      unfold buffered
      rw [dif_pos hlt, dif_pos hlt]
      rcases hpipes ⟨p, hlt⟩ with heq | hfree
      · rw [heq]
      exact absurd (hused.symm.trans hfree) (by decide)
    next hp =>
    unfold buffered
    split
    next hlt =>
      split
      next hused => exact absurd (piped_iff.mpr (ht.store.pipe.held p ⟨hlt, hused⟩)) hp
      · rfl
    · rfl
  show Endpoints.mk t.endpoints.rows t.buffered t.net.conns = _
  rw [hbuf, hconns]
  rfl

theorem Owns.endpoints_eq (hs : s.Owns) (ht : t.Owns) (hrows : t.endpoints.rows = s.endpoints.rows)
    (hpipes : ∀ p, t.pipes p = s.pipes p ∨ (t.pipes p).used = false)
    (hconns : t.net.conns = s.net.conns) : t.endpoints = s.endpoints := by
  rw [ht.endpoints_collect hpipes hconns, hrows]
  exact (hs.endpoints_collect (fun _ => .inl rfl) rfl).symm

/-! ### What the endpoints do not show -/
/-- A step that keeps the invariant and leaves the endpoints as they are. -/
structure Unseen (s t : KState) : Prop where
  owns : s.Owns → t.Owns
  endpoints : t.endpoints = s.endpoints

namespace Unseen
variable {fd : Fd}
theorem refl (s : KState) : s.Unseen s := ⟨id, rfl⟩

theorem trans (h : s.Unseen s') (h' : s'.Unseen t) : s.Unseen t :=
  ⟨h'.owns ∘ h.owns, h'.endpoints.trans h.endpoints⟩

theorem row (hhold : fd.hold = (s.fds i).hold) (hend : fd.endpoint = (s.fds i).endpoint) :
    s.Unseen (s.setFd i fd) :=
  ⟨fun h => h.touch hhold, endpoints_touch hend⟩

theorem socket (hhold : fd.hold = (s.fds i).hold) (hu : (s.fds i).used = true)
    (hk : (s.fds i).kind = .socket) (ht : (s.fds i).sock_type ≠ .stream)
    (hused : fd.used = (s.fds i).used) (hkind : fd.kind = (s.fds i).kind)
    (htype : fd.sock_type = (s.fds i).sock_type) : s.Unseen (s.setFd i fd) := by
  apply row hhold
  rw [Fd.endpoint_socket hu hk ht]
  exact Fd.endpoint_socket (hused.trans hu) (hkind.trans hk) (htype ▸ ht)

theorem net {net : Net} (hudp : net.udp.ports = s.net.udp.ports)
    (htcp : net.listeners = s.net.listeners) (hconns : net.conns = s.net.conns) :
    s.Unseen { s with net := net } :=
  ⟨fun h => h.net hudp htcp, by rw [KState.endpoints, hconns]; rfl⟩
end Unseen
/-! ### Closing -/
section
variable (s : KState)
theorem releasePipe_pipes (pipe_id : UInt16) (p : PipeSlot) :
    (s.releasePipe pipe_id).pipes p = s.pipes p ∨
      ((s.releasePipe pipe_id).pipes p).used = false := by
  obtain ⟨pipes', hs, hpipes, -⟩ := s.releasePipe_spec pipe_id
  rw [hs]
  rcases hpipes p with heq | ⟨-, heq⟩
  · exact .inl heq
  refine .inr ?_
  show (pipes' p).used = false
  rw [heq]
  rfl

theorem releasePort_frame (fd : Fd) :
    (s.releasePort fd).pipes = s.pipes ∧ (s.releasePort fd).net.conns = s.net.conns := by
  have hunmark (t : KState) (type : SockType) (port : UInt16) :
      (t.socket_port_unmark type port).pipes = t.pipes ∧
        (t.socket_port_unmark type port).net = t.net := by
    unfold socket_port_unmark
    split
    · exact ⟨rfl, rfl⟩
    cases type <;> exact ⟨rfl, rfl⟩
  unfold releasePort
  split
  · dsimp only
    rw [(hunmark _ _ _).1, (hunmark _ _ _).2]
    split <;> exact ⟨rfl, rfl⟩
  exact ⟨rfl, rfl⟩

theorem releaseListener_frame (fd : Fd) :
    (s.releaseListener fd).pipes = s.pipes ∧ (s.releaseListener fd).net.conns = s.net.conns := by
  unfold releaseListener
  split
  · rcases s.net.qos_net_tcp_unlisten_cases fd.sock_lport with ⟨l, -, heq⟩ | ⟨-, heq⟩ <;>
      exact ⟨rfl, by rw [heq]⟩
  exact ⟨rfl, rfl⟩

theorem releaseFile_frame (file_id : UInt16) :
    (s.releaseFile file_id).pipes = s.pipes ∧ (s.releaseFile file_id).net = s.net := by
  obtain ⟨_, hs, -⟩ := s.releaseFile_spec file_id
  rw [hs]
  exact ⟨rfl, rfl⟩

theorem release_frame (fd : Fd) :
    (∀ p, (s.release fd).pipes p = s.pipes p ∨ ((s.release fd).pipes p).used = false) ∧
      (s.release fd).net.conns = s.net.conns := by
  have hnet : (s.releasePipe fd.pipe_id).net = s.net := by
    obtain ⟨_, hs, -⟩ := s.releasePipe_spec fd.pipe_id
    rw [hs]
  unfold release
  rw [(releasePort_frame _ _).1, (releasePort_frame _ _).2, (releaseListener_frame _ _).1,
    (releaseListener_frame _ _).2, (releaseFile_frame _ _).1, (releaseFile_frame _ _).2, hnet]
  exact ⟨s.releasePipe_pipes fd.pipe_id, rfl⟩
end
theorem Owns.endpoints_fd_clear (h : s.Owns) (hu : (s.fds i).used = true) :
    (s.fd_clear i).endpoints = s.endpoints.collect (set s.endpoints.rows i .free) := by
  obtain ⟨hpipes, hconns⟩ := (s.setFd i .closed).release_frame (s.fds i)
  have hrows : (s.fd_clear i).endpoints.rows = set s.endpoints.rows i .free := by
    show (fun j => ((s.fd_clear i).fds j).endpoint) = _
    rw [KState.fd_clear, release_fds]
    exact set_comp Fd.endpoint
  rw [(h.fd_clear hu).endpoints_collect hpipes hconns, hrows]
  rfl

theorem Owns.unseen_fd_clear_fresh (h : s.Owns) (hi : (s.fds i).used = false)
    (kind : FdKind) : s.Unseen ((s.setFd i (.fresh kind)).fd_clear i) := by
  have hclosed : Fd.closed.endpoint = (s.fds i).endpoint := (Fd.endpoint_unused hi).symm
  have hrow := endpoints_touch hclosed
  obtain ⟨_, hs, -⟩ := (s.setFd i .closed).releasePipe_spec 0
  refine ⟨fun _ => h.fd_clear_fresh hi kind, h.endpoints_eq (h.fd_clear_fresh hi kind) ?_ ?_ ?_⟩
  · rw [KState.fd_clear_fresh, ← hrow, hs]
    rfl
  · rw [KState.fd_clear_fresh]
    exact (s.setFd i .closed).releasePipe_pipes 0
  rw [KState.fd_clear_fresh, hs]
  rfl
end KState
/-! ### Events -/
def fdIndex (n : Nat) : FdNum := ⟨n % QOS_FD_MAX, Nat.mod_lt _ (by decide)⟩
theorem fdIndex_val (i : FdNum) : fdIndex i.val = i := Fin.ext (Nat.mod_eq_of_lt i.isLt)

def leNat : List UInt8 → Nat
  | [] => 0
  | b :: bytes => b.toNat + 256 * leNat bytes

def Outcome.bytes (o : Outcome) : List UInt8 := o.out.flatMap (·.2)

section
variable (op : SyscallOp) (env : Env) (a0 a1 : UInt64) (o : Outcome)
/-- The event of a call that succeeds, with its first two arguments and its
outcome. -/
def SyscallOp.done : Event :=
  let i := fdIndex a0.toUInt32.toNat
  let r := fdIndex o.rc.toNat
  match op with
  | .open | .socket => .opened r
  | .close => .closed i
  | .dup2 => .copied i r
  | .pipe => .piped (fdIndex (leNat (o.bytes.take 4))) (fdIndex (leNat (o.bytes.drop 4)))
  | .read => .got i o.bytes
  | .write => .wrote i (env.bytes a1 o.rc.toNat)
  | .accept => .accepted i r (o.state.fds r).sock_lport (o.state.fds r).sock_conn_id
  | .connect =>
    -- only connections to a listener have an id
    if (o.state.fds i).sock_type = .stream ∧ 0 ≤ (o.state.fds i).sock_conn_id then
      .connected i (o.state.fds i).sock_rport (o.state.fds i).sock_conn_id
    else .quiet
  | _ => .quiet

def SyscallOp.event : Event :=
  if o.rc < 0 then .quiet else op.done env a0 a1 o
end
namespace KState
variable {o : Outcome} {fd : UInt32} {p : PipeSlot}
def event (s : KState) : Syscall → Event
  | .register .. | .unregister _ => .quiet
  | .dispatch env nr a0 a1 a2 a3 =>
    if h : nr.toNat < QOS_SYSCALL_MAX then
      match s.calls ⟨nr.toNat, h⟩ with
      | none => .quiet
      | some (op, value) => op.event env a0 a1 (s.syscall_op env op value a0 a1 a2 a3)
    else .quiet

variable {s s' t : KState} {i j : FdNum} {env : Env} {op : SyscallOp} {a0 a1 : UInt64}
/-- The outcome has the effect that its event names. -/
def Effects (s : KState) (op : SyscallOp) (env : Env) (a0 a1 : UInt64) (o : Outcome) : Prop :=
  s.endpoints.Effect (op.event env a0 a1 o) o.state.endpoints

theorem effects_of_fail (hrc : o.rc < 0) (h : o.state.endpoints = s.endpoints) :
    s.Effects op env a0 a1 o := by
  unfold Effects SyscallOp.event
  rw [if_pos hrc, h]
  exact .same

theorem effects_of_done {n : Nat} (hrc : o.rc = n)
    (h : s.endpoints.Effect (op.done env a0 a1 o) o.state.endpoints) :
    s.Effects op env a0 a1 o := by
  unfold Effects SyscallOp.event
  rw [if_neg (by omega)]
  exact h

/-- The outcome keeps the invariant, and has the effect that its event names. -/
structure Acts (s : KState) (op : SyscallOp) (env : Env) (a0 a1 : UInt64) (o : Outcome) : Prop where
  owns : o.state.Owns
  effects : s.Effects op env a0 a1 o

theorem Unseen.fails (hs : s.Unseen t) (h : s.Owns) : s.Acts op env a0 a1 (.fail t) :=
  ⟨hs.owns h, effects_of_fail (Int.negSucc_lt_zero 0) hs.endpoints⟩

theorem acts_fail (h : s.Owns) : s.Acts op env a0 a1 (.fail s) := (Unseen.refl s).fails h

theorem fdIndex_of_openFd (h : s.openFd fd = some i) : fdIndex fd.toNat = i := by
  unfold openFd at h
  split at h
  next hlt =>
    split at h
    · cases h
      exact fdIndex_val ⟨fd.toNat, hlt⟩
    cases h
  · cases h

theorem fdIndex_of_openSocket (h : s.openSocket fd = some i) : fdIndex fd.toNat = i := by
  unfold openSocket at h
  split at h
  · cases h
  next hj =>
  split at h
  · cases h
    exact fdIndex_of_openFd hj
  cases h

/-! ### Descriptors -/
theorem effects_opened {fd : Fd} (hop : op = .open ∨ op = .socket) (hi : (s.fds i).used = false)
    (hfd : fd.endpoint = .other ∨ fd.endpoint = .stream .fresh)
    (ht : t.endpoints = s.endpoints.setRow i fd.endpoint) :
    s.Effects op env a0 a1 (.ret t i.val) := by
  have hevent : op.done env a0 a1 (.ret t i.val) = .opened i := by
    rcases hop with rfl | rfl
    all_goals exact congrArg Event.opened (fdIndex_val i)
  apply effects_of_done rfl
  rw [hevent, Outcome.ret_state, ht]
  exact .opened (Fd.endpoint_unused hi) hfd

theorem acts_open (h : s.Owns) : s.Acts .open env a0 a1 (s.syscall_op_open env a0) := by
  simp only [syscall_op_open]
  split
  · exact acts_fail h
  split
  next hexists =>
    split
    · exact acts_fail h
    next i s1 hs =>
    obtain ⟨hunused, rfl⟩ := fd_alloc_some hs
    split
    · exact (h.unseen_fd_clear_fresh hunused .vfs).fails h
    next f s2 hf =>
    have hlen := Vfs.path_valid_length (Vfs.qos_vfs_exists_iff.mp hexists).1
    obtain ⟨files', rfl, hfiles⟩ := file_ensure_some hlen hf
    have hfd : ({ Fd.fresh .vfs with file_id := UInt16.ofNat f.val } : Fd).hold = .file f.val := by
      have hmod : f.val % 65536 = f.val := Nat.mod_eq_of_lt (f.isLt.trans (by decide))
      simp [Fd.hold, Fd.fresh, hmod]
    show s.Acts .open env a0 a1 (.ret (({ s with files := files' }.setFd i
      (.fresh .vfs)).setFd i
        { (s.setFd i (.fresh .vfs)).fds i with file_id := UInt16.ofNat f.val }) i.val)
    rw [setFd_setFd, setFd_self]
    refine ⟨h.open_file hunused hexists hfd hfiles, effects_opened (.inl rfl) hunused ?_
      (endpoints_setFd { s with files := files' } i _)⟩
    exact .inl rfl
  · split
    · exact acts_fail h
    split
    · exact acts_fail h
    split
    · exact acts_fail h
    next i s1 hs =>
    obtain ⟨hunused, rfl⟩ := fd_alloc_some hs
    rw [setFd_setFd, setFd_self]
    exact ⟨h.open_plain (Fd.hold_unused hunused) (.inl rfl),
      effects_opened (.inl rfl) hunused (.inl rfl) (endpoints_setFd s i _)⟩

theorem acts_socket (h : s.Owns) : s.Acts .socket env a0 a1 (s.syscall_op_socket a0 a1) := by
  unfold syscall_op_socket
  split
  · exact acts_fail h
  split
  · exact acts_fail h
  next type _ =>
  split
  · exact acts_fail h
  next i s1 hs =>
  obtain ⟨hunused, rfl⟩ := fd_alloc_some hs
  rw [setFd_setFd, setFd_self]
  refine ⟨h.open_plain (Fd.hold_unused hunused) ?_,
    effects_opened (.inr rfl) hunused ?_ (endpoints_setFd s i _)⟩
  · cases type with
    | stream => exact .inr ⟨.stream, rfl⟩
    | dgram => exact .inr ⟨.dgram, rfl⟩
    | raw | none => exact .inl rfl
  cases type with
  | stream => exact .inr rfl
  | dgram | raw | none => exact .inl rfl

theorem acts_close (h : s.Owns) : s.Acts .close env a0 a1 (s.syscall_op_close a0) := by
  unfold syscall_op_close
  split
  · exact acts_fail h
  next i hi =>
  have hu := openFd_some hi
  have hevent : SyscallOp.done .close env a0 a1 (.ret (s.fd_clear i) 0) = .closed i :=
    congrArg Event.closed (fdIndex_of_openFd hi)
  refine ⟨h.fd_clear hu, effects_of_done rfl ?_⟩
  rw [hevent, Outcome.ret_state, h.endpoints_fd_clear hu]
  exact .closed

theorem Owns.vacate (h : s.Owns) (ht : t = if (s.fds i).used then s.fd_clear i else s) :
    t.Owns ∧ (t.fds i).used = false ∧ (∀ j, j ≠ i → t.fds j = s.fds j) ∧
      (∀ p, t.pipes p = s.pipes p ∨ (t.pipes p).used = false) ∧ t.net.conns = s.net.conns := by
  subst ht
  split
  next hopen =>
    obtain ⟨hpipes, hconns⟩ := (s.setFd i .closed).release_frame (s.fds i)
    have hfds : (s.fd_clear i).fds = set s.fds i .closed := by rw [KState.fd_clear, release_fds]; rfl
    rw [hfds, set_self]
    exact ⟨h.fd_clear hopen, rfl, fun j hj => set_ne hj, hpipes, hconns⟩
  next hfree => exact ⟨h, Bool.eq_false_iff.mpr hfree, fun _ _ => rfl, fun _ => .inl rfl, rfl⟩

theorem acts_dup2 (h : s.Owns) : s.Acts .dup2 env a0 a1 (s.syscall_op_dup2 a0 a1) := by
  simp only [syscall_op_dup2]
  split
  · exact acts_fail h
  next old hold =>
  split
  next hlt =>
    have hindex : fdIndex a1.toUInt32.toNat = ⟨a1.toUInt32.toNat, hlt⟩ := fdIndex_val ⟨_, hlt⟩
    generalize (⟨a1.toUInt32.toNat, hlt⟩ : FdNum) = new at hindex ⊢
    have hevent (t : KState) : SyscallOp.done .dup2 env a0 a1 (.ret t a1.toUInt32.toNat) =
        .copied old new :=
      congrArg₂ Event.copied (fdIndex_of_openFd hold) hindex
    split
    next heq =>
      -- a copy onto itself
      refine ⟨h, effects_of_done rfl ?_⟩
      rw [hevent, Outcome.ret_state, ← heq]
      have hsame : s.endpoints.Effect (.copied old old)
          (s.endpoints.collect (set s.endpoints.rows old (s.endpoints.rows old))) := .copied
      rw [set_eq_self, ← h.endpoints_collect (fun _ => .inl rfl) rfl] at hsame
      exact hsame
    next hne =>
    -- the copy is made after the old row has been closed
    generalize ht : (if (s.fds new).used = true then s.fd_clear new else s) = t
    obtain ⟨htowns, hfree, hfds, hpipes, hconns⟩ := h.vacate ht.symm
    have hfd : ({ t.fds old with used := true } : Fd) = s.fds old := by
      rw [hfds old hne, ← openFd_some hold]
    rw [hfd]
    have howns : (t.setFd new (s.fds old)).Owns :=
      htowns.copy (Fd.hold_unused hfree) (congrArg Fd.hold (hfds old hne)).symm
    have hrows : (t.setFd new (s.fds old)).endpoints.rows =
        set s.endpoints.rows new (s.endpoints.rows old) := by
      rw [endpoints_setFd]
      funext j
      show set t.endpoints.rows _ _ j = _
      by_cases hj : j = new
      · rw [hj, set_self, set_self]
        rfl
      rw [set_ne hj, set_ne hj]
      exact congrArg Fd.endpoint (hfds j hj)
    refine ⟨howns, effects_of_done rfl ?_⟩
    rw [hevent, Outcome.ret_state, howns.endpoints_collect hpipes hconns, hrows]
    exact .copied
  · exact acts_fail h

/-! ### Pipes -/
theorem leNat_leBytes (i : FdNum) : fdIndex (leNat (leBytes 4 (.ofNat i.val))) = i := by
  have hall : ∀ i : FdNum, fdIndex (leNat (leBytes 4 (.ofNat i.val))) = i := by
    decide +kernel
  exact hall i

theorem undo_pipes (h : ∀ q, q ≠ p → t.pipes q = s.pipes q ∨ (t.pipes q).used = false)
    (q : PipeSlot) :
    set t.pipes p { t.pipes p with used := false } q = s.pipes q ∨
      (set t.pipes p { t.pipes p with used := false } q).used = false := by
  by_cases hq : q = p
  · rw [hq, set_self]
    exact .inr rfl
  rw [set_ne hq]
  exact h q hq

theorem effects_piped {rfd wfd : FdNum} (hfree : (s.pipes p).used = false)
    (hrfd : (s.fds rfd).used = false) (hwfd : (s.fds wfd).used = false) (hne : wfd ≠ rfd) :
    s.Effects .pipe env a0 a1 ⟨0, [(a0, leBytes 4 (.ofNat rfd.val) ++ leBytes 4 (.ofNat wfd.val))],
        ({ s with pipes := set s.pipes p ⟨true, []⟩ }.setFd rfd
          { Fd.fresh .pipeR with pipe_id := UInt16.ofNat p.val }).setFd wfd
          { Fd.fresh .pipeW with pipe_id := UInt16.ofNat p.val }⟩ := by
  have hmod : (UInt16.ofNat p.val).toNat = p.val := Nat.mod_eq_of_lt (p.isLt.trans (by decide))
  have hbuffered := s.buffered_set p (rfl : (Pipe.mk true []).used = true)
  have hnone : s.buffered p.val = none := by
    unfold buffered
    rw [dif_pos p.isLt, if_neg (Bool.eq_false_iff.mp hfree)]
  have heffect : s.endpoints.Effect (.piped rfd wfd) { s.endpoints with
      rows := set (set s.endpoints.rows rfd (.reader p.val)) wfd (.writer p.val)
      pipes := set s.endpoints.pipes p.val (some []) } :=
    .piped (Fd.endpoint_unused hrfd) (Fd.endpoint_unused hwfd) hne hnone
  have hevent (t : KState) : SyscallOp.done .pipe env a0 a1
      ⟨0, [(a0, leBytes 4 (.ofNat rfd.val) ++ leBytes 4 (.ofNat wfd.val))], t⟩ = .piped rfd wfd :=
    congrArg₂ Event.piped (leNat_leBytes rfd) (leNat_leBytes wfd)
  apply effects_of_done rfl
  rw [hevent]
  dsimp only
  rw [endpoints_setFd, endpoints_setFd, Fd.endpoint_reader rfl rfl, Fd.endpoint_writer rfl rfl, hmod]
  rw [show s.endpoints.pipes = s.buffered from rfl, ← hbuffered] at heffect
  exact heffect

theorem acts_pipe (h : s.Owns) : s.Acts .pipe env a0 a1 (s.syscall_op_pipe a0) := by
  simp only [syscall_op_pipe]
  split
  · exact acts_fail h
  split
  · exact acts_fail h
  next p s1 hp =>
  obtain ⟨hfree, rfl⟩ := pipe_alloc_some hp
  split
  · -- no descriptor at all
    have hstore := h.store.undo_pipe hfree fun _ => .inl rfl
    exact ⟨⟨h.ns, hstore⟩, effects_of_fail (Int.negSucc_lt_zero 0)
      (h.endpoints_eq ⟨h.ns, hstore⟩ rfl (undo_pipes fun q hq => .inl (set_ne hq)) rfl)⟩
  next rfd s2 hr =>
  obtain ⟨hrfd, rfl⟩ := fd_alloc_some hr
  split
  · have howns := h.pipe_undo hfree hrfd (fd_clear_fresh _ _ .pipeR)
    obtain ⟨pipes', hs, hpipes, -⟩ :=
      ({ s with pipes := set s.pipes p ⟨true, []⟩ }.setFd rfd .closed).releasePipe_spec 0
    have hrow : (s.setFd rfd .closed).endpoints = s.endpoints :=
      endpoints_touch (Fd.endpoint_unused hrfd).symm
    refine ⟨howns, effects_of_fail (Int.negSucc_lt_zero 0) ?_⟩
    rw [fd_clear_fresh] at howns ⊢
    apply h.endpoints_eq howns
    · rw [← hrow, hs]
      rfl
    · apply undo_pipes
      intro q hq
      rw [hs]
      rcases hpipes q with heq | ⟨-, heq⟩
      · exact .inl (heq.trans (set_ne hq))
      exact .inr (congrArg Pipe.used heq)
    rw [hs]
    rfl
  next wfd s3 hw =>
  obtain ⟨hwfd, rfl⟩ := fd_alloc_some hw
  have hne : wfd ≠ rfd := by
    intro e
    rw [e, setFd_self] at hwfd
    cases hwfd
  have hmod : p.val % 65536 = p.val := Nat.mod_eq_of_lt (p.isLt.trans (by decide))
  -- only the last set to each of the two rows counts
  rw [setFd_comm hne, setFd_setFd, setFd_ne hne.symm, setFd_self, setFd_comm hne.symm,
    setFd_setFd, setFd_ne hne, setFd_self]
  rw [setFd_ne hne] at hwfd
  refine ⟨h.open_pipe hrfd hwfd hne ?_ ?_, effects_piped hfree hrfd hwfd hne⟩
  all_goals simp [Fd.hold, Fd.fresh, hmod]
end KState
end QosKernel
