import QosKernel.Net.UdpDelivery
import QosKernel.Syscall.COwnership

/-! # The ownership invariant of the kernel state

`KState.Owns` says that the tables of a state are in step with its
descriptors. This module shows what the pieces of the system calls do to
it: writing a row, taking and giving back ports, closing a descriptor.
-/
open Framework
namespace QosKernel
variable {fd : Fd}
/-! ### What a descriptor holds -/
def Fd.key (fd : Fd) : SockKey :=
  ⟨fd.sock_type, fd.sock_bound, fd.sock_listening, fd.sock_lport⟩

/-- A raw socket and a `/proc` descriptor hold nothing. -/
def Fd.hold (fd : Fd) : Hold :=
  if fd.used then
    match fd.kind with
    | .socket =>
      match fd.sock_type with
      | .stream | .dgram => .socket fd.key
      | .raw | .none => .nothing
    | .vfs => .file fd.file_id.toNat
    | .pipeR | .pipeW => .pipe fd.pipe_id.toNat
    | .proc | .none => .nothing
  else .nothing

theorem Fd.hold_unused (h : fd.used = false) : fd.hold = .nothing := by simp [Fd.hold, h]

theorem Fd.hold_socket (hu : fd.used = true) (hk : fd.kind = .socket)
    (ht : fd.sock_type = .stream ∨ fd.sock_type = .dgram) : fd.hold = .socket fd.key := by
  rcases ht with ht | ht <;> simp [Fd.hold, hu, hk, ht]

theorem Fd.hold_raw (hk : fd.kind = .socket) (ht : fd.sock_type = .raw) : fd.hold = .nothing := by
  simp [Fd.hold, hk, ht]

theorem Fd.boundTo_self (h : fd.sock_bound = true) : fd.boundTo fd.sock_lport = fd := by
  cases fd
  cases h
  rfl

/-- The fields of `fd` say that it listens on `p`. -/
def Fd.namesListener (fd : Fd) (p : UInt16) : Prop :=
  fd.kind = .socket ∧ fd.sock_type = .stream ∧ fd.sock_listening = true ∧ fd.sock_lport = p

/-- The fields of `fd` say that it is bound to `p`. -/
def Fd.namesPort (fd : Fd) (t : SockType) (p : UInt16) : Prop :=
  fd.kind = .socket ∧ fd.sock_bound = true ∧ fd.sock_type = t ∧ fd.sock_lport = p

/-- The fields of `fd` name all that `h` holds. -/
structure Fd.Names (fd : Fd) (h : Hold) : Prop where
  pipe : ∀ p, h.refersToPipe p → p = fd.pipe_id.toNat
  file : ∀ f, h.refersToFile f → f = fd.file_id.toNat
  binds : ∀ t p, h.binds t p → fd.namesPort t p
  listens : ∀ p, h.listens p → fd.namesListener p

theorem Fd.names_nothing (fd : Fd) : fd.Names .nothing :=
  ⟨fun _ => False.elim, fun _ => False.elim, fun _ _ => False.elim, fun _ => False.elim⟩

theorem Fd.names_hold (fd : Fd) : fd.Names fd.hold := by
  unfold Fd.hold
  split
  · split
    next hk =>
      split
      · exact ⟨fun _ => False.elim, fun _ => False.elim,
          fun t p h => ⟨hk, h.2.1, h.1, h.2.2⟩, fun p h => ⟨hk, h⟩⟩
      · exact ⟨fun _ => False.elim, fun _ => False.elim,
          fun t p h => ⟨hk, h.2.1, h.1, h.2.2⟩, fun p h => ⟨hk, h⟩⟩
      all_goals exact fd.names_nothing
    · exact ⟨fun _ => False.elim, fun _ => Eq.symm, fun _ _ => False.elim, fun _ => False.elim⟩
    · exact ⟨fun _ => Eq.symm, fun _ => False.elim, fun _ _ => False.elim, fun _ => False.elim⟩
    · exact ⟨fun _ => Eq.symm, fun _ => False.elim, fun _ _ => False.elim, fun _ => False.elim⟩
    all_goals exact fd.names_nothing
  exact fd.names_nothing

namespace KState
variable {n : Nat} {fd : Fd} {p : UInt16} {t : SockType} {s : KState}
def holds (s : KState) : FdNum → Hold := fun i => (s.fds i).hold

theorem holds_setFd (s : KState) (i : FdNum) (fd : Fd) :
    (s.setFd i fd).holds = set s.holds i fd.hold :=
  set_comp Fd.hold

/-! ### The scans over the descriptors -/
theorem refersToFile_iff : refersToFile n fd = true ↔ fd.hold.refersToFile n := by
  unfold refersToFile Fd.hold
  cases fd.used <;> cases fd.kind <;> cases fd.sock_type <;> simp [Hold.refersToFile]

theorem refersToPipe_iff : refersToPipe n fd = true ↔ fd.hold.refersToPipe n := by
  unfold refersToPipe Fd.hold
  cases fd.used <;> cases fd.kind <;> cases fd.sock_type <;> simp [Hold.refersToPipe]

theorem listensOn_iff : listensOn p fd = true ↔ fd.hold.listens p := by
  unfold listensOn Fd.hold
  cases fd.used <;> cases fd.kind <;> cases ht : fd.sock_type <;>
    simp [Hold.listens, Fd.key, ht]

theorem holdsPort_iff (ht : t = .stream ∨ t = .dgram) :
    holdsPort t p fd = true ↔ fd.hold.binds t p := by
  unfold holdsPort Fd.hold
  rcases ht with rfl | rfl <;> (cases fd.used <;> cases fd.kind <;> cases ht : fd.sock_type <;>
      simp [Hold.binds, Fd.key, ht])

theorem file_has_refs_iff : s.file_has_refs n = true ↔ Held Hold.refersToFile s.holds n := by
  simp only [file_has_refs, first_isSome, refersToFile_iff]
  rfl

theorem pipe_in_use_iff : s.pipe_in_use n = true ↔ Held Hold.refersToPipe s.holds n := by
  simp only [pipe_in_use, first_isSome, refersToPipe_iff]
  rfl

theorem socket_listener_in_use_iff :
    s.socket_listener_in_use p = true ↔ Held Hold.listens s.holds p := by
  simp only [socket_listener_in_use, first_isSome, listensOn_iff]
  rfl

theorem socket_port_in_use_iff (ht : t = .stream ∨ t = .dgram) :
    s.socket_port_in_use p t = true ↔ Held (Hold.binds t) s.holds p := by
  simp only [socket_port_in_use, first_isSome, holdsPort_iff ht]
  rfl

/-! ### The invariant -/
/-- The tables are in step with the descriptors. -/
structure Owns (s : KState) : Prop where
  ns : Namespace s.holds s.stream_ports s.dgram_ports s.net.udp.ports s.net.listeners
  store : Store s.holds s.files s.pipes s.vfs.nodes

namespace Owns
variable {t : KState} {s : KState} {i : FdNum} {fd : Fd}
section
variable (h : s.Owns)
include h
theorem touch (hfd : fd.hold = (s.fds i).hold) : (s.setFd i fd).Owns := by
  have hholds : (s.setFd i fd).holds = s.holds := by
    rw [holds_setFd, hfd]
    exact set_eq_self
  constructor
  · rw [hholds]
    exact h.ns
  rw [hholds]
  exact h.store

theorem net {net : Net} (hudp : net.udp.ports = s.net.udp.ports)
    (htcp : net.listeners = s.net.listeners) : Owns { s with net := net } where
  ns := by
    have := h.ns
    rw [← hudp, ← htcp] at this
    exact this
  store := h.store

theorem share (hi : (s.fds i).hold = .nothing)
    (hok : ∀ k, fd.hold = .socket k → k.Ok) (hwithin : fd.hold.Within s.holds) :
    (s.setFd i fd).Owns := by
  have hnone : s.holds i = .nothing := hi
  constructor
  · rw [holds_setFd]
    apply h.ns.share
    · rw [hnone]
      exact ⟨fun _ _ => id, fun _ => id⟩
    · exact hok
    · exact hwithin.binds
    exact hwithin.listens
  rw [holds_setFd]
  apply h.store.share
  · rw [hnone]
    trivial
  · exact fun p hp => h.store.pipe.live p (hwithin.pipe p hp)
  exact fun f hf => h.store.file.live f (hwithin.file f hf)

theorem open_plain (hi : (s.fds i).hold = .nothing)
    (hfd : fd.hold = .nothing ∨ ∃ t, fd.hold = .socket ⟨t, false, false, 0⟩) :
    (s.setFd i fd).Owns := by
  apply h.share hi
  · intro k hk
    rcases hfd with hfd | ⟨t, hfd⟩
    · rw [hfd] at hk
      cases hk
    obtain rfl := Hold.socket.inj (hfd.symm.trans hk)
    exact ⟨fun _ => ⟨rfl, rfl⟩, fun hb => by cases hb⟩
  rcases hfd with hfd | ⟨t, hfd⟩
  · rw [hfd]
    exact ⟨fun _ _ => False.elim, fun _ => False.elim, fun _ => False.elim, fun _ => False.elim⟩
  rw [hfd]
  exact ⟨fun _ _ hp => Bool.noConfusion hp.2.1, fun _ hp => Bool.noConfusion hp.2.1,
    fun _ => False.elim, fun _ => False.elim⟩

/-- The ports of a socket change, together with the port tables. -/
theorem rekey {k k' : SockKey} (hrow : (s.fds i).hold = .socket k)
    (hnew : fd.hold = .socket k') (hfds : t.fds = s.fds) (hfiles : t.files = s.files)
    (hpipes : t.pipes = s.pipes) (hvfs : t.vfs = s.vfs)
    (hns : Namespace (set s.holds i (.socket k')) t.stream_ports t.dgram_ports t.net.udp.ports
      t.net.listeners) : (t.setFd i fd).Owns := by
  have hrow : s.holds i = .socket k := hrow
  have hfds : t.holds = s.holds := funext fun j => congrArg Fd.hold (congrFun hfds j)
  have hholds : (t.setFd i fd).holds = set s.holds i (.socket k') := by rw [holds_setFd, hnew, hfds]
  constructor
  · rw [hholds]
    exact hns
  rw [hholds]
  show Store _ t.files t.pipes t.vfs.nodes
  rw [hfiles, hpipes, hvfs]
  apply h.store.frame
  · rw [hrow]
    trivial
  trivial

theorem reload (hrow : (s.fds i).hold.noSocket) (hnew : fd.hold.noSocket)
    (hfds : t.fds = s.fds) (hstream : t.stream_ports = s.stream_ports)
    (hdgram : t.dgram_ports = s.dgram_ports) (hnet : t.net = s.net)
    (hstore : Store (set s.holds i fd.hold) t.files t.pipes t.vfs.nodes) : (t.setFd i fd).Owns := by
  have hfds : t.holds = s.holds := funext fun j => congrArg Fd.hold (congrFun hfds j)
  have hholds : (t.setFd i fd).holds = set s.holds i fd.hold := by rw [holds_setFd, hfds]
  constructor
  · rw [hholds]
    show Namespace _ t.stream_ports t.dgram_ports t.net.udp.ports t.net.listeners
    rw [hstream, hdgram, hnet]
    exact h.ns.frame hrow hnew
  rw [hholds]
  exact hstore

theorem copy (hi : (s.fds i).hold = .nothing) {j : FdNum}
    (hfd : fd.hold = (s.fds j).hold) : (s.setFd i fd).Owns := by
  have hcopy : fd.hold = s.holds j := hfd
  apply h.share hi
  · rw [hcopy]
    exact h.ns.keys j
  rw [hcopy]
  exact ⟨fun _ _ hp => ⟨j, hp⟩, fun _ hp => ⟨j, hp⟩, fun _ hp => ⟨j, hp⟩, fun _ hp => ⟨j, hp⟩⟩
end
end Owns
/-! ### Giving back

For each part of `release`, what it does to its table; `s` is the state in
which the row is cleared already. -/
variable (s : KState)
theorem releasePipe_spec (pipe_id : UInt16) :
    ∃ pipes', s.releasePipe pipe_id = { s with pipes := pipes' } ∧
      (∀ p, pipes' p = s.pipes p ∨ (¬Held Hold.refersToPipe s.holds p.val ∧ pipes' p = .empty)) ∧
      GivenBack Hold.refersToPipe (· = pipe_id.toNat) s.holds
        (SlotIs (·.used = true) s.pipes) (SlotIs (·.used = true) s.pipes)
        (SlotIs (·.used = true) pipes') (SlotIs (·.used = true) pipes') := by
  unfold releasePipe
  by_cases h : pipe_id.toNat < QOS_PIPE_MAX
  · rw [dif_pos h]
    split
    next hp =>
      -- another end of the pipe is open
      refine ⟨s.pipes, rfl, fun _ => .inl rfl, .nothing fun r _ hn => ?_⟩
      rw [hn]
      exact pipe_in_use_iff.mp hp
    next hp =>
    have hnot := mt pipe_in_use_iff.mpr hp
    refine ⟨_, rfl, fun p => ?_, .one hnot (fun _ => id) ?_ ?_⟩
    · by_cases he : p = ⟨pipe_id.toNat, h⟩
      · exact .inr ⟨he ▸ hnot, by rw [he, set_self]⟩
      exact .inl (set_ne he)
    · intro r hr
      rcases slotIs_set.mp hr with ⟨-, hu⟩ | ⟨hne, hr⟩
      · cases hu
      exact ⟨hr, hne⟩
    exact fun r hr hne => slotIs_set.mpr (.inr ⟨hne, hr⟩)
  rw [dif_neg h]
  refine ⟨s.pipes, rfl, fun _ => .inl rfl, .nothing fun r hr hn => ?_⟩
  exact absurd (hn ▸ hr.1) h

theorem releaseFile_spec (file_id : UInt16) :
    ∃ files', s.releaseFile file_id = { s with files := files' } ∧
      (∀ f, files' f = s.files f ∨ files' f = .empty) ∧
      GivenBack Hold.refersToFile (· = file_id.toNat) s.holds
        (SlotIs File.Unlinked s.files) (SlotIs (·.used = true) s.files)
        (SlotIs File.Unlinked files') (SlotIs (·.used = true) files') := by
  unfold releaseFile
  by_cases h : file_id.toNat < QOS_FILE_MAX
  · rw [dif_pos h]
    split
    next hc =>
      simp only [Bool.and_eq_true, Bool.not_eq_true', ← Bool.not_eq_true] at hc
      refine ⟨_, rfl, fun f => ?_, .one (mt file_has_refs_iff.mpr hc.2) (fun _ => id) ?_ ?_⟩
      · by_cases he : f = ⟨file_id.toNat, h⟩
        · exact .inr (by rw [he, set_self])
        exact .inl (set_ne he)
      · intro r hr
        rcases slotIs_set.mp hr with ⟨-, hu⟩ | ⟨hne, hr⟩
        · exact absurd hu.1 (by decide)
        exact ⟨hr, hne⟩
      exact fun r hr hne => slotIs_set.mpr (.inr ⟨hne, hr⟩)
    next hc =>
    refine ⟨s.files, rfl, fun _ => .inl rfl, .nothing fun r hr hn => ?_⟩
    -- an unlinked file that is not dropped has a descriptor
    subst hn
    obtain ⟨_, hu, hpath⟩ := hr
    rw [← file_has_refs_iff]
    simpa [hu, hpath] using hc
  rw [dif_neg h]
  refine ⟨s.files, rfl, fun _ => .inl rfl, .nothing fun r hr hn => ?_⟩
  exact absurd (hn ▸ hr.1) h
end KState
namespace Net
theorem tcp_listener_exists_iff {s : Net} {port : UInt16} :
    s.tcp_listener_exists port = true ↔ Registered s.listeners port := by
  rw [tcp_listener_exists, first_isSome]
  simp [Registered]

theorem qos_net_tcp_unlisten_cases (s : Net) (port : UInt16) :
    (∃ l, s.listeners l = some port ∧
      s.qos_net_tcp_unlisten port = (0, { s with listeners := set s.listeners l none })) ∨
    (¬Registered s.listeners port ∧ s.qos_net_tcp_unlisten port = (-1, s)) := by
  unfold qos_net_tcp_unlisten
  split
  next l hl => exact .inl ⟨l, by simpa using first_some hl, rfl⟩
  next hl =>
  refine .inr ⟨fun ⟨l, hp⟩ => ?_, rfl⟩
  have := first_none.mp hl l
  simp [hp] at this
end Net
namespace KState
variable {port : UInt16} {rows : FdNum → Hold} {holds : Hold → UInt16 → Prop}
variable {named : UInt16 → Prop} {s : KState}
section
variable (s : KState)
theorem releaseListener_spec (fd : Fd) (hd : Distinct s.net.listeners) :
    ∃ listeners', s.releaseListener fd = { s with net := { s.net with listeners := listeners' } } ∧
      Distinct listeners' ∧
      GivenBack Hold.listens fd.namesListener s.holds
        (Registered s.net.listeners) (Registered s.net.listeners)
        (Registered listeners') (Registered listeners') := by
  unfold releaseListener
  split
  next hc =>
    simp only [Bool.and_eq_true, Bool.not_eq_true', ← Bool.not_eq_true] at hc
    rcases s.net.qos_net_tcp_unlisten_cases fd.sock_lport with ⟨l, hl, heq⟩ | ⟨hnot, heq⟩
    · rw [heq]
      refine ⟨_, rfl, hd.remove, .one (mt socket_listener_in_use_iff.mpr hc.2)
        (fun r hr => hr.2.2.2.symm) ?_ ?_⟩
      · exact fun r hr => (registered_remove hd hl).mp hr
      exact fun r hr hne => (registered_remove hd hl).mpr ⟨hr, hne⟩
    rw [heq]
    refine ⟨_, rfl, hd, .nothing fun r hr hn => ?_⟩
    exact absurd (hn.2.2.2 ▸ hr) hnot
  next hc =>
  refine ⟨_, rfl, hd, .nothing fun r _ ⟨hk, ht, hl, hp⟩ => ?_⟩
  rw [← hp, ← socket_listener_in_use_iff]
  simpa [hk, ht, hl] using hc

theorem socket_port_unmark_stream (hp : QOS_SOCK_PORT_MIN ≤ port) :
    s.socket_port_unmark .stream port =
      { s with stream_ports := fun p => p != port && s.stream_ports p } := by
  simp [socket_port_unmark, UInt16.not_lt.mpr hp]

theorem socket_port_unmark_dgram (hp : QOS_SOCK_PORT_MIN ≤ port) :
    s.socket_port_unmark .dgram port =
      { s with dgram_ports := fun p => p != port && s.dgram_ports p } := by
  simp [socket_port_unmark, UInt16.not_lt.mpr hp]
end
theorem givenBack_unmark {bits : UInt16 → Bool} (hnot : ¬Held holds rows port)
    (hnamed : ∀ p, named p → p = port) :
    GivenBack holds named rows (bits · = true) (bits · = true)
      (fun p => (p != port && bits p) = true) (fun p => (p != port && bits p) = true) := by
  apply GivenBack.one hnot hnamed
  · intro p hp
    simpa [and_comm] using hp
  intro p hp hne
  simp [hp, hne]

theorem givenBack_unbind {udp : Udp} (hd : Distinct udp.ports) (hnot : ¬Held holds rows port)
    (hnamed : ∀ p, named p → p = port) :
    Distinct (CUdp.qos_net_udp_unbind udp port).2.ports ∧
      GivenBack holds named rows (Registered udp.ports) (Registered udp.ports)
        (Registered (CUdp.qos_net_udp_unbind udp port).2.ports)
        (Registered (CUdp.qos_net_udp_unbind udp port).2.ports) := by
  unfold CUdp.qos_net_udp_unbind Udp.unbind_port
  cases hf : first fun i => udp.ports i == some port with
  | none =>
    refine ⟨hd, .nothing fun p hp hn => ?_⟩
    obtain ⟨j, hj⟩ := hnamed p hn ▸ hp
    have := first_none.mp hf j
    simp [hj] at this
  | some u =>
  have hu : udp.ports u = some port := by simpa using first_some hf
  refine ⟨hd.remove, .one hnot hnamed ?_ ?_⟩
  · exact fun p hp => (registered_remove hd hu).mp hp
  exact fun p hp hne => (registered_remove hd hu).mpr ⟨hp, hne⟩

/-- The port tables after the port of `fd` was given back. -/
structure PortReleased (s : KState) (fd : Fd) (stream_ports' dgram_ports' : UInt16 → Bool)
    (udp' : Udp) : Prop where
  distinct : Distinct udp'.ports
  stream : GivenBack (Hold.binds .stream) (fd.namesPort .stream) s.holds
    (s.stream_ports · = true) (s.stream_ports · = true)
    (stream_ports' · = true) (stream_ports' · = true)
  dgram : GivenBack (Hold.binds .dgram) (fd.namesPort .dgram) s.holds
    (s.dgram_ports · = true) (s.dgram_ports · = true)
    (dgram_ports' · = true) (dgram_ports' · = true)
  udp : GivenBack (Hold.binds .dgram) (fd.namesPort .dgram) s.holds
    (Registered s.net.udp.ports) (Registered s.net.udp.ports)
    (Registered udp'.ports) (Registered udp'.ports)

theorem PortReleased.nothing {fd : Fd} (hd : Distinct s.net.udp.ports)
    (h : ∀ t p, t = .stream ∨ t = .dgram → fd.namesPort t p → Held (Hold.binds t) s.holds p) :
    PortReleased s fd s.stream_ports s.dgram_ports s.net.udp where
  distinct := hd
  stream := .nothing fun p _ hp => h .stream p (.inl rfl) hp
  dgram := .nothing fun p _ hp => h .dgram p (.inr rfl) hp
  udp := .nothing fun p _ hp => h .dgram p (.inr rfl) hp

section
variable (s : KState)
theorem releasePort_spec (fd : Fd) (hd : Distinct s.net.udp.ports)
    (hmin : ∀ t p, t = .stream ∨ t = .dgram → fd.namesPort t p → QOS_SOCK_PORT_MIN ≤ p) :
    ∃ stream_ports' dgram_ports' udp', s.releasePort fd = { s with
        stream_ports := stream_ports', dgram_ports := dgram_ports'
        net := { s.net with udp := udp' } } ∧
      PortReleased s fd stream_ports' dgram_ports' udp' := by
  unfold releasePort
  split
  next hc =>
    simp only [Bool.and_eq_true, beq_iff_eq, Bool.not_eq_true', ← Bool.not_eq_true] at hc
    obtain ⟨⟨hk, hb⟩, hnot⟩ := hc
    have hnamed : ∀ t p, fd.namesPort t p → p = fd.sock_lport := fun t p h => h.2.2.2.symm
    cases ht : fd.sock_type with
    | stream =>
      rw [ht, socket_port_in_use_iff (.inl rfl)] at hnot
      have hp := hmin .stream _ (.inl rfl) ⟨hk, hb, ht, rfl⟩
      have hdgram : ∀ p, ¬fd.namesPort .dgram p := fun p h => by simp [h.2.2.1] at ht
      refine ⟨_, _, _, socket_port_unmark_stream s hp, hd, givenBack_unmark hnot (hnamed _),
        .nothing fun p _ h => absurd h (hdgram p), .nothing fun p _ h => absurd h (hdgram p)⟩
    | dgram =>
      rw [ht, socket_port_in_use_iff (.inr rfl)] at hnot
      have hp := hmin .dgram _ (.inr rfl) ⟨hk, hb, ht, rfl⟩
      have hstream : ∀ p, ¬fd.namesPort .stream p := fun p h => by simp [h.2.2.1] at ht
      obtain ⟨hd', hudp⟩ := givenBack_unbind hd hnot (hnamed .dgram)
      exact ⟨_, _, _, socket_port_unmark_dgram _ hp, hd',
        .nothing fun p _ h => absurd h (hstream p), givenBack_unmark hnot (hnamed _), hudp⟩
    | raw | none =>
      refine ⟨_, _, _, ?_, .nothing hd fun t p hor h => ?_⟩
      · simp [socket_port_unmark]
      simp [← h.2.2.1, ht] at hor
  next hc =>
  refine ⟨_, _, _, rfl, .nothing hd fun t p hor ⟨hk, hb, ht, hp⟩ => ?_⟩
  rw [← hp, ← socket_port_in_use_iff hor]
  simpa [hk, hb, ht] using hc

theorem socket_port_unmark_fds (t : SockType) (port : UInt16) :
    (s.socket_port_unmark t port).fds = s.fds := by
  unfold socket_port_unmark
  split
  · rfl
  cases t <;> rfl

theorem releasePort_fds (fd : Fd) : (s.releasePort fd).fds = s.fds := by
  simp only [releasePort]
  split
  · rw [socket_port_unmark_fds]
    split <;> rfl
  rfl

theorem release_fds (fd : Fd) : (s.release fd).fds = s.fds := by
  obtain ⟨_, hpipe, -⟩ := s.releasePipe_spec fd.pipe_id
  obtain ⟨_, hfile, -⟩ := (s.releasePipe fd.pipe_id).releaseFile_spec fd.file_id
  have hlistener (t : KState) : (t.releaseListener fd).fds = t.fds := by
    unfold releaseListener
    split <;> rfl
  rw [release, releasePort_fds, hlistener, hfile, hpipe]
end
/-! ### Closing a descriptor -/
namespace Owns
variable {s : KState} {i : FdNum} {fd : Fd}
theorem release (h : s.Owns) (hnames : fd.Names (s.fds i).hold)
    (hmin : ∀ t p, t = .stream ∨ t = .dgram → fd.namesPort t p → QOS_SOCK_PORT_MIN ≤ p) :
    ((s.setFd i .closed).release fd).Owns := by
  have hholds : (s.setFd i .closed).holds = set s.holds i .nothing := holds_setFd s i _
  have hi : s.holds i = (s.fds i).hold := rfl
  rw [← hi] at hnames
  unfold KState.release
  obtain ⟨pipes', hs, hpipes, hpipe⟩ := (s.setFd i .closed).releasePipe_spec fd.pipe_id
  rw [hs]
  obtain ⟨files', hs, hfiles, hfile⟩ :=
    { s.setFd i .closed with pipes := pipes' }.releaseFile_spec fd.file_id
  rw [hs]
  obtain ⟨listeners', hs, htcp_distinct, htcp⟩ :=
    { s.setFd i .closed with pipes := pipes', files := files' }.releaseListener_spec fd
      h.ns.tcp_distinct
  rw [hs]
  obtain ⟨stream_ports', dgram_ports', udp', hs, hport⟩ :=
    KState.releasePort_spec { s.setFd i .closed with
      pipes := pipes', files := files', net := { s.net with listeners := listeners' } }
      fd h.ns.udp_distinct hmin
  show KState.Owns (KState.releasePort { s.setFd i .closed with
      pipes := pipes', files := files', net := { s.net with listeners := listeners' } } fd)
  rw [hs]
  constructor
  · show Namespace (s.setFd i .closed).holds stream_ports' dgram_ports' udp'.ports listeners'
    obtain ⟨hudp_distinct, hstream, hdgram, hudp⟩ := hport
    change GivenBack _ _ (s.setFd i .closed).holds _ _ _ _ at hstream hdgram hudp htcp
    rw [hholds] at hstream hdgram hudp htcp ⊢
    exact {
      keys := h.ns.keys_set fun k hk => by cases hk
      stream := h.ns.stream.close (fun _ => id) (hnames.binds _) hstream
      dgram := h.ns.dgram.close (fun _ => id) (hnames.binds _) hdgram
      udp := h.ns.udp.close (fun _ => id) (hnames.binds _) hudp
      tcp := h.ns.tcp.close (fun _ => id) hnames.listens htcp
      udp_distinct := hudp_distinct
      tcp_distinct := htcp_distinct }
  show Store (s.setFd i .closed).holds files' pipes' s.vfs.nodes
  change GivenBack _ _ (s.setFd i .closed).holds _ _ _ _ at hpipe hfile
  rw [hholds] at hpipe hfile ⊢
  apply h.store.clear
  · exact h.store.pipe.close (fun _ => id) hnames.pipe hpipe
  · exact h.store.file.close (fun _ => id) hnames.file hfile
  · exact fun p => (hpipes p).imp_right And.right
  exact hfiles

theorem fd_clear (h : s.Owns) (hu : (s.fds i).used = true) : (s.fd_clear i).Owns := by
  apply h.release (Fd.names_hold _)
  intro t p ht ⟨hk, hb, htype, hp⟩
  have hold := Fd.hold_socket hu hk (htype ▸ ht)
  exact hp ▸ (h.ns.keys i _ hold).bound hb

theorem releasePipe (h : s.Owns) (pipe_id : UInt16) : (s.releasePipe pipe_id).Owns := by
  obtain ⟨pipes', hs, hpipes, hpipe⟩ := s.releasePipe_spec pipe_id
  rw [hs]
  exact ⟨h.ns, h.store.clear (h.store.pipe.giveBack hpipe) h.store.file
    (fun p => (hpipes p).imp_right And.right) fun _ => .inl rfl⟩
end Owns
theorem fd_clear_fresh (s : KState) (i : FdNum) (kind : FdKind) :
    (s.setFd i (.fresh kind)).fd_clear i = (s.setFd i .closed).releasePipe 0 := by
  have hfd : (s.setFd i (.fresh kind)).fds i = .fresh kind := set_self
  have hset : (s.setFd i (.fresh kind)).setFd i .closed = s.setFd i .closed := by
    simp only [setFd, set_set]
  rw [KState.fd_clear, hset, hfd, release]
  simp [Fd.fresh, releaseFile, releaseListener, releasePort, QOS_FILE_MAX]

theorem Owns.fd_clear_fresh {i : FdNum} (h : s.Owns) (hi : (s.fds i).used = false)
    (kind : FdKind) : ((s.setFd i (.fresh kind)).fd_clear i).Owns := by
  have hclosed : Fd.closed.hold = (s.fds i).hold := (Fd.hold_unused hi).symm
  rw [KState.fd_clear_fresh]
  exact (h.touch hclosed).releasePipe 0
end KState
end QosKernel
