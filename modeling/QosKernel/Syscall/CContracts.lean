import QosKernel.Syscall.CEndpointCalls

/-! # Sockets, files and pipes after any run of system calls

The two contracts of the C system call layer, read off the ownership
invariant and stated on the tables of the source.
-/
open Framework
namespace QosKernel
open KState
variable {fd : Fd} {p : UInt16} {s : KState}
section
variable (fd : Fd)
/-- An open descriptor of a bound socket with the local port `port`. -/
def Fd.IsBound (sock_type : SockType) (port : UInt16) : Prop :=
  fd.used = true ∧ fd.kind = .socket ∧ fd.sock_bound = true ∧ fd.sock_type = sock_type ∧
    fd.sock_lport = port

/-- An open descriptor of a listening stream socket with the local port
`port`. -/
def Fd.IsListener (port : UInt16) : Prop :=
  fd.used = true ∧ fd.kind = .socket ∧ fd.sock_type = .stream ∧ fd.sock_listening = true ∧
    fd.sock_lport = port

def Fd.IsEnd (p : PipeSlot) : Prop :=
  fd.used = true ∧ (fd.kind = .pipeR ∨ fd.kind = .pipeW) ∧ fd.pipe_id.toNat = p.val

def Fd.IsOpen (f : FileSlot) : Prop :=
  fd.used = true ∧ fd.kind = .vfs ∧ fd.file_id.toNat = f.val
end
theorem Fd.isBound_iff {t : SockType} (ht : t = .stream ∨ t = .dgram) :
    fd.IsBound t p ↔ fd.hold.binds t p := by
  rw [← holdsPort_iff ht]
  simp [Fd.IsBound, holdsPort, and_assoc]

theorem Fd.isListener_iff : fd.IsListener p ↔ fd.hold.listens p := by
  rw [← listensOn_iff]
  simp [Fd.IsListener, listensOn, and_assoc]

theorem Fd.isEnd_iff {p : PipeSlot} : fd.IsEnd p ↔ fd.hold.refersToPipe p.val := by
  rw [← refersToPipe_iff]
  simp [Fd.IsEnd, refersToPipe, and_assoc]

theorem Fd.isOpen_iff {f : FileSlot} : fd.IsOpen f ↔ fd.hold.refersToFile f.val := by
  rw [← refersToFile_iff]
  simp [Fd.IsOpen, refersToFile, and_assoc]

/-- The four port tables agree with the descriptors. -/
structure KState.PortsInStep (s : KState) : Prop where
  stream : ∀ p, s.stream_ports p = true ↔ ∃ i, (s.fds i).IsBound .stream p
  dgram : ∀ p, s.dgram_ports p = true ↔ ∃ i, (s.fds i).IsBound .dgram p
  udp : ∀ p, (∃ i, (s.fds i).IsBound .dgram p) ↔ s.net.udp.port_is_bound p = true
  tcp : ∀ p, s.net.tcp_listener_exists p = true ↔ ∃ i, (s.fds i).IsListener p

/-- The file and pipe slots agree with the descriptors and the VFS. -/
structure KState.StoreInStep (s : KState) : Prop where
  pipe : ∀ p, (s.pipes p).used = true ↔ ∃ i, (s.fds i).IsEnd p
  opened : ∀ i, (s.fds i).used = true → (s.fds i).kind = .vfs →
    ∃ f, (s.fds i).IsOpen f ∧ (s.files f).used = true
  distinct : ∀ f g, (s.files f).used = true → (s.files g).used = true →
    (s.files f).path = (s.files g).path → (s.files f).path ≠ [] → f = g
  exists_path : ∀ f, (s.files f).used = true → (s.files f).path ≠ [] →
    s.vfs.qos_vfs_exists (s.files f).path = true
  unlinked : ∀ f, (s.files f).used = true → (s.files f).path = [] → ∃ i, (s.fds i).IsOpen f
  file_len : ∀ f, (s.files f).len ≤ 1024
  pipe_len : ∀ p, (s.pipes p).buf.length ≤ 1024

theorem KState.Owns.portsInStep (h : s.Owns) : s.PortsInStep where
  stream p := by
    simp only [Fd.isBound_iff (.inl rfl)]
    exact ⟨h.ns.stream.held p, h.ns.stream.live p⟩
  dgram p := by
    simp only [Fd.isBound_iff (.inr rfl)]
    exact ⟨h.ns.dgram.held p, h.ns.dgram.live p⟩
  udp p := by
    simp only [Fd.isBound_iff (.inr rfl), Udp.port_is_bound_iff]
    exact ⟨h.ns.udp.live p, h.ns.udp.held p⟩
  tcp p := by
    simp only [Fd.isListener_iff, Net.tcp_listener_exists_iff]
    exact ⟨h.ns.tcp.held p, h.ns.tcp.live p⟩

theorem KState.Owns.storeInStep (h : s.Owns) : s.StoreInStep where
  pipe p := by
    simp only [Fd.isEnd_iff]
    rw [← slotIs_val (P := fun q : Pipe => q.used = true)]
    exact ⟨h.store.pipe.held p.val, h.store.pipe.live p.val⟩
  opened i hu hk := by
    have hrow : (s.holds i).refersToFile (s.fds i).file_id.toNat := by
      rw [holds, ← refersToFile_iff]
      simp [refersToFile, hu, hk]
    obtain ⟨hlt, hused⟩ := h.store.file.live _ ⟨i, hrow⟩
    exact ⟨⟨_, hlt⟩, ⟨hu, hk, rfl⟩, hused⟩
  distinct f g hf hg heq hne := h.store.paths_distinct f g _ ⟨hf, rfl, hne⟩ ⟨hg, heq.symm, hne⟩
  exists_path f hf hne := Vfs.qos_vfs_exists_iff.mpr (h.store.paths_exist f _ ⟨hf, rfl, hne⟩)
  unlinked f hf hpath := by
    simp only [Fd.isOpen_iff]
    exact h.store.file.held f.val (slotIs_val.mpr ⟨hf, hpath⟩)
  file_len := h.store.file_len
  pipe_len := h.store.pipe_len

/-! ### The contracts -/
/-- In every state that system calls lead to, a stream port is marked exactly
if an open stream socket is bound to it, a datagram port is marked exactly
if an open datagram socket is bound to it and exactly if it is in the UDP
table, and a TCP port has a listener exactly if an open socket listens on
it. -/
theorem c_socket_namespace (vfs : Vfs) (tr : List Syscall) (s : KState)
    (hr : (syscallRuns vfs).Reach anyStep tr s) : s.PortsInStep :=
  (owns_of_reach hr).portsInStep

/-- A caller with a socket address for port 5000 at address 1, and the string
`/f` at every address. -/
def plainEnv : Env where
  byte a := if a == 3 then 19 else if a == 4 then 136 else 0
  str _ := [47, 102]
  stack _ := 0
  proc_alive _ := false
  init_state := 0
  pmm_total_pages := 0
  pmm_free_pages := 0
  sched_count := 0
  drivers_count := 0
  proc_count := 0
  runtime_map := []
  other _ := (-1, [])

def bindCalls : List Syscall :=
  [.register 14 30 0, .register 15 31 0, .dispatch plainEnv 14 2 1 0 0,
    .dispatch plainEnv 15 0 1 8 0]

/-- The run ends in a state with a marked port. -/
theorem c_socket_namespace_bound :
    (bindCalls.foldl call (.reset .reset)).stream_ports 5000 = true ∧
      (bindCalls.foldl call (.reset .reset)).PortsInStep :=
  ⟨by decide +kernel, c_socket_namespace .reset bindCalls _ (System.reach_of_exec rfl)⟩

/-- In every state that system calls lead to, pipe slots are in use exactly if
an end is open, descriptors refer to file slots in use, named file slots
have different paths, all of which exist, unnamed ones are open, and no
length exceeds 1024. -/
theorem c_file_store (vfs : Vfs) (tr : List Syscall) (s : KState)
    (hr : (syscallRuns vfs).Reach anyStep tr s) : s.StoreInStep :=
  (owns_of_reach hr).storeInStep

/-- A run that makes a path, opens it, unlinks it and makes a pipe. -/
def unlinkCalls : List Syscall :=
  [.register 5 21 0, .register 22 17 0, .register 23 18 0, .register 26 39 0,
    .dispatch plainEnv 22 1 0 0 0, .dispatch plainEnv 5 1 0 0 0, .dispatch plainEnv 23 1 0 0 0,
    .dispatch plainEnv 26 1 0 0 0]

/-- The run ends in a state with a pipe and with an open file that has no name
any more. -/
theorem c_file_store_unlinked :
    ((unlinkCalls.foldl call (.reset .reset)).files ⟨0, by decide⟩).used = true ∧
    ((unlinkCalls.foldl call (.reset .reset)).files ⟨0, by decide⟩).path = [] ∧
    ((unlinkCalls.foldl call (.reset .reset)).pipes ⟨0, by decide⟩).used = true ∧
    (unlinkCalls.foldl call (.reset .reset)).StoreInStep := by
  refine ⟨by decide +kernel, by decide +kernel, by decide +kernel, ?_⟩
  apply c_file_store .reset unlinkCalls
  exact System.reach_of_exec rfl
end QosKernel
