import QosKernel.Framework.RefCount
import QosKernel.Syscall.Packets
import QosKernel.Syscall.RustFileCalls

/-! # The sizes that the Rust system calls rely on

Buffers never hold more than they have room for, stored paths are short,
and the registry of paths counts its entries. The calls on files, pipes,
sockets and descriptors keep this, and with it none of their checks fails.
They also keep the names of files apart and in the registry, and only the
data of local streams changes the packet queue: `TableStep` says so.
-/
open Framework Framework.Checked
namespace QosKernel
open KState.QuietMove
variable {s s' : KState}
structure File.Sized (file : File) : Prop where
  path : file.path.length < QOS_VFS_PATH_MAX
  len : file.len ≤ QOS_PIPE_CAP

theorem File.sized_empty : File.empty.Sized := ⟨by decide, by decide⟩

structure Vfs.Sized (v : Vfs) : Prop where
  paths : ∀ i path, v.nodes i = some path → path.length < QOS_VFS_PATH_MAX
  count : v.count.toNat = slotCount Option.isSome v.nodes

/-- The sizes of the tables of the system calls. -/
structure KState.Sized (s : KState) : Prop where
  files : ∀ f, (s.files f).Sized
  pipes : ∀ p, (s.pipes p).buf.length ≤ QOS_PIPE_CAP
  rows : ∀ i, (s.fds i).Sized
  vfs : s.vfs.Sized
  packets : ∀ d ∈ s.net.packets.toList, d.length ≤ QOS_NET_MAX_PACKET
  udp : s.net.udp.Sized

theorem KState.Sized.quiet (h : s.Sized) (hm : QuietMove s s') : s'.Sized where
  files f := by
    rcases hm.files f with hf | hf
    · rw [hf]
      exact h.files f
    rw [hf]
    exact File.sized_empty
  pipes p := by
    rcases hm.pipes p with hp | hp
    · rw [hp]
      exact h.pipes p
    rw [hp]
    exact Nat.zero_le _
  rows := hm.rows h.rows
  vfs := by
    rw [hm.vfs]
    exact h.vfs
  packets := by
    rw [hm.keeps.packets]
    exact h.packets
  udp := hm.udp h.udp

/-- The names of files are different, and all of them are in the registry. -/
structure KState.Named (s : KState) : Prop where
  distinct : ∀ f g path, (s.files f).Linked path → (s.files g).Linked path → f = g
  registered : ∀ f path, (s.files f).Linked path → s.vfs.qos_vfs_exists path = true

/-- No file gets a name, and the names that are left stay in the registry. -/
theorem KState.Named.shrink (h : s.Named)
    (hlinked : ∀ f path, (s'.files f).Linked path → (s.files f).Linked path)
    (hvfs : ∀ f path, (s'.files f).Linked path → s.vfs.qos_vfs_exists path = true →
      s'.vfs.qos_vfs_exists path = true) : s'.Named where
  distinct f g path hf hg := h.distinct f g path (hlinked f path hf) (hlinked g path hg)
  registered f path hf := hvfs f path hf (h.registered f path (hlinked f path hf))

/-- What a call on the tables keeps, if it is not one that sends or receives
data on a local stream. -/
structure KState.TableStep (s s' : KState) : Prop where
  sized : s.Sized → s'.Sized
  named : s.Named → s'.Named
  keeps : s.net.Keeps s'.net

namespace KState.TableStep
variable {s s' s'' : KState}
theorem refl (s : KState) : TableStep s s := ⟨id, id, .refl _⟩

theorem trans (h : TableStep s s') (h' : TableStep s' s'') : TableStep s s'' :=
  ⟨h'.sized ∘ h.sized, h'.named ∘ h.named, h.keeps.trans h'.keeps⟩

theorem of_names (hsized : s.Sized → s'.Sized)
    (hlinked : ∀ f path, (s'.files f).Linked path → (s.files f).Linked path)
    (hvfs : s'.vfs = s.vfs) (hkeeps : s.net.Keeps s'.net) : TableStep s s' where
  sized := hsized
  named h := h.shrink hlinked fun _ _ _ he => hvfs ▸ he
  keeps := hkeeps

theorem quiet (hm : QuietMove s s') : TableStep s s' := by
  refine of_names (fun h => h.quiet hm) (fun f path hf => ?_) hm.vfs hm.keeps
  rcases hm.files f with he | he
  · rw [he] at hf
    exact hf
  rw [he] at hf
  cases hf.1
end KState.TableStep
theorem KState.sized_fresh {vfs : Vfs} {net : Net} (hvfs : vfs.Sized)
    (hpackets : ∀ d ∈ net.packets.toList, d.length ≤ QOS_NET_MAX_PACKET)
    (hudp : net.udp.Sized) : { KState.reset vfs with net := net }.Sized where
  files _ := File.sized_empty
  pipes _ := Nat.zero_le _
  rows _ := Fd.sized_closed
  vfs := hvfs
  packets := hpackets
  udp := hudp

/-! ### The registry of paths -/
namespace Vfs
variable {i : NodeSlot} {q : CStr} {v : Vfs} {path : CStr}
theorem sized_reset : reset.Sized where
  paths i path h := by cases h
  count := (slotCount_eq_zero.mpr fun _ => rfl).symm

theorem Sized.count_lt (h : v.Sized) : v.count.toNat + 1 < 2 ^ 32 := by
  have hle : slotCount Option.isSome v.nodes ≤ QOS_VFS_MAX_NODES := slotCount_le
  rw [h.count]
  exact Nat.lt_of_le_of_lt (Nat.succ_le_succ hle) (by decide)

theorem Sized.insert (h : v.Sized) (hi : v.nodes i = none) (hpath : path.length < QOS_VFS_PATH_MAX) :
    (Vfs.mk (set v.nodes i (some path)) (v.count + 1)).Sized := by
  constructor
  · intro j q hq
    change set v.nodes i (some path) j = some q at hq
    by_cases hj : j = i
    · subst hj
      rw [set_self] at hq
      cases hq
      exact hpath
    rw [set_ne hj] at hq
    exact h.paths j q hq
  change (v.count + 1).toNat = slotCount Option.isSome (set v.nodes i (some path))
  rw [toNat_succ h.count_lt, slotCount_insert (by rw [hi]; rfl) rfl, h.count]

theorem Sized.one_le_count (h : v.Sized) (hi : v.nodes i = some path) : 1 ≤ v.count.toNat := by
  rw [h.count]
  exact slotCount_pos (i := i) (by rw [hi]; rfl)

theorem Sized.erase (h : v.Sized) (hi : v.nodes i = some path) :
    (Vfs.mk (set v.nodes i none) (v.count - 1)).Sized := by
  constructor
  · intro j q hq
    change set v.nodes i none j = some q at hq
    by_cases hj : j = i
    · subst hj
      rw [set_self] at hq
      cases hq
    rw [set_ne hj] at hq
    exact h.paths j q hq
  change (v.count - 1).toNat = slotCount Option.isSome (set v.nodes i none)
  rw [toNat_pred (h.one_le_count hi), slotCount_erase (by rw [hi]; rfl) rfl, h.count]

theorem exists_insert (hi : v.nodes i = none) (h : v.qos_vfs_exists q = true) :
    (Vfs.mk (set v.nodes i (some path)) (v.count + 1)).qos_vfs_exists q = true := by
  rw [qos_vfs_exists_iff] at h ⊢
  obtain ⟨hvalid, j, hj⟩ := h
  have hne : j ≠ i := by
    rintro rfl
    rw [hi] at hj
    cases hj
  exact ⟨hvalid, j, (set_ne hne).trans hj⟩

theorem exists_erase (hi : v.nodes i = some path) (hq : q ≠ path) (h : v.qos_vfs_exists q = true) :
    (Vfs.mk (set v.nodes i none) (v.count - 1)).qos_vfs_exists q = true := by
  rw [qos_vfs_exists_iff] at h ⊢
  obtain ⟨hvalid, j, hj⟩ := h
  have hne : j ≠ i := by
    rintro rfl
    rw [hi] at hj
    exact hq (Option.some.inj hj).symm
  exact ⟨hvalid, j, (set_ne hne).trans hj⟩

theorem exists_create (h : v.qos_vfs_exists q = true) (path : CStr) :
    (v.qos_vfs_create path).2.qos_vfs_exists q = true := by
  obtain heq | ⟨i, hi, -, -, heq⟩ := v.qos_vfs_create_cases path
  · rw [heq]
    exact h
  rw [heq]
  exact exists_insert hi h

theorem Sized.create (h : v.Sized) (path : CStr) : (v.qos_vfs_create path).2.Sized := by
  obtain heq | ⟨i, hi, hv, -, heq⟩ := v.qos_vfs_create_cases path
  · rw [heq]
    exact h
  rw [heq]
  exact h.insert hi (path_valid_length hv)

theorem Sized.remove (h : v.Sized) (path : CStr) : (v.qos_vfs_remove path).2.Sized := by
  obtain heq | ⟨i, hi, -, heq⟩ := v.qos_vfs_remove_cases path
  · rw [heq]
    exact h
  rw [heq]
  exact h.erase hi
end Vfs
namespace RustCalls
open RustKernel (UserMem syscall_parse_sockaddr)
variable {f : FileSlot} {file : File} {p : PipeSlot} {pipe : Pipe}
variable {i : FdNum} {packets : Ring (List UInt8) QOS_NET_MAX_QUEUE} {data : List UInt8}
variable {on : Bool} {o : Outcome} {path : CStr}
/-! ### Searches for paths -/
theorem samePath_eq {stored : CStr} (h : stored.length < QOS_VFS_PATH_MAX) (path : CStr) :
    samePath stored path = .ok (stored == path) := by
  unfold samePath
  split
  next hlen =>
    rw [slice_of (Nat.zero_le _) (hlen ▸ Nat.le_of_lt h)]
    rfl
  next hlen =>
  have hne : stored ≠ path := fun e => hlen (congrArg List.length e)
  rw [beq_false_of_ne hne]
  rfl

theorem findPath_eq {n : Nat} {rows : Fin n → Option CStr}
    (h : ∀ i path, rows i = some path → path.length < QOS_VFS_PATH_MAX) (path : CStr) :
    findPath rows path = .ok (first fun i => rows i == some path) := by
  refine find_eq fun i _ => ?_
  cases hrow : rows i with
  | none => rfl
  | some stored => exact samePath_eq (h i stored hrow) path

section vfs
variable {v : Vfs} (h : v.Sized) (path : CStr)
include h
theorem vfs_find_eq : vfs_find v path = .ok (v.find_path path) := findPath_eq h.paths path

theorem vfs_exists_eq : vfs_exists v path = .ok (v.qos_vfs_exists path) := by
  unfold vfs_exists Vfs.qos_vfs_exists
  rw [vfs_find_eq h]
  cases Vfs.path_valid path with
  | false | true => rfl

theorem vfs_create_eq : vfs_create v path =
    .ok ((v.qos_vfs_create path).1 == 0, (v.qos_vfs_create path).2) := by
  unfold vfs_create Vfs.qos_vfs_create
  rw [vfs_find_eq h]
  cases Vfs.path_valid path with
  | false => rfl
  | true =>
  simp only [Bool.not_true, Bool.false_eq_true, if_false, ok_bind]
  split
  · rfl
  cases first fun i => (v.nodes i).isNone with
  | none => rfl
  | some slot =>
  dsimp only
  rw [ensure_of h.count_lt]
  rfl

theorem vfs_remove_eq : vfs_remove v path =
    .ok ((v.qos_vfs_remove path).1 == 0, (v.qos_vfs_remove path).2) := by
  unfold vfs_remove Vfs.qos_vfs_remove
  rw [vfs_find_eq h]
  cases Vfs.path_valid path with
  | false => rfl
  | true =>
  simp only [Bool.not_true, Bool.false_eq_true, if_false, ok_bind]
  cases hfind : v.find_path path with
  | none => rfl
  | some idx =>
  have hidx : v.nodes idx = some path := by simpa using first_some hfind
  dsimp only
  rw [ensure_of (h.one_le_count hidx)]
  rfl
end vfs
variable {s : KState} (h : s.Sized)
include h
theorem syscall_file_find_eq (path : CStr) : syscall_file_find s path = .ok (s.file_find path) := by
  have hpaths : ∀ f p, filePath (s.files f) = some p → p.length < QOS_VFS_PATH_MAX := by
    intro f p hp
    unfold filePath at hp
    split at hp
    · cases hp
      exact (h.files f).path
    cases hp
  rw [syscall_file_find, findPath_eq hpaths]
  refine congrArg Except.ok (first_congr fun f => ?_)
  unfold filePath
  cases (s.files f).used with
  | false | true => rfl

/-! ### Writing one table -/
theorem sized_setFile (hfile : file.Sized) : { s with files := set s.files f file }.Sized where
  files g := by
    by_cases hg : g = f
    · subst hg
      dsimp only
      rw [set_self]
      exact hfile
    dsimp only
    rw [set_ne hg]
    exact h.files g
  pipes := h.pipes
  rows := h.rows
  vfs := h.vfs
  packets := h.packets
  udp := h.udp

theorem sized_setPipe (hpipe : pipe.buf.length ≤ QOS_PIPE_CAP) :
    { s with pipes := set s.pipes p pipe }.Sized where
  files := h.files
  pipes q := by
    by_cases hq : q = p
    · subst hq
      dsimp only
      rw [set_self]
      exact hpipe
    dsimp only
    rw [set_ne hq]
    exact h.pipes q
  rows := h.rows
  vfs := h.vfs
  packets := h.packets
  udp := h.udp

theorem sized_setVfs {v : Vfs} (hv : v.Sized) : { s with vfs := v }.Sized where
  files := h.files
  pipes := h.pipes
  rows := h.rows
  vfs := hv
  packets := h.packets
  udp := h.udp

omit h in
theorem create_step (path : CStr) :
    s.TableStep { s with vfs := (s.vfs.qos_vfs_create path).2 } where
  sized hs := sized_setVfs hs (hs.vfs.create path)
  named hn := hn.shrink (fun _ _ hf => hf) fun _ _ _ he => Vfs.exists_create he path
  keeps := .refl _

omit h in
theorem setFile_step (hused : file.used = (s.files f).used) (hpath : file.path = (s.files f).path)
    (hlen : s.Sized → file.len ≤ QOS_PIPE_CAP) :
    s.TableStep { s with files := set s.files f file } := by
  refine .of_names (fun hs => sized_setFile hs ⟨hpath ▸ (hs.files f).path, hlen hs⟩) ?_ rfl
    (.refl _)
  intro g path hg
  by_cases he : g = f
  · subst he
    dsimp only at hg
    rw [set_self] at hg
    exact ⟨hused ▸ hg.1, hpath ▸ hg.2.1, hg.2.2⟩
  dsimp only at hg
  rw [set_ne he] at hg
  exact hg

omit h in
theorem setPipe_step (hpipe : s.Sized → pipe.buf.length ≤ QOS_PIPE_CAP) :
    s.TableStep { s with pipes := set s.pipes p pipe } :=
  .of_names (fun hs => sized_setPipe hs (hpipe hs)) (fun _ _ hf => hf) rfl (.refl _)

/-! ### Closing a descriptor -/
theorem net_udp_unbind_returns (port : UInt16) :
    Returns (net_udp_unbind s.net.udp port) fun u => ∃ e, Move s.net.udp e u := by
  have hmove := RustUdp.call_move s.net.udp (.unbind port)
  simp only [RustUdp.call] at hmove
  unfold net_udp_unbind
  rcases hr : RustUdp.net_udp_unbind s.net.udp port with ⟨ok, u⟩
  cases ok with
  | false => exact returns_ok ⟨_, .stay⟩
  | true =>
  rw [hr] at hmove
  exact (returns_ensure h.udp.count).bind fun _ _ => returns_ok ⟨_, hmove⟩

omit h in
theorem releaseListener_quiet (s : KState) (fd : Fd) : KState.QuietMove s (releaseListener s fd) := by
  unfold releaseListener net_tcp_unlisten
  split
  · split
    · exact .net (.refl _) id
    refine .net (s.net.keeps_unlisten _) ?_
    · unfold Net.qos_net_tcp_unlisten
      split <;> exact id
  exact .refl s

theorem releasePort_returns (fd : Fd) :
    Returns (releasePort s fd) fun s' => KState.QuietMove s s' := by
  unfold releasePort
  refine returns_ite (fun _ => returns_ite (fun _ => ?_) fun _ => ?_) fun _ => ?_
  · refine (net_udp_unbind_returns h fd.sock_lport).bind fun u ⟨e, hu⟩ => returns_ok ?_
    exact (udpMove hu).trans (.socket_port_unmark _ _ _)
  · exact returns_ok (.socket_port_unmark _ _ _)
  exact returns_ok (.refl s)

section
variable (i : FdNum)
theorem syscall_fd_clear_returns :
    Returns (syscall_fd_clear s i) fun s' => KState.QuietMove s s' := by
  have hclosed : KState.QuietMove s (s.setFd i .closed) := .setFd fun _ => Fd.sized_closed
  have hmove := ((hclosed.trans (.releasePipe _ (s.fds i).pipe_id)).trans
    (.releaseFile _ (s.fds i).file_id)).trans (releaseListener_quiet _ (s.fds i))
  exact (releasePort_returns (h.quiet hmove) (s.fds i)).mono fun _ hport => hmove.trans hport

/-! ### Data of a socket -/
variable (addr : UInt64) (len : Nat)
theorem stream_take_returns :
    Returns (stream_take s i addr len) fun o => KState.QuietMove s o.state := by
  have hlen := (h.rows i).stream
  unfold stream_take
  refine returns_guard (.refl s) ?_
  refine (returns_slice (Nat.zero_le _) (Nat.le_trans (Nat.min_le_left _ _) hlen)).bind fun _ _ => ?_
  refine (returns_slice (Nat.min_le_left _ _) hlen).bind fun _ _ => ?_
  exact returns_ok (.stream_take s i addr len)

theorem raw_take_returns
    (src : List (UInt64 × List UInt8)) :
    Returns (raw_take s i addr len src) fun o => KState.QuietMove s o.state := by
  unfold raw_take
  refine returns_guard (.refl s) ?_
  refine (returns_slice (Nat.zero_le _) (h.rows i).raw).bind fun _ _ => ?_
  exact returns_ok (.raw_take s i addr len src)
end
theorem net_udp_recv_returns (port : UInt16) (out : Nat) :
    Returns (net_udp_recv s.net.udp port out) fun r => ∃ e, Move s.net.udp e r.2 := by
  unfold net_udp_recv
  refine returns_guard ⟨_, .stay⟩ ?_
  refine (returns_ensure h.udp.count).bind fun _ _ => ?_
  cases hs : search (Udp.addressed port) s.net.udp.datagrams 0 s.net.udp.udp_count with
  | none => exact returns_ok ⟨_, .stay⟩
  | some i =>
  have hmem : s.net.udp.datagrams i ∈ s.net.udp.queue :=
    mem_view.mpr ⟨i, by simpa using (search_some hs).2.1, rfl⟩
  refine returns_guard ⟨_, .stay⟩ ?_
  refine (returns_slice (Nat.zero_le _) (h.udp.lens _ hmem)).bind fun _ _ => ?_
  exact returns_ok ⟨_, .deliver hs⟩

theorem udp_take_returns (i : FdNum) (addr : UInt64) (len : Nat) (src : UInt64) :
    Returns (udp_take s i addr len src) fun o => KState.QuietMove s o.state := by
  unfold udp_take
  refine returns_guard (.refl s) ?_
  refine (net_udp_recv_returns h (s.fds i).sock_lport len).bind fun r ⟨e, hu⟩ => ?_
  rcases r with ⟨_ | ⟨n, m⟩, u⟩
  · exact returns_ok (.refl s)
  exact returns_ok (.udpMove hu)

omit h in
theorem udp_put_quiet (s : KState) (local_port remote_port : UInt16) (data : List UInt8) :
    KState.QuietMove s (udp_put s local_port remote_port data).state := by
  have hmove := RustUdp.call_move s.net.udp
    (.send local_port QOS_NET_IPV4_LOCAL remote_port (some data))
  simp only [RustUdp.call, Option.getD_some] at hmove
  unfold udp_put
  rcases hr : RustUdp.net_udp_send s.net.udp local_port QOS_NET_IPV4_LOCAL remote_port data with
    ⟨_ | n, u⟩
  · exact .refl s
  rw [hr] at hmove
  exact .udpMove hmove

/-! ### Packets -/
theorem sized_setPackets (hp : ∀ d ∈ packets.toList, d.length ≤ QOS_NET_MAX_PACKET) :
    { s with net := { s.net with packets := packets } }.Sized where
  files := h.files
  pipes := h.pipes
  rows := h.rows
  vfs := h.vfs
  packets := hp
  udp := h.udp

theorem sized_push (hlen : data.length ≤ QOS_NET_MAX_PACKET)
    (hpush : s.net.packets.push data = some packets) : (s.setPackets packets).Sized := by
  refine sized_setPackets h fun d hd => ?_
  rw [Ring.toList_push hpush, List.mem_append, List.mem_singleton] at hd
  rcases hd with hd | rfl
  · exact h.packets d hd
  exact hlen

theorem sized_pop (hpop : s.net.packets.pop = some (data, packets)) :
    (s.setPackets packets).Sized := by
  refine sized_setPackets h fun d hd => h.packets d ?_
  rw [Ring.toList_pop hpop]
  exact List.mem_cons_of_mem data hd

theorem sized_enqueue (data : List UInt8) :
    { s with net := (s.net.qos_net_enqueue_packet data).2 }.Sized := by
  unfold Net.qos_net_enqueue_packet
  split
  · exact h
  next hdata =>
  simp only [Bool.or_eq_true, decide_eq_true_eq, not_or, Nat.not_lt] at hdata
  split
  · exact h
  next hpush => exact sized_push h hdata.2 hpush

theorem sized_dequeue (cap : Nat) :
    { s with net := (s.net.qos_net_dequeue_packet cap).2.2 }.Sized := by
  unfold Net.qos_net_dequeue_packet
  split
  · exact h
  split
  · exact h
  next hpop =>
  split
  · exact h
  exact sized_pop h hpop

theorem sized_puts (ho : KState.Puts s.TableStep s on data o) : o.state.Sized := by
  cases ho with
  | quiet hq => exact hq.sized h
  | put _ hlen hpush => exact sized_push h hlen hpush

theorem sized_takes {addr : UInt64} {len : Nat} (ho : KState.Takes s.TableStep s on addr len o) :
    o.state.Sized := by
  cases ho with
  | quiet hq => exact hq.sized h
  | take _ _ hpop => exact sized_pop h hpop

theorem packet_take_returns (hon : on = true) (addr : UInt64) (len : Nat) :
    Returns (packet_take s addr len) fun o => KState.Takes s.QuietMove s on addr len o := by
  unfold packet_take
  cases hpop : s.net.packets.pop with
  | none => exact returns_ok (.fail (.refl s))
  | some popped =>
  obtain ⟨data, packets⟩ := popped
  have hmem : data ∈ s.net.packets.toList := by
    rw [Ring.toList_pop hpop]
    exact List.mem_cons_self
  refine returns_guard (.fail (.refl s)) ?_
  refine (returns_slice (Nat.zero_le _) (h.packets data hmem)).bind fun _ _ => ?_
  exact returns_ok (KState.packet_take_takes (.refl s) hon len)

/-! ### The socket branches -/
theorem read_socket_returns (hk : (s.fds i).kind = .socket) (addr : UInt64) (len : Nat) :
    Returns (read_socket s i addr len)
      fun o => KState.Takes s.QuietMove s (s.fds i).onPackets addr len o := by
  unfold read_socket
  refine returns_guard (.fail (.refl s)) ?_
  refine returns_ite (fun hg => ?_) fun hg => ?_
  · exact (stream_take_returns h i addr len).mono fun o => .off (Fd.onPackets_gateway hg)
  split
  next ht => exact (raw_take_returns h i addr len []).mono fun o => .off (Fd.onPackets_raw ht)
  next ht => exact (udp_take_returns h i addr len 0).mono fun o => .off (Fd.onPackets_dgram ht)
  next ht => exact packet_take_returns h (Fd.onPackets_local hk (.inl ht) hg) addr len
  next ht => exact packet_take_returns h (Fd.onPackets_local hk (.inr ht) hg) addr len

omit h in
theorem write_socket_puts (hk : (s.fds i).kind = .socket) (data : List UInt8) :
    KState.Puts s.QuietMove s (s.fds i).onPackets data (write_socket s i data) := by
  simp only [write_socket]
  split
  · exact .fail (.refl s)
  split
  next hg =>
    split
    · exact .fail (.refl s)
    next hs => exact .off (Fd.onPackets_gateway hg) (.stream_host_response_prepare hs)
  next hg =>
  split
  next ht => exact .off (Fd.onPackets_raw ht) (.raw_echo s i _ _ data)
  next ht =>
    split
    · exact .fail (.refl s)
    exact .off (Fd.onPackets_dgram ht) (udp_put_quiet s _ _ data)
  next ht => exact KState.packet_put_puts (.refl s) (Fd.onPackets_local hk (.inl ht) hg)
  next ht => exact KState.packet_put_puts (.refl s) (Fd.onPackets_local hk (.inr ht) hg)

omit h in
theorem op_socket_quiet (s : KState) (a0 a1 : UInt64) :
    KState.QuietMove s (op_socket s a0 a1).state := by
  unfold op_socket
  split
  · exact .refl s
  split
  · exact .refl s
  split
  · exact .refl s
  next ha => exact (fd_alloc ha).trans (.setFd_same rfl rfl)

omit h in
theorem op_bind_quiet (mem : UserMem) (s : KState) (a0 a1 a2 : UInt64) :
    KState.QuietMove s (op_bind mem s a0 a1 a2).state := by
  unfold op_bind
  cases syscall_parse_sockaddr mem a1 a2 with
  | none => exact .refl s
  | some addr =>
  obtain ⟨port, ip⟩ := addr
  cases s.openSocket a0.toUInt32 with
  | none => exact .refl s
  | some i =>
  dsimp only
  split
  · exact .refl s
  split
  · exact .setFd_same rfl rfl
  cases hmark : s.socket_port_mark (s.fds i).sock_type port with
  | none => exact .refl s
  | some s1 =>
  have hclaim : KState.QuietMove s
      (if (s.fds i).sock_type == .dgram then s1.udp_claim port else (true, s1)).2 := by
    refine (socket_port_mark hmark).trans ?_
    split
    · exact .udp_claim s1 port
    exact .refl s1
  dsimp only
  generalize (if (s.fds i).sock_type == .dgram then s1.udp_claim port else (true, s1)) = r
    at hclaim
  split
  · exact hclaim.trans (.setFd_same rfl rfl)
  exact hclaim

omit h in
theorem op_listen_quiet (s : KState) (a0 a1 : UInt64) :
    KState.QuietMove s (op_listen s a0 a1).state := by
  simp only [op_listen]
  split
  · exact .refl s
  split
  · exact .refl s
  split
  · exact .refl s
  split
  · exact .refl s
  next hl => exact (listen hl).trans (.setFd_same rfl rfl)

theorem op_accept_returns (mem : UserMem) (a0 a1 a2 : UInt64) :
    Returns (op_accept mem s a0 a1 a2) fun o => KState.QuietMove s o.state := by
  unfold op_accept
  split
  · exact returns_ok (.refl s)
  next i _ =>
  refine returns_guard (.refl s) ?_
  split
  · exact returns_ok (.refl s)
  next j s1 ha =>
  have halloc := fd_alloc ha
  split
  · refine (syscall_fd_clear_returns (h.quiet halloc) j).bind fun s' hs' => ?_
    exact returns_ok (halloc.trans hs')
  refine returns_ok ((halloc.trans (.setFd_same ?_ ?_)).trans (.setFd_same rfl rfl))
  all_goals rfl

omit h in
theorem op_connect_quiet (mem : UserMem) (s : KState) (a0 a1 a2 : UInt64) :
    KState.QuietMove s (op_connect mem s a0 a1 a2).state := by
  unfold op_connect KState.connect_socket
  split
  · exact .refl s
  split
  · exact .refl s
  next i _ =>
  split
  · split
    · exact .connect_gateway s i _ _
    exact .connect_listener s i _ _ _
  · have hlocal := dgram_local_port s i
    dsimp only
    split
    · exact hlocal.trans (.setFd_same rfl rfl)
    exact hlocal
  · exact .setFd_same rfl rfl
  exact .refl s

omit h in
theorem send_dgram_quiet (s : KState) (i : FdNum) (remote_port : UInt16)
    (remote_ip : UInt32) (data : List UInt8) :
    KState.QuietMove s (send_dgram s i remote_port remote_ip data).state := by
  have hlocal := dgram_local_port s i
  simp only [send_dgram]
  split
  · exact hlocal
  split
  · exact hlocal
  refine (hlocal.trans ?_).trans (udp_put_quiet _ _ _ data)
  exact .setFd_same rfl rfl

omit h in
theorem op_send_puts (mem : UserMem) (s : KState) (a0 a1 a2 a3 : UInt64) :
    KState.Puts s.QuietMove s (s.row a0).onPackets (mem.bytes a1 a2.toNat)
      (op_send mem s a0 a1 a2 a3) := by
  unfold op_send
  split
  · exact .fail (.refl s)
  next i hi =>
  obtain ⟨hrow, hk⟩ := KState.row_of_openSocket hi
  rw [hrow]
  dsimp only
  split
  · exact .fail (.refl s)
  split
  · exact .fail (.refl s)
  split
  next ht =>
    split
    · exact .fail (.refl s)
    exact .off (Fd.onPackets_raw ht) (.raw_echo s _ _ _ _)
  next ht =>
    split
    · exact .fail (.refl s)
    exact .off (Fd.onPackets_dgram ht) (send_dgram_quiet s _ _ _ _)
  next ht =>
    split
    next hg =>
      split
      · exact .fail (.refl s)
      next hs => exact .off (Fd.onPackets_gateway hg) (.stream_host_response_prepare hs)
    next hg => exact KState.packet_put_puts (.refl s) (Fd.onPackets_local hk (.inl ht) hg)
  next ht =>
  split
  next hg =>
    split
    · exact .fail (.refl s)
    next hs => exact .off (Fd.onPackets_gateway hg) (.stream_host_response_prepare hs)
  next hg => exact KState.packet_put_puts (.refl s) (Fd.onPackets_local hk (.inr ht) hg)

theorem op_recv_returns (a0 a1 a2 a3 : UInt64) : Returns (op_recv s a0 a1 a2 a3)
    fun o => KState.Takes s.QuietMove s (s.row a0).onPackets a1 a2.toNat o := by
  unfold op_recv
  split
  · exact returns_ok (.fail (.refl s))
  next i hi =>
  obtain ⟨hrow, hk⟩ := KState.row_of_openSocket hi
  rw [hrow]
  refine returns_guard (.fail (.refl s)) ?_
  refine returns_guard (.fail (.refl s)) ?_
  split
  next ht => exact (raw_take_returns h i a1 _ _).mono fun o => .off (Fd.onPackets_raw ht)
  next ht => exact (udp_take_returns h i a1 _ a3).mono fun o => .off (Fd.onPackets_dgram ht)
  next ht =>
    refine returns_ite (fun hg => ?_) fun hg => ?_
    · exact (stream_take_returns h i a1 _).mono fun o => .off (Fd.onPackets_gateway hg)
    exact packet_take_returns h (Fd.onPackets_local hk (.inl ht) hg) a1 _
  next ht =>
  refine returns_ite (fun hg => ?_) fun hg => ?_
  · exact (stream_take_returns h i a1 _).mono fun o => .off (Fd.onPackets_gateway hg)
  exact packet_take_returns h (Fd.onPackets_local hk (.inr ht) hg) a1 _

/-! ### Files and pipes -/
omit h in
theorem newFile_step (hfind : s.file_find path = none) (hpath : s.vfs.qos_vfs_exists path = true) :
    s.TableStep { s with files := set s.files f (.new path) } where
  sized hs := by
    refine sized_setFile hs ⟨?_, Nat.zero_le _⟩
    exact Vfs.path_valid_length (Vfs.qos_vfs_exists_iff.mp hpath).1
  named hn := by
    have hnew : ∀ g, ¬(s.files g).Linked path := KState.file_find_none hfind
    have hcases : ∀ g p, (set s.files f (.new path) g).Linked p →
        g = f ∧ path = p ∨ g ≠ f ∧ (s.files g).Linked p := by
      intro g p hg
      by_cases he : g = f
      · rw [he, set_self] at hg
        exact .inl ⟨he, hg.2.1⟩
      rw [set_ne he] at hg
      exact .inr ⟨he, hg⟩
    constructor
    · intro a b p ha hb
      rcases hcases a p ha with ⟨hat, rfl⟩ | ⟨-, hold⟩
      · rcases hcases b path hb with ⟨hbt, -⟩ | ⟨-, hother⟩
        · rw [hat, hbt]
        exact absurd hother (hnew b)
      rcases hcases b p hb with ⟨-, rfl⟩ | ⟨-, hother⟩
      · exact absurd hold (hnew a)
      exact hn.distinct a b p hold hother
    intro a p ha
    rcases hcases a p ha with ⟨-, rfl⟩ | ⟨-, hold⟩
    · exact hpath
    exact hn.registered a p hold
  keeps := .refl _

theorem open_file_returns (hpath : s.vfs.qos_vfs_exists path = true) :
    Returns (open_file s path) fun o => s.TableStep o.state := by
  unfold open_file
  split
  · exact returns_ok (.refl s)
  next i s1 ha =>
  have hquiet := fd_alloc ha
  have halloc := KState.TableStep.quiet hquiet
  have h1 := h.quiet hquiet
  have hlen := Vfs.path_valid_length (Vfs.qos_vfs_exists_iff.mp hpath).1
  have hensure : Returns (syscall_file_ensure s1 path) fun r => ∀ f s2, r = some (f, s2) →
      s1.TableStep s2 := by
    unfold syscall_file_ensure syscall_file_alloc
    rw [syscall_file_find_eq h1, ok_bind]
    split
    · refine returns_ok fun f s2 hr => ?_
      cases hr
      exact .refl s1
    next hfind =>
    split
    · refine returns_ok fun f s2 hr => ?_
      cases hr
    refine (returns_slice (Nat.zero_le _) (Nat.le_of_lt hlen)).bind fun _ _ => ?_
    refine returns_ok fun f s2 hr => ?_
    cases hr
    exact newFile_step hfind (hquiet.vfs ▸ hpath)
  refine hensure.bind fun r hr => ?_
  split
  · exact (syscall_fd_clear_returns h1 i).bind fun s' hs' => returns_ok (halloc.trans (.quiet hs'))
  next f s2 =>
  exact returns_ok ((halloc.trans (hr f s2 rfl)).trans (.quiet (.setFd_same rfl rfl)))

omit h in
theorem open_proc_quiet {alive : UInt32 → Bool} (ho : open_proc alive s path = .ok o) :
    KState.QuietMove s o.state := by
  unfold open_proc at ho
  obtain ⟨kind, -, ho⟩ := bind_eq_ok ho
  split at ho
  · cases ho
    exact .refl s
  split at ho
  · cases ho
    exact .refl s
  split at ho
  · cases ho
    exact .refl s
  next ha =>
  cases ho
  exact (fd_alloc ha).trans (.setFd_same rfl rfl)

theorem op_close_returns (a0 : UInt64) :
    Returns (op_close s a0) fun o => KState.QuietMove s o.state := by
  unfold op_close
  split
  · exact returns_ok (.refl s)
  next i _ => exact (syscall_fd_clear_returns h i).bind fun s' hs' => returns_ok hs'

theorem op_dup2_returns (a0 a1 : UInt64) :
    Returns (op_dup2 s a0 a1) fun o => KState.QuietMove s o.state := by
  unfold op_dup2
  split
  · exact returns_ok (.refl s)
  next old _ =>
  have copied : ∀ t : KState, ∀ new, KState.QuietMove t
      (t.setFd new { t.fds old with used := true }) :=
    fun t new => .setFd fun hrows => ⟨(hrows old).stream, (hrows old).raw⟩
  split
  next hlt =>
    dsimp only
    split
    · exact returns_ok (.refl s)
    refine returns_ite (fun _ => ?_) fun _ => returns_ok (copied s _)
    exact (syscall_fd_clear_returns h _).bind fun s1 hs1 => returns_ok (hs1.trans (copied s1 _))
  · exact returns_ok (.refl s)

theorem op_pipe_returns (a0 : UInt64) : Returns (op_pipe s a0) fun o => s.TableStep o.state := by
  unfold op_pipe
  refine returns_guard (.refl s) ?_
  split
  · exact returns_ok (.refl s)
  next p s1 hp =>
  have halloc : s.TableStep s1 := by
    simp only [KState.pipe_alloc, Option.map_eq_some_iff, Prod.mk.injEq] at hp
    obtain ⟨q, -, -, rfl⟩ := hp
    exact setPipe_step fun _ => Nat.zero_le _
  have hunused : ∀ t : KState, t.TableStep
      { t with pipes := set t.pipes p { t.pipes p with used := false } } :=
    fun t => setPipe_step fun ht => ht.pipes p
  dsimp only
  split
  · exact returns_ok (halloc.trans (hunused s1))
  next rfd s2 hr =>
  have hreader := halloc.trans (.quiet (.fd_alloc hr))
  split
  · exact (syscall_fd_clear_returns (hreader.sized h) rfd).bind fun s' hs' =>
      returns_ok ((hreader.trans (.quiet hs')).trans (hunused s'))
  next wfd s3 hw =>
  have hrow : s3.QuietMove (s3.setFd rfd { s3.fds rfd with pipe_id := UInt16.ofNat p.val }) :=
    .setFd_same rfl rfl
  exact returns_ok ((hreader.trans (.quiet (.fd_alloc hw))).trans
    (.quiet (hrow.trans (.setFd_same rfl rfl))))

omit h in
theorem read_file_quiet (s : KState) (i : FdNum) (addr : UInt64) (len : Nat) :
    KState.QuietMove s (read_file s i addr len).state := by
  unfold read_file
  split
  · exact .refl s
  dsimp only
  split
  · exact .refl s
  split
  · exact .refl s
  exact .setFd_same rfl rfl

omit h in
theorem write_file_returns (mem : UserMem) (s : KState) (i : FdNum) (addr : UInt64)
    (len : Nat) : Returns (write_file mem s i addr len) fun o => s.TableStep o.state := by
  unfold write_file
  split
  · exact returns_ok (.refl s)
  next f _ =>
  refine returns_ite (fun _ => returns_ok (.refl s)) fun hoffset => ?_
  refine returns_guard (.refl s) ?_
  have hend : (s.fds i).offset.toNat + min len (QOS_PIPE_CAP - (s.fds i).offset.toNat) ≤
      QOS_PIPE_CAP := by
    have hle := Nat.min_le_right len (QOS_PIPE_CAP - (s.fds i).offset.toNat)
    omega
  refine (returns_slice (Nat.le_add_right _ _) hend).bind fun _ _ => returns_ok ?_
  refine KState.TableStep.trans ?_ (.quiet (.setFd_same rfl rfl))
  refine setFile_step rfl rfl fun hs => ?_
  dsimp only
  split
  · exact hend
  exact (hs.files f).len

section
variable (i : FdNum)
theorem read_pipe_returns (addr : UInt64) (len : Nat) :
    Returns (read_pipe s i addr len) fun o => s.TableStep o.state := by
  unfold read_pipe
  split
  · exact returns_ok (.refl s)
  next p hp =>
  refine returns_guard (.refl s) ?_
  refine returns_ite (fun _ => returns_ok (.refl s)) fun _ => ?_
  refine (returns_slice (Nat.min_le_left _ _) (h.pipes p)).bind fun _ _ => returns_ok ?_
  simp only [KState.read_pipe, hp]
  split
  · exact .refl s
  refine setPipe_step fun hs => ?_
  have hle := hs.pipes p
  dsimp only
  rw [List.length_drop]
  omega

theorem write_pipe_returns (data : List UInt8) :
    Returns (write_pipe s i data) fun o => s.TableStep o.state := by
  unfold write_pipe
  split
  · exact returns_ok (.refl s)
  next p hp =>
  have hle := h.pipes p
  refine returns_ite (fun _ => returns_ok (.refl s)) fun hroom => ?_
  refine (returns_slice (Nat.le_add_right _ _) (by omega)).bind fun _ _ => returns_ok ?_
  simp only [KState.write_pipe, hp]
  split
  · exact .refl s
  refine setPipe_step fun _ => ?_
  dsimp only
  rw [List.length_append]
  omega

theorem read_data_returns (addr : UInt64) (len : Nat) :
    Returns (read_data s i addr len)
      fun o => KState.Takes s.TableStep s (s.fds i).onPackets addr len o := by
  unfold read_data
  split
  next hk =>
    exact returns_ok (.off (Fd.onPackets_kind (by simp [hk]))
      (.quiet (read_file_quiet s i addr len)))
  next hk =>
    exact (read_pipe_returns h i addr len).mono fun o => .off (Fd.onPackets_kind (by simp [hk]))
  next hk => exact (read_socket_returns h hk addr len).mono fun o ho => ho.mono fun _ => .quiet
  all_goals exact returns_ok (.fail (.refl s))
end
theorem op_write_returns (mem : UserMem) (a0 a1 a2 : UInt64) :
    Returns (op_write mem s a0 a1 a2)
      fun o => KState.Puts s.TableStep s (s.row a0).onPackets (mem.bytes a1 a2.toNat) o := by
  unfold op_write
  split
  · exact returns_ok (.fail (.refl s))
  next i hi =>
  rw [KState.row_of_openFd hi]
  refine returns_guard (.fail (.refl s)) ?_
  split
  next hk =>
    exact (write_file_returns mem s i a1 _).mono fun o => .off (Fd.onPackets_kind (by simp [hk]))
  next hk => exact (write_pipe_returns h i _).mono fun o => .off (Fd.onPackets_kind (by simp [hk]))
  next hk => exact returns_ok ((write_socket_puts hk _).mono fun _ => .quiet)
  all_goals exact returns_ok (.fail (.refl s))

omit h in
theorem seek_to_quiet (s : KState) (i : FdNum) (base : Option Int) (offset : Int) :
    KState.QuietMove s (seek_to s i base offset).state := by
  unfold seek_to
  split
  · exact .refl s
  split
  · exact .refl s
  exact .setFd_same rfl rfl

/-! ### Paths -/
omit h in
theorem op_getdents_state (s : KState) (a0 a1 a2 : UInt64) : (op_getdents s a0 a1 a2).state = s := by
  unfold op_getdents
  split
  · rfl
  split
  · rfl
  split <;> rfl

theorem op_mkdir_returns (mem : UserMem) (a0 : UInt64) :
    Returns (op_mkdir mem s a0) fun o => s.TableStep o.state := by
  unfold op_mkdir
  refine returns_guard (.refl s) ?_
  split
  · exact returns_ok (.refl s)
  next path _ =>
  refine returns_guard (.refl s) ?_
  rw [vfs_create_eq h.vfs path]
  exact returns_ok (create_step path)

theorem unlink_file_returns (path : CStr) :
    Returns (unlink_file s path) fun s' => s'.Sized ∧ s'.vfs = s.vfs ∧ s.net.Keeps s'.net ∧
      ((∀ f g, (s.files f).Linked path → (s.files g).Linked path → f = g) →
        ∀ f p, (s'.files f).Linked p → (s.files f).Linked p ∧ p ≠ path) := by
  unfold unlink_file
  rw [syscall_file_find_eq h, ok_bind]
  split
  next hfind =>
    refine returns_ok ⟨h, rfl, .refl _, fun _ f p hf => ⟨hf, ?_⟩⟩
    rintro rfl
    exact KState.file_find_none hfind f hf
  next f hfind =>
  obtain ⟨hused, hname⟩ := KState.file_find_some hfind
  have hfile : File.Sized { s.files f with path := [] } := ⟨Nat.zero_lt_succ _, (h.files f).len⟩
  have hquiet := releaseFile
    { s with files := set s.files f { s.files f with path := [] } } (.ofNat f.val)
  refine returns_ok ⟨(sized_setFile h hfile).quiet hquiet, hquiet.vfs, hquiet.keeps, ?_⟩
  intro hd g p hg
  -- a file that has a name after this had it before, and is not the one that lost it
  have hset : (set s.files f { s.files f with path := [] } g).Linked p := by
    rcases hquiet.files g with he | he
    · rw [he] at hg
      exact hg
    rw [he] at hg
    cases hg.1
  by_cases he : g = f
  · rw [he, set_self] at hset
    exact absurd hset.2.1.symm hset.2.2
  rw [set_ne he] at hset
  refine ⟨hset, ?_⟩
  rintro rfl
  exact he (hd g f hset ⟨hused, hname, hset.2.2⟩)

theorem op_unlink_returns (mem : UserMem) (a0 : UInt64) :
    Returns (op_unlink mem s a0) fun o => s.TableStep o.state := by
  unfold op_unlink
  refine returns_guard (.refl s) ?_
  split
  · exact returns_ok (.refl s)
  next path _ =>
  refine returns_guard (.refl s) ?_
  rw [vfs_remove_eq h.vfs path, ok_bind]
  obtain heq | ⟨i, hi, -, heq⟩ := s.vfs.qos_vfs_remove_cases path
  · rw [heq]
    exact returns_ok (.refl s)
  have hvfs := sized_setVfs h (h.vfs.remove path)
  rw [heq] at hvfs ⊢
  refine (unlink_file_returns hvfs path).bind fun s' hs' => returns_ok ?_
  obtain ⟨hsized, hpaths, hkeeps, hnames⟩ := hs'
  refine ⟨fun _ => hsized, fun hn => ?_, hkeeps⟩
  have hlinked := hnames fun f g => hn.distinct f g path
  refine hn.shrink (fun f p hf => (hlinked f p hf).1) fun f p hf he => ?_
  show s'.vfs.qos_vfs_exists p = true
  rw [hpaths]
  exact Vfs.exists_erase hi (hlinked f p hf).2 he
end RustCalls
end QosKernel
