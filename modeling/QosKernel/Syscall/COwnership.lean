import QosKernel.Syscall.CDispatch

/-! # Who holds what

What a descriptor holds, as one value, and the two invariants that tie
the holdings of all descriptors to the tables: `Namespace` for the ports
and `Store` for files and pipes. Both are about the tables alone; the
rules below say which writes keep them.
-/
open Framework
namespace QosKernel
/-- What the tables know of a stream or datagram socket. -/
structure SockKey where
  type : SockType
  bound : Bool
  listening : Bool
  port : UInt16

variable {k : SockKey}
/-- A socket without a port is unbound and does not listen. -/
structure SockKey.Ok (k : SockKey) : Prop where
  unbound : k.bound = false → k.port = 0 ∧ k.listening = false
  bound : k.bound = true → QOS_SOCK_PORT_MIN ≤ k.port

theorem SockKey.Ok.of_bound (hb : k.bound = true) (hp : QOS_SOCK_PORT_MIN ≤ k.port) : k.Ok :=
  ⟨fun h => absurd (hb.symm.trans h) (by decide), fun _ => hp⟩

theorem SockKey.Ok.not_bound (h : k.Ok) (hk : k.bound = false ∨ k.port = 0) : k.bound = false := by
  rcases hk with hk | hk
  · exact hk
  cases hb : k.bound with
  | false => rfl
  | true =>
  have hp := h.bound hb
  rw [hk] at hp
  exact absurd hp (by decide)

inductive Hold where
  | nothing
  | socket (key : SockKey)
  | file (file_id : Nat)
  | pipe (pipe_id : Nat)

namespace Hold
variable {h : Hold}
def binds (type : SockType) : Hold → UInt16 → Prop
  | .socket k, port => k.type = type ∧ k.bound = true ∧ k.port = port
  | _, _ => False

def listens : Hold → UInt16 → Prop
  | .socket k, port => k.type = .stream ∧ k.listening = true ∧ k.port = port
  | _, _ => False

def refersToFile : Hold → Nat → Prop
  | .file i, file_id => i = file_id
  | _, _ => False

def refersToPipe : Hold → Nat → Prop
  | .pipe i, pipe_id => i = pipe_id
  | _, _ => False

/-- All that a row holds is held by some of `rows`. -/
structure Within (h : Hold) (rows : FdNum → Hold) : Prop where
  binds : ∀ t p, h.binds t p → Held (Hold.binds t) rows p
  listens : ∀ p, h.listens p → Held Hold.listens rows p
  file : ∀ f, h.refersToFile f → Held Hold.refersToFile rows f
  pipe : ∀ p, h.refersToPipe p → Held Hold.refersToPipe rows p

/-- Not a stream or datagram socket. -/
def noSocket : Hold → Prop
  | .socket _ => False
  | _ => True

/-- Neither a file nor a pipe. -/
def noStore : Hold → Prop
  | .file _ | .pipe _ => False
  | _ => True

theorem noSocket.not_binds (hs : h.noSocket) (type : SockType) (port : UInt16) :
    ¬h.binds type port := by
  cases h <;> simp_all [noSocket, binds]

theorem noSocket.not_listens (hs : h.noSocket) (port : UInt16) : ¬h.listens port := by
  cases h <;> simp_all [noSocket, listens]

theorem noStore.not_file (hs : h.noStore) (i : Nat) : ¬h.refersToFile i := by
  cases h <;> simp_all [noStore, refersToFile]

theorem noStore.not_pipe (hs : h.noStore) (i : Nat) : ¬h.refersToPipe i := by
  cases h <;> simp_all [noStore, refersToPipe]
end Hold
/-! ### Ports -/
/-- The port tables are in step with the sockets. -/
structure Namespace (rows : FdNum → Hold) (stream_ports dgram_ports : UInt16 → Bool)
    (udp_ports : PortSlot → Option UInt16)
    (listeners : ListenerSlot → Option UInt16) : Prop where
  keys : ∀ i k, rows i = .socket k → k.Ok
  stream : Covers (Hold.binds .stream) rows (stream_ports · = true) (stream_ports · = true)
  dgram : Covers (Hold.binds .dgram) rows (dgram_ports · = true) (dgram_ports · = true)
  udp : Covers (Hold.binds .dgram) rows (Registered udp_ports) (Registered udp_ports)
  tcp : Covers Hold.listens rows (Registered listeners) (Registered listeners)
  udp_distinct : Distinct udp_ports
  tcp_distinct : Distinct listeners

namespace Namespace
variable {row : Hold}
variable {rows : FdNum → Hold} {stream_ports dgram_ports : UInt16 → Bool}
  {udp_ports : PortSlot → Option UInt16}
  {listeners : ListenerSlot → Option UInt16}
  {i : FdNum} {k : SockKey} {port : UInt16}
section
variable (h : Namespace rows stream_ports dgram_ports udp_ports listeners)
include h
theorem keys_set
    (hrow : ∀ k, row = .socket k → k.Ok) : ∀ j k, set rows i row j = .socket k → k.Ok := by
  intro j k hj
  by_cases hji : j = i
  · subst hji
    exact hrow k (by simpa using hj)
  exact h.keys j k (by simpa [hji] using hj)

theorem share (hempty : (∀ t p, ¬(rows i).binds t p) ∧ ∀ p, ¬(rows i).listens p)
    (hrow : ∀ k, row = .socket k → k.Ok)
    (hbinds : ∀ t p, row.binds t p → Held (Hold.binds t) rows p)
    (hlistens : ∀ p, row.listens p → Held Hold.listens rows p) :
    Namespace (set rows i row) stream_ports dgram_ports udp_ports listeners where
  keys := h.keys_set hrow
  stream := h.stream.share (hempty.1 _) fun p hp => h.stream.live p (hbinds _ p hp)
  dgram := h.dgram.share (hempty.1 _) fun p hp => h.dgram.live p (hbinds _ p hp)
  udp := h.udp.share (hempty.1 _) fun p hp => h.udp.live p (hbinds _ p hp)
  tcp := h.tcp.share hempty.2 fun p hp => h.tcp.live p (hlistens p hp)
  udp_distinct := h.udp_distinct
  tcp_distinct := h.tcp_distinct

theorem frame (hi : (rows i).noSocket) (hrow : row.noSocket) :
    Namespace (set rows i row) stream_ports dgram_ports udp_ports listeners := by
  apply h.share ⟨hi.not_binds, hi.not_listens⟩
  · intro k hk
    subst hk
    exact hrow.elim
  · exact fun t p hp => absurd hp (hrow.not_binds t p)
  exact fun p hp => absurd hp (hrow.not_listens p)

theorem unbound_holds (hi : rows i = .socket k) (hk : k.bound = false) :
    (∀ t p, ¬(rows i).binds t p) ∧ ∀ p, ¬(rows i).listens p := by
  -- it does not listen either
  have hl := ((h.keys i k hi).unbound hk).2
  rw [hi]
  exact ⟨fun t p hp => by simp [Hold.binds, hk] at hp, fun p hp => by simp [Hold.listens, hl] at hp⟩

theorem bind_stream (hi : rows i = .socket k) (hk : k.bound = false) (ht : k.type = .stream)
    (hp : QOS_SOCK_PORT_MIN ≤ port) :
    Namespace (set rows i (.socket { k with bound := true, port := port }))
      (fun p => p == port || stream_ports p) dgram_ports udp_ports listeners := by
  have hempty := h.unbound_holds hi hk
  have hl := ((h.keys i k hi).unbound hk).2
  have hnew : ∀ p, Hold.binds .dgram (.socket { k with bound := true, port := port }) p → False := by
    intro p hp
    simp [Hold.binds, ht] at hp
  constructor
  · apply h.keys_set
    intro k' hk'
    obtain rfl := Hold.socket.inj hk'
    exact .of_bound rfl hp
  -- the new port is the only one that is new in the table
  · apply h.stream.acquire (hempty.1 _)
    · intro p hp
      simp only [Bool.or_eq_true, beq_iff_eq] at hp
      rcases hp with rfl | hp
      · exact .inr ⟨ht, rfl, rfl⟩
      exact .inl hp
    · intro p hp
      simp only [Hold.binds] at hp
      simp [hp.2.2]
    intro p hp
    simp [hp]
  · exact h.dgram.share (hempty.1 _) fun p hp => (hnew p hp).elim
  · exact h.udp.share (hempty.1 _) fun p hp => (hnew p hp).elim
  · apply h.tcp.share hempty.2
    intro p hp
    simp [Hold.listens, hl] at hp
  · exact h.udp_distinct
  exact h.tcp_distinct

theorem bind_dgram (hi : rows i = .socket k) (hk : k.bound = false) (ht : k.type = .dgram)
    (hp : QOS_SOCK_PORT_MIN ≤ port) {u : PortSlot} (hu : udp_ports u = none)
    (hnot : ∀ j, udp_ports j ≠ some port) :
    Namespace (set rows i (.socket { k with bound := true, port := port }))
      stream_ports (fun p => p == port || dgram_ports p) (set udp_ports u (some port)) listeners := by
  have hempty := h.unbound_holds hi hk
  have hl := ((h.keys i k hi).unbound hk).2
  constructor
  · apply h.keys_set
    intro k' hk'
    obtain rfl := Hold.socket.inj hk'
    exact .of_bound rfl hp
  · apply h.stream.share (hempty.1 _)
    intro p hp
    simp [Hold.binds, ht] at hp
  · apply h.dgram.acquire (hempty.1 _)
    · intro p hp
      simp only [Bool.or_eq_true, beq_iff_eq] at hp
      rcases hp with rfl | hp
      · exact .inr ⟨ht, rfl, rfl⟩
      exact .inl hp
    · intro p hp
      simp only [Hold.binds] at hp
      simp [hp.2.2]
    intro p hp
    simp [hp]
  -- both tables of the datagram ports change together
  · apply h.udp.acquire (hempty.1 _)
    · intro p hp
      rcases (registered_add hu).mp hp with hp | rfl
      · exact .inl hp
      exact .inr ⟨ht, rfl, rfl⟩
    · intro p hp
      exact (registered_add hu).mpr (.inr hp.2.2.symm)
    exact fun p hp => (registered_add hu).mpr (.inl hp)
  · apply h.tcp.share hempty.2
    intro p hp
    simp [Hold.listens, hl] at hp
  · exact h.udp_distinct.add fun ⟨j, hj⟩ => hnot j hj
  exact h.tcp_distinct

theorem listen (hi : rows i = .socket k) (hk : k.bound = true) (ht : k.type = .stream)
    {l : ListenerSlot} (hl : listeners l = none)
    (hnot : ∀ j, listeners j ≠ some k.port) :
    Namespace (set rows i (.socket { k with listening := true }))
      stream_ports dgram_ports udp_ports (set listeners l (some k.port)) := by
  have hbinds : ∀ t p, Hold.binds t (.socket { k with listening := true }) p ↔
      (rows i).binds t p := fun t p => by rw [hi]; rfl
  constructor
  · apply h.keys_set
    intro k' hk'
    obtain rfl := Hold.socket.inj hk'
    exact .of_bound hk ((h.keys i k hi).bound hk)
  · exact h.stream.keep (hbinds _)
  · exact h.dgram.keep (hbinds _)
  · exact h.udp.keep (hbinds _)
  · apply h.tcp.set
    · intro p hp
      rcases (registered_add hl).mp hp with hp | rfl
      · -- no row can have been the listener of its port before
        refine .inr ⟨hp, fun hold => ?_⟩
        rw [hi] at hold
        exact absurd hold.2.2 fun e => by
          obtain ⟨j, hj⟩ := hp
          exact hnot j (e ▸ hj)
      exact .inl ⟨ht, rfl, rfl⟩
    · intro p hp
      exact (registered_add hl).mpr (.inr hp.2.2.symm)
    exact fun p hp _ => (registered_add hl).mpr (.inl hp)
  · exact h.udp_distinct
  exact h.tcp_distinct.add fun ⟨j, hj⟩ => hnot j hj
end
end Namespace
/-! ### Files and pipes -/
def File.Linked (path : CStr) (f : File) : Prop := f.used = true ∧ f.path = path ∧ path ≠ []

/-- In use without a name. -/
def File.Unlinked (f : File) : Prop := f.used = true ∧ f.path = []

/-- The file and pipe slots are in step with the descriptors and the VFS. -/
structure Store (rows : FdNum → Hold) (files : FileSlot → File)
    (pipes : PipeSlot → Pipe) (nodes : NodeSlot → Option CStr) : Prop where
  pipe : Covers Hold.refersToPipe rows (SlotIs (·.used = true) pipes) (SlotIs (·.used = true) pipes)
  file : Covers Hold.refersToFile rows (SlotIs File.Unlinked files) (SlotIs (·.used = true) files)
  paths_distinct : ∀ i j path, (files i).Linked path → (files j).Linked path → i = j
  paths_exist : ∀ i path, (files i).Linked path → Vfs.path_valid path = true ∧ Registered nodes path
  file_len : ∀ i, (files i).len ≤ QOS_PIPE_CAP
  pipe_len : ∀ i, (pipes i).buf.length ≤ QOS_PIPE_CAP

namespace Store
variable {row : Hold} {f : FileSlot} {p : PipeSlot} {path : CStr}
variable {files' : FileSlot → File} {pipes' : PipeSlot → Pipe}
variable {d : NodeSlot}
variable {rows : FdNum → Hold} {files : FileSlot → File}
  {pipes : PipeSlot → Pipe} {nodes : NodeSlot → Option CStr}
  {i : FdNum}
section
variable (h : Store rows files pipes nodes)
include h
theorem share (hi : (rows i).noStore)
    (hpipe : ∀ p, row.refersToPipe p → SlotIs (·.used = true) pipes p)
    (hfile : ∀ f, row.refersToFile f → SlotIs (·.used = true) files f) :
    Store (set rows i row) files pipes nodes where
  pipe := h.pipe.share hi.not_pipe hpipe
  file := h.file.share hi.not_file hfile
  paths_distinct := h.paths_distinct
  paths_exist := h.paths_exist
  file_len := h.file_len
  pipe_len := h.pipe_len

theorem frame (hi : (rows i).noStore) (hrow : row.noStore) :
    Store (set rows i row) files pipes nodes :=
  h.share hi (fun p hp => absurd hp (hrow.not_pipe p)) fun f hf => absurd hf (hrow.not_file f)

theorem write_file {file : File}
    (hused : file.used = (files f).used) (hpath : file.path = (files f).path)
    (hlen : file.len ≤ QOS_PIPE_CAP) : Store rows (set files f file) pipes nodes := by
  -- the bytes do not matter for the names
  have hlinked : ∀ j path, (set files f file j).Linked path ↔ (files j).Linked path := by
    intro j path
    by_cases hj : j = f
    · subst hj
      simp [File.Linked, hused, hpath]
    simp [hj]
  constructor
  · exact h.pipe
  · apply h.file.mono
    · intro n hn
      rcases slotIs_set.mp hn with ⟨rfl, hu⟩ | ⟨-, hn⟩
      · exact slotIs_val.mpr ⟨hused ▸ hu.1, hpath ▸ hu.2⟩
      exact hn
    intro n hn _
    by_cases he : n = f.val
    · subst he
      exact slotIs_set.mpr (.inl ⟨rfl, hused.trans (slotIs_val.mp hn)⟩)
    exact slotIs_set.mpr (.inr ⟨he, hn⟩)
  · intro a b path ha hb
    exact h.paths_distinct a b path ((hlinked a path).mp ha) ((hlinked b path).mp hb)
  · intro a path ha
    exact h.paths_exist a path ((hlinked a path).mp ha)
  · intro a
    by_cases ha : a = f
    · simpa [ha] using hlen
    simpa [ha] using h.file_len a
  exact h.pipe_len

theorem write_pipe {buf : List UInt8} (hlen : buf.length ≤ QOS_PIPE_CAP) :
    Store rows files (set pipes p { pipes p with buf := buf }) nodes := by
  have hused : ∀ n, SlotIs (·.used = true) (set pipes p { pipes p with buf := buf }) n ↔
      SlotIs (·.used = true) pipes n := by
    intro n
    rw [slotIs_set]
    by_cases hn : n = p.val
    · subst hn
      simp [slotIs_val]
    simp [hn]
  constructor
  · exact h.pipe.mono (fun n hn => (hused n).mp hn) fun n hn _ => (hused n).mpr hn
  · exact h.file
  · exact h.paths_distinct
  · exact h.paths_exist
  · exact h.file_len
  intro a
  by_cases ha : a = p
  · simpa [ha] using hlen
  simpa [ha] using h.pipe_len a

theorem open_new (hi : (rows i).noStore)
    (hvalid : Vfs.path_valid path = true) (hreg : Registered nodes path)
    (hnew : ∀ j, ¬(files j).Linked path) :
    Store (set rows i (.file f.val)) (set files f (.new path)) pipes nodes := by
  have hne := Vfs.path_valid_ne_nil hvalid
  constructor
  · apply h.pipe.share hi.not_pipe
    intro p hp
    exact hp.elim
  · apply h.file.acquire hi.not_file
    · intro n hn
      rcases slotIs_set.mp hn with ⟨-, hu⟩ | ⟨-, hn⟩
      · exact absurd hu.2 hne
      exact .inl hn
    · intro n hn
      exact slotIs_set.mpr (.inl ⟨Eq.symm hn, rfl⟩)
    intro n hn
    by_cases he : n = f.val
    · exact slotIs_set.mpr (.inl ⟨he, rfl⟩)
    exact slotIs_set.mpr (.inr ⟨he, hn⟩)
  · intro a b p ha hb
    by_cases ha' : a = f <;> by_cases hb' : b = f
    · rw [ha', hb']
    · -- the new path is on no other file
      rw [ha', set_self] at ha
      rw [set_ne hb'] at hb
      obtain rfl : path = p := ha.2.1
      exact absurd hb (hnew b)
    · rw [hb', set_self] at hb
      rw [set_ne ha'] at ha
      obtain rfl : path = p := hb.2.1
      exact absurd ha (hnew a)
    rw [set_ne ha'] at ha
    rw [set_ne hb'] at hb
    exact h.paths_distinct a b p ha hb
  · intro a p ha
    by_cases ha' : a = f
    · rw [ha', set_self] at ha
      obtain rfl : path = p := ha.2.1
      exact ⟨hvalid, hreg⟩
    rw [set_ne ha'] at ha
    exact h.paths_exist a p ha
  · intro a
    by_cases ha : a = f
    · simp [ha, File.new]
    simpa [ha] using h.file_len a
  exact h.pipe_len

theorem open_pipe {j : FdNum} (hij : j ≠ i)
    (hi : (rows i).noStore) (hj : (rows j).noStore) :
    Store (set (set rows i (.pipe p.val)) j (.pipe p.val)) files (set pipes p ⟨true, []⟩)
      nodes := by
  have hused : SlotIs (·.used = true) (set pipes p ⟨true, []⟩) p.val :=
    slotIs_set.mpr (.inl ⟨rfl, rfl⟩)
  -- the first end takes the new slot, the second one shares it
  have hone : Store (set rows i (.pipe p.val)) files (set pipes p ⟨true, []⟩) nodes := by
    constructor
    · apply h.pipe.acquire hi.not_pipe
      · intro n hn
        rcases slotIs_set.mp hn with ⟨he, -⟩ | ⟨-, hn⟩
        · exact .inr (Eq.symm he)
        exact .inl hn
      · intro n hn
        obtain rfl : p.val = n := hn
        exact hused
      intro n hn
      by_cases he : n = p.val
      · exact he ▸ hused
      exact slotIs_set.mpr (.inr ⟨he, hn⟩)
    · apply h.file.share hi.not_file
      intro f hf
      exact hf.elim
    · exact h.paths_distinct
    · exact h.paths_exist
    · exact h.file_len
    intro a
    by_cases ha : a = p
    · simp [ha]
    simpa [ha] using h.pipe_len a
  apply hone.share (by simpa [hij] using hj)
  · intro n hn
    obtain rfl : p.val = n := hn
    exact hused
  exact fun f hf => hf.elim

theorem clear {rows' : FdNum → Hold}
    (hpipe : Covers Hold.refersToPipe rows' (SlotIs (·.used = true) pipes')
      (SlotIs (·.used = true) pipes'))
    (hfile : Covers Hold.refersToFile rows' (SlotIs File.Unlinked files')
      (SlotIs (·.used = true) files')) (hpipes : ∀ p, pipes' p = pipes p ∨ pipes' p = .empty)
    (hfiles : ∀ f, files' f = files f ∨ files' f = .empty) : Store rows' files' pipes' nodes := by
  have hlinked : ∀ f path, (files' f).Linked path → (files f).Linked path := by
    intro f path hf
    rcases hfiles f with heq | heq
    · exact heq ▸ hf
    rw [heq] at hf
    exact absurd hf.1 (by decide)
  constructor
  · exact hpipe
  · exact hfile
  · intro a b path ha hb
    exact h.paths_distinct a b path (hlinked a path ha) (hlinked b path hb)
  · intro a path ha
    exact h.paths_exist a path (hlinked a path ha)
  · intro f
    rcases hfiles f with heq | heq
    · exact heq ▸ h.file_len f
    rw [heq]
    exact Nat.zero_le _
  intro p
  rcases hpipes p with heq | heq
  · exact heq ▸ h.pipe_len p
  rw [heq]
  exact Nat.zero_le _

theorem clear_unused
    (hpipes : ∀ p, pipes' p = pipes p ∨ ((pipes p).used = false ∧ pipes' p = .empty)) :
    Store rows files pipes' nodes := by
  -- a slot that is not in use is held by no row
  refine h.clear ?_ h.file (fun p => (hpipes p).imp_right And.right) fun _ => .inl rfl
  apply h.pipe.mono
  · intro n ⟨hn, hu⟩
    rcases hpipes ⟨n, hn⟩ with heq | ⟨-, heq⟩
    · exact ⟨hn, heq ▸ hu⟩
    rw [heq] at hu
    cases hu
  intro n ⟨hn, hu⟩ _
  rcases hpipes ⟨n, hn⟩ with heq | ⟨hfree, -⟩
  · exact ⟨hn, heq.symm ▸ hu⟩
  exact absurd (hfree.symm.trans hu) (by decide)

theorem undo_pipe (hp : (pipes p).used = false)
    (hpipes : ∀ q, pipes' q = set pipes p ⟨true, []⟩ q ∨
      (¬Held Hold.refersToPipe rows q.val ∧ pipes' q = .empty)) :
    Store rows files (set pipes' p { pipes' p with used := false }) nodes := by
  apply h.clear_unused
  intro q
  by_cases hq : q = p
  · subst hq
    refine .inr ⟨hp, ?_⟩
    rw [set_self]
    rcases hpipes q with heq | ⟨-, heq⟩
    · rw [heq, set_self]
      rfl
    rw [heq]
    rfl
  rw [set_ne hq]
  rcases hpipes q with heq | ⟨hnot, heq⟩
  · exact .inl (heq.trans (set_ne hq))
  refine .inr ⟨Bool.eq_false_iff.mpr fun hu => ?_, heq⟩
  exact hnot (h.pipe.held q.val (slotIs_val.mpr hu))

theorem add_path (hd : nodes d = none) :
    Store rows files pipes (set nodes d (some path)) where
  pipe := h.pipe
  file := h.file
  paths_distinct := h.paths_distinct
  paths_exist f p hf :=
    ⟨(h.paths_exist f p hf).1, (registered_add hd).mpr (.inl (h.paths_exist f p hf).2)⟩
  file_len := h.file_len
  pipe_len := h.pipe_len

/-- A path leaves the VFS. The file with this path, if there is one, loses it,
and is cleared if no row holds it. -/
theorem remove_path (hd : nodes d = some path)
    (hnew : ∀ f, ¬(files' f).Linked path) (hfiles : ∀ f, files' f = files f ∨
      (Held Hold.refersToFile rows f.val ∧ files' f = { files f with path := [] }) ∨
      (¬Held Hold.refersToFile rows f.val ∧ files' f = .empty)) :
    Store rows files' pipes (set nodes d none) := by
  have hlinked : ∀ f p, (files' f).Linked p → (files f).Linked p := by
    intro f p hf
    rcases hfiles f with heq | ⟨-, heq⟩ | ⟨-, heq⟩
    · exact heq ▸ hf
    · rw [heq] at hf
      exact absurd hf.2.1.symm hf.2.2
    rw [heq] at hf
    exact absurd hf.1 (by decide)
  constructor
  · exact h.pipe
  · constructor
    · rintro n ⟨hn, hu⟩
      rcases hfiles ⟨n, hn⟩ with heq | ⟨hheld, -⟩ | ⟨-, heq⟩
      · exact h.file.held n ⟨hn, heq ▸ hu⟩
      · exact hheld
      rw [heq] at hu
      exact absurd hu.1 (by decide)
    intro n hheld
    obtain ⟨hn, hu⟩ := h.file.live n hheld
    rcases hfiles ⟨n, hn⟩ with heq | ⟨-, heq⟩ | ⟨hnot, -⟩
    · exact ⟨hn, heq ▸ hu⟩
    · exact ⟨hn, by rw [heq]; exact hu⟩
    exact absurd hheld hnot
  · intro a b p ha hb
    exact h.paths_distinct a b p (hlinked a p ha) (hlinked b p hb)
  · intro f p hf
    obtain ⟨hvalid, j, hj⟩ := h.paths_exist f p (hlinked f p hf)
    -- another path has another node
    have hjd : j ≠ d := by
      intro e
      rw [e, hd] at hj
      exact hnew f (Option.some.inj hj ▸ hf)
    exact ⟨hvalid, j, by rw [set_ne hjd]; exact hj⟩
  · intro f
    rcases hfiles f with heq | ⟨-, heq⟩ | ⟨-, heq⟩
    · exact heq ▸ h.file_len f
    · rw [heq]
      exact h.file_len f
    rw [heq]
    exact Nat.zero_le _
  exact h.pipe_len
end
end Store
end QosKernel
