import QosKernel.Framework.SharedQueue
import QosKernel.Syscall.CMoves

/-! # The data of local streams

What callers know of local connections: which connections were made, which
descriptors have theirs from `ACCEPT`, and what was sent and received on
each end. It is kept from the results of system calls, for both kernels.

All connections share the packet queue of the network. `Fits` ties the
record to the queue; a call keeps it unless it takes a packet of somebody
else.
-/
open Framework
namespace QosKernel
/-- A connection has two ends: `false` is the one that called `CONNECT`, and
`true` the one that `ACCEPT` gave out. -/
structure StreamTraffic where
  /-- The ids of the connections to listeners. -/
  established : List Int
  fromAccept : FdNum → Bool
  traffic : Traffic (Int × Bool) UInt8

namespace StreamTraffic
def empty : StreamTraffic := ⟨[], fun _ => false, .empty⟩
def peer (e : Int × Bool) : Int × Bool := (e.1, !e.2)

theorem peer_injective : Function.Injective peer := by
  rintro ⟨c, b⟩ ⟨d, b'⟩ h
  simpa [peer] using h

/-- The end of a connection that a call works on, if it is on one. -/
def endOf (l : StreamTraffic) (s : KState) (a0 : UInt64) : Option (Int × Bool) :=
  if (s.row a0).sock_type = .stream ∧ (s.row a0).sock_connected = true ∧
      0 ≤ (s.row a0).sock_conn_id then
    some ((s.row a0).sock_conn_id, l.fromAccept (fdIndex a0.toUInt32.toNat))
  else none

def isLocal (fd : Fd) : Bool := fd.sock_type == .stream && decide (0 ≤ fd.sock_conn_id)

section
variable (l : StreamTraffic) (s : KState) (op : SyscallOp)
/-- The record after a system call. `data` is what the caller has in the
buffer at `a1`. -/
def record (data : List UInt8) (a0 a1 : UInt64)
    (o : Outcome) : StreamTraffic :=
  if o.rc < 0 then l
  else
    match op with
    | .connect =>
      let i := fdIndex a0.toUInt32.toNat
      { l with
        established := if isLocal (o.state.fds i) then
          l.established ++ [(o.state.fds i).sock_conn_id] else l.established
        fromAccept := set l.fromAccept i false }
    | .accept => { l with fromAccept := set l.fromAccept (fdIndex o.rc.toNat) true }
    | .dup2 =>
      let source := l.fromAccept (fdIndex a0.toUInt32.toNat)
      { l with fromAccept := set l.fromAccept (fdIndex a1.toUInt32.toNat) source }
    | .write | .send =>
      if (s.row a0).onPackets then
        { l with traffic := l.traffic.put (l.endOf s a0) (data.take o.rc.toNat) }
      else l
    | .read | .recv =>
      if (s.row a0).onPackets then
        { l with traffic := l.traffic.take (l.endOf s a0) (o.out.flatMap Prod.snd) }
      else l
    | _ => l

/-- A call that reads from a local stream finds a packet that was sent by the
other end of its connection, if it finds one that fits in the buffer. -/
def Orderly (a0 : UInt64) (len : Nat) : Prop :=
  match op with
  | .read | .recv =>
    (s.row a0).onPackets = true → ∀ packet ∈ l.traffic.flight.head?, packet.2.length ≤ len →
      packet.1 = (l.endOf s a0).map peer
  | _ => True
end
instance (l : StreamTraffic) (s : KState) (op : SyscallOp) (a0 : UInt64) (len : Nat) :
    Decidable (l.Orderly s op a0 len) :=
  match op with
  | .read | .recv => inferInstanceAs (Decidable ((s.row a0).onPackets = true →
      ∀ packet ∈ l.traffic.flight.head?, packet.2.length ≤ len →
        packet.1 = (l.endOf s a0).map peer))
  | .const | .add | .query | .kill | .sigpending | .sigaction | .sigprocmask | .sigaltstack
  | .sigsuspend | .fork | .exec | .sigreturn | .exit | .getpid | .waitpid | .stat | .mkdir
  | .unlink | .chdir | .getcwd | .open | .write | .close | .dup2 | .mmap | .munmap | .yield
  | .sleep | .socket | .bind | .listen | .accept | .connect | .send | .getdents | .lseek | .pipe
  | .dlopen | .dlclose | .dlsym | .modload | .modunload | .modreload => .isTrue trivial

/-- No two connections have one id, and every end has received the start of
what the other end of its connection sent. -/
def InOrder (l : StreamTraffic) : Prop :=
  l.established.Nodup ∧ ∀ e, l.traffic.received e <+: l.traffic.sent (peer e)

/-- The record is the one of the packets in the queue, and the connections in
it have their slots. -/
structure Fits (l : StreamTraffic) (s : KState) : Prop where
  flight : l.traffic.flight.map Prod.snd = s.net.packets.toList
  isolated : l.traffic.Isolated peer
  distinct : l.established.Nodup
  slots : ∀ id ∈ l.established, ∃ c : ConnSlot,
    id = c.val ∧ (s.net.conns c).used = true

namespace Fits
variable {data : List UInt8} {e : Option (Int × Bool)}
variable {packets : Ring (List UInt8) QOS_NET_MAX_QUEUE} {l l' : StreamTraffic} {s t : KState}
theorem inOrder (h : l.Fits s) : l.InOrder := ⟨h.distinct, fun e => h.isolated.received_prefix e⟩

theorem reset (vfs : Vfs) : empty.Fits (.reset vfs) :=
  ⟨rfl, Traffic.isolated_empty, List.nodup_nil, fun _ hid => absurd hid List.not_mem_nil⟩

theorem keep (h : l.Fits s) (hk : s.net.Keeps t.net) (htraffic : l'.traffic = l.traffic)
    (hest : l'.established = l.established) : l'.Fits t where
  flight := by
    rw [htraffic, hk.packets]
    exact h.flight
  isolated := by
    rw [htraffic]
    exact h.isolated
  distinct := by
    rw [hest]
    exact h.distinct
  slots id hid := by
    rw [hest] at hid
    obtain ⟨c, hc, hused⟩ := h.slots id hid
    exact ⟨c, hc, hk.conns c hused⟩

theorem establish (h : l.Fits s) (hk : s.net.Keeps t.net) {c : ConnSlot}
    (hfree : (s.net.conns c).used = false) (hused : (t.net.conns c).used = true)
    (htraffic : l'.traffic = l.traffic)
    (hest : l'.established = l.established ++ [(c.val : Int)]) : l'.Fits t where
  flight := by
    rw [htraffic, hk.packets]
    exact h.flight
  isolated := by
    rw [htraffic]
    exact h.isolated
  distinct := by
    rw [hest, List.nodup_append]
    refine ⟨h.distinct, List.nodup_singleton _, fun id hid d hd => ?_⟩
    obtain ⟨e, rfl, he⟩ := h.slots id hid
    rintro rfl
    -- a connection in the record has its slot, and this one was free
    have hec : e = c := Fin.ext (Int.ofNat.inj (List.mem_singleton.mp hd))
    rw [hec, hfree] at he
    cases he
  slots id hid := by
    rw [hest, List.mem_append, List.mem_singleton] at hid
    rcases hid with hid | rfl
    · obtain ⟨e, he, heused⟩ := h.slots id hid
      exact ⟨e, he, hk.conns e heused⟩
    exact ⟨c, rfl, hused⟩

theorem put (h : l.Fits s) (hpush : s.net.packets.push data = some packets) :
    { l with traffic := l.traffic.put e data }.Fits (s.setPackets packets) where
  flight := by
    show (l.traffic.flight ++ [(e, data)]).map Prod.snd = packets.toList
    rw [Ring.toList_push hpush, List.map_append, h.flight]
    rfl
  isolated := h.isolated.put
  distinct := h.distinct
  slots := h.slots

theorem take (h : l.Fits s) (hpop : s.net.packets.pop = some (data, packets))
    (hdue : ∀ packet ∈ l.traffic.flight.head?, packet.2 = data → packet.1 = e.map peer) :
    { l with traffic := l.traffic.take e data }.Fits (s.setPackets packets) := by
  have hflight := h.flight
  rw [Ring.toList_pop hpop] at hflight
  obtain ⟨packet, rest, heq, hdata, hrest⟩ := List.map_eq_cons_iff.mp hflight
  have htag := hdue packet (by rw [heq]; rfl) hdata
  have hhead : l.traffic.flight = (e.map peer, data) :: rest := by rw [heq, ← htag, ← hdata]
  constructor
  · show l.traffic.flight.tail.map Prod.snd = packets.toList
    rw [heq]
    exact hrest
  · exact h.isolated.take peer_injective hhead
  · exact h.distinct
  exact h.slots
end Fits
end StreamTraffic
/-! ### Connecting -/
namespace KState
variable {s : KState} {i : FdNum}
/-- A socket that has a connection to a listener after this has one in a slot
that was free. -/
def Establishes (s : KState) (i : FdNum) (o : Outcome) : Prop :=
  0 ≤ o.rc → StreamTraffic.isLocal (o.state.fds i) = true →
    ∃ c : ConnSlot, (o.state.fds i).sock_conn_id = c.val ∧
      (s.net.conns c).used = false ∧ (o.state.net.conns c).used = true

theorem establishes_fail {t : KState} : s.Establishes i (.fail t) :=
  fun hrc => absurd hrc (Int.not_le.mpr (Int.negSucc_lt_zero 0))

theorem establishes_other {o : Outcome} (h : (o.state.fds i).sock_type ≠ .stream) :
    s.Establishes i o := by
  intro _ hlocal
  rw [StreamTraffic.isLocal, beq_false_of_ne h] at hlocal
  cases hlocal

theorem establishes_gateway (remote_port : UInt16) (remote_ip : UInt32) :
    s.Establishes i (s.connect_gateway i remote_port remote_ip) := by
  unfold connect_gateway
  split
  · exact establishes_fail
  split
  · exact establishes_fail
  intro _ hlocal
  rw [Outcome.ret_state, setFd_self] at hlocal
  simp [StreamTraffic.isLocal] at hlocal

theorem establishes_listener {l : FdNum} (hli : l ≠ i) (remote_port : UInt16)
    (remote_ip : UInt32) : s.Establishes i (s.connect_listener i l remote_port remote_ip) := by
  rcases s.connect_listener_cases hli remote_port remote_ip with
    heq | ⟨port, c, pending, t, heq, hconn, -⟩
  · rw [heq]
    exact establishes_fail
  intro _ _
  rw [heq, Outcome.ret_state, hconn.fds, hconn.conns, set_ne hli.symm, set_self]
  exact ⟨c, rfl, hconn.free, by rw [set_self]⟩

theorem establishes_connect {a0 : UInt64} (hi : s.openSocket a0.toUInt32 = some i)
    (remote_port : UInt16) (remote_ip : UInt32) :
    s.Establishes i (s.connect_socket i remote_port remote_ip) := by
  unfold connect_socket
  obtain ⟨hu, hk⟩ := openSocket_some hi
  split
  · split
    · exact establishes_gateway _ _
    next l hl =>
    have hfirst := first_some hl
    simp only [Bool.and_eq_true, decide_eq_true_eq] at hfirst
    exact establishes_listener hfirst.1 _ _
  next ht =>
    obtain ⟨-, -, -, hne⟩ := dgram_local_port_unseen hu hk ht
    dsimp only
    split
    · apply establishes_other
      rw [Outcome.ret_state, setFd_self]
      exact hne
    exact establishes_fail
  next ht =>
    apply establishes_other
    rw [Outcome.ret_state, setFd_self]
    show (s.fds i).sock_type ≠ .stream
    rw [ht]
    decide
  · exact establishes_fail
end KState
/-! ### One call -/
namespace StreamTraffic
variable {l : StreamTraffic} {s : KState} {o : Outcome} {data : List UInt8} {a0 a1 : UInt64}
  {Q : KState → Prop}
section moves
variable (h : l.Fits s) (hq : ∀ t, Q t → s.net.Keeps t.net)
include h hq
theorem Fits.puts (hm : KState.Puts Q s (s.row a0).onPackets data o) :
    (if o.rc < 0 then l
      else if (s.row a0).onPackets then
        { l with traffic := l.traffic.put (l.endOf s a0) (data.take o.rc.toNat) }
      else l).Fits o.state := by
  cases hm with
  | quiet ht hrc =>
    split
    · exact h.keep (hq _ ht) rfl rfl
    next hdone =>
    rw [if_neg (fun hon => hdone (hrc hon))]
    exact h.keep (hq _ ht) rfl rfl
  | put hon _ hpush =>
  rw [if_neg (Int.not_lt.mpr (Int.natCast_nonneg _)), if_pos hon, Int.toNat_natCast,
    List.take_length]
  exact h.put hpush

theorem Fits.takes {addr : UInt64} {len : Nat}
    (hm : KState.Takes Q s (s.row a0).onPackets addr len o)
    (hdue : (s.row a0).onPackets = true → ∀ packet ∈ l.traffic.flight.head?,
      packet.2.length ≤ len → packet.1 = (l.endOf s a0).map peer) :
    (if o.rc < 0 then l
      else if (s.row a0).onPackets then
        { l with traffic := l.traffic.take (l.endOf s a0) (o.out.flatMap Prod.snd) }
      else l).Fits o.state := by
  cases hm with
  | quiet ht hrc =>
    split
    · exact h.keep (hq _ ht) rfl rfl
    next hdone =>
    rw [if_neg (fun hon => hdone (hrc hon))]
    exact h.keep (hq _ ht) rfl rfl
  | take hon hlen hpop =>
  rw [if_neg (Int.not_lt.mpr (Int.natCast_nonneg _)), if_pos hon, List.flatMap_singleton]
  refine h.take hpop fun packet hp hdata => ?_
  exact hdue hon packet hp (by rw [hdata]; exact hlen)

theorem Fits.connects (hkeeps : Q o.state) (hconn : s.Establishes (fdIndex a0.toUInt32.toNat) o) :
    (l.record s .connect data a0 a1 o).Fits o.state := by
  unfold record
  split
  · exact h.keep (hq _ hkeeps) rfl rfl
  next hdone =>
  dsimp only
  split
  next hlocal =>
    obtain ⟨c, hid, hfree, hused⟩ := hconn (Int.not_lt.mp hdone) hlocal
    exact h.establish (hq _ hkeeps) hfree hused rfl (by rw [hid])
  · exact h.keep (hq _ hkeeps) rfl rfl

theorem Fits.call {op : SyscallOp} (hm : KState.Moves Q s op data a0 a1 o)
    (hconn : op = .connect → s.Establishes (fdIndex a0.toUInt32.toNat) o)
    (hdue : l.Orderly s op a0 data.length) : (l.record s op data a0 a1 o).Fits o.state := by
  -- calls that do not move data change at most the ends of descriptors
  have hquiet : ∀ l' : StreamTraffic, l'.traffic = l.traffic → l'.established = l.established →
      Q o.state → (if o.rc < 0 then l else l').Fits o.state := by
    intro l' htraffic hest ht
    split
    · exact h.keep (hq _ ht) rfl rfl
    exact h.keep (hq _ ht) htraffic hest
  cases op
  case write => exact h.puts hq hm
  case send => exact h.puts hq hm
  case read => exact h.takes hq hm hdue
  case recv => exact h.takes hq hm hdue
  case connect => exact h.connects hq hm (hconn rfl)
  all_goals exact hquiet _ rfl rfl hm
end moves
end StreamTraffic
end QosKernel
