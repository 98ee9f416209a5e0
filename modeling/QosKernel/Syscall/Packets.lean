import QosKernel.Syscall.CEndpoints
import QosKernel.Syscall.QuietMoves

/-! # Data that goes through the packet queue

The data of local streams is kept in the packet queue of the network, which
all sockets share. `Puts` and `Takes` say what a call that sends or
receives data does to it: it puts one packet at the end of the queue, or
takes the first one, or the queue stays as it is.
-/
open Framework
namespace QosKernel
/-- A socket whose data goes through the packet queue. -/
def Fd.onPackets (fd : Fd) : Bool :=
  fd.kind == .socket && (fd.sock_type == .stream || fd.sock_type == .none) && !KState.toGateway fd

namespace Fd
variable {fd : Fd}
theorem onPackets_kind (h : fd.kind ≠ .socket) : fd.onPackets = false := by
  rw [onPackets, beq_false_of_ne h]
  rfl

theorem onPackets_gateway (h : KState.toGateway fd = true) : fd.onPackets = false := by
  rw [onPackets, h, Bool.not_true, Bool.and_false]

theorem onPackets_raw (h : fd.sock_type = .raw) : fd.onPackets = false := by
  rw [onPackets, h]
  cases fd.kind <;> rfl

theorem onPackets_dgram (h : fd.sock_type = .dgram) : fd.onPackets = false := by
  rw [onPackets, h]
  cases fd.kind <;> rfl

theorem onPackets_local (hk : fd.kind = .socket)
    (ht : fd.sock_type = .stream ∨ fd.sock_type = .none) (hg : ¬KState.toGateway fd = true) :
    fd.onPackets = true := by
  rw [Bool.not_eq_true] at hg
  rw [onPackets, hk, hg]
  rcases ht with ht | ht
  · rw [ht]
    rfl
  rw [ht]
  rfl
end Fd
namespace KState
variable {a0 : UInt64} {i : FdNum}
/-- The row of the descriptor that the first argument of a call names, if it is
open. -/
def row (s : KState) (a0 : UInt64) : Fd := ((s.openFd a0.toUInt32).map s.fds).getD .closed

theorem row_of_openFd {s : KState} (hi : s.openFd a0.toUInt32 = some i) : s.row a0 = s.fds i := by
  rw [row, hi]
  rfl

theorem row_of_openSocket {s : KState} (hi : s.openSocket a0.toUInt32 = some i) :
    s.row a0 = s.fds i ∧ (s.fds i).kind = .socket := by
  unfold openSocket at hi
  split at hi
  · cases hi
  next j hj =>
  split at hi
  next hk =>
    cases hi
    exact ⟨row_of_openFd hj, by simpa using hk⟩
  · cases hi

/-- The packet queue is all that changes. -/
def setPackets (s : KState) (packets : Ring (List UInt8) QOS_NET_MAX_QUEUE) : KState :=
  { s with net := { s.net with packets := packets } }

/-- What a call that sends `data` does. `on` tells whether it is on a socket
that uses the queue; if the queue stays as it is, the new state has `Q`. -/
inductive Puts (Q : KState → Prop) (s : KState) (on : Bool) (data : List UInt8) :
    Outcome → Prop where
  | quiet {o : Outcome} : Q o.state → (on = true → o.rc < 0) → Puts Q s on data o
  | put {packets : Ring (List UInt8) QOS_NET_MAX_QUEUE} :
      on = true → data.length ≤ QOS_NET_MAX_PACKET → s.net.packets.push data = some packets →
      Puts Q s on data ⟨data.length, [], s.setPackets packets⟩

/-- What a call that receives up to `len` bytes at `addr` does. -/
inductive Takes (Q : KState → Prop) (s : KState) (on : Bool) (addr : UInt64) (len : Nat) :
    Outcome → Prop where
  | quiet {o : Outcome} : Q o.state → (on = true → o.rc < 0) → Takes Q s on addr len o
  | take {data : List UInt8} {packets : Ring (List UInt8) QOS_NET_MAX_QUEUE} :
      on = true → data.length ≤ len → s.net.packets.pop = some (data, packets) →
      Takes Q s on addr len ⟨data.length, [(addr, data)], s.setPackets packets⟩

/-- What a system call does: those that send and receive data may change the
queue, and the others do not. `data` is what the caller has in the buffer
at `a1`. -/
def Moves (Q : KState → Prop) (s : KState) (op : SyscallOp) (data : List UInt8) (a0 a1 : UInt64)
    (o : Outcome) : Prop :=
  match op with
  | .write | .send => Puts Q s (s.row a0).onPackets data o
  | .read | .recv => Takes Q s (s.row a0).onPackets a1 data.length o
  | _ => Q o.state

variable {Q Q' : KState → Prop} {s : KState} {on : Bool} {data : List UInt8} {addr : UInt64}
  {len : Nat} {o : Outcome}
theorem Puts.fail (hs : Q s) : Puts Q s on data (.fail s) :=
  .quiet hs fun _ => Int.negSucc_lt_zero 0

theorem Takes.fail (hs : Q s) : Takes Q s on addr len (.fail s) :=
  .quiet hs fun _ => Int.negSucc_lt_zero 0

theorem Puts.off (hoff : on = false) (hq : Q o.state) : Puts Q s on data o := by
  refine .quiet hq fun hon => ?_
  rw [hoff] at hon
  cases hon

theorem Takes.off (hoff : on = false) (hq : Q o.state) : Takes Q s on addr len o := by
  refine .quiet hq fun hon => ?_
  rw [hoff] at hon
  cases hon

theorem Puts.mono (h : Puts Q s on data o) (hq : ∀ t, Q t → Q' t) : Puts Q' s on data o := by
  cases h with
  | quiet ht hrc => exact .quiet (hq _ ht) hrc
  | put hon hlen hpush => exact .put hon hlen hpush

theorem Takes.mono (h : Takes Q s on addr len o) (hq : ∀ t, Q t → Q' t) :
    Takes Q' s on addr len o := by
  cases h with
  | quiet ht hrc => exact .quiet (hq _ ht) hrc
  | take hon hlen hpop => exact .take hon hlen hpop

/-- What holds behind every such state, and does not depend on the queue, is
kept. -/
theorem Moves.keeps {P : KState → Prop} {op : SyscallOp} {a1 : UInt64}
    (h : Moves Q s op data a0 a1 o) (hq : ∀ t, Q t → P t) (hp : ∀ packets, P (s.setPackets packets)) :
    P o.state := by
  have hputs : ∀ on, Puts Q s on data o → P o.state := by
    intro on hput
    cases hput with
    | quiet ht => exact hq _ ht
    | put => exact hp _
  have htakes : ∀ on, Takes Q s on a1 data.length o → P o.state := by
    intro on htake
    cases htake with
    | quiet ht => exact hq _ ht
    | take => exact hp _
  cases op
  case write => exact hputs _ h
  case send => exact hputs _ h
  case read => exact htakes _ h
  case recv => exact htakes _ h
  all_goals exact hq _ h

theorem packet_put_puts (hs : Q s) (hon : on = true) : Puts Q s on data (s.packet_put data) := by
  simp only [packet_put, Net.qos_net_enqueue_packet]
  split
  · exact .fail hs
  next hdata =>
  simp only [Bool.or_eq_true, decide_eq_true_eq, not_or, Nat.not_lt] at hdata
  split
  · exact .fail hs
  next hpush => exact .put hon hdata.2 hpush

theorem packet_take_takes (hs : Q s) (hon : on = true) (len : Nat) :
    Takes Q s on addr len (s.packet_take addr len) := by
  simp only [packet_take, Net.qos_net_dequeue_packet]
  split
  · exact .quiet hs fun _ => Int.negSucc_lt_zero 0
  split
  · exact .quiet hs fun _ => Int.negSucc_lt_zero 0
  next hpop =>
  split
  · exact .quiet hs fun _ => Int.negSucc_lt_zero 0
  next hlen => exact .take hon (Nat.le_of_not_lt hlen) hpop
end KState
end QosKernel
