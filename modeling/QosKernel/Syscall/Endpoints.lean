import QosKernel.Syscall.CTables

/-! # Endpoints

What descriptors are ends of: pipes and stream connections. `Endpoints`
forgets everything else about the descriptor table. `Effect` says once
what a system call can do to it, and `Event` what the caller learns of
that; the books of pipes and connections are kept from the events.
-/
open Framework
namespace QosKernel
/-- What connections know of a stream socket. -/
structure StreamSock where
  lport : UInt16
  rport : UInt16
  listening : Bool
  connected : Bool
  backlog : Nat
  conn_id : Int
  pending : List PendingConn

/-- A socket as `SOCKET` makes it. -/
def StreamSock.fresh : StreamSock := ⟨0, 0, false, false, 0, -1, []⟩

/-- The socket with a connection from `port`. -/
def StreamSock.connect (k : StreamSock) (port remote_port : UInt16) (conn_id : Int) : StreamSock :=
  { k with lport := port, connected := true, rport := remote_port, conn_id := conn_id }

/-- The socket that a listener gives out for a waiting connection. -/
def StreamSock.accept (k : StreamSock) (peer : PendingConn) : StreamSock :=
  ⟨k.lport, peer.rport, false, true, 0, peer.conn_id, []⟩

inductive Endpoint where
  | free
  | reader (pipe : Nat)
  | writer (pipe : Nat)
  | stream (sock : StreamSock)
  | other

/-- The pipe that a descriptor is an end of. -/
def Endpoint.pipe? : Endpoint → Option Nat
  | .reader p | .writer p => some p
  | .free | .stream _ | .other => none

structure Endpoints where
  rows : FdNum → Endpoint
  /-- What is buffered in the pipes that are in use. -/
  pipes : Nat → Option (List UInt8)
  conns : ConnSlot → TcpConn

/-- What the caller of a system call sees of it. Calls that fail, and calls
on anything else, are quiet. -/
inductive Event where
  | quiet
  | opened (i : FdNum)
  | closed (i : FdNum)
  | copied (i j : FdNum)
  | piped (r w : FdNum)
  | got (i : FdNum) (bytes : List UInt8)
  | wrote (i : FdNum) (bytes : List UInt8)
  /-- Descriptor `i` has connection `conn_id` to a listener on `port`. -/
  | connected (i : FdNum) (port : UInt16) (conn_id : Int)
  /-- The new descriptor `j` has connection `conn_id` to the listener `i`, which
  listens on `port`. -/
  | accepted (i j : FdNum) (port : UInt16) (conn_id : Int)

namespace Endpoints
def reset : Endpoints := ⟨fun _ => .free, fun _ => none, fun _ => .zero⟩

/-- Some row is an end of the pipe. -/
def Piped (rows : FdNum → Endpoint) (p : Nat) : Prop := ∃ i, (rows i).pipe? = some p

open Classical in
/-- The rows change, and pipes without ends are given back. -/
noncomputable def collect (v : Endpoints) (rows : FdNum → Endpoint) : Endpoints :=
  { v with rows := rows, pipes := fun p => if Piped rows p then v.pipes p else none }

def setRow (v : Endpoints) (i : FdNum) (row : Endpoint) : Endpoints :=
  { v with rows := set v.rows i row }

/-- What a system call can do. -/
inductive Effect (v : Endpoints) : Event → Endpoints → Prop where
  | same : Effect v .quiet v
  | opened {i : FdNum} {row : Endpoint} :
      v.rows i = .free → row = .other ∨ row = .stream .fresh →
      Effect v (.opened i) (v.setRow i row)
  | closed {i : FdNum} : Effect v (.closed i) (v.collect (set v.rows i .free))
  | copied {i j : FdNum} : Effect v (.copied i j) (v.collect (set v.rows j (v.rows i)))
  | piped {r w : FdNum} {p : Nat} :
      v.rows r = .free → v.rows w = .free → w ≠ r → v.pipes p = none →
      Effect v (.piped r w) { v with
        rows := set (set v.rows r (.reader p)) w (.writer p), pipes := set v.pipes p (some []) }
  | read {i : FdNum} {p : Nat} {buf : List UInt8} (n : Nat) :
      v.rows i = .reader p → v.pipes p = some buf →
      Effect v (.got i (buf.take n)) { v with pipes := set v.pipes p (some (buf.drop n)) }
  | written {i : FdNum} {p : Nat} {buf data : List UInt8} :
      v.rows i = .writer p → v.pipes p = some buf → (buf ++ data).length ≤ QOS_PIPE_CAP →
      Effect v (.wrote i data) { v with pipes := set v.pipes p (some (buf ++ data)) }
  /-- Not from a pipe. -/
  | readElse {i : FdNum} {bytes : List UInt8} :
      (v.rows i).pipe? = none → Effect v (.got i bytes) v
  | writtenElse {i : FdNum} {bytes : List UInt8} :
      (v.rows i).pipe? = none → Effect v (.wrote i bytes) v
  | bound {i : FdNum} {k : StreamSock} {port : UInt16} :
      v.rows i = .stream k → k.lport = 0 →
      Effect v .quiet (v.setRow i (.stream { k with lport := port }))
  | listening {i : FdNum} {k : StreamSock} {backlog : Nat} :
      v.rows i = .stream k → k.lport ≠ 0 → 0 < backlog →
      Effect v .quiet (v.setRow i (.stream { k with listening := true, backlog := backlog }))
  /-- A connection to the host behind the gateway has no slot. -/
  | gateway {i : FdNum} {k : StreamSock} {port remote_port : UInt16} :
      v.rows i = .stream k → k.lport = 0 ∨ k.lport = port → port ≠ 0 →
      Effect v .quiet (v.setRow i (.stream (k.connect port remote_port (-1))))
  | connected {i l : FdNum} {k m : StreamSock} {port : UInt16} {remote_ip : UInt32}
      {c : ConnSlot} :
      v.rows i = .stream k → v.rows l = .stream m → l ≠ i → m.listening = true → m.lport ≠ 0 →
      k.lport = 0 ∨ k.lport = port → port ≠ 0 → (v.conns c).used = false →
      Effect v (.connected i m.lport c.val) { v with
        rows := set (set v.rows i (.stream (k.connect port m.lport c.val))) l
          (.stream { m with pending := m.pending ++ [⟨port, QOS_NET_IPV4_LOCAL, c.val⟩] })
        conns := set v.conns c ⟨true, .established, port, m.lport, remote_ip, 500, 0⟩ }
  | accepted {i j : FdNum} {k : StreamSock} {peer : PendingConn}
      {rest : List PendingConn} :
      v.rows i = .stream k → k.listening = true → v.rows j = .free → k.pending = peer :: rest →
      Effect v (.accepted i j k.lport peer.conn_id) { v with
        rows := set (set v.rows j (.stream (k.accept peer))) i
          (.stream { k with pending := rest }) }
end Endpoints
end QosKernel
