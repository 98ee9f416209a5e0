import QosKernel.Framework.ArrayLoops
import QosKernel.Framework.Slots

/-! # UDP ports and datagrams

The table of bound ports and the shared datagram array of
`c-os/kernel/net/net.c` and of the `net_udp_` functions of
`rust-os/kernel/src/lib.rs`. The two kernels keep the same data (the Rust
kernel as one array for each field) and edit it with the same loops; their
functions differ in the checks they make and in what they return.
-/
open Framework
namespace QosKernel
def QOS_NET_UDP_PORT_MAX : Nat := 64
abbrev PortSlot := Fin QOS_NET_UDP_PORT_MAX
def QOS_NET_UDP_MAX_DATAGRAMS : Nat := 64
def QOS_NET_MAX_PACKET : Nat := 1500
def QOS_NET_PORT_MIN_DYNAMIC : UInt16 := 1024

/-- One element of the datagram array; `data` is a buffer of
`QOS_NET_MAX_PACKET` bytes, of which the first `len` are the payload. -/
structure Datagram where
  used : Bool
  dst_port : UInt16
  src_port : UInt16
  src_ip : UInt32
  len : UInt16
  data : List UInt8
  deriving DecidableEq, Repr

def Datagram.zero : Datagram := ⟨false, 0, 0, 0, 0, List.replicate QOS_NET_MAX_PACKET 0⟩

/-- What a datagram carries to the receiver. -/
structure Message where
  src_port : UInt16
  src_ip : UInt32
  payload : List UInt8
  deriving DecidableEq, Repr

def Datagram.message (d : Datagram) : Message :=
  ⟨d.src_port, d.src_ip, d.data.take d.len.toNat⟩

/-- The port table, the datagram array and the number of its elements in
use. -/
structure Udp where
  ports : PortSlot → Option UInt16
  datagrams : Nat → Datagram
  udp_count : Nat

namespace Udp
def reset : Udp := ⟨fun _ => none, fun _ => Datagram.zero, 0⟩

/-! ### Shared pieces -/
def port_is_bound (s : Udp) (port : UInt16) : Bool :=
  (first fun i => s.ports i == some port).isSome

/-- The test of the loops over the datagrams. -/
def addressed (port : UInt16) (d : Datagram) : Bool := d.used && d.dst_port == port

variable (s : Udp)
section
variable (port : UInt16)
/-- Takes a free entry of the port table. -/
def bind_port : Option Udp :=
  match first fun i => (s.ports i).isNone with
  | some i => some { s with ports := set s.ports i (some port) }
  | none => none

/-- Compacts the array over the datagrams for `port`, then clears the rest.
The clearing loop advances `dst` to the old count, which becomes the new
count. -/
def drop_port_datagrams : Udp :=
  let r := compact (addressed port) s.datagrams 0 0 s.udp_count
  let cleared := s.udp_count - r.2
  { s with
    datagrams := fill Datagram.zero r.1 r.2 cleared
    udp_count := r.2 + cleared }

/-- Releases the entry of a port and drops its datagrams. -/
def unbind_port : Option Udp :=
  match first fun i => s.ports i == some port with
  | some i => some ({ s with ports := set s.ports i none }.drop_port_datagrams port)
  | none => none
end
def store (dst_port : UInt16) (m : Message) : Udp :=
  let old := s.datagrams s.udp_count
  { s with
    datagrams := set s.datagrams s.udp_count
      ⟨true, dst_port, m.src_port, m.src_ip, UInt16.ofNat m.payload.length,
        m.payload ++ old.data.drop m.payload.length⟩
    udp_count := s.udp_count + 1 }

def remove (i : Nat) : Udp :=
  { s with
    datagrams := set (shiftDown s.datagrams i (s.udp_count - 1 - i)) (s.udp_count - 1)
      Datagram.zero
    udp_count := s.udp_count - 1 }
end Udp
/-! ### The C functions

`data` is the buffer behind the pointer, `none` for the null pointer; `out`
is the capacity of the receive buffer, `none` for the null pointer. -/
namespace CUdp
variable (s : Udp)
def qos_net_udp_bind (port : UInt16) : Int × Udp :=
  if port < QOS_NET_PORT_MIN_DYNAMIC || s.port_is_bound port then (-1, s)
  else
    match s.bind_port port with
    | some s' => (0, s')
    | none => (-1, s)

def qos_net_udp_unbind (port : UInt16) : Int × Udp :=
  match s.unbind_port port with
  | some s' => (0, s')
  | none => (-1, s)

def qos_net_udp_send (src_port : UInt16) (src_ip : UInt32) (dst_port : UInt16)
    (data : Option (List UInt8)) : Int × Udp :=
  match data with
  | none => (-1, s)
  | some bytes =>
    if src_port < QOS_NET_PORT_MIN_DYNAMIC || src_ip == 0 || dst_port == 0 ||
        bytes.length == 0 || QOS_NET_MAX_PACKET < bytes.length then (-1, s)
    else if !s.port_is_bound dst_port then (bytes.length, s)
    else if QOS_NET_UDP_MAX_DATAGRAMS ≤ s.udp_count then (-1, s)
    else (bytes.length, s.store dst_port ⟨src_port, src_ip, bytes⟩)

/-- The return value, what is written to the caller, and the state. -/
def qos_net_udp_recv (dst_port : UInt16) (out : Option Nat) :
    Int × Option Message × Udp :=
  match out with
  | none => (-1, none, s)
  | some cap =>
    if dst_port == 0 || cap == 0 then (-1, none, s)
    else
      match search (Udp.addressed dst_port) s.datagrams 0 s.udp_count with
      | none => (-1, none, s)
      | some i =>
        let d := s.datagrams i
        if cap < d.len.toNat then (-1, none, s)
        else (d.len.toNat, some d.message, s.remove i)
end CUdp
/-! ### The Rust functions

Slices are never null: a null buffer stands for an empty slice. -/
namespace RustUdp
variable (s : Udp)
def net_udp_bind (port : UInt16) : Bool × Udp :=
  if port < QOS_NET_PORT_MIN_DYNAMIC then (false, s)
  else if s.port_is_bound port then (false, s)
  else
    match s.bind_port port with
    | some s' => (true, s')
    | none => (false, s)

def net_udp_unbind (port : UInt16) : Bool × Udp :=
  if port < QOS_NET_PORT_MIN_DYNAMIC then (false, s)
  else
    match s.unbind_port port with
    | some s' => (true, s')
    | none => (false, s)

def net_udp_send (src_port : UInt16) (src_ip : UInt32) (dst_port : UInt16)
    (data : List UInt8) : Option Nat × Udp :=
  if src_port < QOS_NET_PORT_MIN_DYNAMIC || src_ip == 0 || dst_port == 0 || data.isEmpty ||
      QOS_NET_MAX_PACKET < data.length then (none, s)
  else if !s.port_is_bound dst_port || QOS_NET_UDP_MAX_DATAGRAMS ≤ s.udp_count then (none, s)
  else (some data.length, s.store dst_port ⟨src_port, src_ip, data⟩)

/-- `out` is the length of the slice. -/
def net_udp_recv (dst_port : UInt16) (out : Nat) : Option Message × Udp :=
  if dst_port == 0 || out == 0 then (none, s)
  else
    match search (Udp.addressed dst_port) s.datagrams 0 s.udp_count with
    | none => (none, s)
    | some i =>
      let d := s.datagrams i
      if out < d.len.toNat then (none, s) else (some d.message, s.remove i)
end RustUdp
/-! ### What the pieces do to the stored datagrams -/
namespace Udp
variable {s s' : Udp} {port : UInt16}
def queue (s : Udp) : List Datagram := view s.datagrams s.udp_count
@[simp] theorem queue_length (s : Udp) : s.queue.length = s.udp_count := by simp [queue]

theorem port_is_bound_iff : s.port_is_bound port = true ↔ ∃ i, s.ports i = some port := by
  rw [port_is_bound, first_isSome]
  simp

theorem bind_port_some (h : s.bind_port port = some s') :
    ∃ i, s.ports i = none ∧ s' = { s with ports := set s.ports i (some port) } := by
  unfold bind_port at h
  rcases hf : first fun i => (s.ports i).isNone with _ | i
  · simp [hf] at h
  simp only [hf, Option.some.injEq] at h
  exact ⟨i, by simpa using first_some hf, h.symm⟩

theorem unbind_port_some (h : s.unbind_port port = some s') :
    ∃ i, s.ports i = some port ∧
      s' = { s with ports := set s.ports i none }.drop_port_datagrams port := by
  unfold unbind_port at h
  rcases hf : first fun i => s.ports i == some port with _ | i
  · simp [hf] at h
  simp only [hf, Option.some.injEq] at h
  exact ⟨i, by simpa using first_some hf, h.symm⟩

/-- Dropping the datagrams of a port keeps the others in order, but does not
shorten the array: cleared elements stand in for those that are gone. -/
theorem queue_drop (s : Udp) (port : UInt16) :
    (s.drop_port_datagrams port).queue = (s.queue.filter fun d => !addressed port d) ++
        List.replicate (s.udp_count - (s.queue.filter fun d => !addressed port d).length)
          Datagram.zero := by
  obtain ⟨hview, hle⟩ := view_compact (addressed port) s.udp_count s.datagrams 0 0 (Nat.le_refl 0)
  simp only [Nat.zero_add] at hview hle
  -- the final `dst` of the compaction is the number of datagrams kept
  have hkept : (s.queue.filter fun d => !addressed port d).length =
      (compact (addressed port) s.datagrams 0 0 s.udp_count).2 := by
    have := congrArg List.length hview
    simpa [queue, view] using this.symm
  rw [queue, drop_port_datagrams]
  simp only
  rw [Nat.add_sub_cancel' hle, view_fill _ _ hle, hview, hkept]
  rfl

theorem queue_store (s : Udp) (dst_port : UInt16) {m : Message}
    (hlen : m.payload.length ≤ QOS_NET_MAX_PACKET) :
    ∃ d : Datagram, (s.store dst_port m).queue = s.queue ++ [d] ∧ d.used = true ∧
      d.dst_port = dst_port ∧ d.message = m := by
  refine ⟨⟨true, dst_port, m.src_port, m.src_ip, UInt16.ofNat m.payload.length,
    m.payload ++ (s.datagrams s.udp_count).data.drop m.payload.length⟩, ?_, rfl, rfl, ?_⟩
  · rw [queue, store]
    simp only
    rw [view_succ, view_set_ge (Nat.le_refl _), set_self]
    rfl
  have hsmall : m.payload.length < 65536 := Nat.lt_of_le_of_lt hlen (by decide)
  have hround : (UInt16.ofNat m.payload.length).toNat = m.payload.length := by
    rw [UInt16.toNat_ofNat']
    omega
  simp [Datagram.message, hround]

theorem queue_remove {i : Nat} (h : search (addressed port) s.datagrams 0 s.udp_count = some i) :
    ∃ pre post, s.queue = pre ++ s.datagrams i :: post ∧ (s.remove i).queue = pre ++ post ∧
      addressed port (s.datagrams i) = true ∧ ∀ d ∈ pre, addressed port d = false := by
  obtain ⟨hsplit, hp, hpre⟩ := search_split h
  have hi := (search_some h).2.1
  refine ⟨view s.datagrams i, _, hsplit, ?_, hp, hpre⟩
  exact view_shiftDown (by omega) Datagram.zero
end Udp
end QosKernel
