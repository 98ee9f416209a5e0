import QosKernel.Irq.Workqueue

/-! # Polled network devices

`net/napi.c` and the NAPI part of the Rust kernel. An instance is scheduled
by setting its flag and raising a softirq. The handler goes over the table
once, polls every instance whose flag is set, and clears the flag after a
poll that did not use up its budget.

The run of a kernel comes with what callers may expect: which instances are
owed a poll, and how many polls each has had.
-/
open Framework
namespace QosKernel
def QOS_NAPI_MAX : Nat := 32
abbrev NapiSlot := Fin QOS_NAPI_MAX
def QOS_SOFTIRQ_NET_RX : Fin QOS_SOFTIRQ_MAX := ⟨1, by decide⟩

structure NapiEntry where
  used : Bool
  scheduled : Bool
  id : UInt32
  weight : UInt32
  poll : Option UInt64
  ctx : UInt64
  run_count : UInt32

def NapiEntry.new : NapiEntry := ⟨false, false, 0, 0, none, 0, 0⟩

structure Napi where
  entries : NapiSlot → NapiEntry
  next_id : UInt32
  pending_mask : PendingMask

structure NapiRun where
  table : Napi
  /-- What the poll function that is running will return. -/
  work : UInt32
  /-- The instance was scheduled after its last poll began, and not completed
  after that. -/
  owed : NapiSlot → Bool
  /-- The polls that have begun. -/
  polls : NapiSlot → Nat

/-- The calls, and the computation of the return value of a poll function. -/
inductive NapiCall where
  | register (weight : UInt32) (poll : Option UInt64) (ctx : UInt64)
  | schedule (napi_id : UInt32)
  | complete (napi_id : UInt32)
  | work (n : UInt32)

/-- The control points of the handler: the head of its loop with the index and
`need_reschedule`, and the point behind a poll. -/
inductive NapiPoint where
  | head (i : Nat) (need_reschedule : Bool)
  | polled (i : NapiSlot) (weight : UInt32) (need_reschedule : Bool)

namespace Napi
def reset : Napi := ⟨fun _ => .new, 1, softirq_reset⟩

variable (s : Napi)
def setEntry (i : NapiSlot) (e : NapiEntry) : Napi :=
  { s with entries := set s.entries i e }

def find_slot (napi_id : UInt32) : Option NapiSlot :=
  first fun i => (s.entries i).used && (s.entries i).id == napi_id

/-- `napi_register` behind the check of its arguments. -/
def add (weight : UInt32) (poll : Option UInt64) (ctx : UInt64) : Napi :=
  match first fun i => !(s.entries i).used with
  | none => s
  | some i =>
    -- ids are given out as for pieces of work
    let (id, next_id) := Workqueue.take_id s.next_id
    { s with entries := set s.entries i ⟨true, false, id, weight, poll, ctx, 0⟩, next_id := next_id }

def raise : Napi :=
  { s with pending_mask := softirq_raise s.pending_mask QOS_SOFTIRQ_NET_RX }
end Napi
namespace NapiRun
def reset : NapiRun := ⟨.reset, 0, fun _ => false, fun _ => 0⟩

section
variable (s : NapiRun) (i : NapiSlot)
/-- `napi_schedule` of the instance in a slot. -/
def schedule : NapiRun :=
  { s with
    table := (s.table.setEntry i { s.table.entries i with scheduled := true }).raise
    owed := set s.owed i true }

/-- `napi_complete` of the instance in a slot. -/
def complete : NapiRun :=
  { s with
    table := s.table.setEntry i { s.table.entries i with scheduled := false }
    owed := set s.owed i false }

def begin : NapiRun :=
  { s with owed := set s.owed i false, polls := set s.polls i (s.polls i + 1) }
end
def take (s : NapiRun) : Option (NapiRun × Option NapiPoint) :=
  (softirq_take s.table.pending_mask).map fun (mask, vector) =>
    ({ s with table := { s.table with pending_mask := mask } },
      if vector = QOS_SOFTIRQ_NET_RX then some (.head 0 false) else none)

/-- The weight that a poll function gets as its budget. -/
def budget (e : NapiEntry) : UInt32 := if e.weight == 0 then 1 else e.weight

/-- The handler up to the next poll, or to its end. -/
def handler (s : NapiRun) : NapiPoint → NapiRun × Next NapiPoint
  | .head i need_reschedule =>
    if h : i < QOS_NAPI_MAX then
      let e := s.table.entries ⟨i, h⟩
      if e.used && e.scheduled && e.poll.isSome then
        (s.begin ⟨i, h⟩, .invoke (.polled ⟨i, h⟩ (budget e) need_reschedule))
      else (s, .goto (.head (i + 1) need_reschedule))
    else (if need_reschedule then { s with table := s.table.raise } else s, .done)
  | .polled i _ need_reschedule => (s, .goto (.head (i + 1) need_reschedule))

/-- The handler behind a poll: `after` gives the entry, and whether it has to be
polled again. -/
def finish (after : NapiEntry → UInt32 → UInt32 → NapiEntry × Bool) (s : NapiRun) :
    NapiPoint → NapiRun × Next NapiPoint
  | .polled i weight need_reschedule =>
    let r := after (s.table.entries i) s.work weight
    ({ s with table := s.table.setEntry i r.1 }, .goto (.head (i + 1) (need_reschedule || r.2)))
  | .head i need_reschedule => (s, .goto (.head i need_reschedule))
end NapiRun
/-! ### The two kernels -/
namespace CNapi
def call (s : NapiRun) : NapiCall → Option NapiRun
  | .register weight poll ctx =>
    some (if poll.isNone || weight == 0 then s
      else { s with table := s.table.add weight poll ctx })
  | .schedule napi_id =>
    some (match s.table.find_slot napi_id with
      | none => s
      | some i => s.schedule i)
  | .complete napi_id =>
    some (match s.table.find_slot napi_id with
      | none => s
      | some i => s.complete i)
  | .work n => some { s with work := n }

/-- The end of a round of `napi_softirq_handler`. -/
def after (e : NapiEntry) (work weight : UInt32) : NapiEntry × Bool :=
  if work < weight then ({ e with run_count := e.run_count + 1, scheduled := false }, false)
  else ({ e with run_count := e.run_count + 1 }, true)

def service : Service NapiRun NapiCall NapiPoint where
  init := .reset
  call := call
  take := NapiRun.take
  tau := NapiRun.handler
  resume := NapiRun.finish after
end CNapi
namespace RustNapi
def call (s : NapiRun) : NapiCall → Option NapiRun
  | .register weight poll ctx =>
    if poll.isNone then none
    else some (if weight == 0 then s else { s with table := s.table.add weight poll ctx })
  | .schedule napi_id =>
    some (if napi_id == 0 then s
      else match s.table.find_slot napi_id with
        | none => s
        | some i => s.schedule i)
  | .complete napi_id =>
    some (if napi_id == 0 then s
      else match s.table.find_slot napi_id with
        | none => s
        | some i => s.complete i)
  | .work n => some { s with work := n }

/-- The end of a round of `napi_softirq_handler`, which looks again whether the
entry is in use. -/
def after (e : NapiEntry) (work weight : UInt32) : NapiEntry × Bool :=
  if !e.used then (e, false)
  else if work < weight then
    ({ e with run_count := UInt32.saturating_add e.run_count 1, scheduled := false }, false)
  else ({ e with run_count := UInt32.saturating_add e.run_count 1 }, true)

def service : Service NapiRun NapiCall NapiPoint where
  init := .reset
  call := call
  take := NapiRun.take
  tau := NapiRun.handler
  resume := NapiRun.finish after
end RustNapi
end QosKernel
