import QosKernel.Framework.Bits
import QosKernel.Framework.Ring
import QosKernel.Framework.Service
import QosKernel.Irq.Softirq

/-! # The work queue

`workqueue/workqueue.c` and the Rust kernel keep 128 work entries and a
ring of entry indices. Cancelling frees the entry and leaves its index in
the ring, so an entry that is used again may stand in the ring several
times. The kernels differ in when and how they count completed work.

The run of a kernel comes with its history: what was enqueued, which work
was started, and what was cancelled.
-/
open Framework
namespace QosKernel
def QOS_WORKQUEUE_MAX : Nat := 128
abbrev WorkSlot := Fin QOS_WORKQUEUE_MAX

structure WorkEntry where
  used : Bool
  pending : Bool
  id : UInt32
  fn : Option UInt64
  arg : UInt64

def WorkEntry.new : WorkEntry := ⟨false, false, 0, none, 0⟩

structure Workqueue where
  entries : WorkSlot → WorkEntry
  /-- `queue` with `qhead`, `qtail` and `qcount`. -/
  queue : Ring Nat QOS_WORKQUEUE_MAX
  next_id : UInt32
  completed : UInt32
  pending_mask : PendingMask

namespace Workqueue
def reset : Workqueue where
  entries _ := .new
  queue := .empty (by decide) 0
  next_id := 1
  completed := 0
  pending_mask := softirq_reset

/-- The next id, which is never 0, and the counter behind it. -/
def take_id (next_id : UInt32) : UInt32 × UInt32 :=
  if next_id = 0 then (next_id + 1, next_id + 1 + 1) else (next_id, next_id + 1)

variable (s : Workqueue)
/-- `workqueue_enqueue` behind the check of `fn`: the id of the work, if the
call succeeds. An entry whose index does not fit in the ring is cleared
again, but its id is gone. -/
def enqueue (fn : Option UInt64) (arg : UInt64) : Option UInt32 × Workqueue :=
  match first fun i => !(s.entries i).used with
  | none => (none, s)
  | some i =>
    let (id, next_id) := take_id s.next_id
    match s.queue.push i with
    | none => (none, { s with entries := set s.entries i .new, next_id := next_id })
    | some queue =>
      (some id, { s with
        entries := set s.entries i ⟨true, true, id, fn, arg⟩
        queue := queue
        next_id := next_id
        pending_mask := softirq_raise s.pending_mask QOS_SOFTIRQ_WORKQUEUE })

def find_slot_by_id (work_id : UInt32) : Option WorkSlot :=
  first fun i => (s.entries i).used && (s.entries i).id == work_id

/-- `workqueue_cancel`. -/
def cancel (work_id : UInt32) : Bool × Workqueue :=
  if work_id = 0 then (false, s)
  else
    match s.find_slot_by_id work_id with
    | none => (false, s)
    | some i => (true, { s with entries := set s.entries i .new })

/-- One round of the handler's loop: `none` when the ring is empty, and
otherwise the work to run, if the entry holds some. -/
def next : Option (Workqueue × Option WorkEntry) :=
  match s.queue.pop with
  | none => none
  | some (slot, queue) =>
    if h : slot < QOS_WORKQUEUE_MAX then
      let entry := s.entries ⟨slot, h⟩
      let s' := { s with queue := queue, entries := set s.entries ⟨slot, h⟩ .new }
      if !entry.used || !entry.pending || entry.fn.isNone then some (s', none)
      else some (s', some entry)
    else some ({ s with queue := queue }, none)
end Workqueue
/-! ### Runs and histories -/
/-- A piece of work, with the id under which it was enqueued. -/
structure WorkItem where
  id : UInt32
  fn : Option UInt64
  arg : UInt64
  deriving DecidableEq

def WorkEntry.item (e : WorkEntry) : WorkItem := ⟨e.id, e.fn, e.arg⟩

structure WorkRun where
  table : Workqueue
  /-- The enqueue calls so far, failed ones included. -/
  calls : Nat
  enqueued : List WorkItem
  started : List WorkItem
  /-- The ids for which a cancel succeeded. -/
  cancelled : List UInt32

inductive WorkCall where
  | enqueue (fn : Option UInt64) (arg : UInt64)
  | cancel (work_id : UInt32)

namespace WorkRun
def reset : WorkRun := ⟨.reset, 0, [], [], []⟩

section
variable (s : WorkRun)
def enqueue (fn : Option UInt64) (arg : UInt64) : WorkRun :=
  { s with
    table := (s.table.enqueue fn arg).2
    calls := s.calls + 1
    enqueued := s.enqueued ++ ((s.table.enqueue fn arg).1.map fun id => ⟨id, fn, arg⟩).toList }

def cancel (work_id : UInt32) : WorkRun :=
  { s with
    table := (s.table.cancel work_id).2
    cancelled := if (s.table.cancel work_id).1 then s.cancelled ++ [work_id] else s.cancelled }

/-- One round of the loop of `softirq_run`. -/
def take : Option (WorkRun × Option Unit) :=
  (softirq_take s.table.pending_mask).map fun (mask, vector) =>
    ({ s with table := { s.table with pending_mask := mask } },
      if vector = QOS_SOFTIRQ_WORKQUEUE then some () else none)
end
variable (count : UInt32 → UInt32) (s : WorkRun)
/-- The completed work is counted by `count`. -/
def complete : WorkRun :=
  { s with table := { s.table with completed := count s.table.completed } }

/-- The loop of the handlers: work that is started is counted by `count`
first. -/
def handler : WorkRun × Next Unit :=
  match s.table.next with
  | none => (s, .done)
  | some (table, none) => ({ s with table := table }, .goto ())
  | some (table, some entry) =>
    (complete count { s with table := table, started := s.started ++ [entry.item] }, .invoke ())
end WorkRun
/-! ### The two kernels -/
namespace CWork
def call (s : WorkRun) : WorkCall → Option WorkRun
  | .enqueue fn arg =>
    some (if fn.isNone then { s with calls := s.calls + 1 } else s.enqueue fn arg)
  | .cancel work_id => some (s.cancel work_id)

/-- `workqueue_softirq_handler`: `g_completed` is counted when the work
returns. -/
def workqueue_softirq_handler (s : WorkRun) : WorkRun × Next Unit := s.handler id

def service : Service WorkRun WorkCall Unit where
  init := .reset
  call := call
  take := WorkRun.take
  tau s _ := workqueue_softirq_handler s
  resume s _ := (s.complete (· + 1), .goto ())
end CWork
namespace RustWork
/-- A function pointer of Rust is never null. -/
def call (s : WorkRun) : WorkCall → Option WorkRun
  | .enqueue fn arg => if fn.isNone then none else some (s.enqueue fn arg)
  | .cancel work_id => some (s.cancel work_id)

/-- `workqueue_softirq_handler`: `completed` is counted before the work is
started. -/
def workqueue_softirq_handler (s : WorkRun) : WorkRun × Next Unit :=
  s.handler (UInt32.saturating_add · 1)

def service : Service WorkRun WorkCall Unit where
  init := .reset
  call := call
  take := WorkRun.take
  tau s _ := workqueue_softirq_handler s
  resume s _ := (s, .goto ())
end RustWork
end QosKernel
