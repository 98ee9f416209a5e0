import QosKernel.Irq.TimerHistory
import QosKernel.Locks.Sections

/-! # Softirqs, timers, kernel threads, polling and work

The functions of these subsystems run code that they were given: softirq
handlers, timer callbacks, threads, poll functions and work. They call it
between their sections, so that it may call the kernel again.

A loop that contains such a call is cut at its head and behind the call;
the places are the control points. The three softirq handlers of the
kernel itself reach `softirq_run` as function pointers, so to
`softirq_run` they are given code like any other.
-/
open Framework Framework.Prog
namespace QosKernel.RustKernel
def QOS_SOFTIRQ_NET_RX : Nat := 1
def QOS_NAPI_MAX : Nat := 32

/-- The control points: the heads of the loops, and the place behind a poll
function. -/
inductive Point where
  | softirq_run
  | timer_softirq_handler
  | napi_softirq_handler (i : Nat) (need_reschedule : Bool)
  | napi_polled (i : Nat) (need_reschedule : Bool) (weight : Nat)
  | workqueue_softirq_handler
  | kthread_run_next

/-! ### Softirqs -/
section softirq
def softirq_vector_valid (vector : Nat) : Bool := decide (vector < QOS_SOFTIRQ_MAX)
def softirq_reset : RustM Unit := locked .SOFTIRQ (pure ())

def softirq_register (vector : Nat) : RustM Bool :=
  if !softirq_vector_valid vector then pure false else locked .SOFTIRQ (pure true)

def softirq_raise (vector : Nat) : RustM Bool :=
  if !softirq_vector_valid vector then pure false else locked .SOFTIRQ (pure true)

def softirq_pending_mask : RustM Nat := locked .SOFTIRQ ask

def softirq_run : RustM (Next Point) := do
  let pending ← softirq_pending_mask
  if pending == 0 then return .done
  else if (first fun i : Fin QOS_SOFTIRQ_MAX => pending.testBit i).isNone then return .done
  else do
    -- the bit is cleared, and the handler, if there is one, is looked up
    let handler ← locked .SOFTIRQ askBool
    return if handler then .invoke .softirq_run else .goto .softirq_run

def softirq_init : RustM Unit := softirq_reset

attribute [grind] softirq_reset softirq_register softirq_raise softirq_pending_mask softirq_run
  softirq_init
end softirq
/-! ### Timers -/
section timer
def timer_id_valid (timer_id : Int) : Bool :=
  decide (0 < timer_id) && decide (timer_id.toNat ≤ QOS_TIMER_MAX)

/-- One round of the loop of the handler: a timer that is due is taken out. -/
def timer_softirq_handler : RustM (Next Point) := do
  let task ← locked .TIMER askBool
  return if task then .invoke .timer_softirq_handler else .done

def timer_reset : RustM Unit := locked .TIMER (pure ())
def timer_jiffies : RustM Nat := locked .TIMER ask

def timer_add (delay_ticks _interval_ticks : UInt32) : RustM (Option Nat) :=
  if delay_ticks == 0 then pure none else locked .TIMER askOption

def timer_cancel (timer_id : Int) : RustM Bool :=
  if !timer_id_valid timer_id then pure false else locked .TIMER askBool

def timer_tick (elapsed_ticks : UInt32) : RustM Unit :=
  if elapsed_ticks == 0 then pure ()
  else do
    let need_softirq ← locked .TIMER askBool
    when need_softirq (softirq_raise QOS_SOFTIRQ_TIMER)

def timer_active_count : RustM Nat := locked .TIMER ask
def timer_pending_count : RustM Nat := locked .TIMER ask

def timer_init : RustM Unit := do
  timer_reset
  let _ ← softirq_register QOS_SOFTIRQ_TIMER
  return ()

attribute [grind] timer_softirq_handler timer_reset timer_jiffies timer_add timer_cancel timer_tick
  timer_active_count timer_pending_count timer_init
end timer
/-! ### Kernel threads -/
section kthread
variable {P : Kernel → Prop}
/-- A section that works on the threads. -/
def onKthread {α : Type} (f : KthreadState → α × KthreadState) : RustM α := do
  let d ← read
  modify fun d => { d with kthread := (f d.kthread).2 }
  return (f d.kthread).1

def kthread_reset : RustM Unit :=
  locked .KTHREAD (modify fun d => { d with kthread := .new })

def kthread_create (entry arg : UInt64) : RustM (Option UInt32) :=
  locked .KTHREAD (onKthread fun s => s.create entry arg)

def kthread_wake (tid : UInt32) : RustM Bool :=
  if tid == 0 then pure false else locked .KTHREAD (onKthread fun s => s.setRunnable tid true)

def kthread_stop (tid : UInt32) : RustM Bool :=
  if tid == 0 then pure false else locked .KTHREAD (onKthread fun s => s.setRunnable tid false)

def kthread_count : RustM Nat := locked .KTHREAD do
  let d ← read
  return (List.finRange QOS_KTHREAD_MAX).countP fun i => (d.kthread.entries i).used

def kthread_run_count (tid : UInt32) : RustM UInt32 :=
  if tid == 0 then pure 0
  else locked .KTHREAD do
    let d ← read
    return ((d.kthread.kthread_find_slot tid).map fun i => (d.kthread.entries i).run_count).getD 0

/-- `kthread_run_next`, up to the call of the thread. -/
def kthread_run_next : RustM (Next Point) := do
  let selected ← locked .KTHREAD (onKthread KthreadState.select)
  return if selected.isSome then .invoke .kthread_run_next else .done

def kthread_current_tid : RustM UInt32 := locked .KTHREAD do
  let d ← read
  return d.kthread.current_tid

/-- The lookup is in a block, not in a closure: when it fails, its `?` leaves
the function, and the lock stays taken. -/
def kthread_name_get (tid : UInt32) (out : Nat) : RustM (Option Nat) :=
  if out == 0 then pure none
  else do
    lock .KTHREAD
    let d ← read
    match d.kthread.kthread_find_slot tid with
    | none => return none
    | some slot =>
      let len := (d.kthread.entries slot).name.length
      let copied := if out < len + 1 then none else some len
      unlock .KTHREAD
      return copied

def kthread_init : RustM Unit := kthread_reset

variable {L : Set Lock}
theorem onKthread_keeps {α : Type} {f : KthreadState → α × KthreadState}
    (h : ∀ s, s.Ok → (f s).2.Ok) : Keeps L Kernel.Ok (onKthread f) :=
  keeps_bind keeps_read fun _ =>
    keeps_bind (keeps_modify fun d hd => h d.kthread hd) fun _ => keeps_pure

theorem kthread_name_get_balanced (hL : Lock.KTHREAD ∈ L) (tid : UInt32) (out : Nat)
    (hP : ∀ d, P d → out = 0 ∨ d.kthread.Exists tid) :
    Balanced L P (kthread_name_get tid out) fun _ => P := by
  unfold kthread_name_get
  split
  · exact keeps_pure
  rename_i hout
  refine .lock_bind hL (.bind balanced_read fun d => ?_)
  split
  · rename_i hnone
    -- the lookup does not fail
    intro s _ _ hd
    have hex := (hP s.data hd.1).resolve_left (by simpa using hout)
    rw [hd.2, KthreadState.exists_iff, hnone] at hex
    exact absurd hex (by simp)
  exact .unlock_bind (balanced_pure fun _ hd => hd.1)

variable (hL : Lock.KTHREAD ∈ L)
include hL
@[grind .] theorem kthread_reset_keeps : Keeps L Kernel.Ok kthread_reset :=
  keeps_locked hL (keeps_modify fun _ _ => KthreadState.ok_new)

@[grind .] theorem kthread_init_keeps : Keeps L Kernel.Ok kthread_init := kthread_reset_keeps hL

@[grind .] theorem kthread_create_keeps (entry arg : UInt64) :
    Keeps L Kernel.Ok (kthread_create entry arg) :=
  keeps_locked hL (onKthread_keeps fun _ h => h.create entry arg)

@[grind .] theorem kthread_wake_keeps (tid : UInt32) : Keeps L Kernel.Ok (kthread_wake tid) := by
  unfold kthread_wake
  split
  · exact keeps_pure
  exact keeps_locked hL (onKthread_keeps fun _ h => h.setRunnable tid true)

@[grind .] theorem kthread_stop_keeps (tid : UInt32) : Keeps L Kernel.Ok (kthread_stop tid) := by
  unfold kthread_stop
  split
  · exact keeps_pure
  exact keeps_locked hL (onKthread_keeps fun _ h => h.setRunnable tid false)

@[grind .] theorem kthread_run_next_keeps : Keeps L Kernel.Ok kthread_run_next :=
  keeps_bind (keeps_locked hL (onKthread_keeps fun s _ => s.ok_select)) fun _ => keeps_pure

theorem kthread_current_tid_balanced :
    Balanced L P kthread_current_tid fun tid d => P d ∧ tid = d.kthread.current_tid :=
  .locked (.bind balanced_read fun _ => balanced_pure fun _ h => ⟨h.1, by rw [h.2]⟩) hL

@[grind .] theorem kthread_current_tid_keeps {I : Kernel → Prop} : Keeps L I kthread_current_tid :=
  (kthread_current_tid_balanced hL).weaken (fun _ h => h) (fun _ h => h) fun _ _ h => h.1

@[grind .] theorem kthread_count_keeps : Keeps L Kernel.Ok kthread_count := by grind [kthread_count]

@[grind .] theorem kthread_run_count_keeps (tid : UInt32) :
    Keeps L Kernel.Ok (kthread_run_count tid) := by
  grind [kthread_run_count]
end kthread
/-! ### Polling -/
section napi
section
variable (i : Nat) (need_reschedule : Bool)
/-- One round of the loop of the handler, up to the call of the poll
function, or the code behind the loop. -/
def napi_softirq_handler : RustM (Next Point) :=
  if i < QOS_NAPI_MAX then do
    let maybe_poll ← locked .NAPI askOption
    match maybe_poll with
    | some weight => return .invoke (.napi_polled i need_reschedule weight)
    | none => return .goto (.napi_softirq_handler (i + 1) need_reschedule)
  else do
    when need_reschedule (softirq_raise QOS_SOFTIRQ_NET_RX)
    return .done

/-- The rest of a round, behind the call of the poll function. -/
def napi_polled (weight work : Nat) : RustM (Next Point) := do
  let used ← locked .NAPI askBool
  return .goto (.napi_softirq_handler (i + 1)
    (need_reschedule || (used && !decide (work < weight))))
end
def napi_reset : RustM Unit := locked .NAPI (pure ())

def napi_register (weight : UInt32) : RustM (Option Nat) :=
  if weight == 0 then pure none else locked .NAPI askOption

def napi_schedule (napi_id : UInt32) : RustM Bool :=
  if napi_id == 0 then pure false
  else do
    let found ← locked .NAPI askBool
    if !found then return false else softirq_raise QOS_SOFTIRQ_NET_RX

def napi_complete (napi_id : UInt32) : RustM Bool :=
  if napi_id == 0 then pure false else locked .NAPI askBool

def napi_pending_count : RustM Nat := locked .NAPI ask

def napi_run_count (napi_id : UInt32) : RustM Nat :=
  if napi_id == 0 then pure 0 else locked .NAPI ask

def napi_init : RustM Unit := do
  napi_reset
  let _ ← softirq_register QOS_SOFTIRQ_NET_RX
  return ()

attribute [grind] napi_polled napi_reset napi_register napi_schedule napi_complete
  napi_pending_count napi_run_count napi_init

@[grind .] theorem napi_softirq_handler_keeps {L : Set Lock} {I : Kernel → Prop}
    (hN : Lock.NAPI ∈ L) (hS : Lock.SOFTIRQ ∈ L) (i : Nat) (need_reschedule : Bool) :
    Keeps L I (napi_softirq_handler i need_reschedule) := by
  unfold napi_softirq_handler
  split
  · exact keeps_bind_option (keeps_locked hN keeps_askOption) keeps_pure fun _ => keeps_pure
  grind
end napi
/-! ### Work -/
section workqueue
/-- One round of the loop of the handler. Every way out of it releases the
lock for itself. -/
def workqueue_softirq_handler : RustM (Next Point) := do
  lock .WORKQUEUE
  let slot ← askOption
  match slot with
  | none => do
    unlock .WORKQUEUE
    return .done
  | some slot =>
    if QOS_WORKQUEUE_MAX ≤ slot then do
      unlock .WORKQUEUE
      return .goto .workqueue_softirq_handler
    else do
      let live ← askBool
      if !live then do
        unlock .WORKQUEUE
        return .goto .workqueue_softirq_handler
      else do
        let work ← askBool
        if !work then do
          unlock .WORKQUEUE
          return .goto .workqueue_softirq_handler
        else do
          unlock .WORKQUEUE
          return .invoke .workqueue_softirq_handler

def workqueue_reset : RustM Unit := locked .WORKQUEUE (pure ())

def workqueue_enqueue : RustM (Option Nat) := do
  let work_id ← locked .WORKQUEUE askOption
  match work_id with
  | none => return none
  | some work_id =>
    let _ ← softirq_raise QOS_SOFTIRQ_WORKQUEUE
    return some work_id

def workqueue_cancel (work_id : UInt32) : RustM Bool :=
  if work_id == 0 then pure false else locked .WORKQUEUE askBool

def workqueue_pending_count : RustM Nat := locked .WORKQUEUE ask
def workqueue_completed_count : RustM Nat := locked .WORKQUEUE ask

def workqueue_init : RustM Unit := do
  workqueue_reset
  let _ ← softirq_register QOS_SOFTIRQ_WORKQUEUE
  return ()

attribute [grind] workqueue_reset workqueue_cancel workqueue_pending_count
  workqueue_completed_count workqueue_init

variable {L : Set Lock} {I : Kernel → Prop} (hW : Lock.WORKQUEUE ∈ L)
include hW
@[grind .] theorem workqueue_softirq_handler_keeps : Keeps L I workqueue_softirq_handler := by
  refine .lock_bind hW (.bind keeps_askOption fun slot => ?_)
  cases slot with
  | none => exact .unlock_bind keeps_pure
  | some slot =>
  show Releases _ _ _ (if _ then _ else _) _
  split
  · exact .unlock_bind keeps_pure
  refine .bind keeps_askBool fun live => ?_
  split
  · exact .unlock_bind keeps_pure
  refine .bind keeps_askBool fun work => ?_
  split
  all_goals exact .unlock_bind keeps_pure

@[grind .] theorem workqueue_enqueue_keeps (hS : Lock.SOFTIRQ ∈ L) :
    Keeps L I workqueue_enqueue := by
  refine keeps_bind_option (keeps_locked hW keeps_askOption) keeps_pure fun work_id => ?_
  grind
end workqueue
end QosKernel.RustKernel
