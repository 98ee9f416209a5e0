import QosKernel.Framework.System
import QosKernel.Sched.Queue

/-! # The Rust scheduler

Model of the `sched_` functions of `rust-os/kernel/src/lib.rs`: one array of
tasks with a cursor, and the pid that the last call of `sched_next`
returned. Unlike the C scheduler it forgets this pid when the task is
removed.
-/
open Framework
namespace QosKernel
inductive SchedCall where
  | add_task (pid : UInt32)
  | remove_task (pid : UInt32)
  | next
  | current

/-- What a call returns. The pid 0 stands for no task. -/
inductive SchedReply where
  | done (ok : Bool)
  | task (pid : UInt32)
  deriving DecidableEq

structure RustSched where
  queue : TaskQueue
  current_pid : UInt32

namespace RustSched
variable {s : RustSched}
def sched_reset : RustSched := ⟨.empty, 0⟩

section
variable (s : RustSched)
def sched_add_task (pid : UInt32) : Bool × RustSched :=
  if pid == 0 then (false, s)
  else if (s.queue.find pid).isSome then (false, s)
  else if QOS_SCHED_MAX_TASKS ≤ s.queue.count then (false, s)
  else (true, { s with queue := s.queue.append pid })

def sched_remove_task (pid : UInt32) : Bool × RustSched :=
  match s.queue.find pid with
  | none => (false, s)
  | some i =>
    (true,
      { queue := (s.queue.close_gap i).rust_cursor
        -- the C scheduler has no such line
        current_pid := if s.current_pid == pid then 0 else s.current_pid })

def sched_next : Option UInt32 × RustSched :=
  if s.queue.count = 0 then (none, { s with current_pid := 0 })
  else
    -- without the modulus of the C function: the cursor is in range
    let pid := s.queue.pids s.queue.cursor
    (some pid, { queue := s.queue.advance s.queue.cursor, current_pid := pid })

def sched_current : UInt32 := s.current_pid

def call : SchedCall → SchedReply × RustSched
  | .add_task pid => (.done (s.sched_add_task pid).1, (s.sched_add_task pid).2)
  | .remove_task pid => (.done (s.sched_remove_task pid).1, (s.sched_remove_task pid).2)
  | .next => (.task (s.sched_next.1.getD 0), s.sched_next.2)
  | .current => (.task s.sched_current, s)

def step (c : SchedCall) : RustSched := (s.call c).2
end
def system : System RustSched SchedCall := .ofStep sched_reset step
section
variable (calls : List SchedCall)
def after : RustSched := calls.foldl step sched_reset

theorem reach_after : system.Reach anyStep calls (after calls) :=
  System.reach_foldl _ _ calls
end
/-! ### The invariant -/
section
variable {s : RustSched}
theorem ok_add_task (h : s.queue.Ok) (pid : UInt32) : (s.sched_add_task pid).2.queue.Ok := by
  unfold sched_add_task
  split
  · exact h
  split
  · exact h
  split
  · exact h
  rename_i hfind _
  have hnew : s.queue.find pid = none := by simpa using hfind
  exact h.append (TaskQueue.find_eq_none.mp hnew)

theorem ok_remove_task (h : s.queue.Ok) (pid : UInt32) : (s.sched_remove_task pid).2.queue.Ok := by
  unfold sched_remove_task
  split
  · exact h
  exact h.rust_remove ‹_›

theorem ok_next (h : s.queue.Ok) : s.sched_next.2.queue.Ok := by
  unfold sched_next
  split
  · exact h
  exact h.advance ‹_›
end
theorem ok_of_reach {cond : RustSched → SchedCall → Prop} {tr : List SchedCall}
    (hr : system.Reach cond tr s) : s.queue.Ok := by
  refine hr.invariant (fun s => s.queue.Ok) TaskQueue.ok_empty fun s c s' h _ hstep => ?_
  cases hstep
  cases c with
  | add_task pid => exact ok_add_task h pid
  | remove_task pid => exact ok_remove_task h pid
  | next => exact ok_next h
  | current => exact h

theorem next_eq_head? (h : s.queue.Ok) : s.sched_next.1 = s.queue.order.head? := by
  unfold sched_next
  split
  · rename_i hcount
    have hnil : s.queue.order = [] := by
      rw [← List.length_eq_zero_iff, TaskQueue.length_order]
      exact hcount
    rw [hnil]
    rfl
  exact (h.head?_order ‹_›).symm

theorem order_next : s.sched_next.2.queue.order = s.queue.order.rotate 1 := by
  unfold sched_next
  split
  · exact (rotate_of_length_le (by simp [*])).symm
  exact TaskQueue.order_advance

/-- After any calls, `sched_next` serves the tasks again and again in one
order, which has every task once. -/
theorem rust_sched_turns (calls : List SchedCall) (k : Nat) :
    (after (calls ++ .replicate k .next)).sched_next.1 =
      ((after calls).queue.order.rotate k).head? ∧ (after calls).queue.order.Nodup := by
  have hok (calls) : (after calls).queue.Ok := ok_of_reach (reach_after calls)
  refine ⟨?_, (hok calls).order_nodup⟩
  rw [next_eq_head? (hok _)]
  congr 1
  induction k with
  | zero => simp
  | succ k ih =>
  rw [List.replicate_succ', ← List.append_assoc, after, List.foldl_append, ← List.rotate_rotate, ← ih]
  exact order_next
end RustSched
end QosKernel
