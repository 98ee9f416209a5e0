import QosKernel.Framework.Slots
import QosKernel.Framework.System
import QosKernel.Sched.Queue
import Mathlib.Algebra.BigOperators.Group.Finset.Basic
import Mathlib.Data.Finset.Max

/-! # The C scheduler

Model of `c-os/kernel/sched/sched.c`: one array of tasks with a cursor for
each of four priorities, the number of all tasks, and the pid that the last
call of `qos_sched_next` returned.

A run keeps, next to the state, the priority each task was last given;
this is what the callers know. The invariant says that the arrays hold
exactly these tasks.
-/
open Framework
namespace QosKernel
def QOS_SCHED_LEVELS : Nat := 4
def QOS_SCHED_PRIO_NORMAL : UInt32 := 2
def QOS_SCHED_PRIO_HIGH : UInt32 := 3
abbrev Level := Fin QOS_SCHED_LEVELS

/-- The state of the scheduler: `g_queues`, `g_counts` and `g_rr_cursor` by
levels. -/
structure CSched where
  levels : Level → TaskQueue
  total_count : Nat
  current_pid : UInt32

namespace CSched
variable {s : CSched} {pid : UInt32} {p : Level}
/-- `priority_valid`, with the level of a valid priority. -/
def level (priority : UInt32) : Option Level :=
  if h : priority ≤ QOS_SCHED_PRIO_HIGH then
    some ⟨priority.toNat, Nat.lt_succ_of_le (UInt32.le_iff_toNat_le.mp h)⟩
  else none

def find_pid (s : CSched) (pid : UInt32) : Option (Level × Nat) :=
  (List.finRange QOS_SCHED_LEVELS).findSome? fun priority =>
    ((s.levels priority).find pid).map fun index => (priority, index)

def queue_append (s : CSched) (priority : Level) (pid : UInt32) : Option CSched :=
  if QOS_SCHED_MAX_TASKS ≤ (s.levels priority).count then none
  else some { s with
    levels := set s.levels priority ((s.levels priority).append pid)
    total_count := s.total_count + 1 }

/-- `while (i > index) { a[i] = a[i - 1]; i--; }`, with `m` iterations. -/
def shift_up (a : Nat → UInt32) (i : Nat) : Nat → Nat → UInt32
  | 0 => a
  | m + 1 => shift_up (set a i (a (i - 1))) (i - 1) m

section
variable (s : CSched) (priority : Level) (index : Nat)
def queue_insert_at (pid : UInt32) : Option CSched :=
  let q := s.levels priority
  if QOS_SCHED_MAX_TASKS ≤ q.count then none
  else
    -- an index behind the end appends
    let index := if q.count < index then q.count else index
    some { s with
      levels := set s.levels priority
        { pids := set (shift_up q.pids q.count (q.count - index)) index pid
          count := q.count + 1
          cursor := if index < q.cursor then q.cursor + 1 else q.cursor }
      total_count := s.total_count + 1 }

def queue_remove_at : CSched :=
  let q := s.levels priority
  if q.count ≤ index then s
  else { s with
    levels := set s.levels priority ((q.close_gap index).c_cursor index)
    total_count := s.total_count - 1 }
end
def qos_sched_reset : CSched := ⟨fun _ => .empty, 0, 0⟩

section
variable (s : CSched)
/-- The functions return whether they succeed, and the state. -/
def qos_sched_add_task_prio (pid priority : UInt32) : Bool × CSched :=
  match level priority with
  | none => (false, s)
  | some p =>
    if pid == 0 then (false, s)
    else if (s.find_pid pid).isSome then (false, s)
    -- the bound is on all tasks, not on those of the level
    else if QOS_SCHED_MAX_TASKS ≤ s.total_count then (false, s)
    else
      match s.queue_append p pid with
      | none => (false, s)
      | some s' => (true, s')

def qos_sched_add_task (pid : UInt32) : Bool × CSched :=
  s.qos_sched_add_task_prio pid QOS_SCHED_PRIO_NORMAL

def qos_sched_remove_task (pid : UInt32) : Bool × CSched :=
  match s.find_pid pid with
  | none => (false, s)
  | some (priority, index) => (true, s.queue_remove_at priority index)

/-- When the task cannot be appended to its new level, it is put back. -/
def qos_sched_set_priority (pid priority : UInt32) : Bool × CSched :=
  match level priority with
  | none => (false, s)
  | some p =>
    match s.find_pid pid with
    | none => (false, s)
    | some (old_priority, old_index) =>
      -- the task keeps its place
      if old_priority = p then (true, s)
      else
        let removed := s.queue_remove_at old_priority old_index
        match removed.queue_append p pid with
        | some s' => (true, s')
        | none => (false, (removed.queue_insert_at old_priority old_index pid).getD removed)

def qos_sched_get_priority (pid : UInt32) : Option Level :=
  (s.find_pid pid).map Prod.fst
end
/-- The loop of `qos_sched_next`: the highest level below `level` that has
tasks. -/
def top_below (s : CSched) : (level : Nat) → level ≤ QOS_SCHED_LEVELS → Option Level
  | 0, _ => none
  | level + 1, h =>
    if (s.levels ⟨level, h⟩).count ≠ 0 then some ⟨level, h⟩
    else top_below s level (Nat.le_of_succ_le h)

def qos_sched_next (s : CSched) : UInt32 × CSched :=
  if s.total_count = 0 then (0, { s with current_pid := 0 })
  else
    match s.top_below QOS_SCHED_LEVELS (Nat.le_refl _) with
    -- not reached when the counts add up
    | none => (0, { s with current_pid := 0 })
    | some priority =>
      let q := s.levels priority
      let idx := q.cursor % q.count
      let pid := q.pids idx
      (pid, { s with levels := set s.levels priority (q.advance idx), current_pid := pid })

def qos_sched_current (s : CSched) : UInt32 := s.current_pid

/-! ### Looking for a task -/
theorem find_of_find_pid {i : Nat} (h : s.find_pid pid = some (p, i)) :
    (s.levels p).find pid = some i := by
  -- the levels are searched from the lowest
  obtain ⟨p', -, h'⟩ := List.exists_of_findSome?_eq_some h
  rw [Option.map_eq_some_iff] at h'
  obtain ⟨i', hi', heq⟩ := h'
  cases heq
  exact hi'

theorem find_pid_eq_none : s.find_pid pid = none ↔ ∀ p, pid ∉ (s.levels p).tasks := by
  simp [find_pid, TaskQueue.find_eq_none]

/-! ### The highest level -/
def Top (s : CSched) (p : Level) : Prop :=
  (s.levels p).count ≠ 0 ∧ ∀ p', p < p' → (s.levels p').count = 0

instance (s : CSched) (p : Level) : Decidable (s.Top p) :=
  inferInstanceAs (Decidable (_ ∧ ∀ _, _))

theorem top_below_eq (h : s.Top p) :
    ∀ (level : Nat) (hle : level ≤ QOS_SCHED_LEVELS), p < level → s.top_below level hle = some p
    := by
  intro level
  induction level with
  | zero => intro _ hp; omega
  | succ level ih =>
  intro hle hp
  unfold top_below
  -- the loop passes the levels above `p`, which are empty
  by_cases heq : p.val = level
  · subst heq
    exact if_pos h.1
  have hlt : p < ⟨level, hle⟩ := by
    show p.val < level
    omega
  rw [if_neg (by simpa using h.2 _ hlt)]
  exact ih _ (by omega)

theorem exists_top (h : (s.levels p).count ≠ 0) : ∃ p, s.Top p := by
  -- take the greatest of the levels with tasks
  have hne : (Finset.univ.filter fun p => (s.levels p).count ≠ 0).Nonempty := ⟨p, by simpa using h⟩
  obtain ⟨p', hp', hmax⟩ := Finset.exists_max_image _ id hne
  refine ⟨p', by simpa using hp', fun p'' hlt => ?_⟩
  by_contra hcount
  exact absurd (hmax p'' (by simpa using hcount)) (not_le.mpr hlt)
end CSched
end QosKernel
