import QosKernel.Sched.CSched
import Mathlib.Algebra.Order.BigOperators.Group.Finset

/-! # Runs of the C scheduler

The calls of the scheduler, with the priorities that the tasks were last
given as a history variable. From the invariant follow the representation
of the queues, strict priority with equal turns, and what can be said of
the current task.
-/
open Framework
namespace QosKernel.CSched
open TaskQueue
inductive Call where
  | add_task (pid : UInt32)
  | add_task_prio (pid priority : UInt32)
  | remove_task (pid : UInt32)
  | set_priority (pid priority : UInt32)
  | next

def call (s : CSched) : Call → Bool × CSched
  | .add_task pid => s.qos_sched_add_task pid
  | .add_task_prio pid priority => s.qos_sched_add_task_prio pid priority
  | .remove_task pid => s.qos_sched_remove_task pid
  | .set_priority pid priority => s.qos_sched_set_priority pid priority
  | .next => (true, s.qos_sched_next.2)

/-- The priorities that the callers have given to the tasks. -/
abbrev Given := UInt32 → Option Level

/-- What a call that succeeds gives. -/
def Call.gives : Call → Given → Given
  | .add_task pid, g => set g pid (level QOS_SCHED_PRIO_NORMAL)
  | .add_task_prio pid priority, g => set g pid (level priority)
  | .remove_task pid, g => set g pid none
  | .set_priority pid priority, g => set g pid (level priority)
  | .next, g => g

structure Run where
  sched : CSched
  given : Given

def Run.step (r : Run) (c : Call) : Run :=
  ⟨(r.sched.call c).2, if (r.sched.call c).1 then c.gives r.given else r.given⟩

def system : System Run Call := .ofStep ⟨qos_sched_reset, fun _ => none⟩ Run.step
def after (calls : List Call) : Run := calls.foldl Run.step ⟨qos_sched_reset, fun _ => none⟩

variable {r : Run} {s : CSched} {given : Given} {p : Level} {pid priority : UInt32}
theorem reach_after (calls : List Call) : system.Reach anyStep calls (after calls) :=
  System.reach_foldl _ _ calls

/-! ### The invariant -/
/-- The arrays hold the tasks that were given a priority, each at its level. -/
structure Inv (s : CSched) (given : Given) : Prop where
  mem : ∀ p pid, pid ∈ (s.levels p).tasks ↔ given pid = some p
  ok : ∀ p, (s.levels p).Ok
  total : s.total_count = ∑ p, (s.levels p).count
  room : s.total_count ≤ QOS_SCHED_MAX_TASKS
  zero : given 0 = none

theorem inv_reset : Inv qos_sched_reset fun _ => none where
  mem p pid := by simp [qos_sched_reset, empty, tasks, view]
  ok _ := ok_empty
  total := rfl
  room := Nat.zero_le _
  zero := rfl

section
variable {i : Nat} {s : CSched} {given : Given} {pid : UInt32} {p : Level}
/-- Exchanging one level changes the sum by the difference of the counts. -/
theorem sum_set (t : Level → TaskQueue) (p : Level) (q : TaskQueue) :
    ∑ p', (set t p q p').count + (t p).count = ∑ p', (t p').count + q.count := by
  have hrest : ∑ p' ∈ Finset.univ.erase p, (set t p q p').count =
      ∑ p' ∈ Finset.univ.erase p, (t p').count := by
    refine Finset.sum_congr rfl fun p' hp' => ?_
    rw [set_ne (Finset.ne_of_mem_erase hp')]
  rw [← Finset.add_sum_erase _ _ (Finset.mem_univ p), ← Finset.add_sum_erase _ _ (Finset.mem_univ p),
    hrest, set_self]
  omega

section
variable (h : Inv s given)
include h
theorem Inv.count_le_total (p : Level) : (s.levels p).count ≤ s.total_count := by
  rw [h.total]
  exact Finset.single_le_sum (f := fun p => (s.levels p).count) (fun _ _ => Nat.zero_le _)
    (Finset.mem_univ p)

theorem Inv.find_pid_isSome : (s.find_pid pid).isSome = (given pid).isSome := by
  rw [Bool.eq_iff_iff, Option.isSome_iff_ne_none, Option.isSome_iff_ne_none, ne_eq, ne_eq,
    not_iff_not, find_pid_eq_none, Option.eq_none_iff_forall_ne_some]
  exact forall_congr' fun p => not_congr (h.mem p pid)

theorem Inv.given_of_find_pid (hfind : s.find_pid pid = some (p, i)) : given pid = some p :=
  (h.mem p pid).mp (mem_of_find (find_of_find_pid hfind))

theorem Inv.find_pid_eq : (s.find_pid pid).map Prod.fst = given pid := by
  cases hfind : s.find_pid pid with
  | none =>
    have hnone : (s.find_pid pid).isSome = (given pid).isSome := h.find_pid_isSome
    rw [hfind] at hnone
    exact (Option.isNone_iff_eq_none.mp (by simpa using hnone.symm)).symm
  | some found => exact (h.given_of_find_pid hfind).symm

theorem Inv.append (hpid : pid ≠ 0) (hnew : given pid = none)
    (hroom : s.total_count < QOS_SCHED_MAX_TASKS) (p : Level) :
    ∃ s', s.queue_append p pid = some s' ∧ Inv s' (set given pid (some p)) := by
  -- the level is not full, since all levels together are not
  have hcount := h.count_le_total p
  refine ⟨_, if_neg (by omega), ?_⟩
  have hnot : ∀ p', pid ∉ (s.levels p').tasks := by
    intro p' hmem
    rw [h.mem, hnew] at hmem
    cases hmem
  constructor
  case mem =>
    intro p' pid'
    show pid' ∈ (set s.levels p _ p').tasks ↔ _
    by_cases hp : p' = p
    · subst hp
      rw [set_self, tasks_append, List.mem_append, List.mem_singleton, h.mem]
      by_cases hpid' : pid' = pid
      · subst hpid'
        simp
      rw [set_ne hpid']
      simp [hpid']
    rw [set_ne hp, h.mem]
    by_cases hpid' : pid' = pid
    · subst hpid'
      rw [hnew, set_self]
      simp [Ne.symm hp]
    rw [set_ne hpid']
  case ok =>
    intro p'
    show (set s.levels p _ p').Ok
    by_cases hp : p' = p
    · subst hp
      rw [set_self]
      exact (h.ok p').append (hnot p')
    rw [set_ne hp]
    exact h.ok p'
  case total =>
    have hsum := sum_set s.levels p ((s.levels p).append pid)
    have htotal := h.total
    rw [count_append] at hsum
    show s.total_count + 1 = ∑ p', (set s.levels p _ p').count
    omega
  case room => exact hroom
  case zero =>
    rw [set_ne (Ne.symm hpid)]
    exact h.zero

theorem Inv.remove (hfind : s.find_pid pid = some (p, i)) :
    Inv (s.queue_remove_at p i) (set given pid none) ∧
      (s.queue_remove_at p i).total_count + 1 = s.total_count := by
  have hfind' := find_of_find_pid hfind
  have hi := find_lt hfind'
  have hcount := h.count_le_total p
  have hgiven := h.given_of_find_pid hfind
  have heq : s.queue_remove_at p i = { s with
      levels := set s.levels p (((s.levels p).close_gap i).c_cursor i)
      total_count := s.total_count - 1 } := if_neg (by omega)
  rw [heq]
  refine ⟨?_, by show s.total_count - 1 + 1 = s.total_count; omega⟩
  constructor
  case mem =>
    intro p' pid'
    show pid' ∈ (set s.levels p _ p').tasks ↔ _
    by_cases hpid' : pid' = pid
    · subst hpid'
      rw [set_self]
      refine iff_of_false ?_ (by simp)
      by_cases hp : p' = p
      · subst hp
        rw [set_self, tasks_c_cursor, tasks_close_gap hfind']
        exact (h.ok p').nodup.not_mem_erase
      rw [set_ne hp, h.mem, hgiven]
      simp [Ne.symm hp]
    rw [set_ne hpid', ← h.mem]
    by_cases hp : p' = p
    · subst hp
      rw [set_self, tasks_c_cursor, tasks_close_gap hfind']
      exact List.mem_erase_of_ne hpid'
    rw [set_ne hp]
  case ok =>
    intro p'
    show (set s.levels p _ p').Ok
    by_cases hp : p' = p
    · subst hp
      rw [set_self]
      exact (h.ok p').c_remove hfind'
    rw [set_ne hp]
    exact h.ok p'
  -- one level has lost one task
  case total =>
    have hsum := sum_set s.levels p (((s.levels p).close_gap i).c_cursor i)
    have htotal := h.total
    have hclosed : (((s.levels p).close_gap i).c_cursor i).count = (s.levels p).count - 1 := by
      rw [count_c_cursor]
      rfl
    show s.total_count - 1 = ∑ p', (set s.levels p _ p').count
    omega
  case room =>
    have := h.room
    show s.total_count - 1 ≤ _
    omega
  case zero =>
    by_cases hpid : (0 : UInt32) = pid
    · rw [← hpid, set_self]
    rw [set_ne hpid]
    exact h.zero

theorem Inv.next_cases :
    ((∀ p, (s.levels p).count = 0) ∧ s.qos_sched_next = (0, { s with current_pid := 0 })) ∨
    ∃ p, s.Top p ∧ s.qos_sched_next = ((s.levels p).pids (s.levels p).cursor, { s with
        levels := set s.levels p ((s.levels p).advance (s.levels p).cursor)
        current_pid := (s.levels p).pids (s.levels p).cursor }) := by
  by_cases htotal : s.total_count = 0
  · refine .inl ⟨fun p => ?_, if_pos htotal⟩
    have := h.count_le_total p
    omega
  right
  -- some level has tasks, so there is a highest one
  have hsum := h.total
  obtain ⟨p₀, -, hp₀⟩ := Finset.exists_ne_zero_of_sum_ne_zero (by rwa [hsum] at htotal)
  obtain ⟨p, htop⟩ := exists_top hp₀
  -- the cursor is in range, so the modulus does nothing
  have hmod := Nat.mod_eq_of_lt ((h.ok p).cursor_lt htop.1)
  refine ⟨p, htop, ?_⟩
  unfold qos_sched_next
  rw [if_neg htotal, top_below_eq htop _ _ p.isLt]
  dsimp only
  rw [hmod]

theorem Inv.add_task_prio (pid priority : UInt32) :
    Inv (s.qos_sched_add_task_prio pid priority).2
      (if (s.qos_sched_add_task_prio pid priority).1 then
        set given pid (level priority) else given) := by
  unfold qos_sched_add_task_prio
  split
  · exact h
  rename_i p hp
  split
  · exact h
  split
  · exact h
  split
  · exact h
  rename_i hpid hfind hroom
  have hnew : given pid = none := by
    rw [h.find_pid_isSome] at hfind
    simpa using hfind
  obtain ⟨s', hs', hinv⟩ := h.append (by simpa using hpid) hnew (Nat.lt_of_not_le hroom) p
  rw [hs', hp]
  exact hinv

theorem Inv.remove_task (pid : UInt32) :
    Inv (s.qos_sched_remove_task pid).2
      (if (s.qos_sched_remove_task pid).1 then set given pid none else given) := by
  unfold qos_sched_remove_task
  split
  · exact h
  rename_i hfind
  exact (h.remove hfind).1

/-- After a task has left its level, it can be appended to another one. -/
theorem Inv.move {old : Level} (hfind : s.find_pid pid = some (old, i))
    (p : Level) : ∃ s', (s.queue_remove_at old i).queue_append p pid = some s' ∧
      Inv s' (set given pid (some p)) := by
  -- the removal has made room for one task
  obtain ⟨hinv, htotal⟩ := h.remove hfind
  have hpid : pid ≠ 0 := by
    intro hzero
    have := h.given_of_find_pid hfind
    rw [hzero, h.zero] at this
    cases this
  have hroom := h.room
  obtain ⟨s', hs', hinv'⟩ := hinv.append hpid (set_self) (by omega) p
  rw [set_set] at hinv'
  exact ⟨s', hs', hinv'⟩

theorem Inv.set_priority (pid priority : UInt32) :
    Inv (s.qos_sched_set_priority pid priority).2 (if (s.qos_sched_set_priority pid priority).1 then
        set given pid (level priority) else given) := by
  unfold qos_sched_set_priority
  split
  · exact h
  rename_i p hp
  split
  · exact h
  rename_i old i hfind
  split
  · -- the task has this priority already
    rename_i heq
    have hsame : set given pid (some p) = given := by
      rw [← heq, ← h.given_of_find_pid hfind, set_eq_self]
    rw [hp, if_pos rfl, hsame]
    exact h
  obtain ⟨s', hs', hinv⟩ := h.move hfind p
  simp only [hs', hp, if_true]
  exact hinv

theorem Inv.next : Inv s.qos_sched_next.2 given := by
  rcases h.next_cases with ⟨-, heq⟩ | ⟨p, htop, heq⟩
  · rw [heq]
    exact ⟨h.mem, h.ok, h.total, h.room, h.zero⟩
  rw [heq]
  constructor
  case mem =>
    intro p' pid
    rw [← h.mem]
    show pid ∈ (set s.levels p _ p').tasks ↔ _
    by_cases hp : p' = p
    · subst hp
      rw [set_self]
      rfl
    rw [set_ne hp]
  case ok =>
    intro p'
    show (set s.levels p _ p').Ok
    by_cases hp : p' = p
    · subst hp
      rw [set_self]
      exact (h.ok p').advance htop.1
    rw [set_ne hp]
    exact h.ok p'
  case total =>
    have hsum := sum_set s.levels p ((s.levels p).advance (s.levels p).cursor)
    have hcount : ((s.levels p).advance (s.levels p).cursor).count = (s.levels p).count := rfl
    have htotal := h.total
    show s.total_count = ∑ p', (set s.levels p _ p').count
    omega
  case room => exact h.room
  case zero => exact h.zero
end
end
theorem Inv.step (h : Inv r.sched r.given) (c : Call) : Inv (r.step c).sched (r.step c).given := by
  cases c with
  | add_task pid => exact h.add_task_prio pid QOS_SCHED_PRIO_NORMAL
  | add_task_prio pid priority => exact h.add_task_prio pid priority
  | remove_task pid => exact h.remove_task pid
  | set_priority pid priority => exact h.set_priority pid priority
  | next => exact h.next

theorem inv_of_reach {cond : Run → Call → Prop} {tr : List Call} (hr : system.Reach cond tr r) :
    Inv r.sched r.given := by
  refine hr.invariant (fun r => Inv r.sched r.given) inv_reset fun r c r' h _ hstep => ?_
  cases hstep
  exact h.step c

/-! ### The representation -/
/-- What the arrays, counts and cursors are after any calls. -/
structure Represented (r : Run) : Prop where
  /-- A pid is in at most one level, and at most once. -/
  once : ∀ p p' i j, i < (r.sched.levels p).count → j < (r.sched.levels p').count →
    (r.sched.levels p).pids i = (r.sched.levels p').pids j → p = p' ∧ i = j
  total : r.sched.total_count = ∑ p, (r.sched.levels p).count
  room : r.sched.total_count ≤ QOS_SCHED_MAX_TASKS
  cursor : ∀ p, (r.sched.levels p).CursorOk
  /-- A task is found at the priority it was last given, and only a task that
  was given one and not removed is found. -/
  priority : ∀ pid, r.sched.qos_sched_get_priority pid = r.given pid
  /-- A task that leaves a level can always be appended to another one, so
  `qos_sched_set_priority` never has to put it back. -/
  no_rollback : ∀ pid old index p, r.sched.find_pid pid = some (old, index) →
    ((r.sched.queue_remove_at old index).queue_append p pid).isSome = true

theorem Inv.once (h : Inv s given) {p' : Level} {i j : Nat} (hi : i < (s.levels p).count)
    (hj : j < (s.levels p').count) (heq : (s.levels p).pids i = (s.levels p').pids j) :
    p = p' ∧ i = j := by
  have hmem := (h.mem p _).mp (mem_view.mpr ⟨i, hi, heq⟩)
  have hmem' := (h.mem p' _).mp (mem_view.mpr ⟨j, hj, rfl⟩)
  -- a task was last given one priority, so both places are in one level
  have hp : p = p' := Option.some.inj (hmem.symm.trans hmem')
  subst hp
  refine ⟨rfl, ?_⟩
  have hi' : i < (s.levels p).tasks.length := by rwa [length_tasks]
  have hj' : j < (s.levels p).tasks.length := by rwa [length_tasks]
  refine (h.ok p).nodup.getElem_inj_iff.mp (?_ : (s.levels p).tasks[i] = (s.levels p).tasks[j])
  exact (view_getElem _ _ _ hi').trans (heq.trans (view_getElem _ _ _ hj').symm)

theorem c_sched_representation {tr : List Call} {r : Run} (hr : system.Reach anyStep tr r) :
    Represented r := by
  have h := inv_of_reach hr
  refine ⟨fun p p' i j => h.once, h.total, h.room, fun p => (h.ok p).cursor,
    fun pid => h.find_pid_eq, ?_⟩
  intro pid old index p hfind
  obtain ⟨s', hs', -⟩ := h.move hfind p
  rw [hs', Option.isSome_some]

theorem c_sched_representation_moved :
    Represented (after [.add_task 5, .add_task_prio 6 3, .set_priority 5 3, .next,
      .remove_task 6]) :=
  c_sched_representation (reach_after _)

/-! ### Turns -/
/-- What `m` calls of `qos_sched_next` in a row return. -/
def nexts (s : CSched) : Nat → List UInt32
  | 0 => []
  | m + 1 => s.qos_sched_next.1 :: s.qos_sched_next.2.nexts m

theorem Inv.next_top (h : Inv s given) (htop : s.Top p) :
    (s.levels p).order.head? = some s.qos_sched_next.1 ∧ s.qos_sched_next.2.Top p ∧
      (s.qos_sched_next.2.levels p).order = (s.levels p).order.rotate 1 := by
  rcases h.next_cases with ⟨hempty, -⟩ | ⟨p', htop', heq⟩
  · exact absurd (hempty p) htop.1
  -- there is only one highest level
  have hp : p' = p := by
    rcases lt_trichotomy p' p with hlt | heq | hgt
    · exact absurd (htop'.2 p hlt) htop.1
    · exact heq
    exact absurd (htop.2 p' hgt) htop'.1
  subst hp
  rw [heq]
  refine ⟨(h.ok p').head?_order htop.1, ⟨?_, ?_⟩, ?_⟩
  · show (set s.levels p' _ p').count ≠ 0
    rw [set_self]
    exact htop.1
  · intro q hq
    show (set s.levels p' _ q).count = 0
    rw [set_ne hq.ne']
    exact htop.2 q hq
  show (set s.levels p' _ p').order = _
  rw [set_self]
  exact order_advance

theorem Inv.nexts_eq (m : Nat) :
    ∀ {s : CSched}, Inv s given → s.Top p → s.nexts m = turns (s.levels p).order m := by
  -- on the number of calls, for every state at once: a call changes the state
  induction m with
  | zero =>
    intro s _ _
    rw [turns_zero]
    rfl
  | succ m ih =>
  intro s h htop
  obtain ⟨hhead, htop', horder⟩ := h.next_top htop
  have hne : (s.levels p).order ≠ [] := by
    intro hnil
    rw [hnil] at hhead
    cases hhead
  rw [turns_succ hne, nexts, ih h.next htop', horder]
  rw [List.head?_eq_some_head hne] at hhead
  rw [Option.some.inj hhead]

/-- From every state that calls lead to, the tasks of the highest level that
has some get their turns one after the other, always in the same order,
and no other task gets a turn. -/
theorem c_sched_turns {tr : List Call} {r : Run} (hr : system.Reach anyStep tr r) {p : Level}
    (htop : r.sched.Top p) :
    (r.sched.nexts (r.sched.levels p).count).Perm (r.sched.levels p).tasks ∧
    (r.sched.levels p).tasks.Nodup ∧
    ∀ m k, k < m → (r.sched.nexts m)[k]? =
      (r.sched.nexts (r.sched.levels p).count)[k % (r.sched.levels p).count]? := by
  have h := inv_of_reach hr
  -- a whole round is the order itself
  have hround : r.sched.nexts (r.sched.levels p).count = (r.sched.levels p).order := by
    rw [h.nexts_eq _ htop, ← length_order, turns_length]
  refine ⟨?_, (h.ok p).nodup, fun m k hk => ?_⟩
  · rw [hround]
    exact List.rotate_perm _ _
  have hne : (r.sched.levels p).order ≠ [] := by
    rw [← List.length_pos_iff, length_order]
    exact Nat.pos_of_ne_zero htop.1
  rw [hround, h.nexts_eq m htop, getElem?_turns hne hk, length_order]

/-- Tasks 6 and 7 are above task 5; after one turn it is the turn of 7. -/
def twoHigh : Run := after [.add_task 5, .add_task_prio 6 3, .add_task_prio 7 3, .next]

theorem c_sched_turns_two_high :
    twoHigh.sched.Top ⟨3, by decide⟩ ∧ twoHigh.sched.nexts 5 = [7, 6, 7, 6, 7] ∧
      (twoHigh.sched.nexts 2).Perm [6, 7] := by
  have htop : twoHigh.sched.Top ⟨3, by decide⟩ := by decide +kernel
  exact ⟨htop, by decide +kernel, (c_sched_turns (reach_after _) htop).1⟩

/-! ### The current task -/
/-- The task that runs is not removed. -/
def KeepsCurrent (r : Run) : Call → Prop
  | .remove_task pid => pid ≠ r.sched.current_pid
  | _ => True

section
variable {s s' : CSched} {given : Given} {p : Level} {pid priority : UInt32} {i : Nat}
theorem current_queue_append (h : s.queue_append p pid = some s') :
    s'.current_pid = s.current_pid := by
  unfold queue_append at h
  split at h
  · cases h
  cases h
  rfl

theorem current_queue_remove_at : (s.queue_remove_at p i).current_pid = s.current_pid := by
  unfold queue_remove_at
  dsimp only
  split <;> rfl

theorem current_add_task_prio :
    (s.qos_sched_add_task_prio pid priority).2.current_pid = s.current_pid := by
  unfold qos_sched_add_task_prio
  split
  · rfl
  repeat' split
  all_goals first | rfl | exact current_queue_append ‹_›

theorem current_remove_task : (s.qos_sched_remove_task pid).2.current_pid = s.current_pid := by
  unfold qos_sched_remove_task
  split
  · rfl
  exact current_queue_remove_at

theorem Inv.current_set_priority (h : Inv s given) :
    (s.qos_sched_set_priority pid priority).2.current_pid = s.current_pid := by
  unfold qos_sched_set_priority
  split
  · rfl
  rename_i p hp
  split
  · rfl
  rename_i old i hfind
  split
  · rfl
  obtain ⟨s', hs', -⟩ := h.move hfind p
  simp only [hs']
  exact (current_queue_append hs').trans current_queue_remove_at
end
/-- The current task, if any, was given a priority. -/
def CurrentGiven (r : Run) : Prop :=
  r.sched.current_pid = 0 ∨ (r.given r.sched.current_pid).isSome = true

/-- A task keeps a priority through a call that gives one to a task. -/
theorem isSome_update {g : Given} {ok : Bool} {pid' : UInt32} {v : Option Level}
    (h : (g pid').isSome = true) (hv : ok = true → pid' = pid → v.isSome = true) :
    ((if ok then set g pid v else g) pid').isSome = true := by
  split
  · rename_i hok
    by_cases hpid : pid' = pid
    · subst hpid
      rw [set_self]
      exact hv hok rfl
    rwa [set_ne hpid]
  exact h

theorem level_of_add_task_prio (h : (s.qos_sched_add_task_prio pid priority).1 = true) :
    (level priority).isSome = true := by
  unfold qos_sched_add_task_prio at h
  split at h
  · cases h
  rename_i hp
  rw [hp, Option.isSome_some]

theorem level_of_set_priority (h : (s.qos_sched_set_priority pid priority).1 = true) :
    (level priority).isSome = true := by
  unfold qos_sched_set_priority at h
  split at h
  · cases h
  rename_i hp
  rw [hp, Option.isSome_some]

theorem CurrentGiven.of_current_eq {r' : Run} (h : CurrentGiven r)
    (hcurrent : r'.sched.current_pid = r.sched.current_pid)
    (hgiven : (r.given r.sched.current_pid).isSome = true →
      (r'.given r.sched.current_pid).isSome = true) : CurrentGiven r' := by
  unfold CurrentGiven
  rw [hcurrent]
  exact h.imp_right hgiven

theorem CurrentGiven.step (h : CurrentGiven r) (hinv : Inv r.sched r.given) {c : Call}
    (hc : KeepsCurrent r c) : CurrentGiven (r.step c) := by
  cases c with
  | add_task pid | add_task_prio pid priority =>
    exact h.of_current_eq current_add_task_prio fun h =>
      isSome_update h fun hok _ => level_of_add_task_prio hok
  | remove_task pid =>
    -- another task than the current one leaves
    exact h.of_current_eq current_remove_task fun h =>
      isSome_update h fun _ heq => absurd heq (Ne.symm hc)
  | set_priority pid priority =>
    exact h.of_current_eq hinv.current_set_priority fun h =>
      isSome_update h fun hok _ => level_of_set_priority hok
  | next =>
  show r.sched.qos_sched_next.2.current_pid = 0 ∨
    (r.given r.sched.qos_sched_next.2.current_pid).isSome = true
  rcases hinv.next_cases with ⟨-, heq⟩ | ⟨p, htop, heq⟩
  · exact .inl (by rw [heq])
  right
  have hlt := (hinv.ok p).cursor_lt htop.1
  rw [heq, (hinv.mem p _).mp (mem_view.mpr ⟨_, hlt, rfl⟩)]
  rfl

/-- In every run in which the current task is never removed, the current pid is
0 or that of a task in the queues. -/
theorem c_current_task_queued {tr : List Call} {r : Run} (hr : system.Reach KeepsCurrent tr r) :
    r.sched.qos_sched_current = 0 ∨ ∃ p, r.sched.qos_sched_current ∈ (r.sched.levels p).tasks := by
  have h : Inv r.sched r.given ∧ CurrentGiven r := by
    refine hr.invariant (fun r => Inv r.sched r.given ∧ CurrentGiven r) ⟨inv_reset, .inl rfl⟩ ?_
    intro r c r' h hc hstep
    cases hstep
    exact ⟨h.1.step c, h.2.step h.1 hc⟩
  refine h.2.imp_right fun hgiven => ?_
  obtain ⟨p, hp⟩ := Option.isSome_iff_exists.mp hgiven
  exact ⟨p, (h.1.mem p _).mpr hp⟩

instance (r : Run) (c : Call) : Decidable (KeepsCurrent r c) := by
  cases c <;> dsimp only [KeepsCurrent] <;> infer_instance

theorem c_current_task_queued_other_removed :
    ∃ r, system.Reach KeepsCurrent [.add_task 5, .add_task 6, .next, .remove_task 6] r ∧
      (r.sched.qos_sched_current = 0 ∨ ∃ p, r.sched.qos_sched_current ∈ (r.sched.levels p).tasks) :=
  System.exists_execIf (P := fun _ => True) (by decide +kernel) fun _ hr _ =>
    c_current_task_queued hr

/-- Task 5 runs and is removed: it stays the current task. -/
theorem c_current_task_removed :
    ∃ r, system.Reach anyStep [.add_task 5, .next, .remove_task 5] r ∧
      r.sched.qos_sched_current = 5 ∧ ∀ p, (r.sched.levels p).tasks = [] :=
  ⟨_, reach_after _, by decide +kernel, by decide +kernel⟩
end QosKernel.CSched
