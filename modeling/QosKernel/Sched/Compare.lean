import QosKernel.Sched.CSchedRuns
import QosKernel.Sched.RustSched

/-! # Removing tasks, and the two schedulers side by side

What removing a task does to the turns of the others, in C and in Rust, and
when the two schedulers return the same results. Both questions come down
to the cursor after a removal.
-/
open Framework
namespace QosKernel
open TaskQueue
/-! ### Turns after a removal -/
namespace CSched
/-- Removing the task at place `i` of level `p` costs the next task its turn:
the level is the highest one, the task stands before the cursor, and the
cursor at the last of at least three tasks. -/
def PassedOver (s : CSched) (p : Level) (i : Nat) : Prop :=
  s.Top p ∧ i < (s.levels p).cursor ∧ (s.levels p).cursor = (s.levels p).count - 1 ∧
    3 ≤ (s.levels p).count

instance (s : CSched) (p : Level) (i : Nat) : Decidable (s.PassedOver p i) :=
  inferInstanceAs (Decidable (_ ∧ _))

section
variable {low : Level} {s s' : CSched} {given given' : Given} {pid : UInt32} {p t : Level} {i : Nat}
/-- The state after a task has left its level `p`, seen from the highest level
`t`: either nothing has changed there, or the task was in it. -/
structure Left (s : CSched) (p : Level) (i : Nat) (s' : CSched) (t : Level) : Prop where
  top : s'.Top t
  same : t ≠ p → s'.levels t = s.levels t
  left : t = p → s'.levels t = ((s.levels t).close_gap i).c_cursor i

theorem Left.turn (hs : Inv s given) (hs' : Inv s' given') (htop : s.Top t)
    (hfind : s.find_pid pid = some (p, i)) (hnext : pid ≠ s.qos_sched_next.1)
    (h : Left s p i s' t) :
    (s'.qos_sched_next.1 = s.qos_sched_next.1 ↔ ¬s.PassedOver p i) ∧
    (¬s.PassedOver p i → (s'.levels t).order = (s.levels t).order.erase pid) := by
  have hhead := (hs.next_top htop).1
  have hhead' := (hs'.next_top h.top).1
  have hiff : s'.qos_sched_next.1 = s.qos_sched_next.1 ↔
      (s'.levels t).order.head? = some s.qos_sched_next.1 := by
    rw [hhead', Option.some.injEq]
  rw [hiff]
  by_cases hp : t = p
  · subst hp
    -- the task leaves the highest level: its order decides
    have horder : (s'.levels t).order = if i < (s.levels t).cursor ∧
        (s.levels t).cursor = (s.levels t).count - 1 then ((s.levels t).order.erase pid).rotate 1
        else (s.levels t).order.erase pid := by
      rw [h.left rfl]
      exact order_c_remove (hs.ok t) (find_of_find_pid hfind)
    have hmem : pid ∈ (s.levels t).order := mem_order.mpr (mem_of_find (find_of_find_pid hfind))
    have hturn := turn_kept_iff (hs.ok t).order_nodup hhead hmem hnext horder
    -- with two tasks, rotating the one that is left does nothing
    have hpassed : s.PassedOver t i ↔ (i < (s.levels t).cursor ∧
        (s.levels t).cursor = (s.levels t).count - 1) ∧ 3 ≤ (s.levels t).order.length := by
      rw [length_order, PassedOver, and_assoc]
      exact and_iff_right htop
    rwa [hpassed]
  -- the highest level is as before
  have hnot : ¬s.PassedOver p i := by
    intro hpassed
    rcases lt_trichotomy t p with hlt | heq | hgt
    · exact hpassed.1.1 (htop.2 p hlt)
    · exact hp heq
    exact htop.1 (hpassed.1.2 t hgt)
  have hgiven := hs.given_of_find_pid hfind
  have hnotMem : pid ∉ (s.levels t).order := by
    intro hmem
    have := (hs.mem t pid).mp (mem_order.mp hmem)
    exact hp (Option.some.inj (this.symm.trans hgiven))
  rw [h.same hp, List.erase_of_not_mem hnotMem]
  exact ⟨iff_of_true hhead hnot, fun _ => rfl⟩

theorem Top.le_of_find (htop : s.Top t) (hfind : (s.levels p).find pid = some i) : p ≤ t := by
  by_contra hlt
  have hzero := htop.2 p (not_le.mp hlt)
  have := find_lt hfind
  omega

theorem Inv.left_of_remove (hs : Inv s given) (htop : s.Top t)
    (hfind : s.find_pid pid = some (p, i)) (hnext : pid ≠ s.qos_sched_next.1) :
    Left s p i (s.queue_remove_at p i) t := by
  have hfind' := find_of_find_pid hfind
  have hle := htop.le_of_find hfind'
  have hlevels : (s.queue_remove_at p i).levels =
      set s.levels p (((s.levels p).close_gap i).c_cursor i) := by
    have := find_lt hfind'
    unfold queue_remove_at
    rw [if_neg (by omega)]
  refine ⟨⟨?_, fun p' hp' => ?_⟩, fun hp => ?_, fun hp => ?_⟩
  · -- if a task leaves the highest level, the next one stays there
    rw [hlevels]
    by_cases hp : t = p
    · subst hp
      have hmem := mem_order.mpr (mem_of_find hfind')
      have hmem' := head?_erase (hs.next_top htop).1 hnext
      have hlen := List.length_erase_of_mem hmem
      have hpos := List.length_pos_of_mem (List.mem_of_head? hmem')
      rw [set_self, count_c_cursor]
      show (s.levels t).count - 1 ≠ 0
      rw [length_order] at hlen
      omega
    rw [set_ne hp]
    exact htop.1
  · rw [hlevels, set_ne (hle.trans_lt hp').ne']
    exact htop.2 p' hp'
  · rw [hlevels, set_ne hp]
  subst hp
  rw [hlevels, set_self]

/-- A task that is appended to a lower level changes nothing in the highest
one. -/
theorem Left.append {s₁ : CSched} (h : Left s p i s₁ t) (hlow : low < t)
    (happend : s₁.queue_append low pid = some s') : Left s p i s' t := by
  have hlevels : s'.levels = set s₁.levels low ((s₁.levels low).append pid) := by
    unfold queue_append at happend
    split at happend
    · cases happend
    cases happend
    rfl
  have hsame : ∀ p', t ≤ p' → s'.levels p' = s₁.levels p' := by
    intro p' hp'
    rw [hlevels, set_ne (hlow.trans_le hp').ne']
  refine ⟨⟨?_, fun p' hp' => ?_⟩, fun hp => ?_, fun hp => ?_⟩
  · rw [hsame t le_rfl]
    exact h.top.1
  · rw [hsame p' hp'.le]
    exact h.top.2 p' hp'
  · rw [hsame t le_rfl]
    exact h.same hp
  rw [hsame t le_rfl]
  exact h.left hp

def round (s : CSched) : List UInt32 :=
  match s.top_below QOS_SCHED_LEVELS (Nat.le_refl _) with
  | none => []
  | some p => (s.levels p).order

theorem Top.round_eq (htop : s.Top t) : s.round = (s.levels t).order := by
  unfold round
  rw [top_below_eq htop _ _ t.isLt]

theorem Inv.turn_of_remove (hs : Inv s given) (hfind : s.find_pid pid = some (p, i))
    (hnext : pid ≠ s.qos_sched_next.1) :
    ((s.qos_sched_remove_task pid).2.qos_sched_next.1 = s.qos_sched_next.1 ↔ ¬s.PassedOver p i) ∧
    (¬s.PassedOver p i → (s.qos_sched_remove_task pid).2.round = s.round.erase pid) := by
  have hcount := find_lt (find_of_find_pid hfind)
  obtain ⟨t, htop⟩ := exists_top (s := s) (p := p) (by omega)
  have hleft := hs.left_of_remove htop hfind hnext
  have heq : (s.qos_sched_remove_task pid).2 = s.queue_remove_at p i := by
    unfold qos_sched_remove_task
    rw [hfind]
  rw [heq, htop.round_eq, hleft.top.round_eq]
  exact hleft.turn hs (hs.remove hfind).1 htop hfind hnext

theorem Inv.turn_of_set_priority (hs : Inv s given) (hfind : s.find_pid pid = some (p, i))
    (hnext : pid ≠ s.qos_sched_next.1) {priority : UInt32} (hlevel : level priority = some low)
    (hlow : low < p) :
    ((s.qos_sched_set_priority pid priority).2.qos_sched_next.1 = s.qos_sched_next.1 ↔
      ¬s.PassedOver p i) ∧
    (¬s.PassedOver p i → (s.qos_sched_set_priority pid priority).2.round = s.round.erase pid) := by
  have hfind' := find_of_find_pid hfind
  have hcount := find_lt hfind'
  obtain ⟨t, htop⟩ := exists_top (s := s) (p := p) (by omega)
  -- the task leaves its level and is appended to a lower one
  obtain ⟨s', hs', hinv⟩ := hs.move hfind low
  have hleft := (hs.left_of_remove htop hfind hnext).append
    (hlow.trans_le (htop.le_of_find hfind')) hs'
  have heq : (s.qos_sched_set_priority pid priority).2 = s' := by
    unfold qos_sched_set_priority
    simp only [hlevel, hfind, if_neg hlow.ne', hs']
  rw [heq, htop.round_eq, hleft.top.round_eq]
  exact hleft.turn hs hinv htop hfind hnext
end
end CSched
namespace RustSched
/-- Removing the task at place `i` costs the next task its turn. -/
def PassedOver (s : RustSched) (i : Nat) : Prop := i < s.queue.cursor ∧ 3 ≤ s.queue.count

instance (s : RustSched) (i : Nat) : Decidable (s.PassedOver i) :=
  inferInstanceAs (Decidable (_ ∧ _))

theorem turn_of_remove {s : RustSched} (hs : s.queue.Ok) {pid : UInt32} {i : Nat}
    (hfind : s.queue.find pid = some i) (hnext : s.sched_next.1 ≠ some pid) :
    ((s.sched_remove_task pid).2.sched_next.1 = s.sched_next.1 ↔ ¬s.PassedOver i) ∧
    (¬s.PassedOver i → (s.sched_remove_task pid).2.queue.order = s.queue.order.erase pid) := by
  have hqueue : (s.sched_remove_task pid).2.queue = (s.queue.close_gap i).rust_cursor := by
    unfold sched_remove_task
    rw [hfind]
  have hcount : s.queue.count ≠ 0 := by
    have := find_lt hfind
    omega
  have hhead := hs.head?_order hcount
  have hmem := mem_order.mpr (mem_of_find hfind)
  rw [next_eq_head? (ok_remove_task hs pid), hqueue]
  rw [next_eq_head? hs, hhead] at hnext ⊢
  have hne : pid ≠ s.queue.pids s.queue.cursor := fun h => hnext (h ▸ rfl)
  have hturn := turn_kept_iff hs.order_nodup hhead hmem hne (order_rust_remove hs hfind)
  rwa [length_order] at hturn
end RustSched
/-- For every task and every state that calls lead to in which it waits and is not
the next one: removing the task (in C also moving it to a lower level) leaves
the next task unchanged exactly if it is not passed over, and then the
other tasks of the round keep their turns. In C a round is over the level
that the next task is taken from. -/
theorem removal_keeps_turns (pid : UInt32) :
    (∀ tr r, CSched.system.Reach anyStep tr r →
      ∀ p i, r.sched.find_pid pid = some (p, i) → pid ≠ r.sched.qos_sched_next.1 →
      (((r.sched.qos_sched_remove_task pid).2.qos_sched_next.1 = r.sched.qos_sched_next.1 ↔
          ¬r.sched.PassedOver p i) ∧
        (¬r.sched.PassedOver p i →
          (r.sched.qos_sched_remove_task pid).2.round = r.sched.round.erase pid)) ∧
      ∀ priority low, CSched.level priority = some low → low < p →
        ((r.sched.qos_sched_set_priority pid priority).2.qos_sched_next.1 =
          r.sched.qos_sched_next.1 ↔ ¬r.sched.PassedOver p i) ∧
        (¬r.sched.PassedOver p i →
          (r.sched.qos_sched_set_priority pid priority).2.round = r.sched.round.erase pid)) ∧
    ∀ tr s, RustSched.system.Reach anyStep tr s →
      ∀ i, s.queue.find pid = some i → s.sched_next.1 ≠ some pid →
      ((s.sched_remove_task pid).2.sched_next.1 = s.sched_next.1 ↔ ¬s.PassedOver i) ∧
      (¬s.PassedOver i → (s.sched_remove_task pid).2.queue.order = s.queue.order.erase pid) := by
  constructor
  · intro tr r hr p i hfind hnext
    have hinv := CSched.inv_of_reach hr
    refine ⟨hinv.turn_of_remove hfind hnext, fun priority low hlevel hlow => ?_⟩
    exact hinv.turn_of_set_priority hfind hnext hlevel hlow
  intro tr s hr i hfind hnext
  exact RustSched.turn_of_remove (RustSched.ok_of_reach hr) hfind hnext

/-- Tasks 1, 2 and 3 after `n` turns, in C and in Rust. -/
def cThree (n : Nat) : CSched.Run :=
  CSched.after ([.add_task 1, .add_task 2, .add_task 3] ++ List.replicate n .next)

def rustThree (n : Nat) : RustSched :=
  RustSched.after ([.add_task 1, .add_task 2, .add_task 3] ++ List.replicate n .next)

/-- After one turn, task 3 leaves, and it stays the turn of task 2. -/
theorem removal_keeps_turns_last :
    ((cThree 1).sched.qos_sched_remove_task 3).2.qos_sched_next.1 =
        (cThree 1).sched.qos_sched_next.1 ∧
      ((rustThree 1).sched_remove_task 3).2.sched_next.1 = (rustThree 1).sched_next.1 := by
  have hfind : (cThree 1).sched.find_pid 3 = some (⟨2, by decide⟩, 2) := by decide +kernel
  have hfind' : (rustThree 1).queue.find 3 = some 2 := by decide +kernel
  obtain ⟨hc, hrust⟩ := removal_keeps_turns 3
  have hcturn := hc _ _ (CSched.reach_after _) _ _ hfind (by decide +kernel)
  have hrturn := hrust _ _ (RustSched.reach_after _) _ hfind' (by decide +kernel)
  exact ⟨hcturn.1.1.mpr (by decide +kernel), hrturn.1.mpr (by decide +kernel)⟩

/-- It is the turn of the last task (in Rust: of the second), and the first one
leaves: the task loses its turn. -/
theorem removal_skips_next : (cThree 2).sched.qos_sched_next.1 = 3 ∧
    ((cThree 2).sched.qos_sched_remove_task 1).2.qos_sched_next.1 = 2 ∧
    ((cThree 2).sched.qos_sched_set_priority 1 0).2.qos_sched_next.1 = 2 ∧
    (rustThree 1).sched_next.1 = some 2 ∧
    ((rustThree 1).sched_remove_task 1).2.sched_next.1 = some 3 := by
  decide +kernel

/-! ### The same calls to both schedulers -/
namespace CSched
/-- The calls that the Rust scheduler has too, with what they return. -/
def basic (s : CSched) : SchedCall → SchedReply × CSched
  | .add_task pid => (.done (s.qos_sched_add_task pid).1, (s.qos_sched_add_task pid).2)
  | .remove_task pid => (.done (s.qos_sched_remove_task pid).1, (s.qos_sched_remove_task pid).2)
  | .next => (.task s.qos_sched_next.1, s.qos_sched_next.2)
  | .current => (.task s.qos_sched_current, s)
end CSched
/-- Both schedulers get the same calls. -/
def bothStep (s : CSched × RustSched) (c : SchedCall) : CSched × RustSched :=
  ((s.1.basic c).2, (s.2.call c).2)

def bothScheds : System (CSched × RustSched) SchedCall :=
  .ofStep (CSched.qos_sched_reset, RustSched.sched_reset) bothStep

/-- The task that is removed is not the current one, and it does not stand
before the cursor, unless the cursor is at the end. -/
def InStep (s : CSched × RustSched) : SchedCall → Prop
  | .remove_task pid => ∀ i ∈ s.2.queue.find pid,
      pid ≠ s.2.current_pid ∧ ¬(i < s.2.queue.cursor ∧ s.2.queue.cursor + 1 < s.2.queue.count)
  | _ => True

/-- The level of the tasks that are added without a priority. -/
def normal : Level := ⟨2, by decide⟩

/-- The C scheduler has its tasks at the normal level, in the same array as the
Rust scheduler. -/
structure Agree (c : CSched) (r : RustSched) : Prop where
  queue : c.levels normal = r.queue
  others : ∀ p, p ≠ normal → (c.levels p).count = 0
  total : c.total_count = r.queue.count
  current : c.current_pid = r.current_pid
  ok : r.queue.Ok

section
variable {q : TaskQueue} {c : CSched} {r : RustSched}
theorem Agree.find_pid (h : Agree c r) (pid : UInt32) :
    c.find_pid pid = (r.queue.find pid).map fun i => (normal, i) := by
  cases hfind : c.find_pid pid with
  | none =>
    have hnone := find_eq_none.mpr (CSched.find_pid_eq_none.mp hfind normal)
    rw [h.queue] at hnone
    rw [hnone, Option.map_none]
  | some found =>
  obtain ⟨p, i⟩ := found
  have hfind' := CSched.find_of_find_pid hfind
  -- only the normal level has tasks
  have hp : p = normal := by
    by_contra hne
    have hzero := h.others p hne
    have := find_lt hfind'
    omega
  subst hp
  rw [h.queue] at hfind'
  rw [hfind', Option.map_some]

theorem Agree.of_set {c' : CSched} {r' : RustSched} (h : Agree c r)
    (hlevels : c'.levels = set c.levels normal q) (hqueue : r'.queue = q)
    (htotal : c'.total_count = q.count) (hcurrent : c'.current_pid = r'.current_pid) (hok : q.Ok) :
    Agree c' r' := by
  refine ⟨?_, fun p hp => ?_, ?_, hcurrent, ?_⟩
  · rw [hlevels, set_self, hqueue]
  · rw [hlevels, set_ne hp]
    exact h.others p hp
  · rw [htotal, hqueue]
  rwa [hqueue]

theorem Agree.add_task (h : Agree c r) (pid : UInt32) :
    (c.qos_sched_add_task pid).1 = (r.sched_add_task pid).1 ∧
      Agree (c.qos_sched_add_task pid).2 (r.sched_add_task pid).2 := by
  have hlevel : CSched.level QOS_SCHED_PRIO_NORMAL = some normal := rfl
  unfold CSched.qos_sched_add_task CSched.qos_sched_add_task_prio RustSched.sched_add_task
  simp only [hlevel, h.find_pid, Option.isSome_map, h.total]
  split
  · exact ⟨rfl, h⟩
  split
  · exact ⟨rfl, h⟩
  split
  · exact ⟨rfl, h⟩
  rename_i hfind hroom
  have happend : c.queue_append normal pid = some { c with
      levels := set c.levels normal ((c.levels normal).append pid)
      total_count := c.total_count + 1 } := by
    unfold CSched.queue_append
    rw [if_neg (by rwa [h.queue])]
  have hnew := find_eq_none.mp (Option.not_isSome_iff_eq_none.mp hfind)
  rw [happend]
  refine ⟨rfl, h.of_set rfl ?_ ?_ h.current ?_⟩
  · rw [h.queue]
  · show c.total_count + 1 = _
    rw [h.total, h.queue, count_append]
  rw [h.queue]
  exact h.ok.append hnew

theorem c_cursor_eq_rust_cursor {i : Nat} (h : ¬(i < q.cursor ∧ q.cursor + 1 < q.count)) :
    (q.close_gap i).c_cursor i = (q.close_gap i).rust_cursor := by
  unfold c_cursor rust_cursor close_gap
  dsimp only
  -- at the end of the array both set the cursor to 0
  by_cases hend : q.count - 1 = 0 ∨ q.count - 1 ≤ q.cursor
  · rw [if_pos hend]
    split
    · rfl
    rw [if_pos (hend.resolve_left ‹_›), if_neg (by omega)]
  rw [not_or] at hend
  rw [if_neg (not_or.mpr hend), if_neg hend.1, if_neg hend.2, if_neg (by omega)]

theorem Agree.remove_task_reply (h : Agree c r) (pid : UInt32) :
    (c.qos_sched_remove_task pid).1 = (r.sched_remove_task pid).1 := by
  unfold CSched.qos_sched_remove_task RustSched.sched_remove_task
  rw [h.find_pid]
  cases r.queue.find pid with
  | none | some i => rfl

theorem Agree.remove_task (h : Agree c r) {pid : UInt32}
    (hstep : InStep (c, r) (.remove_task pid)) :
    Agree (c.qos_sched_remove_task pid).2 (r.sched_remove_task pid).2 := by
  unfold CSched.qos_sched_remove_task RustSched.sched_remove_task
  rw [h.find_pid]
  cases hfind : r.queue.find pid with
  | none => exact h
  | some i =>
  -- the two differences: the current pid, and the cursor
  obtain ⟨hcurrent, hcursor⟩ := hstep i hfind
  have hi := find_lt hfind
  show Agree (c.queue_remove_at normal i) _
  unfold CSched.queue_remove_at
  rw [if_neg (by rw [h.queue]; omega)]
  refine h.of_set rfl ?_ ?_ ?_ ?_
  · rw [h.queue]
    exact (c_cursor_eq_rust_cursor hcursor).symm
  · show c.total_count - 1 = _
    rw [count_c_cursor, h.total, h.queue]
    rfl
  · show c.current_pid = if r.current_pid == pid then 0 else r.current_pid
    rw [if_neg (by simpa using Ne.symm hcurrent)]
    exact h.current
  rw [h.queue]
  exact h.ok.c_remove hfind

theorem Agree.next (h : Agree c r) :
    c.qos_sched_next.1 = r.sched_next.1.getD 0 ∧ Agree c.qos_sched_next.2 r.sched_next.2 := by
  unfold CSched.qos_sched_next RustSched.sched_next
  rw [h.total]
  split
  · exact ⟨rfl, h.queue, h.others, rfl, rfl, h.ok⟩
  rename_i hcount
  -- the other levels are empty, so the normal one is the highest
  have htop : c.Top normal := by refine ⟨by rwa [h.queue], fun p hp => h.others p hp.ne'⟩
  rw [CSched.top_below_eq htop _ _ normal.isLt]
  dsimp only
  rw [h.queue, Nat.mod_eq_of_lt (h.ok.cursor_lt hcount)]
  exact ⟨rfl, h.of_set rfl rfl rfl rfl (h.ok.advance hcount)⟩
end
theorem Agree.reply {c : CSched} {r : RustSched} (h : Agree c r) (call : SchedCall) :
    (c.basic call).1 = (r.call call).1 := by
  cases call with
  | add_task pid => exact congrArg _ (h.add_task pid).1
  | remove_task pid => exact congrArg _ (h.remove_task_reply pid)
  | next => exact congrArg _ h.next.1
  | current => exact congrArg _ h.current

theorem Agree.step {s : CSched × RustSched} (h : Agree s.1 s.2) {call : SchedCall}
    (hstep : InStep s call) : Agree (bothStep s call).1 (bothStep s call).2 := by
  cases call with
  | add_task pid => exact (h.add_task pid).2
  | remove_task pid => exact h.remove_task hstep
  | next => exact h.next.2
  | current => exact h

/-- In every run in which no current task is removed, and none before the
cursor unless the cursor is at the end, the two schedulers return the same
results, whatever the next call is. -/
theorem scheds_equivalent {tr : List SchedCall} {s : CSched × RustSched}
    (hr : bothScheds.Reach InStep tr s) (call : SchedCall) :
    (s.1.basic call).1 = (s.2.call call).1 := by
  -- the condition is only needed to keep the states in agreement, not for the reply
  have hinit : Agree CSched.qos_sched_reset RustSched.sched_reset :=
    ⟨rfl, fun _ _ => rfl, rfl, rfl, ok_empty⟩
  have h : Agree s.1 s.2 := by
    refine hr.invariant (fun s => Agree s.1 s.2) hinit fun s call s' h hc hstep => ?_
    cases hstep
    exact h.step hc
  exact h.reply call

instance (s : CSched × RustSched) (call : SchedCall) : Decidable (InStep s call) := by
  cases call <;> dsimp only [InStep] <;> infer_instance

/-- Task 3 leaves while task 1 is the current one. -/
theorem scheds_equivalent_last :
    ∃ s, bothScheds.Reach InStep [.add_task 1, .add_task 2, .add_task 3, .next, .remove_task 3] s ∧
      ∀ call, (s.1.basic call).1 = (s.2.call call).1 :=
  System.exists_execIf (P := fun _ => True) (by decide +kernel) fun _ hr _ call =>
    scheds_equivalent hr call

/-- What both schedulers return to a call after some others. -/
def repliesAfter (calls : List SchedCall) (call : SchedCall) : SchedReply × SchedReply :=
  let s := calls.foldl bothStep (CSched.qos_sched_reset, RustSched.sched_reset)
  ((s.1.basic call).1, (s.2.call call).1)

/-- The current task leaves; and after two turns the first of four tasks
leaves. -/
theorem scheds_differ :
    repliesAfter [.add_task 5, .next, .remove_task 5] .current = (.task 5, .task 0) ∧
    repliesAfter [.add_task 1, .add_task 2, .add_task 3, .add_task 4, .next, .next,
      .remove_task 1] .next = (.task 3, .task 4) := by
  decide +kernel
end QosKernel
