import QosKernel.Framework.ArrayLoops
import QosKernel.Framework.Rotation

/-! # Arrays of tasks with a cursor

The C scheduler (`c-os/kernel/sched/sched.c`) keeps one such array for each
priority, the Rust scheduler (`sched_` in `rust-os/kernel/src/lib.rs`) has
one for all tasks. They search it, append to it and close gaps in it with
the same loops; they differ in what happens to the cursor when a task
leaves.

`order` is the order in which the tasks get their turns.
-/
open Framework
namespace QosKernel
def QOS_SCHED_MAX_TASKS : Nat := 64

structure TaskQueue where
  pids : Nat → UInt32
  count : Nat
  cursor : Nat

namespace TaskQueue
variable {q : TaskQueue}
def empty : TaskQueue := ⟨fun _ => 0, 0, 0⟩

section
variable (q : TaskQueue)
def find (pid : UInt32) : Option Nat := search (· == pid) q.pids 0 q.count

def append (pid : UInt32) : TaskQueue :=
  { q with pids := set q.pids q.count pid, count := q.count + 1 }

/-- The loop that closes the gap at `index`, and the two lines behind it. -/
def close_gap (index : Nat) : TaskQueue :=
  { q with
    pids := set (shiftDown q.pids index (q.count - 1 - index)) (q.count - 1) 0
    count := q.count - 1 }

/-- The end of the C function `queue_remove_at`: the cursor. -/
def c_cursor (index : Nat) : TaskQueue :=
  if q.count = 0 then { q with cursor := 0 }
  else
    -- the wrap comes first: the test behind it then sees a cursor of 0
    let cursor := if q.count ≤ q.cursor then 0 else q.cursor
    { q with cursor := if index < cursor ∧ 0 < cursor then cursor - 1 else cursor }

/-- The end of the Rust function `sched_remove_task`: the cursor. -/
def rust_cursor : TaskQueue :=
  -- the cursor is never moved down
  if q.count = 0 ∨ q.count ≤ q.cursor then { q with cursor := 0 } else q

/-- The cursor moves on from `idx`. -/
def advance (idx : Nat) : TaskQueue := { q with cursor := (idx + 1) % q.count }
end
section
variable (q : TaskQueue)
def tasks : List UInt32 := view q.pids q.count
def order : List UInt32 := q.tasks.rotate q.cursor

/-- The cursor is an index of a task, or 0 if there is none. -/
def CursorOk : Prop := q.cursor < q.count ∨ q.count = 0 ∧ q.cursor = 0
end
structure Ok (q : TaskQueue) : Prop where
  nodup : q.tasks.Nodup
  cursor : q.CursorOk

theorem ok_empty : empty.Ok := ⟨List.nodup_nil, .inr ⟨rfl, rfl⟩⟩
@[simp] theorem length_tasks (q : TaskQueue) : q.tasks.length = q.count := by simp [tasks]
@[simp] theorem length_order (q : TaskQueue) : q.order.length = q.count := by simp [order]
@[simp] theorem mem_order {pid : UInt32} : pid ∈ q.order ↔ pid ∈ q.tasks := by simp [order]
theorem Ok.order_nodup (h : q.Ok) : q.order.Nodup := by simpa [order] using h.nodup

theorem Ok.cursor_le (h : q.Ok) : q.cursor ≤ q.count := by
  have := h.cursor
  unfold CursorOk at this
  omega

/-! ### Searching -/
section find
variable {q : TaskQueue} {pid : UInt32} {i : Nat}
theorem find_lt (h : q.find pid = some i) : i < q.count := by
  have := (search_some h).2.1
  omega

theorem find_pid_eq (h : q.find pid = some i) : q.pids i = pid := by
  simpa using (search_some h).2.2.1

theorem find_eq_none : q.find pid = none ↔ pid ∉ q.tasks := by
  constructor
  · intro h hmem
    obtain ⟨i, hi, rfl⟩ := mem_view.mp hmem
    simpa using search_none h i (Nat.zero_le _) (by omega)
  intro h
  cases hfind : q.find pid with
  | none => rfl
  | some i => exact absurd (mem_view.mpr ⟨i, find_lt hfind, find_pid_eq hfind⟩) h

theorem mem_of_find (h : q.find pid = some i) : pid ∈ q.tasks :=
  mem_view.mpr ⟨i, find_lt h, find_pid_eq h⟩

theorem mem_take_of_find (h : q.find pid = some i) {c : Nat} : pid ∈ q.tasks.take c ↔ i < c := by
  obtain ⟨hsplit, -, hbefore⟩ := search_split h
  have hpid := find_pid_eq h
  have hnot : pid ∉ view q.pids i := by
    intro hmem
    simpa using hbefore pid hmem
  have htasks : q.tasks = view q.pids i ++ pid :: _ := hpid ▸ hsplit
  rw [htasks, List.take_append, view_length, List.mem_append]
  constructor
  · intro hmem
    by_contra hc
    have hzero : c - i = 0 := by omega
    rw [hzero, List.take_zero] at hmem
    exact hnot (List.mem_of_mem_take (hmem.resolve_right List.not_mem_nil))
  intro hc
  have hpos : c - i = (c - i - 1) + 1 := by omega
  rw [hpos, List.take_succ_cons]
  exact .inr List.mem_cons_self
end find
/-! ### Appending and removing -/
section edit
variable {q : TaskQueue} {pid : UInt32} {i : Nat}
@[simp] theorem tasks_append : (q.append pid).tasks = q.tasks ++ [pid] := by
  show view (set q.pids q.count pid) (q.count + 1) = _
  rw [view_succ, view_set_ge (Nat.le_refl _), set_self]
  rfl

@[simp] theorem count_append : (q.append pid).count = q.count + 1 := rfl

theorem Ok.append (h : q.Ok) (hpid : pid ∉ q.tasks) : (q.append pid).Ok := by
  refine ⟨?_, ?_⟩
  · rw [tasks_append]
    exact List.nodup_append_comm.mp (List.nodup_cons.mpr ⟨hpid, h.nodup⟩)
  have := h.cursor
  show q.cursor < q.count + 1 ∨ _
  unfold CursorOk at this
  omega

theorem tasks_close_gap (h : q.find pid = some i) : (q.close_gap i).tasks = q.tasks.erase pid := by
  -- the loop removes the place that the search found, and the task is nowhere before it
  obtain ⟨hsplit, -, hbefore⟩ := search_split h
  have hpid := find_pid_eq h
  have hnot : pid ∉ view q.pids i := by
    intro hmem
    simpa using hbefore pid hmem
  show view (set (shiftDown q.pids i (q.count - 1 - i)) (q.count - 1) 0) (q.count - 1) = _
  rw [view_shiftDown (find_lt h), tasks, hsplit, hpid, List.erase_append_right _ hnot,
    List.erase_cons_head]

@[simp] theorem tasks_c_cursor : (q.c_cursor i).tasks = q.tasks := by
  unfold c_cursor
  split <;> rfl

@[simp] theorem tasks_rust_cursor : q.rust_cursor.tasks = q.tasks := by
  unfold rust_cursor
  split <;> rfl

@[simp] theorem count_c_cursor : (q.c_cursor i).count = q.count := by
  unfold c_cursor
  split <;> rfl

theorem cursorOk_c_cursor : (q.c_cursor i).CursorOk := by
  unfold CursorOk c_cursor
  split
  · exact .inr ⟨by assumption, rfl⟩
  left
  dsimp only
  by_cases hle : q.count ≤ q.cursor
  · rw [if_pos hle, if_neg (by omega)]
    omega
  rw [if_neg hle]
  split <;> omega

theorem cursorOk_rust_cursor : q.rust_cursor.CursorOk := by
  unfold CursorOk rust_cursor
  split
  · show 0 < q.count ∨ q.count = 0 ∧ 0 = 0
    omega
  omega

theorem Ok.c_remove (h : q.Ok) (hfind : q.find pid = some i) : ((q.close_gap i).c_cursor i).Ok := by
  refine ⟨?_, cursorOk_c_cursor⟩
  rw [tasks_c_cursor, tasks_close_gap hfind]
  exact h.nodup.erase pid

theorem Ok.rust_remove (h : q.Ok) (hfind : q.find pid = some i) : (q.close_gap i).rust_cursor.Ok := by
  refine ⟨?_, cursorOk_rust_cursor⟩
  rw [tasks_rust_cursor, tasks_close_gap hfind]
  exact h.nodup.erase pid
end edit
/-! ### The order after a removal -/
section removal
variable {q : TaskQueue} {pid : UInt32} {i : Nat}
/-- With a cursor that is moved down when it has to be, the others keep their
turns. -/
theorem order_erase (h : q.Ok) (hfind : q.find pid = some i) :
    (q.tasks.erase pid).rotate (if i < q.cursor then q.cursor - 1 else q.cursor) =
      q.order.erase pid := by
  have hlen : q.cursor ≤ q.tasks.length := by
    rw [length_tasks]
    exact h.cursor_le
  split
  · exact rotate_erase_of_mem_take hlen h.nodup ((mem_take_of_find hfind).mpr ‹_›)
  exact rotate_erase_of_mem_drop hlen (mt (mem_take_of_find hfind).mp ‹_›)

theorem length_erase_of_find (hfind : q.find pid = some i) :
    (q.tasks.erase pid).length = q.count - 1 := by
  rw [List.length_erase_of_mem (mem_of_find hfind), length_tasks]

/-- A cursor that is set to 0 at the end of the array stands one place too
far, if it had to be moved down. -/
theorem order_erase_wrap (h : q.Ok) (hfind : q.find pid = some i) (hend : q.count - 1 ≤ q.cursor) :
    q.tasks.erase pid =
      if i < q.cursor then (q.order.erase pid).rotate 1 else q.order.erase pid := by
  have hi := find_lt hfind
  have hcursor : q.cursor = (q.tasks.erase pid).length := by
    have := h.cursor
    rw [length_erase_of_find hfind]
    unfold CursorOk at this
    omega
  have horder := order_erase h hfind
  split
  · rw [if_pos ‹_›] at horder
    -- from `cursor - 1` one more place is the whole array
    rw [← horder, List.rotate_rotate, Nat.sub_add_cancel (by omega), hcursor, List.rotate_length]
  rw [if_neg ‹_›] at horder
  rw [← horder, hcursor, List.rotate_length]

/-- Removing a task in the C scheduler: the others keep their turns, but when
the task stood before the cursor and the cursor at the end, then the task
whose turn it is goes to the end. -/
theorem order_c_remove (h : q.Ok) (hfind : q.find pid = some i) :
    ((q.close_gap i).c_cursor i).order =
      if i < q.cursor ∧ q.cursor = q.count - 1 then (q.order.erase pid).rotate 1
      else q.order.erase pid := by
  have hi := find_lt hfind
  show List.rotate (TaskQueue.tasks _) _ = _
  rw [tasks_c_cursor, tasks_close_gap hfind]
  by_cases hend : q.count - 1 ≤ q.cursor
  · -- the cursor is set to 0
    have hzero : ((q.close_gap i).c_cursor i).cursor = 0 := by simp [c_cursor, close_gap, hend]
    have heq : q.cursor = q.count - 1 := by
      have := h.cursor
      unfold CursorOk at this
      omega
    rw [hzero, List.rotate_zero, order_erase_wrap h hfind hend]
    simp only [heq, and_true]
  -- the cursor stays inside and follows its task
  · have hcursor : ((q.close_gap i).c_cursor i).cursor =
        if i < q.cursor then q.cursor - 1 else q.cursor := by
      have hcount : q.count - 1 ≠ 0 := by omega
      unfold c_cursor close_gap
      dsimp only
      rw [if_neg hcount, if_neg hend]
      show (if i < q.cursor ∧ 0 < q.cursor then _ else _) = _
      split <;> split <;> omega
    rw [hcursor, order_erase h hfind, if_neg (by omega)]

/-- Removing a task in the Rust scheduler: whenever the task stood before the
cursor, the task whose turn it is goes to the end. -/
theorem order_rust_remove (h : q.Ok) (hfind : q.find pid = some i) :
    (q.close_gap i).rust_cursor.order =
      if i < q.cursor then (q.order.erase pid).rotate 1 else q.order.erase pid := by
  have hi := find_lt hfind
  show List.rotate (TaskQueue.tasks _) _ = _
  rw [tasks_rust_cursor, tasks_close_gap hfind]
  by_cases hend : q.count - 1 ≤ q.cursor
  · have hzero : (q.close_gap i).rust_cursor.cursor = 0 := by simp [rust_cursor, close_gap, hend]
    rw [hzero, List.rotate_zero, order_erase_wrap h hfind hend]
  -- the cursor stays, so the tasks behind the gap have moved under it
  · have hcursor : (q.close_gap i).rust_cursor.cursor = q.cursor := by
      have hcount : ¬(q.count - 1 = 0 ∨ q.count - 1 ≤ q.cursor) := by omega
      unfold rust_cursor close_gap
      dsimp only
      rw [if_neg hcount]
    have horder := order_erase h hfind
    rw [hcursor]
    split
    · rw [if_pos ‹_›] at horder
      rw [← horder, List.rotate_rotate, Nat.sub_add_cancel (by omega)]
    rwa [if_neg ‹_›] at horder
end removal
/-! ### Turns -/
section turns
variable {q : TaskQueue}
theorem Ok.cursor_lt (h : q.Ok) (hcount : q.count ≠ 0) : q.cursor < q.count := by
  have := h.cursor
  unfold CursorOk at this
  omega

theorem Ok.head?_order (h : q.Ok) (hcount : q.count ≠ 0) :
    q.order.head? = some (q.pids q.cursor) := by
  have hlt := h.cursor_lt hcount
  rw [List.head?_eq_getElem?, order, List.getElem?_rotate (by rw [length_tasks]; omega), length_tasks,
    Nat.zero_add, Nat.mod_eq_of_lt hlt, List.getElem?_eq_getElem (by rw [length_tasks]; exact hlt)]
  exact congrArg some (view_getElem q.pids q.count q.cursor _)

/-- A turn moves the task whose turn it was to the end. -/
theorem order_advance : (q.advance q.cursor).order = q.order.rotate 1 := by
  show q.tasks.rotate ((q.cursor + 1) % q.count) = (q.tasks.rotate q.cursor).rotate 1
  rw [List.rotate_rotate]
  -- the cursor is taken modulo the count, and so is a rotation
  conv_rhs => rw [← List.rotate_mod, length_tasks]

theorem Ok.advance (h : q.Ok) (hcount : q.count ≠ 0) : (q.advance q.cursor).Ok :=
  ⟨h.nodup, .inl (Nat.mod_lt _ (Nat.pos_of_ne_zero hcount))⟩
end turns
end TaskQueue
end QosKernel
