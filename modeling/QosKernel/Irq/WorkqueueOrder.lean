import QosKernel.Irq.WorkqueueOnce

/-! # The order and the capacity of the work queue

Here the pieces of work are numbered as they are enqueued, so that runs of
any length can be spoken of, also those in which ids come again.

Cancelling leaves the index of the entry in the ring. When the entry is
used again, the new work inherits this place, and may overtake work that
was enqueued before it; and the places that are left count against the
size of the ring.
-/
open Framework
namespace QosKernel
open Workqueue (used_of_clear waits_of_unused)
/-! ### Runs with numbered work -/
structure WorkOrder where
  table : Workqueue
  /-- The number of the work in each entry in use. -/
  serial : Nat → Nat
  /-- How many pieces of work were enqueued. -/
  enqueued : Nat
  started : List Nat
  cancelled : List Nat

namespace WorkOrder
def reset : WorkOrder := ⟨.reset, fun _ => 0, 0, [], []⟩

section
variable (s : WorkOrder)
def enqueue (fn : Option UInt64) (arg : UInt64) : WorkOrder :=
  match (s.table.enqueue fn arg).1, s.table.free_slot with
  | some _, some i =>
    { s with
      table := (s.table.enqueue fn arg).2
      serial := set s.serial i s.enqueued
      enqueued := s.enqueued + 1 }
  | _, _ => { s with table := (s.table.enqueue fn arg).2 }

def cancel (work_id : UInt32) : WorkOrder :=
  match (s.table.cancel work_id).1, s.table.find_slot_by_id work_id with
  | true, some i =>
    { s with table := (s.table.cancel work_id).2, cancelled := s.cancelled ++ [s.serial i] }
  | _, _ => { s with table := (s.table.cancel work_id).2 }

def take : Option (WorkOrder × Option Unit) :=
  (softirq_take s.table.pending_mask).map fun (mask, vector) =>
    ({ s with table := { s.table with pending_mask := mask } },
      if vector = QOS_SOFTIRQ_WORKQUEUE then some () else none)
end
section
variable (count : UInt32 → UInt32) (s : WorkOrder)
def complete : WorkOrder :=
  { s with table := { s.table with completed := count s.table.completed } }

/-- One round of the handler. The work that starts is that of the first index
in the ring. -/
def handler : WorkOrder × Next Unit :=
  match s.table.next with
  | none => (s, .done)
  | some (table, none) => ({ s with table := table }, .goto ())
  | some (table, some _) =>
    (complete count { s with
      table := table
      started := s.started ++ [s.serial (s.table.queue.toList.headD 0)] }, .invoke ())
end
def waiting (s : WorkOrder) : List Nat :=
  (List.range s.enqueued).filter fun n => n ∉ s.started && n ∉ s.cancelled
end WorkOrder
def CWork.order : Service WorkOrder WorkCall Unit where
  init := .reset
  call s
    | .enqueue fn arg => some (if fn.isNone then s else s.enqueue fn arg)
    | .cancel work_id => some (s.cancel work_id)
  take := WorkOrder.take
  tau s _ := s.handler id
  resume s _ := (s.complete (· + 1), .goto ())

def RustWork.order : Service WorkOrder WorkCall Unit where
  init := .reset
  call s
    | .enqueue fn arg => if fn.isNone then none else some (s.enqueue fn arg)
    | .cancel work_id => some (s.cancel work_id)
  take := WorkOrder.take
  tau s _ := s.handler (UInt32.saturating_add · 1)
  resume s _ := (s, .goto ())

/-! ### The invariant -/
variable {s : WorkOrder} {entries : WorkSlot → WorkEntry} {i j : WorkSlot}
/-- The entries in use hold the waiting work, under its numbers. -/
structure EntriesOk (s : WorkOrder) : Prop
    extends s.table.Holds (fun i => s.serial i) (· ∈ s.waiting) where
  past : (∀ n ∈ s.started, n < s.enqueued) ∧ ∀ n ∈ s.cancelled, n < s.enqueued

theorem WorkOrder.mem_waiting {n : Nat} :
    n ∈ s.waiting ↔ n < s.enqueued ∧ n ∉ s.started ∧ n ∉ s.cancelled := by
  simp [waiting]

theorem entriesOk_reset : EntriesOk .reset := by
  refine ⟨?_, nofun, nofun⟩
  constructor <;> simp [WorkOrder.reset, Workqueue.reset, WorkEntry.new, WorkOrder.waiting]

/-- An entry in use after entry `i` was filled is the new one, or it was in use
before and has kept its number. -/
theorem used_of_fill {e : WorkEntry} (serial : Nat → Nat) (n : Nat)
    (h : (set entries i e j).used = true) :
    j = i ∨ j ≠ i ∧ (entries j).used = true ∧ set entries i e j = entries j ∧
      set serial i n j = serial j := by
  by_cases hji : j = i
  · exact .inl hji
  have hset : set entries i e j = entries j := set_ne hji
  rw [hset] at h
  exact .inr ⟨hji, h, hset, set_ne fun heq => hji (Fin.ext heq)⟩

section
variable {table : Workqueue} {i : WorkSlot} {fn : Option UInt64} {s s' : WorkOrder}
theorem EntriesOk.of_table (h : EntriesOk s) (hentries : table.entries = s.table.entries)
    (hqueue : table.queue = s.table.queue) : EntriesOk { s with table := table } :=
  ⟨h.toHolds.of_eq hentries hqueue rfl fun _ => .rfl, h.past⟩

/-- The three ways in which an enqueue can end, with the numbers. -/
theorem WorkOrder.enqueue_ends (s : WorkOrder) (fn : Option UInt64) (arg : UInt64) :
    s.enqueue fn arg = s ∨
    (∃ i, (s.table.entries i).used = false ∧ s.enqueue fn arg = { s with
      table := { s.table with
        entries := set s.table.entries i .new
        next_id := (Workqueue.take_id s.table.next_id).2 } }) ∨
    ∃ i queue, s.table.free_slot = some i ∧ s.table.queue.push i = some queue ∧
      s.enqueue fn arg = { s with
        table := { s.table with
          entries := set s.table.entries i
            ⟨true, true, (Workqueue.take_id s.table.next_id).1, fn, arg⟩
          queue := queue
          next_id := (Workqueue.take_id s.table.next_id).2
          pending_mask := softirq_raise s.table.pending_mask QOS_SOFTIRQ_WORKQUEUE }
        serial := set s.serial i s.enqueued
        enqueued := s.enqueued + 1 } := by
  unfold WorkOrder.enqueue
  obtain ⟨-, heq⟩ | ⟨i, hfree, ⟨-, heq⟩ | ⟨queue, hpush, heq⟩⟩ := s.table.enqueue_ends fn arg
  · rw [heq]
    exact .inl rfl
  · rw [heq]
    exact .inr (.inl ⟨i, by simpa using first_some hfree, rfl⟩)
  rw [heq, hfree]
  exact .inr (.inr ⟨i, queue, rfl, hpush, rfl⟩)

theorem WorkOrder.cancel_ends (s : WorkOrder) (work_id : UInt32) :
    s.cancel work_id = s ∨ ∃ i, (s.table.entries i).used = true ∧ s.cancel work_id = { s with
      table := { s.table with entries := set s.table.entries i .new }
      cancelled := s.cancelled ++ [s.serial i] } := by
  unfold WorkOrder.cancel Workqueue.cancel
  by_cases hzero : work_id = 0
  · rw [if_pos hzero]
    exact .inl rfl
  rw [if_neg hzero]
  cases hfind : s.table.find_slot_by_id work_id with
  | none => exact .inl rfl
  | some i =>
  have hi := first_some hfind
  simp only [Bool.and_eq_true] at hi
  exact .inr ⟨i, hi.1, rfl⟩

section
variable (h : EntriesOk s)
include h
theorem EntriesOk.cancel (work_id : UInt32) : EntriesOk (s.cancel work_id) := by
  obtain heq | ⟨i, hused, heq⟩ := s.cancel_ends work_id
  · rw [heq]
    exact h
  rw [heq]
  obtain ⟨-, -, hmem⟩ := h.waiting i hused
  refine ⟨?_, h.past.1, fun n hn => ?_⟩
  · refine h.toHolds.clear rfl (fun _ _ => rfl) (fun n => ?_) (fun _ _ hj => hj) fun _ hx => hx
    simp [WorkOrder.mem_waiting, hused, not_or, and_assoc]
  rcases List.mem_append.mp hn with hn | hn
  · exact h.past.2 n hn
  rw [List.mem_singleton.mp hn]
  exact (WorkOrder.mem_waiting.mp hmem).1

theorem EntriesOk.accept {id : UInt32} {arg : UInt64} (hfn : fn.isSome = true)
    (hused : (s.table.entries i).used = false)
    (hentries : table.entries = set s.table.entries i ⟨true, true, id, fn, arg⟩)
    (hqueue : table.queue.toList = s.table.queue.toList ++ [i.val]) :
    EntriesOk { s with
      table := table
      serial := set s.serial i s.enqueued
      enqueued := s.enqueued + 1 } := by
  -- the new number is above all that were given
  have hfresh : s.enqueued ∉ s.started ∧ s.enqueued ∉ s.cancelled :=
    ⟨fun hn => Nat.lt_irrefl _ (h.past.1 _ hn), fun hn => Nat.lt_irrefl _ (h.past.2 _ hn)⟩
  refine ⟨h.toHolds.fill hused hentries rfl rfl hfn (fun j hj => ?_) ?_ (fun n => ?_) hqueue,
    fun n hn => Nat.lt_succ_of_lt (h.past.1 n hn), fun n hn => Nat.lt_succ_of_lt (h.past.2 n hn)⟩
  · exact set_ne fun heq => hj (Fin.ext heq)
  · dsimp only
    rw [set_self, WorkOrder.mem_waiting]
    exact fun hmem => Nat.lt_irrefl _ hmem.1
  dsimp only
  rw [set_self, WorkOrder.mem_waiting, WorkOrder.mem_waiting]
  constructor
  · rintro ⟨hlt, hnot⟩
    exact (Nat.lt_succ_iff_lt_or_eq.mp hlt).imp_left (⟨·, hnot⟩)
  rintro (⟨hlt, hnot⟩ | rfl)
  · exact ⟨Nat.lt_succ_of_lt hlt, hnot⟩
  exact ⟨Nat.lt_succ_self _, hfresh⟩

theorem EntriesOk.enqueue (hfn : fn.isSome = true) (arg : UInt64) :
    EntriesOk (s.enqueue fn arg) := by
  obtain heq | ⟨i, hused, heq⟩ | ⟨i, queue, hfree, hpush, heq⟩ := s.enqueue_ends fn arg
  · rw [heq]
    exact h
  · rw [heq]
    exact ⟨h.toHolds.clear rfl (fun _ _ => rfl) (fun _ => waits_of_unused hused)
      (fun _ _ hj => hj) fun _ hx => hx, h.past⟩
  rw [heq]
  exact h.accept hfn (by simpa using first_some hfree) rfl (Ring.toList_push hpush)

theorem EntriesOk.handler_ends (count : UInt32 → UInt32) : s.handler count = (s, .done) ∨
    ∃ (i : WorkSlot) (queue : Ring Nat QOS_WORKQUEUE_MAX),
      s.table.queue.toList = i.val :: queue.toList ∧
      ((s.table.entries i).used = false ∧ s.handler count =
        ({ s with table := { s.table with queue := queue, entries := set s.table.entries i .new } },
          .goto ()) ∨
      (s.table.entries i).used = true ∧ s.handler count = (WorkOrder.complete count { s with
          table := { s.table with queue := queue, entries := set s.table.entries i .new }
          started := s.started ++ [s.serial i] }, .invoke ())) := by
  unfold WorkOrder.handler
  obtain ⟨-, heq⟩ | ⟨i, queue, hlist, ⟨hstale, heq⟩ | ⟨hrun, heq⟩⟩ := s.table.next_cases h.indices
  · rw [heq]
    exact .inl rfl
  · refine .inr ⟨i, queue, hlist, .inl ⟨?_, by rw [heq]⟩⟩
    -- an entry in use would run
    by_contra hused
    obtain ⟨hpending, hfn, -⟩ := h.waiting i (by simpa using hused)
    simp [hpending, hfn] at hstale
    exact hused hstale
  simp only [Bool.and_eq_true] at hrun
  refine .inr ⟨i, queue, hlist, .inr ⟨hrun.1.1, ?_⟩⟩
  rw [heq, hlist]
  rfl

theorem EntriesOk.start {queue : Ring Nat QOS_WORKQUEUE_MAX}
    (hlist : s.table.queue.toList = i.val :: queue.toList) (hused : (s.table.entries i).used = true) :
    EntriesOk { s with
      table := { s.table with queue := queue, entries := set s.table.entries i .new }
      started := s.started ++ [s.serial i] } := by
  obtain ⟨-, -, hmem⟩ := h.waiting i hused
  refine ⟨h.toHolds.pop rfl hlist (fun _ _ => rfl) fun n => ?_, fun n hn => ?_, h.past.2⟩
  · simp only [WorkOrder.mem_waiting, List.mem_append, List.mem_singleton, not_or, hused,
      true_implies]
    tauto
  rcases List.mem_append.mp hn with hn | hn
  · exact h.past.1 n hn
  rw [List.mem_singleton.mp hn]
  exact (WorkOrder.mem_waiting.mp hmem).1

theorem EntriesOk.handler (count : UInt32 → UInt32) : EntriesOk (s.handler count).1 := by
  obtain heq | ⟨i, queue, hlist, ⟨hused, heq⟩ | ⟨hused, heq⟩⟩ := h.handler_ends count
  · rw [heq]
    exact h
  · rw [heq]
    exact ⟨h.toHolds.pop rfl hlist (fun _ _ => rfl) fun _ => waits_of_unused hused, h.past⟩
  rw [heq]
  exact (h.start hlist hused).of_table rfl rfl
end
end
/-! ### Order -/
/-- The work in the entries stands in the ring in the order of its numbers, and
what was started came before it. -/
structure OrderOk (s : WorkOrder) : Prop where
  places : ∀ i j, (s.table.entries i).used = true → (s.table.entries j).used = true →
    s.serial i < s.serial j →
    s.table.queue.toList.idxOf i.val < s.table.queue.toList.idxOf j.val
  sorted : s.started.Pairwise (· < ·)
  later : ∀ n ∈ s.started, ∀ i, (s.table.entries i).used = true → n < s.serial i

theorem orderOk_reset : OrderOk .reset := by
  constructor <;> simp [WorkOrder.reset, Workqueue.reset, WorkEntry.new]

/-- The entry that the next enqueue takes has its place in the ring behind all
entries in use. (An index that is not in the ring counts as behind.) -/
def WorkOrder.NewWorkLast (s : WorkOrder) : Prop :=
  ∀ i ∈ s.table.free_slot, ∀ j, (s.table.entries j).used = true →
    s.table.queue.toList.idxOf j.val < s.table.queue.toList.idxOf i.val

section
variable {s s' : WorkOrder}
/-- No work starts, and no entry comes into use. -/
theorem OrderOk.fewer (h : OrderOk s) (hstarted : s'.started = s.started)
    (hused : ∀ j, (s'.table.entries j).used = true →
      (s.table.entries j).used = true ∧ s'.serial j = s.serial j)
    (hplaces : ∀ j k, (s'.table.entries j).used = true → (s'.table.entries k).used = true →
      s.table.queue.toList.idxOf j.val < s.table.queue.toList.idxOf k.val →
      s'.table.queue.toList.idxOf j.val < s'.table.queue.toList.idxOf k.val) : OrderOk s' := by
  constructor
  case places =>
    intro i j hi hj hlt
    rw [(hused i hi).2, (hused j hj).2] at hlt
    exact hplaces i j hi hj (h.places i j (hused i hi).1 (hused j hj).1 hlt)
  case sorted =>
    rw [hstarted]
    exact h.sorted
  case later =>
    intro n hn i hi
    rw [hstarted] at hn
    rw [(hused i hi).2]
    exact h.later n hn i (hused i hi).1

theorem idxOf_pop {ring ring' : List Nat} {i j k : Nat} (hring : ring = i :: ring') (hj : j ≠ i)
    (hk : k ≠ i) (hlt : ring.idxOf j < ring.idxOf k) : ring'.idxOf j < ring'.idxOf k := by
  rw [hring, List.idxOf_cons_ne _ (Ne.symm hj), List.idxOf_cons_ne _ (Ne.symm hk)] at hlt
  exact Nat.lt_of_succ_lt_succ hlt

theorem OrderOk.cancel (h : OrderOk s) (work_id : UInt32) : OrderOk (s.cancel work_id) := by
  obtain heq | ⟨i, -, heq⟩ := s.cancel_ends work_id
  · rw [heq]
    exact h
  rw [heq]
  exact h.fewer rfl (fun j hj => ⟨(used_of_clear hj).2, rfl⟩) fun _ _ _ _ hlt => hlt

theorem OrderOk.enqueue (h : OrderOk s) (hentries : EntriesOk s) {fn : Option UInt64}
    {arg : UInt64} (hlast : s.table.queue.count ≠ QOS_WORKQUEUE_MAX → s.NewWorkLast) :
    OrderOk (s.enqueue fn arg) := by
  obtain heq | ⟨i, -, heq⟩ | ⟨i, queue, hfree, hpush, heq⟩ := s.enqueue_ends fn arg
  · rw [heq]
    exact h
  · rw [heq]
    exact h.fewer rfl (fun j hj => ⟨(used_of_clear hj).2, rfl⟩) fun _ _ _ _ hlt => hlt
  have hring := Ring.toList_push hpush
  -- the index was pushed, so the ring was not full
  have hroom : s.table.queue.count ≠ QOS_WORKQUEUE_MAX := by
    intro hfull
    rw [Ring.push_eq_none.mpr hfull] at hpush
    cases hpush
  have hplace := hlast hroom i hfree
  have hunused : (s.table.entries i).used = false := by simpa using first_some hfree
  rw [heq]
  -- a push leaves the first places of the indices that are in the ring
  have hidx : ∀ {j : WorkSlot}, (s.table.entries j).used = true →
      queue.toList.idxOf j.val = s.table.queue.toList.idxOf j.val := by
    intro j hj
    rw [hring, List.idxOf_append_of_mem (hentries.queued j hj)]
  have hlt : ∀ {j : WorkSlot}, (s.table.entries j).used = true →
      s.serial j < s.enqueued := fun hj =>
    (WorkOrder.mem_waiting.mp (hentries.waiting _ hj).2.2).1
  constructor
  case places =>
    intro j k hj hk hserial
    replace hserial : set s.serial i s.enqueued j < set s.serial i s.enqueued k := hserial
    show queue.toList.idxOf j.val < queue.toList.idxOf k.val
    obtain rfl | ⟨-, hj', -, hsj⟩ := used_of_fill s.serial s.enqueued hj
    · -- no work has a higher number than the new one
      obtain rfl | ⟨-, hk', -, hsk⟩ := used_of_fill s.serial s.enqueued hk
      · omega
      rw [set_self, hsk] at hserial
      have := hlt hk'
      omega
    obtain rfl | ⟨-, hk', -, hsk⟩ := used_of_fill s.serial s.enqueued hk
    · -- the new work has its place behind the others
      rw [hidx hj', hring]
      refine Nat.lt_of_lt_of_le (hplace j hj') ?_
      by_cases hmem : k.val ∈ s.table.queue.toList
      · rw [List.idxOf_append_of_mem hmem]
      rw [List.idxOf_append_of_notMem hmem, List.idxOf_eq_length_iff.mpr hmem]
      exact Nat.le_add_right _ _
    rw [hidx hj', hidx hk']
    rw [hsj, hsk] at hserial
    exact h.places j k hj' hk' hserial
  case sorted => exact h.sorted
  case later =>
    intro n hn j hj
    show n < set s.serial i s.enqueued j
    obtain rfl | ⟨-, hj', -, hsj⟩ := used_of_fill s.serial s.enqueued hj
    · rw [set_self]
      exact hentries.past.1 n hn
    rw [hsj]
    exact h.later n hn j hj'

theorem OrderOk.start (h : OrderOk s) (hentries : EntriesOk s) {i : WorkSlot}
    {queue : Ring Nat QOS_WORKQUEUE_MAX} (hlist : s.table.queue.toList = i.val :: queue.toList)
    (hused : (s.table.entries i).used = true) {table : Workqueue} (hqueue : table.queue = queue)
    (htable : table.entries = set s.table.entries i .new) :
    OrderOk { s with table := table, started := s.started ++ [s.serial i] } := by
  have hother : ∀ {j}, (table.entries j).used = true → j ≠ i ∧ (s.table.entries j).used = true := by
    intro j hj
    rw [htable] at hj
    exact used_of_clear hj
  constructor
  case places =>
    intro j k hj hk hlt
    obtain ⟨hji, hj'⟩ := hother hj
    obtain ⟨hki, hk'⟩ := hother hk
    show table.queue.toList.idxOf j.val < table.queue.toList.idxOf k.val
    rw [hqueue]
    exact idxOf_pop hlist (fun heq => hji (Fin.ext heq)) (fun heq => hki (Fin.ext heq))
      (h.places j k hj' hk' hlt)
  case sorted =>
    refine List.pairwise_append.mpr ⟨h.sorted, List.pairwise_singleton _ _, fun n hn m hm => ?_⟩
    rw [List.mem_singleton.mp hm]
    exact h.later n hn i hused
  case later =>
    intro n hn j hj
    obtain ⟨hji, hj'⟩ := hother hj
    rcases List.mem_append.mp hn with hn | hn
    · exact h.later n hn j hj'
    rw [List.mem_singleton.mp hn]
    -- nothing in the ring is before the first index
    refine Nat.lt_of_le_of_ne (Nat.le_of_not_lt fun hlt => ?_) fun heq =>
      hji (hentries.distinct j i hj' hused heq.symm)
    have := h.places j i hj' hused hlt
    rw [hlist, List.idxOf_cons_self] at this
    exact Nat.not_lt_zero _ this

theorem OrderOk.handler (h : OrderOk s) (hentries : EntriesOk s) (count : UInt32 → UInt32) :
    OrderOk (s.handler count).1 := by
  obtain heq | ⟨i, queue, hlist, ⟨hunused, heq⟩ | ⟨hused, heq⟩⟩ := hentries.handler_ends count
  · rw [heq]
    exact h
  · rw [heq]
    refine h.fewer rfl (fun j hj => ⟨(used_of_clear hj).2, rfl⟩) fun j k hj hk hlt => ?_
    exact idxOf_pop hlist (fun heq => (used_of_clear hj).1 (Fin.ext heq))
      (fun heq => (used_of_clear hk).1 (Fin.ext heq)) hlt
  rw [heq]
  exact h.start hentries hlist hused rfl rfl
end
/-! ### The number of entries in use -/
theorem EntriesOk.length_waiting (h : EntriesOk s) :
    s.waiting.length = (Finset.univ.filter fun i => (s.table.entries i).used = true).card := by
  -- the numbers of the entries in use are the work that waits, each once
  have hinj : Set.InjOn (fun i : WorkSlot => s.serial i)
      (Finset.univ.filter fun i => (s.table.entries i).used = true) := by
    intro i hi j hj heq
    exact h.distinct i j (Finset.mem_filter.mp hi).2 (Finset.mem_filter.mp hj).2 heq
  have hnodup : s.waiting.Nodup := List.nodup_range.filter _
  rw [← List.toFinset_card_of_nodup hnodup, ← Finset.card_image_of_injOn hinj]
  congr 1
  ext n
  simp only [List.mem_toFinset, Finset.mem_image, Finset.mem_filter, Finset.mem_univ, true_and]
  constructor
  · intro hn
    exact h.held n hn
  rintro ⟨i, hi, rfl⟩
  exact (h.waiting i hi).2.2

theorem EntriesOk.length_waiting_le (h : EntriesOk s) : s.waiting.length ≤ QOS_WORKQUEUE_MAX := by
  rw [h.length_waiting]
  exact (Finset.card_le_univ _).trans_eq (Fintype.card_fin _)

/-- There is no free entry when as much work waits as there are entries. -/
theorem EntriesOk.free_slot_none (h : EntriesOk s) (hfree : s.table.free_slot = none) :
    s.waiting.length = QOS_WORKQUEUE_MAX := by
  have hall : ∀ i ∈ Finset.univ, (s.table.entries i).used = true := by
    intro i _
    have hi := first_none.mp hfree i
    simpa using hi
  rw [h.length_waiting, Finset.filter_true_of_mem hall, Finset.card_univ, Fintype.card_fin]

/-- An enqueue fails when all entries are in use, or when the ring is full. -/
theorem EntriesOk.enqueue_none (h : EntriesOk s) (fn : Option UInt64) (arg : UInt64) :
    (s.table.enqueue fn arg).1 = none →
      s.waiting.length = QOS_WORKQUEUE_MAX ∨ s.table.queue.count = QOS_WORKQUEUE_MAX := by
  intro hnone
  obtain ⟨hfree, -⟩ | ⟨i, -, ⟨hpush, -⟩ | ⟨queue, -, heq⟩⟩ := s.table.enqueue_ends fn arg
  · exact .inl (h.free_slot_none hfree)
  · exact .inr (Ring.push_eq_none.mp hpush)
  rw [heq] at hnone
  cases hnone

theorem Workqueue.enqueue_full {s : Workqueue} (hfull : s.queue.count = QOS_WORKQUEUE_MAX)
    (fn : Option UInt64) (arg : UInt64) : (s.enqueue fn arg).1 = none := by
  obtain ⟨-, heq⟩ | ⟨i, -, ⟨-, heq⟩ | ⟨queue, hpush, -⟩⟩ := s.enqueue_ends fn arg
  · rw [heq]
  · rw [heq]
  rw [Ring.push_eq_none.mpr hfull] at hpush
  cases hpush

/-! ### Whole runs -/
structure OrderKernel (svc : Service WorkOrder WorkCall Unit) : Prop where
  init : svc.init = .reset
  call : ∀ {s a s'}, svc.call s a = some s' → s' = s ∨
    (∃ fn arg, a = .enqueue fn arg ∧ fn.isSome = true ∧ s' = s.enqueue fn arg) ∨
    ∃ work_id, s' = s.cancel work_id
  take : svc.take = WorkOrder.take
  tau : ∃ count, ∀ s k, svc.tau s k = s.handler count
  resume : ∃ count, ∀ s k, svc.resume s k = (s.complete count, .goto ())

theorem CWork.orderKernel : OrderKernel CWork.order where
  init := rfl
  call {s a s'} h := by
    rcases a with ⟨_ | f, arg⟩ | work_id
    · exact .inl (Option.some.inj h).symm
    · exact .inr (.inl ⟨some f, arg, rfl, rfl, (Option.some.inj h).symm⟩)
    exact .inr (.inr ⟨work_id, (Option.some.inj h).symm⟩)
  take := rfl
  tau := ⟨id, fun _ _ => rfl⟩
  resume := ⟨(· + 1), fun _ _ => rfl⟩

theorem RustWork.orderKernel : OrderKernel RustWork.order where
  init := rfl
  call {s a s'} h := by
    rcases a with ⟨_ | f, arg⟩ | work_id
    · cases h
    · exact .inr (.inl ⟨some f, arg, rfl, rfl, (Option.some.inj h).symm⟩)
    exact .inr (.inr ⟨work_id, (Option.some.inj h).symm⟩)
  take := rfl
  tau := ⟨(UInt32.saturating_add · 1), fun _ _ => rfl⟩
  resume := ⟨id, fun _ _ => rfl⟩

/-- An enqueue that finds room in the ring puts its work behind the work that
waits. -/
def InTurn (s : Running WorkOrder Unit) : Act WorkCall → Prop
  | .call (.enqueue fn _) =>
    fn.isSome = true → s.data.table.queue.count ≠ QOS_WORKQUEUE_MAX → s.data.NewWorkLast
  | _ => True

instance (s : Running WorkOrder Unit) (l : Act WorkCall) : Decidable (InTurn s l) := by
  rcases l with (_ | _) | _ | _ | _ <;> dsimp only [InTurn, WorkOrder.NewWorkLast] <;>
    infer_instance

/-- Only the histories and the entries with their ring matter. -/
theorem OrderOk.of_table {table : Workqueue} (h : OrderOk s)
    (hentries : table.entries = s.table.entries) (hqueue : table.queue = s.table.queue) :
    OrderOk { s with table := table } :=
  h.fewer rfl (fun j hj => ⟨hentries ▸ hj, rfl⟩) fun _ _ _ _ hlt => by
    show table.queue.toList.idxOf _ < table.queue.toList.idxOf _
    rw [hqueue]
    exact hlt

section runs
variable {tr : List (Act WorkCall)} {s : Running WorkOrder Unit}
variable {svc : Service WorkOrder WorkCall Unit} (hk : OrderKernel svc)
  {cond : Running WorkOrder Unit → Act WorkCall → Prop} {P : WorkOrder → Prop}
include hk
/-- A property is kept in every run if the calls and the handler keep it, and
the mask and the count of completed work do not matter for it. -/
theorem OrderKernel.keeps (hinit : P .reset)
    (henqueue : ∀ {c s fn arg}, P s → fn.isSome = true →
      cond ⟨c, s⟩ (.call (.enqueue fn arg)) → P (s.enqueue fn arg))
    (hcancel : ∀ {s} work_id, P s → P (s.cancel work_id))
    (hhandler : ∀ {s} count, P s → P (s.handler count).1)
    (htable : ∀ {s table}, P s → table.entries = s.table.entries →
      table.queue = s.table.queue → P { s with table := table }) :
    svc.Keeps cond fun _ s => P s where
  init := hk.init ▸ hinit
  call {c s a s'} _ h hc hcall := by
    obtain rfl | ⟨fn, arg, rfl, hfn, rfl⟩ | ⟨work_id, rfl⟩ := hk.call hcall
    · exact h
    · exact henqueue h hfn hc
    exact hcancel work_id h
  run h := h
  idle h _ := h
  skip {s s'} h ht := by
    rw [hk.take] at ht
    obtain ⟨⟨mask, v⟩, -, heq⟩ := Option.map_eq_some_iff.mp ht
    obtain ⟨rfl, -⟩ := Prod.mk.inj heq
    exact htable h rfl rfl
  enter {s s' k} h ht := by
    rw [hk.take] at ht
    obtain ⟨⟨mask, v⟩, -, heq⟩ := Option.map_eq_some_iff.mp ht
    obtain ⟨rfl, -⟩ := Prod.mk.inj heq
    exact htable h rfl rfl
  tau {s k} h _ := by
    obtain ⟨count, htau⟩ := hk.tau
    rw [htau]
    exact hhandler count h
  ret {s k} h _ := by
    obtain ⟨count, hresume⟩ := hk.resume
    rw [hresume]
    exact htable h rfl rfl

theorem OrderKernel.entriesOk (hr : svc.system.Reach cond tr s) : EntriesOk s.data :=
  (hk.keeps entriesOk_reset (fun h hfn _ => h.enqueue hfn _) (fun id h => h.cancel id)
    (fun count h => h.handler count) fun h he hq => h.of_table he hq).reach hr

theorem OrderKernel.orderOk (hr : svc.system.Reach InTurn tr s) :
    EntriesOk s.data ∧ OrderOk s.data := by
  have hkeeps : svc.Keeps InTurn fun _ s => EntriesOk s ∧ OrderOk s := by
    -- the order needs the entries, so both are carried along
    refine hk.keeps ⟨entriesOk_reset, orderOk_reset⟩ ?_ ?_ ?_ ?_
    · intro c s fn arg h hfn hturn
      exact ⟨h.1.enqueue hfn _, h.2.enqueue h.1 (hturn hfn)⟩
    · intro s work_id h
      exact ⟨h.1.cancel work_id, h.2.cancel work_id⟩
    · intro s count h
      exact ⟨h.1.handler count, h.2.handler h.1 count⟩
    intro s table h hentries hqueue
    exact ⟨h.1.of_table hentries hqueue, h.2.of_table hentries hqueue⟩
  exact hkeeps.reach hr
end runs
/-- Work starts in the order in which it was enqueued, and when a piece of work
has started, all work enqueued before it has started or was cancelled. -/
structure FirstInFirstOut (s : WorkOrder) : Prop where
  sorted : s.started.Pairwise (· < ·)
  no_overtaking : ∀ n ∈ s.started, ∀ m < n, m ∈ s.started ∨ m ∈ s.cancelled

theorem OrderOk.fifo (h : OrderOk s) (hentries : EntriesOk s) : FirstInFirstOut s where
  sorted := h.sorted
  no_overtaking n hn m hlt := by
    by_contra hnot
    obtain ⟨hstarted, hcancelled⟩ := not_or.mp hnot
    have hm : m < s.enqueued := hlt.trans (hentries.past.1 n hn)
    -- otherwise it would wait in an entry, behind all that was started
    obtain ⟨i, hi, rfl⟩ := hentries.held m (WorkOrder.mem_waiting.mpr ⟨hm, hstarted, hcancelled⟩)
    exact Nat.lt_asymm hlt (h.later n hn i hi)

/-- In every run in which no enqueue takes an entry that was cancelled and whose
index still stands in the ring before waiting work. -/
theorem workqueue_fifo (tr : List (Act WorkCall)) (s : Running WorkOrder Unit) :
    (CWork.order.system.Reach InTurn tr s → FirstInFirstOut s.data) ∧
    (RustWork.order.system.Reach InTurn tr s → FirstInFirstOut s.data) := by
  constructor
  · intro hr
    obtain ⟨hentries, horder⟩ := CWork.orderKernel.orderOk hr
    exact horder.fifo hentries
  intro hr
  obtain ⟨hentries, horder⟩ := RustWork.orderKernel.orderOk hr
  exact horder.fifo hentries

/-- Two pieces of work, one of which is cancelled, and a third one after the
ring has run empty. -/
theorem workqueue_fifo_cancelled_last :
    (∃ s, CWork.order.system.Reach InTurn [.call (.enqueue (some 1) 0),
        .call (.enqueue (some 2) 0), .call (.cancel 2), .run, .tau, .tau, .ret, .tau, .tau, .tau,
        .call (.enqueue (some 3) 0)] s ∧ FirstInFirstOut s.data) ∧
    ∃ s, RustWork.order.system.Reach InTurn [.call (.enqueue (some 1) 0),
        .call (.enqueue (some 2) 0), .call (.cancel 2), .run, .tau, .tau, .ret, .tau, .tau, .tau,
        .call (.enqueue (some 3) 0)] s ∧ FirstInFirstOut s.data := by
  constructor
  · exact System.exists_execIf (P := fun _ => True) (by decide +kernel) fun s hr _ =>
      (workqueue_fifo _ s).1 hr
  exact System.exists_execIf (P := fun _ => True) (by decide +kernel) fun s hr _ =>
    (workqueue_fifo _ s).2 hr

/-- The first of two pieces of work is cancelled, and the third one inherits its
place: it starts before the second one. -/
theorem workqueue_overtaken :
    (∃ s, CWork.order.system.Reach anyStep [.call (.enqueue (some 1) 0),
        .call (.enqueue (some 2) 0), .call (.cancel 1), .call (.enqueue (some 3) 0), .run, .tau,
        .tau, .ret, .tau] s ∧ s.data.started = [2, 1]) ∧
    ∃ s, RustWork.order.system.Reach anyStep [.call (.enqueue (some 1) 0),
        .call (.enqueue (some 2) 0), .call (.cancel 1), .call (.enqueue (some 3) 0), .run, .tau,
        .tau, .ret, .tau] s ∧ s.data.started = [2, 1] := by
  constructor
  all_goals exact ⟨_, System.reach_of_exec rfl, by decide +kernel⟩

/-- The ring is full, and part of its indices are those of cancelled work. -/
def WorkOrder.RingWasted (s : WorkOrder) : Prop :=
  s.table.queue.count = QOS_WORKQUEUE_MAX ∧ s.waiting.length < QOS_WORKQUEUE_MAX

theorem EntriesOk.enqueue_fails_iff (h : EntriesOk s) (fn : Option UInt64) (arg : UInt64) :
    ((s.table.enqueue fn arg).1 = none → s.waiting.length = QOS_WORKQUEUE_MAX) ↔
      ¬s.RingWasted := by
  constructor
  · rintro hfails ⟨hfull, hlt⟩
    have hall := hfails (Workqueue.enqueue_full hfull fn arg)
    omega
  intro hnot hnone
  -- either all entries are in use, or the ring is full
  rcases h.enqueue_none fn arg hnone with hall | hfull
  · exact hall
  by_contra hne
  exact hnot ⟨hfull, Nat.lt_of_le_of_ne h.length_waiting_le hne⟩

/-- In every reachable state an enqueue fails only when all entries wait, except
in those in which the ring is full of places of cancelled work. -/
theorem workqueue_capacity (tr : List (Act WorkCall)) (s : Running WorkOrder Unit)
    (fn arg : UInt64) :
    (CWork.order.system.Reach anyStep tr s → (((s.data.table.enqueue (some fn) arg).1 = none →
        s.data.waiting.length = QOS_WORKQUEUE_MAX) ↔ ¬s.data.RingWasted)) ∧
    (RustWork.order.system.Reach anyStep tr s → (((s.data.table.enqueue (some fn) arg).1 = none →
        s.data.waiting.length = QOS_WORKQUEUE_MAX) ↔ ¬s.data.RingWasted)) := by
  constructor
  · intro hr
    exact (CWork.orderKernel.entriesOk hr).enqueue_fails_iff _ _
  intro hr
  exact (RustWork.orderKernel.entriesOk hr).enqueue_fails_iff _ _

/-- With 128 pieces of work waiting an enqueue fails, and no place is wasted. -/
theorem workqueue_capacity_all_wait :
    let tr := List.replicate QOS_WORKQUEUE_MAX (Act.call (.enqueue (some 1) 7))
    (∃ s, CWork.order.system.Reach anyStep tr s ∧ s.data.waiting.length = QOS_WORKQUEUE_MAX ∧
      (s.data.table.enqueue (some 1) 8).1 = none ∧ ¬s.data.RingWasted) ∧
    ∃ s, RustWork.order.system.Reach anyStep tr s ∧ s.data.waiting.length = QOS_WORKQUEUE_MAX ∧
      (s.data.table.enqueue (some 1) 8).1 = none ∧ ¬s.data.RingWasted := by
  let P (s : Running WorkOrder Unit) : Prop :=
    s.data.waiting.length = QOS_WORKQUEUE_MAX ∧ (s.data.table.enqueue (some 1) 8).1 = none
  constructor
  · refine System.exists_exec (P := P) (by decide +kernel) fun s hr ⟨hall, hnone⟩ => ?_
    exact ⟨hall, hnone, ((workqueue_capacity _ s 1 8).1 hr).mp fun _ => hall⟩
  refine System.exists_exec (P := P) (by decide +kernel) fun s hr ⟨hall, hnone⟩ => ?_
  exact ⟨hall, hnone, ((workqueue_capacity _ s 1 8).2 hr).mp fun _ => hall⟩

/-- Work is enqueued and cancelled, `n` times. -/
def enqueueCancel (n : Nat) : List (Act WorkCall) :=
  (List.range n).flatMap fun k =>
    [.call (.enqueue (some 1) 7), .call (.cancel (.ofNat (k + 1)))]

/-- After 128 pieces of work that were all cancelled nothing waits, and an
enqueue fails. -/
theorem workqueue_capacity_lost :
    (∃ s, CWork.order.system.Reach anyStep (enqueueCancel QOS_WORKQUEUE_MAX) s ∧
      s.data.waiting = [] ∧ (s.data.table.enqueue (some 1) 7).1 = none) ∧
    ∃ s, RustWork.order.system.Reach anyStep (enqueueCancel QOS_WORKQUEUE_MAX) s ∧
      s.data.waiting = [] ∧ (s.data.table.enqueue (some 1) 7).1 = none := by
  constructor
  all_goals exact System.exists_exec (by decide +kernel) fun _ _ h => h
end QosKernel
