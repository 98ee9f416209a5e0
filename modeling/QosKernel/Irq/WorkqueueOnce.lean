import QosKernel.Irq.Workqueue

/-! # Work runs exactly once

`WorkInv` holds in every state of every run with fewer than `2 ^ 32 - 1`
enqueue calls, in both kernels: the entries in use hold exactly the work
that was enqueued, not started and not cancelled, and the index of each of
them is in the ring.
-/
open Framework
namespace QosKernel
variable {s s' : WorkRun} {x : WorkItem} {c : Control Unit} {i : WorkSlot}
variable {fn : Option UInt64} {svc : Service WorkRun WorkCall Unit}
/-! ### What the functions can do -/
namespace Workqueue
/-- The entry that an enqueue takes. -/
def free_slot (s : Workqueue) : Option WorkSlot := first fun i => !(s.entries i).used

theorem enqueue_ends (s : Workqueue) (fn : Option UInt64) (arg : UInt64) :
    (s.free_slot = none ∧ s.enqueue fn arg = (none, s)) ∨
    ∃ i, s.free_slot = some i ∧ (s.queue.push i = none ∧ s.enqueue fn arg =
        (none, { s with entries := set s.entries i .new, next_id := (take_id s.next_id).2 }) ∨
      ∃ queue, s.queue.push i = some queue ∧ s.enqueue fn arg =
        (some (take_id s.next_id).1, { s with
          entries := set s.entries i ⟨true, true, (take_id s.next_id).1, fn, arg⟩
          queue := queue
          next_id := (take_id s.next_id).2
          pending_mask := softirq_raise s.pending_mask QOS_SOFTIRQ_WORKQUEUE })) := by
  unfold enqueue free_slot
  cases hfree : first fun i => !(s.entries i).used with
  | none => exact .inl ⟨rfl, rfl⟩
  | some i =>
  refine .inr ⟨i, rfl, ?_⟩
  dsimp only
  cases hpush : s.queue.push i.val with
  | none => exact .inl ⟨rfl, rfl⟩
  | some queue => exact .inr ⟨queue, rfl, rfl⟩

theorem take_id_of_ne {n : UInt32} (h : n ≠ 0) : take_id n = (n, n + 1) := if_neg h

variable (s : Workqueue)
/-- How an enqueue can end, when the counter of ids is not 0. -/
theorem enqueue_cases (hid : s.next_id ≠ 0) (fn : Option UInt64) (arg : UInt64) :
    s.enqueue fn arg = (none, s) ∨
    (∃ i, (s.entries i).used = false ∧ s.enqueue fn arg =
      (none, { s with entries := set s.entries i .new, next_id := s.next_id + 1 })) ∨
    ∃ i queue, (s.entries i).used = false ∧ s.queue.push i = some queue ∧ s.enqueue fn arg =
        (some s.next_id, { s with
          entries := set s.entries i ⟨true, true, s.next_id, fn, arg⟩
          queue := queue
          next_id := s.next_id + 1
          pending_mask := softirq_raise s.pending_mask QOS_SOFTIRQ_WORKQUEUE }) := by
  obtain ⟨-, heq⟩ | ⟨i, hfree, ⟨-, heq⟩ | ⟨queue, hpush, heq⟩⟩ := s.enqueue_ends fn arg
  · exact .inl heq
  · rw [take_id_of_ne hid] at heq
    exact .inr (.inl ⟨i, by simpa using first_some hfree, heq⟩)
  rw [take_id_of_ne hid] at heq
  exact .inr (.inr ⟨i, queue, by simpa using first_some hfree, hpush, heq⟩)

theorem cancel_cases (work_id : UInt32) : s.cancel work_id = (false, s) ∨
    ∃ i, (s.entries i).used = true ∧ (s.entries i).id = work_id ∧
      s.cancel work_id = (true, { s with entries := set s.entries i .new }) := by
  unfold cancel
  split
  · exact .inl rfl
  rcases hf : s.find_slot_by_id work_id with _ | i
  · exact .inl rfl
  have hi := first_some hf
  simp only [Bool.and_eq_true, beq_iff_eq] at hi
  exact .inr ⟨i, hi.1, hi.2, rfl⟩

/-- How a round of the handler can end, when only indices of entries are in
the ring. -/
theorem next_cases (hq : ∀ x ∈ s.queue.toList, x < QOS_WORKQUEUE_MAX) :
    (s.queue.toList = [] ∧ s.next = none) ∨
    ∃ (i : WorkSlot) (queue : Ring Nat QOS_WORKQUEUE_MAX),
      s.queue.toList = i.val :: queue.toList ∧
      (((s.entries i).used && (s.entries i).pending && (s.entries i).fn.isSome) = false ∧
        s.next = some ({ s with queue := queue, entries := set s.entries i .new }, none) ∨
      ((s.entries i).used && (s.entries i).pending && (s.entries i).fn.isSome) = true ∧
        s.next = some ({ s with queue := queue, entries := set s.entries i .new },
          some (s.entries i))) := by
  unfold next
  rcases hp : s.queue.pop with _ | ⟨slot, queue⟩
  · exact .inl ⟨Ring.pop_none hp, rfl⟩
  have hlist := Ring.toList_pop hp
  have hslot : slot < QOS_WORKQUEUE_MAX := hq slot (by rw [hlist]; exact List.mem_cons_self)
  refine .inr ⟨⟨slot, hslot⟩, queue, hlist, ?_⟩
  dsimp only
  rw [dif_pos hslot]
  have hneg : (!(s.entries ⟨slot, hslot⟩).used || !(s.entries ⟨slot, hslot⟩).pending ||
      (s.entries ⟨slot, hslot⟩).fn.isNone) = !((s.entries ⟨slot, hslot⟩).used &&
      (s.entries ⟨slot, hslot⟩).pending && (s.entries ⟨slot, hslot⟩).fn.isSome) := by
    simp [Bool.not_and]
  rw [hneg]
  rcases ((s.entries ⟨slot, hslot⟩).used && (s.entries ⟨slot, hslot⟩).pending &&
    (s.entries ⟨slot, hslot⟩).fn.isSome) with _ | _
  · exact .inl ⟨rfl, rfl⟩
  exact .inr ⟨rfl, rfl⟩

/-! ### What the entries hold -/
/-- The entries in use hold the waiting work, each piece once under its `key`,
and their indices are in the ring. -/
structure Holds {κ : Type} (t : Workqueue) (key : WorkSlot → κ) (Waiting : κ → Prop) : Prop where
  waiting : ∀ i, (t.entries i).used = true →
    (t.entries i).pending = true ∧ (t.entries i).fn.isSome = true ∧ Waiting (key i)
  held : ∀ k, Waiting k → ∃ i, (t.entries i).used = true ∧ key i = k
  distinct : ∀ i j, (t.entries i).used = true → (t.entries j).used = true → key i = key j → i = j
  queued : ∀ i, (t.entries i).used = true → i.val ∈ t.queue.toList
  indices : ∀ x ∈ t.queue.toList, x < QOS_WORKQUEUE_MAX

theorem used_of_clear {entries : WorkSlot → WorkEntry} {j : WorkSlot}
    (h : (set entries i .new j).used = true) : j ≠ i ∧ (entries j).used = true := by
  by_cases hji : j = i
  · rw [hji, set_self] at h
    cases h
  rw [set_ne hji] at h
  exact ⟨hji, h⟩

section holds
variable {κ : Type} {t t' : Workqueue} {key key' : WorkSlot → κ} {W W' : κ → Prop}
/-- What waits without the work of entry `i`, if that entry is free. -/
theorem waits_of_unused {P Q : Prop} (hu : (t.entries i).used = false) :
    Q ↔ Q ∧ ((t.entries i).used = true → P) := by
  simp [hu]

/-- Only the entries and the ring matter. -/
theorem Holds.of_eq (h : t.Holds key W) (he : t'.entries = t.entries) (hq : t'.queue = t.queue)
    (hkey : key' = key) (hw : ∀ k, W' k ↔ W k) : t'.Holds key' W' := by
  obtain ⟨h₁, h₂, h₃, h₄, h₅⟩ := h
  constructor <;> simpa only [he, hq, hkey, hw]

/-- Entry `i` is cleared, and the work it held, if any, does not wait any
more. -/
theorem Holds.clear (h : t.Holds key W) (he : t'.entries = set t.entries i .new)
    (hkey : ∀ j, j ≠ i → key' j = key j)
    (hw : ∀ k, W' k ↔ W k ∧ ((t.entries i).used = true → k ≠ key i))
    (hq : ∀ j, j ≠ i → j.val ∈ t.queue.toList → j.val ∈ t'.queue.toList)
    (hidx : ∀ x ∈ t'.queue.toList, x ∈ t.queue.toList) : t'.Holds key' W' := by
  -- an entry in use is another one than `i`
  have hother : ∀ j, (t'.entries j).used = true → j ≠ i ∧ t'.entries j = t.entries j := by
    intro j hj
    rw [he] at hj ⊢
    obtain ⟨hji, -⟩ := used_of_clear hj
    exact ⟨hji, set_ne hji⟩
  constructor
  case waiting =>
    intro j hj
    obtain ⟨hji, heq⟩ := hother j hj
    rw [heq] at hj ⊢
    obtain ⟨hpending, hfn, hwait⟩ := h.waiting j hj
    rw [hkey j hji]
    exact ⟨hpending, hfn, (hw _).mpr ⟨hwait, fun hi hid => hji (h.distinct j i hj hi hid)⟩⟩
  case held =>
    intro k hk
    obtain ⟨hwait, hne⟩ := (hw k).mp hk
    obtain ⟨j, hj, hkeyj⟩ := h.held k hwait
    have hji : j ≠ i := by
      rintro rfl
      exact hne hj hkeyj.symm
    refine ⟨j, ?_, (hkey j hji).trans hkeyj⟩
    rw [he, set_ne hji]
    exact hj
  case distinct =>
    intro j k hj hk hid
    obtain ⟨hji, hej⟩ := hother j hj
    obtain ⟨hki, hek⟩ := hother k hk
    rw [hej] at hj
    rw [hek] at hk
    rw [hkey j hji, hkey k hki] at hid
    exact h.distinct j k hj hk hid
  case queued =>
    intro j hj
    obtain ⟨hji, heq⟩ := hother j hj
    rw [heq] at hj
    exact hq j hji (h.queued j hj)
  case indices => exact fun x hx => h.indices x (hidx x hx)

/-- The index of entry `i` is taken from the ring, and the entry is cleared. -/
theorem Holds.pop (h : t.Holds key W) (he : t'.entries = set t.entries i .new)
    (hlist : t.queue.toList = i.val :: t'.queue.toList) (hkey : ∀ j, j ≠ i → key' j = key j)
    (hw : ∀ k, W' k ↔ W k ∧ ((t.entries i).used = true → k ≠ key i)) : t'.Holds key' W' := by
  refine h.clear he hkey hw (fun j hj hmem => ?_) fun x hx => ?_
  · rw [hlist] at hmem
    exact (List.mem_cons.mp hmem).resolve_left fun heq => hj (Fin.ext heq)
  rw [hlist]
  exact List.mem_cons_of_mem _ hx

/-- Entry `i`, which was free, gets work with a key of its own. -/
theorem Holds.fill (h : t.Holds key W) {e : WorkEntry} (hu : (t.entries i).used = false)
    (he : t'.entries = set t.entries i e) (hused : e.used = true) (hpending : e.pending = true)
    (hfn : e.fn.isSome = true) (hkey : ∀ j, j ≠ i → key' j = key j) (hnew : ¬W (key' i))
    (hw : ∀ k, W' k ↔ W k ∨ k = key' i)
    (hq : t'.queue.toList = t.queue.toList ++ [i.val]) : t'.Holds key' W' := by
  have hei : t'.entries i = e := by rw [he, set_self]
  -- an entry in use is the new one, or was in use before
  have hcases : ∀ j, (t'.entries j).used = true →
      j = i ∨ (t.entries j).used = true ∧ t'.entries j = t.entries j ∧ key' j = key j := by
    intro j hj
    by_cases hji : j = i
    · exact .inl hji
    have hej : t'.entries j = t.entries j := by rw [he, set_ne hji]
    exact .inr ⟨hej ▸ hj, hej, hkey j hji⟩
  have hne : ∀ j, (t.entries j).used = true → key j ≠ key' i :=
    fun j hj heq => hnew (heq ▸ (h.waiting j hj).2.2)
  constructor
  case waiting =>
    intro j hj
    obtain rfl | ⟨hj, hej, hkeyj⟩ := hcases j hj
    · rw [hei]
      exact ⟨hpending, hfn, (hw _).mpr (.inr rfl)⟩
    obtain ⟨hp, hf, hwait⟩ := h.waiting j hj
    rw [hej, hkeyj]
    exact ⟨hp, hf, (hw _).mpr (.inl hwait)⟩
  case held =>
    intro k hk
    rcases (hw k).mp hk with hk | rfl
    · obtain ⟨j, hj, rfl⟩ := h.held k hk
      have hji : j ≠ i := by
        rintro rfl
        rw [hu] at hj
        cases hj
      exact ⟨j, by rw [he, set_ne hji]; exact hj, hkey j hji⟩
    exact ⟨i, by rw [hei, hused], rfl⟩
  case distinct =>
    intro j k hj hk hid
    obtain rfl | ⟨hj, -, hkeyj⟩ := hcases j hj
    · obtain rfl | ⟨hk, -, hkeyk⟩ := hcases k hk
      · rfl
      exact absurd (hkeyk.symm.trans hid.symm) (hne k hk)
    obtain rfl | ⟨hk, -, hkeyk⟩ := hcases k hk
    · exact absurd (hkeyj.symm.trans hid) (hne j hj)
    exact h.distinct j k hj hk (hkeyj.symm.trans (hid.trans hkeyk))
  case queued =>
    intro j hj
    rw [hq]
    obtain rfl | ⟨hj, -, -⟩ := hcases j hj
    · exact List.mem_append_right _ (List.mem_singleton_self _)
    exact List.mem_append_left _ (h.queued j hj)
  case indices =>
    intro x hx
    rw [hq] at hx
    rcases List.mem_append.mp hx with hx | hx
    · exact h.indices x hx
    rw [List.mem_singleton.mp hx]
    exact i.isLt
end holds
end Workqueue
/-! ### The invariant -/
/-- The work that was enqueued and not yet started or cancelled. -/
def WorkRun.Waiting (s : WorkRun) (x : WorkItem) : Prop :=
  x ∈ s.enqueued ∧ x.id ∉ s.started.map (·.id) ∧ x.id ∉ s.cancelled

/-- The bookkeeping of ids and histories. -/
structure WorkHistoryOk (s : WorkRun) : Prop where
  next_pos : 0 < s.table.next_id.toNat
  next_le : s.table.next_id.toNat ≤ s.calls + 1
  few : s.calls < 2 ^ 32 - 1
  fresh : ∀ x ∈ s.enqueued, x.id.toNat < s.table.next_id.toNat
  ids : (s.enqueued.map (·.id)).Nodup
  started_enqueued : ∀ x ∈ s.started, x ∈ s.enqueued
  once : (s.started.map (·.id)).Nodup
  cancelled_enqueued : ∀ id ∈ s.cancelled, id ∈ s.enqueued.map (·.id)
  never : ∀ id ∈ s.cancelled, id ∉ s.started.map (·.id)

structure WorkInv (c : Control Unit) (s : WorkRun) : Prop where
  history : WorkHistoryOk s
  table : s.table.Holds (fun i => (s.table.entries i).item) s.Waiting
  raised : c.handling = false → s.table.queue.toList ≠ [] →
    s.table.pending_mask QOS_SOFTIRQ_WORKQUEUE = true

theorem WorkInv.init : WorkInv .idle .reset where
  history := by constructor <;> simp [WorkRun.reset, Workqueue.reset]
  table := by constructor <;> simp [WorkRun.reset, Workqueue.reset, WorkEntry.new, WorkRun.Waiting]
  raised _ hq := absurd (Ring.toList_empty _ _) hq

theorem WorkHistoryOk.eq_of_id (h : WorkHistoryOk s) {y : WorkItem} (hx : x ∈ s.enqueued)
    (hy : y ∈ s.enqueued) (hid : x.id = y.id) : x = y :=
  List.inj_on_of_nodup_map h.ids hx hy hid

/-- Among the enqueued work, ids are as good as the work itself. -/
theorem WorkHistoryOk.id_eq_iff (h : WorkHistoryOk s) {y : WorkItem} (hx : x ∈ s.enqueued)
    (hy : y ∈ s.enqueued) : x.id = y.id ↔ x = y :=
  ⟨h.eq_of_id hx hy, congrArg _⟩

theorem item_of_ne {entries : WorkSlot → WorkEntry} {e : WorkEntry} (j : WorkSlot) (hj : j ≠ i) :
    (set entries i e j).item = (entries j).item :=
  congrArg _ (set_ne hj)

/-! ### Calls -/
theorem WorkHistoryOk.next_ne_zero (h : WorkHistoryOk s) : s.table.next_id ≠ 0 := by
  intro h0
  have := h.next_pos
  rw [h0] at this
  exact absurd this (by decide)

theorem WorkHistoryOk.next_succ (h : WorkHistoryOk s) (hfew : s.calls + 1 < 2 ^ 32 - 1) :
    (s.table.next_id + 1).toNat = s.table.next_id.toNat + 1 := by
  have := h.next_le
  rw [UInt32.toNat_add, UInt32.toNat_one, Nat.mod_eq_of_lt (by omega)]

theorem WorkInv.count (h : WorkInv c s) (hfew : s.calls + 1 < 2 ^ 32 - 1) :
    WorkInv c { s with calls := s.calls + 1 } where
  history := { h.history with next_le := h.history.next_le.trans (Nat.le_succ _), few := hfew }
  table := h.table
  raised := h.raised

/-- A call that takes an id, but the ring is full. -/
theorem WorkInv.waste (h : WorkInv c s) (hfew : s.calls + 1 < 2 ^ 32 - 1)
    (hu : (s.table.entries i).used = false) :
    WorkInv c { s with
      table := { s.table with
        entries := set s.table.entries i .new, next_id := s.table.next_id + 1 }
      calls := s.calls + 1 } where
  history := by
    have hsucc := h.history.next_succ hfew
    have hle := h.history.next_le
    refine { h.history with next_pos := ?_, next_le := ?_, few := hfew, fresh := fun x hx => ?_ }
    · dsimp only
      omega
    · dsimp only
      omega
    have := h.history.fresh x hx
    dsimp only
    omega
  table := h.table.clear rfl item_of_ne (fun _ => Workqueue.waits_of_unused hu)
    (fun _ _ hj => hj) fun _ hx => hx
  raised := h.raised

theorem WorkHistoryOk.next_new (h : WorkHistoryOk s) : s.table.next_id ∉ s.enqueued.map (·.id) := by
  intro hmem
  obtain ⟨x, hx, hid⟩ := List.mem_map.mp hmem
  have hlt := h.fresh x hx
  rw [hid] at hlt
  exact Nat.lt_irrefl _ hlt

theorem WorkHistoryOk.next_unstarted (h : WorkHistoryOk s) :
    s.table.next_id ∉ s.started.map (·.id) ∧ s.table.next_id ∉ s.cancelled := by
  refine ⟨fun hmem => ?_, fun hmem => h.next_new (h.cancelled_enqueued _ hmem)⟩
  obtain ⟨x, hx, hid⟩ := List.mem_map.mp hmem
  exact h.next_new (List.mem_map.mpr ⟨x, h.started_enqueued x hx, hid⟩)

theorem WorkHistoryOk.accept (h : WorkHistoryOk s) (hfew : s.calls + 1 < 2 ^ 32 - 1)
    (hx : x.id = s.table.next_id) (hnext : s'.table.next_id = s.table.next_id + 1)
    (hcalls : s'.calls = s.calls + 1) (henqueued : s'.enqueued = s.enqueued ++ [x])
    (hstarted : s'.started = s.started) (hcancelled : s'.cancelled = s.cancelled) :
    WorkHistoryOk s' := by
  have hsucc := h.next_succ hfew
  have hle := h.next_le
  constructor
  · rw [hnext]
    omega
  · rw [hnext, hcalls]
    omega
  · rw [hcalls]
    exact hfew
  · intro y hy
    rw [henqueued] at hy
    rw [hnext]
    rcases List.mem_append.mp hy with hy | hy
    · have hlt := h.fresh y hy
      omega
    rw [List.mem_singleton.mp hy, hx]
    omega
  · rw [henqueued, List.map_append, List.map_singleton, List.nodup_append]
    refine ⟨h.ids, by simp, fun a ha b hb => ?_⟩
    rw [List.mem_singleton.mp hb, hx]
    rintro rfl
    exact h.next_new ha
  · intro y hy
    rw [hstarted] at hy
    rw [henqueued]
    exact List.mem_append_left _ (h.started_enqueued y hy)
  · rw [hstarted]
    exact h.once
  · intro id hid
    rw [hcancelled] at hid
    rw [henqueued, List.map_append]
    exact List.mem_append_left _ (h.cancelled_enqueued id hid)
  rw [hcancelled, hstarted]
  exact h.never

theorem WorkInv.accept (h : WorkInv c s) (hfew : s.calls + 1 < 2 ^ 32 - 1)
    {queue : Ring Nat QOS_WORKQUEUE_MAX} {arg : UInt64} (hfn : fn.isSome = true)
    (hu : (s.table.entries i).used = false) (hq : s.table.queue.push i = some queue) :
    WorkInv c { s with
      table := { s.table with
        entries := set s.table.entries i ⟨true, true, s.table.next_id, fn, arg⟩
        queue := queue
        next_id := s.table.next_id + 1
        pending_mask := softirq_raise s.table.pending_mask QOS_SOFTIRQ_WORKQUEUE }
      calls := s.calls + 1
      enqueued := s.enqueued ++ [⟨s.table.next_id, fn, arg⟩] } where
  history := h.history.accept hfew rfl rfl rfl rfl rfl rfl
  table := by
    have hitem : (set s.table.entries i ⟨true, true, s.table.next_id, fn, arg⟩ i).item =
        ⟨s.table.next_id, fn, arg⟩ := congrArg _ set_self
    refine h.table.fill hu rfl rfl rfl hfn item_of_ne ?_ (fun x => ?_) (Ring.toList_push hq)
    · rw [hitem]
      exact fun hwait => h.history.next_new (List.mem_map.mpr ⟨_, hwait.1, rfl⟩)
    rw [hitem]
    constructor
    · rintro ⟨hmem, hnot⟩
      rcases List.mem_append.mp hmem with hmem | hmem
      · exact .inl ⟨hmem, hnot⟩
      exact .inr (List.mem_singleton.mp hmem)
    rintro (hx | rfl)
    · exact ⟨List.mem_append_left _ hx.1, hx.2⟩
    exact ⟨List.mem_append_right _ (List.mem_singleton_self _), h.history.next_unstarted⟩
  raised _ _ := softirq_raise_self s.table.pending_mask QOS_SOFTIRQ_WORKQUEUE

theorem WorkInv.enqueue (h : WorkInv c s) (hfew : s.calls + 1 < 2 ^ 32 - 1) (hfn : fn.isSome = true)
    (arg : UInt64) : WorkInv c (s.enqueue fn arg) := by
  unfold WorkRun.enqueue
  obtain heq | ⟨i, hu, heq⟩ | ⟨i, queue, hu, hq, heq⟩ :=
    s.table.enqueue_cases h.history.next_ne_zero fn arg <;> rw [heq]
  · simpa using h.count hfew
  · simpa using h.waste hfew hu
  exact h.accept hfew hfn hu hq

theorem WorkInv.cancel (h : WorkInv c s) (work_id : UInt32) : WorkInv c (s.cancel work_id) := by
  unfold WorkRun.cancel
  obtain heq | ⟨i, hu, hid, heq⟩ := s.table.cancel_cases work_id <;> rw [heq]
  · simpa using h
  obtain ⟨-, -, hwait⟩ := h.table.waiting i hu
  refine ⟨?_, ?_, h.raised⟩
  · refine { h.history with cancelled_enqueued := fun id hmem => ?_, never := fun id hmem => ?_ }
    · rcases List.mem_append.mp hmem with hmem | hmem
      · exact h.history.cancelled_enqueued id hmem
      rw [List.mem_singleton.mp hmem, ← hid]
      exact List.mem_map.mpr ⟨_, hwait.1, rfl⟩
    rcases List.mem_append.mp hmem with hmem | hmem
    · exact h.history.never id hmem
    rw [List.mem_singleton.mp hmem, ← hid]
    exact hwait.2.1
  refine h.table.clear rfl item_of_ne (fun x => ?_) (fun _ _ hj => hj) (fun _ hx => hx)
  -- what waits now is what waited, but for the work that was cancelled
  have hsame : x ∈ s.enqueued → (x.id = (s.table.entries i).id ↔ x = (s.table.entries i).item) :=
    fun hx => h.history.id_eq_iff hx hwait.1
  simp only [WorkRun.Waiting, if_true, List.mem_append, List.mem_singleton, not_or, ← hid, hu,
    true_implies]
  tauto

/-! ### The handler -/
/-- The softirq may be cleared as soon as the handler runs, and the count of
completed work does not matter. -/
theorem WorkInv.of_eq {c' : Control Unit} (h : WorkInv c s)
    (hhist : s'.enqueued = s.enqueued ∧ s'.started = s.started ∧ s'.cancelled = s.cancelled ∧
      s'.calls = s.calls)
    (htable : s'.table.entries = s.table.entries ∧ s'.table.queue = s.table.queue ∧
      s'.table.next_id = s.table.next_id) (hr : c'.handling = false → s'.table.queue.toList ≠ [] →
      s'.table.pending_mask QOS_SOFTIRQ_WORKQUEUE = true) : WorkInv c' s' := by
  obtain ⟨he, hs, hc, hn⟩ := hhist
  obtain ⟨hte, htq, htn⟩ := htable
  have hw : ∀ x, s'.Waiting x ↔ s.Waiting x := fun x => by simp [WorkRun.Waiting, he, hs, hc]
  refine ⟨?_, ?_, hr⟩
  · obtain ⟨h₁, h₂, h₃, h₄, h₅, h₆, h₇, h₈, h₉⟩ := h.history
    constructor <;> simpa only [he, hs, hc, hn, htn]
  exact h.table.of_eq hte htq (by rw [hte]) hw

theorem WorkInv.handler (h : WorkInv (.handler ()) s) (count : UInt32 → UInt32) :
    WorkInv (s.handler count).2.control (s.handler count).1 := by
  unfold WorkRun.handler
  obtain ⟨hempty, heq⟩ | ⟨i, queue, hlist, ⟨hstale, heq⟩ | ⟨hrun, heq⟩⟩ :=
    s.table.next_cases h.table.indices <;> rw [heq]
  · exact h.of_eq ⟨rfl, rfl, rfl, rfl⟩ ⟨rfl, rfl, rfl⟩ fun _ hne => absurd hempty hne
  · -- the index is stale: its entry is not in use
    have hu : (s.table.entries i).used = false := by
      by_contra hu
      obtain ⟨hp, hf, -⟩ := h.table.waiting i (by simpa using hu)
      simp [hp, hf] at hstale
      exact hu hstale
    exact ⟨{ h.history with },
      h.table.pop rfl hlist item_of_ne fun _ => Workqueue.waits_of_unused hu, fun hb => by cases hb⟩
  simp only [Bool.and_eq_true] at hrun
  obtain ⟨⟨hu, -⟩, -⟩ := hrun
  obtain ⟨-, -, hwait⟩ := h.table.waiting i hu
  have hinv : WorkInv (.callback ()) { s with
      table := { s.table with queue := queue, entries := set s.table.entries i .new }
      started := s.started ++ [(s.table.entries i).item] } := by
    refine ⟨?_, ?_, fun hb => by cases hb⟩
    · refine { h.history with
        started_enqueued := fun x hx => ?_, once := ?_, never := fun id hid hmem => ?_ }
      · rcases List.mem_append.mp hx with hx | hx
        · exact h.history.started_enqueued x hx
        rw [List.mem_singleton.mp hx]
        exact hwait.1
      · rw [List.map_append, List.map_singleton, List.nodup_append]
        refine ⟨h.history.once, by simp, fun a ha b hb => ?_⟩
        rw [List.mem_singleton.mp hb]
        rintro rfl
        exact hwait.2.1 ha
      rw [List.map_append, List.map_singleton] at hmem
      rcases List.mem_append.mp hmem with hmem | hmem
      · exact h.history.never id hid hmem
      rw [List.mem_singleton.mp hmem] at hid
      exact hwait.2.2 hid
    refine h.table.pop rfl hlist item_of_ne fun x => ?_
    -- what waits now is what waited, but for the work that starts
    have hsame := fun hx => h.history.id_eq_iff (x := x) hx hwait.1
    simp only [WorkRun.Waiting, List.map_append, List.map_singleton, List.mem_append,
      List.mem_singleton, not_or, hu, true_implies]
    tauto
  exact hinv.of_eq ⟨rfl, rfl, rfl, rfl⟩ ⟨rfl, rfl, rfl⟩ fun hb => by cases hb

/-! ### Whole runs -/
/-- Fewer than `2 ^ 32 - 1` enqueue calls. -/
def FewEnqueues (s : Running WorkRun Unit) : Act WorkCall → Prop
  | .call (.enqueue _ _) => s.data.calls + 1 < 2 ^ 32 - 1
  | _ => True

/-- What the two kernels have in common. -/
structure WorkKernel (svc : Service WorkRun WorkCall Unit) : Prop where
  init : svc.init = .reset
  call : ∀ {s a s'}, svc.call s a = some s' →
    (∃ fn arg, a = .enqueue fn arg ∧
      (s' = { s with calls := s.calls + 1 } ∨ fn.isSome = true ∧ s' = s.enqueue fn arg)) ∨
    ∃ work_id, a = .cancel work_id ∧ s' = s.cancel work_id
  take : svc.take = WorkRun.take
  tau : ∃ count, ∀ s k, svc.tau s k = s.handler count
  resume : ∃ count, ∀ s k, svc.resume s k = (s.complete count, .goto ())

theorem CWork.kernel : WorkKernel CWork.service where
  init := rfl
  call {s a s'} h := by
    rcases a with ⟨fn, arg⟩ | work_id
    · refine .inl ⟨fn, arg, rfl, ?_⟩
      have h' : some (if fn.isNone then { s with calls := s.calls + 1 } else s.enqueue fn arg) =
          some s' := h
      rcases fn with _ | f
      · exact .inl (Option.some.inj h').symm
      exact .inr ⟨rfl, (Option.some.inj h').symm⟩
    exact .inr ⟨work_id, rfl, (Option.some.inj h).symm⟩
  take := rfl
  tau := ⟨id, fun _ _ => rfl⟩
  resume := ⟨(· + 1), fun _ _ => rfl⟩

theorem RustWork.kernel : WorkKernel RustWork.service where
  init := rfl
  call {s a s'} h := by
    rcases a with ⟨_ | f, arg⟩ | work_id
    · cases h
    · exact .inl ⟨some f, arg, rfl, .inr ⟨rfl, (Option.some.inj h).symm⟩⟩
    exact .inr ⟨work_id, rfl, (Option.some.inj h).symm⟩
  take := rfl
  tau := ⟨(UInt32.saturating_add · 1), fun _ _ => rfl⟩
  resume := ⟨id, fun _ _ => rfl⟩

section runs
variable {svc : Service WorkRun WorkCall Unit} (hk : WorkKernel svc)
include hk
/-- A round of the softirq loop clears the bit of a vector, which is another one
if there is no handler to enter. -/
theorem WorkKernel.take_some {d d' : WorkRun} {k : Option Unit} (ht : svc.take d = some (d', k)) :
    ∃ mask v, softirq_take d.table.pending_mask = some (mask, v) ∧
      d' = { d with table := { d.table with pending_mask := mask } } ∧
      (k = none → v ≠ QOS_SOFTIRQ_WORKQUEUE) := by
  rw [hk.take] at ht
  obtain ⟨⟨mask, v⟩, hm, heq⟩ := Option.map_eq_some_iff.mp ht
  obtain ⟨rfl, rfl⟩ := Prod.mk.inj heq
  exact ⟨mask, v, hm, rfl, fun hnone hv => by simp [hv] at hnone⟩

theorem WorkInv.keeps : svc.Keeps FewEnqueues WorkInv where
  init := hk.init ▸ .init
  call {c d a d'} _ h hc hcall := by
    obtain ⟨fn, arg, rfl, rfl | ⟨hfn, rfl⟩⟩ | ⟨work_id, rfl, rfl⟩ := hk.call hcall
    · exact h.count hc
    · exact h.enqueue hc hfn arg
    exact h.cancel work_id
  run h := h.of_eq ⟨rfl, rfl, rfl, rfl⟩ ⟨rfl, rfl, rfl⟩ fun _ => h.raised rfl
  idle h _ := h.of_eq ⟨rfl, rfl, rfl, rfl⟩ ⟨rfl, rfl, rfl⟩ fun _ => h.raised rfl
  skip {d d'} h ht := by
    obtain ⟨mask, v, hm, rfl, hv⟩ := hk.take_some ht
    refine h.of_eq ⟨rfl, rfl, rfl, rfl⟩ ⟨rfl, rfl, rfl⟩ fun _ hq => ?_
    -- another vector was taken
    rw [(softirq_take_some hm).2]
    exact (set_ne (Ne.symm (hv rfl))).trans (h.raised rfl hq)
  enter {d d' k} h ht := by
    obtain ⟨mask, v, -, rfl, -⟩ := hk.take_some ht
    exact h.of_eq ⟨rfl, rfl, rfl, rfl⟩ ⟨rfl, rfl, rfl⟩ fun hb => by cases hb
  tau {d k} h _ := by
    obtain ⟨count, htau⟩ := hk.tau
    rw [htau]
    exact h.handler count
  ret {d k} h _ := by
    obtain ⟨count, hres⟩ := hk.resume
    rw [hres]
    exact h.of_eq ⟨rfl, rfl, rfl, rfl⟩ ⟨rfl, rfl, rfl⟩ fun hb => by cases hb

theorem enqueued_subset_of_step {s s' : Running WorkRun Unit} {l : Act WorkCall}
    (h : svc.step s l = some s') : ∀ x ∈ s.data.enqueued, x ∈ s'.data.enqueued := by
  intro x hx
  obtain ⟨a, d', -, -, hd, rfl⟩ | ⟨-, -, rfl⟩ | ⟨-, -, -, rfl⟩ | ⟨d', -, -, ht, rfl⟩ |
    ⟨d', k, -, -, ht, rfl⟩ | ⟨k, -, -, rfl⟩ | ⟨k, -, -, rfl⟩ := svc.step_cases h
  · obtain ⟨fn, arg, -, rfl | ⟨-, rfl⟩⟩ | ⟨work_id, -, rfl⟩ := hk.call hd
    · exact hx
    · exact List.mem_append_left _ hx
    exact hx
  · exact hx
  · exact hx
  · obtain ⟨mask, v, -, rfl, -⟩ := hk.take_some ht
    exact hx
  · obtain ⟨mask, v, -, rfl, -⟩ := hk.take_some ht
    exact hx
  · obtain ⟨count, htau⟩ := hk.tau
    rw [htau]
    unfold WorkRun.handler
    split <;> exact hx
  obtain ⟨count, hres⟩ := hk.resume
  rw [hres]
  exact hx
end runs
/-- When the softirq loop finds no work to do, nothing waits. -/
theorem WorkInv.nothing_waits (h : WorkInv .loop s) (ht : s.take = none) (x : WorkItem) :
    ¬s.Waiting x := by
  intro hx
  obtain ⟨i, hu, -⟩ := h.table.held x hx
  have hne : s.table.queue.toList ≠ [] := List.ne_nil_of_mem (h.table.queued i hu)
  have hnone := softirq_take_none (Option.map_eq_none_iff.mp ht) QOS_SOFTIRQ_WORKQUEUE
  rw [h.raised rfl hne] at hnone
  cases hnone

/-- How much work the handler has before it. -/
def WorkRun.rank : Running WorkRun Unit → Nat × Nat × Nat
  | ⟨.idle, _⟩ | ⟨.callback _, _⟩ => (0, 0, 0)
  | ⟨.loop, s⟩ => (raisedCount s.table.pending_mask, 1, 0)
  | ⟨.handler _, s⟩ => (raisedCount s.table.pending_mask, s.table.queue.toList.length + 2, 0)

theorem WorkInv.handler_rank (h : WorkInv (.handler ()) s) (count : UInt32 → UInt32) :
    lexLt (WorkRun.rank ⟨(s.handler count).2.control, (s.handler count).1⟩)
      (WorkRun.rank ⟨.handler (), s⟩) := by
  unfold WorkRun.handler
  obtain ⟨-, heq⟩ | ⟨i, queue, hlist, ⟨-, heq⟩ | ⟨-, heq⟩⟩ :=
    s.table.next_cases h.table.indices <;> rw [heq]
  · exact .right _ (.left _ _ (by omega))
  · refine .right _ (.left _ _ ?_)
    rw [hlist]
    simp
  exact lexLt_zero (by simp [WorkRun.rank])

/-- The handler cannot hang: it comes to a piece of work or to the end of the
softirq run. -/
theorem WorkInv.settles (hk : WorkKernel svc) {s : Running WorkRun Unit}
    (h : WorkInv s.control s.data) :
    ∃ tr s', svc.system.Steps FewEnqueues s tr s' ∧ (∀ l ∈ tr, l = .tau) ∧
      s'.control.busy = false := by
  refine Service.settles (Q := fun s => WorkInv s.control s.data)
    (InvImage.wf WorkRun.rank lexLt_wf) (fun s s' h hstep => ?_) s h
  refine ⟨trivial, (WorkInv.keeps hk).step h (l := .tau) trivial hstep, ?_⟩
  rcases s with ⟨c, d⟩
  obtain ⟨a, d', hl, -⟩ | ⟨hl, -⟩ | ⟨-, rfl, -, rfl⟩ | ⟨d', -, rfl, ht, rfl⟩ |
    ⟨d', k, -, rfl, ht, rfl⟩ | ⟨k, -, rfl, rfl⟩ | ⟨k, hl, -⟩ := svc.step_cases hstep
  · cases hl
  · cases hl
  · exact lexLt_zero (by simp [WorkRun.rank])
  · obtain ⟨mask, v, hm, rfl, -⟩ := hk.take_some ht
    exact .left _ _ (raisedCount_take hm)
  · obtain ⟨mask, v, hm, rfl, -⟩ := hk.take_some ht
    exact .left _ _ (raisedCount_take hm)
  · obtain ⟨count, htau⟩ := hk.tau
    dsimp only
    rw [htau]
    exact h.handler_rank count
  cases hl

/-! ### Exactly once -/
/-- Ids name pieces of work; no piece of work is started twice, and none that
was cancelled; when a softirq run returns, every piece of work enqueued
before was started or cancelled; and the handler does not hang between
two pieces of work. -/
structure WorkOnce (svc : Service WorkRun WorkCall Unit) (s : Running WorkRun Unit) : Prop where
  ids : (s.data.enqueued.map (·.id)).Nodup
  started_enqueued : ∀ x ∈ s.data.started, x ∈ s.data.enqueued
  once : (s.data.started.map (·.id)).Nodup
  never : ∀ id ∈ s.data.cancelled, id ∉ s.data.started.map (·.id)
  served : ∀ tr' s' s'', svc.system.Steps FewEnqueues s tr' s' → s'.control = .loop →
    svc.step s' .tau = some s'' → s''.control = .idle →
    ∀ x ∈ s.data.enqueued, x ∈ s''.data.started ∨ x.id ∈ s''.data.cancelled
  settles : ∃ tr' s', svc.system.Steps FewEnqueues s tr' s' ∧ (∀ l ∈ tr', l = .tau) ∧
    s'.control.busy = false

theorem WorkKernel.once (hk : WorkKernel svc) {tr : List (Act WorkCall)} {s : Running WorkRun Unit}
    (hr : svc.system.Reach FewEnqueues tr s) : WorkOnce svc s := by
  have hinv := (WorkInv.keeps hk).reach hr
  refine ⟨hinv.history.ids, hinv.history.started_enqueued, hinv.history.once,
    hinv.history.never, ?_, hinv.settles hk⟩
  intro tr' s' s'' hsteps hloop hstep hidle x hx
  have hx' : x ∈ s'.data.enqueued :=
    hsteps.invariant hr (fun t => x ∈ t.data.enqueued) hx
      fun t l t' _ hmem _ hst => enqueued_subset_of_step hk hst x hmem
  have hinv' := (WorkInv.keeps hk).reach (hr.append_steps hsteps)
  rcases s' with ⟨c, d⟩
  obtain rfl : c = .loop := hloop
  obtain ⟨htake, rfl⟩ := svc.return_cases hstep hidle
  rw [hk.take] at htake
  have hnot := hinv'.nothing_waits htake x
  by_cases hc : x.id ∈ d.cancelled
  · exact .inr hc
  -- it does not wait, so it was started, and its id names no other work
  have hs : x.id ∈ d.started.map (·.id) := by
    by_contra hs
    exact hnot ⟨hx', hs, hc⟩
  obtain ⟨y, hy, hid⟩ := List.mem_map.mp hs
  obtain rfl := hinv'.history.eq_of_id (hinv'.history.started_enqueued y hy) hx' hid
  exact .inl hy

/-- In every run with fewer than `2 ^ 32 - 1` enqueue calls, in both kernels. -/
theorem workqueue_exactly_once (tr : List (Act WorkCall)) (s : Running WorkRun Unit) :
    (CWork.service.system.Reach FewEnqueues tr s → WorkOnce CWork.service s) ∧
    (RustWork.service.system.Reach FewEnqueues tr s → WorkOnce RustWork.service s) :=
  ⟨fun hr => CWork.kernel.once hr, fun hr => RustWork.kernel.once hr⟩

/-- One piece of work is enqueued and the handler starts it. -/
theorem workqueue_exactly_once_one_item :
    (∃ s, CWork.service.system.Reach FewEnqueues [.call (.enqueue (some 1) 7), .run, .tau, .tau] s ∧
      s.data.started = [⟨1, some 1, 7⟩] ∧ WorkOnce CWork.service s) ∧
    ∃ s, RustWork.service.system.Reach FewEnqueues
        [.call (.enqueue (some 1) 7), .run, .tau, .tau] s ∧
      s.data.started = [⟨1, some 1, 7⟩] ∧ WorkOnce RustWork.service s := by
  have hfew : FewEnqueues ⟨.idle, .reset⟩ (.call (.enqueue (some 1) 7)) := by
    show _ < _
    decide
  constructor
  · have hr : CWork.service.system.Reach FewEnqueues
        [.call (.enqueue (some 1) 7), .run, .tau, .tau] _ :=
      .step (.step (.step (.step .init hfew rfl) trivial rfl) trivial rfl) trivial rfl
    exact ⟨_, hr, rfl, (workqueue_exactly_once _ _).1 hr⟩
  have hr : RustWork.service.system.Reach FewEnqueues
      [.call (.enqueue (some 1) 7), .run, .tau, .tau] _ :=
    .step (.step (.step (.step .init hfew rfl) trivial rfl) trivial rfl) trivial rfl
  exact ⟨_, hr, rfl, (workqueue_exactly_once _ _).2 hr⟩
end QosKernel
