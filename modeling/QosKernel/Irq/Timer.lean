import QosKernel.Framework.Bits
import QosKernel.Framework.Service
import QosKernel.Irq.Softirq
import QosKernel.Irq.TimerHistory
import Mathlib.Algebra.Ring.Nat

/-! # The timer table

Both kernels keep 128 timer entries and the time in jiffies. Adding,
cancelling and ticking differ only in the 64-bit addition, which wraps
in C and saturates in Rust, so they are modelled once over the addition.
What the softirq handlers do with the table is in the modules of the two
kernels.
-/
open Framework
namespace QosKernel
variable {κ : Type}
/-- A 64-bit addition, exact as long as the sum fits. -/
structure U64Add where
  plus : UInt64 → UInt64 → UInt64
  exact : ∀ a b : UInt64, a.toNat + b.toNat < 2 ^ 64 → (plus a b).toNat = a.toNat + b.toNat

/-- `+` of C's unsigned integers. -/
def wrapping_add : U64Add where
  plus a b := a + b
  exact a b h := by rw [UInt64.toNat_add, Nat.mod_eq_of_lt h]

def saturating_add : U64Add where
  plus := UInt64.saturating_add
  exact a b h := by rw [UInt64.saturating_add, if_pos h, UInt64.toNat_add, Nat.mod_eq_of_lt h]

structure TimerEntry where
  used : Bool
  periodic : Bool
  pending : Bool
  expires : UInt64
  interval : UInt32
  callback : Option UInt64
  ctx : UInt64
  deriving DecidableEq

def TimerEntry.new : TimerEntry := ⟨false, false, false, 0, 0, none, 0⟩

/-- The test of the softirq handlers: the entry is pending and has expired. -/
def TimerEntry.selects (e : TimerEntry) (now : UInt64) : Bool :=
  e.used && e.pending && decide (e.expires ≤ now)

structure TimerTable where
  entries : TimerSlot → TimerEntry
  jiffies : UInt64
  pending_mask : PendingMask

namespace TimerTable
def reset : TimerTable := ⟨fun _ => .new, 0, softirq_reset⟩

/-- `timer_id_valid` and the index of a valid id. -/
def timerSlot (timer_id : Int) : Option TimerSlot :=
  if h : 0 < timer_id ∧ timer_id.toNat ≤ QOS_TIMER_MAX then
    some ⟨timer_id.toNat - 1, by omega⟩
  else none

/-- The loop of `timer_add`: the first unused entry is filled. The timer id
is the index plus one. -/
def add (arith : U64Add) (s : TimerTable) (delay_ticks interval_ticks : UInt32)
    (callback : Option UInt64) (ctx : UInt64) : Option (TimerSlot × TimerTable) :=
  (first fun i => !(s.entries i).used).map fun i =>
    (i, { s with
      entries := set s.entries i
        { used := true
          periodic := interval_ticks != 0
          pending := false
          expires := arith.plus s.jiffies delay_ticks.toUInt64
          interval := interval_ticks
          callback := callback
          ctx := ctx } })

/-- `timer_cancel`: `none` for an id that is not valid or not in use. -/
def cancel (s : TimerTable) (timer_id : Int) : Option (TimerSlot × TimerTable) :=
  match timerSlot timer_id with
  | none => none
  | some i =>
    if (s.entries i).used then some (i, { s with entries := set s.entries i .new }) else none

/-- An entry that a tick to `now` marks as pending. -/
def expired (now : UInt64) (e : TimerEntry) : Bool :=
  e.used && !e.pending && decide (e.expires ≤ now)

/-- `timer_tick`. -/
def tick (arith : U64Add) (s : TimerTable) (elapsed_ticks : UInt32) : TimerTable :=
  if elapsed_ticks = 0 then s
  else
    let now := arith.plus s.jiffies elapsed_ticks.toUInt64
    let need_softirq := (first fun i => expired now (s.entries i)).isSome
    { entries := fun i =>
        if expired now (s.entries i) then { s.entries i with pending := true } else s.entries i
      jiffies := now
      pending_mask :=
        if need_softirq then softirq_raise s.pending_mask QOS_SOFTIRQ_TIMER else s.pending_mask }
end TimerTable
/-! ### Calls and histories -/
inductive TimerCall where
  | add (delay_ticks interval_ticks : UInt32) (callback : Option UInt64) (ctx : UInt64)
  | cancel (timer_id : Int)
  | tick (elapsed_ticks : UInt32)

/-- The table together with the history of the run. -/
structure TimerRun where
  table : TimerTable
  history : TimerHistory

namespace TimerRun
def reset : TimerRun := ⟨.reset, .empty⟩

/-- A call of `timer_add` that passed its checks. -/
def add (arith : U64Add) (s : TimerRun) (delay_ticks interval_ticks : UInt32)
    (callback : Option UInt64) (ctx : UInt64) : TimerRun :=
  match s.table.add arith delay_ticks interval_ticks callback ctx with
  | none => s
  | some (i, table) =>
    ⟨table, s.history.add i interval_ticks.toNat (s.table.jiffies.toNat + delay_ticks.toNat)⟩

def cancel (s : TimerRun) (timer_id : Int) : TimerRun :=
  match s.table.cancel timer_id with
  | none => s
  | some (i, table) => ⟨table, s.history.cancel i⟩

def tick (arith : U64Add) (s : TimerRun) (elapsed_ticks : UInt32) : TimerRun :=
  { s with table := s.table.tick arith elapsed_ticks }

section
variable (s : TimerRun) (i : TimerSlot)
/-- The callback of entry `i` is invoked by a handler that saw the time `now`. -/
def fire (now : UInt64) : TimerRun :=
  { s with history := s.history.fire i now.toNat s.table.jiffies.toNat }

def setEntry (e : TimerEntry) : TimerRun :=
  { s with table := { s.table with entries := set s.table.entries i e } }
end
/-- One round of the loop of `softirq_run`. `timer_init` registered a handler
for the timer vector, which starts at `entry`. -/
def take {κ : Type} (entry : TimerTable → κ) (s : TimerRun) : Option (TimerRun × Option κ) :=
  (softirq_take s.table.pending_mask).map fun (mask, vector) =>
    ({ s with table := { s.table with pending_mask := mask } },
      if vector = QOS_SOFTIRQ_TIMER then some (entry s.table) else none)
end TimerRun
variable {s s' : TimerRun} {e : TimerEntry} {t : LiveTimer} {arith : U64Add}
/-- A round of the softirq loop clears one bit and nothing else. -/
theorem TimerRun.take_history (entry : TimerTable → κ) {k : Option κ}
    (h : s.take entry = some (s', k)) :
    s'.history = s.history ∧ s'.table.jiffies = s.table.jiffies ∧
      s'.table.entries = s.table.entries ∧
      raisedCount s'.table.pending_mask < raisedCount s.table.pending_mask := by
  obtain ⟨⟨mask, v⟩, hm, heq⟩ := Option.map_eq_some_iff.mp h
  obtain ⟨rfl, -⟩ := Prod.mk.inj heq
  exact ⟨rfl, rfl, rfl, raisedCount_take hm⟩

/-! ### Slot by slot -/
/-- An entry and its live timer agree, but for the expiry. -/
structure Holds (e : TimerEntry) (t : LiveTimer) : Prop where
  used : e.used = true
  interval : e.interval.toNat = t.interval
  periodic : e.periodic = decide (t.interval ≠ 0)
  callback : e.callback.isSome = true

/-- The test of the handlers for a periodic timer. -/
theorem Holds.repeats (h : Holds e t) :
    (e.periodic && e.interval != 0) = decide (t.interval ≠ 0) := by
  rw [h.periodic, bne, beq_eq_decide, ← h.interval]
  simp [← UInt32.toNat_inj]

/-- Other flags do not matter. -/
theorem Holds.setPending (h : Holds e t) (pending : Bool) : Holds { e with pending := pending } t :=
  ⟨h.used, h.interval, h.periodic, h.callback⟩

/-- The handler has run the callback of every live timer that was due, so a
timer that was due earlier has been served. -/
theorem TimerHistory.Since.served {h h' : TimerHistory} {jiffies : Nat} (hsince : h.Since h')
    (hlater : ∀ u ∈ h'.live, jiffies < u.due) (ht : t ∈ h.live) (hdue : t.due ≤ jiffies) :
    h.Served h' t :=
  (hsince.live t ht).resolve_left fun hlive => absurd (hlater t hlive) (Nat.not_lt.mpr hdue)

/-- What the state says about one slot. -/
structure SlotView where
  entry : TimerEntry
  owner : Option LiveTimer
  jiffies : Nat
  raised : Bool

variable {v v' : SlotView}
def TimerRun.view (s : TimerRun) (i : TimerSlot) : SlotView :=
  ⟨s.table.entries i, s.history.owner i, s.table.jiffies.toNat,
    s.table.pending_mask QOS_SOFTIRQ_TIMER⟩

section
variable (entry : TimerTable → κ)
/-- A round of the softirq loop for a vector without a handler. -/
theorem TimerRun.take_skip (h : s.take entry = some (s', none)) :
    s'.history = s.history ∧ ∀ i, s'.view i = s.view i := by
  obtain ⟨⟨mask, v⟩, hm, heq⟩ := Option.map_eq_some_iff.mp h
  obtain ⟨rfl, hnone⟩ := Prod.mk.inj heq
  have hv : v ≠ QOS_SOFTIRQ_TIMER := fun hv => by simp [hv] at hnone
  refine ⟨rfl, fun i => ?_⟩
  rw [(softirq_take_some hm).2]
  simp [TimerRun.view, Ne.symm hv]

/-- The softirq loop enters the timer handler. -/
theorem TimerRun.take_enter {k : κ}
    (h : s.take entry = some (s', some k)) :
    k = entry s.table ∧ s'.history = s.history ∧
      ∀ i, s'.view i = { s.view i with raised := false } := by
  obtain ⟨⟨mask, v⟩, hm, heq⟩ := Option.map_eq_some_iff.mp h
  obtain ⟨rfl, hk⟩ := Prod.mk.inj heq
  by_cases hv : v = QOS_SOFTIRQ_TIMER
  · subst hv
    refine ⟨(Option.some.inj (by simpa using hk)).symm, rfl, fun i => ?_⟩
    rw [(softirq_take_some hm).2]
    simp [TimerRun.view]
  simp [hv] at hk
end
section view
variable {s : TimerRun} {i j : TimerSlot} {e : TimerEntry} {now : UInt64}
theorem view_setEntry_self : (s.setEntry i e).view i = { s.view i with entry := e } := by
  simp [TimerRun.view, TimerRun.setEntry]

theorem view_setEntry_ne (hj : j ≠ i) : (s.setEntry i e).view j = s.view j := by
  simp [TimerRun.view, TimerRun.setEntry, hj]

theorem view_fire_ne (hs : s.history.OnePerSlot) (hj : j ≠ i) :
    (s.fire i now).view j = s.view j := by
  simp [TimerRun.view, TimerRun.fire, TimerHistory.owner_fire_ne hs hj]

theorem view_fire_self (hs : s.history.OnePerSlot) {t : LiveTimer} (ho : (s.view i).owner = some t) :
    (s.fire i now).view i = { s.view i with
        owner := if t.interval = 0 then none
          else some { t with due := nextAfter now.toNat t.interval t.due } } := by
  have ho' : s.history.owner i = some t := ho
  simp [TimerRun.view, TimerRun.fire, TimerHistory.owner_fire_self hs ho']
end view
/-- How a call can change a slot. -/
inductive SlotMove (v : SlotView) : SlotView → Prop where
  | keep : SlotMove v v
  | add {e : TimerEntry} {t : LiveTimer} :
      v.entry.used = false → Holds e t → e.pending = false → e.expires.toNat = t.due →
      v.jiffies < t.due → SlotMove v { v with entry := e, owner := some t }
  | cancel : SlotMove v { v with entry := .new, owner := none }
  | tick {now : UInt64} {raised : Bool} :
      v.jiffies ≤ now.toNat → (v.raised = true → raised = true) →
      (TimerTable.expired now v.entry = true → raised = true) →
      SlotMove v
        { v with
          entry :=
            if TimerTable.expired now v.entry then { v.entry with pending := true } else v.entry
          jiffies := now.toNat
          raised := raised }

/-- Every slot that is not in use has no live timer. -/
def TimerRun.NoOrphan (s : TimerRun) : Prop :=
  ∀ i, (s.table.entries i).used = false → s.history.owner i = none

/-- What a call does to a run: every slot makes a move, the history makes a
step, and it stays well formed. -/
structure CallMove (s s' : TimerRun) : Prop where
  slots : ∀ i, SlotMove (s.view i) (s'.view i)
  step : s.history.Step s'.history
  onePerSlot : s.history.OnePerSlot → s'.history.OnePerSlot
  sound : s.history.Sound → s'.history.Sound
  later : s.table.jiffies.toNat ≤ s'.table.jiffies.toNat
  raised : s.table.pending_mask QOS_SOFTIRQ_TIMER = true →
    s'.table.pending_mask QOS_SOFTIRQ_TIMER = true

theorem CallMove.refl (s : TimerRun) : CallMove s s :=
  ⟨fun _ => .keep, .stay, id, id, Nat.le_refl _, id⟩

theorem CallMove.add (hs : s.NoOrphan) {delay_ticks interval_ticks : UInt32}
    {callback : Option UInt64} (ctx : UInt64) (hdelay : delay_ticks ≠ 0)
    (hcb : callback.isSome = true) (hfit : s.table.jiffies.toNat + delay_ticks.toNat < 2 ^ 64) :
    CallMove s (s.add arith delay_ticks interval_ticks callback ctx) := by
  unfold TimerRun.add TimerTable.add
  rcases hf : first fun i => !(s.table.entries i).used with _ | i
  · exact .refl s
  have hunused : (s.table.entries i).used = false := by simpa using first_some hf
  have hnone := hs i hunused
  have hpos : 0 < delay_ticks.toNat := by
    rcases Nat.eq_zero_or_pos delay_ticks.toNat with h0 | h0
    · exact absurd (UInt32.toNat_inj.mp h0) hdelay
    exact h0
  refine ⟨fun j => ?_, .add i _ _, fun h => h.add hnone, fun h => h.add _ _ _, ?_, id⟩
  · by_cases hj : j = i
    · subst hj
      simp only [Option.map_some, TimerRun.view, set_self]
      rw [TimerHistory.owner_add hnone, if_pos rfl]
      refine .add hunused ⟨rfl, rfl, ?_, hcb⟩ rfl ?_ ?_
      · -- the flag is set exactly for a nonzero interval
        simp only [bne, beq_eq_decide, ← UInt32.toNat_inj, decide_not, ne_eq]
        rfl
      · exact arith.exact _ _ hfit
      show s.table.jiffies.toNat < s.table.jiffies.toNat + delay_ticks.toNat
      omega
    simp only [Option.map_some, TimerRun.view, set_ne hj]
    rw [TimerHistory.owner_add hnone, if_neg hj]
    exact .keep
  exact Nat.le_refl _

theorem CallMove.cancel (s : TimerRun) (timer_id : Int) : CallMove s (s.cancel timer_id) := by
  unfold TimerRun.cancel
  rcases hc : s.table.cancel timer_id with _ | ⟨i, table⟩
  · exact .refl s
  obtain rfl : table = { s.table with entries := set s.table.entries i .new } := by
    unfold TimerTable.cancel at hc
    split at hc
    · cases hc
    split at hc
    · obtain ⟨rfl, rfl⟩ := Prod.mk.inj (Option.some.inj hc)
      rfl
    cases hc
  refine ⟨fun j => ?_, .cancel i, fun h => h.cancel i, fun h => h.cancel i, Nat.le_refl _, id⟩
  simp only [TimerRun.view, TimerHistory.owner_cancel]
  by_cases hj : j = i
  · subst hj
    rw [set_self, if_pos rfl]
    exact .cancel
  rw [set_ne hj, if_neg hj]
  exact .keep

theorem CallMove.tick {elapsed_ticks : UInt32}
    (hfit : s.table.jiffies.toNat + elapsed_ticks.toNat < 2 ^ 64) :
    CallMove s (s.tick arith elapsed_ticks) := by
  unfold TimerRun.tick TimerTable.tick
  split
  · exact .refl s
  have hnow : (arith.plus s.table.jiffies elapsed_ticks.toUInt64).toNat =
      s.table.jiffies.toNat + elapsed_ticks.toNat := arith.exact _ _ hfit
  have hle : s.table.jiffies.toNat ≤
      (arith.plus s.table.jiffies elapsed_ticks.toUInt64).toNat := by omega
  refine ⟨fun j => .tick hle ?_ ?_, .stay, id, id, hle, ?_⟩
  · intro hr
    dsimp only [TimerRun.view] at hr ⊢
    split <;> simp [softirq_raise, hr]
  · -- the loop found an expired entry, so the softirq is raised
    intro he
    dsimp only [TimerRun.view] at he ⊢
    rw [if_pos ?_]
    · exact set_self
    rw [Option.isSome_iff_ne_none]
    intro hnone
    simp [first_none.mp hnone j] at he
  intro hr
  dsimp only
  split <;> simp [softirq_raise, hr]

/-- If every step of a run makes a step of the history, then what was live at
`s` is live later, or it was served. -/
theorem since_of_steps {svc : Service TimerRun TimerCall κ}
    {cond : Running TimerRun κ → Act TimerCall → Prop}
    (hstep : ∀ s l s', (∃ tr, svc.system.Reach cond tr s) → cond s l → svc.step s l = some s' →
      s.data.history.OnePerSlot ∧ s.data.history.Step s'.data.history ∧
      s.data.table.jiffies.toNat ≤ s'.data.table.jiffies.toNat) {tr tr' : List (Act TimerCall)}
    {s s' : Running TimerRun κ} (hr : svc.system.Reach cond tr s)
    (hs : svc.system.Steps cond s tr' s') :
    s.data.history.Since s'.data.history ∧
      s.data.table.jiffies.toNat ≤ s'.data.table.jiffies.toNat := by
  refine hs.invariant hr (fun x => s.data.history.Since x.data.history ∧
    s.data.table.jiffies.toNat ≤ x.data.table.jiffies.toNat) ⟨.refl _, Nat.le_refl _⟩ ?_
  intro t l t' hreach ⟨hsince, hle⟩ hc hst
  obtain ⟨hone, hhist, hlater⟩ := hstep t l t' hreach hc hst
  exact ⟨hsince.step hone hhist, hle.trans hlater⟩

/-! ### Slots at rest -/
/-- The entry of a slot agrees with the live timer of the slot, and it is
marked as pending exactly when the timer is due. -/
def SlotOk (v : SlotView) : Prop :=
  match v.owner with
  | none => v.entry.used = false
  | some t => Holds v.entry t ∧ v.entry.expires.toNat = t.due ∧
      (v.entry.pending = true ↔ t.due ≤ v.jiffies)

/-- A pending entry waits for a softirq that is raised. -/
def SlotView.Awaits (v : SlotView) : Prop :=
  v.entry.used = true → v.entry.pending = true → v.raised = true

theorem SlotOk.owner_of_used (h : SlotOk v) (hu : v.entry.used = true) :
    ∃ t, v.owner = some t ∧ Holds v.entry t ∧ v.entry.expires.toNat = t.due ∧
      (v.entry.pending = true ↔ t.due ≤ v.jiffies) := by
  unfold SlotOk at h
  split at h
  · rw [h] at hu; cases hu
  next t ht => exact ⟨t, ht, h⟩

theorem SlotOk.of_owner (h : SlotOk v) (ho : v.owner = some t) :
    Holds v.entry t ∧ v.entry.expires.toNat = t.due ∧
      (v.entry.pending = true ↔ t.due ≤ v.jiffies) := by
  unfold SlotOk at h
  rwa [ho] at h

theorem SlotOk.owner_none (h : SlotOk v) (hu : v.entry.used = false) : v.owner = none := by
  rcases ho : v.owner with _ | t
  · rfl
  rw [(h.of_owner ho).1.used] at hu
  cases hu

theorem SlotOk.move (h : SlotOk v) (hm : SlotMove v v') : SlotOk v' := by
  rcases hm with _ | ⟨hunused, hholds, hpend, hexp, hlt⟩ | _ | ⟨hle, hmono, hraise⟩
  · exact h
  · exact ⟨hholds, hexp, by simp [hpend, hlt]⟩
  · exact rfl
  unfold SlotOk at *
  dsimp only
  rcases ho : v.owner with _ | t <;> rw [ho] at h <;> dsimp only at h ⊢
  · rw [if_neg (by simp [TimerTable.expired, h])]
    exact h
  obtain ⟨hholds, hexp, hpend⟩ := h
  split
  next he =>
    refine ⟨⟨hholds.used, hholds.interval, hholds.periodic, hholds.callback⟩, hexp, ?_⟩
    simp only [TimerTable.expired, Bool.and_eq_true, decide_eq_true_eq,
      UInt64.le_iff_toNat_le, hexp] at he
    simp [he.2]
  next he =>
  refine ⟨hholds, hexp, hpend.trans ⟨fun hd => hd.trans hle, fun hd => ?_⟩⟩
  -- a timer that is due now but was not marked by the tick was marked before
  by_contra hnd
  rw [← hpend] at hnd
  simp [TimerTable.expired, hholds.used, hnd, UInt64.le_iff_toNat_le, hexp, hd] at he

theorem SlotView.Awaits.move (h : v.Awaits) (hm : SlotMove v v') : v'.Awaits := by
  rcases hm with _ | ⟨hunused, hholds, hpend, hexp, hlt⟩ | _ | ⟨hle, hmono, hraise⟩
  · exact h
  · exact fun _ hp => absurd hp (by simp [hpend])
  · exact fun hu => by cases hu
  unfold SlotView.Awaits at *
  dsimp only
  split
  next he => exact fun _ _ => hraise he
  next => exact fun hu hp => hmono (h hu hp)

/-- When the softirq loop finds no work, no live timer is due. -/
theorem later_of_take_none (entry : TimerTable → κ) (hs : s.history.OnePerSlot)
    (hok : ∀ i, SlotOk (s.view i)) (hawait : ∀ i, (s.view i).Awaits) (ht : s.take entry = none) :
    ∀ t ∈ s.history.live, s.table.jiffies.toNat < t.due := by
  intro t ht'
  obtain ⟨hholds, -, hpend⟩ := (hok t.slot).of_owner ((TimerHistory.owner_eq_some hs).mpr ⟨ht', rfl⟩)
  by_contra hdue
  -- the entry would be pending, and a pending entry has the softirq raised
  have hraised := hawait t.slot hholds.used (hpend.mpr (Nat.not_lt.mp hdue))
  have hnone := softirq_take_none (Option.map_eq_none_iff.mp ht) QOS_SOFTIRQ_TIMER
  rw [show (s.view t.slot).raised = false from hnone] at hraised
  cases hraised

theorem reset_view_ok (i : TimerSlot) : SlotOk (TimerRun.reset.view i) := by
  show SlotOk ⟨.new, TimerHistory.empty.owner i, _, _⟩
  exact rfl
end QosKernel
