import QosKernel.Irq.Timer

/-! # The Rust timers under re-entrancy

The softirq handler of the Rust kernel takes the timer lock, looks for an
expired timer, moves its entry on, drops the lock and invokes the
callback. Then it starts again from the first entry. The lock is not
modelled: between two callbacks no call can interleave.

`RustInv` is the invariant of all runs in which no 64-bit sum overflows.
-/
open Framework
namespace QosKernel
open TimerRun
/-- The control points of the handler: the head of its outer loop, the inner
loop at index `i`, and the loop that moves the expiry of entry `i` on. -/
inductive RustPoint where
  | head
  | scan (i : Nat) (now : UInt64)
  | advance (i : TimerSlot) (now : UInt64)

namespace RustTimer
variable {c : Control RustPoint} {s s' : TimerRun} {k : Nat} {now : UInt64} {i : TimerSlot}
variable {t : LiveTimer}
def timer_softirq_handler (s : TimerRun) : RustPoint → TimerRun × Next RustPoint
  | .head => (s, .goto (.scan 0 s.table.jiffies))
  | .scan i now =>
    if h : i < QOS_TIMER_MAX then
      let entry := s.table.entries ⟨i, h⟩
      if entry.selects now then
        match entry.callback with
        | none => (s.setEntry ⟨i, h⟩ { entry with pending := false }, .goto (.scan (i + 1) now))
        | some _ =>
          if entry.periodic && entry.interval != 0 then
            (s.setEntry ⟨i, h⟩ { entry with pending := false }, .goto (.advance ⟨i, h⟩ now))
          else ((s.setEntry ⟨i, h⟩ .new).fire ⟨i, h⟩ now, .invoke .head)
      else (s, .goto (.scan (i + 1) now))
    else (s, .done)
  | .advance i now =>
    let entry := s.table.entries i
    if entry.expires ≤ now then
      (s.setEntry i
        { entry with expires := saturating_add.plus entry.expires entry.interval.toUInt64 },
        .goto (.advance i now))
    else (s.fire i now, .invoke .head)

/-- The calls. A function pointer of Rust is never null. -/
def call (s : TimerRun) : TimerCall → Option TimerRun
  | .add delay_ticks interval_ticks callback ctx =>
    match callback with
    | none => none
    | some cb =>
      some (if delay_ticks = 0 then s
        else s.add saturating_add delay_ticks interval_ticks (some cb) ctx)
  | .cancel timer_id => some (s.cancel timer_id)
  | .tick elapsed_ticks => some (s.tick saturating_add elapsed_ticks)

/-- All runs of the Rust timers from reset. -/
def service : Service TimerRun TimerCall RustPoint where
  init := .reset
  call := call
  take := take fun _ => .head
  tau := timer_softirq_handler
  resume s k := (s, .goto k)

/-- The time plus the interval of any timer in use stays below `2 ^ 64`. -/
def Fits (s : TimerRun) : Prop :=
  ∀ i, (s.table.entries i).used = true →
    s.table.jiffies.toNat + (s.table.entries i).interval.toNat < 2 ^ 64

/-- Jiffies plus delays and intervals stay below `2 ^ 64`. -/
def NoOverflow (s : Running TimerRun RustPoint) (l : Act TimerCall) : Prop :=
  Fits s.data ∧
    match l with
    | .call (.add delay_ticks _ _ _) => s.data.table.jiffies.toNat + delay_ticks.toNat < 2 ^ 64
    | .call (.tick elapsed_ticks) => s.data.table.jiffies.toNat + elapsed_ticks.toNat < 2 ^ 64
    | _ => True

/-! ### The invariant -/
/-- The entry whose expiry is being moved on. -/
def moving : Control RustPoint → Option TimerSlot
  | .handler (.advance i _) => some i
  | _ => none

/-- The entry is on its way from the expiry of its timer to the next one after
`now`. -/
structure Moving (v : SlotView) (now : Nat) (t : LiveTimer) : Prop where
  owner : v.owner = some t
  holds : Holds v.entry t
  pending : v.entry.pending = false
  periodic : 0 < t.interval
  due : t.due ≤ now
  next : nextAfter now t.interval v.entry.expires.toNat = nextAfter now t.interval t.due

def AtControl (s : TimerRun) : Control RustPoint → Prop
  | .idle | .loop => ∀ i, (s.view i).Awaits
  | .callback k => k = .head
  | .handler .head => True
  | .handler (.scan k now) =>
    now = s.table.jiffies ∧
      ∀ i, i.val < k → (s.table.entries i).used = true → (s.table.entries i).pending = false
  | .handler (.advance i now) => now = s.table.jiffies ∧ ∃ t, Moving (s.view i) now.toNat t

structure RustInv (c : Control RustPoint) (s : TimerRun) : Prop where
  onePerSlot : s.history.OnePerSlot
  sound : s.history.Sound
  rest : ∀ i, moving c ≠ some i → SlotOk (s.view i)
  control : AtControl s c

theorem RustInv.init : RustInv .idle .reset where
  onePerSlot := List.nodup_nil
  sound := .empty
  rest i _ := reset_view_ok i
  control := fun _ hu => by cases hu

/-- Nothing moves while calls are possible, so every slot is at rest. -/
theorem RustInv.rest_of_not_busy (h : RustInv c s) (hb : c.busy = false) (i : TimerSlot) :
    SlotOk (s.view i) := by
  refine h.rest i ?_
  rcases c with _ | _ | k | k <;> simp [Control.busy, moving] at *

theorem RustInv.callMove (h : RustInv c s) (hb : c.busy = false) (hm : CallMove s s') :
    RustInv c s' where
  onePerSlot := hm.onePerSlot h.onePerSlot
  sound := hm.sound h.sound
  rest i _ := (h.rest_of_not_busy hb i).move (hm.slots i)
  control := by
    have hc := h.control
    rcases c with _ | _ | k | k
    · exact fun i => (hc i).move (hm.slots i)
    · cases hb
    · cases hb
    exact hc

theorem call_move {a : TimerCall} (hs : ∀ i, SlotOk (s.view i)) (hfit : NoOverflow ⟨c, s⟩ (.call a))
    (h : call s a = some s') : CallMove s s' := by
  rcases a with ⟨delay_ticks, interval_ticks, _ | cb, ctx⟩ | timer_id | elapsed_ticks
  · cases h
  · unfold call at h
    dsimp only at h
    split at h
    · cases h
      exact .refl s
    next hd =>
    cases h
    exact .add (fun i hi => (hs i).owner_none hi) ctx hd rfl hfit.2
  · cases h
    exact .cancel s timer_id
  cases h
  exact .tick hfit.2

/-! ### The handler -/
theorem handler_scan (s : TimerRun) (k : Nat) (now : UInt64) :
    (QOS_TIMER_MAX ≤ k ∧ timer_softirq_handler s (.scan k now) = (s, .done)) ∨
    ∃ hk : k < QOS_TIMER_MAX, ((s.table.entries ⟨k, hk⟩).selects now = false ∧
        timer_softirq_handler s (.scan k now) = (s, .goto (.scan (k + 1) now))) ∨
      (s.table.entries ⟨k, hk⟩).selects now = true ∧ ((s.table.entries ⟨k, hk⟩).callback = none ∧
          timer_softirq_handler s (.scan k now) =
            (s.setEntry ⟨k, hk⟩ { s.table.entries ⟨k, hk⟩ with pending := false },
              .goto (.scan (k + 1) now)) ∨
        ((s.table.entries ⟨k, hk⟩).periodic && (s.table.entries ⟨k, hk⟩).interval != 0) = true ∧
          timer_softirq_handler s (.scan k now) =
            (s.setEntry ⟨k, hk⟩ { s.table.entries ⟨k, hk⟩ with pending := false },
              .goto (.advance ⟨k, hk⟩ now)) ∨
        ((s.table.entries ⟨k, hk⟩).periodic && (s.table.entries ⟨k, hk⟩).interval != 0) = false ∧
          timer_softirq_handler s (.scan k now) =
            ((s.setEntry ⟨k, hk⟩ .new).fire ⟨k, hk⟩ now, .invoke .head)) := by
  by_cases hk : k < QOS_TIMER_MAX
  · refine .inr ⟨hk, ?_⟩
    simp only [timer_softirq_handler, dif_pos hk]
    split
    next hsel =>
      refine .inr ⟨hsel, ?_⟩
      rcases (s.table.entries ⟨k, hk⟩).callback with _ | cb
      · exact .inl ⟨rfl, rfl⟩
      dsimp only
      split
      next hp => exact .inr (.inl ⟨hp, rfl⟩)
      next hp => exact .inr (.inr ⟨Bool.not_eq_true _ ▸ hp, rfl⟩)
    next hsel => exact .inl ⟨Bool.not_eq_true _ ▸ hsel, rfl⟩
  refine .inl ⟨Nat.not_lt.mp hk, ?_⟩
  simp only [timer_softirq_handler, dif_neg hk]

section
variable (h : RustInv (.handler (.scan k now)) s)
include h
theorem RustInv.selected (hsel : (s.table.entries i).selects now = true) :
    ∃ t, (s.view i).owner = some t ∧ Holds (s.view i).entry t ∧
      (s.view i).entry.expires.toNat = t.due ∧ t.due ≤ s.table.jiffies.toNat := by
  simp only [TimerEntry.selects, Bool.and_eq_true, decide_eq_true_eq] at hsel
  obtain ⟨t, ho, hholds, hexp, hpend⟩ :=
    (h.rest i (by simp [moving])).owner_of_used (v := s.view i) hsel.1.1
  exact ⟨t, ho, hholds, hexp, hpend.mp hsel.1.2⟩

/-- The inner loop goes past an entry that is not pending. -/
theorem RustInv.pass (hk : k < QOS_TIMER_MAX)
    (hsel : (s.table.entries ⟨k, hk⟩).selects now = false) :
    RustInv (.handler (.scan (k + 1) now)) s := by
  obtain ⟨hnow, hbefore⟩ := h.control
  refine ⟨h.onePerSlot, h.sound, fun i _ => h.rest i (by simp [moving]), hnow, fun i hi hu => ?_⟩
  rcases Nat.lt_succ_iff_lt_or_eq.mp hi with hlt | heq
  · exact hbefore i hlt hu
  obtain rfl : i = ⟨k, hk⟩ := Fin.ext heq
  obtain ⟨t, -, -, hexp, hpend⟩ :=
    (h.rest ⟨k, hk⟩ (by simp [moving])).owner_of_used (v := s.view _) hu
  -- a pending entry has expired, so it would have been selected
  by_contra hp
  have hp' : (s.table.entries ⟨k, hk⟩).pending = true := by simpa using hp
  have hdue : (s.table.entries ⟨k, hk⟩).expires.toNat ≤ now.toNat := by
    rw [hnow]
    exact hexp.trans_le (hpend.mp hp')
  simp [TimerEntry.selects, hu, hp', UInt64.le_iff_toNat_le, hdue] at hsel

theorem RustInv.select_periodic (ho : (s.view i).owner = some t) (hholds : Holds (s.view i).entry t)
    (hexp : (s.view i).entry.expires.toNat = t.due) (hdue : t.due ≤ s.table.jiffies.toNat)
    (hint : 0 < t.interval) :
    RustInv (.handler (.advance i now))
      (s.setEntry i { s.table.entries i with pending := false }) where
  onePerSlot := h.onePerSlot
  sound := h.sound
  rest j hj := by
    rw [view_setEntry_ne (fun hji => hj (by rw [hji]; rfl))]
    exact h.rest j (by simp [moving])
  control := by
    obtain ⟨hnow, -⟩ := h.control
    refine ⟨hnow, t, ?_⟩
    rw [view_setEntry_self]
    exact ⟨ho, hholds.setPending false, rfl, hint, hnow ▸ hdue, by rw [← hexp]; rfl⟩

/-- A one-shot timer is selected: its entry is free again before its callback
runs. -/
theorem RustInv.select_one_shot
    (ho : (s.view i).owner = some t) (hdue : t.due ≤ s.table.jiffies.toNat) (hint : t.interval = 0) :
    RustInv (.callback .head) ((s.setEntry i .new).fire i now) where
  onePerSlot := h.onePerSlot.fire i _ _
  sound := h.sound.fire (t := t) ho hdue
  rest j _ := by
    by_cases hj : j = i
    · subst hj
      rw [view_fire_self h.onePerSlot (s := s.setEntry j .new) ho, if_pos hint, view_setEntry_self]
      exact rfl
    rw [view_fire_ne (s := s.setEntry i .new) h.onePerSlot hj, view_setEntry_ne hj]
    exact h.rest j (by simp [moving])
  control := rfl

theorem RustInv.scan :
    RustInv (timer_softirq_handler s (.scan k now)).2.control
      (timer_softirq_handler s (.scan k now)).1 := by
  obtain ⟨hk, heq⟩ | ⟨hk, ⟨hsel, heq⟩ | ⟨hsel, hcases⟩⟩ := handler_scan s k now
  · -- the whole table was scanned: no entry in use is pending
    rw [heq]
    refine ⟨h.onePerSlot, h.sound, fun i _ => h.rest i (by simp [moving]), fun i hu hp => ?_⟩
    have hnot := h.control.2 i (i.isLt.trans_le hk) hu
    rw [show (s.table.entries i).pending = true from hp] at hnot
    cases hnot
  · rw [heq]
    exact h.pass hk hsel
  obtain ⟨t, ho, hholds, hexp, hdue⟩ := h.selected hsel
  have hper : ((s.table.entries ⟨k, hk⟩).periodic && (s.table.entries ⟨k, hk⟩).interval != 0) =
      decide (t.interval ≠ 0) := hholds.repeats
  obtain ⟨hcb, -⟩ | ⟨hp, heq⟩ | ⟨hp, heq⟩ := hcases
  · have hsome : (s.table.entries ⟨k, hk⟩).callback.isSome = true := hholds.callback
    rw [hcb] at hsome
    cases hsome
  · rw [heq]
    refine h.select_periodic ho hholds hexp hdue (Nat.pos_of_ne_zero ?_)
    simpa [hper] using hp
  rw [heq]
  refine h.select_one_shot ho hdue ?_
  simpa [hper] using hp
end
/-- The expiry moves on by one interval, or it is past `now` and the callback
is invoked. -/
theorem RustInv.advance (hfit : Fits s) (h : RustInv (.handler (.advance i now)) s) :
    RustInv (timer_softirq_handler s (.advance i now)).2.control
      (timer_softirq_handler s (.advance i now)).1 := by
  obtain ⟨hnow, t, hm⟩ := h.control
  have hint : (s.table.entries i).interval.toNat = t.interval := hm.holds.interval
  unfold timer_softirq_handler
  dsimp only
  split
  next hle =>
    rw [UInt64.le_iff_toNat_le] at hle
    have hsum : (s.table.entries i).expires.toNat +
        (s.table.entries i).interval.toUInt64.toNat < 2 ^ 64 := by
      have := hfit i hm.holds.used
      rw [UInt32.toNat_toUInt64]
      rw [← hnow] at this
      omega
    refine ⟨h.onePerSlot, h.sound, fun j hj => ?_, hnow, t, ?_⟩
    · rw [view_setEntry_ne (fun hji => hj (by rw [hji]; rfl))]
      exact h.rest j hj
    rw [view_setEntry_self]
    refine ⟨hm.owner, ⟨hm.holds.used, hm.holds.interval, hm.holds.periodic, hm.holds.callback⟩,
      hm.pending, hm.periodic, hm.due, ?_⟩
    dsimp only
    rw [saturating_add.exact _ _ hsum, UInt32.toNat_toUInt64, hint, nextAfter_add hm.periodic hle]
    exact hm.next
  next hgt =>
  have hlt : now.toNat < (s.table.entries i).expires.toNat := by
    rwa [UInt64.le_iff_toNat_le, Nat.not_le] at hgt
  have hexp : (s.table.entries i).expires.toNat = nextAfter now.toNat t.interval t.due := by
    rw [← hm.next]
    exact (nextAfter_of_lt hlt).symm
  refine ⟨h.onePerSlot.fire i _ _, h.sound.fire (t := t) hm.owner (hnow ▸ hm.due),
    fun j _ => ?_, rfl⟩
  by_cases hj : j = i
  · subst hj
    rw [view_fire_self h.onePerSlot hm.owner, if_neg hm.periodic.ne']
    refine ⟨⟨hm.holds.used, hm.holds.interval, hm.holds.periodic, hm.holds.callback⟩, hexp, ?_⟩
    have hpend : (s.table.entries j).pending = false := hm.pending
    simp [TimerRun.view, hpend, ← hexp, ← hnow, hlt]
  rw [view_fire_ne h.onePerSlot hj]
  exact h.rest j (fun hji => hj (Option.some.inj hji).symm)

/-! ### What the invariant says about entries -/
/-- The entry that is being moved on is not pending, so every pending entry is
at rest. -/
theorem RustInv.ok_of_pending (h : RustInv c s) (hp : (s.table.entries i).pending = true) :
    SlotOk (s.view i) := by
  refine h.rest i fun hmov => ?_
  unfold moving at hmov
  split at hmov
  next j now =>
    obtain rfl := Option.some.inj hmov
    obtain ⟨-, t, hm⟩ := h.control
    rw [show (s.table.entries j).pending = false from hm.pending] at hp
    cases hp
  next => cases hmov

theorem RustInv.expired_of_pending (h : RustInv c s) (hu : (s.table.entries i).used = true)
    (hp : (s.table.entries i).pending = true) : (s.table.entries i).expires ≤ s.table.jiffies := by
  obtain ⟨t, -, -, hexp, hpend⟩ := (h.ok_of_pending hp).owner_of_used (v := s.view i) hu
  rw [UInt64.le_iff_toNat_le]
  exact hexp.trans_le (hpend.mp hp)

theorem RustInv.raised_or_handling (h : RustInv c s) (hu : (s.table.entries i).used = true)
    (hp : (s.table.entries i).pending = true) :
    s.table.pending_mask QOS_SOFTIRQ_TIMER = true ∨ c.handling = true := by
  rcases c with _ | _ | k | k
  · exact .inl (h.control i hu hp)
  · exact .inl (h.control i hu hp)
  all_goals exact .inr rfl

theorem RustInv.holds_of_live (h : RustInv c s) (ht : t ∈ s.history.live) :
    Holds (s.table.entries t.slot) t := by
  have ho : (s.view t.slot).owner = some t :=
    (TimerHistory.owner_eq_some h.onePerSlot).mpr ⟨ht, rfl⟩
  by_cases hmov : moving c = some t.slot
  · unfold moving at hmov
    split at hmov
    next j now =>
      obtain rfl := Option.some.inj hmov
      obtain ⟨-, u, hm⟩ := h.control
      obtain rfl := Option.some.inj (hm.owner.symm.trans ho)
      exact hm.holds
    next => cases hmov
  exact ((h.rest t.slot hmov).of_owner ho).1

/-! ### Whole runs -/
theorem RustInv.keeps : service.Keeps NoOverflow RustInv where
  init := .init
  call hb h hc hcall := h.callMove hb (call_move (h.rest_of_not_busy hb) hc hcall)
  run h := ⟨h.onePerSlot, h.sound, fun i _ => h.rest i (by simp [moving]), h.control⟩
  idle h _ := ⟨h.onePerSlot, h.sound, fun i _ => h.rest i (by simp [moving]), h.control⟩
  skip {d d'} h ht := by
    obtain ⟨hh, hview⟩ := take_skip (fun _ => RustPoint.head) ht
    refine ⟨hh ▸ h.onePerSlot, hh ▸ h.sound, fun i _ => ?_, fun i => ?_⟩
    · rw [hview]
      exact h.rest i (by simp [moving])
    rw [hview]
    exact h.control i
  enter {d d' k} h ht := by
    obtain ⟨rfl, hh, hview⟩ := take_enter (fun _ => RustPoint.head) ht
    refine ⟨hh ▸ h.onePerSlot, hh ▸ h.sound, fun i _ => ?_, trivial⟩
    rw [hview]
    exact h.rest i (by simp [moving])
  tau {d k} h hc := by
    rcases k with _ | ⟨k, now⟩ | ⟨i, now⟩
    · exact ⟨h.onePerSlot, h.sound, fun i _ => h.rest i (by simp [moving]), rfl,
        fun i hi => absurd hi (Nat.not_lt_zero _)⟩
    · exact h.scan
    exact h.advance hc.1
  ret {d k} h _ := by
    obtain rfl : k = .head := h.control
    exact ⟨h.onePerSlot, h.sound, fun i _ => h.rest i (by simp [moving]), trivial⟩

theorem handler_history (s : TimerRun) (k : RustPoint) :
    s.history.Step (timer_softirq_handler s k).1.history ∧
      (timer_softirq_handler s k).1.table.jiffies = s.table.jiffies := by
  rcases k with _ | ⟨k, now⟩ | ⟨i, now⟩
  · exact ⟨.stay, rfl⟩
  · obtain ⟨-, heq⟩ | ⟨hk, ⟨-, heq⟩ | ⟨-, ⟨-, heq⟩ | ⟨-, heq⟩ | ⟨-, heq⟩⟩⟩ :=
      handler_scan s k now <;> rw [heq]
    · exact ⟨.stay, rfl⟩
    · exact ⟨.stay, rfl⟩
    · exact ⟨.stay, rfl⟩
    · exact ⟨.stay, rfl⟩
    exact ⟨.fire _ _ _, rfl⟩
  unfold timer_softirq_handler
  dsimp only
  split
  · exact ⟨.stay, rfl⟩
  exact ⟨.fire _ _ _, rfl⟩

theorem step_history {s s' : Running TimerRun RustPoint} {l : Act TimerCall}
    (h : RustInv s.control s.data) (hc : NoOverflow s l) (hstep : service.step s l = some s') :
    s.data.history.Step s'.data.history ∧
      s.data.table.jiffies.toNat ≤ s'.data.table.jiffies.toNat := by
  rcases s with ⟨c, d⟩
  obtain ⟨a, d', rfl, hb, hd, rfl⟩ | ⟨-, -, rfl⟩ | ⟨-, -, -, rfl⟩ | ⟨d', -, -, ht, rfl⟩ |
    ⟨d', k, -, -, ht, rfl⟩ | ⟨k, -, -, rfl⟩ | ⟨k, -, -, rfl⟩ := service.step_cases hstep
  · have hm := call_move (h.rest_of_not_busy hb) hc hd
    exact ⟨hm.step, hm.later⟩
  · exact ⟨.stay, Nat.le_refl _⟩
  · exact ⟨.stay, Nat.le_refl _⟩
  · obtain ⟨hh, hj, -, -⟩ := take_history (fun _ => RustPoint.head) ht
    exact ⟨hh ▸ .stay, hj ▸ Nat.le_refl _⟩
  · obtain ⟨hh, hj, -, -⟩ := take_history (fun _ => RustPoint.head) ht
    exact ⟨hh ▸ .stay, hj ▸ Nat.le_refl _⟩
  · obtain ⟨hh, hj⟩ := handler_history d k
    exact ⟨hh, hj ▸ Nat.le_refl _⟩
  exact ⟨.stay, Nat.le_refl _⟩

theorem RustInv.of_reach {tr : List (Act TimerCall)} {s : Running TimerRun RustPoint}
    (hr : service.system.Reach NoOverflow tr s) : RustInv s.control s.data :=
  RustInv.keeps.reach hr

theorem RustInv.later_of_return (h : RustInv .loop s) (ht : service.take s = none) :
    ∀ t ∈ s.history.live, s.table.jiffies.toNat < t.due :=
  later_of_take_none (fun _ => RustPoint.head) h.onePerSlot
    (fun i => h.rest i (by simp [moving])) h.control ht

def rank : Running TimerRun RustPoint → Nat × Nat × Nat
  | ⟨.idle, _⟩ | ⟨.callback _, _⟩ => (0, 0, 0)
  | ⟨.loop, s⟩ => (raisedCount s.table.pending_mask, 1, 0)
  | ⟨.handler .head, s⟩ => (raisedCount s.table.pending_mask, 2 * QOS_TIMER_MAX + 4, 0)
  | ⟨.handler (.scan k _), s⟩ => (raisedCount s.table.pending_mask, 2 * (QOS_TIMER_MAX - k) + 3, 0)
  | ⟨.handler (.advance i now), s⟩ =>
    (raisedCount s.table.pending_mask, 2 * (QOS_TIMER_MAX - i) + 2,
      now.toNat + 1 - (s.table.entries i).expires.toNat)

/-- A step of the handler decreases the rank and keeps the intervals. -/
theorem handler_rank {k : RustPoint} (h : RustInv (.handler k) s) (hfit : Fits s) :
    Fits (timer_softirq_handler s k).1 ∧
      lexLt (rank ⟨(timer_softirq_handler s k).2.control, (timer_softirq_handler s k).1⟩)
        (rank ⟨.handler k, s⟩) := by
  have hset : ∀ i e, (e.used = true → (s.table.entries i).used = true) →
      e.interval = (s.table.entries i).interval ∨ e.used = false → Fits (s.setEntry i e) := by
    intro i e hu hi j hj
    by_cases hji : j = i
    · subst hji
      simp only [setEntry, set_self] at hj ⊢
      rcases hi with hi | hi
      · rw [hi]
        exact hfit j (hu hj)
      rw [hi] at hj
      cases hj
    simp only [setEntry, set_ne hji] at hj ⊢
    exact hfit j hj
  rcases k with _ | ⟨k, now⟩ | ⟨i, now⟩
  · exact ⟨hfit, .right _ (.left _ _ (by show _ < _; omega))⟩
  · obtain ⟨-, heq⟩ | ⟨hk, ⟨-, heq⟩ | ⟨-, ⟨-, heq⟩ | ⟨-, heq⟩ | ⟨-, heq⟩⟩⟩ :=
      handler_scan s k now <;> rw [heq]
    · exact ⟨hfit, .right _ (.left _ _ (by omega))⟩
    · exact ⟨hfit, .right _ (.left _ _ (by omega))⟩
    · exact ⟨hset _ _ id (.inl rfl), .right _ (.left _ _ (by omega))⟩
    · exact ⟨hset _ _ id (.inl rfl), .right _ (.left _ _ (by dsimp only; omega))⟩
    exact ⟨hset _ .new (fun hu => by cases hu) (.inr rfl), lexLt_zero (by simp [rank])⟩
  obtain ⟨hnow, t, hm⟩ := h.control
  unfold timer_softirq_handler
  dsimp only
  split
  next hle =>
    refine ⟨hset _ _ id (.inl rfl), .right _ (.right _ ?_)⟩
    rw [UInt64.le_iff_toNat_le] at hle
    have hint : (s.table.entries i).interval.toNat = t.interval := hm.holds.interval
    have hpos := hm.periodic
    have hfit' := hfit i hm.holds.used
    rw [← hnow] at hfit'
    simp only [setEntry, set_self]
    rw [saturating_add.exact _ _ (by rw [UInt32.toNat_toUInt64]; omega), UInt32.toNat_toUInt64]
    omega
  next => exact ⟨hfit, lexLt_zero (by simp [rank])⟩

theorem settles {s : Running TimerRun RustPoint} (h : RustInv s.control s.data)
    (hfit : Fits s.data) :
    ∃ tr s', service.system.Steps NoOverflow s tr s' ∧ (∀ l ∈ tr, l = .tau) ∧
      s'.control.busy = false := by
  refine Service.settles (Q := fun s => RustInv s.control s.data ∧ Fits s.data)
    (InvImage.wf rank lexLt_wf) (fun s s' ⟨h, hfit⟩ hstep => ?_) s ⟨h, hfit⟩
  have hc : NoOverflow s .tau := ⟨hfit, trivial⟩
  refine ⟨hc, ?_⟩
  rw [and_assoc]
  refine ⟨RustInv.keeps.step h hc hstep, ?_⟩
  rcases s with ⟨c, d⟩
  obtain ⟨a, d', hl, -⟩ | ⟨hl, -⟩ | ⟨-, rfl, -, rfl⟩ | ⟨d', -, rfl, ht, rfl⟩ |
    ⟨d', k, -, rfl, ht, rfl⟩ | ⟨k, -, rfl, rfl⟩ | ⟨k, hl, -⟩ := service.step_cases hstep
  · cases hl
  · cases hl
  · exact ⟨hfit, lexLt_zero (by simp [rank])⟩
  · obtain ⟨-, hj, he, hlt⟩ := take_history (fun _ => RustPoint.head) ht
    exact ⟨fun i => by rw [he, hj]; exact hfit i, .left _ _ hlt⟩
  · obtain ⟨-, hj, he, hlt⟩ := take_history (fun _ => RustPoint.head) ht
    refine ⟨fun i => by rw [he, hj]; exact hfit i, ?_⟩
    rcases k with _ | ⟨k, now⟩ | ⟨i, now⟩ <;> exact .left _ _ hlt
  · exact handler_rank h hfit
  cases hl
end RustTimer
/-! ### The Rust timers are correct -/
/-- In every state of every run: a pending timer has expired, and its softirq
is raised or the handler is running. Hence every live timer is in the
table; a one-shot timer fires once; no callback is invoked for a timer
that is not live or not yet due; when a softirq run returns, every timer
that was due at an earlier point of the run has been served; and the
handler does not hang between two callbacks. -/
theorem rust_timers_survive_reentrancy {tr : List (Act TimerCall)} {s : Running TimerRun RustPoint}
    (hr : RustTimer.service.system.Reach RustTimer.NoOverflow tr s) :
    (∀ i, (s.data.table.entries i).used = true → (s.data.table.entries i).pending = true →
      (s.data.table.entries i).expires ≤ s.data.table.jiffies ∧
      (s.data.table.pending_mask QOS_SOFTIRQ_TIMER = true ∨ s.control.handling = true)) ∧
    (s.data.history.OnePerSlot ∧ ∀ t ∈ s.data.history.live, Holds (s.data.table.entries t.slot) t) ∧
    (TimerHistory.oneShots s.data.history.fired).Nodup ∧
    (∀ f ∈ s.data.history.fired, ∃ t, f.timer = some t ∧ t.due ≤ f.jiffies) ∧
    (∀ tr' s' s'', RustTimer.service.system.Steps RustTimer.NoOverflow s tr' s' →
      s'.control = .loop → RustTimer.service.step s' .tau = some s'' → s''.control = .idle →
      ∀ t ∈ s.data.history.live, t.due ≤ s.data.table.jiffies.toNat →
        s.data.history.Served s''.data.history t) ∧
    (RustTimer.Fits s.data →
      ∃ tr' s', RustTimer.service.system.Steps RustTimer.NoOverflow s tr' s' ∧
        (∀ l ∈ tr', l = .tau) ∧ s'.control.busy = false) := by
  have hinv := RustTimer.RustInv.of_reach hr
  refine ⟨fun i hu hp => ⟨?_, ?_⟩, ⟨hinv.onePerSlot, fun t ht => ?_⟩, hinv.sound.once,
    hinv.sound.due, fun tr' s' s'' hsteps hloop hstep hidle t ht hdue => ?_,
    fun hfit => RustTimer.settles hinv hfit⟩
  · exact hinv.expired_of_pending hu hp
  · exact hinv.raised_or_handling hu hp
  · exact hinv.holds_of_live ht
  have hinv' := RustTimer.RustInv.of_reach (hr.append_steps hsteps)
  obtain ⟨hsince, hle⟩ := since_of_steps
    (fun s l s' ⟨_, hreach⟩ hc hst => ⟨(RustTimer.RustInv.of_reach hreach).onePerSlot,
      RustTimer.step_history (RustTimer.RustInv.of_reach hreach) hc hst⟩) hr hsteps
  rcases s' with ⟨c, d⟩
  obtain rfl : c = .loop := hloop
  obtain ⟨htake, rfl⟩ := RustTimer.service.return_cases hstep hidle
  exact hsince.served (hinv'.later_of_return htake) ht (hdue.trans hle)

instance (s : Running TimerRun RustPoint) (l : Act TimerCall) :
    Decidable (RustTimer.NoOverflow s l) := by
  rcases l with (_ | _ | _) | _ | _ | _ <;> dsimp only [RustTimer.NoOverflow, RustTimer.Fits] <;>
    infer_instance

/-- A callback adds a timer, cancels another one and returns. -/
theorem rust_timers_survive_reentrancy_callback :
    ∃ s, RustTimer.service.system.Reach RustTimer.NoOverflow [.call (.add 1 0 (some 1) 0),
        .call (.add 9 0 (some 1) 0), .call (.tick 1), .run, .tau, .tau, .tau,
        .call (.add 5 0 (some 1) 0), .call (.cancel 2), .ret] s ∧
      s.data.history.fired.length = 1 ∧ s.data.history.live.map (·.uid) = [2] ∧
      ∀ t ∈ s.data.history.live, Holds (s.data.table.entries t.slot) t :=
  System.exists_execIf (P := fun s => s.data.history.fired.length = 1 ∧
    s.data.history.live.map (·.uid) = [2]) (by decide +kernel)
    fun _ hr hs => ⟨hs.1, hs.2, (rust_timers_survive_reentrancy hr).2.1.2⟩
end QosKernel
