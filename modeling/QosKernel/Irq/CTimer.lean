import QosKernel.Irq.Timer

/-! # The C timers under re-entrancy

The softirq handler of `timer/timer.c` reads the time once and goes over
the table once. It invokes the callback of an expired timer first and
moves the entry on afterwards, so it works on whatever the callback left
in the entry: a timer added there by the callback is dropped, and a
pending flag set by a tick in the callback stays although the expiry
moves on.

`CInv` is the invariant of the runs in which no callback returns with its
entry in such a state and no 64-bit sum overflows.
-/
open Framework
namespace QosKernel
/-- The control points of the handler: the loop at index `i`, the code after
the callback of entry `i`, and the loop that moves its expiry on. -/
inductive CPoint where
  | scan (i : Nat) (now : UInt64)
  | after (i : TimerSlot) (now : UInt64)
  | advance (i : TimerSlot) (now : UInt64)

/-- Where the handler starts. -/
abbrev CPoint.first (table : TimerTable) : CPoint := .scan 0 table.jiffies

namespace CTimer
variable {v v' : SlotView} {now : UInt64} {t : LiveTimer} {k : Nat} {i : TimerSlot}
variable {c : Control CPoint} {s s' : TimerRun}
section
variable (s : TimerRun)
/-- What the handler does with entry `i` after its callback. -/
def afterCallback (i : TimerSlot) (now : UInt64) : TimerRun × Next CPoint :=
  let t := s.table.entries i
  if t.used then
    if t.periodic && t.interval != 0 then (s, .goto (.advance i now))
    else
      -- the flags `periodic` and `pending` are left as they are
      (s.setEntry i
        { t with used := false, callback := none, ctx := 0, interval := 0, expires := 0 },
        .goto (.scan (i + 1) now))
  else (s, .goto (.scan (i + 1) now))

def timer_softirq_handler : CPoint → TimerRun × Next CPoint
  | .scan i now =>
    if h : i < QOS_TIMER_MAX then
      let t := s.table.entries ⟨i, h⟩
      if t.selects now then
        let s' := s.setEntry ⟨i, h⟩ { t with pending := false }
        match t.callback with
        | some _ => (s'.fire ⟨i, h⟩ now, .invoke (.after ⟨i, h⟩ now))
        | none => afterCallback s' ⟨i, h⟩ now
      else (s, .goto (.scan (i + 1) now))
    else (s, .done)
  | .after i now => afterCallback s i now
  | .advance i now =>
    let t := s.table.entries i
    if t.expires ≤ now then
      (s.setEntry i { t with expires := t.expires + t.interval.toUInt64 }, .goto (.advance i now))
    else (s, .goto (.scan (i + 1) now))

/-- The calls: `qos_timer_add`, `qos_timer_cancel` and `qos_timer_tick`. -/
def call : TimerCall → Option TimerRun
  | .add delay_ticks interval_ticks callback ctx =>
    some (if delay_ticks == 0 || callback.isNone then s
      else s.add wrapping_add delay_ticks interval_ticks callback ctx)
  | .cancel timer_id => some (s.cancel timer_id)
  | .tick elapsed_ticks => some (s.tick wrapping_add elapsed_ticks)
end
/-- All runs of the C timers from reset. -/
def service : Service TimerRun TimerCall CPoint where
  init := .reset
  call := call
  take := TimerRun.take fun table => .scan 0 table.jiffies
  tau := timer_softirq_handler
  resume := timer_softirq_handler

/-- What a callback has to leave in its entry `i`, if the entry is in use: a
periodic timer whose next expiry fits in 64 bits and is marked as pending
exactly if a tick has reached it, or the one-shot timer that fired and not
a new one. -/
def ReturnOk (s : TimerRun) (i : TimerSlot) (now : UInt64) : Prop :=
  let t := s.table.entries i
  let next := nextAfter now.toNat t.interval.toNat t.expires.toNat
  t.used = true →
    if t.periodic && t.interval != 0 then
      next < 2 ^ 64 ∧ (t.pending = true ↔ next ≤ s.table.jiffies.toNat)
    else s.history.owner i = none

def Careful (s : Running TimerRun CPoint) : Act TimerCall → Prop
  | .call (.add delay_ticks _ _ _) => s.data.table.jiffies.toNat + delay_ticks.toNat < 2 ^ 64
  | .call (.tick elapsed_ticks) => s.data.table.jiffies.toNat + elapsed_ticks.toNat < 2 ^ 64
  | .ret =>
    match s.control with
    | .callback (.after i now) => ReturnOk s.data i now
    | _ => True
  | _ => True

/-! ### The invariant -/
/-- The entry whose callback runs, or whose expiry is being moved on. -/
def handled : Control CPoint → Option TimerSlot
  | .callback (.after i _) => some i
  | .handler (.advance i _) => some i
  | _ => none

/-- A pending entry waits for a softirq that is raised, or the scan at `k` is
yet to come to it and will select it. -/
def AwaitsFrom (k : Nat) (now : UInt64) (i : TimerSlot) (v : SlotView) : Prop :=
  v.entry.used = true → v.entry.pending = true →
    v.raised = true ∨ (k ≤ i.val ∧ v.entry.expires ≤ now)

/-- The entry whose callback runs: the next expiry of its live timer is already
determined; without a live timer it holds the one-shot timer that fired. -/
def Firing (v : SlotView) (now : UInt64) : Prop :=
  match v.owner with
  | none => v.entry.used = true → (v.entry.periodic && v.entry.interval != 0) = false
  | some t => Holds v.entry t ∧ nextAfter now.toNat t.interval v.entry.expires.toNat = t.due

/-- The entry is on its way to the next expiry of its timer. -/
structure Advancing (v : SlotView) (now : UInt64) (t : LiveTimer) : Prop where
  owner : v.owner = some t
  holds : Holds v.entry t
  periodic : 0 < t.interval
  next : nextAfter now.toNat t.interval v.entry.expires.toNat = t.due
  fits : t.due < 2 ^ 64
  pending : v.entry.pending = true ↔ t.due ≤ v.jiffies

/-- Moving the expiry on does not overflow, and it leads to the same expiry. -/
theorem Advancing.sum (h : Advancing v now t) (hle : v.entry.expires ≤ now) :
    (v.entry.expires + v.entry.interval.toUInt64).toNat =
        v.entry.expires.toNat + v.entry.interval.toNat ∧
      nextAfter now.toNat t.interval (v.entry.expires + v.entry.interval.toUInt64).toNat =
        t.due := by
  rw [UInt64.le_iff_toNat_le] at hle
  have hadd := nextAfter_add h.periodic hle
  have hsum : (v.entry.expires + v.entry.interval.toUInt64).toNat =
      v.entry.expires.toNat + v.entry.interval.toNat := by
    rw [UInt64.toNat_add, UInt32.toNat_toUInt64, Nat.mod_eq_of_lt]
    -- the sum is at most the next expiry
    have hle' : v.entry.expires.toNat + t.interval ≤ nextAfter now.toNat t.interval
        (v.entry.expires.toNat + t.interval) := le_nextAfter
    rw [hadd, h.next] at hle'
    rw [h.holds.interval]
    exact hle'.trans_lt h.fits
  exact ⟨hsum, by rw [hsum, h.holds.interval, hadd, h.next]⟩

def AtControl (s : TimerRun) : Control CPoint → Prop
  | .idle | .loop => ∀ i, (s.view i).Awaits
  | .handler (.scan k now) => now ≤ s.table.jiffies ∧ ∀ i, AwaitsFrom k now i (s.view i)
  | .callback (.after i now) =>
    now ≤ s.table.jiffies ∧ Firing (s.view i) now ∧ (s.view i).Awaits ∧
      ∀ j, j ≠ i → AwaitsFrom (i + 1) now j (s.view j)
  | .handler (.advance i now) =>
    now ≤ s.table.jiffies ∧ (∃ t, Advancing (s.view i) now t) ∧ (s.view i).Awaits ∧
      ∀ j, j ≠ i → AwaitsFrom (i + 1) now j (s.view j)
  | .handler (.after _ _) | .callback _ => False

structure CInv (c : Control CPoint) (s : TimerRun) : Prop where
  onePerSlot : s.history.OnePerSlot
  sound : s.history.Sound
  rest : ∀ i, handled c ≠ some i → SlotOk (s.view i)
  control : AtControl s c

/-! ### Calls -/
theorem AwaitsFrom.move (h : AwaitsFrom k now i v) (hm : SlotMove v v') :
    AwaitsFrom k now i v' := by
  rcases hm with _ | ⟨hunused, hholds, hpend, hexp, hlt⟩ | _ | ⟨hle, hmono, hraise⟩
  · exact h
  · exact fun _ hp => absurd hp (by simp [hpend])
  · exact fun hu => by cases hu
  unfold AwaitsFrom at *
  dsimp only
  split
  next he => exact fun _ _ => .inl (hraise he)
  next => exact fun hu hp => (h hu hp).imp_left hmono

theorem Firing.move (h : Firing v now) (hnow : now.toNat ≤ v.jiffies) (hm : SlotMove v v') :
    Firing v' now := by
  rcases hm with _ | ⟨hunused, hholds, hpend, hexp, hlt⟩ | _ | ⟨hle, hmono, hraise⟩
  · exact h
  · -- the new timer expires after `now`, so its expiry will not be moved on
    refine ⟨hholds, ?_⟩
    dsimp only
    rw [hexp, nextAfter_of_lt (hnow.trans_lt hlt)]
  · exact fun hu => by cases hu
  unfold Firing at *
  dsimp only
  rcases ho : v.owner with _ | t <;> rw [ho] at h <;> dsimp only at h ⊢ <;> split
  · exact h
  · exact h
  · exact ⟨⟨h.1.used, h.1.interval, h.1.periodic, h.1.callback⟩, h.2⟩
  exact h

/-- An entry that is not in use has no live timer, also while its callback
runs. -/
theorem CInv.noOrphan (h : CInv c s) (hb : c.busy = false) : s.NoOrphan := by
  intro i hi
  by_cases hh : handled c = some i
  · rcases c with _ | _ | k | k
    · cases hh
    · cases hb
    · cases hb
    rcases k with ⟨j, now⟩ | ⟨j, now⟩ | ⟨j, now⟩
    · cases hh
    · obtain rfl := Option.some.inj hh
      obtain ⟨-, hf, -⟩ := h.control
      unfold Firing at hf
      rcases ho : s.history.owner j with _ | t
      · rfl
      rw [show (s.view j).owner = some t from ho] at hf
      rw [show (s.table.entries j).used = true from hf.1.used] at hi
      cases hi
    cases hh
  exact (h.rest i hh).owner_none hi

theorem CInv.callMove (h : CInv c s) (hb : c.busy = false) (hm : CallMove s s') : CInv c s' where
  onePerSlot := hm.onePerSlot h.onePerSlot
  sound := hm.sound h.sound
  rest i hi := (h.rest i hi).move (hm.slots i)
  control := by
    have hc := h.control
    rcases c with _ | _ | k | ⟨j, now⟩ | ⟨j, now⟩ | ⟨j, now⟩
    · exact fun i => (hc i).move (hm.slots i)
    · cases hb
    · cases hb
    · exact hc.elim
    · obtain ⟨hnow, hf, ha, hothers⟩ := hc
      rw [UInt64.le_iff_toNat_le] at hnow
      exact ⟨UInt64.le_iff_toNat_le.mpr (hnow.trans hm.later), hf.move hnow (hm.slots j),
        ha.move (hm.slots j), fun i hi => (hothers i hi).move (hm.slots i)⟩
    exact hc.elim

theorem call_move {a : TimerCall} (hs : s.NoOrphan) (hc : Careful ⟨c, s⟩ (.call a))
    (h : call s a = some s') : CallMove s s' := by
  rcases a with ⟨delay_ticks, interval_ticks, callback, ctx⟩ | timer_id | elapsed_ticks
  · unfold call at h
    dsimp only at h
    split at h
    · cases h
      exact .refl s
    next hd =>
    cases h
    simp only [Bool.or_eq_true, not_or, beq_iff_eq, Option.isNone_iff_eq_none] at hd
    exact .add hs ctx hd.1 (Option.isSome_iff_ne_none.mpr hd.2) hc
  · cases h
    exact .cancel s timer_id
  cases h
  exact .tick hc

/-! ### The handler -/
theorem handler_scan (s : TimerRun) (k : Nat) (now : UInt64) :
    (QOS_TIMER_MAX ≤ k ∧ timer_softirq_handler s (.scan k now) = (s, .done)) ∨
    ∃ hk : k < QOS_TIMER_MAX, ((s.table.entries ⟨k, hk⟩).selects now = false ∧
        timer_softirq_handler s (.scan k now) = (s, .goto (.scan (k + 1) now))) ∨
      (s.table.entries ⟨k, hk⟩).selects now = true ∧ ((s.table.entries ⟨k, hk⟩).callback = none ∧
          timer_softirq_handler s (.scan k now) =
            afterCallback (s.setEntry ⟨k, hk⟩ { s.table.entries ⟨k, hk⟩ with pending := false })
              ⟨k, hk⟩ now ∨
        timer_softirq_handler s (.scan k now) =
            ((s.setEntry ⟨k, hk⟩ { s.table.entries ⟨k, hk⟩ with pending := false }).fire
              ⟨k, hk⟩ now, .invoke (.after ⟨k, hk⟩ now))) := by
  by_cases hk : k < QOS_TIMER_MAX
  · refine .inr ⟨hk, ?_⟩
    simp only [timer_softirq_handler, dif_pos hk]
    split
    next hsel =>
      refine .inr ⟨hsel, ?_⟩
      rcases (s.table.entries ⟨k, hk⟩).callback with _ | cb
      · exact .inl ⟨rfl, rfl⟩
      exact .inr rfl
    next hsel => exact .inl ⟨Bool.not_eq_true _ ▸ hsel, rfl⟩
  refine .inl ⟨Nat.not_lt.mp hk, ?_⟩
  simp only [timer_softirq_handler, dif_neg hk]

section
variable (h : CInv (.handler (.scan k now)) s)
include h
theorem CInv.pass (hk : k < QOS_TIMER_MAX) (hsel : (s.table.entries ⟨k, hk⟩).selects now = false) :
    CInv (.handler (.scan (k + 1) now)) s := by
  obtain ⟨hnow, hawait⟩ := h.control
  refine ⟨h.onePerSlot, h.sound, fun i _ => h.rest i (by simp [handled]), hnow, fun i hu hp => ?_⟩
  rcases hawait i hu hp with hr | ⟨hki, hexp⟩
  · exact .inl hr
  rcases Nat.lt_or_eq_of_le hki with hlt | heq
  · exact .inr ⟨hlt, hexp⟩
  obtain rfl : i = ⟨k, hk⟩ := Fin.ext heq.symm
  have hu' : (s.table.entries ⟨k, hk⟩).used = true := hu
  have hp' : (s.table.entries ⟨k, hk⟩).pending = true := hp
  have hexp' : (s.table.entries ⟨k, hk⟩).expires ≤ now := hexp
  simp [TimerEntry.selects, hu', hp', hexp'] at hsel

/-- The callback of a selected entry is invoked. -/
theorem CInv.select (hk : k < QOS_TIMER_MAX) (hsel : (s.table.entries ⟨k, hk⟩).selects now = true) :
    CInv (.callback (.after ⟨k, hk⟩ now))
      ((s.setEntry ⟨k, hk⟩ { s.table.entries ⟨k, hk⟩ with pending := false }).fire ⟨k, hk⟩ now)
    := by
  obtain ⟨hnow, hawait⟩ := h.control
  simp only [TimerEntry.selects, Bool.and_eq_true, decide_eq_true_eq] at hsel
  obtain ⟨⟨hu, hp⟩, hle⟩ := hsel
  obtain ⟨t, ho, hholds, hexp, hpend⟩ :=
    (h.rest ⟨k, hk⟩ (by simp [handled])).owner_of_used (v := s.view _) hu
  have hothers : ∀ j, j ≠ ⟨k, hk⟩ →
      ((s.setEntry ⟨k, hk⟩ { s.table.entries ⟨k, hk⟩ with pending := false }).fire
        ⟨k, hk⟩ now).view j = s.view j := by
    intro j hj
    rw [view_fire_ne (s := s.setEntry _ _) h.onePerSlot hj, view_setEntry_ne hj]
  have hself : ((s.setEntry ⟨k, hk⟩ { s.table.entries ⟨k, hk⟩ with pending := false }).fire
      ⟨k, hk⟩ now).view ⟨k, hk⟩ = _ := view_fire_self (s := s.setEntry _ _) h.onePerSlot ho
  rw [view_setEntry_self] at hself
  have hholds' : Holds { s.table.entries ⟨k, hk⟩ with pending := false } t :=
    hholds.setPending false
  refine ⟨h.onePerSlot.fire _ _ _, h.sound.fire (t := t) ho (hpend.mp hp), fun j hj => ?_,
    hnow, ?_, ?_, fun j hj => ?_⟩
  · have hj' : j ≠ ⟨k, hk⟩ := fun he => hj (by rw [he]; rfl)
    rw [hothers j hj']
    exact h.rest j (by simp [handled])
  · rw [hself]
    unfold Firing
    by_cases hint : t.interval = 0
    · rw [if_pos hint]
      exact fun _ => hholds'.repeats.trans (by simp [hint])
    rw [if_neg hint]
    refine ⟨⟨hholds'.used, hholds'.interval, hholds'.periodic, hholds'.callback⟩, ?_⟩
    rw [← hexp]
    rfl
  · rw [hself]
    exact fun _ hpf => by cases hpf
  rw [hothers j hj]
  intro hju hjp
  refine (hawait j hju hjp).imp_right fun ⟨hkj, he⟩ => ⟨?_, he⟩
  exact Nat.lt_of_le_of_ne hkj fun heq => hj (Fin.ext heq.symm)

theorem CInv.callback_of_selects (hk : k < QOS_TIMER_MAX)
    (hsel : (s.table.entries ⟨k, hk⟩).selects now = true) :
    (s.table.entries ⟨k, hk⟩).callback ≠ none := by
  simp only [TimerEntry.selects, Bool.and_eq_true] at hsel
  obtain ⟨t, -, hholds, -⟩ :=
    (h.rest ⟨k, hk⟩ (by simp [handled])).owner_of_used (v := s.view _) hsel.1.1
  exact Option.isSome_iff_ne_none.mp hholds.callback

theorem CInv.scan :
    CInv (timer_softirq_handler s (.scan k now)).2.control
      (timer_softirq_handler s (.scan k now)).1 := by
  obtain ⟨hk, heq⟩ | ⟨hk, ⟨hsel, heq⟩ | ⟨hsel, ⟨hcb, -⟩ | heq⟩⟩ := handler_scan s k now
  · -- the scan has passed every entry, so a pending one waits for the softirq
    rw [heq]
    refine ⟨h.onePerSlot, h.sound, fun i _ => h.rest i (by simp [handled]), fun i hu hp => ?_⟩
    refine (h.control.2 i hu hp).resolve_right fun ⟨hki, _⟩ => ?_
    exact absurd (hk.trans hki) (Nat.not_le.mpr i.isLt)
  · rw [heq]
    exact h.pass hk hsel
  · exact absurd hcb (h.callback_of_selects hk hsel)
  rw [heq]
  exact h.select hk hsel
end
/-- The slots other than the handled one, when the scan goes on behind it. -/
theorem awaitsFrom_all (hi : (s.view i).Awaits)
    (hothers : ∀ j, j ≠ i → AwaitsFrom (i + 1) now j (s.view j)) :
    ∀ j, AwaitsFrom (i + 1) now j (s.view j) := by
  intro j
  by_cases hj : j = i
  · subst hj
    exact fun hu hp => .inl (hi hu hp)
  exact hothers j hj

/-- The callback returns, and the handler works on the entry it left. -/
theorem CInv.return (h : CInv (.callback (.after i now)) s) (hok : ReturnOk s i now) :
    CInv (afterCallback s i now).2.control (afterCallback s i now).1 := by
  obtain ⟨hnow, hf, ha, hothers⟩ := h.control
  have hrest : ∀ j, j ≠ i → SlotOk (s.view j) := fun j hj =>
    h.rest j fun he => hj (Option.some.inj he).symm
  unfold afterCallback
  unfold ReturnOk at hok
  dsimp only at hok ⊢
  by_cases hu : (s.table.entries i).used = true
  · have hok' := hok hu
    rw [if_pos hu]
    by_cases hper : ((s.table.entries i).periodic && (s.table.entries i).interval != 0) = true
    · rw [if_pos hper] at hok' ⊢
      unfold Firing at hf
      rcases ho : s.history.owner i with _ | t <;>
        rw [show (s.view i).owner = _ from ho] at hf
      · exact absurd (hf hu) (Bool.not_eq_false _ ▸ hper)
      obtain ⟨hholds, hnext⟩ := hf
      have hint : (s.table.entries i).interval.toNat = t.interval := hholds.interval
      have hpos : 0 < t.interval := by
        have hrep : _ = decide (t.interval ≠ 0) := hholds.repeats
        rw [show ((s.view i).entry.periodic && (s.view i).entry.interval != 0) = true from hper]
          at hrep
        exact Nat.pos_of_ne_zero (of_decide_eq_true hrep.symm)
      rw [hint, show nextAfter now.toNat t.interval (s.table.entries i).expires.toNat = t.due
        from hnext] at hok'
      exact ⟨h.onePerSlot, h.sound, fun j hj => hrest j fun he => hj (by rw [he]; rfl), hnow,
        ⟨t, ho, hholds, hpos, hnext, hok'.1, hok'.2⟩, ha, hothers⟩
    -- the one-shot timer that fired leaves the table
    rw [if_neg hper] at hok' ⊢
    refine ⟨h.onePerSlot, h.sound, fun j _ => ?_, hnow, awaitsFrom_all ?_ fun j hj => ?_⟩
    · by_cases hj : j = i
      · subst hj
        rw [view_setEntry_self]
        unfold SlotOk
        rw [show (s.view j).owner = none from hok']
      rw [view_setEntry_ne hj]
      exact hrest j hj
    · rw [view_setEntry_self]
      exact fun hu' => by cases hu'
    rw [view_setEntry_ne hj]
    exact hothers j hj
  rw [if_neg hu]
  have hnone : s.history.owner i = none := h.noOrphan rfl i (Bool.not_eq_true _ ▸ hu)
  refine ⟨h.onePerSlot, h.sound, fun j _ => ?_, hnow, awaitsFrom_all ha hothers⟩
  by_cases hj : j = i
  · subst hj
    unfold SlotOk
    rw [show (s.view j).owner = none from hnone]
    exact Bool.not_eq_true _ ▸ hu
  exact hrest j hj

/-- The expiry moves on by one interval, or it is past `now`. -/
theorem CInv.advance (h : CInv (.handler (.advance i now)) s) :
    CInv (timer_softirq_handler s (.advance i now)).2.control
      (timer_softirq_handler s (.advance i now)).1 := by
  obtain ⟨hnow, ⟨t, hm⟩, ha, hothers⟩ := h.control
  have hrest : ∀ j, j ≠ i → SlotOk (s.view j) := fun j hj =>
    h.rest j fun he => hj (Option.some.inj he).symm
  unfold timer_softirq_handler
  dsimp only
  split
  next hle =>
    obtain ⟨hsum, hnext⟩ := hm.sum hle
    refine ⟨h.onePerSlot, h.sound, fun j hj => ?_, hnow, ⟨t, ?_⟩, ?_, fun j hj => ?_⟩
    · have hj' : j ≠ i := fun he => hj (by rw [he]; rfl)
      rw [view_setEntry_ne hj']
      exact hrest j hj'
    · rw [view_setEntry_self]
      exact ⟨hm.owner, ⟨hm.holds.used, hm.holds.interval, hm.holds.periodic, hm.holds.callback⟩,
        hm.periodic, hnext, hm.fits, hm.pending⟩
    · rw [view_setEntry_self]
      exact ha
    rw [view_setEntry_ne hj]
    exact hothers j hj
  next hgt =>
  have hlt : now.toNat < (s.view i).entry.expires.toNat := by
    rwa [UInt64.le_iff_toNat_le, Nat.not_le] at hgt
  refine ⟨h.onePerSlot, h.sound, fun j _ => ?_, hnow, awaitsFrom_all ha hothers⟩
  by_cases hj : j = i
  · subst hj
    unfold SlotOk
    rw [hm.owner]
    refine ⟨hm.holds, ?_, hm.pending⟩
    rw [← hm.next, nextAfter_of_lt hlt]
  exact hrest j hj

/-! ### Whole runs -/
theorem CInv.keeps : service.Keeps Careful CInv where
  init := ⟨List.nodup_nil, .empty, fun i _ => reset_view_ok i, fun _ hu => by cases hu⟩
  call hb h hc hcall := h.callMove hb (call_move (h.noOrphan hb) hc hcall)
  run h := ⟨h.onePerSlot, h.sound, fun i _ => h.rest i (by simp [handled]), h.control⟩
  idle h _ := ⟨h.onePerSlot, h.sound, fun i _ => h.rest i (by simp [handled]), h.control⟩
  skip {d d'} h ht := by
    obtain ⟨hh, hview⟩ := TimerRun.take_skip CPoint.first ht
    refine ⟨hh ▸ h.onePerSlot, hh ▸ h.sound, fun i _ => ?_, fun i => ?_⟩
    · rw [hview]
      exact h.rest i (by simp [handled])
    rw [hview]
    exact h.control i
  enter {d d' k} h ht := by
    obtain ⟨-, hj, -, -⟩ := TimerRun.take_history CPoint.first ht
    obtain ⟨rfl, hh, hview⟩ := TimerRun.take_enter CPoint.first ht
    refine ⟨hh ▸ h.onePerSlot, hh ▸ h.sound, fun i _ => ?_, hj ▸ UInt64.le_refl _, fun i hu hp => ?_⟩
    · rw [hview]
      exact h.rest i (by simp [handled])
    -- every pending entry has expired, and the scan starts at the first entry
    rw [hview] at hu hp ⊢
    obtain ⟨t, -, -, hexp, hpend⟩ := (h.rest i (by simp [handled])).owner_of_used hu
    exact .inr ⟨Nat.zero_le _, UInt64.le_iff_toNat_le.mpr (hexp.trans_le (hpend.mp hp))⟩
  tau {d k} h hc := by
    rcases k with ⟨k, now⟩ | ⟨i, now⟩ | ⟨i, now⟩
    · exact h.scan
    · exact h.control.elim
    exact h.advance
  ret {d k} h hc := by
    rcases k with ⟨k, now⟩ | ⟨i, now⟩ | ⟨i, now⟩
    · exact h.control.elim
    · exact h.return hc
    exact h.control.elim

theorem CInv.of_reach {tr : List (Act TimerCall)} {s : Running TimerRun CPoint}
    (hr : service.system.Reach Careful tr s) : CInv s.control s.data :=
  CInv.keeps.reach hr

theorem afterCallback_table (s : TimerRun) (i : TimerSlot) (now : UInt64) :
    (afterCallback s i now).1.history = s.history ∧
      (afterCallback s i now).1.table.jiffies = s.table.jiffies ∧
      (afterCallback s i now).1.table.pending_mask = s.table.pending_mask := by
  unfold afterCallback
  dsimp only
  split
  · split <;> exact ⟨rfl, rfl, rfl⟩
  exact ⟨rfl, rfl, rfl⟩

/-- A step of the handler is at most one firing, and the time stands still. -/
theorem handler_history (s : TimerRun) (k : CPoint) :
    s.history.Step (timer_softirq_handler s k).1.history ∧
      (timer_softirq_handler s k).1.table.jiffies = s.table.jiffies := by
  rcases k with ⟨k, now⟩ | ⟨i, now⟩ | ⟨i, now⟩
  · obtain ⟨-, heq⟩ | ⟨hk, ⟨-, heq⟩ | ⟨-, ⟨-, heq⟩ | heq⟩⟩ := handler_scan s k now <;> rw [heq]
    · exact ⟨.stay, rfl⟩
    · exact ⟨.stay, rfl⟩
    · obtain ⟨hh, hj, -⟩ := afterCallback_table (s.setEntry ⟨k, hk⟩
        { s.table.entries ⟨k, hk⟩ with pending := false }) ⟨k, hk⟩ now
      exact ⟨hh ▸ .stay, hj⟩
    exact ⟨.fire _ _ _, rfl⟩
  · obtain ⟨hh, hj, -⟩ := afterCallback_table s i now
    exact ⟨hh ▸ .stay, hj⟩
  unfold timer_softirq_handler
  dsimp only
  split <;> exact ⟨.stay, rfl⟩

/-- A step of a run makes a step of the history, and the time does not go
back. -/
theorem step_history {s s' : Running TimerRun CPoint} {l : Act TimerCall}
    (h : CInv s.control s.data) (hc : Careful s l) (hstep : service.step s l = some s') :
    s.data.history.Step s'.data.history ∧
      s.data.table.jiffies.toNat ≤ s'.data.table.jiffies.toNat := by
  rcases s with ⟨c, d⟩
  obtain ⟨a, d', rfl, hb, hd, rfl⟩ | ⟨-, -, rfl⟩ | ⟨-, -, -, rfl⟩ | ⟨d', -, -, ht, rfl⟩ |
    ⟨d', k, -, -, ht, rfl⟩ | ⟨k, -, -, rfl⟩ | ⟨k, -, -, rfl⟩ := service.step_cases hstep
  · have hm := call_move (h.noOrphan hb) hc hd
    exact ⟨hm.step, hm.later⟩
  · exact ⟨.stay, Nat.le_refl _⟩
  · exact ⟨.stay, Nat.le_refl _⟩
  · obtain ⟨hh, hj, -, -⟩ := TimerRun.take_history CPoint.first ht
    exact ⟨hh ▸ .stay, hj ▸ Nat.le_refl _⟩
  · obtain ⟨hh, hj, -, -⟩ := TimerRun.take_history CPoint.first ht
    exact ⟨hh ▸ .stay, hj ▸ Nat.le_refl _⟩
  · obtain ⟨hh, hj⟩ := handler_history d k
    exact ⟨hh, hj ▸ Nat.le_refl _⟩
  obtain ⟨hh, hj⟩ := handler_history d k
  exact ⟨hh, hj ▸ Nat.le_refl _⟩

/-- When a softirq run returns, no live timer is due. -/
theorem CInv.later_of_return (h : CInv .loop s) (ht : service.take s = none) :
    ∀ t ∈ s.history.live, s.table.jiffies.toNat < t.due :=
  later_of_take_none CPoint.first h.onePerSlot
    (fun i => h.rest i (by simp [handled])) h.control ht

/-- Every live timer is in the table. -/
theorem CInv.holds_of_live (h : CInv c s) (ht : t ∈ s.history.live) :
    Holds (s.table.entries t.slot) t := by
  have ho : (s.view t.slot).owner = some t :=
    (TimerHistory.owner_eq_some h.onePerSlot).mpr ⟨ht, rfl⟩
  by_cases hh : handled c = some t.slot
  · unfold handled at hh
    split at hh
    next j now =>
      obtain rfl := Option.some.inj hh
      obtain ⟨-, hf, -⟩ := h.control
      unfold Firing at hf
      rw [ho] at hf
      exact hf.1
    next j now =>
      obtain rfl := Option.some.inj hh
      obtain ⟨-, ⟨u, hm⟩, -⟩ := h.control
      obtain rfl := Option.some.inj (hm.owner.symm.trans ho)
      exact hm.holds
    next => cases hh
  exact ((h.rest t.slot hh).of_owner ho).1

/-- How much work the handler has before it: vectors that are raised, entries
to scan, and the way to the next expiry. -/
def rank : Running TimerRun CPoint → Nat × Nat × Nat
  | ⟨.idle, _⟩ | ⟨.callback _, _⟩ => (0, 0, 0)
  | ⟨.loop, s⟩ => (raisedCount s.table.pending_mask, 1, 0)
  | ⟨.handler (.scan k _), s⟩ => (raisedCount s.table.pending_mask, 2 * (QOS_TIMER_MAX - k) + 3, 0)
  | ⟨.handler (.after i _), s⟩ => (raisedCount s.table.pending_mask, 2 * (QOS_TIMER_MAX - i) + 3, 0)
  | ⟨.handler (.advance i now), s⟩ =>
    (raisedCount s.table.pending_mask, 2 * (QOS_TIMER_MAX - i) + 2,
      now.toNat + 1 - (s.table.entries i).expires.toNat)

theorem handler_rank {k : CPoint} (h : CInv (.handler k) s) :
    lexLt (rank ⟨(timer_softirq_handler s k).2.control, (timer_softirq_handler s k).1⟩)
      (rank ⟨.handler k, s⟩) := by
  rcases k with ⟨k, now⟩ | ⟨i, now⟩ | ⟨i, now⟩
  · obtain ⟨-, heq⟩ | ⟨hk, ⟨-, heq⟩ | ⟨hsel, ⟨hcb, -⟩ | heq⟩⟩ := handler_scan s k now
    · rw [heq]
      exact .right _ (.left _ _ (by omega))
    · rw [heq]
      exact .right _ (.left _ _ (by omega))
    · exact absurd hcb (h.callback_of_selects hk hsel)
    rw [heq]
    exact lexLt_zero (by simp [rank])
  · exact h.control.elim
  obtain ⟨-, ⟨t, hm⟩, -, -⟩ := h.control
  unfold timer_softirq_handler
  dsimp only
  split
  next hle =>
    refine .right _ (.right _ ?_)
    simp only [TimerRun.setEntry, set_self]
    have hsum : ((s.table.entries i).expires + (s.table.entries i).interval.toUInt64).toNat =
        (s.table.entries i).expires.toNat + (s.table.entries i).interval.toNat := (hm.sum hle).1
    have hint : (s.table.entries i).interval.toNat = t.interval := hm.holds.interval
    have hpos := hm.periodic
    rw [UInt64.le_iff_toNat_le] at hle
    omega
  next =>
  refine .right _ (.left _ _ ?_)
  have := i.isLt
  omega

/-- The handler cannot hang: it comes to a callback or to the end of the
softirq run. -/
theorem settles {s : Running TimerRun CPoint} (h : CInv s.control s.data) :
    ∃ tr s', service.system.Steps Careful s tr s' ∧ (∀ l ∈ tr, l = .tau) ∧
      s'.control.busy = false := by
  refine Service.settles (Q := fun s => CInv s.control s.data)
    (InvImage.wf rank lexLt_wf) (fun s s' h hstep => ?_) s h
  refine ⟨trivial, CInv.keeps.step h (l := .tau) trivial hstep, ?_⟩
  rcases s with ⟨c, d⟩
  obtain ⟨a, d', hl, -⟩ | ⟨hl, -⟩ | ⟨-, rfl, -, rfl⟩ | ⟨d', -, rfl, ht, rfl⟩ |
    ⟨d', k, -, rfl, ht, rfl⟩ | ⟨k, -, rfl, rfl⟩ | ⟨k, hl, -⟩ := service.step_cases hstep
  · cases hl
  · cases hl
  · exact lexLt_zero (by simp [rank])
  · obtain ⟨-, -, -, hlt⟩ := TimerRun.take_history CPoint.first ht
    exact .left _ _ hlt
  · obtain ⟨-, -, -, hlt⟩ := TimerRun.take_history CPoint.first ht
    rcases k with ⟨k, now⟩ | ⟨i, now⟩ | ⟨i, now⟩ <;> exact .left _ _ hlt
  · exact handler_rank h
  cases hl

/-- The timers are correct in a state of a run whose steps meet `cond`: every
live timer is in the table, and when a softirq run returns, every timer
that was due before has been served. -/
def Correct (cond : Running TimerRun CPoint → Act TimerCall → Prop)
    (s : Running TimerRun CPoint) : Prop :=
  (s.data.history.OnePerSlot ∧ ∀ t ∈ s.data.history.live, Holds (s.data.table.entries t.slot) t) ∧
  ∀ tr' s' s'', service.system.Steps cond s tr' s' →
    s'.control = .loop → service.step s' .tau = some s'' → s''.control = .idle →
    ∀ t ∈ s.data.history.live, t.due ≤ s.data.table.jiffies.toNat →
      s.data.history.Served s''.data.history t
end CTimer
/-! ### The C timers are correct in careful runs -/
/-- In every state of a careful run the timers are correct; a callback is
invoked only for a live timer that is due; and the handler does not hang
between two callbacks. -/
theorem c_timers_survive_reentrancy {tr : List (Act TimerCall)} {s : Running TimerRun CPoint}
    (hr : CTimer.service.system.Reach CTimer.Careful tr s) :
    CTimer.Correct CTimer.Careful s ∧
    (∀ f ∈ s.data.history.fired, ∃ t, f.timer = some t ∧ t.due ≤ f.jiffies) ∧
    ∃ tr' s', CTimer.service.system.Steps CTimer.Careful s tr' s' ∧
      (∀ l ∈ tr', l = .tau) ∧ s'.control.busy = false := by
  have hinv := CTimer.CInv.of_reach hr
  refine ⟨⟨⟨hinv.onePerSlot, fun t ht => hinv.holds_of_live ht⟩, ?_⟩, hinv.sound.due,
    CTimer.settles hinv⟩
  intro tr' s' s'' hsteps hloop hstep hidle t ht hdue
  have hinv' := CTimer.CInv.of_reach (hr.append_steps hsteps)
  obtain ⟨hsince, hle⟩ := since_of_steps
    (fun s l s' ⟨_, hreach⟩ hc hst => ⟨(CTimer.CInv.of_reach hreach).onePerSlot,
      CTimer.step_history (CTimer.CInv.of_reach hreach) hc hst⟩) hr hsteps
  rcases s' with ⟨c, d⟩
  obtain rfl : c = .loop := hloop
  obtain ⟨htake, rfl⟩ := CTimer.service.return_cases hstep hidle
  exact hsince.served (hinv'.later_of_return htake) ht (hdue.trans hle)

instance CTimer.decidableCareful (s : Running TimerRun CPoint) (l : Act TimerCall) :
    Decidable (Careful s l) := by
  rcases l with (_ | _ | _) | _ | _ | _
  case ret =>
    rcases s with ⟨_ | _ | _ | (_ | _ | _), d⟩ <;> dsimp only [CTimer.Careful, CTimer.ReturnOk] <;>
      infer_instance
  all_goals
    dsimp only [CTimer.Careful]
    infer_instance

/-- A callback adds a timer, cancels another one and returns. -/
theorem c_timers_survive_reentrancy_callback :
    ∃ s, CTimer.service.system.Reach CTimer.Careful [.call (.add 1 0 (some 1) 0),
        .call (.add 9 0 (some 1) 0), .call (.tick 1), .run, .tau, .tau,
        .call (.add 5 0 (some 1) 0), .call (.cancel 2), .ret] s ∧
      s.data.history.fired.length = 1 ∧ s.data.history.live.map (·.uid) = [2] ∧
      CTimer.Correct CTimer.Careful s :=
  System.exists_execIf (P := fun s => s.data.history.fired.length = 1 ∧
    s.data.history.live.map (·.uid) = [2]) (by decide +kernel)
    fun _ hr hs => ⟨hs.1, hs.2, (c_timers_survive_reentrancy hr).1⟩

/-- The callback of a one-shot timer cancels the timer and adds a new one,
which goes into the same entry. When the callback returns, the handler
clears the entry, and the new timer is lost. -/
theorem c_timer_added_in_callback_lost :
    ¬∀ tr s, CTimer.service.system.Reach anyStep tr s → CTimer.Correct anyStep s := by
  intro h
  have hr : CTimer.service.system.Reach anyStep
      [.call (.add 1 0 (some 1) 0), .call (.tick 1), .run, .tau, .tau,
        .call (.cancel 1), .call (.add 5 0 (some 1) 0), .ret] _ := System.reach_of_exec rfl
  have hlive := (h _ _ hr).1.2 ⟨1, ⟨0, by decide⟩, 0, 6⟩ (by decide)
  exact absurd hlive.used (by decide)
end QosKernel
