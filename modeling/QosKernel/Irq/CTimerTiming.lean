import QosKernel.Irq.CTimer
import Mathlib.Order.Bounds.Basic

/-! # When the C timers fire

Runs in which callbacks make no calls, and times stay below `2 ^ 64`. A
tick marks the timers that it reaches, and the softirq run that follows
fires them. A log of the first expiry of every timer says when a periodic
timer is due next: at the first time after the one at which it fired that
is a whole number of intervals after its first expiry.

* `TimerHistory.Moves` is all that a step of such a run can do to the
  history.
* `TimerHistory.OnSchedule` is kept by these moves.
* `CTimer.TInv` is the invariant of the runs, on top of `CTimer.CInv`.
-/
open Framework
namespace QosKernel
open CTimer
/-! ### Schedules -/
namespace TimerHistory
variable {now uid jiffies : Nat} {i : TimerSlot} {t : LiveTimer}
variable {h h' : TimerHistory} {firsts firsts' : List Nat}
/-- What a step does to the history, and to the first expiries of the timers
added so far. -/
inductive Moves (h : TimerHistory) (firsts : List Nat) : TimerHistory → List Nat → Prop where
  | stay : Moves h firsts h firsts
  | add (i : TimerSlot) (interval due : Nat) :
      Moves h firsts (h.add i interval due) (firsts ++ [due])
  | cancel (i : TimerSlot) : Moves h firsts (h.cancel i) firsts
  | fire {i : TimerSlot} {t : LiveTimer} {now : Nat} :
      h.owner i = some t → t.due ≤ now → Moves h firsts (h.fire i now now) firsts

/-- What a step of a softirq run at the time `now` does. -/
inductive Fires (h : TimerHistory) (now : Nat) : TimerHistory → Prop where
  | stay : Fires h now h
  | fire {i : TimerSlot} {t : LiveTimer} :
      h.owner i = some t → t.due ≤ now → Fires h now (h.fire i now now)

theorem Fires.moves (hf : h.Fires now h') (firsts : List Nat) : h.Moves firsts h' firsts := by
  cases hf with
  | stay => exact .stay
  | fire ho hdue => exact .fire ho hdue

theorem Fires.cancelled (hf : h.Fires now h') : h'.cancelled = h.cancelled := by
  cases hf <;> rfl

/-- The last time a timer fired. -/
def lastFire (h : TimerHistory) (uid : Nat) : Option Fire :=
  h.fired.reverse.find? fun f => f.timer.any fun t => t.uid == uid

theorem lastFire_some {f : Fire} (hf : h.lastFire uid = some f) :
    f ∈ h.fired ∧ ∃ t, f.timer = some t ∧ t.uid = uid := by
  refine ⟨List.mem_reverse.mp (List.mem_of_find?_eq_some hf), ?_⟩
  have huid := List.find?_some hf
  rw [Option.any_eq_true] at huid
  obtain ⟨t, ht, heq⟩ := huid
  exact ⟨t, ht, beq_iff_eq.mp heq⟩

theorem lastFire_fire_self (ho : h.owner i = some t) :
    (h.fire i now jiffies).lastFire t.uid = some ⟨some t, jiffies⟩ := by
  simp [lastFire, fire, ho]

theorem lastFire_fire_ne (ho : h.owner i = some t) (hne : t.uid ≠ uid) :
    (h.fire i now jiffies).lastFire uid = h.lastFire uid := by
  simp [lastFire, fire, ho, hne]

/-- Every timer is due at its first expiry, or some intervals later; once it
has fired, at the first such time behind. Timers that were cancelled are
not live. -/
structure OnSchedule (h : TimerHistory) (firsts : List Nat) : Prop where
  length : firsts.length = h.added
  fired_lt : ∀ f ∈ h.fired, ∀ t, f.timer = some t → t.uid < h.added
  cancelled_lt : ∀ u ∈ h.cancelled, u < h.added
  not_cancelled : ∀ t ∈ h.live, t.uid ∉ h.cancelled
  due : ∀ t ∈ h.live, ∃ k, t.due = firsts.getD t.uid 0 + k * t.interval
  first : ∀ t ∈ h.live, h.lastFire t.uid = none → t.due = firsts.getD t.uid 0
  next : ∀ t ∈ h.live, ∀ f, h.lastFire t.uid = some f →
    IsLeast {e | f.jiffies < e ∧ ∃ k, e = firsts.getD t.uid 0 + k * t.interval} t.due

theorem OnSchedule.empty : OnSchedule empty [] := by constructor <;> simp [TimerHistory.empty]

theorem OnSchedule.add (hs : h.OnSchedule firsts) (hlive : ∀ t ∈ h.live, t.uid < h.added)
    (i : TimerSlot) (interval due : Nat) :
    (h.add i interval due).OnSchedule (firsts ++ [due]) := by
  have hold : ∀ t ∈ h.live, (firsts ++ [due]).getD t.uid 0 = firsts.getD t.uid 0 := by
    intro t ht
    have hlt : t.uid < firsts.length := by
      rw [hs.length]
      exact hlive t ht
    rw [List.getD_eq_getElem?_getD, List.getElem?_append_left hlt, ← List.getD_eq_getElem?_getD]
  have hnew : (firsts ++ [due]).getD h.added 0 = due := by
    rw [← hs.length]
    simp
  have hmem : ∀ {t}, t ∈ (h.add i interval due).live →
      t ∈ h.live ∨ t = ⟨h.added, i, interval, due⟩ := by
    intro t ht
    exact (List.mem_append.mp ht).imp_right List.mem_singleton.mp
  refine ⟨?_, ?_, ?_, ?_, ?_, ?_, ?_⟩
  · rw [List.length_append, hs.length]
    rfl
  · intro f hf t ht
    exact Nat.lt_succ_of_lt (hs.fired_lt f hf t ht)
  · intro u hu
    exact Nat.lt_succ_of_lt (hs.cancelled_lt u hu)
  · intro t ht hc
    rcases hmem ht with ht | rfl
    · exact hs.not_cancelled t ht hc
    exact Nat.lt_irrefl _ (hs.cancelled_lt _ hc)
  · intro t ht
    rcases hmem ht with ht | rfl
    · rw [hold t ht]
      exact hs.due t ht
    exact ⟨0, by rw [hnew, Nat.zero_mul, Nat.add_zero]⟩
  · intro t ht hnone
    rcases hmem ht with ht | rfl
    · rw [hold t ht]
      exact hs.first t ht hnone
    exact hnew.symm
  intro t ht f hf
  rcases hmem ht with ht | rfl
  · rw [hold t ht]
    exact hs.next t ht f hf
  -- the new timer has not fired
  obtain ⟨hfired, u, hu, huid⟩ := lastFire_some (h := h) hf
  exact absurd (hs.fired_lt f hfired u hu) (by rw [huid]; exact Nat.lt_irrefl _)

theorem OnSchedule.cancel (hs : h.OnSchedule firsts) (hsound : h.Sound)
    (i : TimerSlot) : (h.cancel i).OnSchedule firsts := by
  refine ⟨hs.length, hs.fired_lt, ?_, ?_, ?_, ?_, ?_⟩
  · intro u hu
    rcases List.mem_append.mp hu with hu | hu
    · exact hs.cancelled_lt u hu
    obtain ⟨t, ht, rfl⟩ := List.mem_map.mp hu
    exact hsound.live_lt t (List.mem_of_mem_filter ht)
  · intro t ht hc
    obtain ⟨hlive, hslot⟩ := List.mem_filter.mp ht
    rcases List.mem_append.mp hc with hc | hc
    · exact hs.not_cancelled t hlive hc
    obtain ⟨u, hu, huid⟩ := List.mem_map.mp hc
    obtain ⟨hulive, huslot⟩ := List.mem_filter.mp hu
    obtain rfl := List.inj_on_of_nodup_map hsound.uids hulive hlive huid
    simp at hslot huslot
    exact hslot huslot
  · intro t ht
    exact hs.due t (List.mem_of_mem_filter ht)
  · intro t ht hnone
    exact hs.first t (List.mem_of_mem_filter ht) hnone
  intro t ht f hf
  exact hs.next t (List.mem_of_mem_filter ht) f hf

/-- A timer fires, and is due again at the next time of its schedule. -/
theorem OnSchedule.fire (hs : h.OnSchedule firsts) (hsound : h.Sound) (hone : h.OnePerSlot)
    (ho : h.owner i = some t) (hdue : t.due ≤ now) : (h.fire i now now).OnSchedule firsts := by
  obtain ⟨ht, hslot⟩ := owner_some ho
  obtain ⟨k, hk⟩ := hs.due t ht
  -- what is live afterwards is another timer, or the one that fired with its next expiry
  have hmem : ∀ {u}, u ∈ (h.fire i now now).live → u ∈ h.live ∧ t.uid ≠ u.uid ∨
      0 < t.interval ∧ u = { t with due := nextAfter now t.interval t.due } := by
    intro u hu
    obtain ⟨v, hv, hafter⟩ := mem_fire.mp hu
    by_cases hvi : v.slot = i
    · obtain rfl : t = v := Option.some.inj (ho.symm.trans ((owner_eq_some hone).mpr ⟨hv, hvi⟩))
      unfold afterFire at hafter
      rw [if_pos hvi] at hafter
      split at hafter
      · cases hafter
      next hne => exact .inr ⟨Nat.pos_of_ne_zero hne, (Option.some.inj hafter).symm⟩
    unfold afterFire at hafter
    rw [if_neg hvi] at hafter
    cases hafter
    refine .inl ⟨hv, fun huid => hvi ?_⟩
    rw [← List.inj_on_of_nodup_map hsound.uids ht hv huid]
    exact hslot
  refine ⟨hs.length, ?_, hs.cancelled_lt, ?_, ?_, ?_, ?_⟩
  · intro f hf u hu
    rcases List.mem_append.mp hf with hf | hf
    · exact hs.fired_lt f hf u hu
    rw [List.mem_singleton.mp hf] at hu
    rw [ho] at hu
    cases hu
    exact hsound.live_lt t ht
  · intro u hu
    rcases hmem hu with ⟨hlive, -⟩ | ⟨-, rfl⟩
    · exact hs.not_cancelled u hlive
    exact hs.not_cancelled t ht
  · intro u hu
    rcases hmem hu with ⟨hlive, -⟩ | ⟨-, rfl⟩
    · exact hs.due u hlive
    obtain ⟨m, hm⟩ := nextAfter_eq_add now t.interval t.due
    refine ⟨k + m, ?_⟩
    dsimp only
    rw [hm, hk, Nat.add_mul, Nat.add_assoc]
  · intro u hu hnone
    rcases hmem hu with ⟨hlive, hne⟩ | ⟨-, rfl⟩
    · rw [lastFire_fire_ne ho hne] at hnone
      exact hs.first u hlive hnone
    rw [lastFire_fire_self ho] at hnone
    cases hnone
  intro u hu f hf
  rcases hmem hu with ⟨hlive, hne⟩ | ⟨hpos, rfl⟩
  · rw [lastFire_fire_ne ho hne] at hf
    exact hs.next u hlive f hf
  rw [lastFire_fire_self ho] at hf
  cases hf
  obtain ⟨m, hm⟩ := nextAfter_eq_add now t.interval t.due
  refine ⟨⟨lt_nextAfter hpos, k + m, ?_⟩, ?_⟩
  · dsimp only
    rw [hm, hk, Nat.add_mul, Nat.add_assoc]
  rintro e ⟨hlt, n, rfl⟩
  dsimp only at hlt ⊢
  -- the time lies behind the expiry, so it is some intervals later
  have hkn : k < n := by
    by_contra hle
    have := Nat.mul_le_mul_right t.interval (Nat.not_lt.mp hle)
    omega
  have hsplit : firsts.getD t.uid 0 + n * t.interval = t.due + (n - k) * t.interval := by
    rw [hk, Nat.add_assoc, ← Nat.add_mul, Nat.add_sub_cancel' hkn.le]
  rw [hsplit] at hlt ⊢
  exact nextAfter_least hdue hlt

theorem Moves.onSchedule (hm : h.Moves firsts h' firsts') (hs : h.OnSchedule firsts)
    (hsound : h.Sound) (hone : h.OnePerSlot) : h'.OnSchedule firsts' := by
  cases hm with
  | stay => exact hs
  | add i interval due => exact hs.add hsound.live_lt i interval due
  | cancel i => exact hs.cancel hsound i
  | fire ho hdue => exact hs.fire hsound hone ho hdue

theorem Moves.step (hm : h.Moves firsts h' firsts') : h.Step h' := by
  cases hm with
  | stay => exact .stay
  | add i interval due => exact .add i interval due
  | cancel i => exact .cancel i
  | fire _ _ => exact .fire _ _ _

/-- Only timers that are live fire, and cancels are not forgotten. -/
theorem Moves.fires_live (hm : h.Moves firsts h' firsts') : (∀ u ∈ h.cancelled, u ∈ h'.cancelled) ∧
    (h'.fired = h.fired ∨ ∃ t ∈ h.live, ∃ now, h'.fired = h.fired ++ [⟨some t, now⟩]) := by
  cases hm with
  | stay | add i interval due => exact ⟨fun _ hu => hu, .inl rfl⟩
  | cancel i => exact ⟨fun _ hu => List.mem_append_left _ hu, .inl rfl⟩
  | @fire i t now ho hdue =>
  refine ⟨fun _ hu => hu, .inr ⟨t, (owner_some ho).1, now, ?_⟩⟩
  rw [TimerHistory.fire, ho]
end TimerHistory
/-! ### Runs -/
namespace CTimer
variable {s s' : Running TimerRun CPoint} {a : TimerCall} {i : TimerSlot} {now : UInt64}
variable {l : Act TimerCall} {k : CPoint} {firsts : List Nat} {tr : List (Act TimerCall)}
/-- The next expiry of a periodic timer fits in 64 bits. -/
def NextFits (s : TimerRun) (i : TimerSlot) (now : UInt64) : Prop :=
  let t := s.table.entries i
  (t.periodic && t.interval != 0) = true →
    nextAfter now.toNat t.interval.toNat t.expires.toNat < 2 ^ 64

/-- Calls are made outside of callbacks only, and no time reaches `2 ^ 64`. -/
def Timely (s : Running TimerRun CPoint) : Act TimerCall → Prop
  | .call (.add delay_ticks _ _ _) =>
    s.control = .idle ∧ s.data.table.jiffies.toNat + delay_ticks.toNat < 2 ^ 64
  | .call (.cancel _) => s.control = .idle
  | .call (.tick elapsed_ticks) =>
    s.control = .idle ∧ s.data.table.jiffies.toNat + elapsed_ticks.toNat < 2 ^ 64
  | .ret =>
    match s.control with
    | .callback (.after i now) => NextFits s.data i now
    | _ => True
  | .run | .tau => True

/-- The time has not moved since the handler was entered, and a callback leaves
its entry alone. -/
def Quiet (s : TimerRun) : Control CPoint → Prop
  | .handler (.scan _ now) | .handler (.advance _ now) | .handler (.after _ now) =>
    now = s.table.jiffies
  | .callback (.after i now) => now = s.table.jiffies ∧ (s.table.entries i).pending = false ∧
      ∀ t, s.history.owner i = some t → 0 < t.interval
  | .idle | .loop | .callback _ => True

structure TInv (c : Control CPoint) (s : TimerRun) : Prop where
  inv : CInv c s
  quiet : Quiet s c

theorem Timely.idle (hc : Timely s (.call a)) : s.control = .idle := by
  cases a with
  | add => exact hc.1
  | cancel => exact hc
  | tick => exact hc.1

theorem TInv.returnOk {s : TimerRun} (h : TInv (.callback (.after i now)) s)
    (hfits : NextFits s i now) : ReturnOk s i now := by
  obtain ⟨rfl, hpending, hperiodic⟩ := h.quiet
  obtain ⟨-, hfiring, -⟩ := h.inv.control
  intro _
  split
  next hper =>
    have hpos : 0 < (s.table.entries i).interval.toNat := by
      simp only [Bool.and_eq_true, bne_iff_ne, ne_eq] at hper
      exact Nat.pos_of_ne_zero fun h0 => hper.2 (UInt32.toNat_inj.mp h0)
    refine ⟨hfits hper, ?_⟩
    rw [hpending]
    have hlt : s.table.jiffies.toNat < nextAfter s.table.jiffies.toNat
        (s.table.entries i).interval.toNat (s.table.entries i).expires.toNat := lt_nextAfter hpos
    constructor
    · intro hp
      cases hp
    intro hle
    exact absurd hle (Nat.not_le.mpr hlt)
  next hper =>
  cases ho : s.history.owner i with
  | none => rfl
  | some t =>
  -- a timer that is still there is periodic
  unfold Firing at hfiring
  rw [show (s.view i).owner = some t from ho] at hfiring
  have hrepeats := hfiring.1.repeats
  rw [decide_eq_true (Nat.pos_iff_ne_zero.mp (hperiodic t ho))] at hrepeats
  exact absurd hrepeats hper

theorem TInv.careful (h : TInv s.control s.data) (hc : Timely s l) : Careful s l := by
  obtain ⟨c, d⟩ := s
  cases l with
  | call a =>
    cases a with
    | add => exact hc.2
    | cancel => trivial
    | tick => exact hc.2
  | run | tau => trivial
  | ret =>
  rcases c with _ | _ | k | ⟨k, now⟩ | ⟨i, now⟩ | ⟨i, now⟩
  · trivial
  · trivial
  · trivial
  · trivial
  · exact h.returnOk hc
  trivial

/-! ### The steps of a softirq run -/
theorem quiet_afterCallback {s : TimerRun} (h : now = s.table.jiffies) :
    Quiet (afterCallback s i now).1 (afterCallback s i now).2.control := by
  unfold afterCallback
  dsimp only
  split
  · split
    all_goals exact h
  exact h

theorem TInv.quiet_scan {s : TimerRun} {k : Nat} (h : TInv (.handler (.scan k now)) s) :
    Quiet (timer_softirq_handler s (.scan k now)).1
      (timer_softirq_handler s (.scan k now)).2.control := by
  have hnow : now = s.table.jiffies := h.quiet
  obtain ⟨-, heq⟩ | ⟨hk, ⟨-, heq⟩ | ⟨hsel, ⟨hcb, -⟩ | heq⟩⟩ := handler_scan s k now
  · rw [heq]
    trivial
  · rw [heq]
    exact hnow
  · exact absurd hcb (h.inv.callback_of_selects hk hsel)
  rw [heq]
  simp only [TimerEntry.selects, Bool.and_eq_true] at hsel
  obtain ⟨t, ho, -⟩ :=
    (h.inv.rest ⟨k, hk⟩ (by simp [handled])).owner_of_used (v := s.view _) hsel.1.1
  refine ⟨hnow, by simp [TimerRun.fire, TimerRun.setEntry], ?_⟩
  intro u hu
  have hu' : (s.history.fire ⟨k, hk⟩ now.toNat s.table.jiffies.toNat).owner ⟨k, hk⟩ = some u := hu
  rw [TimerHistory.owner_fire_self h.inv.onePerSlot ho] at hu'
  split at hu'
  · cases hu'
  next hne =>
  cases hu'
  exact Nat.pos_of_ne_zero hne

theorem TInv.quiet_advance {s : TimerRun} (h : TInv (.handler (.advance i now)) s) :
    Quiet (timer_softirq_handler s (.advance i now)).1
      (timer_softirq_handler s (.advance i now)).2.control := by
  unfold timer_softirq_handler
  dsimp only
  split
  all_goals exact h.quiet

theorem TInv.keeps : service.Keeps Timely TInv where
  init := ⟨CInv.keeps.init, trivial⟩
  call {c d a d'} hb h hc hcall := by
    have hidle : c = .idle := hc.idle
    subst hidle
    exact ⟨CInv.keeps.call hb h.inv (h.careful (s := ⟨.idle, d⟩) hc) hcall, trivial⟩
  run h := ⟨CInv.keeps.run h.inv, trivial⟩
  idle h ht := ⟨CInv.keeps.idle h.inv ht, trivial⟩
  skip h ht := ⟨CInv.keeps.skip h.inv ht, trivial⟩
  enter {d d' k} h ht := by
    refine ⟨CInv.keeps.enter h.inv ht, ?_⟩
    obtain ⟨-, hj, -⟩ := TimerRun.take_history CPoint.first ht
    obtain ⟨rfl, -⟩ := TimerRun.take_enter CPoint.first ht
    exact hj.symm
  tau {d k} h hc := by
    refine ⟨CInv.keeps.tau h.inv trivial, ?_⟩
    rcases k with ⟨k, now⟩ | ⟨i, now⟩ | ⟨i, now⟩
    · exact h.quiet_scan
    · exact h.inv.control.elim
    exact h.quiet_advance
  ret {d k} h hc := by
    refine ⟨CInv.keeps.ret h.inv (h.careful (s := ⟨.callback k, d⟩) hc), ?_⟩
    rcases k with ⟨k, now⟩ | ⟨i, now⟩ | ⟨i, now⟩
    · exact h.inv.control.elim
    · exact quiet_afterCallback h.quiet.1
    exact h.inv.control.elim

/-- A step of the handler fires a timer that is due, or none. -/
theorem TInv.handler_fires {s : TimerRun} (h : TInv (.handler k) s) :
    s.history.Fires s.table.jiffies.toNat (timer_softirq_handler s k).1.history := by
  rcases k with ⟨k, now⟩ | ⟨i, now⟩ | ⟨i, now⟩
  · have hnow : now = s.table.jiffies := h.quiet
    subst hnow
    obtain ⟨-, heq⟩ | ⟨hk, ⟨-, heq⟩ | ⟨hsel, ⟨hcb, -⟩ | heq⟩⟩ := handler_scan s k s.table.jiffies
    · rw [heq]
      exact .stay
    · rw [heq]
      exact .stay
    · exact absurd hcb (h.inv.callback_of_selects hk hsel)
    rw [heq]
    simp only [TimerEntry.selects, Bool.and_eq_true] at hsel
    obtain ⟨t, ho, -, -, hpend⟩ :=
      (h.inv.rest ⟨k, hk⟩ (by simp [handled])).owner_of_used (v := s.view _) hsel.1.1
    exact .fire ho (hpend.mp hsel.1.2)
  · exact h.inv.control.elim
  unfold timer_softirq_handler
  dsimp only
  split
  all_goals exact .stay

/-- The steps of a softirq run only fire timers, and time stands still. -/
theorem TInv.own_fires (h : TInv s.control s.data) (hl : l = .run ∨ l = .tau ∨ l = .ret)
    (hstep : service.step s l = some s') :
    s.data.history.Fires s.data.table.jiffies.toNat s'.data.history ∧
      s'.data.table.jiffies = s.data.table.jiffies := by
  obtain ⟨c, d⟩ := s
  obtain ⟨a, d', rfl, -⟩ | ⟨-, -, rfl⟩ | ⟨-, -, -, rfl⟩ | ⟨d', -, -, ht, rfl⟩ |
    ⟨d', k, -, -, ht, rfl⟩ | ⟨k, -, rfl, rfl⟩ | ⟨k, -, rfl, rfl⟩ := service.step_cases hstep
  · rcases hl with hl | hl | hl <;> cases hl
  · exact ⟨.stay, rfl⟩
  · exact ⟨.stay, rfl⟩
  · obtain ⟨hh, hj, -⟩ := TimerRun.take_history CPoint.first ht
    rw [hh, hj]
    exact ⟨.stay, rfl⟩
  · obtain ⟨hh, hj, -⟩ := TimerRun.take_history CPoint.first ht
    rw [hh, hj]
    exact ⟨.stay, rfl⟩
  · exact ⟨h.handler_fires, (handler_history d k).2⟩
  rcases k with ⟨k, now⟩ | ⟨i, now⟩ | ⟨i, now⟩
  · exact h.inv.control.elim
  · obtain ⟨hh, hj, -⟩ := afterCallback_table d i now
    refine ⟨?_, hj⟩
    change d.history.Fires _ (afterCallback d i now).1.history
    rw [hh]
    exact .stay
  exact h.inv.control.elim

/-! ### Whole runs -/
/-- The first expiries of the timers added so far. -/
def noteFirst (firsts : List Nat) (s : Running TimerRun CPoint) : Act TimerCall → List Nat
  | .call (.add delay_ticks interval_ticks callback ctx) =>
    if delay_ticks == 0 || callback.isNone then firsts
    else
      match s.data.table.add wrapping_add delay_ticks interval_ticks callback ctx with
      | none => firsts
      | some _ => firsts ++ [s.data.table.jiffies.toNat + delay_ticks.toNat]
  | _ => firsts

/-- The timers with the first expiries on record. -/
def timed : System (Running TimerRun CPoint × List Nat) (Act TimerCall) :=
  service.system.logged [] noteFirst

theorem call_moves (hstep : service.step s (.call a) = some s') (firsts : List Nat) :
    s.data.history.Moves firsts s'.data.history (noteFirst firsts s (.call a)) := by
  obtain ⟨a', d', heq, -, hcall, rfl⟩ | ⟨hl, -⟩ | ⟨hl, -⟩ | ⟨d', hl, -⟩ | ⟨d', k, hl, -⟩ |
    ⟨k, hl, -⟩ | ⟨k, hl, -⟩ := service.step_cases hstep
  · cases heq
    cases a with
    | add delay_ticks interval_ticks callback ctx =>
      unfold noteFirst
      dsimp only [service, call] at hcall ⊢
      by_cases hrefused : (delay_ticks == 0 || callback.isNone) = true
      · rw [if_pos hrefused] at hcall ⊢
        cases hcall
        exact .stay
      rw [if_neg hrefused] at hcall ⊢
      cases hcall
      unfold TimerRun.add
      cases s.data.table.add wrapping_add delay_ticks interval_ticks callback ctx with
      | none => exact .stay
      | some r => exact .add _ _ _
    | cancel timer_id =>
      cases hcall
      change s.data.history.Moves firsts (s.data.cancel timer_id).history firsts
      unfold TimerRun.cancel
      cases s.data.table.cancel timer_id with
      | none => exact .stay
      | some r => exact .cancel _
    | tick elapsed_ticks =>
    cases hcall
    exact .stay
  all_goals cases hl

theorem TInv.moves (h : TInv s.control s.data) (hstep : service.step s l = some s')
    (firsts : List Nat) : s.data.history.Moves firsts s'.data.history (noteFirst firsts s l) := by
  cases l with
  | call a => exact call_moves hstep firsts
  | run => exact (h.own_fires (.inl rfl) hstep).1.moves firsts
  | tau => exact (h.own_fires (.inr (.inl rfl)) hstep).1.moves firsts
  | ret => exact (h.own_fires (.inr (.inr rfl)) hstep).1.moves firsts

/-- What holds in every state of a run. -/
structure Timed (x : Running TimerRun CPoint × List Nat) : Prop where
  inv : TInv x.1.control x.1.data
  schedule : x.1.data.history.OnSchedule x.2

theorem Timed.step (h : Timed (s, firsts)) (hc : Timely s l) (hstep : service.step s l = some s') :
    Timed (s', noteFirst firsts s l) :=
  ⟨TInv.keeps.step h.inv hc hstep,
    (h.inv.moves hstep firsts).onSchedule h.schedule h.inv.inv.sound h.inv.inv.onePerSlot⟩

theorem timed_of_reach {x : Running TimerRun CPoint × List Nat}
    (hr : timed.Reach (fun x l => Timely x.1 l) tr x) : Timed x := by
  refine hr.invariant Timed ⟨TInv.keeps.init, .empty⟩ ?_
  rintro ⟨s, firsts⟩ l ⟨s', firsts'⟩ h hc hstep
  obtain ⟨hstep', hlog⟩ := System.logged_step_some hstep
  dsimp only at hlog
  subst hlog
  exact h.step hc hstep'

/-- Along a run, only timers that were not cancelled before it fire. -/
theorem Timed.fires_after (h : Timed (s, firsts)) (hs : service.system.Steps Timely s tr s') :
    (∃ firsts', Timed (s', firsts')) ∧
    (∀ u ∈ s.data.history.cancelled, u ∈ s'.data.history.cancelled) ∧
    s.data.history.fired.length ≤ s'.data.history.fired.length ∧
    ∀ f ∈ s'.data.history.fired.drop s.data.history.fired.length,
      ∀ t, f.timer = some t → t.uid ∉ s.data.history.cancelled := by
  induction hs with
  | refl =>
    refine ⟨⟨firsts, h⟩, fun _ hu => hu, Nat.le_refl _, ?_⟩
    intro f hf
    rw [List.drop_length] at hf
    cases hf
  | @step tr s₁ s₂ l _ hc hstep ih =>
  obtain ⟨⟨firsts', h'⟩, hsub, hle, hold⟩ := ih
  obtain ⟨hkeep, hfired⟩ := (h'.inv.moves hstep firsts').fires_live
  refine ⟨⟨_, h'.step hc hstep⟩, fun u hu => hkeep u (hsub u hu), ?_⟩
  rcases hfired with heq | ⟨t, ht, now, heq⟩
  · rw [heq]
    exact ⟨hle, hold⟩
  rw [heq, List.length_append, List.drop_append_of_le_length hle]
  refine ⟨Nat.le_add_right_of_le hle, ?_⟩
  intro f hf u hu
  rcases List.mem_append.mp hf with hf | hf
  · exact hold f hf u hu
  rw [List.mem_singleton.mp hf] at hu
  cases hu
  intro hcancel
  exact h'.schedule.not_cancelled t ht (hsub _ hcancel)

/-! ### One softirq run -/
/-- From its start to its end, a softirq run serves every timer that is due. -/
theorem Timed.served {s₁ : Running TimerRun CPoint} (h : Timed (s, firsts))
    (hrun : service.step s .run = some s₁) (hs : service.system.Steps Timely s₁ tr s')
    (hown : ∀ l ∈ tr, l = .tau ∨ l = .ret) (hidle : s'.control = .idle) {t : LiveTimer}
    (ht : t ∈ s.data.history.live) (hdue : t.due ≤ s.data.table.jiffies.toNat) :
    ∃ f ∈ s'.data.history.fired.drop s.data.history.fired.length, f.timer = some t := by
  have hinv₁ : TInv s₁.control s₁.data :=
    TInv.keeps.step h.inv (show Timely s .run from trivial) hrun
  obtain ⟨-, rfl⟩ := service.run_cases hrun
  -- when the run has returned, no timer is due any more
  have hend : TInv s'.control s'.data ∧ s.data.history.Since s'.data.history ∧
      s'.data.history.cancelled = s.data.history.cancelled ∧
      s'.data.table.jiffies = s.data.table.jiffies ∧
      (s'.control = .idle → ∀ u ∈ s'.data.history.live, s.data.table.jiffies.toNat < u.due) := by
    clear hidle
    induction hs with
    | refl =>
      refine ⟨hinv₁, .refl _, rfl, rfl, ?_⟩
      intro hidle
      cases hidle
    | @step tr s₂ s₃ l _ hc hstep ih =>
    obtain ⟨hinv, hsince, hcancel, hj, -⟩ := ih fun m hm => hown m (List.mem_append_left _ hm)
    have hl := hown l (List.mem_append_right _ (List.mem_singleton_self l))
    obtain ⟨hfires, hj'⟩ := hinv.own_fires (.inr hl) hstep
    refine ⟨TInv.keeps.step hinv hc hstep, hsince.step hinv.inv.onePerSlot (hfires.moves []).step,
      hfires.cancelled.trans hcancel, hj'.trans hj, ?_⟩
    intro hidle
    obtain ⟨hloop, htake, rfl⟩ := service.idle_cases hstep hl hidle
    rw [hloop] at hinv
    rw [← hj]
    exact hinv.inv.later_of_return htake
  obtain ⟨-, hsince, hcancel, -, hlater⟩ := hend
  rcases hsince.served (hlater hidle) ht hdue with hc | hf
  · rw [hcancel] at hc
    exact absurd hc (h.schedule.not_cancelled t ht)
  exact hf

/-- The work that is left, also while a callback runs: it comes before the way
to the next expiry. -/
def workLeft : Running TimerRun CPoint → Nat × Nat × Nat
  | ⟨.callback (.after i now), s⟩ =>
    (raisedCount s.table.pending_mask, 2 * (QOS_TIMER_MAX - i) + 2, now.toNat + 2)
  | s => rank s

theorem TInv.workLeft_handler {s : TimerRun} (h : TInv (.handler k) s) :
    lexLt (workLeft ⟨(timer_softirq_handler s k).2.control, (timer_softirq_handler s k).1⟩)
      (workLeft ⟨.handler k, s⟩) := by
  have hrank := handler_rank h.inv
  rcases k with ⟨k, now⟩ | ⟨i, now⟩ | ⟨i, now⟩
  · obtain ⟨-, heq⟩ | ⟨hk, ⟨-, heq⟩ | ⟨hsel, ⟨hcb, -⟩ | heq⟩⟩ := handler_scan s k now
    · rw [heq] at hrank ⊢
      exact hrank
    · rw [heq] at hrank ⊢
      exact hrank
    · exact absurd hcb (h.inv.callback_of_selects hk hsel)
    rw [heq]
    exact .right _ (.left _ _ (Nat.lt_succ_self _))
  · exact h.inv.control.elim
  unfold timer_softirq_handler at hrank ⊢
  dsimp only at hrank ⊢
  split at hrank
  next hle =>
    rw [if_pos hle]
    exact hrank
  next hgt =>
  rw [if_neg hgt]
  exact hrank

theorem workLeft_afterCallback (s : TimerRun) (i : TimerSlot) (now : UInt64) :
    lexLt (workLeft ⟨(afterCallback s i now).2.control, (afterCallback s i now).1⟩)
      (workLeft ⟨.callback (.after i now), s⟩) := by
  have hi := i.isLt
  unfold afterCallback
  dsimp only
  split
  · split
    · refine .right _ (.right _ ?_)
      omega
    refine .right _ (.left _ _ ?_)
    omega
  refine .right _ (.left _ _ ?_)
  omega

/-- A softirq run does not hang: it returns, unless the next expiry of a timer
that fires does not fit. -/
theorem TInv.returns (h : TInv s.control s.data) :
    ∃ tr s', service.system.Steps Timely s tr s' ∧ (∀ l ∈ tr, l = .tau ∨ l = .ret) ∧
      (s'.control = .idle ∨ ∃ k, s'.control = .callback k ∧ ¬Timely s' .ret) := by
  refine Service.finishes (Q := fun s => TInv s.control s.data)
    (InvImage.wf workLeft lexLt_wf) ?_ (fun _ => trivial) s h
  intro s l s' h hl hc hstep
  refine ⟨TInv.keeps.step h hc hstep, ?_⟩
  obtain ⟨c, d⟩ := s
  obtain ⟨a, d', rfl, -⟩ | ⟨rfl, -⟩ | ⟨-, rfl, -, rfl⟩ | ⟨d', -, rfl, ht, rfl⟩ |
    ⟨d', k, -, rfl, ht, rfl⟩ | ⟨k, -, rfl, rfl⟩ | ⟨k, -, rfl, rfl⟩ := service.step_cases hstep
  · rcases hl with hl | hl <;> cases hl
  · rcases hl with hl | hl <;> cases hl
  · exact lexLt_zero (by simp [workLeft, rank])
  · obtain ⟨-, -, -, hlt⟩ := TimerRun.take_history CPoint.first ht
    exact .left _ _ hlt
  · obtain ⟨-, -, -, hlt⟩ := TimerRun.take_history CPoint.first ht
    rcases k with ⟨k, now⟩ | ⟨i, now⟩ | ⟨i, now⟩ <;> exact .left _ _ hlt
  · exact h.workLeft_handler
  rcases k with ⟨k, now⟩ | ⟨i, now⟩ | ⟨i, now⟩
  · exact h.inv.control.elim
  · exact workLeft_afterCallback d i now
  exact h.inv.control.elim

/-- The timers are on time in a state of a run, with the first expiries of all
timers that were added. -/
structure OnTime (s : Running TimerRun CPoint) (firsts : List Nat) : Prop where
  /-- A callback is invoked for a live timer whose expiry has passed. -/
  notEarly : ∀ f ∈ s.data.history.fired, ∃ t, f.timer = some t ∧ t.due ≤ f.jiffies
  /-- From now on, no timer that was cancelled fires. -/
  notCancelled : ∀ tr s', service.system.Steps Timely s tr s' →
    ∀ f ∈ s'.data.history.fired.drop s.data.history.fired.length,
      ∀ t, f.timer = some t → t.uid ∉ s.data.history.cancelled
  /-- No one-shot timer has fired twice. -/
  once : (TimerHistory.oneShots s.data.history.fired).Nodup
  /-- A softirq run that starts now fires every timer that is due. -/
  served : ∀ s₁ tr s', service.step s .run = some s₁ → service.system.Steps Timely s₁ tr s' →
    (∀ l ∈ tr, l = .tau ∨ l = .ret) → s'.control = .idle →
    ∀ t ∈ s.data.history.live, t.due ≤ s.data.table.jiffies.toNat →
      ∃ f ∈ s'.data.history.fired.drop s.data.history.fired.length, f.timer = some t
  /-- It returns, unless an expiry does not fit. -/
  returns : ∀ s₁, service.step s .run = some s₁ →
    ∃ tr s', service.system.Steps Timely s₁ tr s' ∧ (∀ l ∈ tr, l = .tau ∨ l = .ret) ∧
      (s'.control = .idle ∨ ∃ k, s'.control = .callback k ∧ ¬Timely s' .ret)
  /-- The table has the expiry of every timer, -/
  expiry : ∀ t ∈ s.data.history.live, handled s.control ≠ some t.slot →
    (s.data.table.entries t.slot).expires.toNat = t.due
  /-- which is the first one as long as the timer has not fired, -/
  first : ∀ t ∈ s.data.history.live, s.data.history.lastFire t.uid = none →
    t.due = firsts.getD t.uid 0
  /-- and then the next one of its schedule. -/
  next : ∀ t ∈ s.data.history.live, ∀ f, s.data.history.lastFire t.uid = some f →
    IsLeast {e | f.jiffies < e ∧ ∃ k, e = firsts.getD t.uid 0 + k * t.interval} t.due

theorem Timed.onTime (h : Timed (s, firsts)) : OnTime s firsts where
  notEarly := h.inv.inv.sound.due
  notCancelled _ _ hs := (h.fires_after hs).2.2.2
  once := h.inv.inv.sound.once
  served _ _ _ hrun hs hown hidle _ ht hdue := h.served hrun hs hown hidle ht hdue
  returns s₁ hrun := by
    have hinv : TInv s₁.control s₁.data :=
      TInv.keeps.step h.inv (show Timely s .run from trivial) hrun
    exact hinv.returns
  expiry t ht hh := by
    have ho : (s.data.view t.slot).owner = some t :=
      (TimerHistory.owner_eq_some h.inv.inv.onePerSlot).mpr ⟨ht, rfl⟩
    exact ((h.inv.inv.rest t.slot hh).of_owner ho).2.1
  first := h.schedule.first
  next := h.schedule.next
end CTimer
/-- In every run without calls from callbacks and with times below `2 ^ 64`, the
C timers are on time. -/
theorem c_timers_on_time {tr : List (Act TimerCall)} {s : Running TimerRun CPoint}
    {firsts : List Nat} (hr : timed.Reach (fun x l => Timely x.1 l) tr (s, firsts)) :
    OnTime s firsts :=
  (timed_of_reach hr).onTime

/-- A periodic timer that was added for time 2 and every 3 ticks fires at time 6,
and is due next at time 8. -/
theorem c_timers_on_time_periodic : ∃ s, timed.Reach (fun x l => Timely x.1 l)
      [.call (.add 2 3 (some 1) 0), .call (.tick 6), .run, .tau, .tau] (s, [2]) ∧
    OnTime s [2] ∧
    s.data.history.fired = [⟨some ⟨0, ⟨0, by decide⟩, 3, 2⟩, 6⟩] ∧
    s.data.history.live = [⟨0, ⟨0, by decide⟩, 3, 8⟩] := by
  have hadd : Timely ⟨.idle, .reset⟩ (.call (.add 2 3 (some 1) 0)) := by
    refine ⟨rfl, ?_⟩
    decide
  have htick : Timely
      ⟨.idle, TimerRun.reset.add wrapping_add 2 3 (some 1) 0⟩ (.call (.tick 6)) := by
    refine ⟨rfl, ?_⟩
    decide
  have hinit : timed.Reach (fun x l => Timely x.1 l) [] (_, []) := .init
  have hadded : timed.Reach (fun x l => Timely x.1 l) _ (_, [2]) := .step hinit hadd rfl
  have hticked : timed.Reach (fun x l => Timely x.1 l) _ (_, [2]) := .step hadded htick rfl
  have hloop : timed.Reach (fun x l => Timely x.1 l) (_ ++ [.run]) (_, [2]) :=
    .step hticked trivial rfl
  have hscan : timed.Reach (fun x l => Timely x.1 l) (_ ++ [.tau]) (_, [2]) :=
    .step hloop trivial rfl
  have hr : timed.Reach (fun x l => Timely x.1 l) (_ ++ [.tau]) (_, [2]) := .step hscan trivial rfl
  exact ⟨_, hr, c_timers_on_time hr, by decide, by decide⟩
end QosKernel
