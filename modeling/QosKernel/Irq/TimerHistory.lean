import Mathlib.Data.List.Nodup

/-! # What timers are for

The history of a run as a user of the timers sees it: which timers were
added and are still to fire, which were cancelled, and which callbacks
were invoked. It follows the calls and the callbacks only. Whether the
timer table agrees with it is what the kernels have to ensure.
-/
namespace QosKernel
variable {now interval e : Nat}
def QOS_TIMER_MAX : Nat := 128
abbrev TimerSlot := Fin QOS_TIMER_MAX

/-- The first expiry after `now` of a timer that expires at `e` and then every
`interval` ticks. -/
def nextAfter (now interval e : Nat) : Nat :=
  if e ≤ now then e + ((now - e) / interval + 1) * interval else e

theorem nextAfter_of_lt (h : now < e) : nextAfter now interval e = e := if_neg (Nat.not_le.mpr h)

theorem lt_nextAfter (h : 0 < interval) : now < nextAfter now interval e := by
  unfold nextAfter
  split
  · have := Nat.lt_div_mul_add h (a := now - e)
    rw [Nat.add_mul, Nat.one_mul]
    omega
  omega

/-- An expiry that has passed may be moved on by one interval first. -/
theorem nextAfter_add (hi : 0 < interval) (h : e ≤ now) :
    nextAfter now interval (e + interval) = nextAfter now interval e := by
  unfold nextAfter
  rw [if_pos h]
  split
  next h' =>
    have hsub : now - e = now - (e + interval) + interval := by omega
    rw [hsub, Nat.add_div_right _ hi, Nat.add_mul (_ / _ + 1), Nat.one_mul]
    omega
  next h' =>
  rw [Nat.div_eq_of_lt (by omega), Nat.zero_add, Nat.one_mul]

theorem le_nextAfter : e ≤ nextAfter now interval e := by
  unfold nextAfter
  split <;> omega

/-- It is a whole number of intervals away, -/
theorem nextAfter_eq_add (now interval e : Nat) :
    ∃ k, nextAfter now interval e = e + k * interval := by
  unfold nextAfter
  split
  · exact ⟨_, rfl⟩
  exact ⟨0, by rw [Nat.zero_mul, Nat.add_zero]⟩

/-- and no such time after `now` is earlier. -/
theorem nextAfter_least {k : Nat} (h : e ≤ now) (hlt : now < e + k * interval) :
    nextAfter now interval e ≤ e + k * interval := by
  have hdiv : (now - e) / interval < k := Nat.div_lt_of_lt_mul (by rw [Nat.mul_comm]; omega)
  unfold nextAfter
  rw [if_pos h]
  exact Nat.add_le_add_left (Nat.mul_le_mul_right interval hdiv) e

/-- A timer that was added, was not cancelled and, if it is a one-shot timer
(`interval = 0`), has not fired. -/
structure LiveTimer where
  /-- Which of the timers added so far it is. -/
  uid : Nat
  slot : TimerSlot
  interval : Nat
  /-- When it has to fire next. -/
  due : Nat
  deriving DecidableEq

/-- A callback was invoked for a slot: for which live timer, and when. -/
structure Fire where
  timer : Option LiveTimer
  jiffies : Nat
  deriving DecidableEq

structure TimerHistory where
  added : Nat
  live : List LiveTimer
  cancelled : List Nat
  fired : List Fire
  deriving DecidableEq

namespace TimerHistory
variable {h : TimerHistory} {i j : TimerSlot} {t u : LiveTimer}
variable {interval due now jiffies : Nat}
def empty : TimerHistory := ⟨0, [], [], []⟩

/-- The live timer of a slot. -/
def owner (h : TimerHistory) (i : TimerSlot) : Option LiveTimer :=
  h.live.find? fun t => t.slot = i

/-- A timer was added in slot `i`. -/
def add (h : TimerHistory) (i : TimerSlot) (interval due : Nat) : TimerHistory :=
  { h with added := h.added + 1, live := h.live ++ [⟨h.added, i, interval, due⟩] }

/-- The timer in slot `i` was cancelled. -/
def cancel (h : TimerHistory) (i : TimerSlot) : TimerHistory :=
  { h with
    live := h.live.filter fun t => t.slot ≠ i
    cancelled := h.cancelled ++ (h.live.filter fun t => t.slot = i).map (·.uid) }

/-- A live timer after the callback of slot `i` was invoked at `now`. -/
def afterFire (i : TimerSlot) (now : Nat) (t : LiveTimer) : Option LiveTimer :=
  if t.slot = i then
    if t.interval = 0 then none else some { t with due := nextAfter now t.interval t.due }
  else some t

/-- The callback of slot `i` was invoked by a handler that saw the time `now`. -/
def fire (h : TimerHistory) (i : TimerSlot) (now jiffies : Nat) : TimerHistory :=
  { h with
    live := h.live.filterMap (afterFire i now)
    fired := h.fired ++ [⟨h.owner i, jiffies⟩] }

/-! ### The live timer of a slot -/
theorem owner_some (ho : h.owner i = some t) : t ∈ h.live ∧ t.slot = i :=
  ⟨List.mem_of_find?_eq_some ho, by simpa using List.find?_some ho⟩

theorem owner_none : h.owner i = none ↔ ∀ t ∈ h.live, t.slot ≠ i := by
  simp [owner, List.find?_eq_none]

/-- No two live timers are in the same slot. -/
def OnePerSlot (h : TimerHistory) : Prop := (h.live.map (·.slot)).Nodup

theorem owner_eq_some (hs : h.OnePerSlot) : h.owner i = some t ↔ t ∈ h.live ∧ t.slot = i := by
  refine ⟨owner_some, fun ⟨ht, hi⟩ => ?_⟩
  rcases ho : h.owner i with _ | u
  · exact absurd hi (owner_none.mp ho t ht)
  obtain ⟨hu, hslot⟩ := owner_some ho
  rw [List.inj_on_of_nodup_map hs hu ht (hslot.trans hi.symm)]

theorem owner_add (hi : h.owner i = none) :
    (h.add i interval due).owner j =
      if j = i then some ⟨h.added, i, interval, due⟩ else h.owner j := by
  unfold owner add at *
  rw [List.find?_append]
  by_cases hj : j = i
  · subst hj
    simp [hi]
  simp [hj, Ne.symm hj]

theorem owner_cancel : (h.cancel i).owner j = if j = i then none else h.owner j := by
  unfold owner cancel
  rw [List.find?_filter]
  by_cases hj : j = i
  · subst hj
    simp
  rw [if_neg hj]
  congr 1
  funext t
  by_cases ht : t.slot = j <;> simp [ht, hj]

theorem afterFire_slot (h : afterFire i now t = some u) : u.slot = t.slot ∧ u.uid = t.uid := by
  unfold afterFire at h
  split at h
  · split at h
    · cases h
    cases h; exact ⟨rfl, rfl⟩
  cases h; exact ⟨rfl, rfl⟩

/-- A firing may remove timers, but it changes no key of those that stay. -/
theorem map_afterFire_sublist {β : Type} (key : LiveTimer → β)
    (hkey : ∀ t u, afterFire i now t = some u → key u = key t) (live : List LiveTimer) :
    ((live.filterMap (afterFire i now)).map key).Sublist (live.map key) := by
  induction live with
  | nil => simp
  | cons t live ih =>
  rcases ht : afterFire i now t with _ | u
  · rw [List.filterMap_cons_none ht, List.map_cons]
    exact ih.cons _
  rw [List.filterMap_cons_some ht, List.map_cons, List.map_cons, hkey t u ht]
  exact ih.cons_cons _

theorem OnePerSlot.add (hs : h.OnePerSlot) (hi : h.owner i = none) :
    (h.add i interval due).OnePerSlot := by
  unfold OnePerSlot TimerHistory.add at *
  rw [List.map_append, List.nodup_append]
  refine ⟨hs, by simp, fun a ha b hb => ?_⟩
  obtain ⟨t, ht, rfl⟩ := List.mem_map.mp ha
  rw [List.mem_singleton.mp hb]
  exact owner_none.mp hi t ht

theorem OnePerSlot.cancel (hs : h.OnePerSlot) (i : TimerSlot) : (h.cancel i).OnePerSlot :=
  List.Nodup.sublist (List.filter_sublist.map _) hs

theorem OnePerSlot.fire (hs : h.OnePerSlot) (i : TimerSlot) (now jiffies : Nat) :
    (h.fire i now jiffies).OnePerSlot :=
  List.Nodup.sublist (map_afterFire_sublist _ (fun _ _ ht => (afterFire_slot ht).1) _) hs

theorem mem_fire : u ∈ (h.fire i now jiffies).live ↔ ∃ t ∈ h.live, afterFire i now t = some u :=
  List.mem_filterMap

theorem owner_fire (hs : h.OnePerSlot) :
    (h.fire i now jiffies).owner j = (h.owner j).bind (afterFire i now) := by
  apply Option.ext
  intro u
  rw [owner_eq_some (hs.fire i now jiffies), mem_fire, Option.bind_eq_some_iff]
  constructor
  · intro ⟨⟨t, ht, hu⟩, hslot⟩
    exact ⟨t, (owner_eq_some hs).mpr ⟨ht, (afterFire_slot hu).1 ▸ hslot⟩, hu⟩
  intro ⟨t, ho, hu⟩
  obtain ⟨ht, hslot⟩ := owner_some ho
  exact ⟨⟨t, ht, hu⟩, (afterFire_slot hu).1.trans hslot⟩

theorem owner_fire_ne (hs : h.OnePerSlot) (hj : j ≠ i) :
    (h.fire i now jiffies).owner j = h.owner j := by
  rw [owner_fire hs]
  rcases ho : h.owner j with _ | t
  · rfl
  have ht := (owner_some ho).2
  simp [afterFire, ht, hj]

theorem owner_fire_self (hs : h.OnePerSlot) (ho : h.owner i = some t) :
    (h.fire i now jiffies).owner i =
      if t.interval = 0 then none else some { t with due := nextAfter now t.interval t.due } := by
  rw [owner_fire hs, ho, Option.bind_some]
  simp [afterFire, (owner_some ho).2]

/-! ### Well-formed histories -/
/-- The one-shot timers that have fired. -/
def oneShots (fired : List Fire) : List Nat :=
  fired.filterMap fun f => f.timer.bind fun t => if t.interval = 0 then some t.uid else none

/-- Every callback was invoked for a live timer that was due, and a one-shot
timer that has fired is gone for good. -/
structure Sound (h : TimerHistory) : Prop where
  uids : (h.live.map (·.uid)).Nodup
  live_lt : ∀ t ∈ h.live, t.uid < h.added
  due : ∀ f ∈ h.fired, ∃ t, f.timer = some t ∧ t.due ≤ f.jiffies
  fired_lt : ∀ u ∈ oneShots h.fired, u < h.added
  gone : ∀ t ∈ h.live, t.uid ∉ oneShots h.fired
  once : (oneShots h.fired).Nodup

theorem Sound.empty : Sound empty := by constructor <;> simp [TimerHistory.empty, oneShots]

theorem Sound.add (hw : Sound h) (i : TimerSlot) (interval due : Nat) :
    Sound (h.add i interval due) where
  uids := by
    rw [TimerHistory.add, List.map_append, List.nodup_append]
    refine ⟨hw.uids, by simp, fun a ha b hb => ?_⟩
    obtain ⟨t, ht, rfl⟩ := List.mem_map.mp ha
    rw [List.mem_singleton.mp hb]
    exact Nat.ne_of_lt (hw.live_lt t ht)
  live_lt := by
    intro t ht
    rcases List.mem_append.mp ht with ht | ht
    · exact Nat.lt_succ_of_lt (hw.live_lt t ht)
    rw [List.mem_singleton.mp ht]
    exact Nat.lt_succ_self _
  due := hw.due
  fired_lt := fun u hu => Nat.lt_succ_of_lt (hw.fired_lt u hu)
  gone := by
    intro t ht
    rcases List.mem_append.mp ht with ht | ht
    · exact hw.gone t ht
    rw [List.mem_singleton.mp ht]
    exact fun hu => Nat.lt_irrefl _ (hw.fired_lt _ hu)
  once := hw.once

theorem Sound.cancel (hw : Sound h) (i : TimerSlot) : Sound (h.cancel i) where
  uids := hw.uids.sublist (List.filter_sublist.map _)
  live_lt := fun t ht => hw.live_lt t (List.mem_of_mem_filter ht)
  due := hw.due
  fired_lt := hw.fired_lt
  gone := fun t ht => hw.gone t (List.mem_of_mem_filter ht)
  once := hw.once

theorem oneShots_fire (ho : h.owner i = some t) :
    oneShots (h.fire i now jiffies).fired =
      oneShots h.fired ++ if t.interval = 0 then [t.uid] else [] := by
  unfold fire oneShots
  rw [List.filterMap_append, ho]
  by_cases ht : t.interval = 0 <;> simp [ht]

/-- A callback invoked for a live timer that is due. -/
theorem Sound.fire (hw : Sound h) (ho : h.owner i = some t) (hdue : t.due ≤ jiffies) :
    Sound (h.fire i now jiffies) where
  uids := hw.uids.sublist (map_afterFire_sublist _ (fun _ _ ht => (afterFire_slot ht).2) _)
  live_lt := by
    intro u hu
    obtain ⟨v, hv, huv⟩ := mem_fire.mp hu
    rw [(afterFire_slot huv).2]
    exact hw.live_lt v hv
  due := by
    intro f hf
    rcases List.mem_append.mp hf with hf | hf
    · exact hw.due f hf
    rw [List.mem_singleton.mp hf]
    exact ⟨t, ho, hdue⟩
  fired_lt := by
    intro u hu
    rw [oneShots_fire ho] at hu
    rcases List.mem_append.mp hu with hu | hu
    · exact hw.fired_lt u hu
    split at hu
    · rw [List.mem_singleton.mp hu]
      exact hw.live_lt t (owner_some ho).1
    cases hu
  gone := by
    intro u hu
    obtain ⟨v, hv, huv⟩ := mem_fire.mp hu
    rw [oneShots_fire ho, (afterFire_slot huv).2, List.mem_append, not_or]
    refine ⟨hw.gone v hv, fun hmem => ?_⟩
    split at hmem
    next ht =>
      -- the timer that fired is the only one with its uid, and it did not survive
      obtain rfl := List.inj_on_of_nodup_map hw.uids hv (owner_some ho).1
        (List.mem_singleton.mp hmem)
      simp [afterFire, (owner_some ho).2, ht] at huv
    next => cases hmem
  once := by
    rw [oneShots_fire ho, List.nodup_append]
    refine ⟨hw.once, by split <;> simp, fun u hu v hv => ?_⟩
    split at hv
    · rintro rfl
      rw [List.mem_singleton.mp hv] at hu
      exact hw.gone t (owner_some ho).1 hu
    cases hv

/-! ### Timers over time -/
/-- What a step of a run does to the history. -/
inductive Step (h : TimerHistory) : TimerHistory → Prop where
  | stay : Step h h
  | add (i : TimerSlot) (interval due : Nat) : Step h (h.add i interval due)
  | cancel (i : TimerSlot) : Step h (h.cancel i)
  | fire (i : TimerSlot) (now jiffies : Nat) : Step h (h.fire i now jiffies)

/-- Since the history was `h`, timer `t` has fired or was cancelled. -/
def Served (h h' : TimerHistory) (t : LiveTimer) : Prop :=
  t.uid ∈ h'.cancelled ∨ ∃ f ∈ h'.fired.drop h.fired.length, f.timer = some t

/-- `h` is an earlier history, and what was live then is live now with the
same expiry, or it was served. -/
structure Since (h h' : TimerHistory) : Prop where
  le : h.fired.length ≤ h'.fired.length
  live : ∀ t ∈ h.live, t ∈ h'.live ∨ Served h h' t

theorem Since.refl (h : TimerHistory) : Since h h := ⟨Nat.le_refl _, fun _ ht => .inl ht⟩

theorem Since.step {h' h'' : TimerHistory} (hsince : Since h h') (hs : h'.OnePerSlot)
    (hstep : Step h' h'') : Since h h'' := by
  rcases hstep with _ | ⟨i, interval, due⟩ | i | ⟨i, now, jiffies⟩
  · exact hsince
  · refine ⟨hsince.le, fun t ht => ?_⟩
    exact (hsince.live t ht).imp (List.mem_append_left _) id
  · refine ⟨hsince.le, fun t ht => ?_⟩
    rcases hsince.live t ht with hlive | hc | hf
    · by_cases hi : t.slot = i
      · refine .inr (.inl (List.mem_append_right _ (List.mem_map.mpr ⟨t, ?_, rfl⟩)))
        exact List.mem_filter.mpr ⟨hlive, by simpa using hi⟩
      exact .inl (List.mem_filter.mpr ⟨hlive, by simpa using hi⟩)
    · exact .inr (.inl (List.mem_append_left _ hc))
    exact .inr (.inr hf)
  refine ⟨?_, fun t ht => ?_⟩
  · rw [fire, List.length_append]
    exact Nat.le_add_right_of_le hsince.le
  have hdrop : (h'.fire i now jiffies).fired.drop h.fired.length =
      h'.fired.drop h.fired.length ++ [⟨h'.owner i, jiffies⟩] := by
    rw [fire, List.drop_append_of_le_length hsince.le]
  rcases hsince.live t ht with hlive | hc | ⟨f, hf, hft⟩
  · by_cases hi : t.slot = i
    · refine .inr (.inr ⟨⟨h'.owner i, jiffies⟩, ?_, ?_⟩)
      · rw [hdrop]
        exact List.mem_append_right _ (List.mem_singleton_self _)
      exact (owner_eq_some hs).mpr ⟨hlive, hi⟩
    exact .inl (mem_fire.mpr ⟨t, hlive, by simp [afterFire, hi]⟩)
  · exact .inr (.inl hc)
  refine .inr (.inr ⟨f, ?_, hft⟩)
  rw [hdrop]
  exact List.mem_append_left _ hf
end TimerHistory
end QosKernel
