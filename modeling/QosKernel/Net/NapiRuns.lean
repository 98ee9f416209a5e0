import QosKernel.Net.Napi

/-! # Scheduled instances are polled

The handler clears the flag of an instance after its poll, whether or not it
was scheduled in the meantime. So a poll that schedules its own instance
has to use up its budget; with that, no instance that is owed a poll is
without one when `softirq_run` returns.

`NapiInv` is the invariant. An instance that is owed a poll has its flag
set, and either the softirq is raised or the handler has not come to it yet.
-/
open Framework
namespace QosKernel
variable {s s' : NapiRun} {a : NapiCall}
/-! ### The invariant -/
/-- The handler, where it is, will still come to slot `i`. -/
def Control.ahead (i : NapiSlot) : Control NapiPoint → Prop
  | .handler (.head n _) => n ≤ i.val
  | .handler (.polled n _ _) | .callback (.polled n _ _) => n.val < i.val
  | .callback (.head n _) => n ≤ i.val
  | .idle | .loop => False

structure NapiInv (c : Control NapiPoint) (s : NapiRun) : Prop where
  /-- An instance that is owed a poll can be polled. -/
  flag : ∀ i, s.owed i = true → (s.table.entries i).used = true ∧
    (s.table.entries i).scheduled = true ∧ (s.table.entries i).poll.isSome = true
  /-- Every instance has a poll function. -/
  poll : ∀ i, (s.table.entries i).used = true → (s.table.entries i).poll.isSome = true
  coming : ∀ i, s.owed i = true → s.table.pending_mask QOS_SOFTIRQ_NET_RX = true ∨ Control.ahead i c

/-- A poll that schedules its own instance uses up its budget. -/
def Thorough (s : Running NapiRun NapiPoint) : Act NapiCall → Prop
  | .ret =>
    match s.control with
    | .callback (.polled i weight _) => s.data.owed i = true → weight ≤ s.data.work
    | _ => True
  | .call _ | .run | .tau => True

namespace NapiInv
variable {s' : NapiRun} {k : NapiPoint} {c : Control NapiPoint} {s : NapiRun}
theorem init : NapiInv .idle .reset where
  flag i hi := by cases hi
  poll i hi := by cases hi
  coming i hi := by cases hi

theorem add (h : NapiInv c s) (weight : UInt32) {poll : Option UInt64} (hpoll : poll.isSome = true)
    (ctx : UInt64) : NapiInv c { s with table := s.table.add weight poll ctx } := by
  unfold Napi.add
  cases hfree : first fun i => !(s.table.entries i).used with
  | none => exact h
  | some i =>
  have hi : (s.table.entries i).used = false := by simpa using first_some hfree
  have hnot : s.owed i = false := by
    by_contra howed
    have hused := (h.flag i (by simpa using howed)).1
    rw [hi] at hused
    cases hused
  refine ⟨fun j hj => ?_, fun j hj => ?_, h.coming⟩
  · have hji : j ≠ i := by
      rintro rfl
      exact absurd hj (by simp [hnot])
    simpa [hji] using h.flag j hj
  by_cases hji : j = i
  · subst hji
    simpa using hpoll
  simp only [set_ne hji] at hj ⊢
  exact h.poll j hj

theorem schedule (h : NapiInv c s) {i : NapiSlot}
    (hi : (s.table.entries i).used = true) : NapiInv c (s.schedule i) where
  flag j hj := by
    by_cases hji : j = i
    · subst hji
      simpa [NapiRun.schedule, Napi.setEntry, Napi.raise] using ⟨hi, h.poll j hi⟩
    simp only [NapiRun.schedule, Napi.setEntry, Napi.raise, set_ne hji] at hj ⊢
    exact h.flag j hj
  poll j hj := by
    by_cases hji : j = i
    · subst hji
      simpa [NapiRun.schedule, Napi.setEntry, Napi.raise] using h.poll j hi
    simp only [NapiRun.schedule, Napi.setEntry, Napi.raise, set_ne hji] at hj ⊢
    exact h.poll j hj
  coming _ _ := .inl (softirq_raise_self s.table.pending_mask QOS_SOFTIRQ_NET_RX)

theorem complete (h : NapiInv c s) (i : NapiSlot) : NapiInv c (s.complete i) where
  flag j hj := by
    by_cases hji : j = i
    · subst hji
      simp [NapiRun.complete] at hj
    simp only [NapiRun.complete, Napi.setEntry, set_ne hji] at hj ⊢
    exact h.flag j hj
  poll j hj := by
    by_cases hji : j = i
    · subst hji
      simpa [NapiRun.complete, Napi.setEntry] using
        h.poll j (by simpa [NapiRun.complete, Napi.setEntry] using hj)
    simp only [NapiRun.complete, Napi.setEntry, set_ne hji] at hj ⊢
    exact h.poll j hj
  coming j hj := by
    by_cases hji : j = i
    · subst hji
      simp [NapiRun.complete] at hj
    simp only [NapiRun.complete, set_ne hji] at hj
    exact h.coming j hj

theorem enter (h : NapiInv .loop s) (ht : s.take = some (s', some k)) :
    NapiInv (.handler k) s' := by
  obtain ⟨⟨mask, v⟩, hv, heq⟩ := Option.map_eq_some_iff.mp ht
  dsimp only at heq
  split at heq
  · cases heq
    exact ⟨h.flag, h.poll, fun i _ => .inr (Nat.zero_le _)⟩
  cases heq

theorem skip (h : NapiInv .loop s) (ht : s.take = some (s', none)) : NapiInv .loop s' := by
  obtain ⟨⟨mask, v⟩, hv, heq⟩ := Option.map_eq_some_iff.mp ht
  dsimp only at heq
  split at heq
  · cases heq
  rename_i hother
  cases heq
  refine ⟨h.flag, h.poll, fun i hi => ?_⟩
  obtain ⟨-, rfl⟩ := softirq_take_some hv
  rcases h.coming i hi with hraised | hahead
  · exact .inl ((set_ne (Ne.symm hother)).trans hraised)
  exact hahead.elim

/-- The handler passes a slot only if its instance is not owed a poll. -/
theorem handler (h : NapiInv (.handler k) s) : NapiInv (s.handler k).2.control (s.handler k).1 := by
  cases k with
  | polled i weight need =>
    refine ⟨h.flag, h.poll, fun j hj => ?_⟩
    exact (h.coming j hj).imp_right fun hahead => hahead
  | head n need =>
  unfold NapiRun.handler
  dsimp only
  split
  · rename_i hn
    split
    · -- the poll of the instance begins
      refine ⟨fun j hj => ?_, h.poll, fun j hj => ?_⟩
      · by_cases hji : j = ⟨n, hn⟩
        · subst hji
          simp [NapiRun.begin] at hj
        simp only [NapiRun.begin, set_ne hji] at hj
        exact h.flag j hj
      by_cases hji : j = ⟨n, hn⟩
      · subst hji
        simp [NapiRun.begin] at hj
      simp only [NapiRun.begin, set_ne hji] at hj
      refine (h.coming j hj).imp_right fun hahead => ?_
      have hle : n ≤ j.val := hahead
      exact lt_of_le_of_ne hle fun e => hji (Fin.ext e.symm)
    rename_i hidle
    refine ⟨h.flag, h.poll, fun j hj => (h.coming j hj).imp_right fun hahead => ?_⟩
    have hle : n ≤ j.val := hahead
    refine Nat.lt_of_le_of_ne hle ?_
    rintro rfl
    obtain ⟨hused, hflag, hpoll⟩ := h.flag j hj
    exact hidle (by simp [hused, hflag, hpoll])
  rename_i hn
  -- the handler has been to every slot
  have hraised : ∀ j, s.owed j = true → s.table.pending_mask QOS_SOFTIRQ_NET_RX = true := by
    intro j hj
    rcases h.coming j hj with hraised | hahead
    · exact hraised
    exact absurd (Nat.lt_of_le_of_lt hahead j.isLt) hn
  split
  · exact ⟨h.flag, h.poll,
      fun _ _ => .inl (softirq_raise_self s.table.pending_mask QOS_SOFTIRQ_NET_RX)⟩
  exact ⟨h.flag, h.poll, fun j hj => .inl (hraised j hj)⟩

/-- What the code behind a poll may do to the entry: it keeps the flag of a poll that used up
its budget. -/
structure Polite (after : NapiEntry → UInt32 → UInt32 → NapiEntry × Bool) : Prop where
  used : ∀ e work weight, (after e work weight).1.used = e.used
  poll : ∀ e work weight, (after e work weight).1.poll = e.poll
  flag : ∀ e work weight, weight ≤ work → (after e work weight).1.scheduled = e.scheduled

theorem finish {after : NapiEntry → UInt32 → UInt32 → NapiEntry × Bool} (hp : Polite after)
    (h : NapiInv (.callback k) s) (hc : Thorough ⟨.callback k, s⟩ .ret) :
    NapiInv (s.finish after k).2.control (s.finish after k).1 := by
  cases k with
  | head n need => exact ⟨h.flag, h.poll, fun j hj => (h.coming j hj).imp_right fun ha => ha⟩
  | polled i weight need =>
  have hc : s.owed i = true → weight ≤ s.work := hc
  refine ⟨fun j hj => ?_, fun j hj => ?_, fun j hj => ?_⟩
  · have hj : s.owed j = true := hj
    obtain ⟨hused, hflag, hpoll⟩ := h.flag j hj
    by_cases hji : j = i
    · subst hji
      simp only [NapiRun.finish, Napi.setEntry, set_self, hp.used, hp.poll, hp.flag _ _ _ (hc hj)]
      exact ⟨hused, hflag, hpoll⟩
    simp only [NapiRun.finish, Napi.setEntry, set_ne hji]
    exact ⟨hused, hflag, hpoll⟩
  · by_cases hji : j = i
    · subst hji
      simp only [NapiRun.finish, Napi.setEntry, set_self, hp.used, hp.poll] at hj ⊢
      exact h.poll j hj
    simp only [NapiRun.finish, Napi.setEntry, set_ne hji] at hj ⊢
    exact h.poll j hj
  exact (h.coming j hj).imp_right fun hahead => hahead
end NapiInv
theorem CNapi.polite : NapiInv.Polite CNapi.after where
  used e work weight := by
    unfold CNapi.after
    split <;> rfl
  poll e work weight := by
    unfold CNapi.after
    split <;> rfl
  flag e work weight h := by
    unfold CNapi.after
    rw [if_neg (UInt32.not_lt.mpr h)]

theorem RustNapi.polite : NapiInv.Polite RustNapi.after where
  used e work weight := by
    unfold RustNapi.after
    split
    · rfl
    split <;> rfl
  poll e work weight := by
    unfold RustNapi.after
    split
    · rfl
    split <;> rfl
  flag e work weight h := by
    unfold RustNapi.after
    split
    · rfl
    rw [if_neg (UInt32.not_lt.mpr h)]

/-! ### Runs -/
theorem Napi.used_of_find {s : Napi} {napi_id : UInt32} {i : NapiSlot}
    (h : s.find_slot napi_id = some i) : (s.entries i).used = true :=
  (Bool.and_eq_true_iff.mp (first_some h)).1

inductive NapiEffect (s : NapiRun) : NapiCall → NapiRun → Prop where
  | none (a : NapiCall) : NapiEffect s a s
  | add {weight : UInt32} {poll : Option UInt64} {ctx : UInt64} (h : poll.isSome = true) :
      NapiEffect s (.register weight poll ctx) { s with table := s.table.add weight poll ctx }
  | schedule {napi_id : UInt32} {i : NapiSlot} (h : s.table.find_slot napi_id = some i) :
      NapiEffect s (.schedule napi_id) (s.schedule i)
  | complete {napi_id : UInt32} {i : NapiSlot} (h : s.table.find_slot napi_id = some i) :
      NapiEffect s (.complete napi_id) (s.complete i)
  | work (n : UInt32) : NapiEffect s (.work n) { s with work := n }

theorem CNapi.call_effect (h : CNapi.call s a = some s') : NapiEffect s a s' := by
  cases a with
  | register weight poll ctx =>
    cases h
    split
    · exact .none _
    rename_i hargs
    refine .add ?_
    cases poll with
    | none => simp at hargs
    | some p => rfl
  | schedule napi_id =>
    cases h
    split
    · exact .none _
    rename_i i hi
    exact .schedule hi
  | complete napi_id =>
    cases h
    split
    · exact .none _
    rename_i i hi
    exact .complete hi
  | work n =>
  cases h
  exact .work n

theorem RustNapi.call_effect (h : RustNapi.call s a = some s') : NapiEffect s a s' := by
  cases a with
  | register weight poll ctx =>
    unfold RustNapi.call at h
    dsimp only at h
    split at h
    · cases h
    rename_i hpoll
    cases h
    split
    · exact .none _
    refine .add ?_
    cases poll with
    | none => simp at hpoll
    | some p => rfl
  | schedule napi_id =>
    cases h
    split
    · exact .none _
    split
    · exact .none _
    rename_i i hi
    exact .schedule hi
  | complete napi_id =>
    cases h
    split
    · exact .none _
    split
    · exact .none _
    rename_i i hi
    exact .complete hi
  | work n =>
  cases h
  exact .work n

theorem NapiInv.effect {c : Control NapiPoint} (h : NapiInv c s) (he : NapiEffect s a s') :
    NapiInv c s' := by
  cases he with
  | none => exact h
  | add hpoll => exact h.add _ hpoll _
  | schedule hi => exact h.schedule (Napi.used_of_find hi)
  | complete hi => exact h.complete _
  | work n => exact ⟨h.flag, h.poll, h.coming⟩

/-- The two kernels: they differ in their calls and in the code behind a poll. -/
structure IsNapi (svc : Service NapiRun NapiCall NapiPoint) : Prop where
  init : svc.init = .reset
  call : ∀ s a s', svc.call s a = some s' → NapiEffect s a s'
  take : svc.take = NapiRun.take
  tau : svc.tau = NapiRun.handler
  resume : ∃ after, NapiInv.Polite after ∧ svc.resume = NapiRun.finish after

theorem CNapi.isNapi : IsNapi CNapi.service :=
  ⟨rfl, fun _ _ _ h => CNapi.call_effect h, rfl, rfl, CNapi.after, CNapi.polite, rfl⟩

theorem RustNapi.isNapi : IsNapi RustNapi.service :=
  ⟨rfl, fun _ _ _ h => RustNapi.call_effect h, rfl, rfl, RustNapi.after, RustNapi.polite, rfl⟩

section runs
variable {x : Running NapiRun NapiPoint} {tr tr' : List (Act NapiCall)}
variable {svc : Service NapiRun NapiCall NapiPoint}
theorem IsNapi.keeps (hs : IsNapi svc) : svc.Keeps Thorough NapiInv where
  init := hs.init ▸ .init
  call _ h _ hcall := h.effect (hs.call _ _ _ hcall)
  run h := ⟨h.flag, h.poll, h.coming⟩
  idle h _ := ⟨h.flag, h.poll, h.coming⟩
  skip h ht := h.skip (hs.take ▸ ht)
  enter h ht := h.enter (hs.take ▸ ht)
  tau h _ := by
    rw [hs.tau]
    exact h.handler
  ret h hc := by
    obtain ⟨after, hp, heq⟩ := hs.resume
    rw [heq]
    exact h.finish hp hc

/-- The step completes the instance in slot `i`. -/
def Completes (i : NapiSlot) (s : Running NapiRun NapiPoint) (l : Act NapiCall) : Prop :=
  ∃ napi_id, l = .call (.complete napi_id) ∧ s.data.table.find_slot napi_id = some i

/-- From `n` polls on, the instance in slot `i` has been polled or is owed a poll. -/
structure Due (i : NapiSlot) (n : Nat) (s : NapiRun) : Prop where
  mono : n ≤ s.polls i
  due : n < s.polls i ∨ s.owed i = true

variable {i : NapiSlot} {n : Nat} {s s' : NapiRun}
theorem Due.effect (h : Due i n s) {a : NapiCall} (he : NapiEffect s a s')
    (hnot : ∀ napi_id, a = .complete napi_id → s.table.find_slot napi_id ≠ some i) :
    Due i n s' := by
  cases he with
  | none => exact h
  | add _ | work _ => exact ⟨h.mono, h.due⟩
  | @schedule _ j _ =>
    refine ⟨h.mono, h.due.imp_right fun hi => ?_⟩
    by_cases hij : i = j
    · subst hij
      exact set_self
    exact (set_ne hij).trans hi
  | @complete _ j hj =>
  refine ⟨h.mono, h.due.imp_right fun hi => ?_⟩
  have hij : i ≠ j := fun e => hnot _ rfl (e ▸ hj)
  exact (set_ne hij).trans hi

theorem Due.begin (h : Due i n s) (j : NapiSlot) : Due i n (s.begin j) := by
  by_cases hij : i = j
  · subst hij
    have hmono := h.mono
    have hpolls : (s.begin i).polls i = s.polls i + 1 := set_self
    exact ⟨by omega, .inl (by omega)⟩
  have hpolls : (s.begin j).polls i = s.polls i := set_ne hij
  have howed : (s.begin j).owed i = s.owed i := set_ne hij
  refine ⟨hpolls ▸ h.mono, ?_⟩
  rw [hpolls, howed]
  exact h.due

theorem Due.handler (h : Due i n s) (k : NapiPoint) : Due i n (s.handler k).1 := by
  cases k with
  | polled => exact h
  | head m need =>
  unfold NapiRun.handler
  dsimp only
  split
  · split
    · exact h.begin _
    exact h
  split
  · exact ⟨h.mono, h.due⟩
  exact h

theorem Due.finish (h : Due i n s) (after : NapiEntry → UInt32 → UInt32 → NapiEntry × Bool)
    (k : NapiPoint) : Due i n (s.finish after k).1 := by
  cases k with
  | head => exact h
  | polled => exact ⟨h.mono, h.due⟩

theorem Due.take (h : Due i n s) {k : Option NapiPoint} (ht : s.take = some (s', k)) :
    Due i n s' := by
  obtain ⟨⟨mask, v⟩, -, heq⟩ := Option.map_eq_some_iff.mp ht
  cases heq
  exact ⟨h.mono, h.due⟩

theorem Due.step (hs : IsNapi svc) {x' : Running NapiRun NapiPoint} {l : Act NapiCall}
    (h : Due i n x.data) (hnot : ¬Completes i x l) (hstep : svc.step x l = some x') :
    Due i n x'.data := by
  obtain ⟨a, d, rfl, -, hcall, rfl⟩ | ⟨-, -, rfl⟩ | ⟨-, -, -, rfl⟩ | ⟨d, -, -, ht, rfl⟩ |
    ⟨d, k, -, -, ht, rfl⟩ | ⟨k, -, -, rfl⟩ | ⟨k, -, -, rfl⟩ := svc.step_cases hstep
  · exact h.effect (hs.call _ _ _ hcall) fun napi_id ha hi => hnot ⟨napi_id, by rw [ha], hi⟩
  · exact h
  · exact h
  · exact h.take (hs.take ▸ ht)
  · exact h.take (hs.take ▸ ht)
  · rw [hs.tau]
    exact h.handler k
  obtain ⟨after, -, heq⟩ := hs.resume
  rw [heq]
  exact h.finish after k

theorem IsNapi.due_of_steps (hs : IsNapi svc) {y : Running NapiRun NapiPoint}
    (hr : svc.system.Reach Thorough tr x) (howed : x.data.owed i = true)
    (hsteps : svc.system.Steps (fun x l => Thorough x l ∧ ¬Completes i x l) x tr' y) :
    NapiInv y.control y.data ∧ Due i (x.data.polls i) y.data := by
  induction hsteps with
  | refl => exact ⟨hs.keeps.reach hr, Nat.le_refl _, .inr howed⟩
  | step _ hc hstep ih => exact ⟨hs.keeps.step ih.1 hc.1 hstep, ih.2.step hs hc.2 hstep⟩

/-- An instance that is owed a poll, and is not completed, is polled before `softirq_run`
returns. -/
theorem IsNapi.polled (hs : IsNapi svc) {s t t' : Running NapiRun NapiPoint}
    (hr : svc.system.Reach Thorough tr s) (howed : s.data.owed i = true)
    (hsteps : svc.system.Steps (fun x l => Thorough x l ∧ ¬Completes i x l) s tr' t)
    (hloop : t.control = .loop) (hreturn : svc.step t .tau = some t') (hidle : t'.control = .idle) :
    s.data.polls i < t'.data.polls i := by
  obtain ⟨hinv, hdue⟩ := hs.due_of_steps hr howed hsteps
  rcases t with ⟨c, d⟩
  cases hloop
  obtain ⟨hnone, rfl⟩ := svc.return_cases hreturn hidle
  -- nothing is raised any more, so nothing is owed a poll
  rw [hs.take] at hnone
  have hmask := softirq_take_none (Option.map_eq_none_iff.mp hnone) QOS_SOFTIRQ_NET_RX
  rcases hdue.due with hpolled | hstill
  · exact hpolled
  rcases hinv.coming i hstill with hraised | hahead
  · exact absurd (hraised.symm.trans hmask) (by decide)
  exact hahead.elim
end runs
/-- In both kernels, if every poll that schedules its own instance uses up its budget, then an
instance that is scheduled after its last poll began, and not completed after that, is polled
again before the next run of the softirqs returns. -/
theorem scheduled_napi_polled (svc : Service NapiRun NapiCall NapiPoint)
    (hsvc : svc = CNapi.service ∨ svc = RustNapi.service) (i : NapiSlot)
    (tr tr' : List (Act NapiCall)) (s t t' : Running NapiRun NapiPoint)
    (hr : svc.system.Reach Thorough tr s) (howed : s.data.owed i = true)
    (hsteps : svc.system.Steps (fun x l => Thorough x l ∧ ¬Completes i x l) s tr' t)
    (hloop : t.control = .loop) (hreturn : svc.step t .tau = some t') (hidle : t'.control = .idle) :
    s.data.polls i < t'.data.polls i := by
  rcases hsvc with rfl | rfl
  · exact CNapi.isNapi.polled hr howed hsteps hloop hreturn hidle
  exact RustNapi.isNapi.polled hr howed hsteps hloop hreturn hidle

instance : ∀ s l, Decidable (Thorough s l)
  | ⟨.callback (.polled i weight _), d⟩, .ret =>
    inferInstanceAs (Decidable (d.owed i = true → weight ≤ d.work))
  | ⟨.callback (.head _ _), _⟩, .ret | ⟨.idle, _⟩, .ret | ⟨.loop, _⟩, .ret
  | ⟨.handler _, _⟩, .ret | _, .call _ | _, .run | _, .tau => .isTrue trivial

instance (i : NapiSlot) (s : Running NapiRun NapiPoint) : ∀ l, Decidable (Completes i s l)
  | .call (.complete napi_id) =>
    decidable_of_iff (s.data.table.find_slot napi_id = some i)
      ⟨fun h => ⟨napi_id, rfl, h⟩, by rintro ⟨_, heq, h⟩; cases heq; exact h⟩
  | .call (.register ..) | .call (.schedule _) | .call (.work _) | .run | .tau | .ret =>
    .isFalse (by rintro ⟨_, heq, -⟩; cases heq)

/-- The loop of `softirq_run` is about to return. -/
def returns (svc : Service NapiRun NapiCall NapiPoint) (s : Running NapiRun NapiPoint) : Bool :=
  match s.control with
  | .loop => (svc.take s.data).isNone
  | _ => false

theorem returns_step {svc : Service NapiRun NapiCall NapiPoint} {s : Running NapiRun NapiPoint}
    (h : returns svc s = true) : s.control = .loop ∧ svc.step s .tau = some ⟨.idle, s.data⟩ := by
  rcases s with ⟨_ | _ | _ | _, d⟩ <;> simp only [returns, Bool.false_eq_true] at h
  refine ⟨rfl, ?_⟩
  simp only [Service.step]
  rw [Option.isNone_iff_eq_none.mp h]

/-- An instance with weight 4 is registered and scheduled. -/
def scheduleActs : List (Act NapiCall) := [.call (.register 4 (some 1) 0), .call (.schedule 1)]

/-- It is polled, the poll returns 0, and the handler ends. -/
def pollActs : List (Act NapiCall) :=
  [.run, .tau, .tau, .call (.work 0), .ret] ++ List.replicate 32 .tau

/-- The first poll is not lost. -/
theorem scheduled_napi_polled_once : ∃ s t t', CNapi.service.system.Reach Thorough scheduleActs s ∧
    s.data.owed ⟨0, by decide⟩ = true ∧
    CNapi.service.system.Steps (fun x l => Thorough x l ∧ ¬Completes ⟨0, by decide⟩ x l) s
      pollActs t ∧
    CNapi.service.step t .tau = some t' ∧
    s.data.polls ⟨0, by decide⟩ < t'.data.polls ⟨0, by decide⟩ := by
  obtain ⟨s, hr, howed, hpoll⟩ : ∃ s, CNapi.service.system.Reach Thorough scheduleActs s ∧
      s.data.owed ⟨0, by decide⟩ = true ∧
      (CNapi.service.system.execIf (fun x l => Thorough x l ∧ ¬Completes ⟨0, by decide⟩ x l) s
        pollActs).any (returns CNapi.service) = true :=
    System.exists_execIf (by decide +kernel) fun _ _ h => h
  obtain ⟨t, hsteps, hreturn⟩ := System.exists_steps_of_execIf_any hpoll
  obtain ⟨hloop, hstep⟩ := returns_step hreturn
  exact ⟨s, t, _, hr, howed, hsteps, hstep,
    scheduled_napi_polled _ (.inl rfl) _ _ _ s t _ hr howed hsteps hloop hstep rfl⟩

/-! ### A schedule that is lost -/
/-- When a run of the softirqs returns, an instance was scheduled after its last poll began, and
not completed after that. -/
def LosesOne (svc : Service NapiRun NapiCall NapiPoint) : Prop :=
  ∃ tr t t' i, svc.system.Reach anyStep tr t ∧ t.control = .loop ∧ svc.step t .tau = some t' ∧
    t'.control = .idle ∧ t'.data.owed i = true

/-- The poll schedules its own instance and returns 0. -/
def lostActs : List (Act NapiCall) :=
  scheduleActs ++ [.run, .tau, .tau, .call (.schedule 1), .call (.work 0), .ret] ++
    List.replicate 66 .tau

theorem scheduled_napi_lost : LosesOne CNapi.service ∧ LosesOne RustNapi.service := by
  have hlost : ∀ svc : Service NapiRun NapiCall NapiPoint, (∃ t, svc.system.Reach anyStep lostActs t ∧
      returns svc t = true ∧ t.data.owed ⟨0, by decide⟩ = true) → LosesOne svc := by
    rintro svc ⟨t, hr, hreturn, howed⟩
    obtain ⟨hloop, hstep⟩ := returns_step hreturn
    exact ⟨lostActs, t, _, ⟨0, by decide⟩, hr, hloop, hstep, rfl, howed⟩
  exact ⟨hlost _ (System.exists_exec (by decide +kernel) fun _ _ h => h),
    hlost _ (System.exists_exec (by decide +kernel) fun _ _ h => h)⟩
end QosKernel
