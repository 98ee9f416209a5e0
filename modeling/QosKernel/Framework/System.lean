import Mathlib.Data.List.Basic

/-! # Labelled step systems

A component is a state machine with a start state and a partial step
function: `step s l = some s'` when the component, in state `s`, can take
the step labelled `l`, and then moves to `s'`.

* `System.Reach sys cond tr s`: the system gets from its start state to `s`
  by the steps of the trace `tr`, each of which meets the condition `cond`
  in the state it is taken from. With `cond = anyStep` these are all the
  finite runs.
* `System.exec`: the same runs, computed; witnesses evaluate it.
* Induction rules for invariants of runs, with and without the trace.
* `System.logged`: the same component with a log of its steps.
-/
namespace Framework
/-- A component with a start state and a partial, labelled step function. -/
structure System (State : Type u) (Label : Type v) where
  init : State
  step : State → Label → Option State

variable {State : Type u} {Label : Type v}
/-- The condition every step meets. -/
def anyStep : State → Label → Prop := fun _ _ => True

namespace System
/-- `sys.Reach cond tr s`: the run with trace `tr` ends in `s`, and every step
of it meets `cond` in the state it is taken from. -/
inductive Reach (sys : System State Label) (cond : State → Label → Prop) :
    List Label → State → Prop where
  | init : Reach sys cond [] sys.init
  | step {tr : List Label} {s s' : State} {l : Label} :
      Reach sys cond tr s → cond s l → sys.step s l = some s' →
      Reach sys cond (tr ++ [l]) s'

variable {sys : System State Label} {cond : State → Label → Prop}
variable {tr tr' : List Label} {s s' : State} {l : Label}
/-- Invariant rule: what holds at the start and is kept by every step that
meets the condition holds in every state reached. -/
theorem Reach.invariant (hr : sys.Reach cond tr s) (P : State → Prop) (hinit : P sys.init)
    (hstep : ∀ s l s', P s → cond s l → sys.step s l = some s' → P s') : P s := by
  induction hr with
  | init => exact hinit
  | step _ hc hs ih => exact hstep _ _ _ ih hc hs

theorem Reach.weaken {cond' : State → Label → Prop}
    (hr : sys.Reach cond tr s) (h : ∀ s l, cond s l → cond' s l) : sys.Reach cond' tr s := by
  induction hr with
  | init => exact .init
  | step _ hc hs ih => exact .step ih (h _ _ hc) hs

/-- `sys.Steps cond s tr s'`: the trace `tr` leads from `s` to `s'`, and every
step of it meets `cond`. -/
inductive Steps (sys : System State Label) (cond : State → Label → Prop) (s : State) :
    List Label → State → Prop where
  | refl : Steps sys cond s [] s
  | step {tr : List Label} {s' s'' : State} {l : Label} :
      Steps sys cond s tr s' → cond s' l → sys.step s' l = some s'' →
      Steps sys cond s (tr ++ [l]) s''

theorem Reach.append_steps (hr : sys.Reach cond tr s)
    (hs : sys.Steps cond s tr' s') : sys.Reach cond (tr ++ tr') s' := by
  induction hs with
  | refl => simpa using hr
  | step _ hc hstep ih =>
  rw [← List.append_assoc]
  exact .step ih hc hstep

theorem Steps.cons {s'' : State}
    (hs : sys.Steps cond s' tr s'') (hc : cond s l) (hstep : sys.step s l = some s') :
    sys.Steps cond s (l :: tr) s'' := by
  induction hs with
  | refl => exact .step .refl hc hstep
  | step _ hc' hstep' ih => exact .step ih hc' hstep'

/-- Induction along a continuation of a run: a relation between its first and
its current state. -/
theorem Steps.invariant (hr : sys.Reach cond tr s)
    (hs : sys.Steps cond s tr' s') (P : State → Prop) (hinit : P s)
    (hstep : ∀ t l t', (∃ tr, sys.Reach cond tr t) → P t → cond t l → sys.step t l = some t' →
      P t') : P s' := by
  induction hs with
  | refl => exact hinit
  | step hs hc hst ih => exact hstep _ _ _ ⟨_, hr.append_steps hs⟩ ih hc hst

/-- Runs a trace from a given state; `none` as soon as a step is not possible. -/
def execFrom (sys : System State Label) : State → List Label → Option State
  | s, [] => some s
  | s, l :: ls =>
    match sys.step s l with
    | some s' => execFrom sys s' ls
    | none => none

def exec (sys : System State Label) (tr : List Label) : Option State :=
  sys.execFrom sys.init tr

/-- A computed continuation of a run is a run, when every step is allowed. -/
theorem Reach.append_execFrom (hr : sys.Reach anyStep tr s) :
    ∀ (ls : List Label), sys.execFrom s ls = some s' → sys.Reach anyStep (tr ++ ls) s' := by
  intro ls
  induction ls generalizing tr s with
  | nil =>
    intro h
    simp only [execFrom, Option.some.injEq] at h
    simpa [h] using hr
  | cons l ls ih =>
  intro h
  simp only [execFrom] at h
  cases hs : sys.step s l with
  | none => simp [hs] at h
  | some t =>
  simp only [hs] at h
  have := ih (.step hr trivial hs) h
  simpa using this

theorem reach_of_exec (h : sys.exec tr = some s) : sys.Reach anyStep tr s := by
  have hinit : sys.Reach anyStep [] sys.init := .init
  simpa using hinit.append_execFrom tr h

/-- A computed run whose last state has the property `P`, and with it `Q`. -/
theorem exists_exec {P Q : State → Prop} [DecidablePred P]
    (h : (sys.exec tr).any (fun s => decide (P s)) = true)
    (hq : ∀ s, sys.Reach anyStep tr s → P s → Q s) : ∃ s, sys.Reach anyStep tr s ∧ Q s := by
  obtain ⟨s, hs, hp⟩ := (Option.any_eq_true _ _).mp h
  exact ⟨s, reach_of_exec hs, hq s (reach_of_exec hs) (of_decide_eq_true hp)⟩

section
variable (init : State) (f : State → Label → State)
/-- A component that can always take every step. -/
def ofStep : System State Label where
  init := init
  step s l := some (f s l)

theorem reach_foldl (tr : List Label) : (ofStep init f).Reach anyStep tr (tr.foldl f init) := by
  have hexec : ∀ s, (ofStep init f).execFrom s tr = some (tr.foldl f s) := by
    induction tr with
    | nil => intro s; rfl
    | cons l tr ih => intro s; exact ih (f s l)
  exact reach_of_exec (hexec init)
end
/-! ### Runs with a log -/
/-- The component together with a log of its steps. What is logged depends on
the state a step is taken from. -/
def logged {Log : Type w} (sys : System State Label) (start : Log)
    (record : Log → State → Label → Log) : System (State × Log) Label where
  init := (sys.init, start)
  step x l := (sys.step x.1 l).map fun s => (s, record x.2 x.1 l)

section logged
variable {Log : Type w} {start : Log} {record : Log → State → Label → Log}
theorem logged_step_some {x x' : State × Log} (h : (sys.logged start record).step x l = some x') :
    sys.step x.1 l = some x'.1 ∧ x'.2 = record x.2 x.1 l := by
  simp only [logged, Option.map_eq_some_iff] at h
  obtain ⟨s, hs, rfl⟩ := h
  exact ⟨hs, rfl⟩

/-- Without its log, a run is a run of the component. -/
theorem Reach.of_logged {cond : State × Log → Label → Prop} {x : State × Log}
    (hr : (sys.logged start record).Reach cond tr x) : sys.Reach anyStep tr x.1 := by
  induction hr with
  | init => exact .init
  | step _ _ hs ih => exact .step ih trivial (logged_step_some hs).1
end logged
/-- Runs a trace, and stops where a step does not meet the condition. -/
def execIf (sys : System State Label) (cond : State → Label → Prop)
    [∀ s l, Decidable (cond s l)] : State → List Label → Option State
  | s, [] => some s
  | s, l :: ls =>
    if cond s l then
      match sys.step s l with
      | some s' => execIf sys cond s' ls
      | none => none
    else none

theorem Reach.append_execIf [∀ s l, Decidable (cond s l)]
    (hr : sys.Reach cond tr s) (ls : List Label) (h : sys.execIf cond s ls = some s') :
    sys.Reach cond (tr ++ ls) s' := by
  induction ls generalizing tr s with
  | nil =>
    simp only [execIf, Option.some.injEq] at h
    simpa [h] using hr
  | cons l ls ih =>
  rw [execIf] at h
  split at h
  · rename_i hc
    split at h
    · rename_i t hs
      simpa using ih (.step hr hc hs) h
    cases h
  cases h

/-- A run whose steps are checked to meet the condition. -/
theorem exists_execIf [∀ s l, Decidable (cond s l)] {P Q : State → Prop}
    [DecidablePred P] (h : (sys.execIf cond sys.init tr).any (fun s => decide (P s)) = true)
    (hq : ∀ s, sys.Reach cond tr s → P s → Q s) : ∃ s, sys.Reach cond tr s ∧ Q s := by
  obtain ⟨s, hs, hp⟩ := (Option.any_eq_true _ _).mp h
  have hinit : sys.Reach cond [] sys.init := .init
  have hr : sys.Reach cond tr s := by simpa using hinit.append_execIf tr hs
  exact ⟨s, hr, hq s hr (of_decide_eq_true hp)⟩

theorem steps_of_execIf [∀ s l, Decidable (cond s l)] (ls : List Label)
    (h : sys.execIf cond s ls = some s') : sys.Steps cond s ls s' := by
  induction ls generalizing s with
  | nil =>
    cases h
    exact .refl
  | cons l ls ih =>
  rw [execIf] at h
  split at h
  · rename_i hc
    split at h
    · rename_i t hs
      exact (ih h).cons hc hs
    cases h
  cases h

theorem exists_steps_of_execIf_any [∀ s l, Decidable (cond s l)] {ls : List Label}
    {p : State → Bool} (h : (sys.execIf cond s ls).any p = true) :
    ∃ s', sys.Steps cond s ls s' ∧ p s' = true := by
  cases hs : sys.execIf cond s ls with
  | none =>
    rw [hs] at h
    cases h
  | some s' =>
  rw [hs] at h
  exact ⟨s', steps_of_execIf ls hs, h⟩

/-! ### Two systems with the same runs -/
/-- `abs` maps the runs of `sys` onto the runs of `sys'`, label by label: from
every state in which `I` holds the two can take the same steps, and the
results agree. -/
structure Matches {State' : Type w} (sys : System State Label)
    (cond : State → Label → Prop) (sys' : System State' Label)
    (cond' : State' → Label → Prop) (I : State → Prop) (abs : State → State') : Prop where
  init : I sys.init ∧ abs sys.init = sys'.init
  cond_iff : ∀ s l, cond s l ↔ cond' (abs s) l
  keep : ∀ s l s', I s → cond s l → sys.step s l = some s' → I s'
  step : ∀ s l, I s → (sys.step s l).map abs = sys'.step (abs s) l

variable {State' : Type w} {sys' : System State' Label} {cond' : State' → Label → Prop}
  {I : State → Prop} {abs : State → State'}
theorem Matches.forward (h : Matches sys cond sys' cond' I abs)
    (hr : sys.Reach cond tr s) : I s ∧ sys'.Reach cond' tr (abs s) := by
  induction hr with
  | init => exact ⟨h.init.1, h.init.2 ▸ .init⟩
  | step _ hc hs ih =>
  obtain ⟨hI, hr'⟩ := ih
  refine ⟨h.keep _ _ _ hI hc hs, .step hr' ((h.cond_iff _ _).mp hc) ?_⟩
  rw [← h.step _ _ hI, hs, Option.map_some]

theorem Matches.backward (h : Matches sys cond sys' cond' I abs)
    {t : State'} (hr : sys'.Reach cond' tr t) : ∃ s, I s ∧ abs s = t ∧ sys.Reach cond tr s := by
  induction hr with
  | init => exact ⟨sys.init, h.init.1, h.init.2, .init⟩
  | step _ hc hs ih =>
  obtain ⟨s, hI, rfl, hr⟩ := ih
  rw [← h.step _ _ hI, Option.map_eq_some_iff] at hs
  obtain ⟨s', hs', rfl⟩ := hs
  have hc' := (h.cond_iff _ _).mpr hc
  exact ⟨s', h.keep _ _ _ hI hc' hs', rfl, .step hr hc' hs'⟩
end System
end Framework
