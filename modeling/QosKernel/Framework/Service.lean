import QosKernel.Framework.System

/-! # Services with re-entrant callbacks

A service has calls, and a loop that runs a handler as long as there is
work. The handler invokes callbacks, and a callback may make the
service's calls in any order before it returns. Callbacks are therefore
not functions here: while one runs, every call is a step the run may take,
and so is its return.

A handler is a list of control points: `tau` runs it from one point to
the next, `resume` runs it on after a callback.
-/
namespace Framework
inductive Next (κ : Type u) where
  /-- On to control point `k`. -/
  | goto (k : κ)
  /-- Into a callback; the handler resumes at `k`. -/
  | invoke (k : κ)
  /-- Back to its caller, which for a handler is the loop. -/
  | done

/-- Which code is running. -/
inductive Control (κ : Type u) where
  | idle
  | loop
  | handler (k : κ)
  | callback (k : κ)

def Next.control {κ : Type u} : Next κ → Control κ
  | .goto k => .handler k
  | .invoke k => .callback k
  | .done => .loop

theorem Next.control_ne_idle {κ : Type u} (n : Next κ) : n.control ≠ .idle := by
  cases n <;> exact nofun

/-- The service's own code is running, so the caller has to wait. -/
def Control.busy {κ : Type u} : Control κ → Bool
  | .loop | .handler _ => true
  | .idle | .callback _ => false

/-- The handler is running, or a callback that it invoked. -/
def Control.handling {κ : Type u} : Control κ → Bool
  | .handler _ | .callback _ => true
  | .idle | .loop => false

/-- The steps of a run: a call, the start of the loop, a step of the service's
own code, and the return of a callback. -/
inductive Act (α : Type u) where
  | call (a : α)
  | run
  | tau
  | ret

structure Service (σ : Type u) (α : Type v) (κ : Type w) where
  init : σ
  call : σ → α → Option σ
  /-- The head of the loop: `none` when there is no work, and otherwise the
  handler's entry point, if there is a handler. -/
  take : σ → Option (σ × Option κ)
  tau : σ → κ → σ × Next κ
  resume : σ → κ → σ × Next κ

structure Running (σ : Type u) (κ : Type w) where
  control : Control κ
  data : σ

/-- The lexicographic order in which the remaining work of a handler is
measured. -/
def lexLt : Nat × Nat × Nat → Nat × Nat × Nat → Prop :=
  Prod.Lex (· < ·) (Prod.Lex (· < ·) (· < ·))

theorem lexLt_wf : WellFounded lexLt :=
  (Prod.lex Nat.lt_wfRel (Prod.lex Nat.lt_wfRel Nat.lt_wfRel)).wf

theorem lexLt_zero {a : Nat × Nat × Nat} (h : 0 < a.2.1) : lexLt (0, 0, 0) a := by
  rcases a with ⟨_ | x, y, z⟩
  · exact .right _ (.left _ _ h)
  exact .left _ _ (Nat.succ_pos x)

namespace Service
variable {σ : Type u} {α : Type v} {κ : Type w} (svc : Service σ α κ)
variable {s s' : Running σ κ} {l : Act α}
def step (s : Running σ κ) : Act α → Option (Running σ κ)
  | .call a =>
    if s.control.busy then none else (svc.call s.data a).map fun d => ⟨s.control, d⟩
  | .run =>
    match s.control with
    | .idle => some ⟨.loop, s.data⟩
    | _ => none
  | .tau =>
    match s.control with
    | .loop =>
      match svc.take s.data with
      | none => some ⟨.idle, s.data⟩
      | some (d, none) => some ⟨.loop, d⟩
      | some (d, some k) => some ⟨.handler k, d⟩
    | .handler k => some ⟨(svc.tau s.data k).2.control, (svc.tau s.data k).1⟩
    | _ => none
  | .ret =>
    match s.control with
    | .callback k => some ⟨(svc.resume s.data k).2.control, (svc.resume s.data k).1⟩
    | _ => none

def system : System (Running σ κ) (Act α) where
  init := ⟨.idle, svc.init⟩
  step := svc.step

theorem step_cases (h : svc.step s l = some s') :
    (∃ a d, l = .call a ∧ s.control.busy = false ∧ svc.call s.data a = some d ∧
      s' = ⟨s.control, d⟩) ∨
    (l = .run ∧ s.control = .idle ∧ s' = ⟨.loop, s.data⟩) ∨
    (l = .tau ∧ s.control = .loop ∧ svc.take s.data = none ∧ s' = ⟨.idle, s.data⟩) ∨
    (∃ d, l = .tau ∧ s.control = .loop ∧ svc.take s.data = some (d, none) ∧ s' = ⟨.loop, d⟩) ∨
    (∃ d k, l = .tau ∧ s.control = .loop ∧ svc.take s.data = some (d, some k) ∧
      s' = ⟨.handler k, d⟩) ∨
    (∃ k, l = .tau ∧ s.control = .handler k ∧
      s' = ⟨(svc.tau s.data k).2.control, (svc.tau s.data k).1⟩) ∨
    (∃ k, l = .ret ∧ s.control = .callback k ∧
      s' = ⟨(svc.resume s.data k).2.control, (svc.resume s.data k).1⟩) := by
  rcases s with ⟨c, d⟩
  unfold step at h
  rcases l with a | _ | _ | _ <;> dsimp only at h
  · by_cases hb : c.busy <;> simp only [hb, if_true, Bool.false_eq_true, if_false] at h
    · cases h
    obtain ⟨d', hd, rfl⟩ := Option.map_eq_some_iff.mp h
    exact .inl ⟨a, d', rfl, by simpa using hb, hd, rfl⟩
  · rcases c with _ | _ | k | k <;> cases h
    exact .inr (.inl ⟨rfl, rfl, rfl⟩)
  · rcases c with _ | _ | k | k <;> dsimp only at h
    · cases h
    · rcases ht : svc.take d with _ | ⟨d', _ | k⟩ <;> rw [ht] at h <;> cases h
      · exact .inr (.inr (.inl ⟨rfl, rfl, rfl, rfl⟩))
      · exact .inr (.inr (.inr (.inl ⟨d', rfl, rfl, rfl, rfl⟩)))
      exact .inr (.inr (.inr (.inr (.inl ⟨d', k, rfl, rfl, rfl, rfl⟩))))
    · cases h
      exact .inr (.inr (.inr (.inr (.inr (.inl ⟨k, rfl, rfl, rfl⟩)))))
    cases h
  rcases c with _ | _ | k | k <;> cases h
  exact .inr (.inr (.inr (.inr (.inr (.inr ⟨k, rfl, rfl, rfl⟩)))))

/-- The loop returns only when there is no work. -/
theorem return_cases {d : σ} (h : svc.step ⟨.loop, d⟩ .tau = some s')
    (hidle : s'.control = .idle) : svc.take d = none ∧ s' = ⟨.idle, d⟩ := by
  unfold step at h
  dsimp only at h
  rcases ht : svc.take d with _ | ⟨d', _ | k⟩ <;> rw [ht] at h <;> cases h
  · exact ⟨rfl, rfl⟩
  all_goals cases hidle

theorem run_cases (h : svc.step s .run = some s') : s.control = .idle ∧ s' = ⟨.loop, s.data⟩ := by
  obtain ⟨a, d, hl, -⟩ | ⟨-, hidle, heq⟩ | ⟨hl, -⟩ | ⟨d, hl, -⟩ | ⟨d, k, hl, -⟩ | ⟨k, hl, -⟩ |
    ⟨k, hl, -⟩ := svc.step_cases h
  · cases hl
  · exact ⟨hidle, heq⟩
  all_goals cases hl

/-- The only step of the service's own code that ends a run. -/
theorem idle_cases (h : svc.step s l = some s')
    (hl : l = .tau ∨ l = .ret) (hidle : s'.control = .idle) :
    s.control = .loop ∧ svc.take s.data = none ∧ s' = ⟨.idle, s.data⟩ := by
  obtain ⟨a, d, rfl, -⟩ | ⟨rfl, -⟩ | ⟨-, hloop, ht, heq⟩ | ⟨d, -, -, -, rfl⟩ |
    ⟨d, k, -, -, -, rfl⟩ | ⟨k, -, -, rfl⟩ | ⟨k, -, -, rfl⟩ := svc.step_cases h
  · rcases hl with hl | hl <;> cases hl
  · rcases hl with hl | hl <;> cases hl
  · exact ⟨hloop, ht, heq⟩
  · cases hidle
  · cases hidle
  all_goals exact absurd hidle (Next.control_ne_idle _)

variable (cond : Running σ κ → Act α → Prop)
/-- A property of control and data that every step of the service keeps. -/
structure Keeps (P : Control κ → σ → Prop) : Prop where
  init : P .idle svc.init
  call : ∀ {c d a d'}, c.busy = false → P c d → cond ⟨c, d⟩ (.call a) → svc.call d a = some d' →
    P c d'
  run : ∀ {d}, P .idle d → P .loop d
  idle : ∀ {d}, P .loop d → svc.take d = none → P .idle d
  skip : ∀ {d d'}, P .loop d → svc.take d = some (d', none) → P .loop d'
  enter : ∀ {d d' k}, P .loop d → svc.take d = some (d', some k) → P (.handler k) d'
  tau : ∀ {d k}, P (.handler k) d → cond ⟨.handler k, d⟩ .tau →
    P (svc.tau d k).2.control (svc.tau d k).1
  ret : ∀ {d k}, P (.callback k) d → cond ⟨.callback k, d⟩ .ret →
    P (svc.resume d k).2.control (svc.resume d k).1

variable {svc cond} {P : Control κ → σ → Prop}
theorem Keeps.step (hk : svc.Keeps cond P)
    (hp : P s.control s.data) (hc : cond s l) (h : svc.step s l = some s') :
    P s'.control s'.data := by
  rcases s with ⟨c, d⟩
  obtain ⟨a, d', rfl, hb, hd, rfl⟩ | ⟨rfl, rfl, rfl⟩ | ⟨rfl, rfl, ht, rfl⟩ |
    ⟨d', rfl, rfl, ht, rfl⟩ | ⟨d', k, rfl, rfl, ht, rfl⟩ | ⟨k, rfl, rfl, rfl⟩ |
    ⟨k, rfl, rfl, rfl⟩ := svc.step_cases h
  · exact hk.call hb hp hc hd
  · exact hk.run hp
  · exact hk.idle hp ht
  · exact hk.skip hp ht
  · exact hk.enter hp ht
  · exact hk.tau hp hc
  exact hk.ret hp hc

theorem Keeps.reach (hk : svc.Keeps cond P) {tr : List (Act α)}
    (hr : svc.system.Reach cond tr s) : P s.control s.data :=
  hr.invariant (fun s => P s.control s.data) hk.init fun _ _ _ hp hc h => hk.step hp hc h

/-- The service's own code can always go on. -/
theorem exists_tau (hb : s.control.busy = true) : ∃ s₁, svc.step s .tau = some s₁ := by
  unfold step
  rcases s with ⟨_ | _ | k | k, d⟩
  · cases hb
  · rcases svc.take d with _ | ⟨d', _ | k⟩ <;> simp
  · exact ⟨_, rfl⟩
  cases hb

/-- The service's own code cannot run for ever: if its steps decrease along a
well-founded relation, they lead to a callback or to the end of the
loop. -/
theorem settles {Q : Running σ κ → Prop} {r : Running σ κ → Running σ κ → Prop} (wf : WellFounded r)
    (htau : ∀ s s', Q s → svc.step s .tau = some s' → cond s .tau ∧ Q s' ∧ r s' s)
    (s : Running σ κ) (hs : Q s) :
    ∃ tr s', svc.system.Steps cond s tr s' ∧ (∀ l ∈ tr, l = .tau) ∧ s'.control.busy = false := by
  suffices h : ∀ s, Q s → ∃ tr s', svc.system.Steps cond s tr s' ∧ (∀ l ∈ tr, l = .tau) ∧
      s'.control.busy = false from h s hs
  intro s
  induction s using wf.induction with
  | _ s ih =>
  intro hs
  by_cases hb : s.control.busy = false
  · exact ⟨[], s, .refl, by simp, hb⟩
  obtain ⟨s₁, h₁⟩ := svc.exists_tau (Bool.not_eq_false _ ▸ hb)
  obtain ⟨hc, hq, hr⟩ := htau s s₁ hs h₁
  obtain ⟨tr, s', hsteps, htr, hb'⟩ := ih s₁ hr hq
  refine ⟨.tau :: tr, s', hsteps.cons hc h₁, ?_, hb'⟩
  simpa using htr

/-- Neither can it run for ever together with callbacks that only return: if
both kinds of steps decrease, they lead to the end of the loop, or to a
return that the condition does not allow. -/
theorem finishes {Q : Running σ κ → Prop} {r : Running σ κ → Running σ κ → Prop}
    (wf : WellFounded r)
    (hown : ∀ s l s', Q s → l = .tau ∨ l = .ret → cond s l → svc.step s l = some s' → Q s' ∧ r s' s)
    (htau : ∀ s, cond s .tau) (s : Running σ κ) (hs : Q s) :
    ∃ tr s', svc.system.Steps cond s tr s' ∧ (∀ l ∈ tr, l = .tau ∨ l = .ret) ∧
      (s'.control = .idle ∨ ∃ k, s'.control = .callback k ∧ ¬cond s' .ret) := by
  revert hs
  induction s using wf.induction with
  | _ s ih =>
  intro hs
  have go : ∀ l s₁, l = .tau ∨ l = .ret → cond s l → svc.step s l = some s₁ →
      ∃ tr s', svc.system.Steps cond s tr s' ∧ (∀ l ∈ tr, l = .tau ∨ l = .ret) ∧
        (s'.control = .idle ∨ ∃ k, s'.control = .callback k ∧ ¬cond s' .ret) := by
    intro l s₁ hl hc hstep
    obtain ⟨hq, hr⟩ := hown s l s₁ hs hl hc hstep
    obtain ⟨tr, s', hsteps, htr, hend⟩ := ih s₁ hr hq
    refine ⟨l :: tr, s', hsteps.cons hc hstep, ?_, hend⟩
    intro m hm
    rcases List.mem_cons.mp hm with rfl | hm
    · exact hl
    exact htr m hm
  by_cases hb : s.control.busy = true
  · obtain ⟨s₁, hstep⟩ := svc.exists_tau hb
    exact go .tau s₁ (.inl rfl) (htau s) hstep
  rcases hcontrol : s.control with _ | _ | k | k <;> rw [hcontrol] at hb
  · exact ⟨[], s, .refl, by simp, .inl hcontrol⟩
  · exact absurd rfl hb
  · exact absurd rfl hb
  by_cases hc : cond s .ret
  · have hstep : ∃ s₁, svc.step s .ret = some s₁ := by
      unfold step
      rw [hcontrol]
      exact ⟨_, rfl⟩
    obtain ⟨s₁, hstep⟩ := hstep
    exact go .ret s₁ (.inr rfl) hc hstep
  exact ⟨[], s, .refl, by simp, .inr ⟨k, hcontrol, hc⟩⟩
end Service
end Framework
