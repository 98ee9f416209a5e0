import QosKernel.Framework.Service
import Mathlib.Data.Set.Basic

/-! # Sequential programs with spin locks

One thread of control takes and releases spin locks by hand. If it takes
a lock that is already taken, it spins for ever: there is nobody else to
release it.

* `Prog`: code that takes locks, works on the data behind them, and gets
  an answer from outside wherever the model does not compute a value.
* `Balanced L P f Q`: a Hoare triple. If the locks of `L` are free and
  `P` holds of the data, then `f` does not spin, and when it returns,
  the locks that are held are those that were held before, and `Q` holds
  of the result and the data.
* `Reentrant`: a set of functions that call back into unknown code, which
  may call the functions again.
-/
namespace Framework
/-- How a piece of code ends: it returns, it spins on a lock that is taken, or
it panics. -/
inductive Ending (ℓ σ α : Type) where
  | ret (a : α) (s : σ)
  | spin (l : ℓ)
  | panic

structure Shared (ℓ σ : Type) where
  held : ℓ → Bool
  data : σ
  /-- The answers of everything that is not part of the data. -/
  answers : List Nat

structure Prog (ℓ σ α : Type) where
  run : Shared ℓ σ → Ending ℓ (Shared ℓ σ) α

instance : Monad (Prog ℓ σ) where
  pure a := ⟨fun s => .ret a s⟩
  bind f g := ⟨fun s =>
    match f.run s with
    | .ret a s' => (g a).run s'
    | .spin l => .spin l
    | .panic => .panic⟩

namespace Prog
variable {ℓ σ α β : Type}
theorem bind_run (f : Prog ℓ σ α) (g : α → Prog ℓ σ β) (s : Shared ℓ σ) :
    (f >>= g).run s =
      match f.run s with
      | .ret a s' => (g a).run s'
      | .spin l => .spin l
      | .panic => .panic := rfl

def lock [DecidableEq ℓ] (l : ℓ) : Prog ℓ σ Unit where
  run s := if s.held l then .spin l else .ret () { s with held := Function.update s.held l true }

def unlock [DecidableEq ℓ] (l : ℓ) : Prog ℓ σ Unit where
  run s := .ret () { s with held := Function.update s.held l false }

def read : Prog ℓ σ σ where
  run s := .ret s.data s

def modify (f : σ → σ) : Prog ℓ σ Unit where
  run s := .ret () { s with data := f s.data }

def panic : Prog ℓ σ α where
  run _ := .panic

/-- The next answer; 0 when there is none left. -/
def ask : Prog ℓ σ Nat where
  run s :=
    match s.answers with
    | [] => .ret 0 s
    | n :: rest => .ret n { s with answers := rest }

/-- An answer that is a truth value. -/
def askBool : Prog ℓ σ Bool := do return (← ask) != 0

/-- An answer that may be missing. -/
def askOption : Prog ℓ σ (Option Nat) := do
  let n ← ask
  return if n = 0 then none else some (n - 1)

/-- `f`, run under the lock `l`. -/
def locked [DecidableEq ℓ] (l : ℓ) (f : Prog ℓ σ α) : Prog ℓ σ α := do
  lock l
  let a ← f
  unlock l
  return a

/-- `f`, if `c` holds; its result is dropped. -/
def when (c : Bool) (f : Prog ℓ σ α) : Prog ℓ σ Unit :=
  if c then do
    let _ ← f
    return ()
  else return ()

/-- `f 0`, `f 1`, ..., `f (n - 1)`. -/
def upTo (f : Nat → Prog ℓ σ α) : Nat → Prog ℓ σ Unit
  | 0 => pure ()
  | n + 1 => do
    upTo f n
    let _ ← f n
    return ()
end Prog
/-! ### Balanced programs -/
/-- The ending of a balanced program: it does not spin, and if it returns, then
with the locks that were held before. -/
def Ending.Good {ℓ σ α : Type} (held : ℓ → Bool) (Q : α → σ → Prop) :
    Ending ℓ (Shared ℓ σ) α → Prop
  | .ret a s => s.held = held ∧ Q a s.data
  | .spin _ => False
  | .panic => True

/-- `f` needs the locks of `L` free, and gives back every lock it takes. -/
def Balanced {ℓ σ α : Type} (L : Set ℓ) (P : σ → Prop) (f : Prog ℓ σ α) (Q : α → σ → Prop) : Prop :=
  ∀ s : Shared ℓ σ, (∀ l ∈ L, s.held l = false) → P s.data → (f.run s).Good s.held Q

/-- A balanced program that keeps an invariant of the data. -/
def Keeps {ℓ σ α : Type} (L : Set ℓ) (I : σ → Prop) (f : Prog ℓ σ α) : Prop :=
  Balanced L I f fun _ => I

section rules
variable {ℓ σ α β : Type} {L : Set ℓ} {P : σ → Prop} {f : Prog ℓ σ α} {Q : α → σ → Prop}
theorem balanced_pure {a : α} (h : ∀ d, P d → Q a d) : Balanced L P (pure a) Q := by
  intro s _ hp
  exact ⟨rfl, h s.data hp⟩

theorem Balanced.bind {g : α → Prog ℓ σ β} {R : α → σ → Prop}
    {Q : β → σ → Prop} (hf : Balanced L P f R) (hg : ∀ a, Balanced L (R a) (g a) Q) :
    Balanced L P (f >>= g) Q := by
  intro s hfree hp
  have h := hf s hfree hp
  rw [Prog.bind_run]
  cases hs : f.run s with
  | ret a s' =>
    rw [hs] at h
    obtain ⟨hheld, hr⟩ := h
    -- the second program starts with the same locks free
    have h' := hg a s' (by rw [hheld]; exact hfree) hr
    rwa [hheld] at h'
  | spin l => rw [hs] at h; exact h
  | panic => trivial

/-- Rule of consequence. -/
theorem Balanced.weaken {P' : σ → Prop} {Q' : α → σ → Prop} {L' : Set ℓ}
    (h : Balanced L' P' f Q') (hL : L' ⊆ L) (hP : ∀ d, P d → P' d)
    (hQ : ∀ a d, Q' a d → Q a d) : Balanced L P f Q := by
  intro s hfree hp
  have hs := h s (fun l hl => hfree l (hL hl)) (hP _ hp)
  cases hf : f.run s with
  | ret a s' => rw [hf] at hs; exact ⟨hs.1, hQ _ _ hs.2⟩
  | spin l => rw [hf] at hs; exact hs
  | panic => trivial

/-- What the precondition implies may be assumed. -/
theorem Balanced.of_pre {φ : Prop} (hφ : ∀ d, P d → φ)
    (h : φ → Balanced L P f Q) : Balanced L P f Q :=
  fun s hfree hp => h (hφ s.data hp) s hfree hp

/-- What the data is when it is read is known afterwards. -/
theorem balanced_read : Balanced L P Prog.read fun a d => P d ∧ d = a := by
  intro s _ hp
  exact ⟨rfl, hp, rfl⟩

theorem Balanced.modify {Q : Unit → σ → Prop} {f : σ → σ} (h : ∀ d, P d → Q () (f d)) :
    Balanced L P (Prog.modify f) Q := by
  intro s _ hp
  exact ⟨rfl, h s.data hp⟩

theorem balanced_panic : Balanced L P Prog.panic Q := fun _ _ _ => trivial

/-- `f` starts with the lock `l` taken and the other locks of `L` free, and
releases `l` on every path on which it returns. -/
def Releases [DecidableEq ℓ] (l : ℓ) (L : Set ℓ) (P : σ → Prop) (f : Prog ℓ σ α)
    (Q : α → σ → Prop) : Prop :=
  ∀ s : Shared ℓ σ, s.held l = true → (∀ l' ∈ L \ {l}, s.held l' = false) → P s.data →
    (f.run s).Good (Function.update s.held l false) Q

variable [DecidableEq ℓ] {l : ℓ}
theorem Releases.unlock_bind {g : Unit → Prog ℓ σ α}
    (hg : Balanced L P (g ()) Q) : Releases l L P (Prog.unlock l >>= g) Q := by
  intro s _ hfree hp
  refine hg { s with held := Function.update s.held l false } (fun l' hl' => ?_) hp
  by_cases h : l' = l
  · subst h
    exact Function.update_self ..
  show Function.update s.held l false l' = false
  rw [Function.update_of_ne h]
  exact hfree l' ⟨hl', h⟩

/-- Between taking a lock and releasing it, a program has all other locks to
itself. -/
theorem Releases.bind {g : α → Prog ℓ σ β} {R : α → σ → Prop}
    {Q : β → σ → Prop} (hf : Balanced (L \ {l}) P f R) (hg : ∀ a, Releases l L (R a) (g a) Q) :
    Releases l L P (f >>= g) Q := by
  intro s hl hfree hp
  have h := hf s hfree hp
  rw [Prog.bind_run]
  cases hs : f.run s with
  | ret a s' =>
    rw [hs] at h
    obtain ⟨hheld, hr⟩ := h
    have h' := hg a s' (by rw [hheld]; exact hl) (by rw [hheld]; exact hfree) hr
    rwa [hheld] at h'
  | spin l' => rw [hs] at h; exact h
  | panic => trivial

theorem Balanced.lock_bind {g : Unit → Prog ℓ σ α} (hl : l ∈ L)
    (hg : Releases l L P (g ()) Q) : Balanced L P (Prog.lock l >>= g) Q := by
  intro s hfree hp
  have hls : s.held l = false := hfree l hl
  have hfree' : ∀ l' ∈ L \ {l}, Function.update s.held l true l' = false := by
    intro l' hl'
    rw [Function.update_of_ne (fun h => hl'.2 h)]
    exact hfree l' hl'.1
  have h := hg { s with held := Function.update s.held l true } (Function.update_self ..) hfree' hp
  -- what is held in the end is what was held before the lock was taken
  have hback : Function.update (Function.update s.held l true) l false = s.held := by
    rw [Function.update_idem, Function.update_eq_self_iff]
    exact hls.symm
  rw [hback] at h
  simpa only [Prog.bind_run, Prog.lock, hls, Bool.false_eq_true, if_false] using h

theorem Balanced.locked (hf : Balanced (L \ {l}) P f Q)
    (hl : l ∈ L) : Balanced L P (Prog.locked l f) Q :=
  .lock_bind hl (.bind hf fun _ => .unlock_bind (balanced_pure fun _ h => h))

attribute [irreducible] Prog.locked
end rules
/-! ### Programs that keep an invariant

`grind` knows the rules below. A longer program is taken apart along its
binds and branches first. -/
section keeps
variable {ℓ σ α β : Type} {L : Set ℓ} {I : σ → Prop} {f : Prog ℓ σ α}
theorem Keeps.post {J : σ → Prop} (h : Keeps L J f) (hJ : ∀ d, J d → I d) :
    Balanced L J f fun _ => I :=
  h.weaken (fun _ hl => hl) (fun _ hd => hd) fun _ d hd => hJ d hd

@[grind .] theorem keeps_pure {a : α} : Keeps L I (pure a) := balanced_pure fun _ h => h

@[grind .] theorem keeps_bind {g : α → Prog ℓ σ β} (hf : Keeps L I f)
    (hg : ∀ a, Keeps L I (g a)) : Keeps L I (f >>= g) :=
  hf.bind hg

theorem keeps_bind_option {f : Prog ℓ σ (Option α)} {g : Option α → Prog ℓ σ β} (hf : Keeps L I f)
    (hnone : Keeps L I (g none)) (hsome : ∀ a, Keeps L I (g (some a))) : Keeps L I (f >>= g) := by
  refine keeps_bind hf fun a => ?_
  cases a with
  | none => exact hnone
  | some a => exact hsome a

@[grind .] theorem keeps_panic : Keeps L I (Prog.panic : Prog ℓ σ α) := balanced_panic

@[grind .] theorem keeps_read : Keeps L I Prog.read :=
  balanced_read.weaken (fun _ h => h) (fun _ h => h) fun _ _ h => h.1

@[grind .] theorem keeps_modify {f : σ → σ} (h : ∀ d, I d → I (f d)) : Keeps L I (Prog.modify f) :=
  .modify h

@[grind .] theorem keeps_ask : Keeps L I Prog.ask := by
  intro s _ hp
  unfold Prog.ask
  dsimp only
  split
  all_goals exact ⟨rfl, hp⟩

@[grind .] theorem keeps_askBool : Keeps L I Prog.askBool :=
  keeps_bind keeps_ask fun _ => keeps_pure

@[grind .] theorem keeps_askOption : Keeps L I Prog.askOption :=
  keeps_bind keeps_ask fun _ => keeps_pure

@[grind .] theorem keeps_locked [DecidableEq ℓ] {l : ℓ} (hl : l ∈ L)
    (hf : Keeps (L \ {l}) I f) : Keeps L I (Prog.locked l f) :=
  Balanced.locked hf hl

theorem keeps_ite {c : Prop} [Decidable c] {g : Prog ℓ σ α} (hf : Keeps L I f)
    (hg : Keeps L I g) : Keeps L I (if c then f else g) := by
  split
  · exact hf
  exact hg

@[grind .] theorem keeps_when {c : Bool} (hf : c = true → Keeps L I f) :
    Keeps L I (Prog.when c f) := by
  unfold Prog.when
  split
  · exact keeps_bind (hf ‹_›) fun _ => keeps_pure
  exact keeps_pure

@[grind .] theorem keeps_upTo {f : Nat → Prog ℓ σ α} {n : Nat} (hf : ∀ i, Keeps L I (f i)) :
    Keeps L I (Prog.upTo f n) := by
  induction n with
  | zero => exact keeps_pure
  | succ n ih => exact keeps_bind ih fun _ => keeps_bind (hf n) fun _ => keeps_pure
end keeps
/-! ### Functions that call back

A function may call unknown code, and go on when that code returns. The
unknown code may call any of the functions, and so on without a bound. -/
structure Reentrant (ℓ σ κ γ : Type) where
  init : σ
  /-- The code of a function, up to a control point, a callback or its
  return. -/
  enter : γ → Prog ℓ σ (Next κ)
  /-- The code behind a control point. -/
  tau : κ → Prog ℓ σ (Next κ)
  /-- The code behind a callback that has returned a value. -/
  resume : κ → Nat → Prog ℓ σ (Next κ)

/-- Which code is running. `waiting` are the functions whose callbacks have
not returned; the caller's code is that of the last callback, or that
outside when none is waiting. -/
inductive Status (ℓ σ κ : Type) where
  | caller (waiting : List κ) (held : ℓ → Bool) (data : σ)
  | inside (k : κ) (waiting : List κ) (held : ℓ → Bool) (data : σ)
  | spinning (l : ℓ)
  | panicked

/-- The steps: each comes with the answers that the code gets on its way. -/
inductive Reentrant.Move (γ : Type) where
  | call (c : γ) (answers : List Nat)
  | tau (answers : List Nat)
  | ret (value : Nat) (answers : List Nat)

/-- The status after a piece of code. -/
def Ending.status {ℓ σ κ : Type} (waiting : List κ) :
    Ending ℓ (Shared ℓ σ) (Next κ) → Status ℓ σ κ
  | .ret .done s => .caller waiting s.held s.data
  | .ret (.goto k) s => .inside k waiting s.held s.data
  | .ret (.invoke k) s => .caller (k :: waiting) s.held s.data
  | .spin l => .spinning l
  | .panic => .panicked

/-- No code spins, and all locks are free between the pieces of code. -/
def Status.Orderly {ℓ σ κ : Type} (I : σ → Prop) : Status ℓ σ κ → Prop
  | .caller _ held data => (∀ l, held l = false) ∧ I data
  | .inside _ _ held data => (∀ l, held l = false) ∧ I data
  | .spinning _ => False
  | .panicked => True

namespace Reentrant
variable {ℓ σ κ γ : Type} (m : Reentrant ℓ σ κ γ)
def step : Status ℓ σ κ → Move γ → Option (Status ℓ σ κ)
  | .caller waiting held data, .call c answers =>
    some (((m.enter c).run ⟨held, data, answers⟩).status waiting)
  | .inside k waiting held data, .tau answers =>
    some (((m.tau k).run ⟨held, data, answers⟩).status waiting)
  | .caller (k :: waiting) held data, .ret value answers =>
    some (((m.resume k value).run ⟨held, data, answers⟩).status waiting)
  | _, _ => none

/-- The runs, from a state in which all locks are free. -/
def system : System (Status ℓ σ κ) (Move γ) where
  init := .caller [] (fun _ => false) m.init
  step := m.step

/-- The condition on the steps that `safe` holds of the data and the function
whenever a function is called. -/
def When (safe : σ → γ → Prop) : Status ℓ σ κ → Move γ → Prop
  | .caller _ _ data, .call c _ => safe data c
  | _, _ => True

instance {safe : σ → γ → Prop} [∀ d c, Decidable (safe d c)] (s : Status ℓ σ κ) (a : Move γ) :
    Decidable (When safe s a) :=
  match s, a with
  | .caller _ _ data, .call c _ => inferInstanceAs (Decidable (safe data c))
  | .caller .., .tau _ => .isTrue trivial
  | .caller .., .ret .. => .isTrue trivial
  | .inside .., _ => .isTrue trivial
  | .spinning _, _ => .isTrue trivial
  | .panicked, _ => .isTrue trivial

theorem step_cases {s s' : Status ℓ σ κ} {a : Move γ} (h : m.step s a = some s') :
    (∃ waiting held data c answers, s = .caller waiting held data ∧ a = .call c answers ∧
      s' = ((m.enter c).run ⟨held, data, answers⟩).status waiting) ∨
    (∃ k waiting held data answers, s = .inside k waiting held data ∧ a = .tau answers ∧
      s' = ((m.tau k).run ⟨held, data, answers⟩).status waiting) ∨
    (∃ k waiting held data value answers, s = .caller (k :: waiting) held data ∧
      a = .ret value answers ∧
      s' = ((m.resume k value).run ⟨held, data, answers⟩).status waiting) := by
  unfold step at h
  split at h
  · cases h
    exact .inl ⟨_, _, _, _, _, rfl, rfl, rfl⟩
  · cases h
    exact .inr (.inl ⟨_, _, _, _, _, rfl, rfl, rfl⟩)
  · cases h
    exact .inr (.inr ⟨_, _, _, _, _, _, rfl, rfl, rfl⟩)
  cases h

theorem orderly_of_balanced {I P : σ → Prop} {f : Prog ℓ σ (Next κ)} {held : ℓ → Bool} {data : σ}
    (hf : Balanced Set.univ P f fun _ => I) (hfree : ∀ l, held l = false) (hp : P data)
    (answers : List Nat) (waiting : List κ) :
    ((f.run ⟨held, data, answers⟩).status waiting).Orderly I := by
  have h := hf ⟨held, data, answers⟩ (fun l _ => hfree l) hp
  cases hs : f.run ⟨held, data, answers⟩ with
  | ret next s =>
    rw [hs] at h
    obtain ⟨hheld, hI⟩ := h
    have hfree' : ∀ l, s.held l = false := by rw [hheld]; exact hfree
    cases next with
    | goto k | invoke k | done => exact ⟨hfree', hI⟩
  | spin l => rw [hs] at h; exact h
  | panic => trivial

/-- If every piece of code is balanced, then no run spins or leaves a lock
taken. Calls need to be balanced only where they are safe. -/
theorem orderly_of_reach {I : σ → Prop} {safe : σ → γ → Prop} (hinit : I m.init)
    (henter : ∀ c, Balanced Set.univ (fun d => I d ∧ safe d c) (m.enter c) fun _ => I)
    (htau : ∀ k, Keeps Set.univ I (m.tau k))
    (hresume : ∀ k value, Keeps Set.univ I (m.resume k value))
    {tr : List (Move γ)} {s : Status ℓ σ κ} (hr : m.system.Reach (When safe) tr s) :
    s.Orderly I := by
  refine hr.invariant (Status.Orderly I) ⟨fun _ => rfl, hinit⟩ fun s a s' hs hc hstep => ?_
  obtain ⟨waiting, held, data, c, answers, rfl, rfl, rfl⟩ |
    ⟨k, waiting, held, data, answers, rfl, rfl, rfl⟩ |
    ⟨k, waiting, held, data, value, answers, rfl, rfl, rfl⟩ := m.step_cases hstep
  · exact orderly_of_balanced (henter c) hs.1 ⟨hs.2, hc⟩ answers waiting
  · exact orderly_of_balanced (htau k) hs.1 hs.2 answers waiting
  exact orderly_of_balanced (hresume k value) hs.1 hs.2 answers waiting
end Reentrant
end Framework
