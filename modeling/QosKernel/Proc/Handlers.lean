import QosKernel.Proc.Lineage
import QosKernel.Proc.CProc

/-! # The history of signal handlers

A handler is what the last `SIGACTION` in the process installed, or what
the parent had when the process was forked; an exec in between resets it
unless it is ignored. The history is the list of these events, as a
caller sees them from the results of the calls, the last one first.

A kernel keeps handlers if each of its calls has on the table of handlers
the effect of its event.
-/
open Framework
namespace QosKernel.Handlers
/-- All ones in `SIGACTION` only ask for the handler. -/
def query : UInt64 := 0xFFFFFFFFFFFFFFFF

def Catchable (signum : UInt32) : Prop :=
  CProc.signum_valid signum = true ∧ signum ≠ CProc.QOS_SIGKILL ∧ signum ≠ CProc.QOS_SIGSTOP

instance (signum : UInt32) : Decidable (Catchable signum) :=
  inferInstanceAs (Decidable (_ ∧ _ ∧ _))

abbrev Signal := {signum : UInt32 // Catchable signum}
theorem default_ne_query : CProc.QOS_SIG_DFL ≠ query := by decide

inductive Call where
  | life (c : Family.Call)
  | sigaction (a0 a1 a2 : UInt64)
  | exec (a0 : UInt64) (path : Option (Option CProc.ExecImage))

/-! ### Events -/
inductive Event where
  | created (pid : UInt32)
  | forked (parent_pid child_pid : UInt32)
  | installed (pid signum : UInt32) (handler : UInt64)
  | execd (pid : UInt32)

/-- What a call with this result has done. -/
def event : Call → Int64 → Option Event
  | .life (.create pid _), rc => if rc = 0 then some (.created pid) else none
  | .life (.fork parent_pid child_pid), rc =>
    if rc = 0 then some (.forked parent_pid child_pid) else none
  | .life (.exit _ _), _ | .life (.remove _), _ | .life (.wait _ _ _), _ => none
  | .sigaction a0 a1 a2, rc =>
    if rc ≠ -1 ∧ a2 ≠ query then some (.installed a0.toUInt32 a1.toUInt32 a2) else none
  | .exec a0 _, rc => if rc = 0 then some (.execd a0.toUInt32) else none

theorem toInt64_ne {w : UInt64} (h : w ≠ query) : w.toInt64 ≠ -1 := by
  intro heq
  refine h ?_
  have hw := congrArg Int64.toUInt64 heq
  rw [UInt64.toUInt64_toInt64] at hw
  exact hw

section
variable {a0 a1 a2 : UInt64} {rc : Int64}
theorem event_query (h : a2 = query) : event (.sigaction a0 a1 a2) rc = none :=
  if_neg fun hand => hand.2 h

theorem event_installed (hrc : rc ≠ -1) (h : a2 ≠ query) :
    event (.sigaction a0 a1 a2) rc = some (.installed a0.toUInt32 a1.toUInt32 a2) :=
  if_pos ⟨hrc, h⟩
end
/-- An exec resets a handler unless the signal is ignored. -/
def reset (handler : UInt64) : UInt64 :=
  if handler = CProc.QOS_SIG_IGN then CProc.QOS_SIG_IGN else CProc.QOS_SIG_DFL

/-- The handler of a signal of a process after these events, the last one
first. -/
def latest : List Event → UInt32 → UInt32 → UInt64
  | [], _, _ => CProc.QOS_SIG_DFL
  | .created pid' :: log, pid, signum =>
    if pid = pid' then CProc.QOS_SIG_DFL else latest log pid signum
  | .forked parent_pid child_pid :: log, pid, signum =>
    if pid = child_pid then latest log parent_pid signum else latest log pid signum
  | .installed pid' signum' handler :: log, pid, signum =>
    if pid = pid' ∧ signum = signum' then handler else latest log pid signum
  | .execd pid' :: log, pid, signum =>
    if pid = pid' then reset (latest log pid signum) else latest log pid signum

/-! ### The table of handlers -/
def install (handlers : Signal → UInt64) (signum : UInt32) (handler : UInt64) : Signal → UInt64 :=
  fun g => if g.1 = signum then handler else handlers g

theorem install_uncatchable {handlers : Signal → UInt64} {signum : UInt32} {handler : UInt64}
    (h : ¬Catchable signum) : install handlers signum handler = handlers := by
  funext g
  refine if_neg fun heq => h ?_
  rw [← heq]
  exact g.2

structure Entry where
  member : Family.Member
  handlers : Signal → UInt64

def Entry.free : Entry := ⟨.free, fun _ => CProc.QOS_SIG_DFL⟩
abbrev Table (n : Nat) := Fin n → Entry

namespace Table
variable {pid pid' : UInt32} {log : List Event} {n : Nat}
def family (t : Table n) : Family.Table n := fun i => (t i).member
def find (t : Table n) (pid : UInt32) : Option (Fin n) := t.family.find pid

/-- Pids are distinct, and all ones are not a handler. -/
structure Ok (t : Table n) : Prop where
  family : t.family.Ok
  handler : ∀ i g, (t i).handlers g ≠ query

/-- The effect of an event on the table. Calls without an event may change a
process, but not its handlers, and processes may leave. -/
inductive Effect (t : Table n) : Option Event → Table n → Prop where
  | same : Effect t none t
  | changed {i : Fin n} {m : Family.Member} (hused : m.used = (t i).member.used)
      (hpid : m.pid = (t i).member.pid) : Effect t none (set t i { t i with member := m })
  | left {i : Fin n} : Effect t none (set t i .free)
  | created {i : Fin n} {pid ppid : UInt32} (hadmits : t.family.admits pid = true) :
      Effect t (some (.created pid)) (set t i ⟨.new pid ppid, fun _ => CProc.QOS_SIG_DFL⟩)
  | forked {i parent : Fin n} {ppid pid : UInt32} (hadmits : t.family.admits pid = true)
      (hparent : t.find ppid = some parent) :
      Effect t (some (.forked ppid pid)) (set t i ⟨.new pid ppid, (t parent).handlers⟩)
  | installed {i : Fin n} {pid signum : UInt32} {handler : UInt64} (hi : t.find pid = some i)
      (hne : handler ≠ query) :
      Effect t (some (.installed pid signum handler))
        (set t i { t i with handlers := install (t i).handlers signum handler })
  | execd {i : Fin n} {pid : UInt32} (hi : t.find pid = some i) :
      Effect t (some (.execd pid))
        (set t i { t i with handlers := fun g => reset ((t i).handlers g) })

def Tells (log : List Event) (t : Table n) : Prop :=
  ∀ pid i g, t.find pid = some i → (t i).handlers g = latest log pid g.1

variable {t t' : Table n} {i : Fin n} {e : Entry}
theorem Effect.uncatchable {a0 a1 a2 : UInt64} {rc : Int64} (hi : t.find a0.toUInt32 = some i)
    (h : ¬Catchable a1.toUInt32) : t.Effect (event (.sigaction a0 a1 a2) rc) t := by
  show t.Effect (if _ then _ else _) t
  split
  next hdone =>
    have heffect : t.Effect (some (.installed a0.toUInt32 a1.toUInt32 a2)) _ :=
      Effect.installed hi hdone.2
    rw [install_uncatchable h, set_eq_self] at heffect
    exact heffect
  next => exact .same

theorem family_set : family (set t i e) = set t.family i e.member := set_comp Entry.member

theorem find_set (h : t.family.Ok) {j : Fin n} (hj : find (set t i e) pid = some j) :
    j = i ∧ e.member.used = true ∧ e.member.pid = pid ∨ j ≠ i ∧ t.find pid = some j := by
  obtain ⟨hused, hpid⟩ := Family.Table.find_some hj
  rw [family_set] at hused hpid
  by_cases hji : j = i
  · rw [hji, set_self] at hused hpid
    exact .inl ⟨hji, hused, hpid⟩
  rw [set_ne hji] at hused hpid
  exact .inr ⟨hji, hpid ▸ h.find hused⟩

/-- The table tells the longer history, if it tells it of the entry that was
written, and the event is not about any other process. -/
theorem Tells.set {log' : List Event} (h : Tells log t) (hok : t.family.Ok)
    (hentry : e.member.used = true → ∀ g, e.handlers g = latest log' e.member.pid g.1)
    (hother : ∀ pid j, j ≠ i → t.find pid = some j →
      ∀ g : Signal, latest log' pid g.1 = latest log pid g.1) : Tells log' (set t i e) := by
  intro pid j g hj
  rcases find_set hok hj with ⟨rfl, hused, hpid⟩ | ⟨hji, hfind⟩
  · rw [set_self, hentry hused, hpid]
  rw [set_ne hji, hother pid j hji hfind, h pid j g hfind]

theorem Effect.ok {event : Option Event} (he : Effect t event t') (h : t.Ok) : t'.Ok := by
  have hset : ∀ {i : Fin n} {e : Entry}, Family.Table.Ok (Framework.set t.family i e.member) →
      (∀ g, e.handlers g ≠ query) → Ok (Framework.set t i e) := by
    intro i e hfam hhandlers
    refine ⟨family_set ▸ hfam, fun j g => ?_⟩
    by_cases hji : j = i
    · rw [hji, set_self]
      exact hhandlers g
    rw [set_ne hji]
    exact h.handler j g
  cases he with
  | same => exact h
  | changed hused hpid => exact hset (h.family.change hused hpid) (h.handler _)
  | left => exact hset h.family.leave fun _ => default_ne_query
  | created hadmits =>
    obtain ⟨hpid, hnone, -⟩ := Family.Table.admits_iff.mp hadmits
    exact hset (h.family.new (m := .new _ _) hpid hnone) fun _ => default_ne_query
  | forked hadmits hparent =>
    obtain ⟨hpid, hnone, -⟩ := Family.Table.admits_iff.mp hadmits
    exact hset (h.family.new (m := .new _ _) hpid hnone) (h.handler _)
  | installed hi hne =>
    refine hset (h.family.change rfl rfl) fun g => ?_
    dsimp only [install]
    split
    · exact hne
    exact h.handler _ g
  | execd hi =>
  refine hset (h.family.change rfl rfl) fun g => ?_
  dsimp only [reset]
  split <;> decide

theorem ne_of_admits {j : Fin n} (hadmits : t.family.admits pid = true) (hj : t.find pid' = some j) :
    pid' ≠ pid := by
  rintro rfl
  have hnone : t.find pid' = none := (Family.Table.admits_iff.mp hadmits).2.1
  rw [hj] at hnone
  cases hnone

theorem ne_of_find {j : Fin n} (hi : t.find pid = some i) (hj : t.find pid' = some j) (hji : j ≠ i) :
    pid' ≠ pid := by
  rintro rfl
  rw [hi] at hj
  exact hji (Option.some.inj hj).symm

theorem Effect.tells {event : Option Event} (he : Effect t event t') (h : Tells log t)
    (hok : t.Ok) : Tells (event.toList ++ log) t' := by
  have hpid : ∀ {pid : UInt32} {i : Fin n}, t.find pid = some i → (t i).member.pid = pid :=
    fun hi => (Family.Table.find_some hi).2
  cases he with
  | same => exact h
  | changed hused hmember =>
    refine h.set hok.family (fun hm g => ?_) fun _ _ _ _ _ => rfl
    rw [hused] at hm
    exact h _ _ g (hmember ▸ hok.family.find hm)
  | left => exact h.set hok.family (fun hm => by cases hm) fun _ _ _ _ _ => rfl
  | created hadmits =>
    refine h.set hok.family (fun _ g => ?_) fun pid' j _ hj g => ?_
    · exact (if_pos rfl).symm
    exact if_neg (ne_of_admits hadmits hj)
  | forked hadmits hparent =>
    refine h.set hok.family (fun _ g => ?_) fun pid' j _ hj g => ?_
    · exact (h _ _ g hparent).trans (if_pos rfl).symm
    exact if_neg (ne_of_admits hadmits hj)
  | @installed i pid signum handler hi hne =>
    refine h.set hok.family (fun _ g => ?_) fun pid' j hji hj g => ?_
    · show _ = if _ ∧ _ then _ else _
      dsimp only [install]
      rw [hpid hi]
      by_cases hg : g.1 = signum
      · rw [if_pos hg, if_pos ⟨rfl, hg⟩]
      rw [if_neg hg, if_neg fun hand => hg hand.2]
      exact h pid i g hi
    exact if_neg fun hand => ne_of_find hi hj hji hand.1
  | @execd i pid hi =>
  refine h.set hok.family (fun _ g => ?_) fun pid' j hji hj g => ?_
  · show _ = if _ then _ else _
    dsimp only
    rw [hpid hi, if_pos rfl, h pid i g hi]
    rfl
  exact if_neg (ne_of_find hi hj hji)
end Table
/-! ### Kernels -/
/-- A kernel: its calls, the handler it reports, and the table of handlers it
keeps. The calls that meet `cond` have the effect of their events. -/
structure Kernel (σ : Type) (n : Nat) where
  init : σ
  call : σ → Call → Int64 × σ
  get_handler : σ → UInt32 → UInt32 → Option UInt64
  cond : σ → Call → Prop
  table : σ → Table n
  table_init : table init = fun _ => .free
  get_handler_eq : ∀ s pid (g : Signal),
    get_handler s pid g.1 = ((table s).find pid).map fun i => (table s i).handlers g
  effect : ∀ s c, (table s).Ok → cond s c →
    (table s).Effect (event c (call s c).1) (table (call s c).2)
  sigaction_reports : ∀ s a0 a1 a2 i (g : Signal), (table s).find a0.toUInt32 = some i →
    a1.toUInt32 = g.1 → (call s (.sigaction a0 a1 a2)).1 = ((table s i).handlers g).toInt64

/-- A kernel and the history of its handlers. -/
structure Logged (σ : Type) where
  state : σ
  log : List Event

namespace Kernel
variable {σ : Type} {n : Nat} (k : Kernel σ n)
def step (l : Logged σ) (c : Call) : Logged σ where
  state := (k.call l.state c).2
  log := (event c (k.call l.state c).1).toList ++ l.log

def system : System (Logged σ) Call := .ofStep ⟨k.init, []⟩ k.step
def has (s : σ) (pid : UInt32) : Bool := ((k.table s).find pid).isSome

/-- The handler reported of a catchable signal of a process is the one of the
history, whether it is read or `SIGACTION` returns it. -/
def Reports (l : Logged σ) : Prop :=
  ∀ pid (g : Signal), k.has l.state pid = true →
    k.get_handler l.state pid g.1 = some (latest l.log pid g.1) ∧
      ∀ a0 a1 a2, a0.toUInt32 = pid → a1.toUInt32 = g.1 →
        (k.call l.state (.sigaction a0 a1 a2)).1 = (latest l.log pid g.1).toInt64

variable {k} {l : Logged σ}
theorem reports_of_tells (h : (k.table l.state).Tells l.log) : k.Reports l := by
  intro pid g hhas
  obtain ⟨i, hi⟩ := Option.isSome_iff_exists.mp hhas
  constructor
  · rw [k.get_handler_eq, hi, Option.map_some, h pid i g hi]
  intro a0 a1 a2 ha0 ha1
  rw [k.sigaction_reports l.state a0 a1 a2 i g (ha0 ▸ hi) ha1, h pid i g hi]

theorem ok_init : (k.table k.init).Ok := by
  rw [k.table_init]
  exact ⟨Family.Table.ok_empty, fun _ _ => default_ne_query⟩

theorem tells_step {c : Call} (hok : (k.table l.state).Ok) (h : (k.table l.state).Tells l.log)
    (hc : k.cond l.state c) :
    (k.table (k.step l c).state).Ok ∧ (k.table (k.step l c).state).Tells (k.step l c).log := by
  have heffect := k.effect l.state c hok hc
  exact ⟨heffect.ok hok, heffect.tells h hok⟩

theorem tells_of_reach {tr : List Call} (hr : k.system.Reach (fun l c => k.cond l.state c) tr l) :
    (k.table l.state).Ok ∧ (k.table l.state).Tells l.log := by
  refine hr.invariant (fun l => (k.table l.state).Ok ∧ (k.table l.state).Tells l.log) ?_ ?_
  · refine ⟨k.ok_init, fun pid i g hi => ?_⟩
    dsimp only [system, System.ofStep] at hi ⊢
    rw [k.table_init]
    rfl
  intro l c l' h hc hstep
  cases hstep
  exact tells_step h.1 h.2 hc
end Kernel
end QosKernel.Handlers
