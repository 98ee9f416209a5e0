import QosKernel.Proc.CDelivery

/-! # The exit status

What matters here of a process is its life: whether it has exited or is
stopped, and its status. Two kinds of events change it, an exit and the
default action of a signal. Nothing in the code keeps default actions from
being taken on a process that has exited: such a process may be stopped,
and its status replaced.
-/
open Framework
namespace QosKernel.CProc
/-! ### The life of a process -/
inductive DefaultAction where
  | ignore
  | resume
  | stop
  | terminate
  deriving DecidableEq

def default_action (signum : UInt32) : DefaultAction :=
  if signum = 17 then .ignore
  else if signum = 18 then .resume
  else if signum = QOS_SIGSTOP ∨ signum = 20 ∨ signum = 21 ∨ signum = 22 then .stop
  else .terminate

inductive Event where
  | exit (code : Int32)
  | default (signum : UInt32)

variable {signum : UInt32} {e : Event} {code : Int32} {p : Process}
structure Life where
  exited : Bool
  stopped : Bool
  exit_code : Int32
  deriving DecidableEq

def Life.dead (code : Int32) : Life := ⟨true, false, code⟩

def Life.after (l : Life) : Event → Life
  | .exit code => .dead code
  | .default signum =>
    match default_action signum with
    | .ignore => l
    | .resume => { l with stopped := false }
    | .stop => { l with stopped := true }
    | .terminate => .dead (128 + signum.toInt32)

/-- The status of the termination that an event is, if it is one. -/
def Event.status : Event → Option Int32
  | .exit code => some code
  | .default signum =>
    if default_action signum = .terminate then some (128 + signum.toInt32) else none

theorem Event.status_default {a : DefaultAction} (h : default_action signum = a) :
    (Event.default signum).status = if a = .terminate then some (128 + signum.toInt32) else none
    := by
  rw [← h]
  rfl

theorem Life.after_of_status (h : e.status = some code) (l : Life) : l.after e = .dead code := by
  cases e with
  | exit code' =>
    cases h
    rfl
  | default signum =>
  cases hact : default_action signum with
  | terminate =>
    rw [Event.status_default hact] at h
    cases h
    simp only [after, hact]
  | _ =>
  rw [Event.status_default hact] at h
  cases h

theorem Life.exited_after (h : e.status = none) (l : Life) : (l.after e).exited = l.exited := by
  cases e with
  | exit code => cases h
  | default signum =>
  cases hact : default_action signum with
  | terminate =>
    rw [Event.status_default hact] at h
    cases h
  | _ => simp only [after, hact]

theorem Life.dead_after (h : default_action signum = .ignore ∨ default_action signum = .resume) :
    (dead code).after (.default signum) = dead code := by
  rcases h with h | h <;> simp only [after, h]
  rfl

namespace Process
variable (p : Process)
def life : Life := ⟨p.exited, p.stopped, p.exit_code⟩

/-- The signal for which the next delivery takes the default action. -/
def default_next : Option UInt32 :=
  (signums.find? (p.ready p.deliverable)).bind fun s =>
    if p.sig_handlers s.toNat = QOS_SIG_DFL then some s else none
end Process
/-- An event that leaves a process alone that has exited. -/
structure Event.Fits (p : Process) (e : Event) : Prop where
  alive_of_exit : ∀ code, e = .exit code → p.exited = false
  leaves : ∀ signum, e = .default signum → p.exited = true →
    default_action signum = .ignore ∨ default_action signum = .resume

theorem Event.Fits.alive (h : e.Fits p) (hcode : e.status = some code) : p.exited = false := by
  cases e with
  | exit code' => exact h.alive_of_exit code' rfl
  | default signum =>
  by_contra hdead
  rcases h.leaves signum rfl (by simpa using hdead) with hact | hact
  · rw [Event.status_default hact] at hcode
    cases hcode
  rw [Event.status_default hact] at hcode
  cases hcode

/-- What a call does to the life of the process it is about. -/
def Call.event (c : Call) (p : Process) : Option Event :=
  match c with
  -- the second exit of a process is refused; signals are not
  | .exit _ code => if p.exited then none else some (.exit code)
  | .signal_next _ => p.default_next.map .default
  | .signal_apply_default _ signum => if signum_valid signum then some (.default signum) else none
  | .sigsuspend _ a1 => (p.signal_set_mask a1.toUInt32).default_next.map .default
  | _ => none

theorem Call.alive_of_exit {c : Call} (h : c.event p = some (.exit code)) : p.exited = false := by
  cases c with
  | exit pid code' =>
    dsimp only [event] at h
    split at h
    · cases h
    next halive => simpa using halive
  | signal_next pid | sigsuspend a0 a1 =>
    obtain ⟨_, _, heq⟩ := Option.map_eq_some_iff.mp h
    cases heq
  | signal_apply_default pid signum =>
    dsimp only [event] at h
    split at h <;> cases h
  | _ => cases h

namespace Process
variable {p : Process}
theorem life_apply_default {s : UInt32} (hs : signum_valid s = true) :
    ((p.signal_apply_default s).getD p).life = p.life.after (.default s) := by
  unfold signal_apply_default Life.after default_action
  rw [hs]
  dsimp only [Bool.not_true]
  -- the tests on the number are the same on both sides
  repeat' split
  all_goals first | rfl | simp_all

theorem life_clearAll (p : Process) (l : List UInt32) : (p.clearAll l).life = p.life := by
  obtain ⟨pending, heq⟩ := p.clearAll_ends l
  rw [heq]
  rfl

theorem life_signal_next (p : Process) :
    p.signal_next.2.life = (p.default_next.map Event.default).elim p.life p.life.after := by
  cases hfind : signums.find? (p.ready p.deliverable) with
  | none =>
    rw [signal_next_none hfind]
    unfold default_next
    rw [hfind]
    exact p.life_clearAll _
  | some s =>
  have hpassed : (p.passed s).life = p.life := p.life_clearAll _
  have hhandlers : (p.passed s).sig_handlers = p.sig_handlers := by
    unfold passed
    obtain ⟨pending, heq⟩ := p.clearAll_ends
      ((signums.takeWhile (· ≠ s)).filter (bitAt p.deliverable))
    rw [heq]
  rw [signal_next_some hfind]
  unfold default_next deliver
  rw [hfind, hhandlers, Option.bind_some]
  split
  · have hvalid := signum_valid_of_mem (List.mem_of_find?_eq_some hfind)
    have hlife := life_apply_default (p := (p.passed s).clear s) hvalid
    rw [hlife]
    show (p.passed s).life.after _ = _
    rw [hpassed]
    rfl
  exact hpassed

theorem life_acts {c : Call} {pid : UInt32} {f : Process → Process} (hc : c.acts = some (pid, f))
    (p : Process) : (f p).life = (c.event p).elim p.life p.life.after := by
  cases c <;> cases hc
  case exit code =>
    dsimp only [Call.event, Process.exit]
    split <;> rfl
  case signal_next => exact p.life_signal_next
  case sigsuspend a0 a1 => exact (p.signal_set_mask a1.toUInt32).life_signal_next
  case signal_apply_default signum =>
    dsimp only [Call.event]
    cases hvalid : signum_valid signum with
    | true => exact life_apply_default hvalid
    | false =>
    unfold signal_apply_default
    rw [hvalid]
    rfl
  case exec_signal_reset => rfl
  case exec path => rcases path with _ | _ | image <;> rfl
  case exec_image_set image => cases image <;> rfl
  case signal_sigreturn frame => cases frame <;> rfl
  case sigprocmask a0 a1 a2 =>
    dsimp only
    cases Procs.new_mask p.sig_blocked a1.toUInt32 a2.toUInt32 <;> rfl
  case sigreturn frame =>
    dsimp only
    split
    · cases frame <;> rfl
    rfl
  -- the others change another field, or fail
  all_goals
    dsimp only [cwd_set_idx, signal_set_handler, signal_send]
    repeat' split
    all_goals rfl
end Process
/-! ### Runs -/
/-- A run of the table, with the processes numbered. -/
structure ExitRun where
  procs : Procs
  births : Births QOS_PROC_MAX
  /-- The status of the first termination of each process, by its number. -/
  status : Nat → Option Int32

namespace ExitRun
variable {i : Slot} {p : Process} {count : UInt32} {e : Event} {code : Int32} {c : Call}
def init : ExitRun := ⟨.qos_proc_reset, .init, fun _ => none⟩

section
variable (r : ExitRun)
def target (c : Call) : Option Slot := c.acts.bind fun act => r.procs.find_pid act.1

/-- The event of a call, with the slot of the process. -/
def event (c : Call) : Option (Slot × Event) :=
  (r.target c).bind fun i => (c.event (r.procs.procs i)).map (i, ·)

/-- A termination is noted, if it is the first. -/
def note (i : Slot) (code : Int32) : Nat → Option Int32 :=
  set r.status (r.births.birth i) (some ((r.status (r.births.birth i)).getD code))

/-- The statuses after an event, if any, of the process in slot `i`. -/
def after (i : Slot) (e : Option Event) : Nat → Option Int32 :=
  (e.bind Event.status).elim r.status (r.note i)

def step (c : Call) : ExitRun where
  procs := r.procs.step c
  births := r.births.observe (fun i => (r.procs.procs i).used)
    fun i => ((r.procs.step c).procs i).used
  status :=
    match r.event c with
    | none => r.status
    | some (i, e) => r.after i (some e)
end
def system : System ExitRun Call := .ofStep init step

/-- No default action stops or terminates a process that has exited. -/
def LeavesDead (r : ExitRun) (c : Call) : Prop :=
  match r.event c with
  | some (i, .default signum) => (r.procs.procs i).exited = true →
      default_action signum = .ignore ∨ default_action signum = .resume
  | _ => True

instance (r : ExitRun) (c : Call) : Decidable (r.LeavesDead c) := by
  unfold LeavesDead
  split <;> infer_instance

structure Ok (r : ExitRun) : Prop where
  pids : r.procs.family.Ok
  births : r.births.Ok fun i => (r.procs.procs i).used
  /-- A process that is still to come has no status. -/
  unborn : ∀ n, r.births.born ≤ n → r.status n = none
  dead : ∀ i, (r.procs.procs i).used = true → ∀ code,
    r.status (r.births.birth i) = some code → (r.procs.procs i).life = .dead code
  noted : ∀ i, (r.procs.procs i).used = true → (r.procs.procs i).exited = true →
    (r.status (r.births.birth i)).isSome = true

theorem ok_init : init.Ok where
  pids := Family.Table.ok_empty
  births := Births.init_ok fun _ => rfl
  unborn _ _ := rfl
  dead _ hi := by cases hi
  noted _ hi := by cases hi

variable {r : ExitRun}
theorem Ok.new (h : r.Ok) (hpids : (Procs.mk (set r.procs.procs i p) count).family.Ok)
    (hexited : p.exited = false) :
    Ok ⟨⟨set r.procs.procs i p, count⟩, ⟨r.births.born + 1, set r.births.birth i r.births.born⟩,
      r.status⟩ := by
  have hother : ∀ j, j ≠ i → (set r.procs.procs i p j).used = (r.procs.procs j).used := by
    intro j hji
    rw [set_ne hji]
  constructor
  case pids => exact hpids
  case births => exact h.births.new hother
  case unborn =>
    intro n hn
    exact h.unborn n (Nat.le_of_succ_le hn)
  case dead =>
    intro j hj code hcode
    replace hcode : r.status (set r.births.birth i r.births.born j) = some code := hcode
    show (set r.procs.procs i p j).life = _
    by_cases hji : j = i
    · -- it has no status yet
      rw [hji, set_self, h.unborn _ (Nat.le_refl _)] at hcode
      cases hcode
    rw [set_ne hji] at hcode ⊢
    exact h.dead j (hother j hji ▸ hj) code hcode
  case noted =>
    intro j hj hdead
    replace hdead : (set r.procs.procs i p j).exited = true := hdead
    show (r.status (set r.births.birth i r.births.born j)).isSome = true
    by_cases hji : j = i
    · rw [hji, set_self, hexited] at hdead
      cases hdead
    rw [set_ne hji] at hdead ⊢
    exact h.noted j (hother j hji ▸ hj) hdead

theorem Ok.leave (h : r.Ok) (hpids : (Procs.mk (set r.procs.procs i .free) count).family.Ok) :
    Ok ⟨⟨set r.procs.procs i .free, count⟩, r.births, r.status⟩ := by
  have hother : ∀ j, (set r.procs.procs i .free j).used = true →
      (r.procs.procs j).used = true ∧ set r.procs.procs i .free j = r.procs.procs j := by
    intro j hj
    by_cases hji : j = i
    · rw [hji, set_self] at hj
      cases hj
    rw [set_ne hji] at hj ⊢
    exact ⟨hj, rfl⟩
  constructor
  case pids => exact hpids
  case births => exact h.births.fewer fun j hj => (hother j hj).1
  case unborn => exact h.unborn
  case dead =>
    intro j hj code hcode
    show (set r.procs.procs i .free j).life = _
    rw [(hother j hj).2]
    exact h.dead j (hother j hj).1 code hcode
  case noted =>
    intro j hj hdead
    replace hdead : (set r.procs.procs i .free j).exited = true := hdead
    rw [(hother j hj).2] at hdead
    exact h.noted j (hother j hj).1 hdead

theorem after_ne {n : Nat} (hn : n ≠ r.births.birth i) (e : Option Event) :
    r.after i e n = r.status n := by
  unfold after
  cases e.bind Event.status with
  | none => rfl
  | some code => exact set_ne hn

theorem after_self (hcode : e.status = some code) (hfirst : r.status (r.births.birth i) = none) :
    r.after i (some e) (r.births.birth i) = some code := by
  unfold after note
  rw [Option.bind_some, hcode, Option.elim_some, set_self, hfirst]
  rfl

theorem after_of_status_none (h : e.status = none) : r.after i (some e) = r.status := by
  unfold after
  rw [Option.bind_some, h]
  rfl

theorem Ok.status_none (h : r.Ok) (hi : (r.procs.procs i).used = true)
    (halive : (r.procs.procs i).exited = false) : r.status (r.births.birth i) = none := by
  cases hcode : r.status (r.births.birth i) with
  | none => rfl
  | some code =>
  have hdead := congrArg Life.exited (h.dead i hi code hcode)
  rw [show (r.procs.procs i).life.exited = _ from halive] at hdead
  cases hdead

theorem Ok.dead_after (h : r.Ok) (hi : (r.procs.procs i).used = true)
    (hfits : e.Fits (r.procs.procs i)) (hcode : r.after i (some e) (r.births.birth i) = some code) :
    (r.procs.procs i).life.after e = .dead code := by
  cases hstatus : e.status with
  | some code' =>
    rw [after_self hstatus (h.status_none hi (hfits.alive hstatus))] at hcode
    obtain rfl := Option.some.inj hcode
    exact Life.after_of_status hstatus _
  | none =>
  -- the process had terminated before
  rw [after_of_status_none hstatus] at hcode
  have hdead := h.dead i hi code hcode
  have hexited : (r.procs.procs i).exited = true := congrArg Life.exited hdead
  rw [hdead]
  cases e with
  | exit code' => cases hstatus
  | default signum => exact Life.dead_after (hfits.leaves signum rfl hexited)

theorem Ok.noted_after (h : r.Ok) (hi : (r.procs.procs i).used = true)
    (hfits : e.Fits (r.procs.procs i)) (hdead : ((r.procs.procs i).life.after e).exited = true) :
    (r.after i (some e) (r.births.birth i)).isSome = true := by
  cases hstatus : e.status with
  | some code =>
    rw [after_self hstatus (h.status_none hi (hfits.alive hstatus))]
    rfl
  | none =>
  rw [after_of_status_none hstatus]
  exact h.noted i hi ((Life.exited_after hstatus _).symm.trans hdead)

theorem Ok.change (h : r.Ok) {e : Option Event} (hi : (r.procs.procs i).used = true)
    (hsame : Process.Same (r.procs.procs i) p)
    (hpids : (Procs.mk (set r.procs.procs i p) r.procs.count).family.Ok)
    (hlife : p.life = e.elim (r.procs.procs i).life (r.procs.procs i).life.after)
    (hfits : ∀ event, e = some event → event.Fits (r.procs.procs i)) :
    Ok ⟨⟨set r.procs.procs i p, r.procs.count⟩, r.births, r.after i e⟩ := by
  have hused : ∀ j, (set r.procs.procs i p j).used = (r.procs.procs j).used := by
    intro j
    by_cases hji : j = i
    · rw [hji, set_self, hsame.1]
    rw [set_ne hji]
  -- the status of the others
  have hother : ∀ j, j ≠ i → (r.procs.procs j).used = true →
      r.after i e (r.births.birth j) = r.status (r.births.birth j) := by
    intro j hji hj
    exact after_ne (fun heq => hji (h.births.distinct j i hj hi heq)) e
  constructor
  case pids => exact hpids
  case births =>
    refine h.births.fewer fun j hj => ?_
    rw [← hused j]
    exact hj
  case unborn =>
    intro n hn
    show r.after i e n = none
    have hne : n ≠ r.births.birth i := fun heq =>
      absurd (h.births.past i hi) (Nat.not_lt_of_le (heq ▸ hn))
    rw [after_ne hne]
    exact h.unborn n hn
  case dead =>
    intro j hj code hcode
    replace hj : (set r.procs.procs i p j).used = true := hj
    replace hcode : r.after i e (r.births.birth j) = some code := hcode
    rw [hused j] at hj
    show (set r.procs.procs i p j).life = _
    by_cases hji : j = i
    · subst hji
      rw [set_self, hlife]
      cases e with
      | none => exact h.dead j hi code hcode
      | some e => exact h.dead_after hi (hfits e rfl) hcode
    rw [set_ne hji]
    rw [hother j hji hj] at hcode
    exact h.dead j hj code hcode
  case noted =>
    intro j hj hdead
    replace hj : (set r.procs.procs i p j).used = true := hj
    replace hdead : (set r.procs.procs i p j).exited = true := hdead
    rw [hused j] at hj
    show (r.after i e (r.births.birth j)).isSome = true
    by_cases hji : j = i
    · subst hji
      rw [set_self] at hdead
      replace hdead : p.life.exited = true := hdead
      rw [hlife] at hdead
      cases e with
      | none => exact h.noted j hi hdead
      | some e => exact h.noted_after hi (hfits e rfl) hdead
    rw [hother j hji hj]
    rw [set_ne hji] at hdead
    exact h.noted j hj hdead

theorem observe_self {t : Procs}
    (hused : ∀ i, (t.procs i).used = true → (r.procs.procs i).used = true) :
    r.births.observe (fun i => (r.procs.procs i).used) (fun i => (t.procs i).used) = r.births :=
  Births.observe_eq_self hused

theorem observe_set {slot : Slot} (hslot : r.procs.free_slot = some slot) (hp : p.used = true) :
    r.births.observe (fun i => (r.procs.procs i).used)
      (fun i => (set r.procs.procs slot p i).used) =
      ⟨r.births.born + 1, set r.births.birth slot r.births.born⟩ := by
  refine Births.observe_new (Procs.unused_of_free_slot hslot) ?_ fun j hji => ?_
  · rw [set_self]
    exact hp
  rw [set_ne hji]

theorem step_of_target_none (h : r.target c = none) : (r.step c).status = r.status := by
  unfold step event
  rw [h]
  rfl

theorem step_of_target (h : r.target c = some i) :
    (r.step c).status = r.after i (c.event (r.procs.procs i)) := by
  unfold step event
  rw [h, Option.bind_some]
  cases c.event (r.procs.procs i) with
  | none | some e => rfl

theorem Ok.step (h : r.Ok) (hc : r.LeavesDead c) : (r.step c).Ok := by
  have hpids : (r.procs.step c).family.Ok := Procs.ok_step h.pids c
  have hstep : r.step c = ⟨r.procs.step c, r.births.observe (fun i => (r.procs.procs i).used)
      fun i => ((r.procs.step c).procs i).used, (r.step c).status⟩ := rfl
  cases hacts : c.acts with
  | some act =>
    obtain ⟨pid, f⟩ := act
    cases hfind : r.procs.find_pid pid with
    | none =>
      have htarget : r.target c = none := by
        unfold target
        rw [hacts]
        exact hfind
      rw [hstep, step_of_target_none htarget, Procs.step_of_find_none hacts hfind,
        observe_self fun _ hi => hi]
      exact h
    | some i =>
    have htarget : r.target c = some i := by
      unfold target
      rw [hacts]
      exact hfind
    have hi := (Procs.used_of_find_pid hfind).1
    have hsame := Process.same_of_acts hacts (r.procs.procs i)
    have hused : ∀ j, (set r.procs.procs i (f (r.procs.procs i)) j).used = true →
        (r.procs.procs j).used = true := by
      intro j hj
      by_cases hji : j = i
      · rw [hji]
        exact hi
      rw [set_ne hji] at hj
      exact hj
    rw [Procs.step_of_find hacts hfind] at hpids
    rw [hstep, step_of_target htarget, Procs.step_of_find hacts hfind, observe_self hused]
    refine h.change hi hsame hpids (Process.life_acts hacts _) fun e hevent => ⟨?_, ?_⟩
    · rintro code rfl
      exact Call.alive_of_exit hevent
    -- here the condition on the step is used
    · rintro signum rfl hexited
      unfold LeavesDead event at hc
      rw [htarget, Option.bind_some, hevent] at hc
      exact hc hexited
  | none =>
  have htarget : r.target c = none := by
    unfold target
    rw [hacts]
    rfl
  -- nothing, a new process, a child, or a process that leaves
  obtain heq | ⟨pid, ppid, slot, -, -, -, hslot, heq⟩ | ⟨parent_pid, child_pid, parent, slot, -, -,
    -, -, hslot, heq⟩ | ⟨i, -, -, heq⟩ | ⟨pid, f, i, hsome, -, -⟩ := r.procs.step_cases c
  · rw [hstep, step_of_target_none htarget, heq, observe_self fun _ hi => hi]
    exact h
  · rw [heq] at hpids
    rw [hstep, step_of_target_none htarget, heq, observe_set hslot rfl]
    exact h.new hpids rfl
  · rw [heq] at hpids
    rw [hstep, step_of_target_none htarget, heq, observe_set hslot rfl]
    exact h.new hpids rfl
  · rw [heq] at hpids
    rw [hstep, step_of_target_none htarget, heq, observe_self fun j hj => ?_]
    · exact h.leave hpids
    by_cases hji : j = i
    · subst hji
      simp [Process.free] at hj
    simpa [hji] using hj
  rw [hacts] at hsome
  cases hsome

/-- A process that has terminated neither runs nor is stopped until it is
reaped, and a wait reports the status of its first termination. -/
structure ExitStatusFinal (r : ExitRun) : Prop where
  dead : ∀ i, (r.procs.procs i).used = true → ∀ code, r.status (r.births.birth i) = some code →
    (r.procs.procs i).exited = true ∧ (r.procs.procs i).stopped = false
  reported : ∀ parent_pid pid options code,
    (r.procs.qos_proc_wait parent_pid pid options).2.1 = some code →
    ∃ i, (r.procs.procs i).used = true ∧
      ((r.procs.qos_proc_wait parent_pid pid options).2.2.procs i).used = false ∧
      r.status (r.births.birth i) = some code

theorem Ok.final (h : r.Ok) : r.ExitStatusFinal := by
  constructor
  case dead =>
    intro i hi code hcode
    have hdead := h.dead i hi code hcode
    exact ⟨congrArg Life.exited hdead, congrArg Life.stopped hdead⟩
  case reported =>
    intro parent_pid pid options code hcode
    obtain ⟨rc, -, -, heq⟩ | ⟨child, hchild, heq⟩ := r.procs.wait_ends parent_pid pid options
    · rw [heq] at hcode
      cases hcode
    obtain ⟨hused, -, hexited⟩ := Family.Table.reaped_some hchild
    rw [heq, Procs.reap_eq h.pids hused] at hcode ⊢
    refine ⟨child, hused, ?_, ?_⟩
    · show (set r.procs.procs child .free child).used = false
      rw [set_self]
      rfl
    -- its status was noted when it terminated, and is still in the slot
    · obtain ⟨code', hcode'⟩ := Option.isSome_iff_exists.mp (h.noted child hused hexited)
      have hstatus := congrArg Life.exit_code (h.dead child hused code' hcode')
      rw [hcode', ← hcode]
      exact congrArg some hstatus.symm

/-- In every run in which no default action stops or terminates a process that
has exited. -/
theorem exit_status_final {tr : List Call} {r : ExitRun} (hr : system.Reach LeavesDead tr r) :
    r.ExitStatusFinal := by
  refine (hr.invariant Ok ok_init ?_).final
  intro r c r' h hc hstep
  cases hstep
  exact h.step hc

/-- Process 5 is killed by a signal while its parent waits. -/
theorem exit_status_final_killed :
    ∃ r, system.Reach LeavesDead [.create 1 0, .fork 1 5, .signal_send 5 15, .signal_next 5,
        .signal_send 5 18, .signal_next 5] r ∧ r.ExitStatusFinal :=
  System.exists_execIf (P := fun _ => True) (by decide +kernel) fun _ hr _ => exit_status_final hr

/-- Process 5 exits with 3. A SIGSTOP that comes later stops it, and a signal
15 replaces its status, which is then reported to the parent. -/
theorem exit_status_replaced :
    (∃ r, system.Reach anyStep [.create 1 0, .fork 1 5, .exit 5 3, .signal_send 5 19,
        .signal_next 5] r ∧ r.status 1 = some 3 ∧ r.procs.qos_proc_is_stopped 5 = true) ∧
    ∃ r, system.Reach anyStep [.create 1 0, .fork 1 5, .exit 5 3, .signal_send 5 15,
        .signal_next 5] r ∧ r.status 1 = some 3 ∧
      (r.procs.qos_proc_wait 1 5 0).1 = 5 ∧ (r.procs.qos_proc_wait 1 5 0).2.1 = some 143 := by
  constructor
  · exact ⟨_, System.reach_foldl _ _ _, by decide +kernel, by decide +kernel⟩
  exact ⟨_, System.reach_foldl _ _ _, by decide +kernel, by decide +kernel, by decide +kernel⟩
end ExitRun
end QosKernel.CProc
