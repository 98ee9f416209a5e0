import QosKernel.Proc.Handlers
import QosKernel.Proc.RustSignals
import Mathlib.Algebra.Ring.Nat

/-! # Handlers in the two kernels

The C kernel keeps all 64 bits of a handler, through `SIGACTION`, fork and
exec. The Rust kernel keeps the low 32 bits, so it reports what was
installed exactly when every handler fits them.
-/
open Framework
namespace QosKernel
open Handlers (Catchable Signal)
theorem mem_signums_of_valid {signum : UInt32} (h : CProc.signum_valid signum = true) :
    signum.toNat ∈ CProc.signums.map UInt32.toNat := by
  have hmap : CProc.signums.map UInt32.toNat = List.range' 1 31 := by decide +kernel
  unfold CProc.signum_valid CProc.QOS_SIGNAL_MAX at h
  rw [hmap, List.mem_range'_1]
  simp only [Bool.and_eq_true, decide_eq_true_eq] at h
  omega

/-! ### The C kernel -/
namespace CProc
namespace Process
variable {signum : UInt32}
def handlerEntry (p : Process) : Handlers.Entry := ⟨p.member, fun g => p.sig_handlers g.1.toNat⟩

theorem exec_handlers_apply {handlers : Nat → UInt64} (h : signum_valid signum = true) :
    exec_handlers handlers signum.toNat = Handlers.reset (handlers signum.toNat) := by
  unfold exec_handlers
  rw [foldl_reset, if_pos (mem_signums_of_valid h)]
  rfl

variable (p : Process)
theorem handlerEntry_exec : p.exec_signal_reset.handlerEntry =
    { p.handlerEntry with handlers := fun g => Handlers.reset (p.handlerEntry.handlers g) } := by
  unfold handlerEntry exec_signal_reset
  congr 1
  funext g
  exact exec_handlers_apply g.2.1

theorem handlerEntry_write (signum : UInt32) (handler : UInt64) :
    { p with sig_handlers := set p.sig_handlers signum.toNat handler }.handlerEntry =
      { p.handlerEntry with
        handlers := Handlers.install p.handlerEntry.handlers signum handler } := by
  unfold handlerEntry
  congr 1
  funext g
  dsimp only [Handlers.install]
  by_cases hg : g.1 = signum
  · rw [if_pos hg, hg, set_self]
  rw [if_neg hg, set_ne fun heq => hg (UInt32.toNat_inj.mp heq)]

theorem signal_set_handler_catchable (h : Catchable signum) (handler : UInt64) :
    p.signal_set_handler signum handler =
      some { p with sig_handlers := set p.sig_handlers signum.toNat handler } := by
  have hguard : ¬((signum = QOS_SIGKILL ∨ signum = QOS_SIGSTOP) ∧ handler ≠ QOS_SIG_DFL) := by
    rintro ⟨hkill | hstop, -⟩
    · exact h.2.1 hkill
    exact h.2.2 hstop
  unfold signal_set_handler
  rw [h.1, if_neg hguard]
  rfl

theorem handlerEntry_set_handler_uncatchable (h : ¬Catchable signum)
    (handler : UInt64) :
    ((p.signal_set_handler signum handler).getD p).handlerEntry = p.handlerEntry := by
  unfold signal_set_handler
  split
  · rfl
  split
  · rfl
  rw [Option.getD_some, handlerEntry_write, Handlers.install_uncatchable h]
end Process
namespace Procs
variable {a0 : UInt64} {t : Procs} {i : Slot}
def handlers (t : Procs) : Handlers.Table QOS_PROC_MAX := fun i => (t.procs i).handlerEntry

def handlerCall (t : Procs) : Handlers.Call → Int64 × Procs
  | .life (.create pid ppid) =>
    let (ok, t) := t.qos_proc_create pid ppid
    (if ok then 0 else -1, t)
  | .life (.fork parent_pid child_pid) =>
    let (ok, t) := t.qos_proc_fork parent_pid child_pid
    (if ok then 0 else -1, t)
  | .life (.exit pid code) =>
    let (ok, t) := t.qos_proc_exit pid code
    (if ok then 0 else -1, t)
  | .life (.remove pid) =>
    let (ok, t) := t.qos_proc_remove pid
    (if ok then 0 else -1, t)
  | .life (.wait parent_pid pid options) =>
    let (rc, _, t) := t.qos_proc_wait parent_pid pid options
    (rc.toInt64, t)
  | .sigaction a0 a1 a2 => t.sys_sigaction a0 a1 a2
  | .exec a0 path => t.sys_exec a0 path

theorem handlers_set {p : Process} {count : UInt32} :
    handlers ⟨set t.procs i p, count⟩ = set t.handlers i p.handlerEntry :=
  set_comp Process.handlerEntry

theorem get_handler_eq (t : Procs) (pid : UInt32) (g : Signal) :
    t.qos_proc_signal_get_handler pid g.1 =
      (t.handlers.find pid).map fun i => (t.handlers i).handlers g := by
  show (t.find_pid pid).bind _ = (t.find_pid pid).map _
  rw [g.2.1]
  cases t.find_pid pid <;> rfl

theorem sys_sigaction_result {a1 a2 : UInt64} (hi : t.find_pid a0.toUInt32 = some i)
    (h : Catchable a1.toUInt32) :
    (t.sys_sigaction a0 a1 a2).1 = ((t.procs i).sig_handlers a1.toUInt32.toNat).toInt64 := by
  unfold sys_sigaction qos_proc_signal_get_handler qos_proc_signal_set_handler update
  rw [query_of_find hi, hi]
  simp only [h.1, if_true, Process.signal_set_handler_catchable _ h]
  split <;> rfl

theorem effect_sigaction (hok : t.handlers.Ok) (a0 a1 a2 : UInt64) :
    t.handlers.Effect (Handlers.event (.sigaction a0 a1 a2) (t.sys_sigaction a0 a1 a2).1)
      (t.sys_sigaction a0 a1 a2).2.handlers := by
  cases hi : t.find_pid a0.toUInt32 with
  | none =>
    have heq : t.sys_sigaction a0 a1 a2 = (-1, t) := by
      simp only [sys_sigaction, qos_proc_signal_get_handler, query_of_find_none hi]
    rw [heq]
    exact .same
  | some i =>
  have hfind : t.handlers.find a0.toUInt32 = some i := hi
  rw [sys_sigaction_eq hi, handlers_set]
  by_cases hc : Catchable a1.toUInt32
  · rw [sys_sigaction_result hi hc]
    by_cases ha2 : a2 = Handlers.query
    · have hasks : ¬a2 ≠ 0xFFFFFFFFFFFFFFFF := fun hne => hne ha2
      have hsame : set t.handlers i (t.procs i).handlerEntry = t.handlers := set_eq_self
      rw [Handlers.event_query ha2, if_neg hasks, hsame]
      exact .same
    -- the old handler is not all ones, so the result says that it was done
    have hold : ((t.procs i).sig_handlers a1.toUInt32.toNat).toInt64 ≠ -1 :=
      Handlers.toInt64_ne (hok.handler i ⟨a1.toUInt32, hc⟩)
    have hinstalls : a2 ≠ 0xFFFFFFFFFFFFFFFF := ha2
    rw [Handlers.event_installed hold ha2, if_pos hinstalls,
      Process.signal_set_handler_catchable _ hc, Option.getD_some, Process.handlerEntry_write]
    exact .installed hfind ha2
  -- the handlers that can be reported stay
  have hsame : set t.handlers i ((if a2 ≠ 0xFFFFFFFFFFFFFFFF then
      ((t.procs i).signal_set_handler a1.toUInt32 a2).getD (t.procs i)
      else t.procs i).handlerEntry) = t.handlers := by
    split
    · rw [Process.handlerEntry_set_handler_uncatchable _ hc]
      exact set_eq_self
    exact set_eq_self
  rw [hsame]
  exact .uncatchable hfind hc

theorem sys_exec_result {path : Option (Option ExecImage)} (hi : t.find_pid a0.toUInt32 = some i) :
    (t.sys_exec a0 path).1 = if path = some none then -1 else 0 := by
  have hi' : (Procs.mk (set t.procs i (t.procs i).exec_signal_reset) t.count).find_pid
      a0.toUInt32 = some i :=
    find_pid_set hi (t.procs i).exec_signal_reset_same
  unfold sys_exec qos_proc_exec_signal_reset qos_proc_exec_image_set
  rcases path with _ | _ | image
  · rw [update_total hi Process.exec_signal_reset]
    rfl
  · rfl
  rw [update_total hi Process.exec_signal_reset]
  dsimp only [Option.map_some]
  rw [update_total hi' fun p => { p with exec_image := image }]
  rfl

theorem effect_exec (t : Procs) (a0 : UInt64) (path : Option (Option ExecImage)) :
    t.handlers.Effect (Handlers.event (.exec a0 path) (t.sys_exec a0 path).1)
      (t.sys_exec a0 path).2.handlers := by
  cases hi : t.find_pid a0.toUInt32 with
  | none =>
    have heq : t.sys_exec a0 path = (-1, t) := by
      rcases path with _ | _ | image <;>
        simp only [sys_exec, qos_proc_exec_signal_reset, update_of_find_none hi]
    rw [heq]
    exact .same
  | some i =>
  have hexec : t.handlers.Effect (some (.execd a0.toUInt32))
      (set t.handlers i (t.procs i).exec_signal_reset.handlerEntry) := by
    rw [Process.handlerEntry_exec]
    exact .execd hi
  rw [sys_exec_eq hi, sys_exec_result hi, handlers_set]
  rcases path with _ | _ | image
  · exact hexec
  · have hsame : set t.handlers i (t.procs i).handlerEntry = t.handlers := set_eq_self
    dsimp only
    rw [hsame]
    exact .same
  exact hexec

theorem effect_life (t : Procs) (c : Family.Call) :
    t.handlers.Effect (Handlers.event (.life c) (t.handlerCall (.life c)).1)
      (t.handlerCall (.life c)).2.handlers := by
  cases c with
  | create pid ppid =>
    dsimp only [handlerCall]
    obtain ⟨-, heq⟩ | ⟨slot, hadmits, -, heq⟩ := t.create_ends pid ppid
    · rw [heq]
      exact .same
    rw [heq, handlers_set]
    exact .created hadmits
  | fork parent_pid child_pid =>
    dsimp only [handlerCall]
    obtain ⟨-, heq⟩ | ⟨parent, slot, hadmits, hparent, -, heq⟩ := t.fork_ends parent_pid child_pid
    · rw [heq]
      exact .same
    rw [heq, handlers_set]
    exact .forked hadmits hparent
  | exit pid code =>
    show t.handlers.Effect none (t.qos_proc_exit pid code).2.handlers
    cases hi : t.find_pid pid with
    | none =>
      rw [show t.qos_proc_exit pid code = (false, t) from update_of_find_none hi _]
      exact .same
    | some i =>
    rw [show (t.qos_proc_exit pid code).2 = _ from update_of_find hi _, handlers_set]
    have hentry : (((t.procs i).exit code).getD (t.procs i)).handlerEntry =
        { t.handlers i with member := (((t.procs i).exit code).getD (t.procs i)).member } := by
      unfold Process.exit
      split <;> rfl
    have hsame := Process.same_of_acts (c := .exit pid code) rfl (t.procs i)
    rw [hentry]
    exact .changed hsame.1 hsame.2.1
  | remove pid =>
    show t.handlers.Effect none (t.qos_proc_remove pid).2.handlers
    obtain heq | ⟨i, -, heq⟩ := t.remove_ends pid
    · rw [heq]
      exact .same
    rw [heq, handlers_set]
    exact .left
  | wait parent_pid pid options =>
  show t.handlers.Effect none (t.qos_proc_wait parent_pid pid options).2.2.handlers
  obtain ⟨rc, -, -, heq⟩ | ⟨child, -, heq⟩ := t.wait_ends parent_pid pid options
  · rw [heq]
    exact .same
  rw [heq]
  show t.handlers.Effect none (t.qos_proc_remove _).2.handlers
  obtain heq | ⟨i, -, heq⟩ := t.remove_ends (t.procs child).pid.toInt32.toUInt32
  · rw [heq]
    exact .same
  rw [heq, handlers_set]
  exact .left

/-- The C kernel keeps handlers, whatever is installed. -/
def handlerKernel : Handlers.Kernel Procs QOS_PROC_MAX where
  init := qos_proc_reset
  call := handlerCall
  get_handler := qos_proc_signal_get_handler
  cond := anyStep
  table := handlers
  table_init := rfl
  get_handler_eq := get_handler_eq
  effect t c hok _ := by
    cases c with
    | life c => exact t.effect_life c
    | sigaction a0 a1 a2 => exact effect_sigaction hok a0 a1 a2
    | exec a0 path => exact t.effect_exec a0 path
  sigaction_reports t a0 a1 a2 i g hi hg := by
    have hc : Catchable a1.toUInt32 := hg ▸ g.2
    refine (sys_sigaction_result hi hc).trans ?_
    rw [hg]
    rfl
end Procs
end CProc
/-! ### The Rust kernel -/
namespace RustProc
namespace Process
def handlerEntry (p : Process) : Handlers.Entry :=
  ⟨p.member, fun g => (p.sig_handlers g.1.toNat).toUInt64⟩

theorem exec_handlers_apply {handlers : Nat → UInt32} {signum : UInt32}
    (h : CProc.signum_valid signum = true) :
    (exec_handlers handlers signum.toNat).toUInt64 =
      Handlers.reset (handlers signum.toNat).toUInt64 := by
  have hmem : signum.toNat ∈ signums.map UInt32.toNat := mem_signums_of_valid h
  unfold exec_handlers Handlers.reset
  rw [foldl_reset, if_pos hmem]
  by_cases hign : handlers signum.toNat = QOS_SIG_IGN
  · rw [if_pos hign, hign, if_pos (by decide)]
    rfl
  have hne : (handlers signum.toNat).toUInt64 ≠ CProc.QOS_SIG_IGN := fun heq =>
    hign (UInt32.toUInt64_inj.mp heq)
  rw [if_neg hign, if_neg hne]
  rfl

variable (p : Process)
theorem handlerEntry_exec : p.exec_signal_reset.handlerEntry =
    { p.handlerEntry with handlers := fun g => Handlers.reset (p.handlerEntry.handlers g) } := by
  unfold handlerEntry exec_signal_reset
  congr 1
  funext g
  exact exec_handlers_apply g.2.1

theorem handlerEntry_write (signum handler : UInt32) :
    { p with sig_handlers := set p.sig_handlers signum.toNat handler }.handlerEntry =
      { p.handlerEntry with
        handlers := Handlers.install p.handlerEntry.handlers signum handler.toUInt64 } := by
  unfold handlerEntry
  congr 1
  funext g
  dsimp only [Handlers.install]
  by_cases hg : g.1 = signum
  · rw [if_pos hg, hg, set_self]
  rw [if_neg hg, set_ne fun heq => hg (UInt32.toNat_inj.mp heq)]
end Process
namespace ProcState
variable {a0 a1 a2 : UInt64} {s : ProcState} {i : Slot}
section
variable (s : ProcState)
def handlers : Handlers.Table QOS_PROC_MAX := fun i => (s.procs i).handlerEntry

def handlerCall : Handlers.Call → Int64 × ProcState
  | .life (.create pid ppid) =>
    let (ok, s) := s.proc_create pid ppid
    (if ok then 0 else -1, s)
  | .life (.fork parent_pid child_pid) =>
    let (ok, s) := s.proc_fork parent_pid child_pid
    (if ok then 0 else -1, s)
  | .life (.exit pid code) =>
    let (ok, s) := s.proc_exit pid code
    (if ok then 0 else -1, s)
  | .life (.remove pid) =>
    let (ok, s) := s.proc_remove pid
    (if ok then 0 else -1, s)
  | .life (.wait parent_pid pid options) =>
    let (rc, s) := s.proc_wait parent_pid pid options
    (rc.toInt64, s)
  | .sigaction a0 a1 a2 => s.sys_sigaction a0 a1 a2
  | .exec a0 path => s.sys_exec a0 path

/-- A handler that is installed for a catchable signal of a process fits 32
bits. -/
def Fits : Handlers.Call → Prop
  | .sigaction a0 a1 a2 => (s.proc_find a0.toUInt32).isSome = true → Catchable a1.toUInt32 →
    a2 = Handlers.query ∨ a2.toNat < 2 ^ 32
  | .life _ | .exec _ _ => True
end
instance (s : ProcState) : (c : Handlers.Call) → Decidable (s.Fits c)
  | .sigaction a0 a1 _ => inferInstanceAs
    (Decidable ((s.proc_find a0.toUInt32).isSome = true → Catchable a1.toUInt32 → _ ∨ _))
  | .life _ | .exec _ _ => inferInstanceAs (Decidable True)

theorem handlers_set {p : Process} {count : UInt32} :
    handlers ⟨set s.procs i p, count⟩ = set s.handlers i p.handlerEntry :=
  set_comp Process.handlerEntry

/-- The handler that is reported, as a 64-bit word. -/
def get_handler (s : ProcState) (pid signum : UInt32) : Option UInt64 :=
  (s.proc_signal_get_handler pid signum).map UInt32.toUInt64

theorem get_handler_eq (s : ProcState) (pid : UInt32) (g : Signal) :
    s.get_handler pid g.1 = (s.handlers.find pid).map fun i => (s.handlers i).handlers g := by
  have hvalid : proc_signal_signum_valid g.1 = true := g.2.1
  unfold get_handler proc_signal_get_handler query
  rw [hvalid]
  show Option.map _ ((s.proc_find pid).map _) = (s.proc_find pid).map _
  cases s.proc_find pid <;> rfl

theorem sys_sigaction_catchable (hi : s.proc_find a0.toUInt32 = some i) (h : Catchable a1.toUInt32) :
    s.sys_sigaction a0 a1 a2 = (((s.procs i).sig_handlers a1.toUInt32.toNat).toUInt64.toInt64,
        if a2 ≠ Handlers.query then { s with
          procs := set s.procs i { s.procs i with
            sig_handlers := set (s.procs i).sig_handlers a1.toUInt32.toNat a2.toUInt32 } }
        else s) := by
  have hvalid : proc_signal_signum_valid a1.toUInt32 = true := h.1
  have hguard : ¬((a1.toUInt32 = QOS_SIGKILL ∨ a1.toUInt32 = QOS_SIGSTOP) ∧
      a2.toUInt32 ≠ QOS_SIG_DFL) := by
    rintro ⟨hkill | hstop, -⟩
    · exact h.2.1 hkill
    exact h.2.2 hstop
  unfold sys_sigaction proc_signal_get_handler proc_signal_set_handler
  rw [hvalid, query_of_find hi, if_neg hguard, update_of_find hi]
  simp only [Bool.not_true, Bool.false_eq_true, if_false]
  split
  next hne =>
    have hinstalls : a2 ≠ Handlers.query := hne
    rw [if_pos hinstalls]
  next heq =>
  have hasks : ¬a2 ≠ Handlers.query := heq
  rw [if_neg hasks]

theorem handlers_sigaction_uncatchable (h : ¬Catchable a1.toUInt32) :
    (s.sys_sigaction a0 a1 a2).2.handlers = s.handlers := by
  obtain heq | heq := s.sys_sigaction_state a0 a1 a2 <;> rw [heq]
  cases hi : s.proc_find a0.toUInt32 with
  | none => rw [update_of_find_none hi]
  | some i =>
  rw [update_of_find hi, handlers_set, Process.handlerEntry_write, Handlers.install_uncatchable h]
  exact set_eq_self

theorem result_ne (w : UInt32) : w.toUInt64.toInt64 ≠ -1 := by
  refine Handlers.toInt64_ne fun heq => ?_
  have hlt := w.toNat_lt
  rw [← UInt32.toNat_toUInt64, heq] at hlt
  exact absurd hlt (by decide)

theorem toUInt64_toUInt32_iff {w : UInt64} : w.toUInt32.toUInt64 = w ↔ w.toNat < 2 ^ 32 := by
  rw [← UInt64.toNat_inj, UInt32.toNat_toUInt64, UInt64.toNat_toUInt32]
  omega

theorem effect_sigaction (a0 a1 a2 : UInt64) (hfits : s.Fits (.sigaction a0 a1 a2)) :
    s.handlers.Effect (Handlers.event (.sigaction a0 a1 a2) (s.sys_sigaction a0 a1 a2).1)
      (s.sys_sigaction a0 a1 a2).2.handlers := by
  cases hi : s.proc_find a0.toUInt32 with
  | none =>
    have heq : s.sys_sigaction a0 a1 a2 = (-1, s) := by
      simp only [sys_sigaction, proc_signal_get_handler, query_of_find_none hi, ite_self]
    rw [heq]
    exact .same
  | some i =>
  have hfind : s.handlers.find a0.toUInt32 = some i := hi
  by_cases hc : Catchable a1.toUInt32
  · rw [sys_sigaction_catchable hi hc]
    dsimp only
    by_cases ha2 : a2 = Handlers.query
    · rw [Handlers.event_query ha2, if_neg fun hne => hne ha2]
      exact .same
    rw [Handlers.event_installed (result_ne _) ha2, if_pos ha2, handlers_set,
      Process.handlerEntry_write]
    -- the word fits, so nothing of it is cut
    have hlt := (hfits (by rw [hi]; rfl) hc).resolve_left ha2
    rw [toUInt64_toUInt32_iff.mpr hlt]
    exact .installed hfind ha2
  rw [handlers_sigaction_uncatchable hc]
  exact .uncatchable hfind hc

theorem effect_exec (s : ProcState) (a0 : UInt64) (path : Option (Option CProc.ExecImage)) :
    s.handlers.Effect (Handlers.event (.exec a0 path) (s.sys_exec a0 path).1)
      (s.sys_exec a0 path).2.handlers := by
  unfold sys_exec proc_exec_signal_reset proc_exec_image_set
  cases hi : s.proc_find a0.toUInt32 with
  | none =>
    rcases path with _ | _ | image
    · rw [update_of_find_none hi]
      exact .same
    · exact .same
    rw [update_of_find_none hi]
    exact .same
  | some i =>
  have hexec : s.handlers.Effect (some (.execd a0.toUInt32))
      (set s.handlers i (s.procs i).exec_signal_reset.handlerEntry) := by
    rw [Process.handlerEntry_exec]
    exact .execd hi
  have hi' : (ProcState.mk (set s.procs i (s.procs i).exec_signal_reset) s.count).proc_find
      a0.toUInt32 = some i :=
    proc_find_set hi rfl rfl
  rcases path with _ | _ | image
  · rw [update_of_find hi]
    dsimp only
    rw [handlers_set]
    exact hexec
  · exact .same
  rw [update_of_find hi]
  dsimp only
  rw [update_of_find hi']
  dsimp only
  rw [set_self, set_set, handlers_set]
  exact hexec

theorem effect_life (s : ProcState) (c : Family.Call) :
    s.handlers.Effect (Handlers.event (.life c) (s.handlerCall (.life c)).1)
      (s.handlerCall (.life c)).2.handlers := by
  cases c with
  | create pid ppid =>
    dsimp only [handlerCall]
    obtain ⟨-, heq⟩ | ⟨slot, hadmits, -, heq⟩ := s.proc_create_ends pid ppid
    · rw [heq]
      exact .same
    rw [heq, handlers_set]
    exact .created hadmits
  | fork parent_pid child_pid =>
    dsimp only [handlerCall]
    obtain ⟨-, heq⟩ | ⟨parent, slot, hadmits, hparent, -, heq⟩ :=
      s.proc_fork_ends parent_pid child_pid
    · rw [heq]
      exact .same
    rw [heq, handlers_set]
    exact .forked hadmits hparent
  | exit pid code =>
    show s.handlers.Effect none (s.proc_exit pid code).2.handlers
    unfold proc_exit
    cases s.proc_find pid with
    | none => exact .same
    | some i =>
    dsimp only
    split
    · exact .same
    rw [handlers_set]
    exact .changed rfl rfl
  | remove pid =>
    show s.handlers.Effect none (s.proc_remove pid).2.handlers
    unfold proc_remove
    cases s.proc_find pid with
    | none => exact .same
    | some i =>
    dsimp only
    rw [handlers_set]
    exact .left
  | wait parent_pid pid options =>
  show s.handlers.Effect none (s.proc_wait parent_pid pid options).2.handlers
  unfold proc_wait
  obtain ⟨rc, -, heq⟩ | ⟨i, -, heq⟩ := s.proc_wait_inner_ends parent_pid pid options
  · rw [heq]
    exact .same
  rw [heq]
  dsimp only [reap]
  rw [handlers_set]
  exact .left

/-- The Rust kernel keeps the handlers that fit 32 bits. -/
def handlerKernel : Handlers.Kernel ProcState QOS_PROC_MAX where
  init := proc_reset
  call := handlerCall
  get_handler := get_handler
  cond := Fits
  table := handlers
  table_init := rfl
  get_handler_eq := get_handler_eq
  effect s c _ hfits := by
    cases c with
    | life c => exact s.effect_life c
    | sigaction a0 a1 a2 => exact effect_sigaction a0 a1 a2 hfits
    | exec a0 path => exact s.effect_exec a0 path
  sigaction_reports s a0 a1 a2 i g hi hg := by
    have hc : Catchable a1.toUInt32 := hg ▸ g.2
    refine (congrArg Prod.fst (sys_sigaction_catchable hi hc)).trans ?_
    rw [hg]
    rfl

theorem fits_of_reports {l : Handlers.Logged ProcState} {c : Handlers.Call}
    (h : handlerKernel.Reports (handlerKernel.step l c)) : l.state.Fits c := by
  cases c with
  | life c | exec a0 path => trivial
  | sigaction a0 a1 a2 =>
  intro hsome hc
  obtain ⟨i, hi⟩ := Option.isSome_iff_exists.mp hsome
  by_contra hnot
  obtain ⟨ha2, hbig⟩ := not_or.mp hnot
  have hcall : l.state.sys_sigaction a0 a1 a2 = _ := sys_sigaction_catchable hi hc
  rw [if_pos ha2] at hcall
  -- the log has the word, and the slot its low half
  have hlog : (handlerKernel.step l (.sigaction a0 a1 a2)).log =
      .installed a0.toUInt32 a1.toUInt32 a2 :: l.log := by
    show (Handlers.event _ (l.state.sys_sigaction a0 a1 a2).1).toList ++ l.log = _
    rw [hcall, Handlers.event_installed (result_ne _) ha2]
    rfl
  have hget : (l.state.sys_sigaction a0 a1 a2).2.proc_signal_get_handler a0.toUInt32
      a1.toUInt32 = some a2.toUInt32 := by
    have hfind : (l.state.sys_sigaction a0 a1 a2).2.proc_find a0.toUInt32 = some i := by
      rw [hcall]
      exact proc_find_set hi rfl rfl
    have hvalid : proc_signal_signum_valid a1.toUInt32 = true := hc.1
    unfold proc_signal_get_handler
    rw [hvalid, query_of_find hfind, hcall]
    simp
  have hhas : handlerKernel.has (handlerKernel.step l (.sigaction a0 a1 a2)).state
      a0.toUInt32 = true := by
    show ((l.state.sys_sigaction a0 a1 a2).2.proc_find a0.toUInt32).isSome = true
    rw [hcall]
    exact Option.isSome_of_eq_some (proc_find_set hi rfl rfl)
  have hvalue := (h a0.toUInt32 ⟨a1.toUInt32, hc⟩ hhas).1
  rw [hlog] at hvalue
  have hword : a2.toUInt32.toUInt64 = a2 := by
    have hlatest : Handlers.latest (.installed a0.toUInt32 a1.toUInt32 a2 :: l.log)
        a0.toUInt32 a1.toUInt32 = a2 := if_pos ⟨rfl, rfl⟩
    rw [hlatest] at hvalue
    refine Option.some.inj (Eq.trans ?_ hvalue)
    show _ = Option.map UInt32.toUInt64
      ((l.state.sys_sigaction a0 a1 a2).2.proc_signal_get_handler a0.toUInt32 a1.toUInt32)
    rw [hget, Option.map_some]
  exact hbig (toUInt64_toUInt32_iff.mp hword)
end ProcState
end RustProc
/-! ### Both kernels -/
/-- In every run of the C kernel, and in every run of the Rust kernel in which
the handlers fit 32 bits, the handlers reported are those of the history.
In Rust, a handler that does not fit is the only thing that can change
this. -/
theorem handlers_kept_exactly (tr : List Handlers.Call) (c : Handlers.Logged CProc.Procs)
    (r : Handlers.Logged RustProc.ProcState) :
    (CProc.Procs.handlerKernel.system.Reach anyStep tr c → CProc.Procs.handlerKernel.Reports c) ∧
    (RustProc.ProcState.handlerKernel.system.Reach (fun r call => r.state.Fits call) tr r →
      RustProc.ProcState.handlerKernel.Reports r ∧ ∀ call, RustProc.ProcState.handlerKernel.Reports
          (RustProc.ProcState.handlerKernel.step r call) ↔ r.state.Fits call) := by
  constructor
  · intro hr
    exact Handlers.Kernel.reports_of_tells (Handlers.Kernel.tells_of_reach hr).2
  intro hr
  obtain ⟨hok, htells⟩ := Handlers.Kernel.tells_of_reach hr
  refine ⟨Handlers.Kernel.reports_of_tells htells, fun call => ?_⟩
  constructor
  · exact RustProc.ProcState.fits_of_reports
  intro hfits
  exact Handlers.Kernel.reports_of_tells (Handlers.Kernel.tells_step hok htells hfits).2

/-- A handler is installed, inherited and reset. -/
def installForkExec : List Handlers.Call :=
  [.life (.create 1 0), .sigaction 1 10 0x7fff1000, .life (.fork 1 2), .exec 1 none]

theorem handlers_kept_exactly_exec :
    (∃ c, CProc.Procs.handlerKernel.system.Reach anyStep installForkExec c ∧
      CProc.Procs.handlerKernel.Reports c) ∧
    ∃ r, RustProc.ProcState.handlerKernel.system.Reach (fun r call => r.state.Fits call)
        installForkExec r ∧
      RustProc.ProcState.handlerKernel.Reports r := by
  constructor
  · have hc : CProc.Procs.handlerKernel.system.Reach anyStep installForkExec _ :=
      System.reach_foldl _ _ _
    exact ⟨_, hc,
      (handlers_kept_exactly installForkExec _ RustProc.ProcState.handlerKernel.system.init).1 hc⟩
  refine System.exists_execIf (P := fun _ => True) (by decide +kernel) ?_
  intro r hr _
  exact ((handlers_kept_exactly installForkExec CProc.Procs.handlerKernel.system.init r).2 hr).1

/-- The Rust kernel reports 0 after the handler 2^32 was installed. -/
theorem handler_cut : ∃ r, RustProc.ProcState.handlerKernel.system.Reach anyStep
    [.life (.create 1 0), .sigaction 1 10 0x100000000] r ∧
      RustProc.ProcState.handlerKernel.get_handler r.state 1 10 = some 0 ∧
      Handlers.latest r.log 1 10 = 0x100000000 := by
  exact ⟨_, System.reach_foldl _ _ _, by decide +kernel, by decide +kernel⟩
end QosKernel
