import QosKernel.Proc.CSignals
import QosKernel.Proc.RustProc
import QosKernel.Proc.Lineage
import Mathlib.Algebra.Ring.Nat

/-! # Wait and parenthood in the two kernels

Both process tables change as a family does. Parents are recorded by
their pids only, and neither kernel looks at the children when a process
exits or is removed: a later process with the same pid inherits them, or
nobody can reap them. And both let a process fork that has exited.
-/
open Framework
namespace QosKernel
/-! ### The C table -/
namespace CProc.Procs
variable {t : Procs}
/-- The calls of a family as calls of the C table. -/
def familyCall : Family.Call → Call
  | .create pid ppid => .create pid ppid
  | .fork parent_pid child_pid => .fork parent_pid child_pid
  | .exit pid code => .exit pid code
  | .remove pid => .remove pid
  | .wait parent_pid pid options => .wait parent_pid pid options

section
variable (t : Procs)
theorem family_create (pid ppid : UInt32) :
    (t.qos_proc_create pid ppid).2.family = t.family.enter pid ppid := by
  obtain ⟨hadmits, heq⟩ | ⟨slot, hadmits, hslot, heq⟩ := t.create_ends pid ppid
  · rw [heq, Family.Table.enter_of_not_admits hadmits]
  rw [heq, Family.Table.enter_of_admits hadmits hslot]
  exact family_set

theorem family_fork (parent_pid child_pid : UInt32) :
    (t.qos_proc_fork parent_pid child_pid).2.family =
      t.family.step (.fork parent_pid child_pid) := by
  obtain ⟨hfails, heq⟩ | ⟨parent, slot, hadmits, hparent, hslot, heq⟩ :=
    t.fork_ends parent_pid child_pid
  · rw [heq, Family.Table.step_fork_of_refused hfails]
  rw [heq, Family.Table.step_fork hadmits hparent hslot]
  exact family_set

variable (pid : UInt32)
theorem family_exit (code : Int32) :
    (t.qos_proc_exit pid code).2.family = t.family.step (.exit pid code) := by
  dsimp only [Family.Table.step]
  rw [← find_pid_eq]
  cases hfind : t.find_pid pid with
  | none => rw [show t.qos_proc_exit pid code = (false, t) from update_of_find_none hfind _]; rfl
  | some i =>
  rw [show (t.qos_proc_exit pid code).2 = _ from update_of_find hfind _, family_set]
  show set t.family i _ = set t.family i _
  congr 1
  unfold Process.exit
  split
  next hexited =>
    -- the exit is refused, and the process has exited already
    show (t.procs i).member = { t.family i with exited := true }
    unfold family Process.member
    rw [hexited]
  next => rfl

theorem family_remove :
    (t.qos_proc_remove pid).2.family = t.family.step (.remove pid) := by
  unfold qos_proc_remove
  dsimp only [Family.Table.step]
  rw [← find_pid_eq]
  cases t.find_pid pid with
  | none => rfl
  | some i => exact family_set
end
theorem family_wait (h : t.family.Ok) (parent_pid : UInt32) (pid : Int32) (options : UInt32) :
    (t.qos_proc_wait parent_pid pid options).2.2.family =
      t.family.step (.wait parent_pid pid options) := by
  rw [Family.Table.step_wait]
  obtain ⟨rc, -, hnone, heq⟩ | ⟨child, hchild, heq⟩ := t.wait_ends parent_pid pid options
  · rw [heq, hnone]
    rfl
  rw [heq, hchild, reap_eq h (Family.Table.reaped_some hchild).1]
  exact family_set

/-- The C process table changes as a family does. -/
def kernel : Family.Kernel Procs QOS_PROC_MAX where
  init := qos_proc_reset
  step t c := t.step (familyCall c)
  family := family
  family_init := rfl
  family_step t c h := by
    cases c with
    | create pid ppid => exact t.family_create pid ppid
    | fork parent_pid child_pid => exact t.family_fork parent_pid child_pid
    | exit pid code => exact t.family_exit pid code
    | remove pid => exact t.family_remove pid
    | wait parent_pid pid options => exact family_wait h parent_pid pid options
end CProc.Procs
/-! ### The Rust table -/
namespace RustProc.ProcState
variable {s : ProcState}
section
variable (s : ProcState)
theorem family_create (pid ppid : UInt32) :
    (s.proc_create pid ppid).2.family = s.family.enter pid ppid := by
  obtain ⟨hadmits, heq⟩ | ⟨slot, hadmits, hslot, heq⟩ := s.proc_create_ends pid ppid
  · rw [heq, Family.Table.enter_of_not_admits hadmits]
  rw [heq, Family.Table.enter_of_admits hadmits hslot]
  exact family_set

theorem family_fork (parent_pid child_pid : UInt32) :
    (s.proc_fork parent_pid child_pid).2.family = s.family.step (.fork parent_pid child_pid) := by
  obtain ⟨hfails, heq⟩ | ⟨parent, slot, hadmits, hparent, hslot, heq⟩ :=
    s.proc_fork_ends parent_pid child_pid
  · rw [heq, Family.Table.step_fork_of_refused hfails]
  rw [heq, Family.Table.step_fork hadmits hparent hslot]
  exact family_set

theorem family_exit (pid : UInt32) (code : Int32) :
    (s.proc_exit pid code).2.family = s.family.step (.exit pid code) := by
  unfold proc_exit
  dsimp only [Family.Table.step]
  rw [← proc_find_eq]
  cases s.proc_find pid with
  | none => rfl
  | some i =>
  dsimp only [Option.elim_some]
  split
  next hexited =>
    -- the exit is refused, and the process has exited already
    have hmember : { s.family i with exited := true } = s.family i := by
      unfold family Process.member
      rw [hexited]
    rw [hmember, set_eq_self]
  next => exact family_set

theorem family_remove (pid : UInt32) :
    (s.proc_remove pid).2.family = s.family.step (.remove pid) := by
  unfold proc_remove
  dsimp only [Family.Table.step]
  rw [← proc_find_eq]
  cases s.proc_find pid with
  | none => rfl
  | some i => exact family_set

theorem family_wait (parent_pid : UInt32) (pid : Int32) (options : UInt32) :
    (s.proc_wait parent_pid pid options).2.family =
      s.family.step (.wait parent_pid pid options) := by
  rw [Family.Table.step_wait]
  unfold proc_wait
  obtain ⟨rc, hnone, heq⟩ | ⟨child, hchild, heq⟩ := s.proc_wait_inner_ends parent_pid pid options
  · rw [heq, hnone]
    rfl
  rw [heq, hchild]
  exact family_set

def step : Family.Call → ProcState
  | .create pid ppid => (s.proc_create pid ppid).2
  | .fork parent_pid child_pid => (s.proc_fork parent_pid child_pid).2
  | .exit pid code => (s.proc_exit pid code).2
  | .remove pid => (s.proc_remove pid).2
  | .wait parent_pid pid options => (s.proc_wait parent_pid pid options).2
end
/-- The Rust process table changes as a family does. -/
def kernel : Family.Kernel ProcState QOS_PROC_MAX where
  init := proc_reset
  step := step
  family := family
  family_init := rfl
  family_step s c _ := by
    cases c with
    | create pid ppid => exact s.family_create pid ppid
    | fork parent_pid child_pid => exact s.family_fork parent_pid child_pid
    | exit pid code => exact s.family_exit pid code
    | remove pid => exact s.family_remove pid
    | wait parent_pid pid options => exact s.family_wait parent_pid pid options
end RustProc.ProcState
/-! ### Both kernels -/
open Family (Lineage)
abbrev CLineage := Lineage CProc.Procs CProc.QOS_PROC_MAX
abbrev RustLineage := Lineage RustProc.ProcState RustProc.QOS_PROC_MAX

/-- After the same calls both tables hold the same processes in the same slots. -/
theorem process_tables_agree (calls : List Family.Call) :
    (calls.foldl CProc.Procs.kernel.step .qos_proc_reset).family =
      (calls.foldl RustProc.ProcState.step .proc_reset).family :=
  (CProc.Procs.kernel.family_run calls).2.trans (RustProc.ProcState.kernel.family_run calls).2.symm

/-- In every run in which no process forks after its exit, processes exit under
their own live parents, and exit or are removed only when their exited
children have been reaped. -/
theorem wait_and_parenthood (tr : List Family.Call) (c : CLineage) (r : RustLineage) :
    (CProc.Procs.kernel.system.Reach CProc.Procs.kernel.Orderly tr c →
      CProc.Procs.kernel.Parenthood c) ∧
    (RustProc.ProcState.kernel.system.Reach RustProc.ProcState.kernel.Orderly tr r →
      RustProc.ProcState.kernel.Parenthood r) := by
  constructor
  · intro hr
    exact (Family.Kernel.inv_of_reach hr).parenthood
  intro hr
  exact (Family.Kernel.inv_of_reach hr).parenthood

/-- A child exits and is reaped, and then its parent exits. -/
theorem wait_and_parenthood_orderly :
    (∃ c, CProc.Procs.kernel.system.Reach CProc.Procs.kernel.Orderly
        [.create 1 0, .fork 1 5, .exit 5 3, .wait 1 5 0, .exit 1 0] c ∧
      CProc.Procs.kernel.Parenthood c) ∧
    ∃ r, RustProc.ProcState.kernel.system.Reach RustProc.ProcState.kernel.Orderly
        [.create 1 0, .fork 1 5, .exit 5 3, .wait 1 5 0, .exit 1 0] r ∧
      RustProc.ProcState.kernel.Parenthood r := by
  constructor
  · exact System.exists_execIf (P := fun _ => True) (by decide +kernel) fun c hr _ =>
      (wait_and_parenthood _ c RustProc.ProcState.kernel.system.init).1 hr
  exact System.exists_execIf (P := fun _ => True) (by decide +kernel) fun r hr _ =>
    (wait_and_parenthood _ CProc.Procs.kernel.system.init r).2 hr

/-- Process 5 forks 6 and is removed, and another process 5 is created. -/
def inheritedChild : List Family.Call :=
  [.create 5 0, .fork 5 6, .remove 5, .create 5 0, .exit 6 0]

/-- Process 5 exits and then forks. -/
def lateFork : List Family.Call := [.create 5 0, .exit 5 0, .fork 5 6]

/-- Process 5 exits and is reaped before its child 6 exits. -/
def orphan : List Family.Call :=
  [.create 1 0, .fork 1 5, .fork 5 6, .exit 5 0, .wait 1 5 0, .exit 6 0]

/-- The new process 5 reaps the child of the old one; a process forks that has
exited; and the orphan can be reaped by nobody. -/
structure ParenthoodFails {σ : Type} {n : Nat} [NeZero n] (k : Family.Kernel σ n) : Prop where
  inherited : ∃ l, k.system.Reach anyStep inheritedChild l ∧ (k.before l 1).used = true ∧
    (k.after l (.wait 5 (-1) 0) 1).used = false ∧ (k.before l).find 5 = some 0 ∧
    l.parent (l.births.birth 1) ≠ some (l.births.birth 0)
  late : ∃ l, k.system.Reach anyStep lateFork l ∧ l.late = [1]
  orphaned : ∃ l, k.system.Reach anyStep orphan l ∧ (k.before l 2).used = true ∧
    (k.before l 2).exited = true ∧ (k.before l 2).ppid ≠ 0 ∧ ¬k.Reapable l.state 2

instance : NeZero CProc.QOS_PROC_MAX := ⟨by decide⟩
instance : NeZero RustProc.QOS_PROC_MAX := ⟨by decide⟩

theorem wait_and_parenthood_fails :
    ParenthoodFails CProc.Procs.kernel ∧ ParenthoodFails RustProc.ProcState.kernel := by
  constructor <;> constructor
  case left.inherited | right.inherited =>
    exact ⟨_, System.reach_foldl _ _ _, by decide +kernel, by decide +kernel, by decide +kernel,
      by decide +kernel⟩
  case left.late | right.late => exact ⟨_, System.reach_foldl _ _ _, by decide +kernel⟩
  case orphaned | orphaned =>
    exact ⟨_, System.reach_foldl _ _ _, by decide +kernel, by decide +kernel, by decide +kernel,
      Family.Kernel.not_reapable (System.reach_foldl _ _ orphan) (by decide +kernel)
        (by decide +kernel) (by decide +kernel)⟩
end QosKernel
