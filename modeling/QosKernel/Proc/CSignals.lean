import QosKernel.Proc.CProc

/-! # Signal delivery and the runs of the C process table

`qos_proc_signal_next` looks its process up again when it takes a default
action. The slot is the same, so all it does is a function of the one
process: `Process.signal_next`.

A run of the table is any sequence of calls of its functions and of the
system calls on signals.
-/
open Framework
namespace QosKernel.CProc
/-! ### Delivery as a function of the process -/
namespace Process
/-- Signal `s` does not wait any more. -/
def clear (p : Process) (s : UInt32) : Process :=
  { p with sig_pending := p.sig_pending &&& ~~~signum_bit s }

def signal_next_loop (deliverable : UInt32) : List UInt32 → Process → UInt32 × Process
  | [], p => (0, p)
  | s :: rest, p =>
    if deliverable &&& signum_bit s ≠ 0 then
      if p.sig_handlers s.toNat = QOS_SIG_IGN then signal_next_loop deliverable rest (p.clear s)
      else if p.sig_handlers s.toNat = QOS_SIG_DFL then
        (s, ((p.clear s).signal_apply_default s).getD (p.clear s))
      else (s, p.clear s)
    else signal_next_loop deliverable rest p

def signal_next (p : Process) : UInt32 × Process :=
  if p.sig_pending = 0 then (0, p)
  else if p.deliverable = 0 then (0, p)
  else signal_next_loop p.deliverable signums p

def Same (p p' : Process) : Prop := p'.used = p.used ∧ p'.pid = p.pid ∧ p'.ppid = p.ppid

theorem signal_apply_default_ends (p : Process) (s : UInt32) :
    p.signal_apply_default s = none ∨ ∃ stopped exited code, p.signal_apply_default s =
        some { p with stopped := stopped, exited := exited, exit_code := code } := by
  unfold signal_apply_default
  repeat' split
  · exact .inl rfl
  all_goals exact .inr ⟨_, _, _, rfl⟩

theorem exec_signal_reset_same (p : Process) : Same p p.exec_signal_reset := by
  unfold exec_signal_reset
  exact ⟨rfl, rfl, rfl⟩

theorem signal_next_loop_ends (deliverable : UInt32) (l : List UInt32) (p : Process) :
    ∃ pending stopped exited code, (p.signal_next_loop deliverable l).2 =
      { p with sig_pending := pending, stopped := stopped, exited := exited, exit_code := code } := by
  induction l generalizing p with
  | nil => exact ⟨_, _, _, _, rfl⟩
  | cons s rest ih =>
  unfold signal_next_loop
  split
  · split
    -- the loop has passed an ignored signal
    · obtain ⟨_, _, _, _, heq⟩ := ih (p.clear s)
      exact ⟨_, _, _, _, heq⟩
    split
    · rcases (p.clear s).signal_apply_default_ends s with hnone | ⟨_, _, _, hsome⟩
      · rw [hnone]
        exact ⟨_, _, _, _, rfl⟩
      rw [hsome]
      exact ⟨_, _, _, _, rfl⟩
    exact ⟨_, _, _, _, rfl⟩
  exact ih p

variable (p : Process)
theorem signal_next_ends : ∃ pending stopped exited code, p.signal_next.2 =
    { p with sig_pending := pending, stopped := stopped, exited := exited, exit_code := code } := by
  unfold signal_next
  split
  · exact ⟨_, _, _, _, rfl⟩
  split
  · exact ⟨_, _, _, _, rfl⟩
  exact signal_next_loop_ends _ _ _

theorem signal_next_same : Same p p.signal_next.2 := by
  obtain ⟨_, _, _, _, heq⟩ := p.signal_next_ends
  rw [heq]
  exact ⟨rfl, rfl, rfl⟩
end Process
namespace Procs
variable {t : Procs} {pid : UInt32} {i : Slot} {p : Process}
theorem find_pid_congr {t' : Procs} (h : ∀ i, (t'.procs i).used = (t.procs i).used ∧
    (t'.procs i).pid = (t.procs i).pid) : t'.find_pid pid = t.find_pid pid := by
  refine first_congr fun i => ?_
  rw [(h i).1, (h i).2]

theorem find_pid_set {count : UInt32} (hfind : t.find_pid pid = some i)
    (h : Process.Same (t.procs i) p) :
    (Procs.mk (set t.procs i p) count).find_pid pid = some i := by
  rw [← hfind]
  refine find_pid_congr fun j => ?_
  by_cases hji : j = i
  · simp [hji, h.1, h.2.1]
  simp [hji]

theorem update_of_find (hfind : t.find_pid pid = some i) (f : Process → Option Process) :
    (t.update pid f).2 = { t with procs := set t.procs i ((f (t.procs i)).getD (t.procs i)) } := by
  unfold update
  rw [hfind]
  cases hf : f (t.procs i) with
  | none => simp only [hf, Option.getD_none, set_eq_self]
  | some p => simp only [hf, Option.getD_some]

theorem signal_next_loop_eq (deliverable : UInt32) (l : List UInt32)
    (hfind : t.find_pid pid = some i) :
    signal_next_loop pid i deliverable l t =
      ((((t.procs i).signal_next_loop deliverable l).1.toNat : Int),
        { t with procs := set t.procs i ((t.procs i).signal_next_loop deliverable l).2 }) := by
  induction l generalizing t with
  | nil => simp [signal_next_loop, Process.signal_next_loop]
  | cons s rest ih =>
  unfold signal_next_loop Process.signal_next_loop
  by_cases hs : deliverable &&& signum_bit s ≠ 0
  · -- the signal is taken from the pending ones; the process is still found
    have hfind' : (Procs.mk (set t.procs i ((t.procs i).clear s)) t.count).find_pid pid = some i :=
      find_pid_set hfind ⟨rfl, rfl, rfl⟩
    rw [if_pos hs, if_pos hs]
    dsimp only
    by_cases hign : (t.procs i).sig_handlers s.toNat = QOS_SIG_IGN
    · rw [if_pos hign, if_pos hign]
      have hrest := ih hfind'
      dsimp only at hrest
      rw [set_self, set_set] at hrest
      exact hrest
    rw [if_neg hign, if_neg hign]
    by_cases hdfl : (t.procs i).sig_handlers s.toNat = QOS_SIG_DFL
    · rw [if_pos hdfl, if_pos hdfl]
      -- the default action looks the process up by its pid
      have hupdate := update_of_find hfind' fun p => p.signal_apply_default s
      dsimp only at hupdate
      rw [set_self, set_set] at hupdate
      exact congrArg (Prod.mk _) hupdate
    rw [if_neg hdfl, if_neg hdfl]
    rfl
  rw [if_neg hs, if_neg hs]
  exact ih hfind

theorem signal_next_eq (hfind : t.find_pid pid = some i) :
    t.qos_proc_signal_next pid = (((t.procs i).signal_next.1.toNat : Int),
      { t with procs := set t.procs i (t.procs i).signal_next.2 }) := by
  unfold qos_proc_signal_next Process.signal_next
  rw [hfind]
  dsimp only
  split
  · rw [set_eq_self]
    rfl
  split
  · rw [set_eq_self]
    rfl
  exact signal_next_loop_eq _ _ hfind
end Procs
/-! ### The system calls on signals (`c-os/kernel/syscall/syscall.c`)

The arguments are 64-bit words, and most are cut to 32 bits.
-/
def SIG_BLOCK : UInt32 := 0
def SIG_UNBLOCK : UInt32 := 1
def SIG_SETMASK : UInt32 := 2

namespace Procs
def sys_sigaction (t : Procs) (a0 a1 a2 : UInt64) : Int64 × Procs :=
  match t.qos_proc_signal_get_handler a0.toUInt32 a1.toUInt32 with
  | none => (-1, t)
  | some old_handler =>
    -- all ones only ask for the old handler
    if a2 ≠ 0xFFFFFFFFFFFFFFFF then
      match t.qos_proc_signal_set_handler a0.toUInt32 a1.toUInt32 a2 with
      | (false, t) => (-1, t)
      | (true, t) => (old_handler.toInt64, t)
    else (old_handler.toInt64, t)

def new_mask (old_mask how set : UInt32) : Option UInt32 :=
  if how = SIG_BLOCK then some (old_mask ||| set)
  else if how = SIG_UNBLOCK then some (old_mask &&& ~~~set)
  else if how = SIG_SETMASK then some set
  else none

variable (t : Procs)
def sys_sigprocmask (a0 a1 a2 : UInt64) : Int64 × Procs :=
  match t.qos_proc_signal_mask a0.toUInt32 with
  | none => (-1, t)
  | some old_mask =>
    match new_mask old_mask a1.toUInt32 a2.toUInt32 with
    | none => (-1, t)
    | some mask =>
      match t.qos_proc_signal_set_mask a0.toUInt32 mask with
      | (false, t) => (-1, t)
      | (true, t) => (old_mask.toUInt64.toInt64, t)

def sys_sigaltstack (a0 a1 a2 a3 : UInt64) : Int64 × Procs :=
  match t.qos_proc_signal_altstack_get a0.toUInt32 with
  | none => (-1, t)
  | some old_altstack =>
    if a1 ≠ 0xFFFFFFFFFFFFFFFF then
      match t.qos_proc_signal_altstack_set a0.toUInt32 a1 a2 a3.toUInt32 with
      | (false, t) => (-1, t)
      | (true, t) => (old_altstack.flags.toUInt64.toInt64, t)
    else (old_altstack.flags.toUInt64.toInt64, t)

def sys_sigsuspend (a0 a1 : UInt64) : Int64 × Procs :=
  match t.qos_proc_signal_mask a0.toUInt32 with
  | none => (-1, t)
  | some old_mask =>
    match t.qos_proc_signal_set_mask a0.toUInt32 a1.toUInt32 with
    | (false, t) => (-1, t)
    | (true, t) =>
      -- one delivery under the new mask, and then the old mask is back
      let (delivered, t) := t.qos_proc_signal_next a0.toUInt32
      match t.qos_proc_signal_set_mask a0.toUInt32 old_mask with
      | (false, t) => (-1, t)
      | (true, t) => (if delivered < 0 then -1 else .ofInt delivered, t)

/-- A path is looked up and its file parsed by the file system: `path` is
`none` for a null pointer, and otherwise the image, if there is one. -/
def sys_exec (a0 : UInt64) (path : Option (Option ExecImage)) : Int64 × Procs :=
  match path with
  | none =>
    match t.qos_proc_exec_signal_reset a0.toUInt32 with
    | (false, t) => (-1, t)
    | (true, t) => (0, t)
  -- no such file, or not an image
  | some none => (-1, t)
  | some (some image) =>
    match t.qos_proc_exec_signal_reset a0.toUInt32 with
    | (false, t) => (-1, t)
    | (true, t) =>
      match t.qos_proc_exec_image_set a0.toUInt32 (some image) with
      | (false, t) => (-1, t)
      | (true, t) => (0, t)

/-- Without the flag in `a2` the second word is the mask itself. -/
def sys_sigreturn (a0 a1 a2 : UInt64) (frame : Option SigFrame) : Int64 × Procs :=
  if a2.toUInt32 = 1 then
    match frame with
    | none => (-1, t)
    | some frame =>
      match t.qos_proc_signal_sigreturn a0.toUInt32 (some frame) with
      | (false, t) => (-1, t)
      | (true, t) => (0, t)
  else
    match t.qos_proc_signal_set_mask a0.toUInt32 a1.toUInt32 with
    | (false, t) => (-1, t)
    | (true, t) => (0, t)
end Procs
/-! ### Runs -/
/-- The calls that change the table. The system calls are listed where they do
more than to call one function. -/
inductive Call where
  | create (pid ppid : UInt32)
  | fork (parent_pid child_pid : UInt32)
  | remove (pid : UInt32)
  | exit (pid : UInt32) (code : Int32)
  | wait (parent_pid : UInt32) (pid : Int32) (options : UInt32)
  | cwd_set (pid : UInt32) (path : Option CStr)
  | exec_signal_reset (pid : UInt32)
  | exec_image_set (pid : UInt32) (image : Option ExecImage)
  | signal_set_handler (pid signum : UInt32) (handler : UInt64)
  | signal_set_mask (pid mask : UInt32)
  | signal_send (pid signum : UInt32)
  | signal_next (pid : UInt32)
  | signal_apply_default (pid signum : UInt32)
  | signal_prepare_frame (pid signum : UInt32)
  | signal_sigreturn (pid : UInt32) (frame : Option SigFrame)
  | signal_altstack_set (pid : UInt32) (sp size : UInt64) (flags : UInt32)
  | sigaction (a0 a1 a2 : UInt64)
  | sigprocmask (a0 a1 a2 : UInt64)
  | sigaltstack (a0 a1 a2 a3 : UInt64)
  | sigsuspend (a0 a1 : UInt64)
  | exec (a0 : UInt64) (path : Option (Option ExecImage))
  | sigreturn (a0 a1 a2 : UInt64) (frame : Option SigFrame)

namespace Procs
def step (t : Procs) : Call → Procs
  | .create pid ppid => (t.qos_proc_create pid ppid).2
  | .fork parent_pid child_pid => (t.qos_proc_fork parent_pid child_pid).2
  | .remove pid => (t.qos_proc_remove pid).2
  | .exit pid code => (t.qos_proc_exit pid code).2
  | .wait parent_pid pid options => (t.qos_proc_wait parent_pid pid options).2.2
  | .cwd_set pid path => (t.qos_proc_cwd_set pid path).2
  | .exec_signal_reset pid => (t.qos_proc_exec_signal_reset pid).2
  | .exec_image_set pid image => (t.qos_proc_exec_image_set pid image).2
  | .signal_set_handler pid signum handler => (t.qos_proc_signal_set_handler pid signum handler).2
  | .signal_set_mask pid mask => (t.qos_proc_signal_set_mask pid mask).2
  | .signal_send pid signum => (t.qos_proc_signal_send pid signum).2
  | .signal_next pid => (t.qos_proc_signal_next pid).2
  | .signal_apply_default pid signum => (t.qos_proc_signal_apply_default pid signum).2
  -- it only fills the frame
  | .signal_prepare_frame _ _ => t
  | .signal_sigreturn pid frame => (t.qos_proc_signal_sigreturn pid frame).2
  | .signal_altstack_set pid sp size flags => (t.qos_proc_signal_altstack_set pid sp size flags).2
  | .sigaction a0 a1 a2 => (t.sys_sigaction a0 a1 a2).2
  | .sigprocmask a0 a1 a2 => (t.sys_sigprocmask a0 a1 a2).2
  | .sigaltstack a0 a1 a2 a3 => (t.sys_sigaltstack a0 a1 a2 a3).2
  | .sigsuspend a0 a1 => (t.sys_sigsuspend a0 a1).2
  | .exec a0 path => (t.sys_exec a0 path).2
  | .sigreturn a0 a1 a2 frame => (t.sys_sigreturn a0 a1 a2 frame).2

def system : System Procs Call := .ofStep qos_proc_reset step
end Procs
/-! ### What a call can do -/
/-- The calls that work on one process: its pid, and what becomes of it. -/
def Call.acts : Call → Option (UInt32 × (Process → Process))
  | .create _ _ | .fork _ _ | .remove _ | .wait _ _ _ | .signal_prepare_frame _ _ => none
  | .exit pid code => some (pid, fun p => (p.exit code).getD p)
  | .cwd_set pid path => some (pid, fun p => (p.cwd_set_idx path).getD p)
  | .exec_signal_reset pid => some (pid, Process.exec_signal_reset)
  | .exec_image_set pid image =>
    some (pid, fun p => (image.map fun image => { p with exec_image := image }).getD p)
  | .signal_set_handler pid signum handler =>
    some (pid, fun p => (p.signal_set_handler signum handler).getD p)
  | .signal_set_mask pid mask => some (pid, fun p => p.signal_set_mask mask)
  | .signal_send pid signum => some (pid, fun p => (p.signal_send signum).getD p)
  | .signal_next pid => some (pid, fun p => p.signal_next.2)
  | .signal_apply_default pid signum => some (pid, fun p => (p.signal_apply_default signum).getD p)
  | .signal_sigreturn pid frame =>
    some (pid, fun p => (frame.map fun frame => p.signal_set_mask frame.saved_mask).getD p)
  | .signal_altstack_set pid sp size flags =>
    some (pid, fun p => { p with sig_altstack := ⟨sp, size, flags⟩ })
  | .sigaction a0 a1 a2 => some (a0.toUInt32, fun p =>
    if a2 ≠ 0xFFFFFFFFFFFFFFFF then (p.signal_set_handler a1.toUInt32 a2).getD p else p)
  | .sigprocmask a0 a1 a2 => some (a0.toUInt32, fun p =>
    ((Procs.new_mask p.sig_blocked a1.toUInt32 a2.toUInt32).map p.signal_set_mask).getD p)
  | .sigaltstack a0 a1 a2 a3 => some (a0.toUInt32, fun p =>
    if a1 ≠ 0xFFFFFFFFFFFFFFFF then { p with sig_altstack := ⟨a1, a2, a3.toUInt32⟩ } else p)
  | .sigsuspend a0 a1 => some (a0.toUInt32, fun p =>
    (p.signal_set_mask a1.toUInt32).signal_next.2.signal_set_mask p.sig_blocked)
  | .exec a0 path => some (a0.toUInt32, fun p =>
    match path with
    | none => p.exec_signal_reset
    | some none => p
    | some (some image) => { p.exec_signal_reset with exec_image := image })
  | .sigreturn a0 a1 a2 frame => some (a0.toUInt32, fun p =>
    if a2.toUInt32 = 1 then (frame.map fun frame => p.signal_set_mask frame.saved_mask).getD p
    else p.signal_set_mask a1.toUInt32)

namespace Procs
variable {α : Type} {a0 a1 a2 : UInt64} {c : Call} {f : Process → Process}
variable {t : Procs} {pid : UInt32} {i : Slot} {p : Process}
theorem update_of_find_none (h : t.find_pid pid = none) (f : Process → Option Process) :
    t.update pid f = (false, t) := by
  unfold update
  rw [h]

theorem update_total (hfind : t.find_pid pid = some i) (f : Process → Process) :
    t.update pid (fun p => some (f p)) =
      (true, { t with procs := set t.procs i (f (t.procs i)) }) := by
  unfold update
  rw [hfind]

theorem query_of_find (hfind : t.find_pid pid = some i) (f : Process → Option α) :
    t.query pid f = f (t.procs i) := by
  unfold query
  rw [hfind, Option.bind_some]

section
variable (hfind : t.find_pid a0.toUInt32 = some i)
include hfind
theorem sys_sigaction_eq :
    (t.sys_sigaction a0 a1 a2).2 = { t with
      procs := set t.procs i (if a2 ≠ 0xFFFFFFFFFFFFFFFF then
        ((t.procs i).signal_set_handler a1.toUInt32 a2).getD (t.procs i) else t.procs i) } := by
  unfold sys_sigaction qos_proc_signal_get_handler
  rw [query_of_find hfind]
  cases hvalid : signum_valid a1.toUInt32 with
  | false =>
    -- neither the old handler is read nor a new one set
    have hnone : (t.procs i).signal_set_handler a1.toUInt32 a2 = none := by
      unfold Process.signal_set_handler
      rw [hvalid]
      rfl
    simp [hnone]
  | true =>
  simp only [if_true]
  by_cases ha2 : a2 ≠ 0xFFFFFFFFFFFFFFFF
  · rw [if_pos ha2, if_pos ha2]
    have hset : (t.qos_proc_signal_set_handler a0.toUInt32 a1.toUInt32 a2).2 = _ :=
      update_of_find hfind fun p => p.signal_set_handler a1.toUInt32 a2
    rw [← hset]
    split <;> simp [*]
  rw [if_neg ha2, if_neg ha2, set_eq_self]

theorem sys_sigprocmask_eq :
    (t.sys_sigprocmask a0 a1 a2).2 = { t with
      procs := set t.procs i (((new_mask (t.procs i).sig_blocked a1.toUInt32 a2.toUInt32).map
        (t.procs i).signal_set_mask).getD (t.procs i)) } := by
  unfold sys_sigprocmask qos_proc_signal_mask qos_proc_signal_set_mask
  rw [query_of_find hfind]
  dsimp only
  cases hmask : new_mask (t.procs i).sig_blocked a1.toUInt32 a2.toUInt32 with
  | none => simp
  | some mask =>
  dsimp only
  rw [update_total hfind fun p => p.signal_set_mask mask]
  rfl

theorem sys_sigaltstack_eq {a3 : UInt64} :
    (t.sys_sigaltstack a0 a1 a2 a3).2 = { t with
      procs := set t.procs i (if a1 ≠ 0xFFFFFFFFFFFFFFFF then
        { t.procs i with sig_altstack := ⟨a1, a2, a3.toUInt32⟩ } else t.procs i) } := by
  unfold sys_sigaltstack qos_proc_signal_altstack_get qos_proc_signal_altstack_set
  rw [query_of_find hfind]
  dsimp only
  by_cases ha1 : a1 ≠ 0xFFFFFFFFFFFFFFFF
  · rw [if_pos ha1, if_pos ha1,
      update_total hfind fun p => { p with sig_altstack := ⟨a1, a2, a3.toUInt32⟩ }]
  rw [if_neg ha1, if_neg ha1, set_eq_self]

theorem sys_sigsuspend_eq :
    t.sys_sigsuspend a0 a1 =
      (.ofInt ((t.procs i).signal_set_mask a1.toUInt32).signal_next.1.toNat, { t with
        procs := set t.procs i (((t.procs i).signal_set_mask
          a1.toUInt32).signal_next.2.signal_set_mask (t.procs i).sig_blocked) }) := by
  have hfind₁ : (Procs.mk (set t.procs i ((t.procs i).signal_set_mask a1.toUInt32))
      t.count).find_pid a0.toUInt32 = some i :=
    find_pid_set hfind ⟨rfl, rfl, rfl⟩
  have hfind₂ : (Procs.mk (set t.procs i ((t.procs i).signal_set_mask a1.toUInt32).signal_next.2)
      t.count).find_pid a0.toUInt32 = some i :=
    find_pid_set hfind ((t.procs i).signal_set_mask a1.toUInt32).signal_next_same
  have hnext := signal_next_eq hfind₁
  dsimp only at hnext
  rw [set_self, set_set] at hnext
  unfold sys_sigsuspend qos_proc_signal_mask qos_proc_signal_set_mask
  rw [query_of_find hfind, update_total hfind fun p => p.signal_set_mask a1.toUInt32]
  dsimp only
  rw [hnext]
  dsimp only
  rw [update_total hfind₂ fun p => p.signal_set_mask (t.procs i).sig_blocked]
  dsimp only
  rw [set_self, set_set, if_neg (Int.not_lt.mpr (Int.natCast_nonneg _))]

theorem sys_exec_eq {path : Option (Option ExecImage)} :
    (t.sys_exec a0 path).2 = { t with
      procs := set t.procs i (match path with
        | none => (t.procs i).exec_signal_reset
        | some none => t.procs i
        | some (some image) => { (t.procs i).exec_signal_reset with exec_image := image }) } := by
  unfold sys_exec qos_proc_exec_signal_reset qos_proc_exec_image_set
  -- no path; a path that is no image; an image
  rcases path with _ | _ | image
  · rw [update_total hfind Process.exec_signal_reset]
  · rw [set_eq_self]
  have hfind' : (Procs.mk (set t.procs i (t.procs i).exec_signal_reset) t.count).find_pid
      a0.toUInt32 = some i :=
    find_pid_set hfind (t.procs i).exec_signal_reset_same
  rw [update_total hfind Process.exec_signal_reset]
  dsimp only [Option.map_some]
  rw [update_total hfind' fun p => { p with exec_image := image }]
  dsimp only
  rw [set_self, set_set]

theorem sys_sigreturn_eq {frame : Option SigFrame} :
    (t.sys_sigreturn a0 a1 a2 frame).2 = { t with
      procs := set t.procs i (if a2.toUInt32 = 1 then
        (frame.map fun frame => (t.procs i).signal_set_mask frame.saved_mask).getD (t.procs i)
        else (t.procs i).signal_set_mask a1.toUInt32) } := by
  unfold sys_sigreturn qos_proc_signal_sigreturn qos_proc_signal_set_mask
  split
  · cases frame with
    | none => simp
    | some frame =>
      dsimp only [Option.map_some]
      rw [update_total hfind fun p => p.signal_set_mask frame.saved_mask]
      rfl
  rw [update_total hfind fun p => p.signal_set_mask a1.toUInt32]
end
theorem query_of_find_none (h : t.find_pid pid = none) (f : Process → Option α) :
    t.query pid f = none := by
  unfold query
  rw [h, Option.bind_none]

theorem step_of_find_none (hc : c.acts = some (pid, f)) (hfind : t.find_pid pid = none) :
    t.step c = t := by
  cases c <;> cases hc
  case signal_next => simp only [step, qos_proc_signal_next, hfind]
  case sigaction =>
    simp only [step, sys_sigaction, qos_proc_signal_get_handler, query_of_find_none hfind]
  case sigprocmask =>
    simp only [step, sys_sigprocmask, qos_proc_signal_mask, query_of_find_none hfind]
  case sigaltstack =>
    simp only [step, sys_sigaltstack, qos_proc_signal_altstack_get, query_of_find_none hfind]
  case sigsuspend =>
    simp only [step, sys_sigsuspend, qos_proc_signal_mask, query_of_find_none hfind]
  case exec path =>
    rcases path with _ | _ | image <;>
      simp only [step, sys_exec, qos_proc_exec_signal_reset, update_of_find_none hfind]
  case sigreturn frame =>
    cases frame <;>
      simp only [step, sys_sigreturn, qos_proc_signal_sigreturn, qos_proc_signal_set_mask,
        update_of_find_none hfind, ite_self]
  -- the others are updates
  all_goals exact congrArg Prod.snd (update_of_find_none hfind _)

theorem step_of_find (hc : c.acts = some (pid, f)) (hfind : t.find_pid pid = some i) :
    t.step c = { t with procs := set t.procs i (f (t.procs i)) } := by
  cases c <;> cases hc
  case signal_next => exact congrArg Prod.snd (signal_next_eq hfind)
  case sigaction => exact sys_sigaction_eq hfind
  case sigprocmask => exact sys_sigprocmask_eq hfind
  case sigaltstack => exact sys_sigaltstack_eq hfind
  case sigsuspend => exact congrArg Prod.snd (sys_sigsuspend_eq hfind)
  case exec => exact sys_exec_eq hfind
  case sigreturn => exact sys_sigreturn_eq hfind
  all_goals exact update_of_find hfind _

theorem step_cases (t : Procs) (c : Call) : t.step c = t ∨
    (∃ pid ppid slot, c = .create pid ppid ∧ pid ≠ 0 ∧ t.find_pid pid = none ∧
      t.free_slot = some slot ∧ t.step c = ⟨set t.procs slot (.new pid ppid), t.count + 1⟩) ∨
    (∃ parent_pid child_pid parent slot, c = .fork parent_pid child_pid ∧ child_pid ≠ 0 ∧
      t.find_pid child_pid = none ∧ t.find_pid parent_pid = some parent ∧
      t.free_slot = some slot ∧ t.step c =
        ⟨set t.procs slot ((t.procs parent).child parent_pid child_pid), t.count + 1⟩) ∨
    (∃ i, (t.procs i).used = true ∧ ((∃ pid, c = .remove pid) ∨
        ∃ parent_pid pid options, c = .wait parent_pid pid options) ∧
      t.step c = ⟨set t.procs i .free, t.count - 1⟩) ∨
    ∃ pid f i, c.acts = some (pid, f) ∧ t.find_pid pid = some i ∧
      t.step c = { t with procs := set t.procs i (f (t.procs i)) } := by
  -- the calls on one process all have the same shape; the other four have their own lemmas
  cases hc : c.acts with
  | some act =>
    obtain ⟨pid, f⟩ := act
    cases hfind : t.find_pid pid with
    | none => exact .inl (step_of_find_none hc hfind)
    | some i => exact .inr (.inr (.inr (.inr ⟨pid, f, i, rfl, hfind, step_of_find hc hfind⟩)))
  | none =>
  cases c with
  | create pid ppid =>
    obtain ⟨-, heq⟩ | ⟨slot, hadmits, hslot, heq⟩ := t.create_ends pid ppid
    · exact .inl (congrArg Prod.snd heq)
    obtain ⟨hpid, hnone, -⟩ := Family.Table.admits_iff.mp hadmits
    exact .inr (.inl ⟨pid, ppid, slot, rfl, hpid, hnone, hslot, congrArg Prod.snd heq⟩)
  | fork parent_pid child_pid =>
    obtain ⟨-, heq⟩ | ⟨parent, slot, hadmits, hparent, hslot, heq⟩ :=
      t.fork_ends parent_pid child_pid
    · exact .inl (congrArg Prod.snd heq)
    obtain ⟨hpid, hnone, -⟩ := Family.Table.admits_iff.mp hadmits
    exact .inr (.inr (.inl ⟨parent_pid, child_pid, parent, slot, rfl, hpid, hnone, hparent,
      hslot, congrArg Prod.snd heq⟩))
  | remove pid =>
    obtain heq | ⟨i, hfind, heq⟩ := t.remove_ends pid
    · exact .inl (congrArg Prod.snd heq)
    exact .inr (.inr (.inr (.inl ⟨i, (used_of_find_pid hfind).1, .inl ⟨pid, rfl⟩,
      congrArg Prod.snd heq⟩)))
  | wait parent_pid pid options =>
    obtain ⟨rc, -, -, heq⟩ | ⟨child, -, heq⟩ := t.wait_ends parent_pid pid options
    · exact .inl (by simp only [step, heq])
    have hstep : t.step (.wait parent_pid pid options) = (t.reap child).2.2 := by
      simp only [step, heq]
    rw [hstep]
    -- the child is looked up once more
    obtain heq' | ⟨i, hfind, heq'⟩ := t.remove_ends (t.procs child).pid.toInt32.toUInt32
    · exact .inl (congrArg Prod.snd heq')
    exact .inr (.inr (.inr (.inl ⟨i, (used_of_find_pid hfind).1,
      .inr ⟨parent_pid, pid, options, rfl⟩, congrArg Prod.snd heq'⟩)))
  | signal_prepare_frame => exact .inl rfl
  | _ => cases hc

/-! ### Pids -/
theorem reap_eq (h : t.family.Ok) (hi : (t.procs i).used = true) :
    t.reap i = ((t.procs i).pid.toInt32, some (t.procs i).exit_code,
      ⟨set t.procs i .free, t.count - 1⟩) := by
  have hfind : t.find_pid (t.procs i).pid = some i := h.find hi
  unfold reap qos_proc_remove
  dsimp only
  rw [UInt32.toUInt32_toInt32, hfind]
end Procs
theorem Process.same_map {α : Type} {p : Process} {g : α → Process} (h : ∀ a, Same p (g a))
    (o : Option α) : Same p ((o.map g).getD p) := by
  cases o with
  | none => exact ⟨rfl, rfl, rfl⟩
  | some a => exact h a

theorem Process.same_of_acts {c : Call} {pid : UInt32} {f : Process → Process}
    (hc : c.acts = some (pid, f)) (p : Process) : Same p (f p) := by
  cases c <;> cases hc
  case signal_next => exact p.signal_next_same
  case sigsuspend a0 a1 => exact (p.signal_set_mask a1.toUInt32).signal_next_same
  case exec_signal_reset => exact p.exec_signal_reset_same
  case signal_apply_default signum =>
    dsimp only
    rcases p.signal_apply_default_ends signum with hnone | ⟨_, _, _, hsome⟩
    · rw [hnone]
      exact ⟨rfl, rfl, rfl⟩
    rw [hsome]
    exact ⟨rfl, rfl, rfl⟩
  case exec path => rcases path with _ | _ | image <;> exact ⟨rfl, rfl, rfl⟩
  case exec_image_set =>
    refine same_map (fun _ => ?_) _
    exact ⟨rfl, rfl, rfl⟩
  case signal_sigreturn =>
    refine same_map (fun _ => ?_) _
    exact ⟨rfl, rfl, rfl⟩
  case sigprocmask =>
    refine same_map (fun _ => ?_) _
    exact ⟨rfl, rfl, rfl⟩
  case sigreturn =>
    dsimp only
    split
    · refine same_map (fun _ => ?_) _
      exact ⟨rfl, rfl, rfl⟩
    exact ⟨rfl, rfl, rfl⟩
  -- the others change one field, or fail
  all_goals
    dsimp only [exit, cwd_set_idx, signal_set_handler, signal_send]
    repeat' split
    all_goals exact ⟨rfl, rfl, rfl⟩

namespace Procs
theorem ok_step {t : Procs} (h : t.family.Ok) (c : Call) : (t.step c).family.Ok := by
  obtain heq | ⟨pid, ppid, slot, -, hpid, hnone, -, heq⟩ | ⟨parent_pid, child_pid, parent, slot, -,
    hpid, hnone, -, -, heq⟩ | ⟨i, -, -, heq⟩ | ⟨pid, f, i, hc, hfind, heq⟩ := t.step_cases c <;>
    rw [heq]
  · exact h
  · rw [family_set]
    exact h.new hpid hnone
  · rw [family_set]
    exact h.new hpid hnone
  · rw [family_set]
    exact h.leave
  have hsame := Process.same_of_acts hc (t.procs i)
  rw [family_set]
  exact h.change hsame.1 hsame.2.1
end Procs
end QosKernel.CProc
