import QosKernel.Proc.CSignals
import QosKernel.Proc.RustProc

/-! # Signals in the Rust process table (`rust-os/kernel/src/lib.rs`)

A handler is a 32-bit word here, while the system call takes 64 bits and
cuts them. Delivery does not look at the handlers: no signal is dropped
and no default action is taken.
-/
open Framework
namespace QosKernel.RustProc
def QOS_SIGNAL_MAX : Nat := 32
def QOS_SIG_IGN : UInt32 := 1
def QOS_SIGKILL : UInt32 := 9
def QOS_SIGSTOP : UInt32 := 19
def SIG_BLOCK : UInt32 := 0
def SIG_UNBLOCK : UInt32 := 1
def SIG_SETMASK : UInt32 := 2

def proc_signal_signum_valid (signum : UInt32) : Bool :=
  0 < signum.toNat && signum.toNat < QOS_SIGNAL_MAX

def proc_signal_bit (signum : UInt32) : UInt32 := 1 <<< signum

def proc_signal_unmaskable_bits : UInt32 :=
  proc_signal_bit QOS_SIGKILL ||| proc_signal_bit QOS_SIGSTOP

def signums : List UInt32 := (List.range' 1 (QOS_SIGNAL_MAX - 1)).map UInt32.ofNat

namespace Process
/-- The loop of `proc_exec_signal_reset`. -/
@[irreducible] def exec_handlers (handlers : Nat → UInt32) : Nat → UInt32 :=
  signums.foldl (fun h s => if h s.toNat ≠ QOS_SIG_IGN then set h s.toNat QOS_SIG_DFL else h)
    handlers

section
variable (p : Process)
def exec_signal_reset : Process :=
  { p with
    sig_handlers := exec_handlers p.sig_handlers
    sig_pending := 0
    sig_blocked := p.sig_blocked &&& ~~~proc_signal_unmaskable_bits }

def signal_set_mask (mask : UInt32) : Process :=
  { p with sig_blocked := mask &&& ~~~proc_signal_unmaskable_bits }

def deliverable : UInt32 :=
  (p.sig_pending &&& ~~~p.sig_blocked) ||| (p.sig_pending &&& proc_signal_unmaskable_bits)
end
/-- The loop of `proc_signal_next`, over the signals that are left. -/
def signal_next_loop (deliverable : UInt32) : List UInt32 → Process → UInt32 × Process
  | [], p => (0, p)
  | s :: rest, p =>
    if deliverable &&& proc_signal_bit s ≠ 0 then
      (s, { p with sig_pending := p.sig_pending &&& ~~~proc_signal_bit s })
    else signal_next_loop deliverable rest p

def signal_next (p : Process) : UInt32 × Process :=
  if p.sig_pending = 0 then (0, p)
  else if p.deliverable = 0 then (0, p)
  else signal_next_loop p.deliverable signums p
end Process
namespace ProcState
variable {α : Type}
def update (s : ProcState) (pid : UInt32) (f : Process → Process) : Bool × ProcState :=
  match s.proc_find pid with
  | none => (false, s)
  | some idx => (true, { s with procs := set s.procs idx (f (s.procs idx)) })

def query {α : Type} (s : ProcState) (pid : UInt32) (f : Process → α) : Option α :=
  (s.proc_find pid).map fun idx => f (s.procs idx)

section
variable (s : ProcState)
def proc_exec_signal_reset (pid : UInt32) : Bool × ProcState :=
  s.update pid Process.exec_signal_reset

def proc_exec_image_set (pid : UInt32) (image : CProc.ExecImage) : Bool × ProcState :=
  s.update pid fun p => { p with exec_image := image }

def proc_signal_set_handler (pid signum handler : UInt32) : Bool × ProcState :=
  if !proc_signal_signum_valid signum then (false, s)
  else if (signum = QOS_SIGKILL ∨ signum = QOS_SIGSTOP) ∧ handler ≠ QOS_SIG_DFL then (false, s)
  else s.update pid fun p => { p with sig_handlers := set p.sig_handlers signum.toNat handler }

def proc_signal_get_handler (pid signum : UInt32) : Option UInt32 :=
  if !proc_signal_signum_valid signum then none
  else s.query pid fun p => p.sig_handlers signum.toNat

def proc_signal_set_mask (pid mask : UInt32) : Bool × ProcState :=
  s.update pid fun p => p.signal_set_mask mask

def proc_signal_mask (pid : UInt32) : Option UInt32 :=
  s.query pid Process.sig_blocked

def proc_signal_pending (pid : UInt32) : Option UInt32 :=
  s.query pid Process.sig_pending

def proc_signal_send (pid signum : UInt32) : Bool × ProcState :=
  if !proc_signal_signum_valid signum then (false, s)
  else s.update pid fun p => { p with sig_pending := p.sig_pending ||| proc_signal_bit signum }

def proc_signal_next (pid : UInt32) : Int × ProcState :=
  match s.proc_find pid with
  | none => (-1, s)
  | some idx =>
    ((s.procs idx).signal_next.1.toNat,
      { s with procs := set s.procs idx (s.procs idx).signal_next.2 })

/-! The system calls -/
def sys_sigaction (a0 a1 a2 : UInt64) : Int64 × ProcState :=
  match s.proc_signal_get_handler a0.toUInt32 a1.toUInt32 with
  | none => (-1, s)
  | some old =>
    -- all ones only ask; any other word is cut to 32 bits
    if a2 ≠ 0xFFFFFFFFFFFFFFFF then
      match s.proc_signal_set_handler a0.toUInt32 a1.toUInt32 a2.toUInt32 with
      | (false, s) => (-1, s)
      | (true, s) => (old.toUInt64.toInt64, s)
    else (old.toUInt64.toInt64, s)
end
def new_mask (old how mask : UInt32) : Option UInt32 :=
  if how = SIG_BLOCK then some (old ||| mask)
  else if how = SIG_UNBLOCK then some (old &&& ~~~mask)
  else if how = SIG_SETMASK then some mask
  else none

def sys_sigprocmask (s : ProcState) (a0 a1 a2 : UInt64) : Int64 × ProcState :=
  match s.proc_signal_mask a0.toUInt32 with
  | none => (-1, s)
  | some old =>
    match new_mask old a1.toUInt32 a2.toUInt32 with
    | none => (-1, s)
    | some mask =>
      match s.proc_signal_set_mask a0.toUInt32 mask with
      | (false, s) => (-1, s)
      | (true, s) => (old.toUInt64.toInt64, s)

/-- The file is looked up and parsed by the file system: `path` is `none` for a
null pointer, and otherwise the image, if there is one. -/
def sys_exec (s : ProcState) (a0 : UInt64) (path : Option (Option CProc.ExecImage)) :
    Int64 × ProcState :=
  match path with
  | none =>
    match s.proc_exec_signal_reset a0.toUInt32 with
    | (false, s) => (-1, s)
    | (true, s) => (0, s)
  -- not a text, no such file, or not an image
  | some none => (-1, s)
  | some (some image) =>
    match s.proc_exec_signal_reset a0.toUInt32 with
    | (false, s) => (-1, s)
    | (true, s) =>
      match s.proc_exec_image_set a0.toUInt32 image with
      | (false, s) => (-1, s)
      | (true, s) => (0, s)

/-! ### What the functions can do -/
variable {s : ProcState} {pid : UInt32} {i : Slot}
theorem update_of_find (hfind : s.proc_find pid = some i) (f : Process → Process) :
    s.update pid f = (true, { s with procs := set s.procs i (f (s.procs i)) }) := by
  unfold update
  rw [hfind]

theorem update_of_find_none (hfind : s.proc_find pid = none) (f : Process → Process) :
    s.update pid f = (false, s) := by
  unfold update
  rw [hfind]

theorem query_of_find (hfind : s.proc_find pid = some i) (f : Process → α) :
    s.query pid f = some (f (s.procs i)) := by
  unfold query
  rw [hfind, Option.map_some]

theorem query_of_find_none (hfind : s.proc_find pid = none) (f : Process → α) :
    s.query pid f = none := by
  unfold query
  rw [hfind, Option.map_none]

theorem proc_find_set {p : Process} {count : UInt32} (hfind : s.proc_find pid = some i)
    (hused : p.used = (s.procs i).used) (hpid : p.pid = (s.procs i).pid) :
    (ProcState.mk (set s.procs i p) count).proc_find pid = some i := by
  rw [← hfind]
  refine first_congr fun j => ?_
  by_cases hji : j = i
  · simp [hji, hused, hpid]
  simp [hji]

variable (s : ProcState)
theorem set_handler_state (pid signum handler : UInt32) :
    (s.proc_signal_set_handler pid signum handler).2 = s ∨
      (s.proc_signal_set_handler pid signum handler).2 = (s.update pid fun p =>
        { p with sig_handlers := set p.sig_handlers signum.toNat handler }).2 := by
  unfold proc_signal_set_handler
  split
  · exact .inl rfl
  split
  · exact .inl rfl
  exact .inr rfl

theorem sys_sigaction_state (a0 a1 a2 : UInt64) :
    (s.sys_sigaction a0 a1 a2).2 = s ∨ (s.sys_sigaction a0 a1 a2).2 = (s.update a0.toUInt32 fun p =>
      { p with sig_handlers := set p.sig_handlers a1.toUInt32.toNat a2.toUInt32 }).2 := by
  have hset := s.set_handler_state a0.toUInt32 a1.toUInt32 a2.toUInt32
  unfold sys_sigaction
  split
  · exact .inl rfl
  split
  · split <;> (next heq => rw [heq] at hset; exact hset)
  exact .inl rfl
end ProcState
end QosKernel.RustProc
