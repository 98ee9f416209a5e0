import QosKernel.Fs.CVfs
import QosKernel.Proc.Family

/-! # The C process table (`c-os/kernel/proc/proc.c`)

The source keeps one array per field; here a slot is a record, and the
table a function from slots to records. Functions that return 0 or -1
return a `Bool`, and those that fill a structure behind a pointer return an
`Option`. Texts are kept without their terminating 0 and the bytes after
it.
-/
open Framework
namespace QosKernel.CProc
def QOS_PROC_MAX : Nat := 256
def QOS_SIGNAL_MAX : Nat := 32
def QOS_WAIT_WNOHANG : UInt32 := 1
def QOS_PROC_CWD_MAX : Nat := 128
def QOS_PROC_NAME_MAX : Nat := 32
def QOS_SIG_TRAMPOLINE_VA : UInt64 := 0x00007FFF00000000
def QOS_SIG_DFL : UInt64 := 0
def QOS_SIG_IGN : UInt64 := 1
def QOS_SIGKILL : UInt32 := 9
def QOS_SIGSTOP : UInt32 := 19

/-- `qos_sigaltstack_t` -/
structure SigAltStack where
  sp : UInt64
  size : UInt64
  flags : UInt32
  deriving DecidableEq

/-- `qos_sigframe_t` -/
structure SigFrame where
  pretcode : UInt64
  signum : UInt32
  saved_mask : UInt32
  saved_handler : UInt64
  deriving DecidableEq

/-- `qos_proc_exec_image_t` -/
structure ExecImage where
  entry : UInt64
  phoff : UInt64
  phentsize : UInt16
  phnum : UInt16
  load_count : UInt16
  has_interp : UInt8
  interp_off : UInt64
  interp_len : UInt64
  deriving DecidableEq

structure Process where
  pid : UInt32
  ppid : UInt32
  used : Bool
  exited : Bool
  stopped : Bool
  exit_code : Int32
  cwd : CStr
  name : CStr
  /-- By signal number, below `QOS_SIGNAL_MAX`. -/
  sig_handlers : Nat → UInt64
  sig_pending : UInt32
  sig_blocked : UInt32
  sig_altstack : SigAltStack
  exec_image : ExecImage

def Process.member (p : Process) : Family.Member := ⟨p.pid, p.ppid, p.used, p.exited⟩

/-! ### Signals of one process -/
def signum_valid (signum : UInt32) : Bool := 0 < signum.toNat && signum.toNat < QOS_SIGNAL_MAX
def signum_bit (signum : UInt32) : UInt32 := 1 <<< signum
def unmaskable_bits : UInt32 := signum_bit QOS_SIGKILL ||| signum_bit QOS_SIGSTOP

/-- The loops over the signals. -/
def signums : List UInt32 := (List.range' 1 (QOS_SIGNAL_MAX - 1)).map UInt32.ofNat

namespace Process
def cwd_set_idx (p : Process) : Option CStr → Option Process
  | none => none
  | some path =>
    -- only absolute paths
    if path.head? ≠ some 47 then none
    else if path.length = 0 ∨ QOS_PROC_CWD_MAX ≤ path.length then none
    else some { p with cwd := path }

/-- The loop that writes the digits to `tmp`, lowest digit first. -/
def digits : Nat → UInt32 → List UInt8
  | 0, _ => []
  | n + 1, value =>
    if value = 0 then [] else (48 + (value % 10).toUInt8) :: digits n (value / 10)

/-- The bytes written to a buffer of `cap` bytes, and the result. -/
def write_u32_ascii (cap : Nat) (value : UInt32) : List UInt8 × Nat :=
  if cap = 0 then ([], 0)
  -- the length is that of the digits, whether they fit or not
  else if value = 0 then (if 1 < cap then [48] else [], 1)
  else ((digits 16 value).reverse.take (cap - 1), (digits 16 value).length)

section
variable (p : Process)
def init_name_idx (pid : UInt32) : Process :=
  let start := (cstr "proc-").take (QOS_PROC_NAME_MAX - 1)
  let (text, n) := write_u32_ascii (QOS_PROC_NAME_MAX - start.length) pid
  { p with name := (start ++ text).take (min (start.length + n) (QOS_PROC_NAME_MAX - 1)) }

def init_signal_state : Process :=
  { p with
    sig_handlers := fun _ => QOS_SIG_DFL
    sig_pending := 0
    sig_blocked := 0
    sig_altstack := ⟨0, 0, 0⟩ }

def init_exec_image_state : Process :=
  { p with exec_image := ⟨0, 0, 0, 0, 0, 0, 0, 0⟩ }
end
def free : Process where
  pid := 0
  ppid := 0
  used := false
  exited := false
  stopped := false
  exit_code := 0
  cwd := []
  name := []
  sig_handlers := fun _ => QOS_SIG_DFL
  sig_pending := 0
  sig_blocked := 0
  sig_altstack := ⟨0, 0, 0⟩
  exec_image := ⟨0, 0, 0, 0, 0, 0, 0, 0⟩

/-- The part of `qos_proc_exit` after the process was found. -/
def exit (p : Process) (code : Int32) : Option Process :=
  if p.exited then none
  else some { p with exited := true, stopped := false, exit_code := code }

/-- The loop of `qos_proc_exec_signal_reset`. -/
@[irreducible] def exec_handlers (handlers : Nat → UInt64) : Nat → UInt64 :=
  signums.foldl (fun h s => if h s.toNat ≠ QOS_SIG_IGN then set h s.toNat QOS_SIG_DFL else h)
    handlers

variable (p : Process)
def exec_signal_reset : Process :=
  { p with
    sig_handlers := exec_handlers p.sig_handlers
    sig_pending := 0
    sig_blocked := p.sig_blocked &&& ~~~unmaskable_bits }

def signal_set_handler (signum : UInt32) (handler : UInt64) : Option Process :=
  if !signum_valid signum then none
  else if (signum = QOS_SIGKILL ∨ signum = QOS_SIGSTOP) ∧ handler ≠ QOS_SIG_DFL then none
  else some { p with sig_handlers := set p.sig_handlers signum.toNat handler }

def signal_set_mask (mask : UInt32) : Process :=
  { p with sig_blocked := mask &&& ~~~unmaskable_bits }

section
variable (signum : UInt32)
def signal_send : Option Process :=
  if !signum_valid signum then none
  else some { p with sig_pending := p.sig_pending ||| signum_bit signum }

def signal_apply_default : Option Process :=
  if !signum_valid signum then none
  -- 17 does nothing, 18 continues, 19 to 22 stop, and all others terminate
  else if signum = 17 then some p
  else if signum = 18 then some { p with stopped := false }
  else if signum = QOS_SIGSTOP ∨ signum = 20 ∨ signum = 21 ∨ signum = 22 then
    some { p with stopped := true }
  else some { p with stopped := false, exited := true, exit_code := 128 + signum.toInt32 }

def signal_prepare_frame : Option SigFrame :=
  if !signum_valid signum then none
  else if p.sig_handlers signum.toNat = QOS_SIG_DFL ∨ p.sig_handlers signum.toNat = QOS_SIG_IGN then
    none
  else some ⟨QOS_SIG_TRAMPOLINE_VA, signum, p.sig_blocked, p.sig_handlers signum.toNat⟩
end
def deliverable : UInt32 :=
  (p.sig_pending &&& ~~~p.sig_blocked) ||| (p.sig_pending &&& unmaskable_bits)
end Process
/-! ### The table -/
abbrev Slot := Fin QOS_PROC_MAX

structure Procs where
  procs : Slot → Process
  count : UInt32

namespace Procs
def qos_proc_reset : Procs := ⟨fun _ => .free, 0⟩

section
variable (t : Procs)
def find_pid (pid : UInt32) : Option Slot :=
  first fun i => (t.procs i).used && (t.procs i).pid == pid

def free_slot : Option Slot := first fun i => !(t.procs i).used

/-- The functions that look up a process and then work on its slot. -/
def update (pid : UInt32) (f : Process → Option Process) : Bool × Procs :=
  match t.find_pid pid with
  | none => (false, t)
  | some idx =>
    match f (t.procs idx) with
    | none => (false, t)
    | some p => (true, { t with procs := set t.procs idx p })
end
/-- The functions that look up a process and read its slot. -/
def query {α : Type} (t : Procs) (pid : UInt32) (f : Process → Option α) : Option α :=
  (t.find_pid pid).bind fun idx => f (t.procs idx)

section
variable (t : Procs)
def qos_proc_create (pid ppid : UInt32) : Bool × Procs :=
  if pid = 0 then (false, t)
  else if (t.find_pid pid).isSome then (false, t)
  else
    match t.free_slot with
    | none => (false, t)
    | some slot =>
      -- the slot is claimed before the directory is set, and stays so if that fails
      let p := { t.procs slot with
        used := true, exited := false, stopped := false, exit_code := 0, pid := pid, ppid := ppid }
      match p.cwd_set_idx (some (cstr "/")) with
      | none => (false, { t with procs := set t.procs slot p })
      | some p =>
        (true, {
          procs := set t.procs slot
            ((p.init_name_idx pid).init_signal_state).init_exec_image_state
          count := t.count + 1 })

def qos_proc_fork (parent_pid child_pid : UInt32) : Bool × Procs :=
  if child_pid = 0 ∨ (t.find_pid child_pid).isSome then (false, t)
  else
    match t.find_pid parent_pid with
    | none => (false, t)
    | some parent_idx =>
      match t.free_slot with
      | none => (false, t)
      | some child_idx =>
        let parent := t.procs parent_idx
        -- no test of the parent: it may have exited or be stopped
        let child := { t.procs child_idx with
          used := true
          exited := false
          stopped := false
          exit_code := 0
          pid := child_pid
          ppid := parent_pid
          cwd := parent.cwd
          sig_handlers := parent.sig_handlers
          sig_blocked := parent.sig_blocked
          sig_pending := 0
          sig_altstack := parent.sig_altstack
          exec_image := parent.exec_image }
        (true, {
          procs := set t.procs child_idx (child.init_name_idx child_pid)
          count := t.count + 1 })

section
variable (pid : UInt32)
def qos_proc_remove : Bool × Procs :=
  match t.find_pid pid with
  | none => (false, t)
  | some idx => (true, { procs := set t.procs idx .free, count := t.count - 1 })

def qos_proc_parent : Int32 :=
  match t.find_pid pid with
  | none => -1
  | some idx => (t.procs idx).ppid.toInt32

def qos_proc_alive : Bool :=
  match t.find_pid pid with
  | none => false
  | some idx => !(t.procs idx).exited
end
def qos_proc_count : UInt32 := t.count

/-- A text of the process, if it fits a buffer of `out_len` bytes. -/
def get_text (pid : UInt32) (text : Process → CStr) (out_len : UInt32) : Option CStr :=
  t.query pid fun p => if out_len.toNat < (text p).length + 1 then none else some (text p)

def qos_proc_name_get (pid out_len : UInt32) : Option CStr :=
  t.get_text pid Process.name out_len

def qos_proc_exit (pid : UInt32) (code : Int32) : Bool × Procs :=
  t.update pid fun p => p.exit code

/-- The end of `qos_proc_wait`: the result, the status that is stored, and the
table. -/
def reap (match_idx : Slot) : Int32 × Option Int32 × Procs :=
  let pid := (t.procs match_idx).pid.toInt32
  -- the child is removed by its pid
  (pid, some (t.procs match_idx).exit_code, (t.qos_proc_remove pid.toUInt32).2)

def qos_proc_wait (parent_pid : UInt32) (pid : Int32) (options : UInt32) :
    Int32 × Option Int32 × Procs :=
  let nothing : Int32 := if options &&& QOS_WAIT_WNOHANG ≠ 0 then 0 else -1
  match t.find_pid parent_pid with
  | none => (-1, none, t)
  | some _ =>
    if pid = -1 then
      match first fun i => (t.procs i).used && (t.procs i).ppid == parent_pid &&
          (t.procs i).exited with
      | none => (nothing, none, t)
      | some match_idx => t.reap match_idx
    else
      match t.find_pid pid.toUInt32 with
      | none => (nothing, none, t)
      | some match_idx =>
        -- a process that is not a child is an error, also with WNOHANG
        if (t.procs match_idx).ppid ≠ parent_pid then (-1, none, t)
        else if !(t.procs match_idx).exited then (nothing, none, t)
        else t.reap match_idx

def qos_proc_cwd_set (pid : UInt32) (path : Option CStr) : Bool × Procs :=
  t.update pid fun p => p.cwd_set_idx path

def qos_proc_cwd_get (pid out_len : UInt32) : Option CStr :=
  t.get_text pid Process.cwd out_len

section
variable (pid : UInt32)
def qos_proc_exec_signal_reset : Bool × Procs :=
  t.update pid fun p => some p.exec_signal_reset

def qos_proc_exec_image_set (image : Option ExecImage) : Bool × Procs :=
  t.update pid fun p => image.map fun image => { p with exec_image := image }

def qos_proc_exec_image_get : Option ExecImage :=
  t.query pid fun p => some p.exec_image
end
/-! Signals -/
def qos_proc_signal_set_handler (pid signum : UInt32) (handler : UInt64) : Bool × Procs :=
  t.update pid fun p => p.signal_set_handler signum handler

def qos_proc_signal_get_handler (pid signum : UInt32) : Option UInt64 :=
  t.query pid fun p => if signum_valid signum then some (p.sig_handlers signum.toNat) else none

def qos_proc_signal_set_mask (pid mask : UInt32) : Bool × Procs :=
  t.update pid fun p => some (p.signal_set_mask mask)

def qos_proc_signal_mask (pid : UInt32) : Option UInt32 :=
  t.query pid fun p => some p.sig_blocked

def qos_proc_signal_pending (pid : UInt32) : Option UInt32 :=
  t.query pid fun p => some p.sig_pending

variable (pid signum : UInt32)
def qos_proc_signal_send : Bool × Procs :=
  t.update pid fun p => p.signal_send signum

def qos_proc_signal_apply_default : Bool × Procs :=
  t.update pid fun p => p.signal_apply_default signum
end
/-- The loop of `qos_proc_signal_next`, over the signals that are left. -/
def signal_next_loop (pid : UInt32) (idx : Slot) (deliverable : UInt32) :
    List UInt32 → Procs → Int × Procs
  | [], t => (0, t)
  | s :: rest, t =>
    if deliverable &&& signum_bit s ≠ 0 then
      let handler := (t.procs idx).sig_handlers s.toNat
      let t := { t with
        procs := set t.procs idx { t.procs idx with
          sig_pending := (t.procs idx).sig_pending &&& ~~~signum_bit s } }
      -- an ignored signal is dropped, and the loop goes on
      if handler = QOS_SIG_IGN then signal_next_loop pid idx deliverable rest t
      else if handler = QOS_SIG_DFL then (s.toNat, (t.qos_proc_signal_apply_default pid s).2)
      else (s.toNat, t)
    else signal_next_loop pid idx deliverable rest t

variable (t : Procs)
def qos_proc_signal_next (pid : UInt32) : Int × Procs :=
  match t.find_pid pid with
  | none => (-1, t)
  | some idx =>
    if (t.procs idx).sig_pending = 0 then (0, t)
    else if (t.procs idx).deliverable = 0 then (0, t)
    else signal_next_loop pid idx (t.procs idx).deliverable signums t

def qos_proc_signal_prepare_frame (pid signum : UInt32) : Option SigFrame :=
  t.query pid fun p => p.signal_prepare_frame signum

section
variable (pid : UInt32)
def qos_proc_signal_sigreturn (frame : Option SigFrame) : Bool × Procs :=
  t.update pid fun p => frame.map fun frame => p.signal_set_mask frame.saved_mask

def qos_proc_signal_altstack_set (sp size : UInt64) (flags : UInt32) :
    Bool × Procs :=
  t.update pid fun p => some { p with sig_altstack := ⟨sp, size, flags⟩ }

def qos_proc_signal_altstack_get : Option SigAltStack :=
  t.query pid fun p => some p.sig_altstack

def qos_proc_is_stopped : Bool :=
  match t.find_pid pid with
  | none => false
  | some idx => (t.procs idx).stopped
end
def family : Family.Table QOS_PROC_MAX := fun i => (t.procs i).member
end Procs
/-! ### What the functions can do -/
namespace Process
def new (pid ppid : UInt32) : Process :=
  { free.init_name_idx pid with used := true, pid := pid, ppid := ppid, cwd := cstr "/" }

theorem cwd_set_idx_root (p : Process) :
    p.cwd_set_idx (some (cstr "/")) = some { p with cwd := cstr "/" } := by
  have hroot : cstr "/" = [47] := by decide +kernel
  rw [hroot]
  rfl

def child (parent : Process) (parent_pid child_pid : UInt32) : Process :=
  { parent.init_name_idx child_pid with
    used := true
    exited := false
    stopped := false
    exit_code := 0
    pid := child_pid
    ppid := parent_pid
    sig_pending := 0 }
end Process
namespace Procs
variable {t : Procs} {pid : UInt32} {i : Slot}
theorem find_pid_eq (t : Procs) (pid : UInt32) : t.find_pid pid = t.family.find pid := rfl
theorem free_slot_eq (t : Procs) : t.free_slot = t.family.free_slot := rfl

theorem family_set {p : Process} {count : UInt32} :
    family ⟨set t.procs i p, count⟩ = set t.family i p.member :=
  set_comp Process.member

theorem used_of_find_pid (h : t.find_pid pid = some i) :
    (t.procs i).used = true ∧ (t.procs i).pid = pid :=
  Family.Table.find_some (t := t.family) h

theorem unused_of_free_slot (h : t.free_slot = some i) : (t.procs i).used = false :=
  Family.Table.free_slot_some (t := t.family) h

variable (t : Procs)
theorem create_ends (pid ppid : UInt32) :
    t.family.admits pid = false ∧ t.qos_proc_create pid ppid = (false, t) ∨
    ∃ slot, t.family.admits pid = true ∧ t.free_slot = some slot ∧ t.qos_proc_create pid ppid =
        (true, ⟨set t.procs slot (.new pid ppid), t.count + 1⟩) := by
  unfold qos_proc_create Family.Table.admits
  rw [← find_pid_eq, ← free_slot_eq]
  by_cases hpid : pid = 0
  · exact .inl ⟨by simp [hpid], by rw [if_pos hpid]⟩
  rw [if_neg hpid]
  cases hfind : t.find_pid pid with
  | some i => exact .inl ⟨by simp, rfl⟩
  | none =>
  cases hslot : t.free_slot with
  | none => exact .inl ⟨by simp, rfl⟩
  | some slot =>
  -- every field is written, so nothing of the slot is left
  refine .inr ⟨slot, by simp [hpid], rfl, ?_⟩
  simp only [Option.isSome_none, Bool.false_eq_true, if_false]
  rw [Process.cwd_set_idx_root]
  rfl

theorem fork_ends (parent_pid child_pid : UInt32) :
    (t.family.admits child_pid = false ∨ t.find_pid parent_pid = none) ∧
      t.qos_proc_fork parent_pid child_pid = (false, t) ∨
    ∃ parent slot, t.family.admits child_pid = true ∧ t.find_pid parent_pid = some parent ∧
      t.free_slot = some slot ∧ t.qos_proc_fork parent_pid child_pid =
        (true, ⟨set t.procs slot ((t.procs parent).child parent_pid child_pid), t.count + 1⟩) := by
  unfold qos_proc_fork Family.Table.admits
  rw [← find_pid_eq, ← free_slot_eq]
  by_cases hchild : child_pid = 0 ∨ (t.find_pid child_pid).isSome = true
  · refine .inl ⟨.inl ?_, by rw [if_pos hchild]⟩
    rcases hchild with hpid | hfind
    · simp [hpid]
    simp [Option.isNone_eq_false_iff.mpr hfind]
  obtain ⟨hpid, hfind⟩ := not_or.mp hchild
  have hnone : t.find_pid child_pid = none := by simpa using hfind
  rw [if_neg hchild]
  cases hparent : t.find_pid parent_pid with
  | none => exact .inl ⟨.inr rfl, rfl⟩
  | some parent =>
  cases hslot : t.free_slot with
  | none => exact .inl ⟨.inl (by simp), rfl⟩
  | some slot => exact .inr ⟨parent, slot, by simp [hpid, hnone], rfl, rfl, rfl⟩

theorem remove_ends (pid : UInt32) : t.qos_proc_remove pid = (false, t) ∨
    ∃ idx, t.find_pid pid = some idx ∧
      t.qos_proc_remove pid = (true, ⟨set t.procs idx .free, t.count - 1⟩) := by
  unfold qos_proc_remove
  cases hfind : t.find_pid pid with
  | none => exact .inl rfl
  | some idx => exact .inr ⟨idx, rfl, rfl⟩

theorem wait_ends (parent_pid : UInt32) (pid : Int32) (options : UInt32) :
    (∃ rc, (rc = 0 ∨ rc = -1) ∧ t.family.reaped parent_pid pid = none ∧
      t.qos_proc_wait parent_pid pid options = (rc, none, t)) ∨
    ∃ child, t.family.reaped parent_pid pid = some child ∧
      t.qos_proc_wait parent_pid pid options = t.reap child := by
  have hnothing : ∀ w : Prop, [Decidable w] → (if w then (0 : Int32) else -1) = 0 ∨
      (if w then (0 : Int32) else -1) = -1 := by
    intro w _
    split
    · exact .inl rfl
    exact .inr rfl
  rw [Family.Table.reaped_eq, ← find_pid_eq]
  unfold qos_proc_wait
  cases t.find_pid parent_pid with
  | none => exact .inl ⟨_, .inr rfl, rfl, rfl⟩
  | some parent =>
  dsimp only
  split
  · cases hfirst : first fun i => (t.procs i).used && (t.procs i).ppid == parent_pid &&
        (t.procs i).exited with
    | none => exact .inl ⟨_, hnothing _, hfirst, rfl⟩
    | some child => exact .inr ⟨child, hfirst, rfl⟩
  rw [← find_pid_eq]
  cases t.find_pid pid.toUInt32 with
  | none => exact .inl ⟨_, hnothing _, rfl, rfl⟩
  | some child =>
  dsimp only
  split
  next hppid => exact .inl ⟨_, .inr rfl, rfl, if_pos hppid⟩
  next hppid =>
  split
  next hexited => exact .inl ⟨_, hnothing _, rfl, (if_neg hppid).trans (if_pos hexited)⟩
  next hexited => exact .inr ⟨child, rfl, (if_neg hppid).trans (if_neg hexited)⟩
end Procs
end QosKernel.CProc
