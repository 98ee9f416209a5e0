import QosKernel.Proc.CProc

/-! # The Rust process table (`rust-os/kernel/src/lib.rs`)

The life of processes: creation, fork, exit, removal and wait. As for the
C table, a slot is a record, and texts are kept without what stands behind
their end. Every function holds the lock of the table from its start to
its end, so it is one step.
-/
open Framework
namespace QosKernel.RustProc
def QOS_PROC_MAX : Nat := 256
def QOS_PROC_NAME_MAX : Nat := 32
def QOS_VFS_PATH_MAX : Nat := 128
def QOS_WAIT_WNOHANG : UInt32 := 1
def QOS_SIG_DFL : UInt32 := 0

structure Process where
  pid : UInt32
  ppid : UInt32
  used : Bool
  exited : Bool
  exit_code : Int32
  cwd : CStr
  name : CStr
  sig_handlers : Nat → UInt32
  sig_pending : UInt32
  sig_blocked : UInt32
  sig_altstack : CProc.SigAltStack
  exec_image : CProc.ExecImage

namespace Process
def free : Process where
  pid := 0
  ppid := 0
  used := false
  exited := false
  exit_code := 0
  cwd := []
  name := []
  sig_handlers := fun _ => QOS_SIG_DFL
  sig_pending := 0
  sig_blocked := 0
  sig_altstack := ⟨0, 0, 0⟩
  exec_image := ⟨0, 0, 0, 0, 0, 0, 0, 0⟩

def proc_cwd_set_idx (p : Process) (path : CStr) : Option Process :=
  if path.isEmpty || path.head? != some 47 || QOS_VFS_PATH_MAX ≤ path.length then none
  else some { p with cwd := path }

/-- The bytes written to a slice of `len` bytes. -/
def write_u32_ascii (len : Nat) (value : UInt32) : List UInt8 :=
  if len = 0 then []
  else if value = 0 then [48]
  else (CProc.Process.digits 16 value).reverse.take len

variable (p : Process)
def proc_name_init_idx (pid : UInt32) : Process :=
  let start := (cstr "proc-").take (QOS_PROC_NAME_MAX - 1)
  { p with
    name :=
      if start.length < QOS_PROC_NAME_MAX - 1 then
        start ++ write_u32_ascii (QOS_PROC_NAME_MAX - 1 - start.length) pid
      else start }

def proc_exec_image_clear_idx : Process :=
  { p with exec_image := ⟨0, 0, 0, 0, 0, 0, 0, 0⟩ }

/-- What the relations between processes depend on. -/
def member : Family.Member := ⟨p.pid, p.ppid, p.used, p.exited⟩
end Process
abbrev Slot := Fin QOS_PROC_MAX

structure ProcState where
  procs : Slot → Process
  count : UInt32

namespace ProcState
def proc_reset : ProcState := ⟨fun _ => .free, 0⟩

variable (s : ProcState)
def proc_find (pid : UInt32) : Option Slot :=
  first fun i => (s.procs i).used && (s.procs i).pid == pid

def proc_free_slot : Option Slot := first fun i => !(s.procs i).used

def proc_create (pid ppid : UInt32) : Bool × ProcState :=
  if pid = 0 then (false, s)
  else if (s.proc_find pid).isSome then (false, s)
  else
    match s.proc_free_slot with
    | none => (false, s)
    | some slot =>
      -- here too the slot is claimed first
      let p := { s.procs slot with
        used := true, exited := false, exit_code := 0, pid := pid, ppid := ppid }
      match p.proc_cwd_set_idx (cstr "/") with
      | none => (false, { s with procs := set s.procs slot p })
      | some p =>
        let p := { p.proc_name_init_idx pid with
          sig_handlers := fun _ => QOS_SIG_DFL
          sig_pending := 0
          sig_blocked := 0
          sig_altstack := ⟨0, 0, 0⟩ }
        (true, {
          procs := set s.procs slot p.proc_exec_image_clear_idx
          count := s.count + 1 })

section
variable (pid : UInt32)
def proc_remove : Bool × ProcState :=
  match s.proc_find pid with
  | none => (false, s)
  | some idx => (true, { procs := set s.procs idx .free, count := s.count - 1 })

def proc_parent : Option UInt32 :=
  (s.proc_find pid).map fun idx => (s.procs idx).ppid

def proc_alive : Bool :=
  match s.proc_find pid with
  | none => false
  | some idx => !(s.procs idx).exited
end
def proc_count : UInt32 := s.count

def proc_fork (parent_pid child_pid : UInt32) : Bool × ProcState :=
  if child_pid = 0 then (false, s)
  else
    match s.proc_find parent_pid with
    | none => (false, s)
    | some parent_idx =>
      -- the parent is looked for before the child; whether it has exited is not asked
      if (s.proc_find child_pid).isSome then (false, s)
      else
        match s.proc_free_slot with
        | none => (false, s)
        | some child_idx =>
          let parent := s.procs parent_idx
          let child := { s.procs child_idx with
            used := true
            exited := false
            exit_code := 0
            pid := child_pid
            ppid := parent_pid
            cwd := parent.cwd }
          let child := { child.proc_name_init_idx child_pid with
            sig_handlers := parent.sig_handlers
            sig_blocked := parent.sig_blocked
            sig_pending := 0
            sig_altstack := parent.sig_altstack
            exec_image := parent.exec_image }
          (true, { procs := set s.procs child_idx child, count := s.count + 1 })

def proc_exit (pid : UInt32) (code : Int32) : Bool × ProcState :=
  match s.proc_find pid with
  | none => (false, s)
  | some idx =>
    if (s.procs idx).exited then (false, s)
    else
      (true, { s with
        procs := set s.procs idx { s.procs idx with exited := true, exit_code := code } })

/-- The end of `proc_wait_inner`. -/
def reap (idx : Slot) : (Int32 × Int32 × Bool) × ProcState :=
  (((s.procs idx).pid.toInt32, (s.procs idx).exit_code, true),
    -- the slot is cleared where it was found, not by its pid as in C
    { procs := set s.procs idx .free, count := s.count - 1 })

section
variable (parent_pid : UInt32) (pid : Int32) (options : UInt32)
def proc_wait_inner :
    (Int32 × Int32 × Bool) × ProcState :=
  let nothing : Int32 := if options &&& QOS_WAIT_WNOHANG ≠ 0 then 0 else -1
  match s.proc_find parent_pid with
  | none => ((-1, 0, false), s)
  | some _ =>
    if pid = -1 then
      match first fun i => (s.procs i).used && (s.procs i).ppid == parent_pid &&
          (s.procs i).exited with
      | none => ((nothing, 0, false), s)
      | some idx => s.reap idx
    else
      match s.proc_find pid.toUInt32 with
      | none => ((nothing, 0, false), s)
      | some child_idx =>
        if (s.procs child_idx).ppid ≠ parent_pid then ((-1, 0, false), s)
        else if !(s.procs child_idx).exited then ((nothing, 0, false), s)
        else s.reap child_idx

def proc_wait : Int32 × ProcState :=
  ((s.proc_wait_inner parent_pid pid options).1.1, (s.proc_wait_inner parent_pid pid options).2)

def proc_wait_status :
    (Int32 × Int32 × Bool) × ProcState :=
  s.proc_wait_inner parent_pid pid options
end
def family : Family.Table QOS_PROC_MAX := fun i => (s.procs i).member
end ProcState
/-! ### What the functions can do -/
namespace Process
/-- The process that `proc_create` adds. -/
def new (pid ppid : UInt32) : Process :=
  { free.proc_name_init_idx pid with used := true, pid := pid, ppid := ppid, cwd := cstr "/" }

/-- The process that `proc_fork` adds. -/
def child (parent : Process) (parent_pid child_pid : UInt32) : Process :=
  { parent.proc_name_init_idx child_pid with
    used := true
    exited := false
    exit_code := 0
    pid := child_pid
    ppid := parent_pid
    sig_pending := 0 }

theorem proc_cwd_set_idx_root (p : Process) :
    p.proc_cwd_set_idx (cstr "/") = some { p with cwd := cstr "/" } := by
  have hroot : cstr "/" = [47] := by decide +kernel
  rw [hroot]
  rfl
end Process
namespace ProcState
variable {s : ProcState}
theorem proc_find_eq (s : ProcState) (pid : UInt32) : s.proc_find pid = s.family.find pid := rfl
theorem proc_free_slot_eq (s : ProcState) : s.proc_free_slot = s.family.free_slot := rfl

theorem family_set {i : Slot} {p : Process} {count : UInt32} :
    family ⟨set s.procs i p, count⟩ = set s.family i p.member :=
  set_comp Process.member

variable (s : ProcState)
theorem proc_create_ends (pid ppid : UInt32) :
    s.family.admits pid = false ∧ s.proc_create pid ppid = (false, s) ∨
    ∃ slot, s.family.admits pid = true ∧ s.proc_free_slot = some slot ∧
      s.proc_create pid ppid = (true, ⟨set s.procs slot (.new pid ppid), s.count + 1⟩) := by
  unfold proc_create Family.Table.admits
  rw [← proc_find_eq, ← proc_free_slot_eq]
  by_cases hpid : pid = 0
  · exact .inl ⟨by simp [hpid], by rw [if_pos hpid]⟩
  rw [if_neg hpid]
  cases hfind : s.proc_find pid with
  | some i => exact .inl ⟨by simp, rfl⟩
  | none =>
  cases hslot : s.proc_free_slot with
  | none => exact .inl ⟨by simp, rfl⟩
  | some slot =>
  refine .inr ⟨slot, by simp [hpid], rfl, ?_⟩
  simp only [Option.isSome_none, Bool.false_eq_true, if_false]
  rw [Process.proc_cwd_set_idx_root]
  rfl

theorem proc_fork_ends (parent_pid child_pid : UInt32) :
    (s.family.admits child_pid = false ∨ s.proc_find parent_pid = none) ∧
      s.proc_fork parent_pid child_pid = (false, s) ∨
    ∃ parent slot, s.family.admits child_pid = true ∧ s.proc_find parent_pid = some parent ∧
      s.proc_free_slot = some slot ∧ s.proc_fork parent_pid child_pid =
        (true, ⟨set s.procs slot ((s.procs parent).child parent_pid child_pid), s.count + 1⟩) := by
  unfold proc_fork Family.Table.admits
  rw [← proc_find_eq, ← proc_free_slot_eq]
  by_cases hpid : child_pid = 0
  · exact .inl ⟨.inl (by simp [hpid]), by rw [if_pos hpid]⟩
  rw [if_neg hpid]
  cases hparent : s.proc_find parent_pid with
  | none => exact .inl ⟨.inr rfl, rfl⟩
  | some parent =>
  cases hfind : s.proc_find child_pid with
  | some i => exact .inl ⟨.inl (by simp), rfl⟩
  | none =>
  cases hslot : s.proc_free_slot with
  | none => exact .inl ⟨.inl (by simp), rfl⟩
  | some slot => exact .inr ⟨parent, slot, by simp [hpid], rfl, rfl, rfl⟩

theorem proc_wait_inner_ends (parent_pid : UInt32) (pid : Int32)
    (options : UInt32) :
    (∃ rc, s.family.reaped parent_pid pid = none ∧
      s.proc_wait_inner parent_pid pid options = ((rc, 0, false), s)) ∨
    ∃ child, s.family.reaped parent_pid pid = some child ∧
      s.proc_wait_inner parent_pid pid options = s.reap child := by
  rw [Family.Table.reaped_eq, ← proc_find_eq]
  unfold proc_wait_inner
  cases s.proc_find parent_pid with
  | none => exact .inl ⟨_, rfl, rfl⟩
  | some parent =>
  dsimp only
  split
  · cases hfirst : first fun i => (s.procs i).used && (s.procs i).ppid == parent_pid &&
        (s.procs i).exited with
    | none => exact .inl ⟨_, hfirst, rfl⟩
    | some child => exact .inr ⟨child, hfirst, rfl⟩
  rw [← proc_find_eq]
  cases s.proc_find pid.toUInt32 with
  | none => exact .inl ⟨_, rfl, rfl⟩
  | some child =>
  dsimp only
  split
  next hppid => exact .inl ⟨_, rfl, if_pos hppid⟩
  next hppid =>
  split
  next hexited => exact .inl ⟨_, rfl, (if_neg hppid).trans (if_pos hexited)⟩
  next hexited => exact .inr ⟨child, rfl, (if_neg hppid).trans (if_neg hexited)⟩
end ProcState
end QosKernel.RustProc
