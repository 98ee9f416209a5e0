import QosKernel.Exec.CLibs
import QosKernel.Proc.CSignals

/-! # The C system calls on processes

The branches of `qos_syscall_dispatch` that work on the process table, next
to those on files: `EXEC` looks its path up among the files, and `CHDIR`
among the paths. The runs are any sequence of system calls and of the
functions of the process table.
-/
open Framework
namespace QosKernel
/-- An image as the process table keeps it. -/
def ExecImage.recorded (image : ExecImage) : CProc.ExecImage where
  entry := image.entry
  phoff := image.phoff
  phentsize := image.phentsize
  phnum := image.phnum
  load_count := image.load_count
  has_interp := if image.has_interp then 1 else 0
  interp_off := image.interp_off
  interp_len := image.interp_len

/-- The image in the file that `file_find` finds for a path. -/
def KState.exec_image (k : KState) (path : CStr) : Option ExecImage :=
  match k.file_find path with
  | none => none
  | some f =>
    if !(k.files f).used || (k.files f).len == 0 then none
    else
      match CElf.parse_exec_elf_image (k.files f).image with
      | .ok image => some image
      | .giveUp | .fault => none

/-- The state of the system calls on files and processes. -/
structure ProcKernel where
  kernel : KState
  procs : CProc.Procs

/-- What a call on processes returns, what it writes to the caller, and the
table. -/
structure ProcAnswer where
  rc : Int
  out : List (UInt64 × List UInt8)
  procs : CProc.Procs

namespace ProcKernel
section
variable (env : Env) (addr : UInt64)
def word64 : UInt64 :=
  (env.word addr).toUInt64 ||| (env.word (addr + 4)).toUInt64 <<< 32

/-- The frame that `SIGRETURN` points to. -/
def sigframe : Option CProc.SigFrame :=
  if addr == 0 then none
  else
    some {
      pretcode := word64 env addr
      signum := env.word (addr + 8)
      saved_mask := env.word (addr + 12)
      saved_handler := word64 env (addr + 16) }
end
/-- What `EXEC` finds behind its path: `none` for a null pointer. -/
def exec_path (env : Env) (k : KState) (a1 : UInt64) : Option (Option CProc.ExecImage) :=
  if a1 == 0 then none else some ((k.exec_image (env.str a1)).map ExecImage.recorded)

def done (r : Bool × CProc.Procs) : ProcAnswer := ⟨if r.1 then 0 else -1, [], r.2⟩
def value (r : Int64 × CProc.Procs) : ProcAnswer := ⟨r.1.toInt, [], r.2⟩

def chdir (env : Env) (k : KState) (t : CProc.Procs) (a0 a1 : UInt64) : ProcAnswer :=
  if a1 == 0 || !k.vfs.qos_vfs_exists (env.str a1) then ⟨-1, [], t⟩
  else done (t.qos_proc_cwd_set a0.toUInt32 (some (env.str a1)))

/-- Without a buffer only the length is told. -/
def getcwd (t : CProc.Procs) (a0 a1 a2 : UInt64) : ProcAnswer :=
  let len := if a1 == 0 then .ofNat CProc.QOS_PROC_CWD_MAX else a2.toUInt32
  match t.qos_proc_cwd_get a0.toUInt32 len with
  | none => ⟨-1, [], t⟩
  | some cwd => ⟨cwd.length, if a1 == 0 then [] else [(a1, cwd ++ [0])], t⟩

/-- The branches for processes; `none` for the other operations. -/
def process_op (env : Env) (k : KState) (t : CProc.Procs) (op : SyscallOp)
    (a0 a1 a2 a3 : UInt64) : Option ProcAnswer :=
  let pid := a0.toUInt32
  match op with
  | .kill => some (done (t.qos_proc_signal_send pid a1.toUInt32))
  | .sigpending =>
    some ⟨((t.qos_proc_signal_pending pid).map fun p => (p.toNat : Int)).getD (-1), [], t⟩
  | .sigaction => some (value (t.sys_sigaction a0 a1 a2))
  | .sigprocmask => some (value (t.sys_sigprocmask a0 a1 a2))
  | .sigaltstack => some (value (t.sys_sigaltstack a0 a1 a2 a3))
  | .sigsuspend => some (value (t.sys_sigsuspend a0 a1))
  | .fork =>
    let r := t.qos_proc_fork pid a1.toUInt32
    some ⟨if r.1 then a1.toUInt32.toNat else -1, [], r.2⟩
  | .exec => some (value (t.sys_exec a0 (exec_path env k a1)))
  | .sigreturn => some (value (t.sys_sigreturn a0 a1 a2 (sigframe env a1)))
  | .exit => some (done (t.qos_proc_exit pid a1.toUInt32.toInt32))
  | .getpid => some ⟨if t.qos_proc_alive pid then pid.toNat else -1, [], t⟩
  | .waitpid =>
    let r := t.qos_proc_wait pid a1.toUInt32.toInt32 a3.toUInt32
    let status := (r.2.1.map fun code => (a2, leBytes 4 code.toUInt32.toUInt64)).toList
    some ⟨r.1.toInt, if a2 == 0 then [] else status, r.2.2⟩
  | .chdir => some (chdir env k t a0 a1)
  | .getcwd => some (getcwd t a0 a1 a2)
  | _ => none

/-- The operation that a number is registered with. -/
def opOf (s : ProcKernel) (nr : UInt32) : Option SyscallOp :=
  if h : nr.toNat < QOS_SYSCALL_MAX then (s.kernel.calls ⟨nr.toNat, h⟩).map (·.1) else none

/-- What the calls on files learn of processes. -/
def fileEnv (s : ProcKernel) (env : Env) : Env :=
  { env with proc_alive := s.procs.qos_proc_alive, proc_count := s.procs.qos_proc_count }

def qos_syscall_dispatch (env : Env) (s : ProcKernel) (nr : UInt32) (a0 a1 a2 a3 : UInt64) :
    Int × List (UInt64 × List UInt8) × ProcKernel :=
  match (s.opOf nr).bind fun op => process_op env s.kernel s.procs op a0 a1 a2 a3 with
  | some answer => (answer.rc, answer.out, { s with procs := answer.procs })
  | none =>
    let o := s.kernel.qos_syscall_dispatch (s.fileEnv env) nr a0 a1 a2 a3
    (o.rc, o.out, { s with kernel := o.state })
end ProcKernel
/-! ### Runs -/
inductive ProcKernelCall where
  | syscall (c : Syscall)
  /-- A function of the process table that another part of the kernel calls. -/
  | proc (c : CProc.Call)

namespace ProcKernel
section
variable (s : ProcKernel)
def call : ProcKernelCall → ProcKernel
  | .syscall (.register nr op value) =>
    { s with kernel := (s.kernel.qos_syscall_register nr op value).2 }
  | .syscall (.unregister nr) => { s with kernel := (s.kernel.qos_syscall_unregister nr).2 }
  | .syscall (.dispatch env nr a0 a1 a2 a3) => (s.qos_syscall_dispatch env nr a0 a1 a2 a3).2.2
  | .proc c => { s with procs := s.procs.step c }

theorem kernel_dispatch (env : Env) (nr : UInt32) (a0 a1 a2 a3 : UInt64) :
    (s.qos_syscall_dispatch env nr a0 a1 a2 a3).2.2.kernel = s.kernel ∨
    (s.qos_syscall_dispatch env nr a0 a1 a2 a3).2.2.kernel =
      s.kernel.call (.dispatch (s.fileEnv env) nr a0 a1 a2 a3) := by
  unfold qos_syscall_dispatch
  split
  · exact .inl rfl
  exact .inr rfl

theorem kernel_call (c : ProcKernelCall) :
    (s.call c).kernel = s.kernel ∨ ∃ c', (s.call c).kernel = s.kernel.call c' := by
  match c with
  | .syscall (.register nr op value) => exact .inr ⟨.register nr op value, rfl⟩
  | .syscall (.unregister nr) => exact .inr ⟨.unregister nr, rfl⟩
  | .proc c => exact .inl rfl
  | .syscall (.dispatch env nr a0 a1 a2 a3) =>
    exact (s.kernel_dispatch env nr a0 a1 a2 a3).imp_right fun h => ⟨_, h⟩
end
theorem dispatch_exec {s : ProcKernel} {nr : UInt32} (hop : s.opOf nr = some .exec) (env : Env)
    (a0 a1 a2 a3 : UInt64) :
    s.qos_syscall_dispatch env nr a0 a1 a2 a3 =
      ((s.procs.sys_exec a0 (exec_path env s.kernel a1)).1.toInt, [],
        { s with procs := (s.procs.sys_exec a0 (exec_path env s.kernel a1)).2 }) := by
  unfold qos_syscall_dispatch
  rw [hop]
  rfl
end ProcKernel
/-- The runs from a reset, with the paths `vfs` in the VFS. -/
def processRuns (vfs : Vfs) : System ProcKernel ProcKernelCall where
  init := ⟨.reset vfs, .qos_proc_reset⟩
  step s c := some (s.call c)
end QosKernel
