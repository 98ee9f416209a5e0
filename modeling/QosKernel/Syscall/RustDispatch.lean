import QosKernel.Exec.CExec
import QosKernel.Net.RustTcp
import QosKernel.Net.UdpDelivery
import QosKernel.Proc.Parenthood
import QosKernel.Syscall.RustSys

/-! # Dispatch of the Rust system calls

The branches of `syscall_dispatch` that work on processes, memory, tasks and
libraries, the dispatcher itself, and the runs of the kernel: any sequence
of system calls and of the functions of the other parts of the kernel, with
any arguments.
-/
open Framework Framework.Checked
namespace QosKernel.RustSys
open RustCalls RustProc
open RustKernel (orFail zeroOrFail)
structure Outcome where
  rc : Int
  out : List (UInt64 × List UInt8)
  state : RustSys

namespace Outcome
variable (s : RustSys)
def ret (rc : Int) : Outcome := ⟨rc, [], s⟩
def fail : Outcome := ⟨-1, [], s⟩
end Outcome
/-! ### Branches that work on one part of the state -/
section
variable (s : RustSys)
/-- A branch that works on the tables of the system calls. -/
def onTables (x : Checked QosKernel.Outcome) : Checked Outcome := do
  let o ← x
  return ⟨o.rc, o.out, { s with toKState := o.state }⟩

def onProcs (r : Int × ProcState) : Outcome :=
  .ret { s with procs := r.2 } r.1

def onLibs (r : Int × Libs) : Outcome := .ret { s with libs := r.2 } r.1

/-! ### Texts below `/proc` -/
def setOffset (i : FdNum) (offset : Nat) : RustSys :=
  { s with fds := set s.fds i { s.fds i with offset := .ofNat offset } }
end
section
variable (env : Env) (s : RustSys)
def read_proc (i : FdNum) (addr : UInt64) (len : Nat) :
    Checked Outcome := do
  let offset := (s.fds i).offset.toNat
  let (text, s1) ← s.syscall_proc_render env i
  let copy_len := min len (text.length - offset)
  if text.length ≤ offset then return .ret s1 0
  else if copy_len = 0 then return .ret s1 0
  else
    return ⟨copy_len,
      [(addr, (List.range copy_len).map fun k => proc_text_byte env text (offset + k))],
      s1.setOffset i (offset + copy_len)⟩

variable (a0 a1 a2 : UInt64)
def op_read : Checked Outcome :=
  match s.openFd a0.toUInt32 with
  | none => return .fail s
  | some i =>
    if a1 == 0 then return .fail s
    else if (s.fds i).kind = .proc then s.read_proc env i a1 a2.toNat
    else s.onTables (read_data s.toKState i a1 a2.toNat)

def op_lseek : Checked Outcome :=
  match s.openFd a0.toUInt32 with
  | none => return .fail s
  | some i =>
    let offset := a1.toInt64.toInt
    if (s.fds i).kind ≠ .vfs ∧ (s.fds i).kind ≠ .proc then return .fail s
    else if a2.toUInt32 = 2 ∧ (s.fds i).kind = .proc then do
      let (text, s1) ← s.syscall_proc_render env i
      s1.onTables (.ok (seek_to s1.toKState i (some text.length) offset))
    else
      s.onTables (.ok (seek_to s.toKState i (RustCalls.seek_base s.toKState i a2.toUInt32) offset))
end
/-! ### Memory and tasks -/
/-- `while off > 0 { off -= PAGE; vmm_unmap(va + off); }`, with `done` pages
before the offset. -/
def unmap_back (va : UInt64) (vmm : RustVmm.Vmm) : Nat → RustVmm.Vmm
  | 0 => vmm
  | done + 1 => unmap_back va ((RustVmm.vmm_unmap vmm (pageAt va done)).getD vmm) done

/-- The loop of `MMAP`, with `done` pages behind it and the given number of
pages to go. Both the address and the offset are sums that a debug build
checks; `RustVmm.sys_mmap` is the loop of the other build. -/
def map_pages (va : UInt64) (flags : UInt32) (vmm : RustVmm.Vmm) (done : Nat) :
    Nat → Checked (Int × RustVmm.Vmm)
  | 0 => return (asInt64 va, vmm)
  | left + 1 => do
    let page ← add va (.ofNat (4096 * done))
    match RustVmm.vmm_map vmm page page flags with
    | .error _ => return (-1, unmap_back va vmm done)
    | .ok vmm' => do
      let _ ← add (.ofNat (4096 * done)) QOS_PAGE_SIZE
      map_pages va flags vmm' (done + 1) left

def op_mmap (s : RustSys) (a0 a1 a2 : UInt64) : Checked Outcome :=
  let flags := if a2 = 0 then RustVmm.VM_READ else a2.toUInt32
  if a0 = 0 ∨ a1 = 0 then return .fail s
  else do
    let r ← map_pages a0 flags s.vmm 0 (pageCount a1)
    return .ret { s with vmm := r.2 } r.1

def unmap_pages (va : UInt64) (vmm : RustVmm.Vmm) (done : Nat) : Nat → Checked (Int × RustVmm.Vmm)
  | 0 => return (0, vmm)
  | left + 1 => do
    let page ← add va (.ofNat (4096 * done))
    match RustVmm.vmm_unmap vmm page with
    | none => return (-1, vmm)
    | some vmm' => do
      let _ ← add (.ofNat (4096 * done)) QOS_PAGE_SIZE
      unmap_pages va vmm' (done + 1) left

def op_munmap (s : RustSys) (a0 a1 : UInt64) : Checked Outcome :=
  if a0 = 0 ∨ a1 = 0 then return .fail s
  else do
    let r ← unmap_pages a0 s.vmm 0 (pageCount a1)
    return .ret { s with vmm := r.2 } r.1

def sched_next (sched : RustSched) : Checked (Option UInt32 × RustSched) := do
  ensure (sched.queue.count = 0 ∨ sched.queue.cursor < QOS_SCHED_MAX_TASKS) .bounds
  return sched.sched_next

def op_yield (s : RustSys) : Checked Outcome := do
  let r ← sched_next s.sched
  return .ret { s with sched := r.2 } (orFail (r.1.map (·.toNat)))

/-! ### Processes -/
section
variable (procs : ProcState)
def proc_fork (parent_pid child_pid : UInt32) :
    Checked (Bool × ProcState) := do
  let r := procs.proc_fork parent_pid child_pid
  ensure (r.1 = true → procs.count.toNat + 1 < 2 ^ 32) .overflow
  return r

def proc_wait_status (parent_pid : UInt32) (pid : Int32)
    (options : UInt32) : Checked ((Int32 × Int32 × Bool) × ProcState) := do
  let r := procs.proc_wait_status parent_pid pid options
  -- a process was removed
  ensure (r.1.2.2 = true → 1 ≤ procs.count.toNat) .overflow
  return r

def proc_cwd_set (pid : UInt32) (path : CStr) : Bool × ProcState :=
  match procs.proc_find pid with
  | none => (false, procs)
  | some idx =>
    match (procs.procs idx).proc_cwd_set_idx path with
    | none => (false, procs)
    | some p => (true, { procs with procs := set procs.procs idx p })

def sys_sigaltstack (a0 a1 a2 a3 : UInt64) : Int × ProcState :=
  match procs.query a0.toUInt32 Process.sig_altstack with
  | none => (-1, procs)
  | some old =>
    if a1 ≠ 0xFFFFFFFFFFFFFFFF then
      match procs.update a0.toUInt32 fun p => { p with sig_altstack := ⟨a1, a2, a3.toUInt32⟩ } with
      | (false, procs) => (-1, procs)
      | (true, procs) => (old.flags.toNat, procs)
    else (old.flags.toNat, procs)

def sys_sigsuspend (a0 a1 : UInt64) : Int × ProcState :=
  match procs.proc_signal_mask a0.toUInt32 with
  | none => (-1, procs)
  | some old =>
    match procs.proc_signal_set_mask a0.toUInt32 a1.toUInt32 with
    | (false, procs) => (-1, procs)
    | (true, procs) =>
      let (delivered, procs) := procs.proc_signal_next a0.toUInt32
      match procs.proc_signal_set_mask a0.toUInt32 old with
      | (false, procs) => (-1, procs)
      | (true, procs) => (if delivered < 0 then -1 else delivered, procs)
end
def op_waitpid (s : RustSys) (a0 a1 a2 a3 : UInt64) : Checked Outcome := do
  let r ← proc_wait_status s.procs a0.toUInt32 a1.toUInt32.toInt32 a3.toUInt32
  let out := if r.1.2.2 ∧ a2 ≠ 0 then [(a2, leBytes 4 r.1.2.1.toUInt32.toUInt64)] else []
  return ⟨r.1.1.toInt, out, { s with procs := r.2 }⟩

def op_chdir (env : Env) (s : RustSys) (a0 a1 : UInt64) : Checked Outcome :=
  if a1 == 0 then return .fail s
  else
    match env.str a1 with
    | none => return .fail s
    | some path => do
      if !(← vfs_exists s.vfs path) then return .fail s
      else
        let r := proc_cwd_set s.procs a0.toUInt32 path
        return s.onProcs (zeroOrFail r.1, r.2)

def op_getcwd (s : RustSys) (a0 a1 a2 : UInt64) : Checked Outcome :=
  match s.procs.query a0.toUInt32 Process.cwd with
  | none => return .fail s
  | some cwd =>
    if a1 == 0 then return .ret s cwd.length
    else if a2 == 0 then return .fail s
    else if a2.toNat < cwd.length + 1 then return .fail s
    else do
      slice 0 (cwd.length + 1) QOS_VFS_PATH_MAX
      return ⟨cwd.length, [(a1, cwd ++ [0])], s⟩

/-! ### Images and libraries -/
def exec_image (k : KState) (path : CStr) : Checked (Option ExecImage) := do
  match ← syscall_file_find k path with
  | none => return none
  | some f =>
    let len := (k.files f).len
    if len = 0 then return none
    else
      slice 0 len QOS_PIPE_CAP
      parsed (RustElf.parse_exec_elf_image (k.files f).image)

def op_exec (env : Env) (s : RustSys) (a0 a1 : UInt64) : Checked Outcome := do
  let path ←
    if a1 == 0 then pure none
    else
      match env.str a1 with
      | none => pure (some none)
      | some path => do pure (some ((← exec_image s.toKState path).map ExecImage.recorded))
  let r := s.procs.sys_exec a0 path
  return s.onProcs (r.1.toInt, r.2)

/-- The result of a call that returns a handle, an id or a generation. -/
def libResult (r : Option UInt32 × Libs) : Int × Libs :=
  (orFail (r.1.map (·.toNat)), r.2)

section
variable (env : Env) (s : RustSys) (a0 : UInt64)
def op_dlopen : Checked Outcome :=
  if a0 == 0 then return .fail s
  else
    match env.str a0 with
    | none => return .fail s
    | some path => do
      return s.onLibs (libResult (← syscall_shlib_load s.toKState s.libs path false))

def op_modload : Checked Outcome :=
  if a0 == 0 then return .fail s
  else
    match env.str a0 with
    | none => return .fail s
    | some path => do
      return s.onLibs (libResult (← syscall_module_load s.toKState s.libs path))
end
def op_modreload (s : RustSys) (a0 : UInt64) : Checked Outcome := do
  return s.onLibs (libResult (← syscall_module_reload s.toKState s.libs a0.toUInt32))

section
variable (env : Env) (s : RustSys)
def op_dlsym (a0 a1 : UInt64) : Outcome :=
  if a1 == 0 then .fail s
  else
    match env.str a1 with
    | none => .fail s
    | some name => .ret s (LibKernel.address (s.libs.symbol a0.toUInt32 (some name)))

/-! ### The dispatcher -/
/-- The query is the low word of the registered value. -/
def syscall_query_value (query : Int) : Int :=
  match (query % 4294967296).toNat with
  | 1 => env.init_state.toNat
  | 2 => env.pmm_total_pages.toNat
  | 3 => env.pmm_free_pages.toNat
  | 4 => s.sched.queue.count
  | 5 => s.vfs.count.toNat
  | 6 => s.net.packets.count
  | 7 => env.drivers_count.toNat
  | 8 => s.count.toNat
  | 9 => s.procs.proc_count.toNat
  | _ => -1
end
/-- The sum of `ADD` is a checked one. -/
def op_add (s : RustSys) (a0 a1 : UInt64) : Checked Outcome := do
  return .ret s (← add a0 a1).toInt64.toInt

def syscall_op (env : Env) (s : RustSys) (op : SyscallOp) (value : Int) (a0 a1 a2 a3 : UInt64) :
    Checked Outcome :=
  let mem := env.toUserMem
  match op with
  | .const => return .ret s value
  | .add => s.op_add a0 a1
  | .query => return .ret s (s.syscall_query_value env value)
  | .open => s.onTables (op_open mem s.alive s.toKState a0)
  | .read => s.op_read env a0 a1 a2
  | .write => s.onTables (op_write mem s.toKState a0 a1 a2)
  | .close => s.onTables (op_close s.toKState a0)
  | .dup2 => s.onTables (op_dup2 s.toKState a0 a1)
  | .mmap => s.op_mmap a0 a1 a2
  | .munmap => s.op_munmap a0 a1
  | .yield => s.op_yield
  | .sleep => return .ret s 0
  | .socket => s.onTables (.ok (op_socket s.toKState a0 a1))
  | .bind => s.onTables (.ok (op_bind mem s.toKState a0 a1 a2))
  | .listen => s.onTables (.ok (op_listen s.toKState a0 a1))
  | .accept => s.onTables (op_accept mem s.toKState a0 a1 a2)
  | .connect => s.onTables (.ok (op_connect mem s.toKState a0 a1 a2))
  | .send => s.onTables (.ok (op_send mem s.toKState a0 a1 a2 a3))
  | .recv => s.onTables (op_recv s.toKState a0 a1 a2 a3)
  | .getdents => s.onTables (.ok (op_getdents s.toKState a0 a1 a2))
  | .lseek => s.op_lseek env a0 a1 a2
  | .pipe => s.onTables (op_pipe s.toKState a0)
  | .kill =>
    let r := s.procs.proc_signal_send a0.toUInt32 a1.toUInt32
    return s.onProcs (zeroOrFail r.1, r.2)
  | .sigpending =>
    return .ret s (orFail ((s.procs.proc_signal_pending a0.toUInt32).map (·.toNat)))
  | .sigaction =>
    let r := s.procs.sys_sigaction a0 a1 a2
    return s.onProcs (r.1.toInt, r.2)
  | .sigprocmask =>
    let r := s.procs.sys_sigprocmask a0 a1 a2
    return s.onProcs (r.1.toInt, r.2)
  | .sigaltstack => return s.onProcs (sys_sigaltstack s.procs a0 a1 a2 a3)
  | .sigsuspend => return s.onProcs (sys_sigsuspend s.procs a0 a1)
  | .fork => do
    let r ← proc_fork s.procs a0.toUInt32 a1.toUInt32
    return s.onProcs (if r.1 then a1.toInt64.toInt else -1, r.2)
  | .exec => s.op_exec env a0 a1
  | .dlopen => s.op_dlopen env a0
  | .dlclose =>
    let r := syscall_shlib_release s.libs a0.toUInt32
    return s.onLibs (zeroOrFail r.1, r.2)
  | .dlsym => return s.op_dlsym env a0 a1
  | .modload => s.op_modload env a0
  | .modunload =>
    let r := syscall_module_unload s.libs a0.toUInt32
    return s.onLibs (zeroOrFail r.1, r.2)
  | .modreload => s.op_modreload a0
  | .exit =>
    let r := s.procs.proc_exit a0.toUInt32 a1.toUInt32.toInt32
    return s.onProcs (zeroOrFail r.1, r.2)
  | .getpid => return .ret s (if s.alive a0.toUInt32 then a0.toInt64.toInt else -1)
  | .waitpid => s.op_waitpid a0 a1 a2 a3
  | .stat => s.onTables (op_stat mem s.alive s.toKState a0 a1)
  | .mkdir => s.onTables (op_mkdir mem s.toKState a0)
  | .unlink => s.onTables (op_unlink mem s.toKState a0)
  | .chdir => s.op_chdir env a0 a1
  | .getcwd => s.op_getcwd a0 a1 a2
  | .sigreturn =>
    let r := s.procs.proc_signal_set_mask a0.toUInt32 a1.toUInt32
    return s.onProcs (zeroOrFail r.1, r.2)

/-- The operation and the value that a number is registered with. -/
def registered (s : RustSys) (nr : UInt32) : Option (SyscallOp × Int) :=
  if h : nr.toNat < QOS_SYSCALL_MAX then s.calls ⟨nr.toNat, h⟩ else none

def syscall_dispatch (env : Env) (s : RustSys) (nr : UInt32) (a0 a1 a2 a3 : UInt64) :
    Checked Outcome :=
  match s.registered nr with
  | none => return .fail s
  | some (op, value) => s.syscall_op env op value a0 a1 a2 a3
end RustSys
/-! ### Runs -/
/-- The functions that change the state. Those on the signals of a process,
and those that start an image, do what a system call does. -/
inductive RustCall where
  | dispatch (env : RustSys.Env) (nr : UInt32) (a0 a1 a2 a3 : UInt64)
  | register (nr op : UInt32) (value : Int)
  | unregister (nr : UInt32)
  | syscall_reset
  | vfs_create (path : CStr)
  | vfs_remove (path : CStr)
  | vfs_reset
  | net_enqueue_packet (data : List UInt8)
  | net_dequeue_packet (out : Nat)
  | udp (c : UdpCall)
  | tcp (c : TcpCall)
  | net_reset
  | proc (c : Family.Call)
  | proc_cwd_set (pid : UInt32) (path : CStr)
  | proc_reset
  | sched (c : SchedCall)
  | sched_reset
  | vmm_map_as (asid : UInt32) (va pa : UInt64) (flags : UInt32)
  | vmm_unmap_as (asid : UInt32) (va : UInt64)
  | vmm_set_asid (asid : UInt32)
  | vmm_reset
  | kthread_create (entry arg : UInt64)
  | kthread_set_runnable (tid : UInt32) (runnable : Bool)
  | kthread_run_next
  | kthread_name_get (tid : UInt32) (out : Nat)
  | kthread_reset

namespace RustSys
variable (s : RustSys)
/-- `syscall_state_reset_in_place`: the registry of paths and the network stay
as they are. -/
def syscall_reset : RustSys :=
  { s with toKState := { KState.reset s.vfs with net := s.net }, libs := .reset }

/-- A function on kernel threads waits for their lock. -/
def onKthreads (kthread : RustKernel.KthreadState) : Option RustSys :=
  if s.kthread_held then none else some { s with kthread := kthread }

/-- What a function leaves behind; `none` if it does not return. -/
def call : RustCall → Option RustSys
  | .dispatch env nr a0 a1 a2 a3 =>
    (s.syscall_dispatch env nr a0 a1 a2 a3).toOption.map Outcome.state
  | .register nr op value =>
    some { s with toKState := (s.toKState.qos_syscall_register nr op value).2 }
  | .unregister nr => some { s with toKState := (s.toKState.qos_syscall_unregister nr).2 }
  | .syscall_reset => some s.syscall_reset
  | .vfs_create path => (RustCalls.vfs_create s.vfs path).toOption.map fun r => { s with vfs := r.2 }
  | .vfs_remove path => (RustCalls.vfs_remove s.vfs path).toOption.map fun r => { s with vfs := r.2 }
  | .vfs_reset => some { s with vfs := .reset }
  | .net_enqueue_packet data => some { s with net := (s.net.qos_net_enqueue_packet data).2 }
  | .net_dequeue_packet out => some { s with net := (s.net.qos_net_dequeue_packet out).2.2 }
  | .udp c => some { s with net := { s.net with udp := (RustUdp.call s.net.udp c).2 } }
  -- `Net.TcpCompare`: the TCP layers of the two kernels answer alike
  | .tcp c => some { s with net := (CTcp.call s.net c).2 }
  | .net_reset => some { s with net := .reset }
  | .proc c => some { s with procs := s.procs.step c }
  | .proc_cwd_set pid path => some { s with procs := (proc_cwd_set s.procs pid path).2 }
  | .proc_reset => some { s with procs := .proc_reset }
  | .sched c => some { s with sched := s.sched.step c }
  | .sched_reset => some { s with sched := .sched_reset }
  | .vmm_map_as asid va pa flags =>
    some { s with vmm := (RustVmm.vmm_map_as s.vmm asid va pa flags).toOption.getD s.vmm }
  | .vmm_unmap_as asid va => some { s with vmm := (RustVmm.vmm_unmap_as s.vmm asid va).getD s.vmm }
  | .vmm_set_asid asid => some { s with vmm := RustVmm.vmm_set_asid s.vmm asid }
  | .vmm_reset => some { s with vmm := RustVmm.vmm_reset }
  | .kthread_create entry arg => s.onKthreads (s.kthread.create entry arg).2
  | .kthread_set_runnable tid runnable => s.onKthreads (s.kthread.setRunnable tid runnable).2
  | .kthread_run_next => s.onKthreads s.kthread.select.2
  | .kthread_name_get tid out => (s.kthread_name_get tid out).toOption.map (·.2)
  | .kthread_reset => s.onKthreads .new
end RustSys
def rustRuns : System RustSys RustCall where
  init := .reset
  step := RustSys.call
end QosKernel
