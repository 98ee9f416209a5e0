import QosKernel.Exec.RustLibs
import QosKernel.Proc.RustSignals
import QosKernel.Sched.RustSched
import QosKernel.Syscall.RustFileCalls

/-! # The Rust kernel behind its system calls

The state of `rust-os/kernel/src/lib.rs` that system calls read and write,
and the texts of the files below `/proc`. The counters of the page
allocator, the drivers and the start of the kernel are answers from
outside.
-/
open Framework Framework.Checked
namespace QosKernel
structure RustSys extends KState where
  libs : Libs
  procs : RustProc.ProcState
  sched : RustSched
  vmm : RustVmm.Vmm
  kthread : RustKernel.KthreadState
  /-- The lock of the kernel threads was taken and never given back. -/
  kthread_held : Bool

structure RustSys.Env extends RustKernel.UserMem where
  init_state : UInt32
  pmm_total_pages : UInt32
  pmm_free_pages : UInt32
  drivers_count : UInt32
  stack : Nat → UInt8

/-- A caller with this memory, while all that the kernel counts is 0. -/
def RustSys.Env.ofMem (mem : RustKernel.UserMem) : RustSys.Env := ⟨mem, 0, 0, 0, 0, fun _ => 0⟩

namespace RustSys
def reset : RustSys :=
  ⟨.reset .reset, .reset, .proc_reset, .sched_reset, RustVmm.vmm_reset, .new, false⟩

section
variable (s : RustSys)
def alive (pid : UInt32) : Bool := s.procs.proc_alive pid

/-! ### Kernel threads -/
def kthread_current_tid : Checked UInt32 :=
  if s.kthread_held then .error .spin else .ok s.kthread.current_tid

/-- A thread that does not exist leaves the function before the lock is given
back. -/
def kthread_name_get (tid : UInt32) (out : Nat) : Checked (Option CStr × RustSys) :=
  if out = 0 then return (none, s)
  else if s.kthread_held then .error .spin
  else
    match s.kthread.kthread_find_slot tid with
    | none => return (none, { s with kthread_held := true })
    | some i =>
      let name := (s.kthread.entries i).name
      return (if out < name.length + 1 then none else some name, s)
end
/-! ### The texts below `/proc` -/
/-- `append_u32_hex`. -/
def render_hex (value : UInt32) : List UInt8 :=
  (Nat.toDigits 16 value.toNat).map fun c => c.val.toUInt8

/-- `append_u64_hex_fixed` with 16 digits. -/
def render_hex_fixed (value : UInt64) : List UInt8 :=
  (List.range 16).map fun i =>
    (Nat.digitChar ((value >>> UInt64.ofNat (4 * (15 - i))) &&& 0xF).toNat).val.toUInt8

/-- `u32::saturating_mul(4)`. -/
def times4 (value : UInt32) : UInt32 := .ofNat (min (value.toNat * 4) 0xFFFFFFFF)

/-- The mappings of an address space, in the order of `vmm_mapping_get_as`. -/
def mappings (vmm : RustVmm.Vmm) (asid : UInt32) : List (UInt64 × RustVmm.Mapping) :=
  if !RustVmm.asid_valid asid then []
  else
    (List.finRange RustVmm.QOS_VMM_MAX_MAPPINGS).filterMap fun i =>
      match vmm.table.slots i with
      | some ((owner, va), m) => if owner == asid then some (va, m) else none
      | none => none

def render_mappings (lead : List UInt8) (maps : List (UInt64 × RustVmm.Mapping)) : List UInt8 :=
  maps.zipIdx.flatMap fun ((va, m), idx) =>
    lead ++ cstr "Map" ++ render_u32 (.ofNat idx) ++ cstr ":\t0x" ++ render_hex_fixed va ++
      cstr "->0x" ++ render_hex_fixed m.pa ++ cstr " f=0x" ++ render_hex m.flags ++ cstr "\n"

section
variable (procs : RustProc.ProcState)
def pids : List UInt32 :=
  (List.finRange RustProc.QOS_PROC_MAX).filterMap fun i =>
    if (procs.procs i).used then some (procs.procs i).pid else none

def proc_name_get (pid : UInt32) (out : Nat) : Option CStr :=
  match procs.proc_find pid with
  | none => none
  | some idx =>
    let name := (procs.procs idx).name
    if out < name.length + 1 then none else some name
end
def nameOrNone (name : Option CStr) : List UInt8 := name.getD (cstr "none")

def render_process (s : RustSys) (pidx : Nat) : List UInt8 :=
  match (pids s.procs)[pidx]? with
  | none => []
  | some pid =>
    let maps := mappings s.vmm pid
    cstr "Proc" ++ render_u32 (.ofNat pidx) ++ cstr ":\tpid=" ++ render_u32 pid ++
      cstr " name=" ++ nameOrNone (proc_name_get s.procs pid RustProc.QOS_PROC_NAME_MAX) ++
      cstr " maps=" ++ render_u32 (.ofNat maps.length) ++
      (if pid == s.sched.sched_current then cstr " current" else []) ++
      (if pid == s.vmm.current_asid then cstr " asid" else []) ++ cstr "\n" ++
      render_mappings (cstr "  P" ++ render_u32 pid) maps

def render_runtime_map (s : RustSys) : Checked (List UInt8 × RustSys) := do
  let current_pid := s.sched.sched_current
  let current_tid ← s.kthread_current_tid
  let asid := s.vmm.current_asid
  let maps := mappings s.vmm asid
  let proc_total := s.procs.proc_count
  let proc_name := if current_pid == 0 then none
    else proc_name_get s.procs current_pid RustProc.QOS_PROC_NAME_MAX
  let thread ← if current_tid == 0 then pure (none, s)
    else s.kthread_name_get current_tid RustKernel.QOS_KTHREAD_NAME_MAX
  return (cstr "CurrentPid:\t" ++ render_u32 current_pid ++
    cstr "\nCurrentProc:\t" ++ nameOrNone proc_name ++
    cstr "\nCurrentTid:\t" ++ render_u32 current_tid ++
    cstr "\nCurrentThread:\t" ++ nameOrNone thread.1 ++
    cstr "\nCurrentAsid:\t" ++ render_u32 asid ++
    cstr "\nMappings:\t" ++ render_u32 (.ofNat maps.length) ++
    cstr "\nProcesses:\t" ++ render_u32 proc_total ++ cstr "\n" ++
    render_mappings [] maps ++ (List.range proc_total.toNat).flatMap s.render_process, thread.2)

/-- The text behind a `/proc` descriptor. The dispatcher holds the lock of the
system calls, which `syscall_count` takes again. -/
def syscall_proc_render (env : Env) (s : RustSys) (i : FdNum) :
    Checked (List UInt8 × RustSys) :=
  let fd := s.fds i
  if fd.kind ≠ .proc then return ([], s)
  else
    match fd.proc_kind with
    | .meminfo =>
      return (cstr "MemTotal:\t" ++ render_u32 (times4 env.pmm_total_pages) ++
        cstr " kB\nMemFree:\t" ++ render_u32 (times4 env.pmm_free_pages) ++
        cstr " kB\nProcCount:\t" ++ render_u32 s.procs.proc_count ++ cstr "\n", s)
    | .kernelStatus | .syscalls => .error .spin
    | .netDev =>
      let q := render_u32 (.ofNat s.net.packets.count)
      return (cstr "Inter-|   Receive                 |  Transmit\n eth0: " ++ q ++
        cstr " packets              " ++ q ++ cstr " packets\n", s)
    | .uptime => return (cstr "0.00 0.00\n", s)
    | .runtimeMap => s.render_runtime_map
    | .status =>
      return (cstr "Pid:\t" ++ render_u32 fd.proc_pid ++ cstr "\nState:\t" ++
        cstr (if s.alive fd.proc_pid then "Running" else "Zombie") ++ cstr "\n", s)
    | .none => return ([], s)

/-- A byte of the buffer that `READ` renders into: the text is cut off at its
end, and behind the buffer is the rest of the stack. -/
def proc_text_byte (env : Env) (text : List UInt8) (k : Nat) : UInt8 :=
  if k < PROC_TEXT_CAP then text.getD k 0 else env.stack k
end RustSys
end QosKernel
