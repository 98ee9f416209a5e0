import QosKernel.Locks.Deferred

/-! # The system call layer: registry, descriptors and `/proc`

The functions below `syscall_dispatch`. They are called with the lock of
the system calls held, and call into the other subsystems.
-/
open Framework Framework.Prog
namespace QosKernel.RustKernel
/-- The memory of the caller. -/
structure UserMem where
  byte : UInt64 → UInt8
  /-- The strings in it, by their address; `none` where the bytes are not
  UTF-8. -/
  str : UInt64 → Option CStr

def UserMem.bytes (mem : UserMem) (addr : UInt64) (len : Nat) : List UInt8 :=
  (List.range len).map fun k => mem.byte (addr + UInt64.ofNat k)

/-! ### The registry -/
section registry
/-- A section that works on the tables of the system calls. -/
def onSyscall {α : Type} (f : SyscallState → α × SyscallState) : RustM α := do
  let d ← read
  modify fun d => { d with syscall := (f d.syscall).2 }
  return (f d.syscall).1

def syscall_reset : RustM Unit :=
  locked .SYSCALL (modify fun d => { d with syscall := .reset })

def syscall_register (nr op : UInt32) (value : Int) : RustM Bool :=
  if h : nr.toNat < QOS_SYSCALL_MAX then
    match SyscallOp.ofCode op.toNat with
    | none => pure false
    | some op => locked .SYSCALL (onSyscall fun s => s.register ⟨nr.toNat, h⟩ op value)
  else pure false

def syscall_unregister (nr : UInt32) : RustM Bool :=
  if h : nr.toNat < QOS_SYSCALL_MAX then
    locked .SYSCALL (onSyscall fun s => s.unregister ⟨nr.toNat, h⟩)
  else pure false

def syscall_count : RustM UInt32 := locked .SYSCALL do
  let d ← read
  return d.syscall.count

variable {L : Set Lock}
@[grind .] theorem onSyscall_keeps {α : Type} (f : SyscallState → α × SyscallState) :
    Keeps L Kernel.Ok (onSyscall f) :=
  keeps_bind keeps_read fun _ => keeps_bind (keeps_modify fun _ h => h) fun _ => keeps_pure

variable (hL : Lock.SYSCALL ∈ L)
include hL
@[grind .] theorem syscall_reset_keeps : Keeps L Kernel.Ok syscall_reset :=
  keeps_locked hL (keeps_modify fun _ h => h)

@[grind .] theorem syscall_register_keeps (nr op : UInt32) (value : Int) :
    Keeps L Kernel.Ok (syscall_register nr op value) := by
  unfold syscall_register
  split
  · split
    · exact keeps_pure
    exact keeps_locked hL (onSyscall_keeps _)
  exact keeps_pure

@[grind .] theorem syscall_unregister_keeps (nr : UInt32) :
    Keeps L Kernel.Ok (syscall_unregister nr) := by
  unfold syscall_unregister
  split
  · exact keeps_locked hL (onSyscall_keeps _)
  exact keeps_pure

@[grind .] theorem syscall_count_keeps : Keeps L Kernel.Ok syscall_count := by grind [syscall_count]
end registry
/-! ### Descriptors -/
section descriptors
def syscall_fd_alloc (kind : FdKind) : RustM (Option FdNum) :=
  onSyscall fun s =>
    match s.syscall_fd_alloc kind with
    | none => (none, s)
    | some (i, s') => (some i, s')

/-- The row of a descriptor that is open. -/
def syscall_fd (fd : UInt32) : RustM (Option (FdNum × FdEntry)) := do
  let d ← read
  return (d.syscall.fdAt fd).map fun i => (i, d.syscall.fds i)

/-- Whether a port has to be given back depends on the other descriptors of
the same socket type, so it is an answer, and so is the port. -/
def syscall_fd_clear (i : FdNum) : RustM Unit := do
  let d ← read
  let was_socket := (d.syscall.fds i).kind == .socket
  if !(d.syscall.fds i).used then return ()
  else do
    onSyscall fun s => ((), { s with fds := set s.fds i .closed })
    let sock_lport ← ask
    let last_listener ← askBool
    when (was_socket && last_listener) (net_tcp_unlisten (.ofNat sock_lport))
    let last_bound ← askBool
    let dgram ← askBool
    when (was_socket && last_bound && dgram) (net_udp_unbind (.ofNat sock_lport))

variable {L : Set Lock}
@[grind .] theorem syscall_fd_alloc_keeps (kind : FdKind) :
    Keeps L Kernel.Ok (syscall_fd_alloc kind) :=
  onSyscall_keeps _

@[grind .] theorem syscall_fd_keeps {I : Kernel → Prop} (fd : UInt32) : Keeps L I (syscall_fd fd) :=
  keeps_bind keeps_read fun _ => keeps_pure

@[grind .] theorem syscall_fd_clear_keeps (hL : Lock.NET ∈ L) (i : FdNum) :
    Keeps L Kernel.Ok (syscall_fd_clear i) := by
  unfold syscall_fd_clear
  repeat' first | with_reducible refine keeps_bind ?_ fun _ => ?_ | split
  all_goals grind
end descriptors
/-! ### The files under `/proc` -/
section proc
variable {I : Kernel → Prop}
def QOS_PROC_NAME_MAX : Nat := 32
def QOS_KTHREAD_NAME_MAX : Nat := 32

/-- The process id in a path: `none` if a byte is not a digit. The value
saturates. -/
def proc_path_pid : List UInt8 → Nat → Option Nat
  | [], pid => some pid
  | b :: rest, pid =>
    if b < 48 || 57 < b then none
    else proc_path_pid rest (min (min (pid * 10) 0xFFFFFFFF + (b - 48).toNat) 0xFFFFFFFF)

/-- The slice between `/proc/` and `/status` panics when the two overlap. -/
def syscall_proc_path_kind (path : CStr) : RustM (Option (ProcKind × UInt32)) :=
  if path == cstr "/proc/meminfo" then pure (some (.meminfo, 0))
  else if path == cstr "/proc/kernel/status" then pure (some (.kernelStatus, 0))
  else if path == cstr "/proc/net/dev" then pure (some (.netDev, 0))
  else if path == cstr "/proc/syscalls" then pure (some (.syscalls, 0))
  else if path == cstr "/proc/uptime" then pure (some (.uptime, 0))
  else if path == cstr "/proc/runtime/map" then pure (some (.runtimeMap, 0))
  else if !(cstr "/proc/").isPrefixOf path || !(cstr "/status").isSuffixOf path then pure none
  else if path.length - 7 < 6 then panic
  else
    let pid_part := (path.take (path.length - 7)).drop 6
    if pid_part.isEmpty then pure none
    else
      match proc_path_pid pid_part 0 with
      | none => pure none
      | some pid => pure (if pid == 0 then none else some (.status, .ofNat pid))

/-- The lines of one process in `/proc/runtime/map`. -/
def render_process (pidx : Nat) : RustM Unit := do
  match ← proc_pid_at (.ofNat pidx) with
  | none => return ()
  | some pid =>
    let pmap_count ← vmm_mapping_count_as (.ofNat pid)
    let _ ← proc_name_get (.ofNat pid) QOS_PROC_NAME_MAX
    upTo (fun midx => vmm_mapping_get_as (.ofNat pid) (.ofNat midx)) pmap_count

/-- What the rendering of `/proc/runtime/map` asks the other subsystems. -/
def render_runtime_map : RustM Unit := do
  let current_pid ← sched_current
  let current_tid ← kthread_current_tid
  let asid ← vmm_get_asid
  let map_count ← vmm_mapping_count_as asid
  let proc_total ← proc_count
  when (current_pid != 0) (proc_name_get current_pid QOS_PROC_NAME_MAX)
  when (current_tid != 0) (kthread_name_get current_tid QOS_KTHREAD_NAME_MAX)
  upTo (fun idx => vmm_mapping_get_as asid (.ofNat idx)) map_count
  upTo render_process proc_total

/-- The text is left out: its length is an answer. -/
def syscall_proc_render (i : FdNum) : RustM Nat := do
  let d ← read
  if (d.syscall.fds i).kind != .proc then return 0
  else
    match (d.syscall.fds i).proc_kind with
    | .meminfo => do
      let _ ← pmm_total_pages
      let _ ← pmm_free_pages
      let _ ← proc_count
      ask
    | .kernelStatus => do
      let _ ← pmm_total_pages
      let _ ← pmm_free_pages
      let _ ← sched_count
      let _ ← vfs_count
      let _ ← net_queue_len
      let _ ← drivers_count
      let _ ← syscall_count
      let _ ← proc_count
      ask
    | .netDev => do
      let _ ← net_queue_len
      ask
    | .syscalls => do
      let _ ← syscall_count
      ask
    | .uptime => return (cstr "0.00 0.00\n").length
    | .runtimeMap => do
      render_runtime_map
      ask
    | .status => do
      let _ ← proc_alive (d.syscall.fds i).proc_pid
      ask
    | .none => return 0

/-- The texts that state the number of system calls: to render them takes the
lock of the system calls. -/
def countsSyscalls (kind : ProcKind) : Bool := kind == .kernelStatus || kind == .syscalls

/-- The locks that are left to code that runs under the lock of the system
calls. -/
abbrev Others : Set Lock := Set.univ \ {.SYSCALL}

@[grind .] theorem syscall_proc_path_kind_keeps {L : Set Lock} (path : CStr) :
    Keeps L I (syscall_proc_path_kind path) := by
  unfold syscall_proc_path_kind
  -- the fixed paths, then the checks on `/proc/<pid>/status`
  iterate 7 refine keeps_ite keeps_pure ?_
  refine keeps_ite keeps_panic (keeps_ite keeps_pure ?_)
  split
  all_goals exact keeps_pure

@[grind .] theorem render_process_keeps (pidx : Nat) : Keeps Others I (render_process pidx) := by
  refine keeps_bind_option (by grind) keeps_pure fun pid => ?_
  grind

theorem render_runtime_map_keeps (hI : ∀ d, I d → d.Ok) : Keeps Others I render_runtime_map := by
  refine keeps_bind (by grind) fun current_pid => ?_
  refine .bind (kthread_current_tid_balanced (by grind)) fun current_tid =>
    Keeps.post ?_ fun _ h => h.1
  refine keeps_bind (by grind) fun asid => keeps_bind (by grind) fun map_count =>
    keeps_bind (by grind) fun proc_total => keeps_bind (by grind) fun _ => ?_
  refine keeps_bind ?_ fun _ => keeps_bind (by grind) fun _ => by grind
  -- the thread that runs exists, so its name is found
  refine keeps_when fun hne => kthread_name_get_balanced (by grind) _ _ fun d hd => .inr ?_
  have hex := (hI d hd.1).resolve_left (by rw [← hd.2]; simpa using hne)
  rwa [← hd.2] at hex

/-- A text that does not state the number of system calls is rendered without
the lock of the system calls, and nothing changes. -/
theorem syscall_proc_render_keeps {i : FdNum}
    (hI : ∀ d, I d → d.Ok ∧ countsSyscalls (d.syscall.fds i).proc_kind = false) :
    Keeps Others I (syscall_proc_render i) := by
  refine .bind balanced_read fun d => ?_
  refine .of_pre (fun d' h => h.2 ▸ (hI d' h.1).2) fun hkind =>
    Keeps.post ?_ fun _ h => h.1
  split
  · exact keeps_pure
  split
  case h_2 hk => simp [hk, countsSyscalls] at hkind
  case h_4 hk => simp [hk, countsSyscalls] at hkind
  case h_6 => exact keeps_bind (render_runtime_map_keeps fun d h => (hI d h.1).1) fun _ => keeps_ask
  all_goals grind
end proc
end QosKernel.RustKernel
