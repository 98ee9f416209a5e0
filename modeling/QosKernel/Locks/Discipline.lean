import QosKernel.Locks.Dispatch

/-! # The lock discipline of the Rust kernel

The whole kernel as a machine: its public functions are called one after
the other, from outside or from code that the kernel was given and calls
back. Two calls break the discipline: `kthread_name_get` for a thread that
does not exist, and reading a text under `/proc` that states the number of
system calls. In every run without such calls no call spins, and all
locks are free whenever a call returns.
-/
open Framework Framework.Prog
namespace QosKernel.RustKernel
/-! ### Start and status -/
section start
/-- The operations that `syscall_register_default_signal_ops` registers under
the numbers from 0 on. -/
def defaultOps : List UInt32 :=
  [10, 11, 13, 14, 15, 21, 22, 23, 24, 25, 26, 27, 28, 29, 30, 31, 32, 33, 34, 35, 36, 16, 17, 18,
    37, 38, 39, 19, 20, 4, 6, 7, 12, 5, 9, 8, 40, 41, 42, 43, 44, 45]

def syscall_register_default_signal_ops : RustM Unit :=
  upTo (fun nr => syscall_register (.ofNat nr) (defaultOps.getD nr 0) 0) defaultOps.length

/-- The queries 1 to 9 have the numbers from 64 on. -/
def syscall_register_default_queries : RustM Unit :=
  upTo (fun k => syscall_register (.ofNat (64 + k)) 3 (k + 1)) 9

def syscall_init : RustM Unit := do
  syscall_reset
  syscall_register_default_signal_ops
  syscall_register_default_queries

/-- The bits of `INIT_STATE` are set without a lock. -/
def kernel_entry (boot_info : BootInfo) : RustM Bool := do
  vmm_reset
  if !RustPmm.boot_info_valid boot_info then return false
  else if !(← pmm_init_from_boot_info boot_info) then return false
  else
    drivers_reset
    vfs_reset
    net_reset
    softirq_init
    timer_init
    napi_init
    kthread_init
    workqueue_init
    sched_reset
    syscall_init
    proc_reset
    return true

def kernel_status : RustM Unit := do
  let _ ← init_state
  let _ ← pmm_total_pages
  let _ ← pmm_free_pages
  let _ ← sched_count
  let _ ← vfs_count
  let _ ← net_queue_len
  let _ ← drivers_count
  let _ ← syscall_count
  let _ ← proc_count
  return ()

@[grind .] theorem syscall_init_keeps : Keeps Set.univ Kernel.Ok syscall_init := by
  refine keeps_bind (syscall_reset_keeps (Set.mem_univ _)) fun _ => keeps_bind ?_ fun _ => ?_
  · exact keeps_upTo fun nr => syscall_register_keeps (Set.mem_univ _) _ _ _
  exact keeps_upTo fun k => syscall_register_keeps (Set.mem_univ _) _ _ _

@[grind .] theorem kernel_entry_keeps (boot_info : BootInfo) :
    Keeps Set.univ Kernel.Ok (kernel_entry boot_info) := by
  unfold kernel_entry
  repeat' first | with_reducible refine keeps_bind ?_ fun _ => ?_ | split
  all_goals grind

@[grind .] theorem kernel_status_keeps : Keeps Set.univ Kernel.Ok kernel_status := by
  unfold kernel_status
  repeat' with_reducible refine keeps_bind ?_ fun _ => ?_
  all_goals grind [init_state]
end start
/-! ### The machine -/
/-- The public functions, and the three softirq handlers of the kernel.
`lockless` stands for those that take no lock: `init_state` and
`reset_init_state`, `vfs_fs_kind` and `vfs_is_read_only`,
`net_tcp_next_rto_ms`, `net_ipv4_route` and `net_icmp_echo`, and those on a
`SpinLock`, `KernelMutex` or `KernelSemaphore` of the caller. -/
inductive Call where
  | lockless
  | pmm_reset
  | pmm_init_from_boot_info (boot_info : BootInfo)
  | pmm_total_pages
  | pmm_free_pages
  | pmm_alloc_page
  | pmm_free_page (page : UInt64)
  | vmm_reset
  | vmm_set_asid (asid : UInt32)
  | vmm_get_asid
  | vmm_map_as (asid : UInt32) (va pa : UInt64) (flags : UInt32)
  | vmm_unmap_as (asid : UInt32) (va : UInt64)
  | vmm_unmap (va : UInt64)
  | vmm_translate_as (asid : UInt32) (va : UInt64)
  | vmm_translate (va : UInt64)
  | vmm_flags_as (asid : UInt32) (va : UInt64)
  | vmm_flags (va : UInt64)
  | vmm_mapping_count_as (asid : UInt32)
  | vmm_mapping_count
  | vmm_mapping_get_as (asid ordinal : UInt32)
  | vmm_mapping_get (ordinal : UInt32)
  | vmm_map (va pa : UInt64) (flags : UInt32)
  | sched_reset
  | sched_add_task (pid : UInt32)
  | sched_remove_task (pid : UInt32)
  | sched_count
  | sched_next
  | sched_current
  | vfs_reset
  | vfs_create (path : CStr)
  | vfs_exists (path : CStr)
  | vfs_remove (path : CStr)
  | vfs_count
  | net_reset
  | net_enqueue_packet (data : List UInt8)
  | net_dequeue_packet (out : Nat)
  | net_queue_len
  | net_arp_put (ip : UInt32) (mac : List UInt8) (ttl_secs : UInt32)
  | net_arp_lookup (ip : UInt32)
  | net_arp_tick (elapsed_secs : UInt32)
  | net_arp_count
  | net_udp_bind (port : UInt16)
  | net_udp_unbind (port : UInt16)
  | net_udp_send (src_port : UInt16) (src_ip : UInt32) (dst_port : UInt16) (data : List UInt8)
  | net_udp_recv (dst_port : UInt16) (out : Nat)
  | net_tcp_listen (port : UInt16)
  | net_tcp_unlisten (port : UInt16)
  | net_tcp_connect (local_port : UInt16) (remote_ip : UInt32) (remote_port : UInt16)
  | net_tcp_step (conn_id : UInt16) (event : UInt32)
  | net_tcp_state (conn_id : UInt16)
  | net_tcp_rto (conn_id : UInt16)
  | net_tcp_retries (conn_id : UInt16)
  | drivers_reset
  | drivers_register (name : CStr)
  | drivers_register_nic (name : CStr) (mmio_base : UInt64) (irq : UInt32)
      (tx_desc_count rx_desc_count : UInt16)
  | drivers_loaded (name : CStr)
  | drivers_count
  | drivers_get_nic (name : CStr)
  | drivers_nic_advance_tx (name : CStr) (produced : UInt16)
  | drivers_nic_consume_rx (name : CStr) (consumed : UInt16)
  | softirq_init
  | softirq_reset
  | softirq_register (vector : Nat)
  | softirq_raise (vector : Nat)
  | softirq_pending_mask
  | softirq_run
  | timer_init
  | timer_softirq_handler
  | timer_reset
  | timer_jiffies
  | timer_add (delay_ticks interval_ticks : UInt32)
  | timer_cancel (timer_id : Int)
  | timer_tick (elapsed_ticks : UInt32)
  | timer_active_count
  | timer_pending_count
  | kthread_init
  | kthread_reset
  | kthread_create (entry arg : UInt64)
  | kthread_wake (tid : UInt32)
  | kthread_stop (tid : UInt32)
  | kthread_count
  | kthread_run_count (tid : UInt32)
  | kthread_run_next
  | kthread_current_tid
  | kthread_name_get (tid : UInt32) (out : Nat)
  | napi_init
  | napi_softirq_handler
  | napi_reset
  | napi_register (weight : UInt32)
  | napi_schedule (napi_id : UInt32)
  | napi_complete (napi_id : UInt32)
  | napi_pending_count
  | napi_run_count (napi_id : UInt32)
  | workqueue_init
  | workqueue_softirq_handler
  | workqueue_reset
  | workqueue_enqueue
  | workqueue_cancel (work_id : UInt32)
  | workqueue_pending_count
  | workqueue_completed_count
  | syscall_reset
  | syscall_register (nr op : UInt32) (value : Int)
  | syscall_unregister (nr : UInt32)
  | syscall_dispatch (mem : UserMem) (nr : UInt32) (a0 a1 a2 a3 : UInt64)
  | syscall_count
  | proc_reset
  | proc_create (pid ppid : UInt32)
  | proc_remove (pid : UInt32)
  | proc_parent (pid : UInt32)
  | proc_alive (pid : UInt32)
  | proc_count
  | proc_pid_at (ordinal : UInt32)
  | proc_name_get (pid : UInt32) (out : Nat)
  | proc_fork (parent_pid child_pid : UInt32)
  | proc_exit (pid : UInt32) (code : Int)
  | proc_wait (parent_pid : UInt32) (pid : Int) (options : UInt32)
  | proc_wait_status (parent_pid : UInt32) (pid : Int) (options : UInt32)
  | proc_cwd_set (pid : UInt32) (path : CStr)
  | proc_cwd_len (pid : UInt32)
  | proc_exec_signal_reset (pid : UInt32)
  | proc_exec_image_set (pid : UInt32)
  | proc_exec_image_get (pid : UInt32)
  | proc_signal_set_handler (pid signum handler : UInt32)
  | proc_signal_get_handler (pid signum : UInt32)
  | proc_signal_set_mask (pid mask : UInt32)
  | proc_signal_mask (pid : UInt32)
  | proc_signal_pending (pid : UInt32)
  | proc_signal_send (pid signum : UInt32)
  | proc_signal_next (pid : UInt32)
  | proc_signal_set_altstack (pid : UInt32) (sp size : UInt64) (flags : UInt32)
  | proc_signal_get_altstack (pid : UInt32)
  | kernel_status
  | kernel_entry (boot_info : BootInfo)

/-- A function that returns to its caller. -/
def return_from {α : Type} (f : RustM α) : RustM (Next Point) := do
  let _ ← f
  return .done

/-- The code of a function, up to its first callback. -/
def enter : Call → RustM (Next Point)
  | .lockless => return .done
  | .pmm_reset => return_from pmm_reset
  | .pmm_init_from_boot_info boot_info => return_from (pmm_init_from_boot_info boot_info)
  | .pmm_total_pages => return_from pmm_total_pages
  | .pmm_free_pages => return_from pmm_free_pages
  | .pmm_alloc_page => return_from pmm_alloc_page
  | .pmm_free_page page => return_from (pmm_free_page page)
  | .vmm_reset => return_from vmm_reset
  | .vmm_set_asid asid => return_from (vmm_set_asid asid)
  | .vmm_get_asid => return_from vmm_get_asid
  | .vmm_map_as asid va pa flags => return_from (vmm_map_as asid va pa flags)
  | .vmm_unmap_as asid va => return_from (vmm_unmap_as asid va)
  | .vmm_unmap va => return_from (vmm_unmap va)
  | .vmm_translate_as asid va => return_from (vmm_translate_as asid va)
  | .vmm_translate va => return_from (vmm_translate va)
  | .vmm_flags_as asid va => return_from (vmm_flags_as asid va)
  | .vmm_flags va => return_from (vmm_flags va)
  | .vmm_mapping_count_as asid => return_from (vmm_mapping_count_as asid)
  | .vmm_mapping_count => return_from vmm_mapping_count
  | .vmm_mapping_get_as asid ordinal => return_from (vmm_mapping_get_as asid ordinal)
  | .vmm_mapping_get ordinal => return_from (vmm_mapping_get ordinal)
  | .vmm_map va pa flags => return_from (vmm_map va pa flags)
  | .sched_reset => return_from sched_reset
  | .sched_add_task pid => return_from (sched_add_task pid)
  | .sched_remove_task pid => return_from (sched_remove_task pid)
  | .sched_count => return_from sched_count
  | .sched_next => return_from sched_next
  | .sched_current => return_from sched_current
  | .vfs_reset => return_from vfs_reset
  | .vfs_create path => return_from (vfs_create path)
  | .vfs_exists path => return_from (vfs_exists path)
  | .vfs_remove path => return_from (vfs_remove path)
  | .vfs_count => return_from vfs_count
  | .net_reset => return_from net_reset
  | .net_enqueue_packet data => return_from (net_enqueue_packet data)
  | .net_dequeue_packet out => return_from (net_dequeue_packet out)
  | .net_queue_len => return_from net_queue_len
  | .net_arp_put ip mac ttl_secs => return_from (net_arp_put ip mac ttl_secs)
  | .net_arp_lookup ip => return_from (net_arp_lookup ip)
  | .net_arp_tick elapsed_secs => return_from (net_arp_tick elapsed_secs)
  | .net_arp_count => return_from net_arp_count
  | .net_udp_bind port => return_from (net_udp_bind port)
  | .net_udp_unbind port => return_from (net_udp_unbind port)
  | .net_udp_send src_port src_ip dst_port data =>
    return_from (net_udp_send src_port src_ip dst_port data)
  | .net_udp_recv dst_port out => return_from (net_udp_recv dst_port out)
  | .net_tcp_listen port => return_from (net_tcp_listen port)
  | .net_tcp_unlisten port => return_from (net_tcp_unlisten port)
  | .net_tcp_connect local_port remote_ip remote_port =>
    return_from (net_tcp_connect local_port remote_ip remote_port)
  | .net_tcp_step conn_id event => return_from (net_tcp_step conn_id event)
  | .net_tcp_state conn_id => return_from (net_tcp_state conn_id)
  | .net_tcp_rto conn_id => return_from (net_tcp_rto conn_id)
  | .net_tcp_retries conn_id => return_from (net_tcp_retries conn_id)
  | .drivers_reset => return_from drivers_reset
  | .drivers_register name => return_from (drivers_register name)
  | .drivers_register_nic name mmio_base irq tx_desc_count rx_desc_count =>
    return_from (drivers_register_nic name mmio_base irq tx_desc_count rx_desc_count)
  | .drivers_loaded name => return_from (drivers_loaded name)
  | .drivers_count => return_from drivers_count
  | .drivers_get_nic name => return_from (drivers_get_nic name)
  | .drivers_nic_advance_tx name produced => return_from (drivers_nic_advance_tx name produced)
  | .drivers_nic_consume_rx name consumed => return_from (drivers_nic_consume_rx name consumed)
  | .softirq_init => return_from softirq_init
  | .softirq_reset => return_from softirq_reset
  | .softirq_register vector => return_from (softirq_register vector)
  | .softirq_raise vector => return_from (softirq_raise vector)
  | .softirq_pending_mask => return_from softirq_pending_mask
  | .softirq_run => softirq_run
  | .timer_init => return_from timer_init
  | .timer_softirq_handler => timer_softirq_handler
  | .timer_reset => return_from timer_reset
  | .timer_jiffies => return_from timer_jiffies
  | .timer_add delay_ticks interval_ticks => return_from (timer_add delay_ticks interval_ticks)
  | .timer_cancel timer_id => return_from (timer_cancel timer_id)
  | .timer_tick elapsed_ticks => return_from (timer_tick elapsed_ticks)
  | .timer_active_count => return_from timer_active_count
  | .timer_pending_count => return_from timer_pending_count
  | .kthread_init => return_from kthread_init
  | .kthread_reset => return_from kthread_reset
  | .kthread_create entry arg => return_from (kthread_create entry arg)
  | .kthread_wake tid => return_from (kthread_wake tid)
  | .kthread_stop tid => return_from (kthread_stop tid)
  | .kthread_count => return_from kthread_count
  | .kthread_run_count tid => return_from (kthread_run_count tid)
  | .kthread_run_next => kthread_run_next
  | .kthread_current_tid => return_from kthread_current_tid
  | .kthread_name_get tid out => return_from (kthread_name_get tid out)
  | .napi_init => return_from napi_init
  | .napi_softirq_handler => napi_softirq_handler 0 false
  | .napi_reset => return_from napi_reset
  | .napi_register weight => return_from (napi_register weight)
  | .napi_schedule napi_id => return_from (napi_schedule napi_id)
  | .napi_complete napi_id => return_from (napi_complete napi_id)
  | .napi_pending_count => return_from napi_pending_count
  | .napi_run_count napi_id => return_from (napi_run_count napi_id)
  | .workqueue_init => return_from workqueue_init
  | .workqueue_softirq_handler => workqueue_softirq_handler
  | .workqueue_reset => return_from workqueue_reset
  | .workqueue_enqueue => return_from workqueue_enqueue
  | .workqueue_cancel work_id => return_from (workqueue_cancel work_id)
  | .workqueue_pending_count => return_from workqueue_pending_count
  | .workqueue_completed_count => return_from workqueue_completed_count
  | .syscall_reset => return_from syscall_reset
  | .syscall_register nr op value => return_from (syscall_register nr op value)
  | .syscall_unregister nr => return_from (syscall_unregister nr)
  | .syscall_dispatch mem nr a0 a1 a2 a3 => return_from (syscall_dispatch mem nr a0 a1 a2 a3)
  | .syscall_count => return_from syscall_count
  | .proc_reset => return_from proc_reset
  | .proc_create pid ppid => return_from (proc_create pid ppid)
  | .proc_remove pid => return_from (proc_remove pid)
  | .proc_parent pid => return_from (proc_parent pid)
  | .proc_alive pid => return_from (proc_alive pid)
  | .proc_count => return_from proc_count
  | .proc_pid_at ordinal => return_from (proc_pid_at ordinal)
  | .proc_name_get pid out => return_from (proc_name_get pid out)
  | .proc_fork parent_pid child_pid => return_from (proc_fork parent_pid child_pid)
  | .proc_exit pid code => return_from (proc_exit pid code)
  | .proc_wait parent_pid pid options => return_from (proc_wait parent_pid pid options)
  | .proc_wait_status parent_pid pid options =>
    return_from (proc_wait_status parent_pid pid options)
  | .proc_cwd_set pid path => return_from (proc_cwd_set pid path)
  | .proc_cwd_len pid => return_from (proc_cwd_len pid)
  | .proc_exec_signal_reset pid => return_from (proc_exec_signal_reset pid)
  | .proc_exec_image_set pid => return_from (proc_exec_image_set pid)
  | .proc_exec_image_get pid => return_from (proc_exec_image_get pid)
  | .proc_signal_set_handler pid signum handler =>
    return_from (proc_signal_set_handler pid signum handler)
  | .proc_signal_get_handler pid signum => return_from (proc_signal_get_handler pid signum)
  | .proc_signal_set_mask pid mask => return_from (proc_signal_set_mask pid mask)
  | .proc_signal_mask pid => return_from (proc_signal_mask pid)
  | .proc_signal_pending pid => return_from (proc_signal_pending pid)
  | .proc_signal_send pid signum => return_from (proc_signal_send pid signum)
  | .proc_signal_next pid => return_from (proc_signal_next pid)
  | .proc_signal_set_altstack pid sp size flags =>
    return_from (proc_signal_set_altstack pid sp size flags)
  | .proc_signal_get_altstack pid => return_from (proc_signal_get_altstack pid)
  | .kernel_status => return_from kernel_status
  | .kernel_entry boot_info => return_from (kernel_entry boot_info)

/-- The code at the head of a loop. -/
def loop_head : Point → RustM (Next Point)
  | .softirq_run => softirq_run
  | .timer_softirq_handler => timer_softirq_handler
  | .napi_softirq_handler i need_reschedule => napi_softirq_handler i need_reschedule
  | .napi_polled .. => return .done
  | .workqueue_softirq_handler => workqueue_softirq_handler
  | .kthread_run_next => return .done

/-- The code behind a callback that has returned `value`: mostly it is that at
the head of the loop, for the next round. -/
def behind_callback (p : Point) (value : Nat) : RustM (Next Point) :=
  match p with
  | .napi_polled i need_reschedule weight => napi_polled i need_reschedule weight value
  | p => loop_head p

def kernel : Reentrant Lock Kernel Point Call where
  init := .reset
  enter := enter
  tau := loop_head
  resume := behind_callback

/-- The calls that keep the discipline. -/
def Safe (d : Kernel) : Call → Prop
  | .kthread_name_get tid out => out = 0 ∨ d.kthread.Exists tid
  | .syscall_dispatch _ nr a0 a1 a2 _ => d.syscall.rendersCount nr a0 a1 a2 = false
  | _ => True

instance (d : Kernel) (c : Call) : Decidable (Safe d c) := by
  cases c <;> dsimp only [Safe] <;> infer_instance

/-! ### Every piece of code is balanced -/
section balanced
variable {α : Type}
theorem return_from_balanced {f : RustM α} {P : Kernel → Prop}
    (h : Balanced Set.univ P f fun _ => Kernel.Ok) :
    Balanced Set.univ P (return_from f) fun _ => Kernel.Ok :=
  h.bind fun _ => keeps_pure

@[grind .] theorem return_from_keeps {f : RustM α} (h : Keeps Set.univ Kernel.Ok f) :
    Keeps Set.univ Kernel.Ok (return_from f) :=
  return_from_balanced h

theorem enter_balanced (c : Call) :
    Balanced Set.univ (fun d => d.Ok ∧ Safe d c) (enter c) fun _ => Kernel.Ok := by
  cases c
  case kthread_name_get tid out =>
    refine return_from_balanced ?_
    exact (kthread_name_get_balanced (Set.mem_univ _) tid out fun d hd => hd.2).weaken
      (fun _ h => h) (fun _ h => h) fun _ _ h => h.1
  case syscall_dispatch mem nr a0 a1 a2 a3 =>
    exact return_from_balanced (syscall_dispatch_balanced mem nr a0 a1 a2 a3)
  all_goals
    refine Balanced.weaken ?_ (fun _ h => h) (fun _ h => h.1) fun _ _ h => h
    show Keeps _ _ _
    dsimp only [enter]
    grind

variable (p : Point)
theorem loop_head_keeps : Keeps Set.univ Kernel.Ok (loop_head p) := by
  cases p with
  | softirq_run => grind [loop_head]
  | timer_softirq_handler => grind [loop_head]
  | napi_softirq_handler i need_reschedule => grind [loop_head]
  | napi_polled => exact keeps_pure
  | workqueue_softirq_handler => grind [loop_head]
  | kthread_run_next => exact keeps_pure

theorem behind_callback_keeps (value : Nat) :
    Keeps Set.univ Kernel.Ok (behind_callback p value) := by
  unfold behind_callback
  split
  · grind
  exact loop_head_keeps _
end balanced
/-- A thread is created, runs, and asks for its own name. -/
def nameOfThread : List (Reentrant.Move Call) :=
  [.call (.kthread_create 4096 0) [], .call .kthread_run_next [], .call (.kthread_name_get 1 32) []]

/-- The run ends in a call that spins on `l`. -/
def spinsOn (l : Lock) : Option (Status Lock Kernel Point) → Bool
  | some (.spinning l') => l == l'
  | _ => false

theorem reach_of_spinsOn {l : Lock} {tr : List (Reentrant.Move Call)}
    (h : spinsOn l (kernel.system.exec tr) = true) :
    kernel.system.Reach anyStep tr (.spinning l) := by
  unfold spinsOn at h
  split at h
  · rename_i l' hexec
    rw [beq_iff_eq] at h
    exact System.reach_of_exec (h ▸ hexec)
  cases h

/-- A process whose memory holds the string `path`. -/
def memWith (path : CStr) : UserMem := ⟨fun _ => 0, fun _ => some path⟩

/-- Opens `/proc/syscalls` and reads it. -/
def readSyscalls : List (Reentrant.Move Call) :=
  [.call (.syscall_register 5 21 0) [], .call (.syscall_register 6 22 0) [],
    .call (.syscall_dispatch (memWith (cstr "/proc/syscalls")) 5 4096 0 0 0) [],
    .call (.syscall_dispatch (memWith []) 6 0 4096 64 0) []]

/-- Asks for the name of a thread that does not exist, then for the number of
threads. -/
def nameOfNoThread : List (Reentrant.Move Call) :=
  [.call (.kthread_name_get 1 32) [], .call .kthread_count []]

end QosKernel.RustKernel
