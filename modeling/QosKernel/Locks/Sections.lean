import QosKernel.Locks.RustState
import QosKernel.Mm.RustPmm
import QosKernel.Mm.RustVmm
import QosKernel.Proc.RustSignals

/-! # Functions that are one section

Most functions of the kernel check their arguments, take the lock of their
subsystem, work on its table and release the lock. The work is done in a
closure, so that an early return in it does not skip the release. Some
are two sections in a row, because they first look up a value under the
same lock.

A table that is not part of the data answers from outside.
-/
open Framework Framework.Prog
namespace QosKernel.RustKernel
/-! ### Memory -/
section mm
def pmm_reset : RustM Unit := locked .MM (pure ())

def pmm_init_from_boot_info (boot_info : BootInfo) : RustM Bool :=
  if !RustPmm.boot_info_valid boot_info then pure false else locked .MM askBool

def pmm_total_pages : RustM Nat := locked .MM ask
def pmm_free_pages : RustM Nat := locked .MM ask
def pmm_alloc_page : RustM (Option Nat) := locked .MM askOption

def pmm_free_page (page : UInt64) : RustM Bool :=
  if !is_page_aligned page then pure false else locked .MM askBool

def vmm_reset : RustM Unit := locked .MM (pure ())

def vmm_set_asid (asid : UInt32) : RustM Unit :=
  if !RustVmm.asid_valid asid then pure () else locked .MM (pure ())

def vmm_get_asid : RustM UInt32 := do return .ofNat (← locked .MM ask)

def vmm_map_as (asid : UInt32) (va pa : UInt64) (flags : UInt32) : RustM Bool :=
  if !RustVmm.asid_valid asid || flags == 0 || !is_page_aligned va || !is_page_aligned pa then
    pure false
  else locked .MM askBool

def vmm_unmap_as (asid : UInt32) (va : UInt64) : RustM Bool :=
  if !RustVmm.asid_valid asid || !is_page_aligned va then pure false else locked .MM askBool

def vmm_unmap (va : UInt64) : RustM Bool := do
  let asid ← locked .MM ask
  vmm_unmap_as (.ofNat asid) va

def vmm_translate_as (asid : UInt32) (_va : UInt64) : RustM (Option Nat) :=
  if !RustVmm.asid_valid asid then pure none else locked .MM askOption

def vmm_translate (va : UInt64) : RustM (Option Nat) := do
  let asid ← locked .MM ask
  vmm_translate_as (.ofNat asid) va

def vmm_flags_as (asid : UInt32) (_va : UInt64) : RustM Nat :=
  if !RustVmm.asid_valid asid then pure 0 else locked .MM ask

def vmm_flags (va : UInt64) : RustM Nat := do
  let asid ← locked .MM ask
  vmm_flags_as (.ofNat asid) va

def vmm_mapping_count_as (asid : UInt32) : RustM Nat :=
  if !RustVmm.asid_valid asid then pure 0 else locked .MM ask

def vmm_mapping_count : RustM Nat := do
  let asid ← locked .MM ask
  vmm_mapping_count_as (.ofNat asid)

def vmm_mapping_get_as (asid : UInt32) (_ordinal : UInt32) : RustM (Option Nat) :=
  if !RustVmm.asid_valid asid then pure none else locked .MM askOption

def vmm_mapping_get (ordinal : UInt32) : RustM (Option Nat) := do
  let asid ← locked .MM ask
  vmm_mapping_get_as (.ofNat asid) ordinal

def vmm_map (va pa : UInt64) (flags : UInt32) : RustM Bool :=
  if flags == 0 || !is_page_aligned va || !is_page_aligned pa then pure false
  else do
    let asid ← locked .MM ask
    vmm_map_as (.ofNat asid) va pa flags

attribute [grind] pmm_reset pmm_init_from_boot_info pmm_total_pages pmm_free_pages pmm_alloc_page
  pmm_free_page vmm_reset vmm_set_asid vmm_get_asid vmm_map_as vmm_unmap_as vmm_unmap
  vmm_translate_as vmm_translate vmm_flags_as vmm_flags vmm_mapping_count_as vmm_mapping_count
  vmm_mapping_get_as vmm_mapping_get vmm_map
end mm
/-! ### Scheduler -/
section sched
def sched_reset : RustM Unit := locked .SCHED (pure ())

def sched_add_task (pid : UInt32) : RustM Bool :=
  if pid == 0 then pure false else locked .SCHED askBool

def sched_remove_task (_pid : UInt32) : RustM Bool := locked .SCHED askBool
def sched_count : RustM Nat := locked .SCHED ask
def sched_next : RustM (Option Nat) := locked .SCHED askOption
def sched_current : RustM UInt32 := do return .ofNat (← locked .SCHED ask)

attribute [grind] sched_reset sched_add_task sched_remove_task sched_count sched_next sched_current
end sched
/-! ### Paths

The registry of paths is that of the C kernel, under the same names of the
file systems. -/
section vfs
def vfs_reset : RustM Unit := locked .VFS (modify fun d => { d with vfs := .reset })

section
variable (path : CStr)
def vfs_create : RustM Bool :=
  if !Vfs.path_valid path then pure false
  else locked .VFS do
    let d ← read
    if (d.vfs.find_path path).isSome then return false
    match first fun i => (d.vfs.nodes i).isNone with
    | none => return false
    | some i =>
      modify fun d =>
        { d with vfs := ⟨set d.vfs.nodes i (some path), d.vfs.count + 1⟩ }
      return true

def vfs_exists : RustM Bool :=
  if !Vfs.path_valid path then pure false
  else locked .VFS do
    let d ← read
    return (d.vfs.find_path path).isSome

def vfs_remove : RustM Bool :=
  if !Vfs.path_valid path then pure false
  else locked .VFS do
    let d ← read
    match d.vfs.find_path path with
    | none => return false
    | some i =>
      modify fun d => { d with vfs := ⟨set d.vfs.nodes i none, d.vfs.count - 1⟩ }
      return true
end
def vfs_count : RustM UInt32 := locked .VFS do
  let d ← read
  return d.vfs.count

/-- `vfs_fs_kind` takes no lock, nor does `vfs_is_read_only`. -/
def vfs_fs_kind (path : CStr) : Option VfsKind := Vfs.qos_vfs_fs_kind path

def vfs_is_read_only (path : CStr) : Option Bool :=
  (vfs_fs_kind path).map fun kind => kind == .initramfs || kind == .procfs

variable {L : Set Lock} (hL : Lock.VFS ∈ L)
include hL
@[grind .] theorem vfs_reset_keeps : Keeps L Kernel.Ok vfs_reset :=
  keeps_locked hL (keeps_modify fun _ h => h)

section
variable (path : CStr)
@[grind .] theorem vfs_create_keeps : Keeps L Kernel.Ok (vfs_create path) := by
  unfold vfs_create
  split
  · exact keeps_pure
  refine keeps_locked hL (keeps_bind keeps_read fun d => ?_)
  split
  · exact keeps_pure
  split
  · exact keeps_pure
  exact keeps_bind (keeps_modify fun _ h => h) fun _ => keeps_pure

@[grind .] theorem vfs_exists_keeps : Keeps L Kernel.Ok (vfs_exists path) := by grind [vfs_exists]

@[grind .] theorem vfs_remove_keeps : Keeps L Kernel.Ok (vfs_remove path) := by
  unfold vfs_remove
  split
  · exact keeps_pure
  refine keeps_locked hL (keeps_bind keeps_read fun d => ?_)
  split
  · exact keeps_pure
  exact keeps_bind (keeps_modify fun _ h => h) fun _ => keeps_pure
end

@[grind .] theorem vfs_count_keeps : Keeps L Kernel.Ok vfs_count := by grind [vfs_count]
end vfs
/-! ### Network -/
section net
def QOS_NET_IPV4_SUBNET_MASK : UInt32 := 0xFFFFFF00
def net_reset : RustM Unit := locked .NET (pure ())

/-- `net_tcp_next_rto`; its `saturating_mul` never saturates. -/
def net_tcp_next_rto_ms (current_rto_ms : UInt32) : UInt32 :=
  if 60000 ≤ current_rto_ms then 60000
  else if 30000 < current_rto_ms then 60000
  else current_rto_ms * 2

def net_enqueue_packet (data : List UInt8) : RustM Bool :=
  if data.isEmpty || QOS_NET_MAX_PACKET < data.length then pure false else locked .NET askBool

/-- Of the buffer `out` only the length matters, here and below. -/
def net_dequeue_packet (out : Nat) : RustM (Option Nat) :=
  if out == 0 then pure none else locked .NET askOption

def net_queue_len : RustM Nat := locked .NET ask

def net_arp_put (ip : UInt32) (_mac : List UInt8) (ttl_secs : UInt32) : RustM Bool :=
  if ip == 0 || ttl_secs == 0 then pure false else locked .NET askBool

def net_arp_lookup (ip : UInt32) : RustM (Option Nat) :=
  if ip == 0 then pure none else locked .NET askOption

def net_arp_tick (elapsed_secs : UInt32) : RustM Unit :=
  if elapsed_secs == 0 then pure () else locked .NET (pure ())

def net_arp_count : RustM Nat := locked .NET ask

def net_same_subnet (a b : UInt32) : Bool :=
  a &&& QOS_NET_IPV4_SUBNET_MASK == b &&& QOS_NET_IPV4_SUBNET_MASK

def net_ipv4_route (dst_ip : UInt32) : Option UInt32 :=
  if dst_ip == 0 then none
  else if net_same_subnet dst_ip QOS_NET_IPV4_LOCAL then some dst_ip
  else some QOS_NET_IPV4_GATEWAY

/-- The length of the reply and its sender; `ident` and `seq` are not used. -/
def net_icmp_echo (dst_ip : UInt32) (payload : List UInt8) (out_reply : Nat) :
    Option (Nat × UInt32) :=
  if dst_ip == 0 || payload.isEmpty || QOS_NET_MAX_PACKET < payload.length ||
      out_reply < payload.length then none
  else if (net_ipv4_route dst_ip).isNone then none
  else if dst_ip != QOS_NET_IPV4_GATEWAY && dst_ip != QOS_NET_IPV4_LOCAL then none
  else some (payload.length, dst_ip)

def net_udp_bind (port : UInt16) : RustM Bool :=
  if port < QOS_NET_PORT_MIN_DYNAMIC then pure false else locked .NET askBool

def net_udp_unbind (port : UInt16) : RustM Bool :=
  if port < QOS_NET_PORT_MIN_DYNAMIC then pure false else locked .NET askBool

def net_udp_send (src_port : UInt16) (src_ip : UInt32) (dst_port : UInt16) (data : List UInt8) :
    RustM (Option Nat) :=
  if src_port < QOS_NET_PORT_MIN_DYNAMIC || src_ip == 0 || dst_port == 0 || data.isEmpty ||
      QOS_NET_MAX_PACKET < data.length then pure none
  else locked .NET askOption

def net_udp_recv (dst_port : UInt16) (out : Nat) : RustM (Option Nat) :=
  if dst_port == 0 || out == 0 then pure none else locked .NET askOption

def net_tcp_listen (port : UInt16) : RustM (Option Nat) :=
  if port < QOS_NET_PORT_MIN_DYNAMIC then pure none else locked .NET askOption

def net_tcp_unlisten (port : UInt16) : RustM Bool :=
  if port < QOS_NET_PORT_MIN_DYNAMIC then pure false else locked .NET askBool

def net_tcp_connect (local_port : UInt16) (remote_ip : UInt32) (remote_port : UInt16) :
    RustM (Option Nat) :=
  if local_port < QOS_NET_PORT_MIN_DYNAMIC || remote_ip == 0 || remote_port == 0 then pure none
  else locked .NET askOption

def net_tcp_step (_conn_id : UInt16) (_event : UInt32) : RustM Bool := locked .NET askBool
def net_tcp_state (_conn_id : UInt16) : RustM (Option Nat) := locked .NET askOption
def net_tcp_rto (_conn_id : UInt16) : RustM (Option Nat) := locked .NET askOption
def net_tcp_retries (_conn_id : UInt16) : RustM (Option Nat) := locked .NET askOption

attribute [grind] net_reset net_enqueue_packet net_dequeue_packet net_queue_len net_arp_put
  net_arp_lookup net_arp_tick net_arp_count net_udp_bind net_udp_unbind net_udp_send net_udp_recv
  net_tcp_listen net_tcp_unlisten net_tcp_connect net_tcp_step net_tcp_state net_tcp_rto
  net_tcp_retries
end net
/-! ### Drivers -/
section drivers
def QOS_DRIVER_NAME_MAX : Nat := 64

def driver_name_valid (name : CStr) : Bool :=
  !name.isEmpty && decide (name.length < QOS_DRIVER_NAME_MAX)

def drivers_reset : RustM Unit := locked .DRIVERS (pure ())

section
variable (name : CStr)
def drivers_register : RustM Bool :=
  if !driver_name_valid name then pure false else locked .DRIVERS askBool

def drivers_register_nic (_mmio_base : UInt64) (_irq : UInt32)
    (tx_desc_count rx_desc_count : UInt16) : RustM Bool :=
  if !driver_name_valid name || tx_desc_count == 0 || rx_desc_count == 0 then pure false
  else locked .DRIVERS askBool

def drivers_loaded : RustM Bool :=
  if !driver_name_valid name then pure false else locked .DRIVERS askBool
end
def drivers_count : RustM Nat := locked .DRIVERS ask

def drivers_get_nic (name : CStr) : RustM (Option Nat) :=
  if !driver_name_valid name then pure none else locked .DRIVERS askOption

def drivers_nic_advance_tx (name : CStr) (_produced : UInt16) : RustM Bool :=
  if !driver_name_valid name then pure false else locked .DRIVERS askBool

def drivers_nic_consume_rx (name : CStr) (_consumed : UInt16) : RustM Bool :=
  if !driver_name_valid name then pure false else locked .DRIVERS askBool

attribute [grind] drivers_reset drivers_register drivers_register_nic drivers_loaded drivers_count
  drivers_get_nic drivers_nic_advance_tx drivers_nic_consume_rx
end drivers
/-! ### Processes -/
section proc
open RustProc (QOS_SIG_DFL QOS_SIGKILL QOS_SIGSTOP proc_signal_signum_valid)
def proc_reset : RustM Unit := locked .PROC (pure ())

def proc_create (pid _ppid : UInt32) : RustM Bool :=
  if pid == 0 then pure false else locked .PROC askBool

def proc_remove (_pid : UInt32) : RustM Bool := locked .PROC askBool
def proc_parent (_pid : UInt32) : RustM (Option Nat) := locked .PROC askOption
def proc_alive (_pid : UInt32) : RustM Bool := locked .PROC askBool
def proc_count : RustM Nat := locked .PROC ask
def proc_pid_at (_ordinal : UInt32) : RustM (Option Nat) := locked .PROC askOption

/-- The `?` of the lookup is in a closure: it does not skip the release. -/
def proc_name_get (_pid : UInt32) (out : Nat) : RustM (Option Nat) :=
  if out == 0 then pure none else locked .PROC askOption

def proc_fork (_parent_pid child_pid : UInt32) : RustM Bool :=
  if child_pid == 0 then pure false else locked .PROC askBool

def proc_exit (_pid : UInt32) (_code : Int) : RustM Bool := locked .PROC askBool

def proc_wait (_parent_pid : UInt32) (_pid : Int) (_options : UInt32) : RustM Nat :=
  locked .PROC ask

def proc_wait_status (_parent_pid : UInt32) (_pid : Int) (_options : UInt32) : RustM Nat :=
  locked .PROC ask

def proc_cwd_set (_pid : UInt32) (_path : CStr) : RustM Bool := locked .PROC askBool
def proc_cwd_len (_pid : UInt32) : RustM (Option Nat) := locked .PROC askOption
def proc_cwd_snapshot (_pid : UInt32) : RustM (Option Nat) := locked .PROC askOption
def proc_exec_signal_reset (_pid : UInt32) : RustM Bool := locked .PROC askBool
def proc_exec_image_set (_pid : UInt32) : RustM Bool := locked .PROC askBool
def proc_exec_image_get (_pid : UInt32) : RustM (Option Nat) := locked .PROC askOption

def proc_signal_set_handler (_pid signum handler : UInt32) : RustM Bool :=
  if !proc_signal_signum_valid signum then pure false
  else if (signum == QOS_SIGKILL || signum == QOS_SIGSTOP) && handler != QOS_SIG_DFL then pure false
  else locked .PROC askBool

def proc_signal_get_handler (_pid signum : UInt32) : RustM (Option Nat) :=
  if !proc_signal_signum_valid signum then pure none else locked .PROC askOption

def proc_signal_set_mask (_pid _mask : UInt32) : RustM Bool := locked .PROC askBool
def proc_signal_mask (_pid : UInt32) : RustM (Option Nat) := locked .PROC askOption
def proc_signal_pending (_pid : UInt32) : RustM (Option Nat) := locked .PROC askOption

def proc_signal_send (_pid signum : UInt32) : RustM Bool :=
  if !proc_signal_signum_valid signum then pure false else locked .PROC askBool

def proc_signal_next (_pid : UInt32) : RustM Nat := locked .PROC ask

def proc_signal_set_altstack (_pid : UInt32) (_sp _size : UInt64) (_flags : UInt32) : RustM Bool :=
  locked .PROC askBool

def proc_signal_get_altstack (_pid : UInt32) : RustM (Option Nat) := locked .PROC askOption

attribute [grind] proc_reset proc_create proc_remove proc_parent proc_alive proc_count proc_pid_at
  proc_name_get proc_fork proc_exit proc_wait proc_wait_status proc_cwd_set proc_cwd_len
  proc_cwd_snapshot proc_exec_signal_reset proc_exec_image_set proc_exec_image_get
  proc_signal_set_handler proc_signal_get_handler proc_signal_set_mask proc_signal_mask
  proc_signal_pending proc_signal_send proc_signal_next proc_signal_set_altstack
  proc_signal_get_altstack
end proc
end QosKernel.RustKernel
