import QosKernel.Framework.System
import QosKernel.Syscall.CFiles

/-! # Dispatch of the C system calls

`qos_syscall_register`, `qos_syscall_unregister` and
`qos_syscall_dispatch`, and the runs of the system call layer: any
sequence of these calls, with any arguments.
-/
open Framework
namespace QosKernel
def SyscallOp.ofCode : Nat → Option SyscallOp
  | 1 => some .const
  | 2 => some .add
  | 3 => some .query
  | 4 => some .kill
  | 5 => some .sigpending
  | 6 => some .sigaction
  | 7 => some .sigprocmask
  | 8 => some .sigaltstack
  | 9 => some .sigsuspend
  | 10 => some .fork
  | 11 => some .exec
  | 12 => some .sigreturn
  | 13 => some .exit
  | 14 => some .getpid
  | 15 => some .waitpid
  | 16 => some .stat
  | 17 => some .mkdir
  | 18 => some .unlink
  | 19 => some .chdir
  | 20 => some .getcwd
  | 21 => some .open
  | 22 => some .read
  | 23 => some .write
  | 24 => some .close
  | 25 => some .dup2
  | 26 => some .mmap
  | 27 => some .munmap
  | 28 => some .yield
  | 29 => some .sleep
  | 30 => some .socket
  | 31 => some .bind
  | 32 => some .listen
  | 33 => some .accept
  | 34 => some .connect
  | 35 => some .send
  | 36 => some .recv
  | 37 => some .getdents
  | 38 => some .lseek
  | 39 => some .pipe
  | 40 => some .dlopen
  | 41 => some .dlclose
  | 42 => some .dlsym
  | 43 => some .modload
  | 44 => some .modunload
  | 45 => some .modreload
  | _ => none

namespace KState
def qos_syscall_register (s : KState) (nr op : UInt32) (value : Int) : Int × KState :=
  if h : nr.toNat < QOS_SYSCALL_MAX then
    match SyscallOp.ofCode op.toNat with
    | none => (-1, s)
    | some op =>
      if (s.calls ⟨nr.toNat, h⟩).isSome then (-1, s)
      else
        (0, { s with calls := set s.calls ⟨nr.toNat, h⟩ (some (op, value)), count := s.count + 1 })
  else (-1, s)

def qos_syscall_unregister (s : KState) (nr : UInt32) : Int × KState :=
  if h : nr.toNat < QOS_SYSCALL_MAX then
    if (s.calls ⟨nr.toNat, h⟩).isNone then (-1, s)
    else (0, { s with calls := set s.calls ⟨nr.toNat, h⟩ none, count := s.count - 1 })
  else (-1, s)

variable (env : Env) (s : KState)
/-- `syscall_query_value`: the query is the low word of the registered value. -/
def syscall_query_value (query : Int) : Int :=
  match (query % 4294967296).toNat with
  | 1 => env.init_state.toNat
  | 2 => env.pmm_total_pages.toNat
  | 3 => env.pmm_free_pages.toNat
  | 4 => env.sched_count.toNat
  | 5 => s.vfs.count.toNat
  | 6 => s.net.packets.count
  | 7 => env.drivers_count.toNat
  | 8 => s.count.toNat
  | 9 => env.proc_count.toNat
  | _ => -1

def syscall_op (op : SyscallOp) (value : Int) (a0 a1 a2 a3 : UInt64) : Outcome :=
  match op with
  | .const => .ret s value
  | .add => .ret s (a0 + a1).toInt64.toInt
  | .query => .ret s (s.syscall_query_value env value)
  | .open => s.syscall_op_open env a0
  | .read => s.syscall_op_read env a0 a1 a2
  | .write => s.syscall_op_write env a0 a1 a2
  | .close => s.syscall_op_close a0
  | .dup2 => s.syscall_op_dup2 a0 a1
  | .socket => s.syscall_op_socket a0 a1
  | .bind => s.syscall_op_bind env a0 a1 a2
  | .listen => s.syscall_op_listen a0 a1
  | .accept => s.syscall_op_accept env a0 a1 a2
  | .connect => s.syscall_op_connect env a0 a1 a2
  | .send => s.syscall_op_send env a0 a1 a2 a3
  | .recv => s.syscall_op_recv a0 a1 a2 a3
  | .getdents => s.syscall_op_getdents a0 a1 a2
  | .lseek => s.syscall_op_lseek env a0 a1 a2
  | .pipe => s.syscall_op_pipe a0
  | .stat => s.syscall_op_stat env a0 a1
  | .mkdir => s.syscall_op_mkdir env a0
  | .unlink => s.syscall_op_unlink env a0
  -- the operations of the other parts of the kernel: none of them writes the
  -- state of this one
  | .kill | .sigpending | .sigaction | .sigprocmask | .sigaltstack | .sigsuspend | .fork
  | .exec | .sigreturn | .exit | .getpid | .waitpid | .chdir | .getcwd | .mmap | .munmap
  | .yield | .sleep | .dlopen | .dlclose | .dlsym | .modload | .modunload | .modreload =>
    ⟨(env.other op).1, (env.other op).2, s⟩

def qos_syscall_dispatch (nr : UInt32) (a0 a1 a2 a3 : UInt64) : Outcome :=
  if h : nr.toNat < QOS_SYSCALL_MAX then
    match s.calls ⟨nr.toNat, h⟩ with
    | none => .fail s
    | some (op, value) => s.syscall_op env op value a0 a1 a2 a3
  else .fail s
end KState
/-! ### Runs -/
inductive Syscall where
  | register (nr op : UInt32) (value : Int)
  | unregister (nr : UInt32)
  | dispatch (env : Env) (nr : UInt32) (a0 a1 a2 a3 : UInt64)

def KState.call (s : KState) : Syscall → KState
  | .register nr op value => (s.qos_syscall_register nr op value).2
  | .unregister nr => (s.qos_syscall_unregister nr).2
  | .dispatch env nr a0 a1 a2 a3 => (s.qos_syscall_dispatch env nr a0 a1 a2 a3).state

def syscallRuns (vfs : Vfs) : System KState Syscall where
  init := .reset vfs
  step s c := some (s.call c)
end QosKernel
