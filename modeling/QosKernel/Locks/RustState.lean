import QosKernel.Framework.Locks
import QosKernel.Irq.Workqueue
import QosKernel.Syscall.CDispatch

/-! # The locks of the Rust kernel, and the data that decides about them

`rust-os/kernel/src/lib.rs` guards each subsystem by a spin lock of its
own. The modules of this directory are the kernel as a program over these
locks: which lock a function takes, what it calls while it holds it, and
on which paths it returns.

Which locks a call takes depends on the registry of paths, on the kernel
threads, and on the tables of the system calls; this is the data. What a
function finds in the other tables is an answer from outside, so the
results hold whatever these tables contain.
-/
open Framework
namespace QosKernel.RustKernel
/-- The statics `MM_LOCK`, `SCHED_LOCK`, and so on. -/
inductive Lock where
  | MM | SCHED | VFS | NET | DRIVERS | SYSCALL | PROC | SOFTIRQ | TIMER | KTHREAD | NAPI
  | WORKQUEUE
  deriving DecidableEq

/-! ### Kernel threads -/
def QOS_KTHREAD_MAX : Nat := 64

structure KthreadEntry where
  used : Bool
  runnable : Bool
  tid : UInt32
  entry : Option UInt64
  arg : UInt64
  run_count : UInt32
  /-- The name, as long as `name_len` says. -/
  name : CStr

def KthreadEntry.new : KthreadEntry := ⟨false, false, 0, none, 0, 0, []⟩

structure KthreadState where
  entries : Fin QOS_KTHREAD_MAX → KthreadEntry
  next_tid : UInt32
  cursor : UInt32
  current_tid : UInt32

namespace KthreadState
variable {s : KthreadState} {tid : UInt32}
def new : KthreadState := ⟨fun _ => .new, 1, 0, 0⟩

def kthread_find_slot (s : KthreadState) (tid : UInt32) : Option (Fin QOS_KTHREAD_MAX) :=
  first fun i => (s.entries i).used && (s.entries i).tid == tid

/-- A name is at most 18 bytes long, so it is never cut off. -/
def kthread_name (tid : UInt32) : CStr := cstr "kthread-" ++ render_u32 tid

section
variable (s : KthreadState)
/-- The section of `kthread_create`. -/
def create (entry arg : UInt64) : Option UInt32 × KthreadState :=
  match first fun i => !(s.entries i).used with
  | none => (none, s)
  | some i =>
    let (tid, next_tid) := Workqueue.take_id s.next_tid
    (some tid, { s with
      entries := set s.entries i ⟨true, true, tid, some entry, arg, 0, kthread_name tid⟩
      next_tid := next_tid })

/-- The sections of `kthread_wake` and `kthread_stop`. -/
def setRunnable (tid : UInt32) (runnable : Bool) : Bool × KthreadState :=
  match s.kthread_find_slot tid with
  | none => (false, s)
  | some i =>
    (true, { s with entries := set s.entries i { s.entries i with runnable := runnable } })

/-- The slot that is `scanned` steps behind the cursor. -/
def slotFrom (scanned : Fin QOS_KTHREAD_MAX) : Fin QOS_KTHREAD_MAX :=
  ⟨(s.cursor.toNat + scanned) % QOS_KTHREAD_MAX, Nat.mod_lt _ (by decide)⟩

/-- The section of `kthread_run_next`: the thread to run. -/
def select : Option UInt32 × KthreadState :=
  let runs := fun scanned =>
    let e := s.entries (s.slotFrom scanned)
    e.used && e.runnable && e.entry.isSome
  match first runs with
  | none => (none, { s with current_tid := 0 })
  | some scanned =>
    let i := s.slotFrom scanned
    let e := s.entries i
    (some e.tid, { s with
      entries := set s.entries i { e with run_count := UInt32.saturating_add e.run_count 1 }
      cursor := .ofNat ((i + 1) % QOS_KTHREAD_MAX)
      current_tid := e.tid })

def Exists (tid : UInt32) : Prop :=
  ∃ i, (s.entries i).used = true ∧ (s.entries i).tid = tid

def Ok : Prop := s.current_tid = 0 ∨ s.Exists s.current_tid
end
theorem exists_iff : s.Exists tid ↔ (s.kthread_find_slot tid).isSome = true := by
  rw [kthread_find_slot, first_isSome]
  simp [Exists]

instance (s : KthreadState) (tid : UInt32) : Decidable (s.Exists tid) :=
  decidable_of_iff _ exists_iff.symm

theorem ok_new : new.Ok := .inl rfl

/-- A thread that exists keeps its id when slots are written whose threads, if
they have one, keep theirs. -/
theorem Exists.set (h : s.Exists tid) {i : Fin QOS_KTHREAD_MAX} {e : KthreadEntry}
    (he : (s.entries i).used = true → e.used = true ∧ e.tid = (s.entries i).tid) :
    ∃ j, (Framework.set s.entries i e j).used = true ∧ (Framework.set s.entries i e j).tid = tid
    := by
  obtain ⟨j, hused, htid⟩ := h
  refine ⟨j, ?_⟩
  by_cases hj : j = i
  · subst hj
    rw [set_self]
    exact ⟨(he hused).1, (he hused).2.trans htid⟩
  rw [set_ne hj]
  exact ⟨hused, htid⟩

theorem Ok.create (h : s.Ok) (entry arg : UInt64) : (s.create entry arg).2.Ok := by
  unfold KthreadState.create
  split
  · exact h
  rename_i i hi
  -- the new thread goes to a slot that had none
  have hfree : (s.entries i).used ≠ true := by simpa using first_some hi
  exact h.imp_right fun h => h.set fun hused => absurd hused hfree

theorem Ok.setRunnable (h : s.Ok) (tid : UInt32) (runnable : Bool) :
    (s.setRunnable tid runnable).2.Ok := by
  unfold KthreadState.setRunnable
  split
  · exact h
  exact h.imp_right fun h => h.set fun hused => ⟨hused, rfl⟩

theorem ok_select (s : KthreadState) : s.select.2.Ok := by
  simp only [select]
  split
  · exact .inl rfl
  rename_i scanned hs
  have he := first_some hs
  simp only [Bool.and_eq_true] at he
  refine .inr ⟨s.slotFrom scanned, ?_⟩
  show (Framework.set s.entries _ _ _).used = true ∧ (Framework.set s.entries _ _ _).tid = _
  rw [set_self]
  exact ⟨he.1.1, rfl⟩
end KthreadState
/-! ### System calls -/
/-- One row of the `fd_` arrays. The fields of sockets, pipes and files are
left to the answers. -/
structure FdEntry where
  used : Bool
  kind : FdKind
  proc_kind : ProcKind
  proc_pid : UInt32

/-- A row as `syscall_fd_alloc` leaves it. -/
def FdEntry.fresh (kind : FdKind) : FdEntry := ⟨true, kind, .none, 0⟩

/-- A row as `syscall_fd_clear` leaves it. -/
def FdEntry.closed : FdEntry := ⟨false, .none, .none, 0⟩

structure SyscallState where
  /-- `used`, `ops` and `values`. -/
  calls : Fin QOS_SYSCALL_MAX → Option (SyscallOp × Int)
  count : UInt32
  fds : FdNum → FdEntry

namespace SyscallState
/-- `syscall_state_reset_in_place`. -/
def reset : SyscallState := ⟨fun _ => none, 0, fun _ => .closed⟩

variable (s : SyscallState)
/-- The row of a descriptor that `syscall_fd_valid` accepts. -/
def fdAt (fd : UInt32) : Option FdNum :=
  if h : fd.toNat < QOS_FD_MAX then
    if (s.fds ⟨fd.toNat, h⟩).used then some ⟨fd.toNat, h⟩ else none
  else none

def syscall_fd_alloc (kind : FdKind) : Option (FdNum × SyscallState) :=
  (first fun i => !(s.fds i).used).map fun i => (i, { s with fds := set s.fds i (.fresh kind) })

variable (nr : Fin QOS_SYSCALL_MAX)
/-- The section of `syscall_register`. -/
def register (op : SyscallOp) (value : Int) : Bool × SyscallState :=
  if (s.calls nr).isSome then (false, s)
  else (true, { s with calls := set s.calls nr (some (op, value)), count := s.count + 1 })

/-- The section of `syscall_unregister`. -/
def unregister : Bool × SyscallState :=
  if (s.calls nr).isNone then (false, s)
  else (true, { s with calls := set s.calls nr none, count := s.count - 1 })
end SyscallState
/-! ### The data -/
structure Kernel where
  vfs : Vfs
  kthread : KthreadState
  syscall : SyscallState

namespace Kernel
def reset : Kernel := ⟨.reset, .new, .reset⟩
@[grind] def Ok (d : Kernel) : Prop := d.kthread.Ok

theorem ok_reset : reset.Ok := KthreadState.ok_new
end Kernel
/-- Code of the kernel. -/
abbrev RustM := Prog Lock Kernel
end QosKernel.RustKernel
