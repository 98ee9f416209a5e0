import QosKernel.Framework.RefCount
import QosKernel.Proc.Parenthood
import QosKernel.Proc.RustSignals

/-! # The Rust process table counts its processes

`count` is the number of slots in use, so that it can be counted up and
down without an overflow, and no working directory is longer than its
buffer.
-/
open Framework
namespace QosKernel.RustProc
/-- A change of a record that keeps what is counted and measured. -/
structure Process.Alike (p p' : Process) : Prop where
  used : p'.used = p.used
  cwd : p'.cwd = p.cwd

namespace ProcState
variable {i : Slot} {p : Process}
structure Sized (s : ProcState) : Prop where
  cwd : ∀ i, (s.procs i).cwd.length < QOS_VFS_PATH_MAX
  count : s.count.toNat = slotCount Process.used s.procs

theorem sized_reset : proc_reset.Sized where
  cwd _ := Nat.zero_lt_succ _
  count := (slotCount_eq_zero.mpr fun _ => rfl).symm

variable {s : ProcState}
section
variable (h : s.Sized)
include h
theorem Sized.count_lt : s.count.toNat + 1 < 2 ^ 32 := by
  have hle : slotCount Process.used s.procs ≤ QOS_PROC_MAX := slotCount_le
  rw [h.count]
  exact Nat.lt_of_le_of_lt (Nat.succ_le_succ hle) (by decide)

theorem Sized.one_le_count (hi : (s.procs i).used = true) : 1 ≤ s.count.toNat := by
  rw [h.count]
  exact slotCount_pos hi

theorem Sized.cwd_set (hp : p.cwd.length < QOS_VFS_PATH_MAX) (j : Slot) :
    (set s.procs i p j).cwd.length < QOS_VFS_PATH_MAX := by
  by_cases hj : j = i
  · subst hj
    rw [set_self]
    exact hp
  rw [set_ne hj]
  exact h.cwd j

theorem Sized.enter (hi : (s.procs i).used = false) (hused : p.used = true)
    (hcwd : p.cwd.length < QOS_VFS_PATH_MAX) :
    (ProcState.mk (set s.procs i p) (s.count + 1)).Sized := by
  refine ⟨h.cwd_set hcwd, ?_⟩
  change (s.count + 1).toNat = slotCount Process.used (set s.procs i p)
  rw [toNat_succ h.count_lt, slotCount_insert hi hused, h.count]

theorem Sized.leave (hi : (s.procs i).used = true) :
    (ProcState.mk (set s.procs i .free) (s.count - 1)).Sized := by
  refine ⟨h.cwd_set (by decide), ?_⟩
  change (s.count - 1).toNat = slotCount Process.used (set s.procs i .free)
  rw [toNat_pred (h.one_le_count hi), slotCount_erase hi rfl, h.count]

theorem Sized.change (hused : p.used = (s.procs i).used)
    (hcwd : p.cwd.length < QOS_VFS_PATH_MAX) : { s with procs := set s.procs i p }.Sized :=
  ⟨h.cwd_set hcwd, by rw [h.count]; exact (slotCount_set_of_eq hused).symm⟩

theorem Sized.update (pid : UInt32) {f : Process → Process}
    (hf : ∀ p, Process.Alike p (f p)) : (s.update pid f).2.Sized := by
  unfold ProcState.update
  split
  · exact h
  next i _ =>
  refine h.change (hf _).used ?_
  rw [(hf _).cwd]
  exact h.cwd i
end
/-! ### The life of processes -/
theorem proc_find_used {pid : UInt32} (h : s.proc_find pid = some i) : (s.procs i).used = true := by
  have hi := first_some h
  rw [Bool.and_eq_true] at hi
  exact hi.1

theorem proc_free_slot_used (h : s.proc_free_slot = some i) : (s.procs i).used = false := by
  simpa using first_some h

section
variable (h : s.Sized)
include h
theorem Sized.create (pid ppid : UInt32) : (s.proc_create pid ppid).2.Sized := by
  obtain ⟨-, heq⟩ | ⟨slot, -, hslot, heq⟩ := s.proc_create_ends pid ppid
  · rw [heq]
    exact h
  rw [heq]
  refine h.enter (proc_free_slot_used hslot) rfl ?_
  change (cstr "/").length < QOS_VFS_PATH_MAX
  decide +kernel

theorem Sized.fork (parent_pid child_pid : UInt32) :
    (s.proc_fork parent_pid child_pid).2.Sized := by
  obtain ⟨-, heq⟩ | ⟨parent, slot, -, -, hslot, heq⟩ := s.proc_fork_ends parent_pid child_pid
  · rw [heq]
    exact h
  rw [heq]
  exact h.enter (proc_free_slot_used hslot) rfl (h.cwd parent)

theorem Sized.exit (pid : UInt32) (code : Int32) : (s.proc_exit pid code).2.Sized := by
  unfold proc_exit
  split
  · exact h
  next i _ =>
  split
  · exact h
  exact h.change rfl (h.cwd i)

theorem Sized.remove (pid : UInt32) : (s.proc_remove pid).2.Sized := by
  unfold proc_remove
  split
  · exact h
  next hfind => exact h.leave (proc_find_used hfind)

theorem Sized.wait (parent_pid : UInt32) (pid : Int32) (options : UInt32) :
    (s.proc_wait_inner parent_pid pid options).2.Sized := by
  obtain ⟨rc, -, heq⟩ | ⟨child, hchild, heq⟩ := s.proc_wait_inner_ends parent_pid pid options
  · rw [heq]
    exact h
  rw [heq]
  exact h.leave (Family.Table.reaped_some hchild).1

theorem Sized.step (c : Family.Call) : (s.step c).Sized := by
  cases c with
  | create pid ppid => exact h.create pid ppid
  | fork parent_pid child_pid => exact h.fork parent_pid child_pid
  | exit pid code => exact h.exit pid code
  | remove pid => exact h.remove pid
  | wait parent_pid pid options => exact h.wait parent_pid pid options

/-! ### Signals and images -/
theorem Sized.signal_send (pid signum : UInt32) : (s.proc_signal_send pid signum).2.Sized := by
  unfold proc_signal_send
  split
  · exact h
  exact h.update pid fun _ => ⟨rfl, rfl⟩

theorem Sized.signal_set_mask (pid mask : UInt32) : (s.proc_signal_set_mask pid mask).2.Sized :=
  h.update pid fun _ => ⟨rfl, rfl⟩
end
theorem Process.signal_next_loop_alike (deliverable : UInt32) (l : List UInt32) (p : Process) :
    Process.Alike p (Process.signal_next_loop deliverable l p).2 := by
  induction l with
  | nil => exact ⟨rfl, rfl⟩
  | cons signum rest ih =>
  rw [Process.signal_next_loop]
  split
  · exact ⟨rfl, rfl⟩
  exact ih

theorem Process.signal_next_alike (p : Process) : Process.Alike p p.signal_next.2 := by
  unfold Process.signal_next
  split
  · exact ⟨rfl, rfl⟩
  split
  · exact ⟨rfl, rfl⟩
  exact Process.signal_next_loop_alike _ _ p

theorem Sized.signal_next (h : s.Sized) (pid : UInt32) : (s.proc_signal_next pid).2.Sized := by
  unfold proc_signal_next
  split
  · exact h
  next i _ =>
  have halike := Process.signal_next_alike (s.procs i)
  refine h.change halike.used ?_
  rw [halike.cwd]
  exact h.cwd i

theorem Sized.sigaction (h : s.Sized) (a0 a1 a2 : UInt64) : (s.sys_sigaction a0 a1 a2).2.Sized := by
  obtain heq | heq := s.sys_sigaction_state a0 a1 a2 <;> rw [heq]
  · exact h
  exact h.update _ fun _ => ⟨rfl, rfl⟩

theorem Sized.sigprocmask (h : s.Sized) (a0 a1 a2 : UInt64) :
    (s.sys_sigprocmask a0 a1 a2).2.Sized := by
  unfold sys_sigprocmask
  split
  · exact h
  split
  · exact h
  next mask _ =>
  have hset := h.signal_set_mask a0.toUInt32 mask
  split <;> (next heq => rw [heq] at hset; exact hset)

theorem Sized.exec_signal_reset (h : s.Sized) (pid : UInt32) :
    (s.proc_exec_signal_reset pid).2.Sized :=
  h.update pid fun _ => ⟨rfl, rfl⟩

theorem Sized.exec_image_set (h : s.Sized) (pid : UInt32) (image : CProc.ExecImage) :
    (s.proc_exec_image_set pid image).2.Sized :=
  h.update pid fun _ => ⟨rfl, rfl⟩

theorem Sized.exec (h : s.Sized) (a0 : UInt64) (path : Option (Option CProc.ExecImage)) :
    (s.sys_exec a0 path).2.Sized := by
  have hreset := h.exec_signal_reset a0.toUInt32
  match path with
  | none =>
    unfold sys_exec
    dsimp only
    split <;> (next heq => rw [heq] at hreset; exact hreset)
  | some none => exact h
  | some (some image) =>
    unfold sys_exec
    dsimp only
    split
    next heq =>
      rw [heq] at hreset
      exact hreset
    next heq =>
    rw [heq] at hreset
    have hset := Sized.exec_image_set hreset a0.toUInt32 image
    split <;> (next heq => rw [heq] at hset; exact hset)

/-- After any calls, the pids in use are distinct and the counter is exact. -/
theorem rust_process_table (calls : List Family.Call) :
    (calls.foldl step proc_reset).family.Ok ∧ (calls.foldl step proc_reset).proc_count.toNat =
      slotCount Process.used (calls.foldl step proc_reset).procs := by
  refine ⟨(kernel.family_run calls).1, Sized.count ?_⟩
  refine (System.reach_foldl _ step calls).invariant Sized sized_reset ?_
  rintro s c s' h - ⟨⟩
  exact h.step c
end ProcState
end QosKernel.RustProc
