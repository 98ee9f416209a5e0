import QosKernel.Exec.RustLibsKeep
import QosKernel.Proc.RustProcCount
import QosKernel.Syscall.RustMmap

/-! # The invariant of the Rust kernel behind its system calls

Every part of the state keeps its sizes: the tables of the system calls, the
libraries, the processes and the tasks. Each branch of the dispatcher that
is not known to trap returns and keeps the invariant, and only those that
send and receive data change the packet queue.
-/
open Framework Framework.Checked
namespace QosKernel
/-! ### Tasks -/
namespace RustSched
/-- The array is large enough, and the cursor is inside of it. -/
structure Sized (s : RustSched) : Prop where
  queue : s.queue.Ok
  count : s.queue.count ≤ QOS_SCHED_MAX_TASKS

variable {s : RustSched}
theorem sized_reset : sched_reset.Sized := ⟨TaskQueue.ok_empty, Nat.zero_le _⟩

theorem Sized.add_task (h : s.Sized) (pid : UInt32) : (s.sched_add_task pid).2.Sized := by
  refine ⟨ok_add_task h.queue pid, ?_⟩
  unfold sched_add_task
  split
  · exact h.count
  split
  · exact h.count
  split
  · exact h.count
  next hroom => exact Nat.lt_of_not_le hroom

theorem Sized.remove_task (h : s.Sized) (pid : UInt32) : (s.sched_remove_task pid).2.Sized := by
  refine ⟨ok_remove_task h.queue pid, ?_⟩
  unfold sched_remove_task
  split
  · exact h.count
  next i _ =>
  have hgap : (s.queue.close_gap i).count ≤ QOS_SCHED_MAX_TASKS :=
    Nat.le_trans (Nat.sub_le _ _) h.count
  dsimp only
  rw [TaskQueue.rust_cursor]
  split
  all_goals exact hgap

theorem Sized.next (h : s.Sized) : s.sched_next.2.Sized := by
  refine ⟨ok_next h.queue, ?_⟩
  unfold sched_next
  split
  all_goals exact h.count

theorem Sized.step (h : s.Sized) (c : SchedCall) : (s.step c).Sized := by
  cases c with
  | add_task pid => exact h.add_task pid
  | remove_task pid => exact h.remove_task pid
  | next => exact h.next
  | current => exact h

theorem Sized.cursor (h : s.Sized) : s.queue.count = 0 ∨ s.queue.cursor < QOS_SCHED_MAX_TASKS := by
  rcases h.queue.cursor with hlt | hzero
  · exact .inr (Nat.lt_of_lt_of_le hlt h.count)
  exact .inl hzero.1
end RustSched
namespace RustSys
open RustCalls RustKernel
/-! ### The invariant -/
structure Ok (s : RustSys) : Prop where
  tables : s.toKState.Sized
  libs : s.libs.Sized
  procs : s.procs.Sized
  sched : s.sched.Sized

theorem ok_reset : reset.Ok where
  tables := KState.sized_fresh Vfs.sized_reset (fun _ hd => absurd hd List.not_mem_nil)
    Udp.sized_reset
  libs := Libs.sized_reset
  procs := RustProc.ProcState.sized_reset
  sched := RustSched.sized_reset

/-- What a call leaves behind that does not send or receive data. -/
structure Next (s s' : RustSys) : Prop where
  ok : s'.Ok
  tables : s.toKState.TableStep s'.toKState

/-- The outcome, for the tables only. -/
def Outcome.onTables (o : Outcome) : QosKernel.Outcome := ⟨o.rc, o.out, o.state.toKState⟩

theorem Next.trans {s s' s'' : RustSys} (h : s.Next s') (h' : s'.Next s'') : s.Next s'' :=
  ⟨h'.ok, h.tables.trans h'.tables⟩

section branches
variable {k : KState} {x : Checked QosKernel.Outcome} {on : Bool} {r : List UInt8 × RustSys}
variable {env : Env} {i : FdNum} {s : RustSys} (h : s.Ok)
include h
theorem Ok.setTables (hk : k.Sized) : { s with toKState := k }.Ok := ⟨hk, h.libs, h.procs, h.sched⟩
theorem Ok.same : s.Next s := ⟨h, .refl _⟩

theorem Ok.step (hk : s.toKState.TableStep k) : s.Next { s with toKState := k } :=
  ⟨h.setTables (hk.sized h.tables), hk⟩

theorem Ok.setProcs {procs : RustProc.ProcState} (hp : procs.Sized) :
    s.Next { s with procs := procs } :=
  ⟨⟨h.tables, h.libs, hp, h.sched⟩, .refl _⟩

theorem Ok.setLibs {libs : Libs} (hl : libs.Sized) : s.Next { s with libs := libs } :=
  ⟨⟨h.tables, hl, h.procs, h.sched⟩, .refl _⟩

theorem Ok.setSched {sched : RustSched} (hs : sched.Sized) : s.Next { s with sched := sched } :=
  ⟨⟨h.tables, h.libs, h.procs, hs⟩, .refl _⟩

theorem Ok.setVmm (vmm : RustVmm.Vmm) : s.Next { s with vmm := vmm } :=
  ⟨⟨h.tables, h.libs, h.procs, h.sched⟩, .refl _⟩

theorem onTables_returns (hx : Returns x fun o => s.toKState.TableStep o.state) :
    Returns (s.onTables x) fun o => s.Next o.state :=
  hx.bind fun _ ho => returns_ok (h.step ho)

theorem onTables_quiet (hx : Returns x fun o => KState.QuietMove s.toKState o.state) :
    Returns (s.onTables x) fun o => s.Next o.state :=
  onTables_returns h (hx.mono fun _ => .quiet)

theorem onTables_puts {data : List UInt8}
    (hx : Returns x fun o => KState.Puts s.TableStep s.toKState on data o) :
    Returns (s.onTables x) fun o => o.state.Ok ∧
      KState.Puts s.TableStep s.toKState on data o.onTables :=
  hx.bind fun _ ho => returns_ok ⟨h.setTables (sized_puts h.tables ho), ho⟩

theorem onTables_takes {addr : UInt64} {len : Nat}
    (hx : Returns x fun o => KState.Takes s.TableStep s.toKState on addr len o) :
    Returns (s.onTables x) fun o => o.state.Ok ∧
      KState.Takes s.TableStep s.toKState on addr len o.onTables :=
  hx.bind fun _ ho => returns_ok ⟨h.setTables (sized_takes h.tables ho), ho⟩

/-! ### Paths -/
theorem proc_cwd_set_sized (pid : UInt32) (path : CStr) :
    (proc_cwd_set s.procs pid path).2.Sized := by
  unfold proc_cwd_set RustProc.Process.proc_cwd_set_idx
  split
  · exact h.procs
  split
  · exact h.procs
  next hset =>
  split at hset
  · cases hset
  next hshort =>
  cases hset
  simp only [Bool.or_eq_true, decide_eq_true_eq, not_or, Nat.not_le] at hshort
  exact h.procs.change rfl hshort.2

theorem op_chdir_returns (env : Env) (a0 a1 : UInt64) :
    Returns (s.op_chdir env a0 a1) fun o => s.Next o.state := by
  unfold op_chdir
  refine returns_guard h.same ?_
  split
  · exact returns_ok h.same
  next path _ =>
  rw [vfs_exists_eq h.tables.vfs path, ok_bind]
  refine returns_guard h.same ?_
  exact returns_ok (h.setProcs (proc_cwd_set_sized h _ path))

theorem op_getcwd_returns (a0 a1 a2 : UInt64) :
    Returns (s.op_getcwd a0 a1 a2) fun o => s.Next o.state := by
  unfold op_getcwd
  split
  · exact returns_ok h.same
  next cwd hcwd =>
  refine returns_guard h.same ?_
  refine returns_guard h.same ?_
  refine returns_guard h.same ?_
  have hlen : cwd.length < QOS_VFS_PATH_MAX := by
    unfold RustProc.ProcState.query at hcwd
    obtain ⟨i, -, rfl⟩ := Option.map_eq_some_iff.mp hcwd
    exact h.procs.cwd i
  exact (returns_slice (Nat.zero_le _) hlen).bind fun _ _ => returns_ok h.same

/-! ### Texts below `/proc` -/
theorem kthread_name_get_next {tid : UInt32} {out : Nat} {r : Option CStr × RustSys}
    (hr : s.kthread_name_get tid out = .ok r) : s.Next r.2 := by
  unfold kthread_name_get at hr
  split at hr
  · cases hr
    exact h.same
  split at hr
  · cases hr
  split at hr
  · cases hr
    exact ⟨⟨h.tables, h.libs, h.procs, h.sched⟩, .refl _⟩
  cases hr
  exact h.same

theorem render_runtime_map_next (hr : s.render_runtime_map = .ok r) : s.Next r.2 := by
  unfold render_runtime_map at hr
  obtain ⟨tid, -, hr⟩ := bind_eq_ok hr
  dsimp only at hr
  split at hr
  · rw [← Except.ok.inj hr]
    exact h.same
  obtain ⟨thread, hname, hr⟩ := bind_eq_ok hr
  rw [← Except.ok.inj hr]
  exact kthread_name_get_next h hname

theorem syscall_proc_render_next (hr : s.syscall_proc_render env i = .ok r) : s.Next r.2 := by
  unfold syscall_proc_render at hr
  dsimp only at hr
  split at hr
  · cases hr
    exact h.same
  split at hr
  case h_6 => exact render_runtime_map_next h hr
  all_goals cases hr
  all_goals exact h.same

theorem Ok.setOffset (i : FdNum) (offset : Nat) : s.Next (s.setOffset i offset) :=
  h.step (.quiet (.setFd_same rfl rfl))

theorem read_proc_returns (hr : s.syscall_proc_render env i = .ok r) (addr : UInt64) (len : Nat) :
    Returns (s.read_proc env i addr len) fun o => s.Next o.state := by
  have hnext := syscall_proc_render_next h hr
  unfold read_proc
  dsimp only
  rw [hr, ok_bind]
  refine returns_guard hnext ?_
  refine returns_guard hnext ?_
  exact returns_ok (hnext.trans (hnext.ok.setOffset i _))

/-! ### Processes and tasks -/
theorem op_yield_returns : Returns s.op_yield fun o => s.Next o.state := by
  unfold op_yield sched_next
  rw [ensure_of h.sched.cursor]
  exact returns_ok (h.setSched h.sched.next)

theorem proc_fork_returns (parent_pid child_pid : UInt32) :
    Returns (proc_fork s.procs parent_pid child_pid) fun r => r.2.Sized := by
  unfold proc_fork
  dsimp only
  rw [ensure_of fun _ => h.procs.count_lt]
  exact returns_ok (h.procs.fork parent_pid child_pid)

theorem op_waitpid_returns (a0 a1 a2 a3 : UInt64) :
    Returns (s.op_waitpid a0 a1 a2 a3) fun o => s.Next o.state := by
  have hwait : Returns (proc_wait_status s.procs a0.toUInt32 a1.toUInt32.toInt32 a3.toUInt32)
      fun r => r.2.Sized := by
    unfold proc_wait_status RustProc.ProcState.proc_wait_status
    dsimp only
    rw [ensure_of]
    · exact returns_ok (h.procs.wait _ _ _)
    intro hremoved
    obtain ⟨rc, -, heq⟩ | ⟨child, hchild, -⟩ :=
      s.procs.proc_wait_inner_ends a0.toUInt32 a1.toUInt32.toInt32 a3.toUInt32
    · rw [heq] at hremoved
      cases hremoved
    exact h.procs.one_le_count (Family.Table.reaped_some hchild).1
  exact hwait.bind fun r hr => returns_ok (h.setProcs hr)

theorem sys_sigaltstack_sized (a0 a1 a2 a3 : UInt64) :
    (sys_sigaltstack s.procs a0 a1 a2 a3).2.Sized := by
  unfold sys_sigaltstack
  split
  · exact h.procs
  split
  · have hset := h.procs.update a0.toUInt32
      (f := fun p => { p with sig_altstack := ⟨a1, a2, a3.toUInt32⟩ }) fun _ => ⟨rfl, rfl⟩
    split <;> (next heq => rw [heq] at hset; exact hset)
  exact h.procs

theorem sys_sigsuspend_sized (a0 a1 : UInt64) : (sys_sigsuspend s.procs a0 a1).2.Sized := by
  unfold sys_sigsuspend
  split
  · exact h.procs
  next old _ =>
  have hset := h.procs.signal_set_mask a0.toUInt32 a1.toUInt32
  split
  next heq =>
    rw [heq] at hset
    exact hset
  next heq =>
  rw [heq] at hset
  -- a signal is taken, and the old mask is put back
  have hback := (RustProc.ProcState.Sized.signal_next hset a0.toUInt32).signal_set_mask
    a0.toUInt32 old
  dsimp only
  split <;> (next heq' => rw [heq'] at hback; exact hback)

/-! ### Images and libraries -/
theorem exec_image_returns (path : CStr) : Returns (exec_image s.toKState path) fun _ => True := by
  unfold exec_image
  rw [syscall_file_find_eq h.tables, ok_bind]
  split
  · exact returns_ok trivial
  next f _ =>
  dsimp only
  refine returns_guard trivial ?_
  rw [slice_of (Nat.zero_le _) (h.tables.files f).len, ok_bind]
  exact parse_exec_returns _

section
variable (env : Env)
theorem op_exec_returns (a0 a1 : UInt64) :
    Returns (s.op_exec env a0 a1) fun o => s.Next o.state := by
  have hend : ∀ path, Returns (pure (s.onProcs ((s.procs.sys_exec a0 path).1.toInt,
      (s.procs.sys_exec a0 path).2)) : Checked Outcome) fun o => s.Next o.state :=
    fun path => returns_ok (h.setProcs (h.procs.exec a0 path))
  unfold op_exec
  refine returns_ite (fun _ => hend none) fun _ => ?_
  split
  · exact hend (some none)
  exact (exec_image_returns h _).bind fun image _ => hend (some (image.map ExecImage.recorded))

theorem op_dlopen_returns (a0 : UInt64) :
    Returns (s.op_dlopen env a0) fun o => s.Next o.state := by
  unfold op_dlopen
  refine returns_guard h.same ?_
  split
  · exact returns_ok h.same
  exact (shlib_load_returns h.tables h.libs _ false).bind fun r hr => returns_ok (h.setLibs hr)

theorem op_modload_returns (a0 : UInt64) :
    Returns (s.op_modload env a0) fun o => s.Next o.state := by
  unfold op_modload
  refine returns_guard h.same ?_
  split
  · exact returns_ok h.same
  exact (module_load_returns h.tables h.libs _).bind fun r hr => returns_ok (h.setLibs hr)
end
theorem op_modreload_returns (a0 : UInt64) : Returns (s.op_modreload a0) fun o => s.Next o.state :=
  (module_reload_returns h.tables h.libs _).bind fun _ hr => returns_ok (h.setLibs hr)

theorem op_dlsym_next (env : Env) (a0 a1 : UInt64) : s.Next (s.op_dlsym env a0 a1).state := by
  unfold op_dlsym
  split
  · exact h.same
  split
  all_goals exact h.same
end branches
end RustSys
end QosKernel
