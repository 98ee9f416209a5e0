import QosKernel.Syscall.RustInvariant

/-! # Which Rust system calls return

In every state that the kernel can reach, a system call returns unless it is
one of a few: a sum that does not fit, the path `/proc/status`, a text that
needs a lock which is already taken, and memory up to the end of the address
space. These never return.
-/
open Framework Framework.Checked
namespace QosKernel
namespace RustCalls
variable {path : CStr} {α : Type}
/-! ### The path without a process id -/
/-- A path that starts with `/proc/` and ends with `/status`, and is too short
for both. -/
theorem eq_proc_status (hpre : cstr "/proc/" <+: path) (hsuf : cstr "/status" <:+ path)
    (hlen : path.length - 7 < 6) : path = cstr "/proc/status" := by
  have hproc : cstr "/proc/" = [47, 112, 114, 111, 99, 47] := by decide +kernel
  have hstatus : cstr "/status" = [47, 115, 116, 97, 116, 117, 115] := by decide +kernel
  have hpath : cstr "/proc/status" = [47, 112, 114, 111, 99, 47, 115, 116, 97, 116, 117, 115] := by
    decide +kernel
  have hcut : ∀ n < 6, ([47, 112, 114, 111, 99, 47] : CStr) <+:
      [47, 112, 114, 111, 99, 47].take n ++ [47, 115, 116, 97, 116, 117, 115] →
      ([47, 112, 114, 111, 99, 47].take n ++ [47, 115, 116, 97, 116, 117, 115] : CStr) =
        [47, 112, 114, 111, 99, 47, 115, 116, 97, 116, 117, 115] := by
    decide +kernel
  rw [hproc] at hpre
  rw [hstatus] at hsuf
  obtain ⟨front, rfl⟩ := hsuf
  have hshort : front.length < 6 := by simpa using hlen
  -- what stands before `/status` is a part of `/proc/`
  have hfront : front <+: [47, 112, 114, 111, 99, 47] :=
    List.prefix_of_prefix_length_le (List.prefix_append _ _) hpre (Nat.le_of_lt hshort)
  rw [List.prefix_iff_eq_take] at hfront
  rw [hfront] at hpre ⊢
  rw [hcut _ hshort hpre, hpath]

/-- The code returns a value, whatever the state is, and leaves it alone. -/
def Answers {α : Type} (m : RustKernel.RustM α) : Prop := ∃ a, ∀ st, m.run st = .ret a st
theorem answers_pure (a : α) : Answers (pure a) := ⟨a, fun _ => rfl⟩

theorem answers_ite {p : Prop} [Decidable p] {x y : RustKernel.RustM α} (hx : p → Answers x)
    (hy : ¬p → Answers y) : Answers (if p then x else y) := by
  split
  · exact hx ‹_›
  exact hy ‹_›

theorem proc_path_kind_answers (hne : path ≠ cstr "/proc/status") :
    Answers (RustKernel.syscall_proc_path_kind path) := by
  unfold RustKernel.syscall_proc_path_kind
  -- the fixed paths
  iterate 6 refine answers_ite (fun _ => answers_pure _) fun _ => ?_
  refine answers_ite (fun _ => answers_pure _) fun hends => ?_
  rw [Bool.or_eq_true, not_or, Bool.not_eq_true', Bool.not_eq_false, Bool.not_eq_true',
    Bool.not_eq_false, List.isPrefixOf_iff_prefix, List.isSuffixOf_iff_suffix] at hends
  refine answers_ite (fun hlen => absurd (eq_proc_status hends.1 hends.2 hlen) hne) fun _ => ?_
  refine answers_ite (fun _ => answers_pure _) fun _ => ?_
  split
  all_goals exact answers_pure _

theorem proc_path_kind_returns (hne : path ≠ cstr "/proc/status") :
    Returns (syscall_proc_path_kind path) fun _ => True := by
  obtain ⟨answer, hrun⟩ := proc_path_kind_answers hne
  unfold syscall_proc_path_kind RustFiles.procPathKind
  rw [hrun]
  exact returns_ok trivial

theorem proc_path_kind_error : syscall_proc_path_kind (cstr "/proc/status") = .error .bounds := by
  decide +kernel
end RustCalls
theorem CTcp.call_keeps (s : Net) (c : TcpCall) :
    s.Keeps (CTcp.call s c).2 ∧ (CTcp.call s c).2.udp = s.udp := by
  cases c with
  | listen port =>
    change s.Keeps (qos_net_tcp_listen s port).2 ∧ (qos_net_tcp_listen s port).2.udp = _
    unfold qos_net_tcp_listen
    split
    · exact ⟨.refl s, rfl⟩
    next hl =>
    obtain ⟨-, -, rfl⟩ := Net.qos_net_tcp_listen_some hl
    exact ⟨⟨rfl, fun _ hc => hc⟩, rfl⟩
  | unlisten port =>
    refine ⟨s.keeps_unlisten port, ?_⟩
    change (s.qos_net_tcp_unlisten port).2.udp = _
    unfold Net.qos_net_tcp_unlisten
    split <;> rfl
  | connect local_port remote_ip remote_port =>
    change s.Keeps (qos_net_tcp_connect s local_port remote_ip remote_port).2 ∧
      (qos_net_tcp_connect s local_port remote_ip remote_port).2.udp = _
    unfold qos_net_tcp_connect
    split
    · exact ⟨.refl s, rfl⟩
    next hc =>
    obtain ⟨-, -, rfl⟩ := Net.qos_net_tcp_connect_some hc
    exact ⟨Net.keeps_setConn fun _ => rfl, rfl⟩
  | step conn_id event =>
  change s.Keeps (qos_net_tcp_step s conn_id.toNat event).2 ∧
    (qos_net_tcp_step s conn_id.toNat event).2.udp = _
  unfold qos_net_tcp_step
  split
  · dsimp only
    split
    · exact ⟨.refl s, rfl⟩
    split
    · exact ⟨.refl s, rfl⟩
    next hevent =>
    refine ⟨Net.keeps_setConn fun hused => ?_, rfl⟩
    rw [tcp_event_used hevent]
    exact hused
  exact ⟨.refl s, rfl⟩

namespace RustSys
open RustCalls
/-! ### The calls that do not return -/
/-- The argument is the path `/proc/status`, and it is not in the registry. -/
def StatusPath (env : Env) (s : RustSys) (a0 : UInt64) : Prop :=
  a0 ≠ 0 ∧ env.str a0 = some (cstr "/proc/status") ∧
    s.vfs.qos_vfs_exists (cstr "/proc/status") = false

/-- The text of a row needs a lock that is taken. -/
def Locked (s : RustSys) (i : FdNum) : Prop :=
  (s.fds i).kind = .proc ∧
    ((s.fds i).proc_kind = .kernelStatus ∨ (s.fds i).proc_kind = .syscalls ∨
      (s.fds i).proc_kind = .runtimeMap ∧ s.kthread_held = true)

section
variable (env : Env) (s : RustSys)
/-- The operations that do not return, with their arguments. -/
def Traps (op : SyscallOp) (a0 a1 a2 : UInt64) : Prop :=
  match op with
  | .add => 2 ^ 64 ≤ a0.toNat + a1.toNat
  | .open | .stat => s.StatusPath env a0
  | .read => a1 ≠ 0 ∧ ∃ i, s.openFd a0.toUInt32 = some i ∧ s.Locked i
  | .lseek => a2.toUInt32 = 2 ∧ ∃ i, s.openFd a0.toUInt32 = some i ∧ s.Locked i
  | .mmap => MmapRunsOut s.vmm a0 a1 a2
  | .munmap => MunmapRunsOut s.vmm a0 a1
  | _ => False

def DispatchTraps (nr : UInt32) (a0 a1 a2 : UInt64) : Prop :=
  ∃ op value, s.registered nr = some (op, value) ∧ s.Traps env op a0 a1 a2
end
section calls
variable {i : FdNum} {op : SyscallOp} {a3 : UInt64} {nr : UInt32} {s' : RustSys}
variable {c : RustCall} {s : RustSys} (h : s.Ok) {env : Env} {a0 a1 a2 : UInt64}
/-! ### Sums -/
theorem op_add_error (ht : 2 ^ 64 ≤ a0.toNat + a1.toNat) : s.op_add a0 a1 = .error .overflow := by
  rw [op_add, add_of_not (Nat.not_lt_of_le ht)]
  rfl

include h
theorem op_add_returns (ht : ¬2 ^ 64 ≤ a0.toNat + a1.toNat) :
    Returns (s.op_add a0 a1) fun o => s.Next o.state := by
  rw [op_add, add_of (Nat.lt_of_not_le ht)]
  exact returns_ok h.same

/-! ### Paths -/
theorem op_open_error (ht : s.StatusPath env a0) :
    op_open env.toUserMem s.alive s.toKState a0 = .error .bounds := by
  obtain ⟨hnull, hstr, hmissing⟩ := ht
  unfold op_open
  rw [if_neg (by simpa using hnull), hstr]
  dsimp only
  rw [vfs_exists_eq h.tables.vfs, ok_bind, hmissing, if_neg Bool.false_ne_true, open_proc,
    proc_path_kind_error]
  rfl

theorem op_open_returns (ht : ¬s.StatusPath env a0) :
    Returns (op_open env.toUserMem s.alive s.toKState a0) fun o => s.TableStep o.state := by
  unfold op_open
  refine returns_ite (fun _ => returns_ok (.refl _)) fun hnull => ?_
  split
  · exact returns_ok (.refl _)
  next path hstr =>
  rw [vfs_exists_eq h.tables.vfs, ok_bind]
  refine returns_ite (open_file_returns h.tables) fun hmissing => ?_
  have hne : path ≠ cstr "/proc/status" := by
    rintro rfl
    exact ht ⟨by simpa using hnull, hstr, by simpa using hmissing⟩
  -- the path has an answer, and the rest does not check anything
  obtain ⟨kind, hkind, -⟩ := proc_path_kind_returns hne
  have hret : ∃ o, open_proc s.alive s.toKState path = .ok o := by
    unfold open_proc
    rw [hkind, ok_bind]
    split
    · exact ⟨_, rfl⟩
    split
    · exact ⟨_, rfl⟩
    split
    all_goals exact ⟨_, rfl⟩
  obtain ⟨o, ho⟩ := hret
  exact ⟨o, ho, .quiet (open_proc_quiet ho)⟩

theorem op_stat_error (ht : s.StatusPath env a0) :
    op_stat env.toUserMem s.alive s.toKState a0 a1 = .error .bounds := by
  obtain ⟨hnull, hstr, hmissing⟩ := ht
  unfold op_stat
  rw [if_neg (by simpa using hnull), hstr]
  dsimp only
  rw [vfs_exists_eq h.tables.vfs, ok_bind, hmissing, if_neg Bool.false_ne_true,
    proc_path_kind_error]
  rfl

theorem op_stat_returns (ht : ¬s.StatusPath env a0) :
    Returns (op_stat env.toUserMem s.alive s.toKState a0 a1) fun o => s.TableStep o.state := by
  unfold op_stat
  refine returns_ite (fun _ => returns_ok (.refl _)) fun hnull => ?_
  split
  · exact returns_ok (.refl _)
  next path hstr =>
  rw [vfs_exists_eq h.tables.vfs, ok_bind]
  refine returns_ite (fun _ => returns_ok (.refl _)) fun hmissing => ?_
  have hne : path ≠ cstr "/proc/status" := by
    rintro rfl
    exact ht ⟨by simpa using hnull, hstr, by simpa using hmissing⟩
  refine (proc_path_kind_returns hne).bind fun kind _ => ?_
  split
  · exact returns_ok (.refl _)
  exact returns_ite (fun _ => returns_ok (.refl _)) fun _ => returns_ok (.refl _)

/-! ### Texts -/
omit h in
theorem render_error (ht : s.Locked i) : s.syscall_proc_render env i = .error .spin := by
  obtain ⟨hkind, hlocked⟩ := ht
  unfold syscall_proc_render
  dsimp only
  rw [if_neg (not_not_intro hkind)]
  rcases hlocked with hk | hk | ⟨hk, hheld⟩
  · rw [hk]
  · rw [hk]
  rw [hk]
  dsimp only
  rw [render_runtime_map, kthread_current_tid, hheld, if_pos rfl]
  rfl

omit h in
theorem render_runtime_map_returns (hheld : s.kthread_held = false) :
    Returns s.render_runtime_map fun _ => True := by
  unfold render_runtime_map kthread_current_tid kthread_name_get
  rw [hheld, if_neg Bool.false_ne_true, ok_bind]
  refine returns_guard trivial ?_
  rw [if_neg (by decide), if_neg Bool.false_ne_true]
  split
  all_goals exact returns_ok trivial

omit h in
theorem render_returns (env : Env) (ht : ¬s.Locked i) :
    Returns (s.syscall_proc_render env i) fun _ => True := by
  unfold syscall_proc_render
  refine returns_ite (fun _ => returns_ok trivial) fun hkind => ?_
  rw [not_not] at hkind
  split
  case h_2 hk => exact absurd ⟨hkind, .inl hk⟩ ht
  case h_3 hk => exact absurd ⟨hkind, .inr (.inl hk)⟩ ht
  case h_6 hk =>
    refine render_runtime_map_returns (Bool.not_eq_true _ ▸ fun hheld => ht ?_)
    exact ⟨hkind, .inr (.inr ⟨hk, hheld⟩)⟩
  all_goals exact returns_ok trivial

omit h in
theorem op_read_error (hbuf : a1 ≠ 0) (hi : s.openFd a0.toUInt32 = some i) (ht : s.Locked i) :
    s.op_read env a0 a1 a2 = .error .spin := by
  unfold op_read
  rw [hi]
  dsimp only
  rw [if_neg (by simpa using hbuf), if_pos ht.1, read_proc, render_error ht]
  rfl

theorem op_read_returns (ht : ¬(a1 ≠ 0 ∧ ∃ i, s.openFd a0.toUInt32 = some i ∧ s.Locked i)) :
    Returns (s.op_read env a0 a1 a2) fun o => o.state.Ok ∧
      KState.Takes s.TableStep s.toKState (s.row a0).onPackets a1 a2.toNat o.onTables := by
  have hfail : Returns (.ok (.fail s)) fun o : Outcome => o.state.Ok ∧
      KState.Takes s.TableStep s.toKState (s.row a0).onPackets a1 a2.toNat o.onTables :=
    returns_ok ⟨h, .fail (.refl _)⟩
  unfold op_read
  split
  · exact hfail
  next i hi =>
  refine returns_ite (fun _ => hfail) fun hbuf => ?_
  rw [KState.row_of_openFd hi]
  refine returns_ite (fun hk => ?_) fun _ => onTables_takes h (read_data_returns h.tables i a1 _)
  have hfree : ¬s.Locked i := fun hl => ht ⟨by simpa using hbuf, i, hi, hl⟩
  obtain ⟨r, hr, -⟩ := render_returns env hfree
  have hoff : (s.fds i).onPackets = false := Fd.onPackets_kind (by simp [hk])
  exact (read_proc_returns h hr a1 _).mono fun o ho => ⟨ho.ok, .off hoff ho.tables⟩

omit h in
theorem op_lseek_error (hend : a2.toUInt32 = 2) (hi : s.openFd a0.toUInt32 = some i)
    (ht : s.Locked i) : s.op_lseek env a0 a1 a2 = .error .spin := by
  unfold op_lseek
  rw [hi]
  dsimp only
  rw [if_neg fun hk => hk.2 ht.1, if_pos ⟨hend, ht.1⟩, render_error ht]
  rfl

theorem op_lseek_returns
    (ht : ¬(a2.toUInt32 = 2 ∧ ∃ i, s.openFd a0.toUInt32 = some i ∧ s.Locked i)) :
    Returns (s.op_lseek env a0 a1 a2) fun o => s.Next o.state := by
  unfold op_lseek
  split
  · exact returns_ok h.same
  next i hi =>
  refine returns_guard h.same ?_
  refine returns_ite (fun hend => ?_) fun _ =>
    onTables_quiet h (returns_ok (seek_to_quiet s.toKState i _ _))
  have hfree : ¬s.Locked i := fun hl => ht ⟨hend.1, i, hi, hl⟩
  obtain ⟨r, hr, -⟩ := render_returns env hfree
  rw [hr, ok_bind]
  have hnext := syscall_proc_render_next h hr
  exact (onTables_quiet hnext.ok (returns_ok (seek_to_quiet r.2.toKState i _ _))).mono
    fun o ho => hnext.trans ho

/-! ### The dispatcher -/
theorem syscall_op_error {value : Int} (ht : s.Traps env op a0 a1 a2) :
    ∃ trap, s.syscall_op env op value a0 a1 a2 a3 = .error trap := by
  cases op
  case add => exact ⟨_, op_add_error ht⟩
  case «open» =>
    refine ⟨.bounds, ?_⟩
    rw [syscall_op, op_open_error h ht]
    rfl
  case stat =>
    refine ⟨.bounds, ?_⟩
    rw [syscall_op, op_stat_error h ht]
    rfl
  case read =>
    obtain ⟨hbuf, i, hi, hl⟩ := ht
    exact ⟨_, op_read_error hbuf hi hl⟩
  case lseek =>
    obtain ⟨hend, i, hi, hl⟩ := ht
    exact ⟨_, op_lseek_error hend hi hl⟩
  case mmap => exact ⟨_, op_mmap_error ht⟩
  case munmap => exact ⟨_, op_munmap_error ht⟩
  all_goals exact ht.elim

/-- The operations that send or receive data. -/
def movesData : SyscallOp → Bool
  | .read | .write | .send | .recv => true
  | _ => false

theorem other_returns (hop : movesData op = false) (value : Int) (a3 : UInt64)
    (ht : ¬s.Traps env op a0 a1 a2) :
    Returns (s.syscall_op env op value a0 a1 a2 a3) fun o => s.Next o.state := by
  cases op with
  | read | write | send | recv => cases hop
  | const => exact returns_ok h.same
  | add => exact op_add_returns h ht
  | query => exact returns_ok h.same
  | «open» => exact onTables_returns h (op_open_returns h ht)
  | close => exact onTables_quiet h (op_close_returns h.tables a0)
  | dup2 => exact onTables_quiet h (op_dup2_returns h.tables a0 a1)
  | mmap =>
    refine (op_mmap_returns ht).mono fun o ho => ?_
    obtain ⟨vmm, heq⟩ := ho
    rw [heq]
    exact h.setVmm vmm
  | munmap =>
    refine (op_munmap_returns ht).mono fun o ho => ?_
    obtain ⟨vmm, heq⟩ := ho
    rw [heq]
    exact h.setVmm vmm
  | yield => exact op_yield_returns h
  | sleep => exact returns_ok h.same
  | socket => exact onTables_quiet h (returns_ok (op_socket_quiet _ a0 a1))
  | bind => exact onTables_quiet h (returns_ok (op_bind_quiet _ _ a0 a1 a2))
  | listen => exact onTables_quiet h (returns_ok (op_listen_quiet _ a0 a1))
  | accept => exact onTables_quiet h (op_accept_returns h.tables _ a0 a1 a2)
  | connect => exact onTables_quiet h (returns_ok (op_connect_quiet _ _ a0 a1 a2))
  | getdents =>
    refine onTables_returns h (returns_ok ?_)
    rw [op_getdents_state]
    exact .refl _
  | lseek => exact op_lseek_returns h ht
  | pipe => exact onTables_returns h (op_pipe_returns h.tables a0)
  | kill => exact returns_ok (h.setProcs (h.procs.signal_send _ _))
  | sigpending => exact returns_ok h.same
  | sigaction => exact returns_ok (h.setProcs (h.procs.sigaction a0 a1 a2))
  | sigprocmask => exact returns_ok (h.setProcs (h.procs.sigprocmask a0 a1 a2))
  | sigaltstack => exact returns_ok (h.setProcs (sys_sigaltstack_sized h a0 a1 a2 a3))
  | sigsuspend => exact returns_ok (h.setProcs (sys_sigsuspend_sized h a0 a1))
  | fork => exact (proc_fork_returns h _ _).bind fun r hr => returns_ok (h.setProcs hr)
  | exec => exact op_exec_returns h env a0 a1
  | dlopen => exact op_dlopen_returns h env a0
  | dlclose => exact returns_ok (h.setLibs (h.libs.release _))
  | dlsym => exact returns_ok (op_dlsym_next h env a0 a1)
  | modload => exact op_modload_returns h env a0
  | modunload => exact returns_ok (h.setLibs (h.libs.unload _))
  | modreload => exact op_modreload_returns h a0
  | exit => exact returns_ok (h.setProcs (h.procs.exit _ _))
  | getpid => exact returns_ok h.same
  | waitpid => exact op_waitpid_returns h a0 a1 a2 a3
  | stat => exact onTables_returns h (op_stat_returns h ht)
  | mkdir => exact onTables_returns h (op_mkdir_returns h.tables _ a0)
  | unlink => exact onTables_returns h (op_unlink_returns h.tables _ a0)
  | chdir => exact op_chdir_returns h env a0 a1
  | getcwd => exact op_getcwd_returns h a0 a1 a2
  | sigreturn => exact returns_ok (h.setProcs (h.procs.signal_set_mask _ _))

/-- A system call that does not trap returns, keeps the invariant, and changes
the packet queue only if it sends or receives data on a local stream. -/
theorem syscall_op_returns (value : Int) (a3 : UInt64) (ht : ¬s.Traps env op a0 a1 a2) :
    Returns (s.syscall_op env op value a0 a1 a2 a3) fun o => o.state.Ok ∧
      KState.Moves s.TableStep s.toKState op (env.bytes a1 a2.toNat) a0 a1 o.onTables := by
  have hquiet : ∀ o, KState.QuietMove s.toKState o → s.TableStep o := fun _ => .quiet
  have hlen : (env.bytes a1 a2.toNat).length = a2.toNat := by
    rw [RustKernel.UserMem.bytes, List.length_map, List.length_range]
  cases op
  case read =>
    unfold KState.Moves
    rw [hlen]
    exact op_read_returns h ht
  case write => exact onTables_puts h (op_write_returns h.tables _ a0 a1 a2)
  case send => exact onTables_puts h (returns_ok ((op_send_puts _ _ a0 a1 a2 a3).mono hquiet))
  case recv =>
    unfold KState.Moves
    rw [hlen]
    exact onTables_takes h ((op_recv_returns h.tables a0 a1 a2 a3).mono fun o ho => ho.mono hquiet)
  all_goals exact (other_returns h rfl value a3 ht).mono fun o ho => ⟨ho.ok, ho.tables⟩

theorem dispatch_error (ht : s.DispatchTraps env nr a0 a1 a2) :
    ∃ trap, s.syscall_dispatch env nr a0 a1 a2 a3 = .error trap := by
  obtain ⟨op, value, hreg, ht⟩ := ht
  unfold syscall_dispatch
  rw [hreg]
  exact syscall_op_error h ht

/-- What a system call does, whatever number it has. -/
def DispatchMoves (s : RustSys) (env : Env) (nr : UInt32) (a0 a1 a2 : UInt64) (o : Outcome) :
    Prop :=
  match s.registered nr with
  | none => o = .fail s
  | some (op, _) => KState.Moves s.TableStep s.toKState op (env.bytes a1 a2.toNat) a0 a1 o.onTables

theorem dispatch_returns (a3 : UInt64) (ht : ¬s.DispatchTraps env nr a0 a1 a2) :
    Returns (s.syscall_dispatch env nr a0 a1 a2 a3) fun o => o.state.Ok ∧
      s.DispatchMoves env nr a0 a1 a2 o := by
  unfold syscall_dispatch DispatchMoves
  cases hreg : s.registered nr with
  | none => exact returns_ok ⟨h, rfl⟩
  | some entry =>
  obtain ⟨op, value⟩ := entry
  exact syscall_op_returns h value a3 fun htr => ht ⟨op, value, hreg, htr⟩

theorem dispatch_moves {o : Outcome} (ho : s.syscall_dispatch env nr a0 a1 a2 a3 = .ok o) :
    o.state.Ok ∧ s.DispatchMoves env nr a0 a1 a2 o := by
  by_cases ht : s.DispatchTraps env nr a0 a1 a2
  · have herror : ∃ trap, s.syscall_dispatch env nr a0 a1 a2 a3 = .error trap := dispatch_error h ht
    obtain ⟨trap, hend⟩ := herror
    rw [hend] at ho
    cases ho
  exact (dispatch_returns h a3 ht).of_eq_ok ho

/-! ### Runs -/
omit h in
theorem call_dispatch (hs : s.call (.dispatch env nr a0 a1 a2 a3) = some s') :
    ∃ o, s.syscall_dispatch env nr a0 a1 a2 a3 = .ok o ∧ o.state = s' := by
  cases ho : s.syscall_dispatch env nr a0 a1 a2 a3 with
  | error trap =>
    rw [call, ho] at hs
    cases hs
  | ok o =>
  rw [call, ho] at hs
  exact ⟨o, rfl, Option.some.inj hs⟩

omit h in
theorem register_quiet (s : KState) (nr op : UInt32) (value : Int) :
    s.QuietMove (s.qos_syscall_register nr op value).2 := by
  unfold KState.qos_syscall_register
  split
  · split
    · exact .refl _
    split
    · exact .refl _
    exact .of_eq rfl rfl rfl (.refl _) id id
  exact .refl _

omit h in
theorem unregister_quiet (s : KState) (nr : UInt32) :
    s.QuietMove (s.qos_syscall_unregister nr).2 := by
  unfold KState.qos_syscall_unregister
  split
  · split
    · exact .refl _
    exact .of_eq rfl rfl rfl (.refl _) id id
  exact .refl _

theorem onKthreads_next {kthread : RustKernel.KthreadState} (hs : s.onKthreads kthread = some s') :
    s.Next s' := by
  unfold onKthreads at hs
  split at hs
  · cases hs
  cases hs
  exact ⟨⟨h.tables, h.libs, h.procs, h.sched⟩, .refl _⟩

/-- The functions of the kernel that write files, paths or packets without a
system call. -/
def writesTables : RustCall → Bool
  | .dispatch .. | .syscall_reset | .vfs_remove _ | .vfs_reset | .net_enqueue_packet _
  | .net_dequeue_packet _ | .net_reset => true
  | _ => false

theorem other_call (hc : writesTables c = false) (hs : s.call c = some s') : s.Next s' := by
  cases c with
  | dispatch env nr a0 a1 a2 a3 | syscall_reset | vfs_remove path | vfs_reset
  | net_enqueue_packet data | net_dequeue_packet out | net_reset => cases hc
  | register nr op value =>
    cases hs
    exact h.step (.quiet (register_quiet _ nr op value))
  | unregister nr =>
    cases hs
    exact h.step (.quiet (unregister_quiet _ nr))
  | vfs_create path =>
    rw [RustSys.call, vfs_create_eq h.tables.vfs] at hs
    cases hs
    exact h.step (create_step path)
  | udp c =>
    cases hs
    exact h.step (.quiet (.udpMove (RustUdp.call_move s.net.udp c)))
  | tcp c =>
    cases hs
    obtain ⟨hkeeps, hudp⟩ := CTcp.call_keeps s.net c
    refine h.step (.quiet (.net hkeeps fun hsized => ?_))
    rw [hudp]
    exact hsized
  | proc c =>
    cases hs
    exact h.setProcs (h.procs.step c)
  | proc_cwd_set pid path =>
    cases hs
    exact h.setProcs (proc_cwd_set_sized h pid path)
  | proc_reset =>
    cases hs
    exact h.setProcs RustProc.ProcState.sized_reset
  | sched c =>
    cases hs
    exact h.setSched (h.sched.step c)
  | sched_reset =>
    cases hs
    exact h.setSched RustSched.sized_reset
  | vmm_map_as asid va pa flags | vmm_unmap_as asid va | vmm_set_asid asid | vmm_reset =>
    cases hs
    exact h.setVmm _
  | kthread_create entry arg => exact onKthreads_next h hs
  | kthread_set_runnable tid runnable => exact onKthreads_next h hs
  | kthread_run_next => exact onKthreads_next h hs
  | kthread_name_get tid out =>
    cases hname : s.kthread_name_get tid out with
    | error trap =>
      rw [RustSys.call, hname] at hs
      cases hs
    | ok r =>
    rw [RustSys.call, hname] at hs
    cases hs
    exact kthread_name_get_next h hname
  | kthread_reset => exact onKthreads_next h hs

theorem Ok.call (hs : s.call c = some s') : s'.Ok := by
  cases c
  case dispatch env nr a0 a1 a2 a3 =>
    obtain ⟨o, ho, rfl⟩ := call_dispatch hs
    exact (dispatch_moves h ho).1
  case syscall_reset =>
    cases hs
    refine ⟨KState.sized_fresh h.tables.vfs h.tables.packets h.tables.udp, ?_, h.procs, h.sched⟩
    exact Libs.sized_reset
  case vfs_remove path =>
    rw [RustSys.call, vfs_remove_eq h.tables.vfs] at hs
    cases hs
    exact h.setTables (sized_setVfs h.tables (h.tables.vfs.remove path))
  case vfs_reset =>
    cases hs
    exact h.setTables (sized_setVfs h.tables Vfs.sized_reset)
  case net_enqueue_packet data =>
    cases hs
    exact h.setTables (sized_enqueue h.tables data)
  case net_dequeue_packet out =>
    cases hs
    exact h.setTables (sized_dequeue h.tables out)
  case net_reset =>
    cases hs
    exact h.setTables ⟨h.tables.files, h.tables.pipes, h.tables.rows, h.tables.vfs,
      fun _ hd => absurd hd List.not_mem_nil, Udp.sized_reset⟩
  all_goals exact (other_call h rfl hs).ok
end calls
theorem ok_of_reach {tr : List RustCall} {s : RustSys} (hr : rustRuns.Reach anyStep tr s) : s.Ok := by
  refine hr.invariant Ok ok_reset ?_
  intro s c s' h _ hs
  exact h.call hs
end RustSys
/-- In every state that the kernel reaches, a system call returns exactly if it
is not one of those listed in `Traps`. -/
theorem rust_syscalls_return (tr : List RustCall) (s : RustSys)
    (hr : rustRuns.Reach anyStep tr s) (env : RustSys.Env) (nr : UInt32) (a0 a1 a2 a3 : UInt64) :
    (∃ o, s.syscall_dispatch env nr a0 a1 a2 a3 = .ok o) ↔ ¬s.DispatchTraps env nr a0 a1 a2 := by
  have h := RustSys.ok_of_reach hr
  constructor
  · rintro ⟨o, ho⟩ ht
    obtain ⟨trap, hend⟩ := RustSys.dispatch_error h ht
    rw [hend] at ho
    cases ho
  intro ht
  obtain ⟨o, ho, -⟩ := RustSys.dispatch_returns h a3 ht
  exact ⟨o, ho⟩

/-- A caller with the string `/proc/status` at address 1 and `/proc/syscalls`
at the others. -/
def procEnv : RustSys.Env :=
  .ofMem ⟨fun _ => 0, fun a => some (if a == 1 then cstr "/proc/status" else cstr "/proc/syscalls")⟩

def procCalls : List RustCall :=
  [.register 1 2 0, .register 2 21 0, .register 3 22 0, .register 4 26 0,
    .dispatch procEnv 2 2 0 0 0]

/-- After the run, a sum that fits is returned. -/
theorem rust_syscalls_return_sum : ∃ s, rustRuns.Reach anyStep procCalls s ∧
    ∃ o, s.syscall_dispatch procEnv 1 1 2 0 0 = .ok o := by
  refine System.exists_exec (P := fun s => s.registered 1 = some (.add, 0)) (by decide +kernel) ?_
  intro s hr hs
  refine (rust_syscalls_return procCalls s hr procEnv 1 1 2 0 0).mpr ?_
  rintro ⟨op, value, hreg, ht⟩
  rw [hs] at hreg
  cases hreg
  have hsum : ¬2 ^ 64 ≤ (1 : UInt64).toNat + (2 : UInt64).toNat := by decide
  exact hsum ht

/-- After the run, `ADD` of two words whose sum does not fit and `OPEN` of
`/proc/status` panic, so does `MMAP` of the last page and the next one, and
`READ` of `/proc/syscalls` waits for a lock that the dispatcher holds. -/
theorem rust_syscalls_trap : ∃ s, rustRuns.Reach anyStep procCalls s ∧
    s.syscall_dispatch procEnv 1 0xFFFFFFFFFFFFFFFF 1 0 0 = .error .overflow ∧
    s.syscall_dispatch procEnv 2 1 0 0 0 = .error .bounds ∧
    s.syscall_dispatch procEnv 3 0 1 16 0 = .error .spin ∧
    s.syscall_dispatch procEnv 4 0xFFFFFFFFFFFFF000 0x2000 1 0 = .error .overflow := by
  refine System.exists_exec (P := fun s =>
    (s.syscall_dispatch procEnv 1 0xFFFFFFFFFFFFFFFF 1 0 0).ending = some .overflow ∧
    (s.syscall_dispatch procEnv 2 1 0 0 0).ending = some .bounds ∧
    (s.syscall_dispatch procEnv 3 0 1 16 0).ending = some .spin ∧
    (s.syscall_dispatch procEnv 4 0xFFFFFFFFFFFFF000 0x2000 1 0).ending = some .overflow)
    (by decide +kernel) ?_
  rintro s - ⟨hadd, hfind, hspin, hmap⟩
  exact ⟨eq_error_of_ending hadd, eq_error_of_ending hfind, eq_error_of_ending hspin,
    eq_error_of_ending hmap⟩
end QosKernel
