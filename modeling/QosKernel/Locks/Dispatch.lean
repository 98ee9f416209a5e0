import QosKernel.Locks.Operations

/-! # `syscall_dispatch` -/
open Framework Framework.Prog
namespace QosKernel.RustKernel
variable {op : SyscallOp} {P : Kernel → Prop} {fd : UInt32} {i : FdNum} {row : FdEntry}
/-- The branch of `syscall_dispatch` for an operation. -/
def operation (mem : UserMem) (count : UInt32) (value : Int) (op : SyscallOp)
    (a0 a1 a2 a3 : UInt64) : RustM Int :=
  match op with
  | .const => return value
  | .add => return asInt64 (a0 + a1)
  | .query => syscall_query_value (.ofNat (value % 2 ^ 32).toNat) count
  | .open => op_open mem a0
  | .read => op_read a0 a1 a2
  | .write => op_write mem a0 a1 a2
  | .close => op_close a0
  | .dup2 => op_dup2 a0 a1
  | .mmap => op_mmap a0 a1 a2
  | .munmap => op_munmap a0 a1
  | .yield => op_yield
  | .sleep => return 0
  | .socket => op_socket a0 a1
  | .bind => op_bind mem a0 a1 a2
  | .listen => op_listen a0 a1
  | .accept => op_accept a0
  | .connect => op_connect mem a0 a1 a2
  | .send => op_send mem a0 a1 a2 a3
  | .recv => op_recv a0 a1 a2
  | .getdents => op_getdents a0 a1 a2
  | .lseek => op_lseek a0 a1 a2
  | .pipe => op_pipe a0
  | .kill => op_kill a0 a1
  | .sigpending => op_sigpending a0
  | .sigaction => op_sigaction a0 a1 a2
  | .sigprocmask => op_sigprocmask a0 a1 a2
  | .sigaltstack => op_sigaltstack a0 a1 a2 a3
  | .sigsuspend => op_sigsuspend a0 a1
  | .sigreturn => op_sigreturn a0 a1
  | .fork => op_fork a0 a1
  | .exec => op_exec mem a0 a1
  | .dlopen => op_load mem a0
  | .dlclose => op_unload
  | .dlsym => op_dlsym mem a1
  | .modload => op_load mem a0
  | .modunload => op_unload
  | .modreload => op_modreload
  | .exit => op_exit a0 a1
  | .getpid => op_getpid a0
  | .waitpid => op_waitpid a0 a1 a3
  | .stat => op_stat mem a0
  | .mkdir => op_mkdir mem a0
  | .unlink => op_unlink mem a0
  | .chdir => op_chdir mem a0 a1
  | .getcwd => op_getcwd a0 a1 a2

def syscall_dispatch (mem : UserMem) (nr : UInt32) (a0 a1 a2 a3 : UInt64) : RustM Int :=
  if h : nr.toNat < QOS_SYSCALL_MAX then
    locked .SYSCALL do
      let d ← read
      match d.syscall.calls ⟨nr.toNat, h⟩ with
      | none => return -1
      | some (op, value) => operation mem d.syscall.count value op a0 a1 a2 a3
  else return -1

/-- Every operation but `READ` and `LSEEK` leaves the lock of the system calls
alone. -/
theorem operation_keeps (hread : op ≠ .read) (hlseek : op ≠ .lseek) (mem : UserMem) (count : UInt32)
    (value : Int) (a0 a1 a2 a3 : UInt64) :
    Keeps Others Kernel.Ok (operation mem count value op a0 a1 a2 a3) := by
  cases op with
  | read | lseek => contradiction
  | const | add | sleep => exact keeps_pure
  | query => exact syscall_query_value_keeps _ count
  | «open» => exact op_open_keeps mem a0
  | write => exact op_write_keeps mem a0 a1 a2
  | close => exact op_close_keeps a0
  | dup2 => exact op_dup2_keeps a0 a1
  | mmap => exact op_mmap_keeps a0 a1 a2
  | munmap => exact op_munmap_keeps a0 a1
  | socket => exact op_socket_keeps a0 a1
  | bind => exact op_bind_keeps mem a0 a1 a2
  | listen => exact op_listen_keeps a0 a1
  | accept => exact op_accept_keeps a0
  | connect => exact op_connect_keeps mem a0 a1 a2
  | send => exact op_send_keeps mem a0 a1 a2 a3
  | recv => exact op_recv_keeps a0 a1 a2
  | getdents => exact op_getdents_keeps a0 a1 a2
  | pipe => exact op_pipe_keeps a0
  | sigaction => exact op_sigaction_keeps a0 a1 a2
  | sigprocmask => exact op_sigprocmask_keeps a0 a1 a2
  | sigaltstack => exact op_sigaltstack_keeps a0 a1 a2 a3
  | sigsuspend => exact op_sigsuspend_keeps a0 a1
  | exec => exact op_exec_keeps mem a0 a1
  | dlopen | modload => exact op_load_keeps mem a0
  | dlsym => exact op_dlsym_keeps mem a1
  | stat => exact op_stat_keeps mem a0
  | mkdir => exact op_mkdir_keeps mem a0
  | unlink => exact op_unlink_keeps mem a0
  | chdir => exact op_chdir_keeps mem a0 a1
  | getcwd => exact op_getcwd_keeps a0 a1 a2
  -- the others are one section each
  | _ => exact keeps_bind (by grind) fun _ => keeps_pure

/-! ### The two operations that render a text -/
/-- The descriptor is not open on a text that states the number of system
calls. -/
def SyscallState.Uncounted (s : SyscallState) (fd : UInt32) : Prop :=
  ∀ i, s.fdAt fd = some i → (s.fds i).kind = .proc → countsSyscalls (s.fds i).proc_kind = false

theorem syscall_fd_balanced {L : Set Lock} (fd : UInt32) :
    Balanced L P (syscall_fd fd) fun row d =>
      P d ∧ row = (d.syscall.fdAt fd).map fun i => (i, d.syscall.fds i) := by
  refine .bind balanced_read fun a => balanced_pure fun d hd => ?_
  rw [hd.2]
  exact ⟨hd.2 ▸ hd.1, rfl⟩

theorem render_fd_balanced (hkind : row.kind = .proc)
    (hP : ∀ d, P d → d.Ok ∧ d.syscall.Uncounted fd ∧
      some (i, row) = (d.syscall.fdAt fd).map fun i => (i, d.syscall.fds i)) :
    Keeps Others P (syscall_proc_render i) := by
  refine syscall_proc_render_keeps fun d hd => ⟨(hP d hd).1, ?_⟩
  obtain ⟨-, hun, hrow⟩ := hP d hd
  cases hat : d.syscall.fdAt fd with
  | none => rw [hat] at hrow; cases hrow
  | some j =>
  rw [hat] at hrow
  cases hrow
  exact hun i hat hkind

theorem op_read_balanced (a0 a1 a2 : UInt64) :
    Balanced Others (fun d => d.Ok ∧ (a1 ≠ 0 → d.syscall.Uncounted a0.toUInt32))
      (op_read a0 a1 a2) fun _ => Kernel.Ok := by
  refine .bind (syscall_fd_balanced _) fun row => Keeps.post ?_ fun _ h => h.1.1
  cases row with
  | none => exact keeps_pure
  | some row =>
  obtain ⟨i, row⟩ := row
  show Keeps _ _ (if _ then _ else _)
  split
  · exact keeps_pure
  rename_i ha1
  have ha1 : a1 ≠ 0 := by simpa using ha1
  split
  · rename_i hkind
    refine keeps_bind (render_fd_balanced hkind fun d hd => ⟨hd.1.1, hd.1.2 ha1, hd.2⟩)
      fun total => ?_
    grind
  all_goals grind

theorem lseek_base_keeps {whence : UInt32}
    (hP : ∀ d, P d → d.Ok ∧ (whence = 2 → d.syscall.Uncounted fd) ∧
      some (i, row) = (d.syscall.fdAt fd).map fun i => (i, d.syscall.fds i)) :
    Keeps Others P (lseek_base i row.kind whence) := by
  unfold lseek_base
  split
  · exact keeps_pure
  split
  · exact keeps_bind keeps_ask fun _ => keeps_pure
  split
  · rename_i hwhence
    have hwhence : whence = 2 := by simpa using hwhence
    split
    · rename_i hkind
      have hkind : row.kind = .proc := by simpa using hkind
      have hrender := render_fd_balanced hkind fun d hd =>
        ⟨(hP d hd).1, (hP d hd).2.1 hwhence, (hP d hd).2.2⟩
      exact keeps_bind hrender fun _ => keeps_pure
    exact keeps_askOption
  exact keeps_pure

theorem op_lseek_balanced (a0 a1 a2 : UInt64) :
    Balanced Others (fun d => d.Ok ∧ (a2.toUInt32 = 2 → d.syscall.Uncounted a0.toUInt32))
      (op_lseek a0 a1 a2) fun _ => Kernel.Ok := by
  refine .bind (syscall_fd_balanced _) fun row => Keeps.post ?_ fun _ h => h.1.1
  cases row with
  | none => exact keeps_pure
  | some row =>
  show Keeps _ _ (if _ then _ else _)
  split
  · exact keeps_pure
  exact keeps_bind_option (lseek_base_keeps fun d hd => ⟨hd.1.1, hd.1.2, hd.2⟩) keeps_pure
    fun base => keeps_pure

/-- The call renders a text that states the number of system calls. -/
def SyscallState.rendersCount (s : SyscallState) (nr : UInt32) (a0 a1 a2 : UInt64) : Bool :=
  if h : nr.toNat < QOS_SYSCALL_MAX then
    match s.calls ⟨nr.toNat, h⟩, s.fdAt a0.toUInt32 with
    | some (op, _), some i =>
      (op == .read && a1 != 0 || op == .lseek && a2.toUInt32 == 2) &&
        (s.fds i).kind == .proc && countsSyscalls (s.fds i).proc_kind
    | _, _ => false
  else false

theorem SyscallState.uncounted_of_rendersCount {s : SyscallState} {nr : UInt32} {a0 a1 a2 : UInt64}
    (h : s.rendersCount nr a0 a1 a2 = false) {hnr : nr.toNat < QOS_SYSCALL_MAX} {value : Int}
    (hcall : s.calls ⟨nr.toNat, hnr⟩ = some (op, value))
    (hop : op = .read ∧ a1 ≠ 0 ∨ op = .lseek ∧ a2.toUInt32 = 2) : s.Uncounted a0.toUInt32 := by
  intro i hi hkind
  rw [rendersCount, dif_pos hnr, hcall, hi] at h
  have hrenders : (op == .read && a1 != 0 || op == .lseek && a2.toUInt32 == 2) = true := by
    simpa using hop
  simpa [hrenders, hkind] using h

variable (mem : UserMem)
theorem operation_balanced (count : UInt32) (value : Int) (a0 a1 a2 a3 : UInt64) :
    Balanced Others (fun d => d.Ok ∧
      ((op = .read ∧ a1 ≠ 0 ∨ op = .lseek ∧ a2.toUInt32 = 2) → d.syscall.Uncounted a0.toUInt32))
      (operation mem count value op a0 a1 a2 a3) fun _ => Kernel.Ok := by
  by_cases hread : op = .read
  · subst hread
    exact (op_read_balanced a0 a1 a2).weaken (fun _ h => h)
      (fun d hd => ⟨hd.1, fun ha1 => hd.2 (.inl ⟨rfl, ha1⟩)⟩) fun _ _ h => h
  by_cases hlseek : op = .lseek
  · subst hlseek
    exact (op_lseek_balanced a0 a1 a2).weaken (fun _ h => h)
      (fun d hd => ⟨hd.1, fun ha2 => hd.2 (.inr ⟨rfl, ha2⟩)⟩) fun _ _ h => h
  exact (operation_keeps hread hlseek mem count value a0 a1 a2 a3).weaken (fun _ h => h)
    (fun d hd => hd.1) fun _ _ h => h

theorem syscall_dispatch_balanced (nr : UInt32) (a0 a1 a2 a3 : UInt64) :
    Balanced Set.univ (fun d => d.Ok ∧ d.syscall.rendersCount nr a0 a1 a2 = false)
      (syscall_dispatch mem nr a0 a1 a2 a3) fun _ => Kernel.Ok := by
  unfold syscall_dispatch
  split
  · rename_i hnr
    refine .locked (.bind balanced_read fun d => ?_) (Set.mem_univ _)
    cases hcall : d.syscall.calls ⟨nr.toNat, hnr⟩ with
    | none => exact balanced_pure fun _ h => h.1.1
    | some call =>
    obtain ⟨op, value⟩ := call
    refine (operation_balanced mem d.syscall.count value a0 a1 a2 a3).weaken (fun _ h => h)
      (fun d' hd => ⟨hd.1.1, ?_⟩) fun _ _ h => h
    exact SyscallState.uncounted_of_rendersCount hd.1.2 (by rw [hd.2, hcall])
  exact balanced_pure fun _ h => h.1
end QosKernel.RustKernel
