import QosKernel.Syscall.CSocketsKeep
import QosKernel.Syscall.RustDispatch

/-! # `READ`, `WRITE` and `LSEEK` work on one row

The descriptor table has a row for each descriptor, with the position in
the file in it. These calls read and write one row: with the row put
somewhere else, among other rows, they return the same and do the same to
it. There is one lemma for each function, for both kernels.
-/
open Framework Framework.Checked
namespace QosKernel
/-- The outcome for row `i`, with the row put into row `j` of other rows. -/
def Outcome.at (o : Outcome) (g : FdNum → Fd) (i j : FdNum) : Outcome :=
  ⟨o.rc, o.out, { o.state with fds := set g j (o.state.fds i) }⟩

def fdArg (k : FdNum) : UInt64 := .ofNat k.val

theorem fdArg_toNat (k : FdNum) : (fdArg k).toUInt32.toNat = k.val := by
  have hlt : k.val < 256 := k.isLt
  rw [fdArg, UInt64.toNat_toUInt32, UInt64.toNat_ofNat']
  omega

namespace KState
variable {o o' : Outcome} {s : KState} {g : FdNum → Fd} {i j : FdNum}
theorem openFd_fdArg {k : FdNum} {used : Bool} (h : (s.fds k).used = used) :
    s.openFd (fdArg k).toUInt32 = if used then some k else none := by
  have hk : (⟨(fdArg k).toUInt32.toNat, by rw [fdArg_toNat]; exact k.isLt⟩ : FdNum) = k :=
    Fin.ext (fdArg_toNat k)
  unfold openFd
  rw [dif_pos (by rw [fdArg_toNat]; exact k.isLt), hk, h]

/-- A call that leaves all rows as they are. -/
theorem same_at (hfds : o.state.fds = s.fds) (hg : g j = s.fds i)
    (ho : o' = ⟨o.rc, o.out, { o.state with fds := g }⟩) : o' = o.at g i j := by
  rw [ho, Outcome.at, hfds, ← hg, set_eq_self]

/-- A call that changes its own row. -/
theorem row_at {t : KState} {fd : Fd} (ho : o.state = t.setFd i fd)
    (ho' : o' = ⟨o.rc, o.out, { t with fds := g }.setFd j fd⟩) : o' = o.at g i j := by
  rw [ho', Outcome.at, ho, setFd_self]
  rfl

theorem openFile_moved (id : UInt16) : { s with fds := g }.openFile id = s.openFile id := rfl
theorem openPipe_moved (id : UInt16) : { s with fds := g }.openPipe id = s.openPipe id := rfl

/-! ### The C functions on one row -/
section leaves
variable (hg : g j = s.fds i)
include hg
theorem openFd_moved : { s with fds := g }.openFd (fdArg j).toUInt32 = none ∧
      s.openFd (fdArg i).toUInt32 = none ∨
    { s with fds := g }.openFd (fdArg j).toUInt32 = some j ∧
      s.openFd (fdArg i).toUInt32 = some i := by
  rw [openFd_fdArg (s := { s with fds := g }) (congrArg Fd.used hg), openFd_fdArg rfl]
  cases (s.fds i).used with
  | false => exact .inl ⟨rfl, rfl⟩
  | true => exact .inr ⟨rfl, rfl⟩

theorem read_proc_at (env : Env) (addr : UInt64) (len : Nat) :
    { s with fds := g }.read_proc env j addr len = (s.read_proc env i addr len).at g i j := by
  have htext : proc_fd_render env { s with fds := g } (s.fds i) =
      proc_fd_render env s (s.fds i) := rfl
  unfold read_proc
  dsimp only
  rw [hg, htext]
  split
  · exact same_at rfl hg rfl
  split
  · exact same_at rfl hg rfl
  exact row_at rfl rfl

theorem read_file_at (addr : UInt64) (len : Nat) :
    { s with fds := g }.read_file j addr len = (s.read_file i addr len).at g i j := by
  unfold read_file
  dsimp only
  rw [hg, openFile_moved]
  cases s.openFile (s.fds i).file_id with
  | none => exact same_at rfl hg rfl
  | some f =>
  dsimp only
  split
  · exact same_at rfl hg rfl
  split
  · exact same_at rfl hg rfl
  exact row_at rfl rfl

theorem write_file_at (env : Env) (addr : UInt64) (len : Nat) :
    { s with fds := g }.write_file env j addr len = (s.write_file env i addr len).at g i j := by
  unfold write_file
  dsimp only
  rw [hg, openFile_moved]
  cases s.openFile (s.fds i).file_id with
  | none => exact same_at rfl hg rfl
  | some f =>
  dsimp only
  split
  · exact same_at rfl hg rfl
  split
  · exact same_at rfl hg rfl
  exact row_at rfl rfl

theorem read_pipe_at (addr : UInt64) (len : Nat) :
    { s with fds := g }.read_pipe j addr len = (s.read_pipe i addr len).at g i j := by
  unfold read_pipe
  dsimp only
  rw [hg, openPipe_moved]
  cases s.openPipe (s.fds i).pipe_id with
  | none => exact same_at rfl hg rfl
  | some p =>
  dsimp only
  split
  · exact same_at rfl hg rfl
  split
  all_goals exact same_at rfl hg rfl

theorem write_pipe_at (data : List UInt8) :
    { s with fds := g }.write_pipe j data = (s.write_pipe i data).at g i j := by
  unfold write_pipe
  dsimp only
  rw [hg, openPipe_moved]
  cases s.openPipe (s.fds i).pipe_id with
  | none => exact same_at rfl hg rfl
  | some p =>
  dsimp only
  split
  all_goals exact same_at rfl hg rfl

section
variable (addr : UInt64) (len : Nat)
theorem stream_take_at :
    { s with fds := g }.stream_take j addr len = (s.stream_take i addr len).at g i j := by
  unfold stream_take
  dsimp only
  rw [hg]
  split
  · exact same_at rfl hg rfl
  exact row_at rfl rfl

theorem raw_take_at (src : List (UInt64 × List UInt8)) :
    { s with fds := g }.raw_take j addr len src = (s.raw_take i addr len src).at g i j := by
  unfold raw_take
  dsimp only
  rw [hg]
  split
  · exact same_at rfl hg rfl
  exact row_at rfl rfl
end
theorem raw_echo_at (remote_port : UInt16) (remote_ip : UInt32) (data : List UInt8) :
    { s with fds := g }.raw_echo j remote_port remote_ip data =
      (s.raw_echo i remote_port remote_ip data).at g i j := by
  unfold raw_echo
  dsimp only
  rw [hg]
  split
  · exact same_at rfl hg rfl
  split
  · exact same_at rfl hg rfl
  exact row_at rfl rfl

theorem stream_host_at (req : List UInt8) :
    (match { s with fds := g }.stream_host_response_prepare j req with
      | none => Outcome.fail { s with fds := g }
      | some s' => .ret s' req.length) =
    (match s.stream_host_response_prepare i req with
      | none => Outcome.fail s
      | some s' => .ret s' req.length).at g i j := by
  unfold stream_host_response_prepare
  dsimp only
  rw [hg]
  by_cases hreq : (cstr "GET ").isPrefixOf req = true
  · rw [if_pos hreq, if_pos hreq]
    exact row_at rfl rfl
  rw [if_neg hreq, if_neg hreq]
  exact same_at rfl hg rfl

section
variable (addr : UInt64) (len : Nat)
theorem udp_take_at (src : UInt64) :
    { s with fds := g }.udp_take j addr len src = (s.udp_take i addr len src).at g i j := by
  unfold udp_take
  simp only [hg]
  split
  · exact same_at rfl hg rfl
  split
  all_goals exact same_at rfl hg rfl

theorem read_socket_at :
    { s with fds := g }.read_socket j addr len = (s.read_socket i addr len).at g i j := by
  unfold read_socket
  dsimp only
  rw [hg]
  split
  · exact same_at rfl hg rfl
  split
  · exact stream_take_at hg addr len
  split
  · exact raw_take_at hg addr len []
  · exact udp_take_at hg addr len 0
  all_goals exact same_at rfl hg rfl
end
theorem write_socket_at (data : List UInt8) :
    { s with fds := g }.write_socket j data = (s.write_socket i data).at g i j := by
  unfold write_socket
  dsimp only
  rw [hg]
  split
  · exact same_at rfl hg rfl
  split
  · exact stream_host_at hg data
  split
  · exact raw_echo_at hg _ _ data
  · split
    all_goals exact same_at rfl hg rfl
  all_goals exact same_at rfl hg rfl

variable (env : Env) (a1 a2 : UInt64)
theorem syscall_op_read_at :
    { s with fds := g }.syscall_op_read env (fdArg j) a1 a2 =
      (s.syscall_op_read env (fdArg i) a1 a2).at g i j := by
  unfold syscall_op_read
  obtain ⟨hj, hi⟩ | ⟨hj, hi⟩ := openFd_moved hg
  · rw [hj, hi]
    exact same_at rfl hg rfl
  rw [hj, hi]
  dsimp only
  rw [hg]
  split
  · exact same_at rfl hg rfl
  split
  · exact read_proc_at hg env a1 _
  · exact read_file_at hg a1 _
  · exact read_pipe_at hg a1 _
  · exact read_socket_at hg a1 _
  all_goals exact same_at rfl hg rfl

theorem syscall_op_write_at :
    { s with fds := g }.syscall_op_write env (fdArg j) a1 a2 =
      (s.syscall_op_write env (fdArg i) a1 a2).at g i j := by
  unfold syscall_op_write
  obtain ⟨hj, hi⟩ | ⟨hj, hi⟩ := openFd_moved hg
  · rw [hj, hi]
    exact same_at rfl hg rfl
  rw [hj, hi]
  dsimp only
  rw [hg]
  split
  · exact same_at rfl hg rfl
  split
  · exact write_file_at hg env a1 _
  · exact write_pipe_at hg _
  · exact write_socket_at hg _
  all_goals exact same_at rfl hg rfl

theorem syscall_op_lseek_at :
    { s with fds := g }.syscall_op_lseek env (fdArg j) a1 a2 =
      (s.syscall_op_lseek env (fdArg i) a1 a2).at g i j := by
  have hbase : { s with fds := g }.seek_base env j a2.toUInt32 = s.seek_base env i a2.toUInt32 := by
    unfold seek_base
    simp only [hg]
    rfl
  unfold syscall_op_lseek
  obtain ⟨hj, hi⟩ | ⟨hj, hi⟩ := openFd_moved hg
  · rw [hj, hi]
    exact same_at rfl hg rfl
  rw [hj, hi]
  simp only [hbase, hg]
  split
  · exact same_at rfl hg rfl
  split
  · exact same_at rfl hg rfl
  split
  · exact same_at rfl hg rfl
  split
  · exact same_at rfl hg rfl
  exact row_at rfl rfl
end leaves
end KState
/-! ### The Rust functions on one row -/
namespace RustCalls
open KState
open RustKernel (UserMem)
variable {s : KState} {g : FdNum → Fd} {i j : FdNum}
theorem ok_at {o o' : Outcome} (ho : o' = o.at g i j) :
    (.ok o' : Checked Outcome) = (Outcome.at · g i j) <$> (.ok o : Checked Outcome) := by
  rw [ho]
  rfl

theorem bind_at {α : Type} {x : Checked α} {f f' : α → Checked Outcome}
    (hf : ∀ a, f' a = (Outcome.at · g i j) <$> f a) :
    (x >>= f') = (Outcome.at · g i j) <$> (x >>= f) := by
  cases x with
  | error trap => rfl
  | ok a => exact hf a

section leaves
variable (hg : g j = s.fds i)
include hg
theorem fail_at : (.ok (.fail { s with fds := g }) : Checked Outcome) =
    (Outcome.at · g i j) <$> (.ok (.fail s) : Checked Outcome) :=
  ok_at (same_at rfl hg rfl)

theorem read_file_at (addr : UInt64) (len : Nat) :
    read_file { s with fds := g } j addr len = (read_file s i addr len).at g i j := by
  unfold read_file
  dsimp only
  rw [hg, openFile_moved]
  cases s.openFile (s.fds i).file_id with
  | none => exact same_at rfl hg rfl
  | some f =>
  dsimp only
  split
  · exact same_at rfl hg rfl
  split
  · exact same_at rfl hg rfl
  exact row_at rfl rfl

theorem write_file_at (mem : UserMem) (addr : UInt64) (len : Nat) :
    write_file mem { s with fds := g } j addr len =
      (Outcome.at · g i j) <$> write_file mem s i addr len := by
  unfold write_file
  simp only [hg, openFile_moved]
  cases s.openFile (s.fds i).file_id with
  | none => exact fail_at hg
  | some f =>
  dsimp only
  split
  · exact fail_at hg
  split
  · exact ok_at (same_at rfl hg rfl)
  exact bind_at fun _ => ok_at (row_at rfl rfl)

theorem read_pipe_at (addr : UInt64) (len : Nat) :
    read_pipe { s with fds := g } j addr len = (Outcome.at · g i j) <$> read_pipe s i addr len := by
  unfold read_pipe
  simp only [hg, openPipe_moved]
  cases s.openPipe (s.fds i).pipe_id with
  | none => exact fail_at hg
  | some p =>
  dsimp only
  split
  · exact fail_at hg
  split
  · exact ok_at (same_at rfl hg rfl)
  exact bind_at fun _ => ok_at (KState.read_pipe_at hg addr len)

theorem write_pipe_at (data : List UInt8) :
    write_pipe { s with fds := g } j data = (Outcome.at · g i j) <$> write_pipe s i data := by
  unfold write_pipe
  simp only [hg, openPipe_moved]
  cases s.openPipe (s.fds i).pipe_id with
  | none => exact fail_at hg
  | some p =>
  dsimp only
  split
  · exact fail_at hg
  exact bind_at fun _ => ok_at (KState.write_pipe_at hg data)

section
variable (addr : UInt64) (len : Nat)
theorem stream_take_at :
    stream_take { s with fds := g } j addr len =
      (Outcome.at · g i j) <$> stream_take s i addr len := by
  unfold stream_take
  simp only [hg]
  split
  · exact fail_at hg
  exact bind_at fun _ => bind_at fun _ => ok_at (KState.stream_take_at hg addr len)

theorem raw_take_at (src : List (UInt64 × List UInt8)) :
    raw_take { s with fds := g } j addr len src =
      (Outcome.at · g i j) <$> raw_take s i addr len src := by
  unfold raw_take
  simp only [hg]
  split
  · exact fail_at hg
  exact bind_at fun _ => ok_at (KState.raw_take_at hg addr len src)

theorem udp_take_at (src : UInt64) :
    udp_take { s with fds := g } j addr len src =
      (Outcome.at · g i j) <$> udp_take s i addr len src := by
  unfold udp_take
  simp only [hg]
  split
  · exact fail_at hg
  refine bind_at fun r => ?_
  rcases r with ⟨_ | ⟨n, m⟩, udp⟩
  · exact fail_at hg
  exact ok_at (same_at rfl hg rfl)

theorem packet_take_at :
    packet_take { s with fds := g } addr len = (Outcome.at · g i j) <$> packet_take s addr len := by
  unfold packet_take
  dsimp only
  cases s.net.packets.pop with
  | none => exact fail_at hg
  | some r =>
  dsimp only
  split
  · exact fail_at hg
  exact bind_at fun _ => ok_at (same_at rfl hg rfl)

theorem read_socket_at :
    read_socket { s with fds := g } j addr len =
      (Outcome.at · g i j) <$> read_socket s i addr len := by
  unfold read_socket
  simp only [hg]
  split
  · exact fail_at hg
  split
  · exact stream_take_at hg addr len
  split
  · exact raw_take_at hg addr len []
  · exact udp_take_at hg addr len 0
  all_goals exact packet_take_at hg addr len
end
theorem udp_put_at (local_port remote_port : UInt16) (data : List UInt8) :
    udp_put { s with fds := g } local_port remote_port data =
      (udp_put s local_port remote_port data).at g i j := by
  unfold udp_put
  dsimp only
  split
  all_goals exact same_at rfl hg rfl

theorem write_socket_at (data : List UInt8) :
    write_socket { s with fds := g } j data = (write_socket s i data).at g i j := by
  unfold write_socket
  simp only [hg]
  split
  · exact same_at rfl hg rfl
  split
  · exact stream_host_at hg data
  split
  · exact raw_echo_at hg _ _ data
  · split
    · exact same_at rfl hg rfl
    exact udp_put_at hg _ _ data
  all_goals exact same_at rfl hg rfl

theorem read_data_at (addr : UInt64) (len : Nat) :
    read_data { s with fds := g } j addr len = (Outcome.at · g i j) <$> read_data s i addr len := by
  unfold read_data
  simp only [hg]
  split
  · exact ok_at (read_file_at hg addr len)
  · exact read_pipe_at hg addr len
  · exact read_socket_at hg addr len
  all_goals exact fail_at hg

theorem op_write_at (mem : UserMem) (a1 a2 : UInt64) :
    op_write mem { s with fds := g } (fdArg j) a1 a2 =
      (Outcome.at · g i j) <$> op_write mem s (fdArg i) a1 a2 := by
  unfold op_write
  obtain ⟨hj, hi⟩ | ⟨hj, hi⟩ := openFd_moved hg
  · rw [hj, hi]
    exact fail_at hg
  rw [hj, hi]
  simp only [hg]
  split
  · exact fail_at hg
  split
  · exact write_file_at hg mem a1 _
  · exact write_pipe_at hg _
  · exact ok_at (write_socket_at hg _)
  all_goals exact fail_at hg

theorem seek_to_at (base : Option Int) (offset : Int) :
    seek_to { s with fds := g } j base offset = (seek_to s i base offset).at g i j := by
  unfold seek_to
  simp only [hg]
  split
  · exact same_at rfl hg rfl
  split
  · exact same_at rfl hg rfl
  exact row_at rfl rfl

theorem seek_base_moved (whence : UInt32) :
    seek_base { s with fds := g } j whence = seek_base s i whence := by
  unfold seek_base
  simp only [hg]
  rfl
end leaves
end RustCalls
namespace RustSys
open KState RustCalls
variable {o o' : Outcome}
def Outcome.at (o : Outcome) (g : FdNum → Fd) (i j : FdNum) : Outcome :=
  ⟨o.rc, o.out, { o.state with fds := set g j (o.state.fds i) }⟩

variable {s : RustSys} {g : FdNum → Fd} {i j : FdNum}
theorem same_at (hfds : o.state.fds = s.fds) (hg : g j = s.fds i)
    (ho : o' = ⟨o.rc, o.out, { o.state with fds := g }⟩) : o' = o.at g i j := by
  rw [ho, Outcome.at, hfds, ← hg, set_eq_self]

theorem row_at {t : RustSys} {fd : Fd} (ho : o.state = { t with fds := set t.fds i fd })
    (ho' : o' = ⟨o.rc, o.out, { t with fds := set g j fd }⟩) : o' = o.at g i j := by
  rw [ho', Outcome.at, ho]
  dsimp only
  rw [set_self]

theorem ok_at (ho : o' = o.at g i j) :
    (.ok o' : Checked Outcome) = (Outcome.at · g i j) <$> (.ok o : Checked Outcome) := by
  rw [ho]
  rfl

theorem onTables_at {x x' : Checked QosKernel.Outcome}
    (hx : x' = (QosKernel.Outcome.at · g i j) <$> x) :
    { s with fds := g }.onTables x' = (Outcome.at · g i j) <$> s.onTables x := by
  rw [hx]
  cases x with
  | error trap | ok o => rfl

/-- A text, with other rows in the state. -/
def withRows (g : FdNum → Fd) (r : List UInt8 × RustSys) : List UInt8 × RustSys :=
  (r.1, { r.2 with fds := g })

section
variable (s : RustSys) (g : FdNum → Fd)
theorem kthread_name_get_moved (tid : UInt32) (out : Nat) :
    { s with fds := g }.kthread_name_get tid out =
      (fun r => (r.1, { r.2 with fds := g })) <$> s.kthread_name_get tid out := by
  unfold kthread_name_get
  dsimp only
  split
  · rfl
  split
  · rfl
  split
  all_goals rfl

theorem render_runtime_map_moved :
    { s with fds := g }.render_runtime_map = withRows g <$> s.render_runtime_map := by
  have htid : { s with fds := g }.kthread_current_tid = s.kthread_current_tid := rfl
  unfold render_runtime_map
  rw [htid]
  cases s.kthread_current_tid with
  | error trap => rfl
  | ok tid =>
  rw [ok_bind, ok_bind]
  dsimp only
  by_cases hzero : (tid == 0) = true
  · rw [if_pos hzero, if_pos hzero]
    rfl
  rw [if_neg hzero, if_neg hzero, kthread_name_get_moved]
  cases s.kthread_name_get tid RustKernel.QOS_KTHREAD_NAME_MAX with
  | error trap | ok r => rfl
end
theorem syscall_proc_render_rows (hkind : (g j).kind = (s.fds i).kind)
    (hproc : (g j).proc_kind = (s.fds i).proc_kind) (hpid : (g j).proc_pid = (s.fds i).proc_pid)
    (env : Env) :
    { s with fds := g }.syscall_proc_render env j = withRows g <$> s.syscall_proc_render env i := by
  unfold syscall_proc_render
  simp only [hkind, hproc, hpid]
  split
  · rfl
  split
  case h_6 => exact render_runtime_map_moved s g
  all_goals rfl

theorem syscall_proc_render_moved (hg : g j = s.fds i) (env : Env) :
    { s with fds := g }.syscall_proc_render env j = withRows g <$> s.syscall_proc_render env i :=
  syscall_proc_render_rows (congrArg _ hg) (congrArg _ hg) (congrArg _ hg) env

theorem syscall_proc_render_fds {env : Env} {r : List UInt8 × RustSys}
    (hr : s.syscall_proc_render env i = .ok r) : r.2.fds = s.fds := by
  -- the row that the text is for can stay where it is
  have hmoved := syscall_proc_render_moved (rfl : s.fds i = s.fds i) env
  have hsame : { s with fds := s.fds } = s := rfl
  rw [hsame, hr] at hmoved
  exact congrArg (fun r => r.2.fds) (Except.ok.inj hmoved)

section calls
variable (hg : g j = s.fds i)
include hg
theorem read_proc_at (env : Env) (addr : UInt64) (len : Nat) :
    { s with fds := g }.read_proc env j addr len =
      (Outcome.at · g i j) <$> s.read_proc env i addr len := by
  unfold read_proc
  dsimp only
  rw [hg, syscall_proc_render_moved hg]
  cases hr : s.syscall_proc_render env i with
  | error trap => rfl
  | ok r =>
  obtain ⟨text, s1⟩ := r
  have hrow : g j = s1.fds i := by rw [hg, ← syscall_proc_render_fds hr]
  have htext : withRows g <$> (.ok (text, s1) : Checked (List UInt8 × RustSys)) =
      .ok (text, { s1 with fds := g }) := rfl
  rw [htext, ok_bind, ok_bind]
  dsimp only
  split
  · exact ok_at (same_at (s := s1) rfl hrow rfl)
  split
  · exact ok_at (same_at (s := s1) rfl hrow rfl)
  refine ok_at (row_at (t := s1) rfl ?_)
  unfold setOffset
  dsimp only
  rw [hrow]

variable (env : Env) (a1 a2 : UInt64)
theorem op_read_at :
    { s with fds := g }.op_read env (fdArg j) a1 a2 =
      (Outcome.at · g i j) <$> s.op_read env (fdArg i) a1 a2 := by
  unfold op_read
  obtain ⟨hj, hi⟩ | ⟨hj, hi⟩ := openFd_moved hg
  · rw [hj, hi]
    exact ok_at (same_at rfl hg rfl)
  rw [hj, hi]
  simp only [hg]
  split
  · exact ok_at (same_at rfl hg rfl)
  split
  · exact read_proc_at hg env a1 _
  exact onTables_at (read_data_at hg a1 _)

theorem op_lseek_at :
    { s with fds := g }.op_lseek env (fdArg j) a1 a2 =
      (Outcome.at · g i j) <$> s.op_lseek env (fdArg i) a1 a2 := by
  unfold op_lseek
  obtain ⟨hj, hi⟩ | ⟨hj, hi⟩ := openFd_moved hg
  · rw [hj, hi]
    exact ok_at (same_at rfl hg rfl)
  rw [hj, hi]
  simp only [hg]
  split
  · exact ok_at (same_at rfl hg rfl)
  split
  · rw [syscall_proc_render_moved hg]
    cases hr : s.syscall_proc_render env i with
    | error trap => rfl
    | ok r =>
    have hrow : g j = r.2.fds i := by rw [syscall_proc_render_fds hr, hg]
    exact onTables_at (RustCalls.ok_at (seek_to_at hrow _ _))
  exact onTables_at (RustCalls.ok_at (by rw [seek_base_moved hg]; exact seek_to_at hg _ _))
end calls
end RustSys
end QosKernel
