import QosKernel.Exec.CLibsCount
import QosKernel.Proc.HandlerHistory
import QosKernel.Syscall.RustReturns

/-! # Which files `EXEC` runs

`EXEC` looks its path up among the open files, and not in the registry of
paths. Names of files are in the registry, so the two agree on every path
but the empty one: that is the name of files that were unlinked while they
were open.
-/
open Framework Framework.Checked
namespace QosKernel
namespace KState
variable {k : KState}
/-- The path is in the registry, and its file holds an image. -/
def HoldsImage (k : KState) (path : CStr) : Prop :=
  k.vfs.qos_vfs_exists path = true ∧ ∃ f image, (k.files f).used = true ∧
    (k.files f).path = path ∧ CElf.parse_exec_elf_image (k.files f).image = .ok image

section
variable (k : KState) (path : Option CStr)
/-- `EXEC` succeeds only if the path is the one of a file with an image, and
changes nothing if it fails. -/
def ExecPromise (rc : Int) (unchanged : Prop) : Prop :=
  (rc = 0 → ∃ p, path = some p ∧ k.HoldsImage p) ∧ (rc ≠ 0 → unchanged)

/-- The path is empty, and the first file without a name holds an image, which
a process would run. -/
def RunsUnnamed (process : Bool) : Prop :=
  path = some [] ∧ (k.exec_image []).isSome = true ∧ process = true
end
theorem exec_image_file {path : CStr} (h : (k.exec_image path).isSome = true) :
    ∃ f image, (k.files f).used = true ∧ (k.files f).path = path ∧
      CElf.parse_exec_elf_image (k.files f).image = .ok image := by
  unfold exec_image at h
  split at h
  · cases h
  next f hfind =>
  split at h
  · cases h
  split at h
  next image hparse =>
    obtain ⟨hused, hpath⟩ := file_find_some hfind
    exact ⟨f, image, hused, hpath, hparse⟩
  all_goals cases h

theorem execPromise_iff (hn : k.Named) {path : Option CStr} {process : Bool} {rc : Int}
    {unchanged : Prop}
    (hrc : rc = 0 ↔ (∃ p, path = some p ∧ (k.exec_image p).isSome = true) ∧ process = true)
    (hfail : rc ≠ 0 → unchanged) :
    k.ExecPromise path rc unchanged ↔ ¬k.RunsUnnamed path process := by
  constructor
  · rintro ⟨hsucceeds, -⟩ ⟨rfl, himage, hprocess⟩
    obtain ⟨p, hp, hexists, -⟩ := hsucceeds (hrc.mpr ⟨⟨[], rfl, himage⟩, hprocess⟩)
    cases hp
    exact Vfs.path_valid_ne_nil (Vfs.qos_vfs_exists_iff.mp hexists).1 rfl
  intro hnamed
  refine ⟨fun hzero => ?_, hfail⟩
  obtain ⟨⟨p, rfl, himage⟩, hprocess⟩ := hrc.mp hzero
  obtain ⟨f, image, hused, hpath, hparse⟩ := exec_image_file himage
  have hne : p ≠ [] := by
    rintro rfl
    exact hnamed ⟨rfl, himage, hprocess⟩
  exact ⟨p, rfl, hn.registered f p ⟨hused, hpath, hne⟩, f, image, hused, hpath, hparse⟩

theorem Owns.named (h : k.Owns) : k.Named where
  distinct f g path hf hg := h.store.paths_distinct f g path hf hg
  registered f path hf := Vfs.qos_vfs_exists_iff.mpr (h.store.paths_exist f path hf)
end KState
/-! ### The C kernel -/
namespace CProc.Procs
variable {t : Procs} {a0 : UInt64}
theorem sys_exec_fails {image : Option ExecImage}
    (h : image = none ∨ t.find_pid a0.toUInt32 = none) : t.sys_exec a0 (some image) = (-1, t) := by
  cases image with
  | none => rfl
  | some image =>
  obtain hnone | hfind := h
  · cases hnone
  simp only [sys_exec, qos_proc_exec_signal_reset, update_of_find_none hfind]

theorem sys_exec_rc (t : Procs) (a0 : UInt64) (image : Option ExecImage) :
    (t.sys_exec a0 (some image)).1.toInt = 0 ↔
      image.isSome = true ∧ (t.find_pid a0.toUInt32).isSome = true := by
  cases hfind : t.find_pid a0.toUInt32 with
  | none =>
    rw [sys_exec_fails (.inr hfind)]
    simp
  | some i =>
  rw [sys_exec_result hfind]
  cases image with
  | none | some image => simp
end CProc.Procs
namespace ProcKernel
variable {s : ProcKernel}
theorem owns_of_reach {vfs : Vfs} {tr : List ProcKernelCall}
    (hr : (processRuns vfs).Reach anyStep tr s) : s.kernel.Owns := by
  refine hr.invariant (fun s => s.kernel.Owns) (.reset vfs) ?_
  intro s c s' h _ hs
  cases hs
  obtain heq | ⟨c', heq⟩ := s.kernel_call c
  · rw [heq]
    exact h
  rw [heq]
  exact (KState.acts_call h c').1

def ExecKeeps (s : ProcKernel) (env : Env) (nr : UInt32) (a0 a1 a2 a3 : UInt64) : Prop :=
  s.kernel.ExecPromise (some (env.str a1)) (s.qos_syscall_dispatch env nr a0 a1 a2 a3).1
    ((s.qos_syscall_dispatch env nr a0 a1 a2 a3).2.2.procs = s.procs)

theorem execKeeps_iff (hn : s.kernel.Named) {env : Env} {nr : UInt32} {a0 a1 : UInt64}
    (hop : s.opOf nr = some .exec) (ha : a1 ≠ 0) (a2 a3 : UInt64) :
    s.ExecKeeps env nr a0 a1 a2 a3 ↔
      ¬s.kernel.RunsUnnamed (some (env.str a1)) (s.procs.find_pid a0.toUInt32).isSome := by
  have hpath : exec_path env s.kernel a1 =
      some ((s.kernel.exec_image (env.str a1)).map ExecImage.recorded) :=
    if_neg (by simpa using ha)
  have hrc := s.procs.sys_exec_rc a0 ((s.kernel.exec_image (env.str a1)).map ExecImage.recorded)
  rw [Option.isSome_map] at hrc
  unfold ExecKeeps
  rw [dispatch_exec hop, hpath]
  refine KState.execPromise_iff hn ?_ fun hfail => ?_
  · rw [hrc]
    simp
  rw [ne_eq, hrc, not_and_or, Option.not_isSome_iff_eq_none, Option.not_isSome_iff_eq_none] at hfail
  rw [CProc.Procs.sys_exec_fails (hfail.imp_left fun h => by rw [h]; rfl)]
end ProcKernel
/-! ### The Rust kernel -/
namespace RustProc.ProcState
variable {t : ProcState} {a0 : UInt64}
theorem sys_exec_fails {image : Option CProc.ExecImage}
    (h : image = none ∨ t.proc_find a0.toUInt32 = none) : t.sys_exec a0 (some image) = (-1, t) := by
  cases image with
  | none => rfl
  | some image =>
  obtain hnone | hfind := h
  · cases hnone
  simp only [sys_exec, proc_exec_signal_reset, update_of_find_none hfind]

theorem sys_exec_rc (t : ProcState) (a0 : UInt64) (image : Option CProc.ExecImage) :
    (t.sys_exec a0 (some image)).1.toInt = 0 ↔
      image.isSome = true ∧ (t.proc_find a0.toUInt32).isSome = true := by
  cases hfind : t.proc_find a0.toUInt32 with
  | none =>
    rw [sys_exec_fails (.inr hfind)]
    simp
  | some i =>
  cases image with
  | none =>
    rw [sys_exec_fails (.inl rfl)]
    simp
  | some image =>
  -- the process is still found after its signals are reset
  have hfind' : (ProcState.mk (set t.procs i (t.procs i).exec_signal_reset) t.count).proc_find
      a0.toUInt32 = some i := by
    rw [← hfind]
    refine first_congr fun j => ?_
    dsimp only
    by_cases hj : j = i
    · rw [hj, set_self]
      rfl
    rw [set_ne hj]
  simp only [sys_exec, proc_exec_signal_reset, proc_exec_image_set, update_of_find hfind,
    update_of_find hfind', Option.isSome_some, and_self, iff_true]
  rfl
end RustProc.ProcState
namespace RustSys
open RustCalls
variable {env : Env} {a0 a1 : UInt64} {s : RustSys}
theorem exec_image_eq {k : KState} (h : k.Sized) (path : CStr) :
    exec_image k path = .ok (k.exec_image path) := by
  unfold exec_image KState.exec_image
  rw [syscall_file_find_eq h, ok_bind]
  cases hfind : k.file_find path with
  | none => rfl
  | some f =>
  dsimp only
  rw [(KState.file_find_some hfind).1]
  by_cases hlen : (k.files f).len = 0
  · rw [if_pos hlen, if_pos (by simp [hlen])]
    rfl
  rw [if_neg hlen, if_neg (by simp [hlen]), slice_of (Nat.zero_le _) (h.files f).len, ok_bind,
    ← parse_exec_elf_image_eq]
  have hfault := CElf.parse_exec_elf_image_ne_fault (k.files f).image
  cases hparse : CElf.parse_exec_elf_image (k.files f).image with
  | ok image | giveUp => rfl
  | fault => exact absurd hparse hfault

/-- What `EXEC` finds behind a pointer that is not null. -/
def execFinds (env : Env) (s : RustSys) (a1 : UInt64) : Option ExecImage :=
  (env.str a1).bind s.toKState.exec_image

theorem op_exec_eq (h : s.Ok) (ha : a1 ≠ 0) :
    s.op_exec env a0 a1 = .ok (s.onProcs
        ((s.procs.sys_exec a0 (some ((execFinds env s a1).map ExecImage.recorded))).1.toInt,
          (s.procs.sys_exec a0 (some ((execFinds env s a1).map ExecImage.recorded))).2)) := by
  unfold op_exec execFinds
  rw [if_neg (by simpa using ha)]
  cases env.str a1 with
  | none => rfl
  | some path =>
  dsimp only
  rw [exec_image_eq h.tables]
  rfl

def ExecKeeps (s : RustSys) (env : Env) (a1 : UInt64) (o : Outcome) : Prop :=
  s.toKState.ExecPromise (env.str a1) o.rc (o.state.procs = s.procs)

theorem execKeeps_iff (h : s.Ok) (hn : s.toKState.Named) {nr : UInt32} {value : Int}
    (hop : s.registered nr = some (.exec, value)) (ha : a1 ≠ 0) (a2 a3 : UInt64) :
    Returns (s.syscall_dispatch env nr a0 a1 a2 a3) fun o => s.ExecKeeps env a1 o ↔
      ¬s.toKState.RunsUnnamed (env.str a1) (s.procs.proc_find a0.toUInt32).isSome := by
  have hrc := s.procs.sys_exec_rc a0 ((execFinds env s a1).map ExecImage.recorded)
  rw [Option.isSome_map] at hrc
  have heq : s.syscall_dispatch env nr a0 a1 a2 a3 = s.op_exec env a0 a1 := by
    unfold syscall_dispatch
    rw [hop]
    rfl
  rw [heq, op_exec_eq h ha]
  refine returns_ok (KState.execPromise_iff hn ?_ fun hfail => ?_)
  · refine hrc.trans (and_congr_left' ?_)
    rw [execFinds, Option.isSome_bind]
    cases env.str a1 with
    | none | some path => simp
  change (s.procs.sys_exec a0 _).1.toInt ≠ 0 at hfail
  rw [ne_eq, hrc, not_and_or, Option.not_isSome_iff_eq_none, Option.not_isSome_iff_eq_none] at hfail
  exact congrArg Prod.snd
    (RustProc.ProcState.sys_exec_fails (hfail.imp_left fun h => by rw [h]; rfl))

/-! Names of files -/
/-- The functions that remove paths and are no system calls. -/
def removesPaths : RustCall → Bool
  | .vfs_remove _ | .vfs_reset => true
  | _ => false

/-- Paths go only by a system call. -/
def keepsPaths (_ : RustSys) (c : RustCall) : Prop := removesPaths c = false

instance (s : RustSys) (c : RustCall) : Decidable (s.keepsPaths c) :=
  inferInstanceAs (Decidable (removesPaths c = false))

theorem Ok.named_call (h : s.Ok) (hn : s.toKState.Named) {c : RustCall} (hc : s.keepsPaths c)
    {s' : RustSys} (hs : s.call c = some s') : s'.toKState.Named := by
  have hsame : ∀ n, { s.toKState with net := n }.Named := fun n => ⟨hn.distinct, hn.registered⟩
  cases c
  case dispatch env nr a0 a1 a2 a3 =>
    obtain ⟨o, ho, rfl⟩ := call_dispatch hs
    have hmoves := (dispatch_moves h ho).2
    unfold DispatchMoves at hmoves
    split at hmoves
    · rw [hmoves]
      exact hn
    exact hmoves.keeps (fun t ht => ht.named hn) fun packets => hsame _
  case syscall_reset =>
    cases hs
    exact ⟨fun f _ _ hf => absurd hf.1 Bool.false_ne_true, fun f _ hf => absurd hf.1 Bool.false_ne_true⟩
  case vfs_remove path => cases hc
  case vfs_reset => cases hc
  case net_enqueue_packet data =>
    cases hs
    exact hsame _
  case net_dequeue_packet out =>
    cases hs
    exact hsame _
  case net_reset =>
    cases hs
    exact hsame _
  all_goals exact (other_call h rfl hs).tables.named hn

theorem named_of_reach {tr : List RustCall} (hr : rustRuns.Reach keepsPaths tr s) :
    s.Ok ∧ s.toKState.Named := by
  refine hr.invariant (fun s => s.Ok ∧ s.toKState.Named) ⟨ok_reset, ?_⟩ ?_
  · exact ⟨fun f _ _ hf => absurd hf.1 Bool.false_ne_true, fun f _ hf => absurd hf.1 Bool.false_ne_true⟩
  intro s c s' ⟨h, hn⟩ hc hs
  exact ⟨h.call hs, h.named_call hn hc hs⟩
end RustSys
/-- In every state that calls lead to, an `EXEC` of a path succeeds only if the
path is in the registry and its file holds an image, and changes no process
if it fails, exactly if it is not one that finds a file without a name. -/
theorem exec_runs_named_files (vfs : Vfs) :
    (∀ tr s, (processRuns vfs).Reach anyStep tr s →
      ∀ env nr (a0 a1 a2 a3 : UInt64), s.opOf nr = some .exec → a1 ≠ 0 →
        (s.ExecKeeps env nr a0 a1 a2 a3 ↔
          ¬s.kernel.RunsUnnamed (some (env.str a1)) (s.procs.find_pid a0.toUInt32).isSome)) ∧
    (∀ tr s, rustRuns.Reach RustSys.keepsPaths tr s →
      ∀ env nr (a0 a1 a2 a3 : UInt64) value, s.registered nr = some (.exec, value) → a1 ≠ 0 →
        ∃ o, s.syscall_dispatch env nr a0 a1 a2 a3 = .ok o ∧ (s.ExecKeeps env a1 o ↔
            ¬s.toKState.RunsUnnamed (env.str a1) (s.procs.proc_find a0.toUInt32).isSome)) := by
  constructor
  · intro tr s hr env nr a0 a1 a2 a3 hop ha
    exact ProcKernel.execKeeps_iff (ProcKernel.owns_of_reach hr).named hop ha a2 a3
  intro tr s hr env nr a0 a1 a2 a3 value hop ha
  obtain ⟨hok, hn⟩ := RustSys.named_of_reach hr
  exact RustSys.execKeeps_iff hok hn hop ha a2 a3

/-- A caller with an image at address 4096, the empty string at address 2 and
the string `/f` elsewhere. -/
def execEnv : Env :=
  { libraryEnv with str := fun a => if a == 2 then [] else [47, 102] }

def rustExecEnv : RustSys.Env := .ofMem ⟨execEnv.byte, fun a => some (execEnv.str a)⟩

/-- A process, and a file `/f` with the image in it. -/
def imageCalls : List ProcKernelCall :=
  [.proc (.create 1 0), .syscall (.register 1 17 0), .syscall (.register 2 21 0),
    .syscall (.register 3 23 0), .syscall (.register 4 18 0), .syscall (.register 5 11 0),
    .syscall (.dispatch execEnv 1 1 0 0 0), .syscall (.dispatch execEnv 2 1 0 0 0),
    .syscall (.dispatch execEnv 3 0 4096 120 0)]

def rustImageCalls : List RustCall :=
  [.proc (.create 1 0), .register 1 17 0, .register 2 21 0, .register 3 23 0, .register 4 18 0,
    .register 5 11 0, .dispatch rustExecEnv 1 1 0 0 0, .dispatch rustExecEnv 2 1 0 0 0,
    .dispatch rustExecEnv 3 0 4096 120 0]

/-- `EXEC` of `/f` succeeds in both kernels, and keeps its promise. -/
theorem exec_runs_named_files_found :
    (∃ s, (processRuns .reset).Reach anyStep imageCalls s ∧
      (s.qos_syscall_dispatch execEnv 5 1 1 0 0).1 = 0 ∧ s.ExecKeeps execEnv 5 1 1 0 0) ∧
    ∃ s, rustRuns.Reach RustSys.keepsPaths rustImageCalls s ∧
      ∃ o, s.syscall_dispatch rustExecEnv 5 1 1 0 0 = .ok o ∧ o.rc = 0 ∧
        s.ExecKeeps rustExecEnv 1 o := by
  constructor
  · refine System.exists_exec (P := fun s => s.opOf 5 = some .exec ∧
      (s.qos_syscall_dispatch execEnv 5 1 1 0 0).1 = 0) (by decide +kernel) ?_
    rintro s hr ⟨hop, hrc⟩
    refine ⟨hrc, ?_⟩
    refine ((exec_runs_named_files .reset).1 _ s hr execEnv 5 1 1 0 0 hop (by decide)).mpr ?_
    rintro ⟨hpath, -⟩
    cases hpath
  refine System.exists_execIf (P := fun s => s.registered 5 = some (.exec, 0) ∧
    (s.syscall_dispatch rustExecEnv 5 1 1 0 0).toOption.any (fun o => o.rc == 0) = true)
    (by decide +kernel) ?_
  rintro s hr ⟨hop, hrc⟩
  obtain ⟨o, ho, hiff⟩ := (exec_runs_named_files .reset).2 _ s hr rustExecEnv 5 1 1 0 0 0 hop
    (by decide)
  rw [ho] at hrc
  refine ⟨o, ho, eq_of_beq hrc, hiff.mpr ?_⟩
  rintro ⟨hpath, -⟩
  cases hpath

/-- After `UNLINK` of `/f`, `EXEC` of the empty path runs the image in both
kernels, and the empty path is not in the registry. -/
theorem exec_runs_unnamed_file :
    (∃ s, (processRuns .reset).Reach anyStep
        (imageCalls ++ [.syscall (.dispatch execEnv 4 1 0 0 0)]) s ∧ s.opOf 5 = some .exec ∧
      (s.qos_syscall_dispatch execEnv 5 1 2 0 0).1 = 0 ∧
      s.kernel.vfs.qos_vfs_exists (execEnv.str 2) = false ∧
      ¬s.ExecKeeps execEnv 5 1 2 0 0) ∧
    ∃ s, rustRuns.Reach RustSys.keepsPaths (rustImageCalls ++ [.dispatch rustExecEnv 4 1 0 0 0]) s ∧
      s.registered 5 = some (.exec, 0) ∧ s.vfs.qos_vfs_exists [] = false ∧
      ∃ o, s.syscall_dispatch rustExecEnv 5 1 2 0 0 = .ok o ∧ o.rc = 0 ∧
        ¬s.ExecKeeps rustExecEnv 2 o := by
  -- the promise would put the empty path into the registry
  have hbroken : ∀ (k : KState) (rc : Int) (unchanged : Prop), rc = 0 →
      k.vfs.qos_vfs_exists [] = false → ¬k.ExecPromise (some []) rc unchanged := by
    rintro k rc unchanged hrc hmissing ⟨hsucceeds, -⟩
    obtain ⟨p, hp, hexists, -⟩ := hsucceeds hrc
    cases hp
    rw [hmissing] at hexists
    cases hexists
  constructor
  · refine System.exists_exec (P := fun s => s.opOf 5 = some .exec ∧
      (s.qos_syscall_dispatch execEnv 5 1 2 0 0).1 = 0 ∧
      s.kernel.vfs.qos_vfs_exists (execEnv.str 2) = false) (by decide +kernel) ?_
    rintro s - ⟨hop, hrc, hmissing⟩
    exact ⟨hop, hrc, hmissing, hbroken _ _ _ hrc hmissing⟩
  refine System.exists_execIf (P := fun s => s.registered 5 = some (.exec, 0) ∧
    s.vfs.qos_vfs_exists [] = false ∧
    (s.syscall_dispatch rustExecEnv 5 1 2 0 0).toOption.any (fun o => decide (o.rc = 0)) = true)
    (by decide +kernel) ?_
  rintro s - ⟨hop, hmissing, hrc⟩
  obtain ⟨o, ho, hzero⟩ := Checked.exists_ok_of_any hrc
  exact ⟨hop, hmissing, o, ho, hzero, hbroken _ _ _ hzero hmissing⟩
end QosKernel
