import QosKernel.Syscall.RustFilesKeep

/-! # The files of the Rust kernel after any run of calls

What callers know of files agrees with the tables in every run, so a file
is an array of bytes: a `READ` returns what was written last to the
positions it reads, whatever happened to the path of the file and to other
files.
-/
open Framework
namespace QosKernel
/-- The runs of the calls on files, with what callers know of files. -/
def fileRuns : System (RustFiles × FileLog) FileCall where
  init := (.reset, .empty)
  step x c := (x.1.dispatch c).map fun o => (o.state, x.2.record c o.rc)

namespace RustFiles
variable {s s' : RustFiles} {l l' : FileLog}
  {slot slot' : Nat → Option NodeSlot} {n : Nat}
theorem agree_of_reach {tr : List FileCall} {x : RustFiles × FileLog}
    (hr : fileRuns.Reach anyStep tr x) : ∃ slot, Agree x.1 x.2 slot := by
  apply hr.invariant (fun x => ∃ slot, Agree x.1 x.2 slot)
  · exact ⟨_, .init⟩
  rintro x c x' ⟨slot, h⟩ - hs
  obtain ⟨o, ho, rfl⟩ := Option.map_eq_some_iff.mp hs
  exact h.dispatch ho

/-- The files are arrays of bytes: what callers know of them tells what the
calls return. -/
structure ByteArrays (s : RustFiles) (l : FileLog) : Prop where
  /-- The descriptors of files are those with a number. -/
  numbered : ∀ i : FdNum, (s.fds i).isFile = (l.file i.val).isSome
  /-- The paths that exist are those that name a file, each another one. -/
  named : ∀ path, s.vfs.qos_vfs_exists path = true ↔ ∃ n, l.name path = some n
  apart : ∀ path path' n, l.name path = some n → l.name path' = some n → path = path'
  /-- A file that is made next has another number than all before, and nothing
  was written to it. -/
  older : ∀ path n, l.name path = some n → n < l.made
  unmade : ∀ n, l.made ≤ n → l.writes n = []
  /-- `READ` returns the bytes that were written last, from the position of the
  descriptor up to the end of the file. -/
  read : ∀ env (a0 a1 a2 : UInt64) n, l.file a0.toUInt32.toNat = some n → a1 ≠ 0 →
    (s.op_read env a0 a1 a2).bytes = readBack (l.writes n) 0 (l.pos a0.toUInt32.toNat) a2.toNat ∧
    (s.op_read env a0 a1 a2).rc = (s.op_read env a0 a1 a2).bytes.length
  /-- `WRITE` takes the bytes that fit below the capacity. -/
  write : ∀ env (a0 a1 a2 : UInt64) n, l.file a0.toUInt32.toNat = some n → a1 ≠ 0 →
    (s.op_write env a0 a1 a2).rc =
      if l.pos a0.toUInt32.toNat < 1024 then
        ((min a2.toNat (1024 - l.pos a0.toUInt32.toNat) : Nat) : Int)
      else -1
  /-- Without a buffer both fail. -/
  null : ∀ env (a0 a2 : UInt64), s.op_read env a0 0 a2 = .fail s ∧ s.op_write env a0 0 a2 = .fail s

section
variable (env : Env) (s : RustFiles) (a0 a2 : UInt64)
theorem op_read_null : s.op_read env a0 0 a2 = .fail s := by
  unfold op_read
  split
  · rfl
  exact if_pos rfl

theorem op_write_null : s.op_write env a0 0 a2 = .fail s := by
  unfold op_write
  split
  · rfl
  exact if_pos rfl
end
namespace Agree
theorem write (h : Agree s l slot) {a0 a1 : UInt64} (hn : l.file a0.toUInt32.toNat = some n)
    (ha1 : a1 ≠ 0) (env : Env) (a2 : UInt64) :
    (s.op_write env a0 a1 a2).rc =
      if l.pos a0.toUInt32.toNat < 1024 then
        ((min a2.toNat (1024 - l.pos a0.toUInt32.toNat) : Nat) : Int)
      else -1 := by
  obtain ⟨i, hval, hi, hkind⟩ := h.fdAt hn
  rw [hval] at hn ⊢
  obtain ⟨hfull, hroom⟩ := h.write_file hn env a1 a2.toNat
  unfold RustFiles.op_write
  rw [hi]
  dsimp only
  rw [if_neg (by simpa using ha1), hkind]
  dsimp only
  rcases Nat.lt_or_ge (l.pos i.val) 1024 with hlt | hge
  · rw [if_pos hlt]
    exact (hroom hlt).1
  rw [if_neg (Nat.not_lt.mpr hge), hfull hge]
  rfl

theorem byteArrays (h : Agree s l slot) : ByteArrays s l where
  numbered i := (h.rows.row i).isFile
  named _ := h.names.exists_iff
  apart := h.names.apart
  older := h.names.older
  unmade := h.slots.unmade
  read env a0 a1 a2 n hn ha1 := by
    obtain ⟨hrc, hbytes⟩ := h.read hn ha1 env a2
    refine ⟨hbytes, ?_⟩
    rw [hrc, hbytes]
  write env a0 a1 a2 n hn ha1 := h.write hn ha1 env a2
  null env a0 a2 := ⟨op_read_null env s a0 a2, op_write_null env s a0 a2⟩
end Agree
/-! ### Two states in which a file is the same -/
/-- What callers know of the descriptor `fd` of the file `n` did not change. -/
structure SameFile (l l' : FileLog) (fd n : Nat) : Prop where
  file : l'.file fd = some n
  pos : l'.pos fd = l.pos fd
  writes : l'.writes n = l.writes n

theorem ByteArrays.same (h : ByteArrays s l) (h' : ByteArrays s' l') {a0 a1 : UInt64}
    (hn : l.file a0.toUInt32.toNat = some n) (hsame : SameFile l l' a0.toUInt32.toNat n)
    (ha1 : a1 ≠ 0) (env : Env) (a2 : UInt64) :
    (s'.op_read env a0 a1 a2).bytes = (s.op_read env a0 a1 a2).bytes ∧
      (s'.op_write env a0 a1 a2).rc = (s.op_write env a0 a1 a2).rc := by
  constructor
  · rw [(h'.read env a0 a1 a2 n hsame.file ha1).1, (h.read env a0 a1 a2 n hn ha1).1, hsame.pos,
      hsame.writes]
  rw [h'.write env a0 a1 a2 n hsame.file ha1, h.write env a0 a1 a2 n hn ha1, hsame.pos]
end RustFiles
namespace FileLog
variable {l : FileLog} {fd n : Nat}
theorem record_write_same {m : Nat} (c : FileCall) (hop : c.op = .write)
    (hm : l.file c.a0.toUInt32.toNat = some m) (hn : l.file fd = some n) (hne : n ≠ m) (rc : Int) :
    RustFiles.SameFile l (l.record c rc) fd n := by
  have hfd : fd ≠ c.a0.toUInt32.toNat := by
    rintro rfl
    exact hne (Option.some.inj (hn.symm.trans hm))
  cases rc with
  | negSucc k => exact ⟨hn, rfl, rfl⟩
  | ofNat k =>
  have hlearn : l.record c (.ofNat k) = (l.addWrite c.a0.toUInt32.toNat
      (c.env.bytes c.a1 k)).advance c.a0.toUInt32.toNat k := by
    show l.learn c k = _
    simp only [learn, hop]
  rw [hlearn]
  by_cases hempty : c.env.bytes c.a1 k = []
  · rw [hempty, addWrite_nil]
    exact ⟨hn, set_ne hfd, rfl⟩
  rw [addWrite_some hm hempty]
  exact ⟨hn, set_ne hfd, set_ne hne⟩

theorem record_unlink_same (c : FileCall) (hop : c.op = .unlink) (hn : l.file fd = some n)
    (rc : Int) : RustFiles.SameFile l (l.record c rc) fd n := by
  cases rc with
  | negSucc k => exact ⟨hn, rfl, rfl⟩
  | ofNat k =>
  have hlearn : l.record c (.ofNat k) = l.learn c k := rfl
  rw [hlearn]
  simp only [learn, hop]
  split
  all_goals exact ⟨hn, rfl, rfl⟩
end FileLog
namespace RustFiles
variable {s : RustFiles} {l : FileLog} {slot : Nat → Option NodeSlot}
  {env : Env} {a0 : UInt64}
theorem op_mkdir_path (h : (s.op_mkdir env a0).rc = 0) : ∃ path, env.str a0 = some path := by
  unfold op_mkdir at h
  split at h
  · cases h
  cases hpath : env.str a0 with
  | none =>
    rw [hpath] at h
    cases h
  | some path => exact ⟨path, rfl⟩

theorem Agree.created (h : Agree s l slot) (hmade : (s.op_mkdir env a0).rc = 0) {o : Outcome}
    (ho : (s.op_mkdir env a0).state.op_open env a0 = some o) {fd : Nat} (hrc : o.rc = fd)
    (env' : Env) {b1 : UInt64} (hb1 : b1 ≠ 0) (b2 : UInt64) :
    (o.state.op_read env' (.ofNat fd) b1 b2).rc = 0 := by
  obtain ⟨path, hpath⟩ := op_mkdir_path hmade
  have h1 := h.op_mkdir env a0 0 0
  dsimp only at h1
  rw [hmade] at h1
  obtain ⟨slot', h2⟩ := h1.op_open ho 0 0
  rw [hrc] at h2
  -- the log knows the descriptor as one of the new file
  have hfile : ((l.record ⟨env, .mkdir, a0, 0, 0⟩ 0).record ⟨env, .open, a0, 0, 0⟩ fd).file fd =
      some l.made := by
    show ((l.learn ⟨env, .mkdir, a0, 0, 0⟩ 0).learn ⟨env, .open, a0, 0, 0⟩ fd).file fd = _
    simp only [FileLog.learn, hpath, set_self, Option.bind_some]
  have hwrites : ((l.record ⟨env, .mkdir, a0, 0, 0⟩ 0).record ⟨env, .open, a0, 0, 0⟩ fd).writes
      l.made = [] := by
    show ((l.learn ⟨env, .mkdir, a0, 0, 0⟩ 0).learn ⟨env, .open, a0, 0, 0⟩ fd).writes l.made = _
    simp only [FileLog.learn, hpath]
    exact h.slots.unmade l.made (Nat.le_refl _)
  have hfd : (UInt64.ofNat fd).toUInt32.toNat = fd := by
    have hlt : fd < 256 := h2.rows.within fd _ hfile
    have hsize : UInt64.size = 18446744073709551616 := rfl
    rw [UInt64.toNat_toUInt32, UInt64.toNat_ofNat_of_lt' (by omega)]
    omega
  have hnumber : ((l.record ⟨env, .mkdir, a0, 0, 0⟩ 0).record ⟨env, .open, a0, 0, 0⟩ fd).file
      (UInt64.ofNat fd).toUInt32.toNat = some l.made := by
    rw [hfd]
    exact hfile
  obtain ⟨hread, -⟩ := h2.read hnumber hb1 env' b2
  rw [hread, hwrites, readBack_of_extent_le (Nat.zero_le _)]
  rfl
end RustFiles
/-- After every run of calls, the files are arrays of bytes. A write through a
descriptor of one file changes nothing that is read from another one;
`UNLINK` changes nothing for the descriptors that are open; and a file that
is made anew starts empty. -/
theorem files_are_byte_arrays (tr : List FileCall) (x : RustFiles × FileLog)
    (hr : fileRuns.Reach anyStep tr x) :
    x.1.ByteArrays x.2 ∧
    (∀ env env' (a0 a1 a2 b0 b1 b2 : UInt64) n m, x.2.file a0.toUInt32.toNat = some m →
      x.2.file b0.toUInt32.toNat = some n → n ≠ m → b1 ≠ 0 →
      ((x.1.op_write env a0 a1 a2).state.op_read env' b0 b1 b2).bytes =
        (x.1.op_read env' b0 b1 b2).bytes) ∧
    (∀ env env' (a0 b0 b1 b2 : UInt64) n, x.2.file b0.toUInt32.toNat = some n → b1 ≠ 0 →
      ((x.1.op_unlink env a0).state.op_read env' b0 b1 b2).bytes =
        (x.1.op_read env' b0 b1 b2).bytes ∧
      ((x.1.op_unlink env a0).state.op_write env' b0 b1 b2).rc = (x.1.op_write env' b0 b1 b2).rc) ∧
    (∀ env env' (a0 b1 b2 : UInt64) o (fd : Nat), (x.1.op_mkdir env a0).rc = 0 →
      (x.1.op_mkdir env a0).state.op_open env a0 = some o → o.rc = fd → b1 ≠ 0 →
      (o.state.op_read env' (.ofNat fd) b1 b2).rc = 0) := by
  obtain ⟨slot, h⟩ := RustFiles.agree_of_reach hr
  refine ⟨h.byteArrays, ?_, ?_, ?_⟩
  · intro env env' a0 a1 a2 b0 b1 b2 n m hm hn hne hb1
    have hsame := FileLog.record_write_same ⟨env, .write, a0, a1, a2⟩ rfl hm hn hne
      (x.1.op_write env a0 a1 a2).rc
    exact (h.byteArrays.same (h.op_write env a0 a1 a2).byteArrays hn hsame hb1 env' b2).1
  · intro env env' a0 b0 b1 b2 n hn hb1
    obtain ⟨slot', h'⟩ := h.op_unlink env a0 0 0
    have hsame := FileLog.record_unlink_same ⟨env, .unlink, a0, 0, 0⟩ rfl hn
      (x.1.op_unlink env a0).rc
    exact h.byteArrays.same h'.byteArrays hn hsame hb1 env' b2
  intro env env' a0 b1 b2 o fd hmade ho hrc hb1
  exact h.created hmade ho hrc env' hb1 b2

/-- A caller whose memory holds the number of each address, and the path `/a`
everywhere. -/
def fileEnv : RustFiles.Env where
  byte addr := addr.toUInt8
  str _ := some (cstr "/a")
  proc_alive _ := false
  proc_total _ _ := 0
  proc_byte _ _ _ := 0
  channel := (-1, [])

/-- A run that makes a file and writes three bytes and, behind a gap, one more;
copies the descriptor to 5, unlinks the path, makes a file with the same
path, writes two bytes to it, and goes back to the start of the first. -/
def fileCalls : List FileCall :=
  [⟨fileEnv, .mkdir, 1, 0, 0⟩, ⟨fileEnv, .open, 1, 0, 0⟩, ⟨fileEnv, .write, 0, 65, 3⟩,
    ⟨fileEnv, .lseek, 0, 5, 0⟩, ⟨fileEnv, .write, 0, 70, 1⟩, ⟨fileEnv, .dup2, 0, 5, 0⟩,
    ⟨fileEnv, .close, 0, 0, 0⟩, ⟨fileEnv, .unlink, 1, 0, 0⟩, ⟨fileEnv, .mkdir, 1, 0, 0⟩,
    ⟨fileEnv, .open, 1, 0, 0⟩, ⟨fileEnv, .write, 0, 80, 2⟩, ⟨fileEnv, .lseek, 5, 0, 0⟩]

/-- After that run, descriptor 5 reads the six bytes of the first file. -/
theorem files_are_byte_arrays_unlinked : ∃ x, fileRuns.Reach anyStep fileCalls x ∧
    x.2.file 5 = some 0 ∧ x.2.file 0 = some 1 ∧
    (x.1.op_read fileEnv 5 1 9).bytes = [65, 66, 67, 0, 0, 70] := by
  refine System.exists_exec (P := fun x => x.2.file 5 = some 0 ∧ x.2.file 0 = some 1 ∧
    readBack (x.2.writes 0) 0 (x.2.pos 5) 9 = [65, 66, 67, 0, 0, 70]) (by decide +kernel) ?_
  rintro x hr ⟨hfile, hother, hback⟩
  have hread := (files_are_byte_arrays fileCalls x hr).1.read fileEnv 5 1 9 0 hfile (by decide)
  exact ⟨hfile, hother, hread.1.trans hback⟩
end QosKernel
