import QosKernel.Syscall.FileLog

/-! # Calls on files keep the agreement with the log

What callers know of files after a call is what the tables then hold. One
lemma for each call, through a lemma for each move it makes: a row is
closed, copied or moved on, a file gets or loses its slot.
-/
open Framework
namespace QosKernel.RustFiles
open FileLog
variable {fd : UInt32} {file_id : UInt16}
variable {s : RustFiles} {l : FileLog} {slot : Nat → Option NodeSlot}
  {env : Env} {i : FdNum} {f : NodeSlot} {n : Nat} {path : CStr}
/-! ### Searches -/
theorem fdAt_some (h : s.fdAt fd = some i) : fd.toNat = i.val ∧ (s.fds i).used = true := by
  unfold fdAt at h
  split at h
  · split at h
    next hused =>
      cases h
      exact ⟨rfl, hused⟩
    · cases h
  cases h

theorem fdAt_eq (hfd : fd.toNat = i.val) (hused : (s.fds i).used = true) : s.fdAt fd = some i := by
  have hlt : fd.toNat < QOS_FD_MAX := hfd ▸ i.isLt
  have hi : i = ⟨fd.toNat, hlt⟩ := Fin.ext hfd.symm
  rw [hi] at hused
  unfold fdAt
  rw [dif_pos hlt, if_pos hused, hi]

theorem fileAt_some (h : s.fileAt file_id = some f) :
    file_id.toNat = f.val ∧ (s.files f).used = true := by
  unfold fileAt at h
  split at h
  · split at h
    next hused =>
      cases h
      exact ⟨rfl, hused⟩
    · cases h
  cases h

theorem fileAt_eq (hid : file_id.toNat = f.val) (hused : (s.files f).used = true) :
    s.fileAt file_id = some f := by
  have hlt : file_id.toNat < QOS_VFS_MAX_NODES := hid ▸ f.isLt
  have hf : f = ⟨file_id.toNat, hlt⟩ := Fin.ext hid.symm
  rw [hf] at hused
  unfold fileAt
  rw [dif_pos hlt, if_pos hused, hf]

theorem has_refs_iff : s.syscall_file_has_refs f = true ↔
    ∃ i, (s.fds i).isFile = true ∧ (s.fds i).file_id.toNat = f.val := by
  rw [syscall_file_has_refs, first_isSome]
  simp

theorem file_find_some (h : s.syscall_file_find path = some f) :
    (s.files f).used = true ∧ (s.files f).path = path := by
  have hf := first_some h
  rwa [Bool.and_eq_true, beq_iff_eq] at hf

theorem file_find_none (h : s.syscall_file_find path = none) (hused : (s.files f).used = true) :
    (s.files f).path ≠ path := by
  intro hpath
  have hf := first_none.mp h f
  rw [hused, hpath, beq_self_eq_true] at hf
  cases hf

theorem isFile_of_unused (h : (s.fds i).used = false) : (s.fds i).isFile = false := by
  rw [FdRow.isFile, h, Bool.false_and]

theorem setOffset_self (s : RustFiles) (i : FdNum) :
    s.setOffset i (s.fds i).offset.toNat = s := by
  unfold setOffset setFd
  rw [UInt64.ofNat_toNat, set_eq_self]

theorem maybe_gc_fds (s : RustFiles) (file_id : UInt16) :
    (s.syscall_file_maybe_gc file_id).fds = s.fds := by
  unfold syscall_file_maybe_gc
  split
  · rfl
  split <;> rfl

theorem fd_clear_ne {j : FdNum} (hj : j ≠ i) : (s.syscall_fd_clear i).fds j = s.fds j := by
  unfold syscall_fd_clear
  split
  · rfl
  rw [maybe_gc_fds]
  exact set_ne hj

theorem fd_clear_fresh (s : RustFiles) (i : FdNum) (kind : FdKind) :
    (s.setFd i (.fresh kind)).syscall_fd_clear i =
      ((s.setFd i (.fresh kind)).setFd i .closed).syscall_file_maybe_gc 0xFFFF := by
  have hrow : (s.setFd i (.fresh kind)).fds i = .fresh kind := set_self
  unfold syscall_fd_clear
  rw [hrow]
  rfl

theorem checked_add_lt {a b : Int} {p : Nat} (h : checked_add a b = some p) : p < 2 ^ 64 := by
  unfold checked_add at h
  split at h
  next hrange =>
    have hmax : KState.INT64_MAX = 9223372036854775807 := rfl
    have hp : a + b = p := Option.some.inj h
    omega
  · cases h

/-! ### Moves that keep the agreement -/
namespace Agree
section
variable (h : Agree s l slot)
include h
theorem fileAt (hn : l.file i.val = some n) :
    ∃ f, slot n = some f ∧ s.fileAt (s.fds i).file_id = some f := by
  obtain ⟨f, hf, hid⟩ := (h.rows.row i).opened n hn
  exact ⟨f, hf, fileAt_eq hid (h.slots.used n f hf)⟩

theorem fdAt {fd : UInt32} (hn : l.file fd.toNat = some n) :
    ∃ i : FdNum, fd.toNat = i.val ∧ s.fdAt fd = some i ∧ (s.fds i).kind = .vfs := by
  let i : FdNum := ⟨fd.toNat, h.rows.within _ n hn⟩
  have hfile := (h.rows.row i).isFile
  rw [show l.file i.val = some n from hn, FdRow.isFile, Option.isSome_some, Bool.and_eq_true,
    beq_iff_eq] at hfile
  exact ⟨i, rfl, fdAt_eq rfl hfile.1, hfile.2⟩

theorem maybe_gc (file_id : UInt16) : ∃ slot', Agree (s.syscall_file_maybe_gc file_id) l slot' := by
  unfold syscall_file_maybe_gc
  cases hf : s.fileAt file_id with
  | none => exact ⟨slot, h⟩
  | some f =>
  dsimp only
  split
  · exact ⟨slot, h⟩
  next hgo =>
  rw [Bool.or_eq_true, not_or, has_refs_iff] at hgo
  obtain ⟨hpath, hrefs⟩ := hgo
  obtain ⟨n, hn⟩ := h.slots.owned f (fileAt_some hf).2
  refine ⟨set slot n none, h.names, h.slots.drop hn ?_, h.rows.move ?_ none⟩
  · simpa using hpath
  -- a descriptor of the file would be one that refers to its slot
  intro i hi
  obtain ⟨g, hg, hid⟩ := (h.rows.row i).opened n hi
  rw [hn, Option.some.injEq] at hg
  refine hrefs ⟨i, ?_, hg ▸ hid⟩
  rw [(h.rows.row i).isFile, hi]
  rfl

theorem fd_clear (i : FdNum) :
    ∃ slot', Agree (s.syscall_fd_clear i) { l with file := set l.file i.val none } slot' := by
  unfold syscall_fd_clear
  cases hused : (s.fds i).used with
  | false =>
    have hnone : l.file i.val = none := h.rows.file_none (isFile_of_unused hused)
    rw [← hnone, set_eq_self]
    exact ⟨slot, h⟩
  | true =>
  have hclose : Agree (s.setFd i .closed) { l with file := set l.file i.val none } slot :=
    ⟨h.names, h.slots, h.rows.close rfl⟩
  exact hclose.maybe_gc _

/-- The position of a descriptor moves; if it is none of a file, what the log
says of it does not matter. -/
theorem setOffset {p q : Nat} (hp : ∀ n, l.file i.val = some n → p < 2 ^ 64 ∧ q = p) :
    Agree (s.setOffset i p) { l with pos := set l.pos i.val q } slot := by
  refine ⟨h.names, h.slots, h.rows.seek rfl rfl ?_⟩
  intro n hn
  obtain ⟨hlt, rfl⟩ := hp n hn
  exact UInt64.toNat_ofNat_of_lt' hlt

theorem advance (hi : l.file i.val = none) (k : Nat) : Agree s (l.advance i.val k) slot := by
  have hmove : Agree (s.setOffset i (s.fds i).offset.toNat) (l.advance i.val k) slot := by
    apply h.setOffset
    intro n hn
    rw [hi] at hn
    cases hn
  rwa [setOffset_self] at hmove

theorem file_some (hused : (s.fds i).used = true)
    (hk : (s.fds i).kind = .vfs) : ∃ n, l.file i.val = some n := by
  have hfile := (h.rows.row i).isFile
  rw [FdRow.isFile, hused, hk] at hfile
  exact Option.isSome_iff_exists.mp hfile.symm

theorem file_none (hk : (s.fds i).kind ≠ .vfs) : l.file i.val = none := by
  apply h.rows.file_none
  rw [FdRow.isFile, beq_eq_false_iff_ne.mpr hk, Bool.and_false]
end
end Agree
/-! ### Reading -/
theorem read_file_eq (hf : s.fileAt (s.fds i).file_id = some f) (addr : UInt64) (len : Nat) :
    let offset := (s.fds i).offset.toNat
    let found := (List.range (min len ((s.files f).len - offset))).map
      fun k => (s.files f).data (offset + k)
    (s.read_file i addr len).rc = found.length ∧ (s.read_file i addr len).bytes = found ∧
      (s.read_file i addr len).state = s.setOffset i (offset + found.length) := by
  intro offset found
  have hlen : found.length = min len ((s.files f).len - offset) := by simp [found]
  -- at the end of the file, and for an empty buffer, there is nothing to read
  have hnone : min len ((s.files f).len - offset) = 0 →
      (Outcome.ret s 0).rc = found.length ∧ (Outcome.ret s 0).bytes = found ∧
        (Outcome.ret s 0).state = s.setOffset i (offset + found.length) := by
    intro h0
    have hnil : found = [] := List.length_eq_zero_iff.mp (hlen.trans h0)
    rw [hnil]
    exact ⟨rfl, rfl, (setOffset_self s i).symm⟩
  unfold read_file
  rw [hf]
  dsimp only
  split
  next hend =>
    apply hnone
    omega
  split
  next h0 => exact hnone h0
  rw [hlen]
  refine ⟨rfl, ?_, rfl⟩
  exact List.append_nil _

namespace Agree
variable {a0 : UInt64} {o : Outcome}
section
variable (h : Agree s l slot)
include h
theorem read_file (hn : l.file i.val = some n) (addr : UInt64) (len : Nat) :
    let found := readBack (l.writes n) 0 (l.pos i.val) len
    (s.read_file i addr len).rc = found.length ∧ (s.read_file i addr len).bytes = found ∧
      (s.read_file i addr len).state = s.setOffset i (l.pos i.val + found.length) := by
  obtain ⟨f, hslot, hf⟩ := h.fileAt hn
  have heq := read_file_eq hf addr len
  rw [h.slots.length n f hslot, h.slots.bytes n f hslot, (h.rows.row i).position n hn] at heq
  exact heq

theorem read {a1 : UInt64} (hn : l.file a0.toUInt32.toNat = some n)
    (ha1 : a1 ≠ 0) (env : Env) (a2 : UInt64) :
    let found := readBack (l.writes n) 0 (l.pos a0.toUInt32.toNat) a2.toNat
    (s.op_read env a0 a1 a2).rc = found.length ∧ (s.op_read env a0 a1 a2).bytes = found := by
  obtain ⟨i, hval, hi, hkind⟩ := h.fdAt hn
  rw [hval] at hn ⊢
  obtain ⟨hrc, hbytes, -⟩ := h.read_file hn a1 a2.toNat
  unfold op_read
  rw [hi]
  dsimp only
  rw [if_neg (by simpa using ha1), hkind]
  exact ⟨hrc, hbytes⟩

theorem readBack_stop (hn : l.file i.val = some n) (len : Nat) :
    l.pos i.val + (readBack (l.writes n) 0 (l.pos i.val) len).length < 2 ^ 64 := by
  have hpos : l.pos i.val < 2 ^ 64 := by
    rw [← (h.rows.row i).position n hn]
    exact UInt64.toNat_lt _
  have hbound := h.slots.bounded n
  have hcap : QOS_PIPE_CAP = 1024 := rfl
  rw [readBack, List.length_map, List.length_range]
  omega

theorem read_proc (hi : l.file i.val = none) (env : Env) (addr : UInt64)
    (len : Nat) : ∃ k : Nat, (s.read_proc env i addr len).rc = k ∧
      Agree (s.read_proc env i addr len).state (l.advance i.val k) slot := by
  simp only [RustFiles.read_proc]
  split
  · exact ⟨0, rfl, h.advance hi 0⟩
  split
  · exact ⟨0, rfl, h.advance hi 0⟩
  refine ⟨_, rfl, h.setOffset ?_⟩
  intro n hn
  rw [hi] at hn
  cases hn

theorem op_read (env : Env) (a0 a1 a2 : UInt64) :
    let o := s.op_read env a0 a1 a2
    Agree o.state (l.record ⟨env, .read, a0, a1, a2⟩ o.rc) slot := by
  unfold RustFiles.op_read
  cases hi : s.fdAt a0.toUInt32 with
  | none => exact h
  | some i =>
  have hval : a0.toUInt32.toNat = i.val := (fdAt_some hi).1
  have hlearn : ∀ k, l.learn ⟨env, .read, a0, a1, a2⟩ k = l.advance i.val k := by
    intro k
    rw [← hval]
    rfl
  dsimp only
  split
  · exact h
  cases hk : (s.fds i).kind with
  | proc =>
    have hnone : l.file i.val = none := h.file_none (by rw [hk]; decide)
    obtain ⟨k, hrc, hagree⟩ := h.read_proc hnone env a1 a2.toNat
    dsimp only
    rw [hrc, record_natCast, hlearn]
    exact hagree
  | vfs =>
    dsimp only
    obtain ⟨n, hn⟩ := h.file_some (fdAt_some hi).2 hk
    obtain ⟨hrc, -, hstate⟩ := h.read_file hn a1 a2.toNat
    rw [hrc, hstate, record_natCast, hlearn]
    exact h.setOffset fun m hm => ⟨h.readBack_stop hn a2.toNat, rfl⟩
  | pipeR | socket =>
    have hnone : l.file i.val = none := h.file_none (by rw [hk]; decide)
    dsimp only
    cases env.channel.1 with
    | ofNat k =>
      have hkeep : Agree s (l.learn ⟨env, .read, a0, a1, a2⟩ k) slot := by
        rw [hlearn]
        exact h.advance hnone k
      exact hkeep
    | negSucc k => exact h
  | pipeW | none => exact h

/-! ### Writing -/
theorem patch (hn : l.file i.val = some n) (hslot : slot n = some f)
    {src : List UInt8} (hne : src ≠ []) {stop : Nat} (hstop : stop = l.pos i.val + src.length)
    (hcap : stop ≤ QOS_PIPE_CAP) :
    Agree { s with files := set s.files f { s.files f with
      len := if (s.files f).len < stop then stop else (s.files f).len
      data := (Patch.mk (l.pos i.val) src).apply (s.files f).data } } (l.addWrite i.val src) slot := by
  subst hstop
  rw [addWrite_some hn hne]
  refine ⟨h.names, h.slots.patch hslot ⟨l.pos i.val, src⟩ hcap rfl rfl ?_ rfl, h.rows⟩
  show (if (s.files f).len < l.pos i.val + src.length then l.pos i.val + src.length
    else (s.files f).len) = max (s.files f).len (l.pos i.val + src.length)
  split
  next hlt => rw [Nat.max_eq_right (Nat.le_of_lt hlt)]
  next hge => rw [Nat.max_eq_left (Nat.not_lt.mp hge)]

theorem write_file (hn : l.file i.val = some n) (env : Env) (addr : UInt64) (len : Nat) :
    let o := s.write_file env i addr len
    let write_len := min len (QOS_PIPE_CAP - l.pos i.val)
    (QOS_PIPE_CAP ≤ l.pos i.val → o = .fail s) ∧
    (l.pos i.val < QOS_PIPE_CAP → o.rc = write_len ∧
      Agree o.state ((l.addWrite i.val (env.bytes addr write_len)).advance i.val write_len) slot) := by
  intro o write_len
  obtain ⟨f, hslot, hf⟩ := h.fileAt hn
  have hpos : (s.fds i).offset.toNat = l.pos i.val := (h.rows.row i).position n hn
  have ho : o = s.write_file env i addr len := rfl
  unfold RustFiles.write_file at ho
  rw [hf] at ho
  dsimp only at ho
  rw [hpos] at ho
  constructor
  · intro hfull
    rw [ho, if_pos hfull]
  intro hroom
  rw [if_neg (Nat.not_le.mpr hroom)] at ho
  by_cases h0 : write_len = 0
  · rw [if_pos h0] at ho
    rw [ho, h0]
    refine ⟨rfl, ?_⟩
    rw [show env.bytes addr 0 = [] from rfl, addWrite_nil, advance_zero]
    exact h
  rw [if_neg h0] at ho
  have hlen : (env.bytes addr write_len).length = write_len := by simp [RustKernel.UserMem.bytes]
  have hne : env.bytes addr write_len ≠ [] := by
    intro hnil
    rw [hnil] at hlen
    exact h0 hlen.symm
  have hstop : l.pos i.val + write_len ≤ QOS_PIPE_CAP := by omega
  have hpatch := h.patch hn hslot hne (congrArg (l.pos i.val + ·) hlen.symm) hstop
  rw [ho]
  refine ⟨rfl, ?_⟩
  refine hpatch.setOffset fun m hm => ⟨?_, ?_⟩
  · have hcap : QOS_PIPE_CAP = 1024 := rfl
    omega
  rw [addWrite_some hn hne]

section
variable (env : Env) (a0 a1 a2 : UInt64)
theorem op_write :
    let o := s.op_write env a0 a1 a2
    Agree o.state (l.record ⟨env, .write, a0, a1, a2⟩ o.rc) slot := by
  unfold RustFiles.op_write
  cases hi : s.fdAt a0.toUInt32 with
  | none => exact h
  | some i =>
  have hval : a0.toUInt32.toNat = i.val := (fdAt_some hi).1
  have hlearn : ∀ k, l.learn ⟨env, .write, a0, a1, a2⟩ k =
      (l.addWrite i.val (env.bytes a1 k)).advance i.val k := by
    intro k
    rw [← hval]
    rfl
  dsimp only
  split
  · exact h
  cases hk : (s.fds i).kind with
  | vfs =>
    dsimp only
    obtain ⟨n, hn⟩ := h.file_some (fdAt_some hi).2 hk
    obtain ⟨hfull, hroom⟩ := h.write_file hn env a1 a2.toNat
    rcases Nat.lt_or_ge (l.pos i.val) QOS_PIPE_CAP with hlt | hge
    · obtain ⟨hrc, hagree⟩ := hroom hlt
      rw [hrc, record_natCast, hlearn]
      exact hagree
    rw [hfull hge]
    exact h
  | pipeW | socket =>
    have hnone : l.file i.val = none := h.file_none (by rw [hk]; decide)
    dsimp only
    cases hrc : env.channel.1 with
    | ofNat k =>
      have hkeep : Agree s (l.learn ⟨env, .write, a0, a1, a2⟩ k) slot := by
        rw [hlearn, addWrite_none hnone]
        exact h.advance hnone k
      exact hkeep
    | negSucc k => exact h
  | proc | pipeR | none => exact h

/-! ### Offsets and descriptors -/
theorem op_lseek :
    let o := s.op_lseek env a0 a1 a2
    Agree o.state (l.record ⟨env, .lseek, a0, a1, a2⟩ o.rc) slot := by
  unfold RustFiles.op_lseek
  cases hi : s.fdAt a0.toUInt32 with
  | none => exact h
  | some i =>
  have hval : a0.toUInt32.toNat = i.val := (fdAt_some hi).1
  dsimp only
  split
  · exact h
  cases hnext : (s.seek_base env i a2.toUInt32).bind (checked_add · a1.toInt64.toInt) with
  | none => exact h
  | some next =>
  dsimp only
  split
  · exact h
  next hneg =>
  obtain ⟨p, rfl⟩ := Int.eq_ofNat_of_zero_le (Int.not_lt.mp hneg)
  obtain ⟨base, -, hadd⟩ := Option.bind_eq_some_iff.mp hnext
  have hlearn : l.record ⟨env, .lseek, a0, a1, a2⟩ p = { l with pos := set l.pos i.val p } := by
    rw [record_natCast, ← hval]
    rfl
  show Agree (s.setOffset i p) (l.record ⟨env, .lseek, a0, a1, a2⟩ p) slot
  rw [hlearn]
  apply h.setOffset
  intro n hn
  exact ⟨checked_add_lt hadd, rfl⟩

theorem op_close :
    let o := s.op_close a0
    ∃ slot', Agree o.state (l.record ⟨env, .close, a0, a1, a2⟩ o.rc) slot' := by
  unfold RustFiles.op_close
  cases hi : s.fdAt a0.toUInt32 with
  | none => exact ⟨slot, h⟩
  | some i =>
  have hlearn : l.record ⟨env, .close, a0, a1, a2⟩ 0 =
      { l with file := set l.file i.val none } := by
    rw [← (fdAt_some hi).1]
    rfl
  show ∃ slot', Agree (s.syscall_fd_clear i) (l.record ⟨env, .close, a0, a1, a2⟩ 0) slot'
  rw [hlearn]
  exact h.fd_clear i

theorem op_dup2 :
    let o := s.op_dup2 a0 a1
    ∃ slot', Agree o.state (l.record ⟨env, .dup2, a0, a1, a2⟩ o.rc) slot' := by
  unfold RustFiles.op_dup2
  cases hi : s.fdAt a0.toUInt32 with
  | none => exact ⟨slot, h⟩
  | some old =>
  obtain ⟨hval, hused⟩ := fdAt_some hi
  dsimp only
  split
  next hlt =>
    have hlearn : l.record ⟨env, .dup2, a0, a1, a2⟩ a1.toUInt32.toNat = { l with
          file := set l.file a1.toUInt32.toNat (l.file old.val)
          pos := set l.pos a1.toUInt32.toNat (l.pos old.val) } := by
      rw [record_natCast, ← hval]
      rfl
    split
    next hsame =>
      show ∃ slot', Agree s (l.record ⟨env, .dup2, a0, a1, a2⟩ a1.toUInt32.toNat) slot'
      rw [hlearn, hsame, set_eq_self, set_eq_self]
      exact ⟨slot, h⟩
    next hne =>
    generalize hnew : (⟨a1.toUInt32.toNat, hlt⟩ : FdNum) = new at hne ⊢
    have hnewval : a1.toUInt32.toNat = new.val := congrArg Fin.val hnew
    obtain ⟨slot', hclear⟩ := h.fd_clear new
    refine ⟨slot', ?_⟩
    have hold : { (s.syscall_fd_clear new).fds old with used := true } =
        (s.syscall_fd_clear new).fds old := by
      rw [fd_clear_ne hne, ← hused]
    show Agree ((s.syscall_fd_clear new).setFd new
      { (s.syscall_fd_clear new).fds old with used := true })
      (l.record ⟨env, .dup2, a0, a1, a2⟩ new.val) slot'
    rw [hold, ← hnewval, hlearn, hnewval]
    exact ⟨hclear.names, hclear.slots, hclear.rows.copy hne⟩
  · exact ⟨slot, h⟩

/-! ### Paths -/
theorem op_mkdir :
    let o := s.op_mkdir env a0
    Agree o.state (l.record ⟨env, .mkdir, a0, a1, a2⟩ o.rc) slot := by
  unfold RustFiles.op_mkdir
  split
  · exact h
  cases hpath : env.str a0 with
  | none => exact h
  | some path =>
  dsimp only
  split
  · exact h
  rcases s.vfs.qos_vfs_create_cases path with hfail | ⟨i, hi, hvalid, hnew, hok⟩
  · rw [hfail]
    exact h
  rw [hok]
  have hlearn : l.record ⟨env, .mkdir, a0, a1, a2⟩ 0 = { l with
      made := l.made + 1, name := set l.name path (some l.made) } := by
    show l.learn ⟨env, .mkdir, a0, a1, a2⟩ 0 = _
    simp only [learn, hpath]
  have hfree : l.name path = none := by
    by_contra hsome
    obtain ⟨n, hn⟩ := Option.ne_none_iff_exists'.mp hsome
    obtain ⟨j, hj⟩ := (h.names.listed path).mpr ⟨n, hn⟩
    exact hnew j hj
  show Agree { s with vfs := ⟨set s.vfs.nodes i (some path), s.vfs.count + 1⟩ }
    (l.record ⟨env, .mkdir, a0, a1, a2⟩ 0) slot
  rw [hlearn]
  exact ⟨h.names.create hi hvalid hnew _, h.slots.create hfree, h.rows⟩
end
theorem slot_iff (hname : l.name path = some n) : slot n = s.syscall_file_find path := by
  have hne : path ≠ [] := h.names.ne_nil hname
  cases hfind : s.syscall_file_find path with
  | none =>
    rw [Option.eq_none_iff_forall_ne_some]
    intro f hf
    have hpath := ((h.slots.titled n f path hf).mp hname).2
    exact file_find_none hfind (h.slots.used n f hf) hpath
  | some f =>
  obtain ⟨hused, hpath⟩ := file_find_some hfind
  exact h.slots.slot_of_find hname hne hused hpath

theorem unlink_file {j : NodeSlot} (hj : s.vfs.nodes j = some path) (count : UInt32) :
    ∃ slot', Agree ({ s with vfs := ⟨set s.vfs.nodes j none, count⟩ }.unlink_file path)
      { l with name := set l.name path none } slot' := by
  obtain ⟨n, hname⟩ := (h.names.listed path).mp ⟨j, hj⟩
  have hslot := h.slot_iff hname
  have hnames := h.names.remove hj count
  have hfind' : { s with vfs := ⟨set s.vfs.nodes j none, count⟩ }.syscall_file_find path =
      s.syscall_file_find path := rfl
  unfold RustFiles.unlink_file
  rw [hfind']
  cases hfind : s.syscall_file_find path with
  | none =>
    rw [hfind] at hslot
    refine ⟨slot, hnames, h.slots.unlink_unopened ?_, h.rows⟩
    intro m f hm hf
    rw [hname, Option.some.injEq] at hm
    rw [← hm, hslot] at hf
    cases hf
  | some f =>
  rw [hfind] at hslot
  have hunlink : Agree { s with
      vfs := ⟨set s.vfs.nodes j none, count⟩
      files := set s.files f { s.files f with path := [] } }
      { l with name := set l.name path none } slot :=
    ⟨hnames, h.slots.unlink hslot hname, h.rows⟩
  exact hunlink.maybe_gc _

variable (env : Env)
theorem op_unlink (a0 a1 a2 : UInt64) :
    let o := s.op_unlink env a0
    ∃ slot', Agree o.state (l.record ⟨env, .unlink, a0, a1, a2⟩ o.rc) slot' := by
  unfold RustFiles.op_unlink
  split
  · exact ⟨slot, h⟩
  cases hpath : env.str a0 with
  | none => exact ⟨slot, h⟩
  | some path =>
  dsimp only
  split
  · exact ⟨slot, h⟩
  rcases s.vfs.qos_vfs_remove_cases path with hfail | ⟨j, hj, -, hok⟩
  · rw [hfail]
    exact ⟨slot, h⟩
  rw [hok]
  have hlearn : l.record ⟨env, .unlink, a0, a1, a2⟩ 0 =
      { l with name := set l.name path none } := by
    show l.learn ⟨env, .unlink, a0, a1, a2⟩ 0 = _
    simp only [learn, hpath]
  show ∃ slot', Agree
    ({ s with vfs := ⟨set s.vfs.nodes j none, s.vfs.count - 1⟩ }.unlink_file path)
    (l.record ⟨env, .unlink, a0, a1, a2⟩ 0) slot'
  rw [hlearn]
  exact h.unlink_file hj _

theorem open_proc (answer : Option (ProcKind × UInt32)) :
    (s.open_proc env answer).rc = -1 ∧ (s.open_proc env answer).state = s ∨
    ∃ i : FdNum, (s.open_proc env answer).rc = i.val ∧ Agree (s.open_proc env answer).state
        { l with file := set l.file i.val none, pos := set l.pos i.val 0 } slot := by
  unfold RustFiles.open_proc
  split
  · exact .inl ⟨rfl, rfl⟩
  split
  · exact .inl ⟨rfl, rfl⟩
  unfold syscall_fd_alloc
  cases hi : first fun i => !(s.fds i).used with
  | none => exact .inl ⟨rfl, rfl⟩
  | some i =>
  refine .inr ⟨i, rfl, h.names, h.slots, ?_⟩
  show RowsAgree (set (set s.fds i _) i _) _ _ slot
  rw [set_set]
  apply h.rows.setRow
  apply RowAgrees.other
  show FdRow.isFile { set s.fds i (FdRow.fresh .proc) i with proc_kind := _, proc_pid := _ } = false
  rw [set_self]
  rfl
end
theorem opened_row (hslot : slot n = some f) :
    RowAgrees { FdRow.fresh .vfs with file_id := .ofNat f.val } (some n) 0 slot := by
  have hid : (UInt16.ofNat f.val).toNat = f.val :=
    UInt16.toNat_ofNat_of_lt' (Nat.lt_trans f.isLt (by decide))
  constructor
  · rfl
  · intro m hm
    cases hm
    exact ⟨f, hslot, hid⟩
  exact fun _ _ => rfl

section
variable (h : Agree s l slot)
include h
theorem open_row (hslot : slot n = some f) (i : FdNum) :
    let s1 := s.setFd i (.fresh .vfs)
    Agree (s1.setFd i { s1.fds i with file_id := .ofNat f.val })
      { l with file := set l.file i.val (some n), pos := set l.pos i.val 0 } slot := by
  refine ⟨h.names, h.slots, ?_⟩
  show RowsAgree (set (set s.fds i (.fresh .vfs)) i
    { set s.fds i (.fresh .vfs) i with file_id := .ofNat f.val }) _ _ slot
  rw [set_set, set_self]
  exact h.rows.setRow (opened_row hslot)

theorem alloc (hname : l.name path = some n)
    (hfind : s.syscall_file_find path = none) (hfree : (s.files f).used = false) :
    Agree { s with files := set s.files f (.new path) } l (set slot n (some f)) := by
  have hslot : slot n = none := (h.slot_iff hname).trans hfind
  refine ⟨h.names, h.slots.alloc hname (h.names.ne_nil hname) ?_ (h.names.older path n hname)
    hslot hfree, h.rows.move ?_ _⟩
  · exact fun path' hname' => h.names.apart path' path n hname' hname
  intro i hi
  obtain ⟨g, hg, -⟩ := (h.rows.row i).opened n hi
  rw [hslot] at hg
  cases hg

theorem open_file (hname : l.name path = some n) :
    (∃ slot', (s.open_file path).rc = -1 ∧ Agree (s.open_file path).state l slot') ∨
    ∃ (i : FdNum) (slot' : _), (s.open_file path).rc = i.val ∧
      Agree (s.open_file path).state
        { l with file := set l.file i.val (some n), pos := set l.pos i.val 0 } slot' := by
  unfold RustFiles.open_file syscall_fd_alloc
  cases hi : first fun i => !(s.fds i).used with
  | none => exact .inl ⟨slot, rfl, h⟩
  | some i =>
  have hunused : (s.fds i).used = false := by simpa using first_some hi
  dsimp only [Option.map_some]
  have hfind' : (s.setFd i (.fresh .vfs)).syscall_file_find path = s.syscall_file_find path := rfl
  unfold syscall_file_ensure
  rw [hfind']
  cases hfind : s.syscall_file_find path with
  | some f => exact .inr ⟨i, slot, rfl, h.open_row ((h.slot_iff hname).trans hfind) i⟩
  | none =>
  dsimp only
  unfold syscall_file_alloc
  have hfree' : (first fun f => !((s.setFd i (.fresh .vfs)).files f).used) =
      first fun f => !(s.files f).used := rfl
  rw [hfree']
  cases hf : first fun f => !(s.files f).used with
  | none =>
    -- no slot is free, and the descriptor is given up
    left
    have hnone : l.file i.val = none := h.rows.file_none (isFile_of_unused hunused)
    have hclose : Agree ((s.setFd i (.fresh .vfs)).setFd i .closed) l slot := by
      refine ⟨h.names, h.slots, ?_⟩
      have hrows : RowsAgree (set s.fds i .closed) (set l.file i.val none) l.pos slot :=
        h.rows.close rfl
      rw [← hnone, set_eq_self] at hrows
      show RowsAgree (set (set s.fds i (.fresh .vfs)) i .closed) l.file l.pos slot
      rw [set_set]
      exact hrows
    obtain ⟨slot', hgc⟩ := hclose.maybe_gc 0xFFFF
    refine ⟨slot', rfl, ?_⟩
    show Agree ((s.setFd i (.fresh .vfs)).syscall_fd_clear i) l slot'
    rw [fd_clear_fresh]
    exact hgc
  | some f =>
  have hfree : (s.files f).used = false := by simpa using first_some hf
  right
  have halloc := h.alloc hname hfind hfree
  exact ⟨i, _, rfl, halloc.open_row set_self i⟩

theorem op_open (ho : s.op_open env a0 = some o) (a1 a2 : UInt64) :
    ∃ slot', Agree o.state (l.record ⟨env, .open, a0, a1, a2⟩ o.rc) slot' := by
  unfold RustFiles.op_open at ho
  split at ho
  · cases ho
    exact ⟨slot, h⟩
  cases hpath : env.str a0 with
  | none =>
    rw [hpath] at ho
    cases ho
    exact ⟨slot, h⟩
  | some path =>
  rw [hpath] at ho
  dsimp only at ho
  have hlearn : ∀ i : Nat, l.record ⟨env, .open, a0, a1, a2⟩ i =
      { l with file := set l.file i (l.name path), pos := set l.pos i 0 } := by
    intro i
    rw [record_natCast]
    simp only [learn, hpath, Option.bind_some]
  split at ho
  next hex =>
    obtain ⟨n, hname⟩ := h.names.exists_iff.mp hex
    cases ho
    rcases h.open_file hname with ⟨slot', hrc, hagree⟩ | ⟨i, slot', hrc, hagree⟩
    · rw [hrc]
      exact ⟨slot', hagree⟩
    rw [hrc, hlearn, hname]
    exact ⟨slot', hagree⟩
  next hex =>
  have hname : l.name path = none := by
    by_contra hsome
    obtain ⟨n, hn⟩ := Option.ne_none_iff_exists'.mp hsome
    exact hex (h.names.exists_iff.mpr ⟨n, hn⟩)
  obtain ⟨answer, -, rfl⟩ := Option.map_eq_some_iff.mp ho
  rcases h.open_proc env answer with ⟨hrc, hstate⟩ | ⟨i, hrc, hagree⟩
  · rw [hrc, hstate]
    exact ⟨slot, h⟩
  rw [hrc, hlearn, hname]
  exact ⟨slot, hagree⟩

theorem dispatch {c : FileCall} (ho : s.dispatch c = some o) :
    ∃ slot', Agree o.state (l.record c o.rc) slot' := by
  obtain ⟨env, op, a0, a1, a2⟩ := c
  cases op with
  | mkdir =>
    cases ho
    exact ⟨slot, h.op_mkdir env a0 a1 a2⟩
  | unlink =>
    cases ho
    exact h.op_unlink env a0 a1 a2
  | «open» => exact h.op_open ho a1 a2
  | read =>
    cases ho
    exact ⟨slot, h.op_read env a0 a1 a2⟩
  | write =>
    cases ho
    exact ⟨slot, h.op_write env a0 a1 a2⟩
  | lseek =>
    cases ho
    exact ⟨slot, h.op_lseek env a0 a1 a2⟩
  | dup2 =>
    cases ho
    exact h.op_dup2 env a0 a1 a2
  | close =>
  cases ho
  exact h.op_close env a0 a1 a2
end
end Agree
end QosKernel.RustFiles
