import QosKernel.Syscall.CContracts

/-! # File positions in C

`LSEEK` sets a position of up to 63 bits. `READ` and `WRITE` take its low
32 bits, so a position is honoured if it fits them. One that does not is
past the end of every file, and is treated so only if its low 32 bits are
past the end too.
-/
open Framework
namespace QosKernel
namespace KState
variable {a0 a1 a2 : UInt64}
/-- A `READ` of `n` bytes at position `p` of a file: 0 at or past the end, and
otherwise the bytes from `p` on, as far as there are any. -/
structure ReadsAt (s : KState) (i : FdNum) (f : FileSlot) (p n : Nat)
    (o : Outcome) : Prop where
  at_end : (s.files f).len ≤ p → o.rc = 0
  count : p < (s.files f).len → o.rc = (min n ((s.files f).len - p) : Nat)
  bytes : p < (s.files f).len → o.out.flatMap (·.2) =
    (List.range (min n ((s.files f).len - p))).map fun k => (s.files f).data (p + k)
  position : p < (s.files f).len → (o.state.fds i).offset.toNat = p + min n ((s.files f).len - p)
  files : o.state.files = s.files

/-- A `WRITE` of `n` bytes at position `p` of a file: it fails at or past the
capacity, and otherwise it writes the bytes from `p` on, as far as they
fit. -/
structure WritesAt (env : Env) (s : KState) (i : FdNum) (f : FileSlot)
    (p n : Nat) (addr : UInt64) (o : Outcome) : Prop where
  full : 1024 ≤ p → o.rc = -1 ∧ o.state = s
  count : p < 1024 → o.rc = (min n (1024 - p) : Nat)
  bytes : p < 1024 → ∀ k, (o.state.files f).data k =
    if p ≤ k ∧ k < p + min n (1024 - p) then env.byte (addr + .ofNat (k - p))
    else (s.files f).data k
  length : p < 1024 → (o.state.files f).len =
    if n = 0 then (s.files f).len else max (s.files f).len (p + min n (1024 - p))
  others : p < 1024 → ∀ g, g ≠ f → o.state.files g = s.files g
  position : p < 1024 → (o.state.fds i).offset.toNat = p + min n (1024 - p)

variable {s : KState} {env : Env} {i : FdNum} {f : FileSlot} {p n : Nat}
theorem Owns.openFile (h : s.Owns) (hu : (s.fds i).used = true) (hk : (s.fds i).kind = .vfs) :
    ∃ f, (s.fds i).IsOpen f ∧ s.openFile (s.fds i).file_id = some f := by
  obtain ⟨f, hopen, hused⟩ := h.storeInStep.opened i hu hk
  refine ⟨f, hopen, ?_⟩
  have hlt : (s.fds i).file_id.toNat < QOS_FILE_MAX := hopen.2.2 ▸ f.isLt
  have hf : f = ⟨(s.fds i).file_id.toNat, hlt⟩ := Fin.ext hopen.2.2.symm
  rw [hf] at hused
  unfold KState.openFile
  rw [dif_pos hlt, if_pos hused, hf]

/-! ### Seeking -/
theorem seek_base_le (h : s.Owns) (hk : (s.fds i).kind = .vfs) {whence : UInt32} {base : Int}
    (hbase : s.seek_base env i whence = some base) : base ≤ INT64_MAX := by
  have hmax : (0 : Int) ≤ INT64_MAX := by decide
  unfold seek_base at hbase
  split at hbase
  · cases hbase
    exact hmax
  split at hbase
  · cases hbase
    exact Int64.le_iff_toInt_le.mp (Int64.le_maxValue _)
  split at hbase
  · split at hbase
    next hproc =>
      rw [hk] at hproc
      cases hproc
    next =>
    split at hbase
    · cases hbase
    next f _ =>
    cases hbase
    have hlen := h.store.file_len f
    have hcap : QOS_PIPE_CAP = 1024 := rfl
    have hbound : INT64_MAX = 9223372036854775807 := rfl
    omega
  cases hbase

theorem lseek_sets (h : s.Owns) (hk : (s.fds i).kind = .vfs) (hi : s.openFd a0.toUInt32 = some i)
    (hp : (s.syscall_op_lseek env a0 a1 a2).rc = p) :
    p < 2 ^ 63 ∧ (s.syscall_op_lseek env a0 a1 a2).state =
      s.setFd i { s.fds i with offset := .ofNat p } := by
  unfold syscall_op_lseek at hp ⊢
  rw [hi] at hp ⊢
  dsimp only at hp ⊢
  have hkind : ¬((s.fds i).kind ≠ .vfs ∧ (s.fds i).kind ≠ .proc) := fun hand => hand.1 hk
  rw [if_neg hkind] at hp ⊢
  cases hbase : s.seek_base env i a2.toUInt32 with
  | none =>
    rw [hbase] at hp
    cases hp
  | some base =>
  rw [hbase] at hp
  dsimp only at hp ⊢
  have hle := seek_base_le h hk hbase
  have hmax : INT64_MAX = 9223372036854775807 := rfl
  split at hp
  · cases hp
  next hrange =>
  rw [if_neg hrange]
  split at hp
  · cases hp
  next hneg =>
  have hrc : base + a1.toInt64.toInt = p := hp
  rw [if_neg hneg, hrc]
  refine ⟨?_, rfl⟩
  omega

theorem lseek_any (hk : (s.fds i).kind = .vfs) (hi : s.openFd a0.toUInt32 = some i)
    (hp : p < 2 ^ 63) : (s.syscall_op_lseek env a0 (.ofNat p) 0).rc = p := by
  have hoffset : (UInt64.ofNat p).toInt64.toInt = p := Int64.toInt_ofNat_of_lt hp
  have hkind : ¬((s.fds i).kind ≠ .vfs ∧ (s.fds i).kind ≠ .proc) := fun hand => hand.1 hk
  have hbase : s.seek_base env i (0 : UInt64).toUInt32 = some 0 := rfl
  unfold syscall_op_lseek
  rw [hi]
  dsimp only
  rw [if_neg hkind, hbase, hoffset]
  dsimp only
  have hmax : INT64_MAX = 9223372036854775807 := rfl
  rw [if_neg (by omega), if_neg (by omega)]
  exact Int.zero_add _

/-! ### Reading and writing at a position -/
theorem ReadsAt.of_end (hp : (s.files f).len ≤ p) : s.ReadsAt i f p n (.ret s 0) where
  at_end _ := rfl
  count hlt := absurd hp (Nat.not_le.mpr hlt)
  bytes hlt := absurd hp (Nat.not_le.mpr hlt)
  position hlt := absurd hp (Nat.not_le.mpr hlt)
  files := rfl

theorem read_file_readsAt (h : s.Owns) (hf : s.openFile (s.fds i).file_id = some f)
    (hp : (s.fds i).pos = (s.fds i).offset.toNat) (addr : UInt64) :
    s.ReadsAt i f (s.fds i).offset.toNat n (s.read_file i addr n) := by
  have hlen : (s.files f).len ≤ 1024 := h.store.file_len f
  unfold read_file
  rw [hf]
  dsimp only
  rw [hp]
  generalize hq : (s.fds i).offset.toNat = q
  split
  next hend => exact .of_end hend
  next hin =>
  split
  next hzero =>
    refine ⟨fun hend => absurd hend hin, fun _ => by rw [hzero]; rfl,
      fun _ => by rw [hzero]; rfl, fun _ => by rw [hzero]; exact hq, rfl⟩
  next hcopy =>
  refine ⟨fun hend => absurd hend hin, fun _ => rfl, fun _ => by simp, fun _ => ?_, rfl⟩
  show ((set s.fds i _) i).offset.toNat = _
  rw [set_self]
  show (UInt64.ofNat (q + min n ((s.files f).len - q))).toNat = _
  rw [UInt64.toNat_ofNat', Nat.mod_eq_of_lt]
  omega

/-- `READ` honours a position exactly if it fits 32 bits, or its low 32 bits
are past the end, or nothing is read. -/
theorem read_file_honours (h : s.Owns) (hf : s.openFile (s.fds i).file_id = some f)
    (hp : (s.fds i).offset.toNat = p) (addr : UInt64) :
    s.ReadsAt i f p n (s.read_file i addr n) ↔
      p < 2 ^ 32 ∨ (s.files f).len ≤ p % 2 ^ 32 ∨ n = 0 := by
  subst hp
  have hlen : (s.files f).len ≤ 1024 := h.store.file_len f
  have hpos : (s.fds i).pos = (s.fds i).offset.toNat % 2 ^ 32 := UInt64.toNat_toUInt32 _
  constructor
  · intro hread
    by_contra hnot
    simp only [not_or, Nat.not_lt, Nat.not_le] at hnot
    obtain ⟨hbig, hin, hn⟩ := hnot
    have hzero := hread.at_end (by omega)
    unfold read_file at hzero
    rw [hf] at hzero
    dsimp only at hzero
    rw [hpos, if_neg (by omega), if_neg (by omega)] at hzero
    dsimp only at hzero
    omega
  rintro (hsmall | hend | hn)
  · exact read_file_readsAt h hf (by rw [hpos, Nat.mod_eq_of_lt hsmall]) addr
  · have hpast : (s.files f).len ≤ (s.fds i).offset.toNat := by omega
    unfold read_file
    rw [hf]
    dsimp only
    rw [hpos, if_pos hend]
    exact .of_end hpast
  by_cases hsmall : (s.fds i).offset.toNat < 2 ^ 32
  · exact read_file_readsAt h hf (by rw [hpos, Nat.mod_eq_of_lt hsmall]) addr
  have hpast : (s.files f).len ≤ (s.fds i).offset.toNat := by omega
  have hnone : s.read_file i addr n = .ret s 0 := by
    unfold read_file
    rw [hf, hn]
    simp
  rw [hnone]
  exact .of_end hpast

theorem WritesAt.of_full {addr : UInt64} (hp : 1024 ≤ p) :
    s.WritesAt env i f p n addr (.fail s) where
  full _ := ⟨rfl, rfl⟩
  count hlt := absurd hp (Nat.not_le.mpr hlt)
  bytes hlt := absurd hp (Nat.not_le.mpr hlt)
  length hlt := absurd hp (Nat.not_le.mpr hlt)
  others hlt := absurd hp (Nat.not_le.mpr hlt)
  position hlt := absurd hp (Nat.not_le.mpr hlt)

theorem write_file_writesAt (hf : s.openFile (s.fds i).file_id = some f)
    (hp : (s.fds i).pos = (s.fds i).offset.toNat) (addr : UInt64) :
    s.WritesAt env i f (s.fds i).offset.toNat n addr (s.write_file env i addr n) := by
  have hcap : QOS_PIPE_CAP = 1024 := rfl
  unfold write_file
  rw [hf]
  dsimp only
  rw [hp, hcap]
  generalize hq : (s.fds i).offset.toNat = q
  split
  next hfull => exact .of_full hfull
  next hfits =>
  split
  next hzero =>
    refine ⟨fun hfull => absurd hfull hfits, fun _ => by rw [hzero]; rfl, fun _ k => ?_,
      fun _ => ?_, fun _ _ _ => rfl, fun _ => by rw [hzero]; exact hq⟩
    · rw [hzero, if_neg (by omega)]
      rfl
    rw [if_pos (by omega)]
    rfl
  next hwrite =>
  refine ⟨fun hfull => absurd hfull hfits, fun _ => rfl, fun _ k => ?_, fun _ => ?_,
    fun _ g hg => set_ne hg, fun _ => ?_⟩
  · show ((set s.files f _) f).data k = _
    rw [set_self]
  · show ((set s.files f _) f).len = _
    rw [set_self, if_neg (by omega)]
  show ((set s.fds i _) i).offset.toNat = _
  rw [set_self]
  show (UInt64.ofNat (q + min n (1024 - q))).toNat = _
  rw [UInt64.toNat_ofNat', Nat.mod_eq_of_lt]
  omega

/-- `WRITE` honours a position exactly if it fits 32 bits, or its low 32 bits
are past the capacity. -/
theorem write_file_honours (hf : s.openFile (s.fds i).file_id = some f)
    (hp : (s.fds i).offset.toNat = p) (addr : UInt64) :
    s.WritesAt env i f p n addr (s.write_file env i addr n) ↔ p < 2 ^ 32 ∨ 1024 ≤ p % 2 ^ 32 := by
  subst hp
  have hcap : QOS_PIPE_CAP = 1024 := rfl
  have hpos : (s.fds i).pos = (s.fds i).offset.toNat % 2 ^ 32 := UInt64.toNat_toUInt32 _
  constructor
  · intro hwrite
    by_contra hnot
    simp only [not_or, Nat.not_lt, Nat.not_le] at hnot
    obtain ⟨hbig, hin⟩ := hnot
    have hfail := (hwrite.full (by omega)).1
    unfold write_file at hfail
    rw [hf] at hfail
    dsimp only at hfail
    rw [hpos, hcap, if_neg (by omega)] at hfail
    -- neither of the two returns is a failure
    split at hfail
    · cases hfail
    have hrc : ((min n (1024 - (s.fds i).offset.toNat % 2 ^ 32) : Nat) : Int) = -1 := hfail
    omega
  rintro (hsmall | hfull)
  · exact write_file_writesAt hf (by rw [hpos, Nat.mod_eq_of_lt hsmall]) addr
  have hpast : 1024 ≤ (s.fds i).offset.toNat := by omega
  unfold write_file
  rw [hf]
  dsimp only
  rw [hpos, hcap, if_pos hfull]
  exact .of_full hpast

/-! ### The two system calls -/
theorem syscall_op_read_eq (hk : (s.fds i).kind = .vfs) (hi : s.openFd a0.toUInt32 = some i)
    (ha : a1 ≠ 0) : s.syscall_op_read env a0 a1 a2 = s.read_file i a1 a2.toUInt32.toNat := by
  unfold syscall_op_read
  rw [hi]
  dsimp only
  rw [if_neg (by simpa using ha), hk]

theorem syscall_op_write_eq (hk : (s.fds i).kind = .vfs) (hi : s.openFd a0.toUInt32 = some i)
    (ha : a1 ≠ 0) : s.syscall_op_write env a0 a1 a2 = s.write_file env i a1 a2.toUInt32.toNat := by
  unfold syscall_op_write
  rw [hi]
  dsimp only
  rw [if_neg (by simpa using ha), hk]
end KState
/-- In every state that system calls lead to and for every open descriptor of
a file: an `LSEEK` that succeeds sets the position it returns and nothing
else, every value below 2^63 can be set, and at any position `READ` and
`WRITE` do what they should exactly under the two conditions. -/
theorem positions_honoured (vfs : Vfs) (tr : List Syscall) (s : KState)
    (hr : (syscallRuns vfs).Reach anyStep tr s) (fd : UInt64) (i : FdNum)
    (hi : s.openFd fd.toUInt32 = some i) (hk : (s.fds i).kind = .vfs) :
    (∀ env offset whence (p : Nat), (s.syscall_op_lseek env fd offset whence).rc = p →
      p < 2 ^ 63 ∧ (s.syscall_op_lseek env fd offset whence).state =
        s.setFd i { s.fds i with offset := .ofNat p }) ∧
    (∀ env (p : Nat), p < 2 ^ 63 → (s.syscall_op_lseek env fd (.ofNat p) 0).rc = p) ∧
    ∃ f, (s.fds i).IsOpen f ∧ ∀ env (addr n : UInt64) (p : Nat), addr ≠ 0 →
      (s.fds i).offset.toNat = p →
      (s.ReadsAt i f p n.toUInt32.toNat (s.syscall_op_read env fd addr n) ↔
        p < 2 ^ 32 ∨ (s.files f).len ≤ p % 2 ^ 32 ∨ n.toUInt32.toNat = 0) ∧
      (s.WritesAt env i f p n.toUInt32.toNat addr (s.syscall_op_write env fd addr n) ↔
        p < 2 ^ 32 ∨ 1024 ≤ p % 2 ^ 32) := by
  have howns := KState.owns_of_reach hr
  obtain ⟨f, hopen, hf⟩ := howns.openFile (KState.openFd_some hi) hk
  refine ⟨fun env offset whence p hp => KState.lseek_sets howns hk hi hp,
    fun env p hp => KState.lseek_any hk hi hp, f, hopen, ?_⟩
  intro env addr n p haddr hp
  rw [KState.syscall_op_read_eq hk hi haddr, KState.syscall_op_write_eq hk hi haddr]
  exact ⟨KState.read_file_honours howns hf hp addr, KState.write_file_honours hf hp addr⟩

/-- A run that makes a file, writes three bytes and seeks to 2^32. -/
def seekCalls : List Syscall :=
  [.register 5 21 0, .register 6 22 0, .register 7 23 0, .register 22 17 0, .register 25 38 0,
    .dispatch plainEnv 22 1 0 0 0, .dispatch plainEnv 5 1 0 0 0, .dispatch plainEnv 7 0 2 3 0,
    .dispatch plainEnv 25 0 4294967296 0 0]

/-- At position 2^32 of a file of three bytes, `READ` returns the bytes from 0
on, and `WRITE` overwrites them. -/
theorem position_cut :
    ((seekCalls.foldl KState.call (.reset .reset)).fds ⟨0, by decide⟩).offset = 4294967296 ∧
    ((seekCalls.foldl KState.call (.reset .reset)).files ⟨0, by decide⟩).len = 3 ∧
    ((seekCalls.foldl KState.call (.reset .reset)).qos_syscall_dispatch plainEnv 6 0 9 2 0).rc = 2 ∧
    ((seekCalls.foldl KState.call (.reset .reset)).qos_syscall_dispatch plainEnv 6 0 9 2 0).out =
      [(9, [0, 19])] ∧
    ((seekCalls.foldl KState.call (.reset .reset)).qos_syscall_dispatch plainEnv 7 0 9 2 0).rc =
      2 := by
  decide +kernel

/-- The theorem applies to the descriptor of that run. -/
theorem positions_honoured_far :
    ((seekCalls.foldl KState.call (.reset .reset)).fds ⟨0, by decide⟩).offset = 4294967296 ∧
    (∀ env (p : Nat), p < 2 ^ 63 →
      ((seekCalls.foldl KState.call (.reset .reset)).syscall_op_lseek env 0 (.ofNat p) 0).rc = p) :=
  ⟨by decide +kernel, (positions_honoured .reset seekCalls _ (System.reach_of_exec rfl) 0
    ⟨0, by decide⟩ (by decide +kernel) (by decide +kernel)).2.1⟩
end QosKernel
