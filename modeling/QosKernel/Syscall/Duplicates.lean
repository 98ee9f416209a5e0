import QosKernel.Framework.RowLocal
import QosKernel.Syscall.CContracts
import QosKernel.Syscall.OneRow

/-! # Duplicated descriptors

`DUP2` copies the row of a descriptor, and the position in the file is in
the row. `READ`, `WRITE` and `LSEEK` work on one row, so the two
descriptors have positions of their own, which start out equal: nobody can
tell which one is the copy, but a call on one does not move the other.
-/
open Framework Framework.Checked
namespace QosKernel
variable {a0 : UInt64}
/-! ### Calls on a descriptor -/
inductive FdOp where
  | read
  | write
  | lseek

structure FdCall (Env : Type) where
  op : FdOp
  env : Env
  a0 : UInt64
  a1 : UInt64
  a2 : UInt64

/-- What a call returns, and what it writes to the caller. -/
abbrev Answer := Int × List (UInt64 × List UInt8)

namespace FdCall
variable {Env : Type}
def on (c : FdCall Env) (k : FdNum) : FdCall Env := { c with a0 := fdArg k }

/-- The call is on `b` instead of `a`, and on `a` instead of `b`. -/
def exchange (a b : FdNum) (c : FdCall Env) : FdCall Env :=
  if h : c.a0.toUInt32.toNat < QOS_FD_MAX then c.on (Equiv.swap a b ⟨c.a0.toUInt32.toNat, h⟩)
  else c
end FdCall
section steps
variable {State Env : Type}
/-- Each call works on the row that its first argument names, and fails if it
names none. -/
structure OnRow (T : Rows State QOS_FD_MAX Fd)
    (step : State → FdCall Env → Checked (Answer × State)) : Prop where
  oneRow : ∀ c : FdCall Env, T.Local fun s k => step s (c.on k)
  named : ∀ s c k, c.a0.toUInt32.toNat = k.val → step s c = step s (c.on k)
  unnamed : ∀ s c, ¬c.a0.toUInt32.toNat < QOS_FD_MAX → step s c = .ok ((-1, []), s)

/-- The two descriptors are alike, and nobody can tell which is which: with the
two exchanged in every call, any sequence of calls returns the same. -/
structure Twins (T : Rows State QOS_FD_MAX Fd)
    (step : State → FdCall Env → Checked (Answer × State)) (s : State) (a b : FdNum) :
    Prop where
  alike : T.get s a = T.get s b
  answers : ∀ calls, Prod.fst <$> runAll step s (calls.map (.exchange a b)) =
    Prod.fst <$> runAll step s calls

/-- A call leaves the rows of other descriptors alone, and their positions with
them. -/
def OwnRow (T : Rows State QOS_FD_MAX Fd) (step : State → FdCall Env → Checked (Answer × State)) :
    Prop :=
  ∀ s c r, step s c = .ok r → ∀ k, c.a0.toUInt32.toNat ≠ k.val → T.get r.2 k = T.get s k

namespace OnRow
variable {T : Rows State QOS_FD_MAX Fd} {step : State → FdCall Env → Checked (Answer × State)}
  (h : OnRow T step)
include h
theorem exchange (a b : FdNum) (s : State) (c : FdCall Env) :
    step (T.exchange a b s) (c.exchange a b) = Prod.map id (T.exchange a b) <$> step s c := by
  unfold FdCall.exchange
  split
  next hlt =>
    rw [h.named s c ⟨c.a0.toUInt32.toNat, hlt⟩ rfl]
    exact (h.oneRow c).exchange a b
  next hout =>
  rw [h.unnamed _ c hout, h.unnamed _ c hout]
  rfl

theorem twins {s : State} {a b : FdNum} (hsame : T.get s a = T.get s b) :
    Twins T step s a b :=
  ⟨hsame, runAll_answers (h.exchange a b) (T.exchange_self hsame)⟩

theorem ownRow : OwnRow T step := by
  intro s c r hr k hk
  by_cases hlt : c.a0.toUInt32.toNat < QOS_FD_MAX
  · rw [h.named s c ⟨c.a0.toUInt32.toNat, hlt⟩ rfl] at hr
    have hne : k ≠ ⟨c.a0.toUInt32.toNat, hlt⟩ := fun he => hk (congrArg Fin.val he).symm
    rw [(h.oneRow c).own hr, set_ne hne]
  rw [h.unnamed s c hlt] at hr
  cases hr
  rfl
end OnRow
end steps
theorem eq_fdArg {k : FdNum} (h : a0.toUInt32.toNat = k.val) :
    a0.toUInt32 = (fdArg k).toUInt32 :=
  UInt32.toNat_inj.mp (h.trans (fdArg_toNat k).symm)

theorem KState.openFd_out (h : ¬a0.toUInt32.toNat < QOS_FD_MAX) (s : KState) :
    s.openFd a0.toUInt32 = none :=
  dif_neg h

/-! ### The C kernel -/
def fdRows : Rows KState QOS_FD_MAX Fd where
  get := KState.fds
  put s rows := { s with fds := rows }
  get_put _ _ := rfl
  put_get _ := rfl

def Outcome.answer (o : Outcome) : Answer × KState := ((o.rc, o.out), o.state)

namespace KState
variable {s : KState} {i : FdNum}
section
variable (s : KState) (c : FdCall Env)
def fdOutcome : Outcome :=
  match c.op with
  | .read => s.syscall_op_read c.env c.a0 c.a1 c.a2
  | .write => s.syscall_op_write c.env c.a0 c.a1 c.a2
  | .lseek => s.syscall_op_lseek c.env c.a0 c.a1 c.a2

def fdStep : Checked (Answer × KState) := .ok (s.fdOutcome c).answer
end
theorem fdOutcome_at {g : FdNum → Fd} {j : FdNum} (hg : g j = s.fds i)
    (c : FdCall Env) :
    { s with fds := g }.fdOutcome (c.on j) = (s.fdOutcome (c.on i)).at g i j := by
  obtain ⟨op, env, a0, a1, a2⟩ := c
  cases op with
  | read => exact syscall_op_read_at hg env a1 a2
  | write => exact syscall_op_write_at hg env a1 a2
  | lseek => exact syscall_op_lseek_at hg env a1 a2

theorem fdStep_onRow : OnRow fdRows fdStep where
  oneRow c s i g j hg :=
    congrArg (fun o : Outcome => (.ok o.answer : Checked (Answer × KState))) (fdOutcome_at hg c)
  named s c k hk := by
    obtain ⟨op, env, a0, a1, a2⟩ := c
    have hfd : a0.toUInt32 = (fdArg k).toUInt32 := eq_fdArg hk
    refine congrArg (fun o : Outcome => (.ok o.answer : Checked (Answer × KState))) ?_
    cases op with
    | read =>
      show s.syscall_op_read env a0 a1 a2 = s.syscall_op_read env (fdArg k) a1 a2
      unfold syscall_op_read
      rw [hfd]
    | write =>
      show s.syscall_op_write env a0 a1 a2 = s.syscall_op_write env (fdArg k) a1 a2
      unfold syscall_op_write
      rw [hfd]
    | lseek =>
    show s.syscall_op_lseek env a0 a1 a2 = s.syscall_op_lseek env (fdArg k) a1 a2
    unfold syscall_op_lseek
    rw [hfd]
  unnamed s c hout := by
    obtain ⟨op, env, a0, a1, a2⟩ := c
    have hnone : s.openFd a0.toUInt32 = none := openFd_out hout s
    have hfail : s.fdOutcome ⟨op, env, a0, a1, a2⟩ = .fail s := by
      unfold fdOutcome
      cases op with
      | read => simp only [syscall_op_read, hnone]
      | write => simp only [syscall_op_write, hnone]
      | lseek => simp only [syscall_op_lseek, hnone]
    rw [fdStep, hfail]
    rfl

theorem copied_alike {s1 : KState} {old new : FdNum} (hne : old ≠ new)
    (hused : (s1.fds old).used = true) :
    (s1.setFd new { s1.fds old with used := true }).fds old =
      (s1.setFd new { s1.fds old with used := true }).fds new := by
  rw [setFd_ne hne, setFd_self, ← hused]

theorem openFd_used {fd : UInt32} (hi : s.openFd fd = some i) :
    fd.toNat = i.val ∧ (s.fds i).used = true := by
  unfold openFd at hi
  split at hi
  · split at hi
    next hused =>
      cases hi
      exact ⟨rfl, hused⟩
    · cases hi
  cases hi

theorem dup2_alike {a0 a1 : UInt64} (hrc : 0 ≤ (s.syscall_op_dup2 a0 a1).rc) :
    ∃ a b : FdNum, a0.toUInt32.toNat = a.val ∧ a1.toUInt32.toNat = b.val ∧
      (s.syscall_op_dup2 a0 a1).state.fds a = (s.syscall_op_dup2 a0 a1).state.fds b := by
  have hfail : ¬0 ≤ (Outcome.fail s).rc := Int.not_le.mpr (Int.negSucc_lt_zero 0)
  unfold syscall_op_dup2 at hrc ⊢
  cases hold : s.openFd a0.toUInt32 with
  | none =>
    rw [hold] at hrc
    exact absurd hrc hfail
  | some old =>
  rw [hold] at hrc
  obtain ⟨hnum, hused⟩ := openFd_used hold
  dsimp only at hrc ⊢
  by_cases hlt : a1.toUInt32.toNat < QOS_FD_MAX
  · refine ⟨old, ⟨a1.toUInt32.toNat, hlt⟩, hnum, rfl, ?_⟩
    rw [dif_pos hlt]
    by_cases heq : old = ⟨a1.toUInt32.toNat, hlt⟩
    · rw [← heq]
    rw [if_neg heq]
    refine copied_alike heq ?_
    split
    · rw [fd_clear, release_fds, setFd_ne heq, hused]
    exact hused
  rw [dif_neg hlt] at hrc
  exact absurd hrc hfail
end KState
/-! ### The Rust kernel -/
def rustRows : Rows RustSys QOS_FD_MAX Fd where
  get s := s.fds
  put s rows := { s with fds := rows }
  get_put _ _ := rfl
  put_get _ := rfl

namespace RustSys
open RustCalls
variable {i : FdNum} {s s' : KState}
def Outcome.answer (o : Outcome) : Answer × RustSys := ((o.rc, o.out), o.state)

section
variable (s : RustSys) (c : FdCall Env)
def fdOutcome : Checked Outcome :=
  match c.op with
  | .read => s.op_read c.env c.a0 c.a1 c.a2
  | .write => s.onTables (op_write c.env.toUserMem s.toKState c.a0 c.a1 c.a2)
  | .lseek => s.op_lseek c.env c.a0 c.a1 c.a2

def fdStep : Checked (Answer × RustSys) :=
  Outcome.answer <$> s.fdOutcome c
end
theorem fdOutcome_at {s : RustSys} {g : FdNum → Fd} {j : FdNum}
    (hg : g j = s.fds i) (c : FdCall Env) :
    { s with fds := g }.fdOutcome (c.on j) = (Outcome.at · g i j) <$> s.fdOutcome (c.on i) := by
  obtain ⟨op, env, a0, a1, a2⟩ := c
  cases op with
  | read => exact op_read_at hg env a1 a2
  | write => exact onTables_at (op_write_at hg env.toUserMem a1 a2)
  | lseek => exact op_lseek_at hg env a1 a2

theorem fdStep_onRow : OnRow rustRows fdStep where
  oneRow c s i g j hg := by
    show Outcome.answer <$> { s with fds := g }.fdOutcome (c.on j) =
      rustRows.moved g i j <$> Outcome.answer <$> s.fdOutcome (c.on i)
    rw [fdOutcome_at hg]
    cases s.fdOutcome (c.on i) with
    | error trap | ok o => rfl
  named s c k hk := by
    obtain ⟨op, env, a0, a1, a2⟩ := c
    have hfd : a0.toUInt32 = (fdArg k).toUInt32 := eq_fdArg hk
    refine congrArg (Outcome.answer <$> ·) ?_
    cases op with
    | read =>
      show s.op_read env a0 a1 a2 = s.op_read env (fdArg k) a1 a2
      unfold op_read
      rw [hfd]
    | write =>
      show s.onTables (op_write env.toUserMem s.toKState a0 a1 a2) =
        s.onTables (op_write env.toUserMem s.toKState (fdArg k) a1 a2)
      unfold op_write
      rw [hfd]
    | lseek =>
    show s.op_lseek env a0 a1 a2 = s.op_lseek env (fdArg k) a1 a2
    unfold op_lseek
    rw [hfd]
  unnamed s c hout := by
    obtain ⟨op, env, a0, a1, a2⟩ := c
    have hnone : s.openFd a0.toUInt32 = none := KState.openFd_out hout s.toKState
    have hfail : s.fdOutcome ⟨op, env, a0, a1, a2⟩ = .ok (.fail s) := by
      unfold fdOutcome
      cases op with
      | read =>
        simp only [op_read, hnone]
        rfl
      | write =>
        simp only [op_write, hnone]
        rfl
      | lseek =>
      simp only [op_lseek, hnone]
      rfl
    rw [fdStep, hfail]
    rfl

theorem releaseListener_fds (s : KState) (fd : Fd) : (releaseListener s fd).fds = s.fds := by
  unfold releaseListener
  split
  all_goals rfl

theorem releasePort_fds {fd : Fd} (hs : releasePort s fd = .ok s') : s'.fds = s.fds := by
  unfold releasePort at hs
  split at hs
  · split at hs
    · obtain ⟨udp, -, hs⟩ := bind_eq_ok hs
      rw [← Except.ok.inj hs, KState.socket_port_unmark_fds]
    rw [← Except.ok.inj hs, KState.socket_port_unmark_fds]
  rw [← Except.ok.inj hs]

theorem syscall_fd_clear_fds (hs : syscall_fd_clear s i = .ok s') :
    s'.fds = set s.fds i .closed := by
  obtain ⟨_, hpipe, -⟩ := (s.setFd i .closed).releasePipe_spec (s.fds i).pipe_id
  obtain ⟨_, hfile, -⟩ :=
    ((s.setFd i .closed).releasePipe (s.fds i).pipe_id).releaseFile_spec (s.fds i).file_id
  rw [releasePort_fds hs, releaseListener_fds, hfile, hpipe]
  rfl

theorem dup2_alike {a0 a1 : UInt64} {o : QosKernel.Outcome} (ho : op_dup2 s a0 a1 = .ok o)
    (hrc : 0 ≤ o.rc) :
    ∃ a b : FdNum, a0.toUInt32.toNat = a.val ∧ a1.toUInt32.toNat = b.val ∧
      o.state.fds a = o.state.fds b := by
  have hfail : ¬0 ≤ (QosKernel.Outcome.fail s).rc := Int.not_le.mpr (Int.negSucc_lt_zero 0)
  unfold op_dup2 at ho
  cases hold : s.openFd a0.toUInt32 with
  | none =>
    rw [hold] at ho
    rw [← Except.ok.inj ho] at hrc
    exact absurd hrc hfail
  | some old =>
  rw [hold] at ho
  obtain ⟨hnum, hused⟩ := KState.openFd_used hold
  dsimp only at ho
  by_cases hlt : a1.toUInt32.toNat < QOS_FD_MAX
  · refine ⟨old, ⟨a1.toUInt32.toNat, hlt⟩, hnum, rfl, ?_⟩
    rw [dif_pos hlt] at ho
    by_cases heq : old = ⟨a1.toUInt32.toNat, hlt⟩
    · rw [← heq]
    rw [if_neg heq] at ho
    split at ho
    · obtain ⟨s1, hs1, ho⟩ := bind_eq_ok ho
      rw [← Except.ok.inj ho]
      refine KState.copied_alike heq ?_
      rw [syscall_fd_clear_fds hs1, set_ne heq, hused]
    rw [← Except.ok.inj ho]
    exact KState.copied_alike heq hused
  rw [dif_neg hlt] at ho
  rw [← Except.ok.inj ho] at hrc
  exact absurd hrc hfail
end RustSys
/-- After a `DUP2` that succeeds, the two descriptors are alike, with equal
positions, and any later sequence of `READ`, `WRITE` and `LSEEK` returns the
same results and data if the two are exchanged in all of its calls. A call
moves no position but the one of its own descriptor. -/
theorem dup2_exchange (s : KState) (t : RustSys) (a0 a1 : UInt64) :
    (0 ≤ (s.syscall_op_dup2 a0 a1).rc →
      ∃ a b : FdNum, a0.toUInt32.toNat = a.val ∧ a1.toUInt32.toNat = b.val ∧
        Twins fdRows KState.fdStep (s.syscall_op_dup2 a0 a1).state a b) ∧
    OwnRow fdRows KState.fdStep ∧
    (∀ o, t.onTables (RustCalls.op_dup2 t.toKState a0 a1) = .ok o → 0 ≤ o.rc →
      ∃ a b : FdNum, a0.toUInt32.toNat = a.val ∧ a1.toUInt32.toNat = b.val ∧
        Twins rustRows RustSys.fdStep o.state a b) ∧
    OwnRow rustRows RustSys.fdStep := by
  refine ⟨fun hrc => ?_, KState.fdStep_onRow.ownRow, fun o ho hrc => ?_,
    RustSys.fdStep_onRow.ownRow⟩
  · obtain ⟨a, b, ha, hb, hsame⟩ := KState.dup2_alike hrc
    exact ⟨a, b, ha, hb, KState.fdStep_onRow.twins hsame⟩
  obtain ⟨o', ho', heq⟩ := bind_eq_ok ho
  rw [← Except.ok.inj heq] at hrc ⊢
  obtain ⟨a, b, ha, hb, hsame⟩ := RustSys.dup2_alike ho' hrc
  exact ⟨a, b, ha, hb, RustSys.fdStep_onRow.twins hsame⟩

/-- A file with four bytes is open as descriptor 0, at its start. -/
def twinCalls : List Syscall :=
  [.register 1 17 0, .register 2 21 0, .register 3 23 0, .register 4 38 0,
    .dispatch plainEnv 1 1 0 0 0, .dispatch plainEnv 2 1 0 0 0, .dispatch plainEnv 3 0 1 4 0,
    .dispatch plainEnv 4 0 0 0 0]

def rustPlainEnv : RustSys.Env := .ofMem ⟨plainEnv.byte, fun a => some (plainEnv.str a)⟩

def rustTwinCalls : List RustCall :=
  [.register 1 17 0, .register 2 21 0, .register 3 23 0, .register 4 38 0,
    .dispatch rustPlainEnv 1 1 0 0 0, .dispatch rustPlainEnv 2 1 0 0 0,
    .dispatch rustPlainEnv 3 0 1 4 0, .dispatch rustPlainEnv 4 0 0 0 0]

def readTwo {Env : Type} (env : Env) (fd : UInt64) : FdCall Env := ⟨.read, env, fd, 1, 2⟩

/-- The descriptor and its copy can be exchanged. -/
theorem dup2_exchange_file :
    (∃ s, (syscallRuns .reset).Reach anyStep twinCalls s ∧
      ∃ a b : FdNum, (0 : UInt64).toUInt32.toNat = a.val ∧
        (5 : UInt64).toUInt32.toNat = b.val ∧
        Twins fdRows KState.fdStep (s.syscall_op_dup2 0 5).state a b) ∧
    ∃ t o, rustRuns.Reach anyStep rustTwinCalls t ∧
      t.onTables (RustCalls.op_dup2 t.toKState 0 5) = .ok o ∧
      ∃ a b : FdNum, (0 : UInt64).toUInt32.toNat = a.val ∧
        (5 : UInt64).toUInt32.toNat = b.val ∧ Twins rustRows RustSys.fdStep o.state a b := by
  obtain ⟨t, hr, o, ho, hrc⟩ : ∃ t, rustRuns.Reach anyStep rustTwinCalls t ∧
      ∃ o, t.onTables (RustCalls.op_dup2 t.toKState 0 5) = .ok o ∧ 0 ≤ o.rc := by
    refine System.exists_exec (P := fun t => (t.onTables
      (RustCalls.op_dup2 t.toKState 0 5)).toOption.any (fun o => decide (0 ≤ o.rc)) = true)
      (by decide +kernel) ?_
    intro t _ ht
    exact exists_ok_of_any ht
  constructor
  · exact System.exists_exec (P := fun s => 0 ≤ (s.syscall_op_dup2 0 5).rc) (by decide +kernel)
      fun s _ hs => (dup2_exchange s t 0 5).1 hs
  exact ⟨t, o, hr, ho, (dup2_exchange (.reset .reset) t 0 5).2.2.1 o ho hrc⟩

/-- After `DUP2` of descriptor 0 to 5, two reads of descriptor 0 return other
data than a read of 0 and a read of 5: the second one starts again. -/
theorem dup2_positions_apart :
    (∃ s, (syscallRuns .reset).Reach anyStep twinCalls s ∧
      (s.fds ⟨0, by decide⟩).kind = .vfs ∧ 0 ≤ (s.syscall_op_dup2 0 5).rc ∧
      Prod.fst <$> runAll KState.fdStep (s.syscall_op_dup2 0 5).state
          [readTwo plainEnv 0, readTwo plainEnv 0] ≠
        Prod.fst <$> runAll KState.fdStep (s.syscall_op_dup2 0 5).state
          [readTwo plainEnv 0, readTwo plainEnv 5]) ∧
    ∃ t o, rustRuns.Reach anyStep rustTwinCalls t ∧ (t.fds ⟨0, by decide⟩).kind = .vfs ∧
      t.onTables (RustCalls.op_dup2 t.toKState 0 5) = .ok o ∧ 0 ≤ o.rc ∧
      Prod.fst <$> runAll RustSys.fdStep o.state [readTwo rustPlainEnv 0, readTwo rustPlainEnv 0] ≠
        Prod.fst <$> runAll RustSys.fdStep o.state
          [readTwo rustPlainEnv 0, readTwo rustPlainEnv 5] := by
  obtain ⟨s, hr, hkind, hrc, hne⟩ : ∃ s, (syscallRuns .reset).Reach anyStep twinCalls s ∧
      (s.fds ⟨0, by decide⟩).kind = .vfs ∧ 0 ≤ (s.syscall_op_dup2 0 5).rc ∧
      decide ((Prod.fst <$> runAll KState.fdStep (s.syscall_op_dup2 0 5).state
          [readTwo plainEnv 0, readTwo plainEnv 0]).toOption ≠
        (Prod.fst <$> runAll KState.fdStep (s.syscall_op_dup2 0 5).state
          [readTwo plainEnv 0, readTwo plainEnv 5]).toOption) = true :=
    System.exists_exec (by decide +kernel) fun _ _ h => h
  obtain ⟨t, hr', hkind', hcopy⟩ : ∃ t, rustRuns.Reach anyStep rustTwinCalls t ∧
      (t.fds ⟨0, by decide⟩).kind = .vfs ∧
      (t.onTables (RustCalls.op_dup2 t.toKState 0 5)).toOption.any (fun o => decide (0 ≤ o.rc ∧
        decide ((Prod.fst <$> runAll RustSys.fdStep o.state
            [readTwo rustPlainEnv 0, readTwo rustPlainEnv 0]).toOption ≠
          (Prod.fst <$> runAll RustSys.fdStep o.state
            [readTwo rustPlainEnv 0, readTwo rustPlainEnv 5]).toOption) = true)) = true :=
    System.exists_exec (by decide +kernel) fun _ _ h => h
  obtain ⟨o, ho, hrc', hne'⟩ := exists_ok_of_any hcopy
  exact ⟨⟨s, hr, hkind, hrc, fun heq => of_decide_eq_true hne (congrArg _ heq)⟩,
    t, o, hr', hkind', ho, hrc', fun heq => of_decide_eq_true hne' (congrArg _ heq)⟩
end QosKernel
