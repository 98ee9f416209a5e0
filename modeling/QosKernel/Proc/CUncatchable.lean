import QosKernel.Proc.CDelivery

/-! # SIGKILL and SIGSTOP cannot be caught

Every way to change the mask or the handlers of a process leaves the two
signals unblocked and with their default action. So when one of them is
pending, `qos_proc_signal_next` comes to it, and then the process is
terminated or stopped.
-/
open Framework
namespace QosKernel.CProc
variable {s : UInt32}
def Uncatchable (s : UInt32) : Prop := s = QOS_SIGKILL ∨ s = QOS_SIGSTOP

theorem Uncatchable.mem_signums (h : Uncatchable s) : s ∈ signums := by
  rcases h with rfl | rfl <;> decide +kernel

theorem Uncatchable.unmaskable (h : Uncatchable s) : bitAt unmaskable_bits s = true := by
  rcases h with rfl | rfl <;> decide +kernel

namespace Process
/-- The two signals are neither blocked, nor ignored, nor handled. -/
structure Uncaught (p : Process) : Prop where
  unblocked : ∀ s, Uncatchable s → bitAt p.sig_blocked s = false
  default : ∀ s, Uncatchable s → p.sig_handlers s.toNat = QOS_SIG_DFL

variable {p : Process}
theorem uncaught_free : free.Uncaught := by
  constructor
  · intro s _
    exact bitAt_zero
  intro s _
  rfl

theorem uncaught_new (pid ppid : UInt32) : (new pid ppid).Uncaught :=
  ⟨uncaught_free.unblocked, uncaught_free.default⟩

theorem Uncaught.child (h : p.Uncaught) (parent_pid child_pid : UInt32) :
    (p.child parent_pid child_pid).Uncaught :=
  ⟨h.unblocked, h.default⟩

theorem bitAt_unmasked {mask s : UInt32} (hs : Uncatchable s) :
    bitAt (mask &&& ~~~unmaskable_bits) s = false := by
  rw [bitAt_and, bitAt_not (lt_of_mem_signums hs.mem_signums), hs.unmaskable]
  simp

theorem Uncaught.signal_set_mask (h : p.Uncaught) (mask : UInt32) :
    (p.signal_set_mask mask).Uncaught :=
  ⟨fun _ hs => bitAt_unmasked hs, h.default⟩

theorem exec_handlers_default {handlers : Nat → UInt64} {k : Nat}
    (h : handlers k = QOS_SIG_DFL) : exec_handlers handlers k = QOS_SIG_DFL := by
  unfold exec_handlers
  -- the loop meets the other handlers first; they do not matter
  generalize signums = l
  induction l generalizing handlers with
  | nil => exact h
  | cons s rest ih =>
  refine ih ?_
  dsimp only
  split
  · by_cases hks : k = s.toNat
    · rw [hks, set_self]
    rw [set_ne hks, h]
  exact h

theorem Uncaught.exec_signal_reset (h : p.Uncaught) : p.exec_signal_reset.Uncaught :=
  ⟨fun _ hs => bitAt_unmasked hs, fun s hs => exec_handlers_default (h.default s hs)⟩

theorem Uncaught.signal_set_handler (h : p.Uncaught) {signum : UInt32} {handler : UInt64}
    {p' : Process} (heq : p.signal_set_handler signum handler = some p') : p'.Uncaught := by
  unfold Process.signal_set_handler at heq
  split at heq
  · cases heq
  split at heq
  · cases heq
  next hguard =>
  cases heq
  refine ⟨h.unblocked, fun s hs => ?_⟩
  show set p.sig_handlers signum.toNat handler s.toNat = QOS_SIG_DFL
  by_cases hsig : s = signum
  · -- the guard lets only the default through
    rw [hsig, set_self]
    by_contra hne
    exact hguard ⟨hsig ▸ hs, hne⟩
  rw [set_ne fun heq => hsig (UInt32.toNat_inj.mp heq)]
  exact h.default s hs

theorem Uncaught.signal_next (h : p.Uncaught) : p.signal_next.2.Uncaught := by
  obtain ⟨_, _, _, _, heq⟩ := p.signal_next_ends
  rw [heq]
  exact ⟨h.unblocked, h.default⟩

theorem Uncaught.getD (h : p.Uncaught) {f : Option Process}
    (hf : ∀ p', f = some p' → p'.Uncaught) : (f.getD p).Uncaught := by
  cases f with
  | none => exact h
  | some p' => exact hf p' rfl

theorem Uncaught.acts (h : p.Uncaught) {c : Call} {pid : UInt32} {f : Process → Process}
    (hc : c.acts = some (pid, f)) : (f p).Uncaught := by
  cases c <;> cases hc
  case exit code =>
    refine h.getD fun p' heq => ?_
    unfold Process.exit at heq
    split at heq <;> cases heq
    exact ⟨h.unblocked, h.default⟩
  case cwd_set path =>
    refine h.getD fun p' heq => ?_
    unfold cwd_set_idx at heq
    repeat' split at heq
    all_goals cases heq
    exact ⟨h.unblocked, h.default⟩
  case exec_signal_reset => exact h.exec_signal_reset
  case exec_image_set image =>
    cases image with
    | none => exact h
    | some image => exact ⟨h.unblocked, h.default⟩
  case signal_set_handler signum handler => exact h.getD fun _ heq => h.signal_set_handler heq
  -- each way to set the mask drops the two bits
  case signal_set_mask mask => exact h.signal_set_mask mask
  case signal_send signum =>
    refine h.getD fun p' heq => ?_
    unfold Process.signal_send at heq
    split at heq <;> cases heq
    exact ⟨h.unblocked, h.default⟩
  case signal_next => exact h.signal_next
  case signal_apply_default signum =>
    dsimp only
    rcases p.signal_apply_default_ends signum with hnone | ⟨_, _, _, hsome⟩
    · rw [hnone]
      exact h
    rw [hsome]
    exact ⟨h.unblocked, h.default⟩
  case signal_sigreturn frame =>
    cases frame with
    | none => exact h
    | some frame => exact h.signal_set_mask frame.saved_mask
  case signal_altstack_set => exact ⟨h.unblocked, h.default⟩
  case sigaction =>
    dsimp only
    split
    · exact h.getD fun _ heq => h.signal_set_handler heq
    exact h
  case sigprocmask =>
    refine h.getD fun p' heq => ?_
    obtain ⟨mask, -, rfl⟩ := Option.map_eq_some_iff.mp heq
    exact h.signal_set_mask mask
  case sigaltstack =>
    dsimp only
    split
    · exact ⟨h.unblocked, h.default⟩
    exact h
  -- the old mask comes back, and it is masked again
  case sigsuspend => exact (h.signal_set_mask _).signal_next.signal_set_mask _
  case exec path =>
    rcases path with _ | _ | image
    · exact h.exec_signal_reset
    · exact h
    exact ⟨h.exec_signal_reset.unblocked, h.exec_signal_reset.default⟩
  case sigreturn frame =>
    dsimp only
    split
    · cases frame with
      | none => exact h
      | some frame => exact h.signal_set_mask frame.saved_mask
    exact h.signal_set_mask _

/-! ### Delivery -/
variable {k : UInt32}
theorem Uncaught.ready (h : p.Uncaught) (hk : Uncatchable k) (hpending : bitAt p.sig_pending k = true) :
    p.ready p.deliverable k = true := by
  have hlt := lt_of_mem_signums hk.mem_signums
  have hne : QOS_SIG_DFL ≠ QOS_SIG_IGN := by decide
  unfold Process.ready
  rw [bitAt_deliverable hlt, hpending, hk.unmaskable, h.default k hk]
  simpa using hne

def pendingBelow (p : Process) (k : UInt32) : Finset UInt32 :=
  signums.toFinset.filter fun s => s.toNat < k.toNat ∧ bitAt p.sig_pending s = true

/-- When one of the two signals is pending, it is delivered, or another one
below it. In this case it stays pending, and fewer signals are before
it. -/
theorem Uncaught.next_cases (h : p.Uncaught) (hk : Uncatchable k)
    (hpending : bitAt p.sig_pending k = true) :
    p.signal_next = (k, (p.passed k).deliver k) ∨
    bitAt p.signal_next.2.sig_pending k = true ∧
      p.signal_next.2.pendingBelow k ⊂ p.pendingBelow k := by
  -- the signal that is delivered is at most `k`
  obtain ⟨s, hs, hle⟩ := find_signums_le hk.mem_signums (h.ready hk hpending)
  by_cases hsk : s = k
  · rw [hsk] at hs
    exact .inl (signal_next_some hs)
  right
  have hlt : s.toNat < k.toNat := Nat.lt_of_le_of_ne hle fun heq => hsk (UInt32.toNat_inj.mp heq)
  have hmem := List.mem_of_find?_eq_some hs
  have hbit : ∀ j ∈ signums, bitAt p.signal_next.2.sig_pending j = true →
      bitAt p.sig_pending j = true ∧ j ≠ s := by
    intro j hj hbit
    rw [bitAt_pending_next hs hj] at hbit
    simp only [Bool.and_eq_true, bne_iff_ne] at hbit
    exact ⟨hbit.1.1, hbit.2⟩
  constructor
  · rw [bitAt_pending_next hs hk.mem_signums, hpending]
    simp [Nat.lt_asymm hlt, Ne.symm hsk]
  -- `s` was pending and is not any more
  have hspending : bitAt p.sig_pending s = true := by
    have hready := List.find?_some hs
    unfold Process.ready at hready
    rw [bitAt_deliverable (lt_of_mem_signums hmem)] at hready
    simp only [Bool.and_eq_true] at hready
    exact hready.1.1
  refine Finset.ssubset_iff_subset_ne.mpr ⟨?_, fun heq => ?_⟩
  · intro j hj
    obtain ⟨hj, hjk, hjbit⟩ := Finset.mem_filter.mp hj
    exact Finset.mem_filter.mpr ⟨hj, hjk, (hbit j (List.mem_toFinset.mp hj) hjbit).1⟩
  have hin : s ∈ p.pendingBelow k :=
    Finset.mem_filter.mpr ⟨List.mem_toFinset.mpr hmem, hlt, hspending⟩
  rw [← heq] at hin
  exact (hbit s hmem (Finset.mem_filter.mp hin).2.2).2 rfl

def nextTimes (p : Process) (n : Nat) : Process := (fun p => p.signal_next.2)^[n] p

theorem Uncaught.delivered (h : p.Uncaught) (hk : Uncatchable k)
    (hpending : bitAt p.sig_pending k = true) :
    ∃ n < QOS_SIGNAL_MAX, (p.nextTimes n).signal_next.1 = k := by
  -- by induction on the number of signals that are before it
  have hcard : ∀ m (p : Process), (p.pendingBelow k).card ≤ m → p.Uncaught →
      bitAt p.sig_pending k = true → ∃ n ≤ m, (p.nextTimes n).signal_next.1 = k := by
    intro m
    induction m with
    | zero =>
      intro p hm h hpending
      rcases h.next_cases hk hpending with heq | ⟨-, hlt⟩
      · exact ⟨0, Nat.le_refl _, congrArg Prod.fst heq⟩
      have := Finset.card_lt_card hlt
      omega
    | succ m ih =>
    intro p hm h hpending
    rcases h.next_cases hk hpending with heq | ⟨hstill, hlt⟩
    · exact ⟨0, Nat.zero_le _, congrArg Prod.fst heq⟩
    have := Finset.card_lt_card hlt
    obtain ⟨n, hn, heq⟩ := ih p.signal_next.2 (by omega) h.signal_next hstill
    exact ⟨n + 1, Nat.succ_le_succ hn, heq⟩
  -- there are 31 signals
  have hle : (p.pendingBelow k).card ≤ 31 :=
    (Finset.card_filter_le _ _).trans (List.toFinset_card_le signums)
  obtain ⟨n, hn, heq⟩ := hcard 31 p hle h hpending
  exact ⟨n, Nat.lt_succ_of_le hn, heq⟩

/-- What the delivery of one of the two signals does. -/
structure Killed (p : Process) (k : UInt32) : Prop where
  kill : k = QOS_SIGKILL → p.exited = true ∧ p.stopped = false ∧ p.exit_code = 137
  stop : k = QOS_SIGSTOP → p.stopped = true

theorem Uncaught.killed (h : p.Uncaught) (hk : Uncatchable k) (hnext : p.signal_next.1 = k) :
    p.signal_next.2.Killed k := by
  have hne : k ≠ 0 := by rcases hk with rfl | rfl <;> decide
  cases hfind : signums.find? (p.ready p.deliverable) with
  | none =>
    rw [signal_next_none hfind] at hnext
    exact absurd hnext.symm hne
  | some s =>
  rw [signal_next_some hfind] at hnext ⊢
  obtain rfl : s = k := hnext
  obtain ⟨_, hpassed⟩ := p.clearAll_ends
    ((signums.takeWhile (· ≠ s)).filter (bitAt p.deliverable))
  -- passing the lower signals has left the handlers
  have hdefault : (p.passed s).sig_handlers s.toNat = QOS_SIG_DFL := by
    unfold passed
    rw [hpassed]
    exact h.default s hk
  show ((p.passed s).deliver s).Killed s
  unfold deliver
  rw [if_pos hdefault]
  constructor
  · rintro rfl
    have hcode : (128 : Int32) + QOS_SIGKILL.toInt32 = 137 := by decide
    exact ⟨rfl, rfl, hcode⟩
  rintro rfl
  rfl
end Process
/-! ### Runs -/
namespace Procs
variable {t : Procs} {pid : UInt32} {i : Slot}
theorem uncaught_step (h : ∀ i, (t.procs i).Uncaught) (c : Call) (i : Slot) :
    ((t.step c).procs i).Uncaught := by
  -- at most one slot changes
  have hset : ∀ {j : Slot} {p : Process}, p.Uncaught → (set t.procs j p i).Uncaught := by
    intro j p hp
    by_cases hij : i = j
    · rw [hij, set_self]
      exact hp
    rw [set_ne hij]
    exact h i
  obtain heq | ⟨pid, ppid, slot, -, -, -, -, heq⟩ | ⟨parent_pid, child_pid, parent, slot, -, -, -, -,
    -, heq⟩ | ⟨j, -, -, heq⟩ | ⟨pid, f, j, hc, -, heq⟩ := t.step_cases c <;> rw [heq]
  · exact h i
  · exact hset (Process.uncaught_new pid ppid)
  · exact hset ((h parent).child parent_pid child_pid)
  · exact hset Process.uncaught_free
  exact hset ((h j).acts hc)

theorem uncaught_of_reach {tr : List Call} (hr : system.Reach anyStep tr t) (i : Slot) :
    (t.procs i).Uncaught := by
  refine hr.invariant (fun t => ∀ i, (t.procs i).Uncaught) (fun _ => Process.uncaught_free) ?_ i
  intro t c t' h _ hstep
  cases hstep
  exact uncaught_step h c

/-- The table after `n` calls of `qos_proc_signal_next` for `pid`. -/
def nextTimes (t : Procs) (pid : UInt32) (n : Nat) : Procs :=
  (fun t => (t.qos_proc_signal_next pid).2)^[n] t

theorem nextTimes_find (hfind : t.find_pid pid = some i) (n : Nat) :
    (t.nextTimes pid n).find_pid pid = some i ∧
      (t.nextTimes pid n).procs i = (t.procs i).nextTimes n := by
  induction n generalizing t with
  | zero => exact ⟨hfind, rfl⟩
  | succ n ih =>
  have hnext := congrArg Prod.snd (signal_next_eq hfind)
  have hfind' : (Procs.mk (set t.procs i (t.procs i).signal_next.2) t.count).find_pid pid =
      some i := find_pid_set hfind (t.procs i).signal_next_same
  have hstep : t.nextTimes pid (n + 1) = (t.qos_proc_signal_next pid).2.nextTimes pid n := rfl
  obtain ⟨hfound, hproc⟩ := ih hfind'
  rw [hstep, hnext]
  refine ⟨hfound, hproc.trans ?_⟩
  show (set t.procs i (t.procs i).signal_next.2 i).nextTimes n = _
  rw [set_self]
  rfl

/-- The two signals cannot be caught: they are neither blocked nor ignored nor
handled; when one is pending, `qos_proc_signal_next` comes to it; and when
it is delivered, its default action is taken. -/
structure KillAndStopReserved (t : Procs) : Prop where
  uncaught : ∀ i, (t.procs i).used = true → ∀ s, Uncatchable s →
    (t.procs i).sig_blocked &&& signum_bit s = 0 ∧ (t.procs i).sig_handlers s.toNat ≠ QOS_SIG_IGN ∧
      (t.procs i).sig_handlers s.toNat = QOS_SIG_DFL
  deliverable : ∀ pid i, t.find_pid pid = some i → ∀ s, Uncatchable s →
    (t.procs i).sig_pending &&& signum_bit s ≠ 0 →
    (t.procs i).deliverable &&& signum_bit s ≠ 0 ∧
      ∃ n < QOS_SIGNAL_MAX, ((t.nextTimes pid n).qos_proc_signal_next pid).1 = s.toNat
  killed : ∀ pid i, t.find_pid pid = some i → ∀ s, Uncatchable s →
    (t.qos_proc_signal_next pid).1 = s.toNat →
    ((t.qos_proc_signal_next pid).2.procs i).Killed s

/-- In every state that the C process table can reach. -/
theorem kill_and_stop_reserved {tr : List Call} {t : Procs} (hr : system.Reach anyStep tr t) :
    KillAndStopReserved t := by
  have huncaught := uncaught_of_reach hr
  constructor
  case uncaught =>
    intro i _ s hs
    have hlt := lt_of_mem_signums hs.mem_signums
    refine ⟨?_, ?_, (huncaught i).default s hs⟩
    · by_contra hne
      have hbit := (and_signum_bit_ne_zero hlt).mp hne
      rw [(huncaught i).unblocked s hs] at hbit
      cases hbit
    rw [(huncaught i).default s hs]
    decide
  -- at most 31 deliveries come before it
  case deliverable =>
    intro pid i hfind s hs hpending
    have hlt := lt_of_mem_signums hs.mem_signums
    have hbit := (and_signum_bit_ne_zero hlt).mp hpending
    constructor
    · refine (and_signum_bit_ne_zero hlt).mpr ?_
      rw [Process.bitAt_deliverable hlt, hbit, hs.unmaskable]
      simp
    obtain ⟨n, hn, heq⟩ := (huncaught i).delivered hs hbit
    obtain ⟨hfound, hproc⟩ := nextTimes_find hfind n
    refine ⟨n, hn, ?_⟩
    rw [signal_next_eq hfound, hproc, heq]
  case killed =>
    intro pid i hfind s hs hnext
    rw [signal_next_eq hfind] at hnext ⊢
    have heq : (t.procs i).signal_next.1 = s := UInt32.toNat_inj.mp (Int.ofNat.inj hnext)
    show (set t.procs i _ i).Killed s
    rw [set_self]
    exact (huncaught i).killed hs heq

/-- A process that tries to block and to handle SIGKILL, and forks. -/
theorem kill_and_stop_reserved_forked :
    ∃ t, system.Reach anyStep [.create 5 0, .sigprocmask 5 2 0xFFFFFFFF, .sigaction 5 9 0x1000,
        .fork 5 6, .signal_send 6 9] t ∧ KillAndStopReserved t := by
  have hr : system.Reach anyStep [.create 5 0, .sigprocmask 5 2 0xFFFFFFFF, .sigaction 5 9 0x1000,
      .fork 5 6, .signal_send 6 9] _ := System.reach_foldl _ _ _
  exact ⟨_, hr, kill_and_stop_reserved hr⟩
end Procs
end QosKernel.CProc
