import QosKernel.Proc.CUncatchable

/-! # What a delivery selects and clears

`Selects` says what a delivery under a mask does to a process, without the
loop over the signals: the lowest signal that is wanted is taken, and the
ignored signals below it are dropped. `qos_proc_signal_next` does this
under the mask of the process, and `SIGSUSPEND` under the mask it is given.
-/
open Framework
namespace QosKernel.CProc
variable {s k mask : UInt32}
theorem mem_signums_iff : s ∈ signums ↔ signum_valid s = true := by
  constructor
  · exact signum_valid_of_mem
  intro hs
  simp only [signum_valid, Bool.and_eq_true, decide_eq_true_eq] at hs
  refine List.mem_map.mpr ⟨s.toNat, ?_, UInt32.ofNat_toNat⟩
  rw [List.mem_range'_1]
  unfold QOS_SIGNAL_MAX at hs ⊢
  omega

namespace Process
section
variable (mask : UInt32) (p : Process) (s : UInt32)
/-- Signal `s` is pending, and `mask` does not block it. -/
def Free : Prop :=
  bitAt p.sig_pending s = true ∧ bitAt mask s = false

/-- It is not ignored either. -/
def Wanted : Prop :=
  Free mask p s ∧ p.sig_handlers s.toNat ≠ QOS_SIG_IGN
end
/-- A delivery under `mask` that returns `rc` takes `p` to `p'`. -/
structure Selects (mask : UInt32) (p : Process) (rc : UInt32) (p' : Process) : Prop where
  lowest : signum_valid rc = true ∧ Wanted mask p rc ∧
      (∀ k, signum_valid k = true → Wanted mask p k → rc.toNat ≤ k.toNat) ∨
    rc = 0 ∧ ∀ k, signum_valid k = true → ¬Wanted mask p k
  pending : ∀ k, signum_valid k = true → (bitAt p'.sig_pending k = true ↔
    bitAt p.sig_pending k = true ∧ k ≠ rc ∧
      ¬(Free mask p k ∧ p.sig_handlers k.toNat = QOS_SIG_IGN ∧ (rc = 0 ∨ k.toNat < rc.toNat)))
  status : rc = 0 ∨ p.sig_handlers rc.toNat ≠ QOS_SIG_DFL →
    p'.stopped = p.stopped ∧ p'.exited = p.exited ∧ p'.exit_code = p.exit_code
  rest : ∃ pending stopped exited code, p' = { p with
    sig_pending := pending, stopped := stopped, exited := exited, exit_code := code }

variable {p : Process}
/-- The source lets SIGKILL and SIGSTOP through whatever the mask says. -/
theorem bitAt_deliverable_iff (hs : s.toNat < 32) :
    bitAt p.deliverable s = true ↔ Free (p.sig_blocked &&& ~~~unmaskable_bits) p s := by
  unfold Free
  rw [bitAt_deliverable hs, bitAt_and, bitAt_not hs]
  cases bitAt p.sig_pending s <;> cases bitAt p.sig_blocked s <;> simp

theorem ready_iff (hs : s.toNat < 32) :
    p.ready p.deliverable s = true ↔ Wanted (p.sig_blocked &&& ~~~unmaskable_bits) p s := by
  unfold ready Wanted
  rw [Bool.and_eq_true, bitAt_deliverable_iff hs, bne_iff_ne]

theorem deliver_status (h : p.sig_handlers s.toNat ≠ QOS_SIG_DFL) : p.deliver s = p.clear s := by
  unfold deliver
  rw [if_neg h]

theorem signal_next_selects (p : Process) :
    Selects (p.sig_blocked &&& ~~~unmaskable_bits) p p.signal_next.1 p.signal_next.2 := by
  have hready : ∀ k, signum_valid k = true → (p.ready p.deliverable k = true ↔
      Wanted (p.sig_blocked &&& ~~~unmaskable_bits) p k) :=
    fun k hk => ready_iff (lt_of_mem_signums (mem_signums_iff.mpr hk))
  cases hfind : signums.find? (p.ready p.deliverable) with
  | none =>
    have hnot : ∀ k, signum_valid k = true →
        ¬Wanted (p.sig_blocked &&& ~~~unmaskable_bits) p k := by
      intro k hk hwanted
      exact List.find?_eq_none.mp hfind k (mem_signums_iff.mpr hk) ((hready k hk).mpr hwanted)
    have hends := p.signal_next_ends
    obtain ⟨pending, hclear⟩ := p.clearAll_ends (signums.filter (bitAt p.deliverable))
    have hnext := signal_next_none hfind
    rw [hnext] at hends ⊢
    refine ⟨.inr ⟨rfl, hnot⟩, fun k hk => ?_, fun _ => ?_, hends⟩
    · -- what was free is ignored, since nothing is wanted
      have hmem := mem_signums_iff.mpr hk
      have hlt := lt_of_mem_signums hmem
      have hign : Free (p.sig_blocked &&& ~~~unmaskable_bits) p k →
          p.sig_handlers k.toNat = QOS_SIG_IGN := by
        intro hfree
        by_contra hne
        exact hnot k hk ⟨hfree, hne⟩
      have hzero : k ≠ 0 := by
        rintro rfl
        cases hk
      rw [bitAt_clearAll (fun j hj => lt_of_mem_signums (List.mem_filter.mp hj).1) hlt,
        Bool.and_eq_true, Bool.not_eq_true', ← Bool.not_eq_true, List.contains_iff_mem,
        List.mem_filter, bitAt_deliverable_iff hlt]
      refine and_congr_right fun _ => ⟨fun h => ⟨hzero, fun hf => h ⟨hmem, hf.1⟩⟩, ?_⟩
      rintro ⟨-, h⟩ ⟨-, hfree⟩
      exact h ⟨hfree, hign hfree, .inl rfl⟩
    rw [hclear]
    exact ⟨rfl, rfl, rfl⟩
  | some s =>
  have hmem := List.mem_of_find?_eq_some hfind
  have hvalid := mem_signums_iff.mp hmem
  have hleast : ∀ k, signum_valid k = true →
      Wanted (p.sig_blocked &&& ~~~unmaskable_bits) p k → s.toNat ≤ k.toNat := by
    intro k hk hwanted
    obtain ⟨r, hr, hle⟩ := find_signums_le (mem_signums_iff.mpr hk) ((hready k hk).mpr hwanted)
    rw [hfind] at hr
    cases hr
    exact hle
  have hends := p.signal_next_ends
  have hpending := fun k hk => bitAt_pending_next (k := k) hfind (mem_signums_iff.mpr hk)
  rw [signal_next_some hfind] at hends hpending ⊢
  have hzero : s ≠ 0 := by
    rintro rfl
    cases hvalid
  refine ⟨.inl ⟨hvalid, (hready s hvalid).mp (List.find?_some hfind), hleast⟩, fun k hk => ?_, ?_,
    hends⟩
  · -- what is free below the signal is ignored
    have hlt := lt_of_mem_signums (mem_signums_iff.mpr hk)
    have hign : k.toNat < s.toNat → Free (p.sig_blocked &&& ~~~unmaskable_bits) p k →
        p.sig_handlers k.toNat = QOS_SIG_IGN := by
      intro hks hfree
      by_contra hne
      exact Nat.not_le_of_lt hks (hleast k hk ⟨hfree, hne⟩)
    rw [hpending k hk]
    simp only [Bool.and_eq_true, Bool.not_eq_true', ← Bool.not_eq_true, decide_eq_true_eq,
      bitAt_deliverable_iff hlt, bne_iff_ne, hzero, false_or, and_assoc]
    refine and_congr_right fun _ => ⟨fun h => ⟨h.2, fun hf => h.1 ⟨hf.2.2, hf.1⟩⟩, ?_⟩
    rintro ⟨hne, h⟩
    exact ⟨fun hf => h ⟨hf.2, hign hf.1 hf.2, hf.1⟩, hne⟩
  intro h
  obtain ⟨_, hpassed⟩ := p.clearAll_ends
    ((signums.takeWhile (· ≠ s)).filter (bitAt p.deliverable))
  have hhandler : (p.passed s).sig_handlers s.toNat ≠ QOS_SIG_DFL := by
    unfold passed
    rw [hpassed]
    exact h.resolve_left hzero
  dsimp only
  rw [deliver_status hhandler]
  unfold clear passed
  rw [hpassed]
  exact ⟨rfl, rfl, rfl⟩

theorem Uncaught.unmasked (h : p.Uncaught) :
    p.sig_blocked &&& ~~~unmaskable_bits = p.sig_blocked := by
  refine eq_of_bitAt fun s hs => ?_
  rw [bitAt_and, bitAt_not hs]
  cases hbit : bitAt unmaskable_bits s with
  | false => simp
  | true =>
  have hall : ∀ n < 32, bitAt unmaskable_bits (.ofNat n) = true → n = 9 ∨ n = 19 := by
    decide +kernel
  have hs' := hall s.toNat hs (by rw [UInt32.ofNat_toNat]; exact hbit)
  have huncatchable : Uncatchable s := by
    rcases hs' with h9 | h19
    · exact .inl (UInt32.toNat_inj.mp h9)
    exact .inr (UInt32.toNat_inj.mp h19)
  simp [h.unblocked s huncatchable]
end Process
namespace Procs
variable {t : Procs} {pid : UInt32} {i : Slot}
/-- `qos_proc_signal_next` on every table: the process that is looked up is the
only one that changes. In a table that calls can reach, what it takes as
blocked is the mask as it is stored. -/
theorem next_selects_lowest (t : Procs) (pid : UInt32) (i : Slot)
    (hfind : t.find_pid pid = some i) :
    (∃ s p', t.qos_proc_signal_next pid = (s.toNat, { t with procs := set t.procs i p' }) ∧
      Process.Selects ((t.procs i).sig_blocked &&& ~~~unmaskable_bits) (t.procs i) s p') ∧
    ∀ tr, system.Reach anyStep tr t →
      (t.procs i).sig_blocked &&& ~~~unmaskable_bits = (t.procs i).sig_blocked :=
  ⟨⟨_, _, signal_next_eq hfind, (t.procs i).signal_next_selects⟩,
    fun _ hr => (uncaught_of_reach hr i).unmasked⟩

/-- SIGINT is ignored and dropped, and SIGTERM is taken. -/
theorem next_selects_lowest_sent : ∃ t i s p',
    system.Reach anyStep [.create 5 0, .sigaction 5 2 1, .signal_send 5 2, .signal_send 5 15] t ∧
    t.find_pid 5 = some i ∧
    t.qos_proc_signal_next 5 = (s.toNat, { t with procs := set t.procs i p' }) ∧
    Process.Selects (t.procs i).sig_blocked (t.procs i) s p' := by
  have hr : system.Reach anyStep
      [.create 5 0, .sigaction 5 2 1, .signal_send 5 2, .signal_send 5 15] _ :=
    System.reach_foldl _ _ _
  have hsome : (([.create 5 0, .sigaction 5 2 1, .signal_send 5 2, .signal_send 5 15] :
      List Call).foldl step qos_proc_reset).find_pid 5 |>.isSome := by decide +kernel
  obtain ⟨i, hfind⟩ := Option.isSome_iff_exists.mp hsome
  obtain ⟨⟨s, p', heq, hselects⟩, hmask⟩ := next_selects_lowest _ 5 i hfind
  rw [hmask _ hr] at hselects
  exact ⟨_, i, s, p', hr, hfind, heq, hselects⟩

/-- `SIGSUSPEND` in every table that calls can reach: the signal is the one that
`qos_proc_signal_next` selects under the mask that is given, with the same
effect, and the mask afterwards is the one from before. -/
theorem sigsuspend_selects {tr : List Call} (hr : system.Reach anyStep tr t) (a0 a1 : UInt64)
    (hfind : t.find_pid a0.toUInt32 = some i) : ∃ (s : UInt32) (p' : Process),
      t.sys_sigsuspend a0 a1 = (.ofInt s.toNat, { t with procs := set t.procs i p' }) ∧
      Process.Selects (a1.toUInt32 &&& ~~~unmaskable_bits) (t.procs i) s p' ∧
      p'.sig_blocked = (t.procs i).sig_blocked ∧
      ({ t with procs := set t.procs i { t.procs i with
          sig_blocked := a1.toUInt32 &&& ~~~unmaskable_bits } } : Procs).qos_proc_signal_next
        a0.toUInt32 = ((s.toNat : Int), { t with procs := set t.procs i { p' with
          sig_blocked := a1.toUInt32 &&& ~~~unmaskable_bits } }) := by
  have hsame : Process.Same (t.procs i) ((t.procs i).signal_set_mask a1.toUInt32) := ⟨rfl, rfl, rfl⟩
  have hfind' : (Procs.mk (set t.procs i ((t.procs i).signal_set_mask a1.toUInt32))
      t.count).find_pid a0.toUInt32 = some i := find_pid_set hfind hsame
  have hnext := signal_next_eq hfind'
  have hselects := ((t.procs i).signal_set_mask a1.toUInt32).signal_next_selects
  obtain ⟨pending, stopped, exited, code, heq⟩ := hselects.rest
  have hsuspend : t.sys_sigsuspend a0 a1 = _ := sys_sigsuspend_eq hfind
  dsimp only at hnext
  rw [set_self, set_set] at hnext
  rw [heq] at hsuspend hnext hselects
  have htwice : (a1.toUInt32 &&& ~~~unmaskable_bits) &&& ~~~unmaskable_bits =
      a1.toUInt32 &&& ~~~unmaskable_bits := by
    rw [UInt32.and_assoc, UInt32.and_self]
  have hold := (uncaught_of_reach hr i).unmasked
  refine ⟨_, _, hsuspend, ⟨?_, ?_, hselects.status, ?_⟩, hold, hnext⟩
  · rw [← htwice]
    exact hselects.lowest
  · rw [← htwice]
    exact hselects.pending
  exact ⟨pending, stopped, exited, code, by unfold Process.signal_set_mask; rw [hold]⟩

/-- All signals are masked, and SIGKILL gets through. -/
theorem sigsuspend_selects_kill : ∃ t, system.Reach anyStep [.create 5 0, .signal_send 5 9] t ∧
    ∃ i p', t.find_pid 5 = some i ∧
      t.sys_sigsuspend 5 0xFFFFFFFF = (9, { t with procs := set t.procs i p' }) ∧
      p'.sig_blocked = (t.procs i).sig_blocked := by
  refine System.exists_exec (P := fun t => (t.find_pid 5).isSome = true ∧
    (t.sys_sigsuspend 5 0xFFFFFFFF).1 = 9) (by decide +kernel) ?_
  intro t hr ⟨hsome, hrc⟩
  obtain ⟨i, hfind⟩ := Option.isSome_iff_exists.mp hsome
  obtain ⟨s, p', heq, -, hmask, -⟩ := sigsuspend_selects hr 5 0xFFFFFFFF hfind
  rw [heq] at hrc
  exact ⟨i, p', hfind, heq.trans (congrArg (·, _) hrc), hmask⟩
end Procs
end QosKernel.CProc
