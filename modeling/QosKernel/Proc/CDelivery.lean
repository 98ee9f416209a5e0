import QosKernel.Proc.CSignals
import QosKernel.Framework.WordSet

/-! # Which signal is delivered

`signal_next` delivers the lowest signal that is pending, not blocked and
not ignored. On its way it drops the signals below that are ignored.
-/
open Framework
namespace QosKernel.CProc
variable {s k : UInt32} {f : UInt32 → Bool}
/-! ### The signals -/
theorem lt_of_mem_signums (hs : s ∈ signums) : s.toNat < 32 := by
  have hall : signums.all (fun s => s.toNat < 32) = true := by decide +kernel
  exact of_decide_eq_true (List.all_eq_true.mp hall s hs)

theorem signum_valid_of_mem (hs : s ∈ signums) : signum_valid s = true := by
  have hall : signums.all signum_valid = true := by decide +kernel
  exact List.all_eq_true.mp hall s hs

theorem and_signum_bit_ne_zero {w : UInt32} (hs : s.toNat < 32) :
    w &&& signum_bit s ≠ 0 ↔ bitAt w s = true :=
  and_shift_ne_zero hs

theorem signums_sorted : signums.Pairwise fun s k => s.toNat < k.toNat := by decide +kernel

theorem mem_takeWhile_signums (hs : s ∈ signums) :
    k ∈ signums.takeWhile (· ≠ s) ↔ k ∈ signums ∧ k.toNat < s.toNat := by
  have hall : signums.all (fun s => signums.takeWhile (· ≠ s) =
      signums.filter fun k => k.toNat < s.toNat) = true := by decide +kernel
  rw [of_decide_eq_true (List.all_eq_true.mp hall s hs), List.mem_filter, decide_eq_true_iff]

theorem takeWhile_skip {rest : List UInt32} (hs : f s = false) (hfind : rest.find? f = some k) :
    (s :: rest).takeWhile (· ≠ k) = s :: rest.takeWhile (· ≠ k) := by
  have hne : s ≠ k := by
    rintro rfl
    rw [List.find?_some hfind] at hs
    cases hs
  exact List.takeWhile_cons_of_pos (by simpa using hne)

theorem find_signums_le (hk : k ∈ signums) (hf : f k = true) :
    ∃ s, signums.find? f = some s ∧ s.toNat ≤ k.toNat := by
  obtain ⟨s, hs⟩ := Option.isSome_iff_exists.mp (List.find?_isSome.mpr ⟨k, hk, hf⟩)
  refine ⟨s, hs, ?_⟩
  -- `k` stands where the find ended or behind it, and the list is sorted
  obtain ⟨-, as, bs, heq, has⟩ := List.find?_eq_some_iff_append.mp hs
  have hsorted := signums_sorted
  rw [heq, List.pairwise_append, List.pairwise_cons] at hsorted
  rw [heq] at hk
  rcases List.mem_append.mp hk with hmem | hmem
  · -- what stands before does not meet the test
    have hnot := has k hmem
    simp [hf] at hnot
  rcases List.mem_cons.mp hmem with rfl | hmem
  · exact Nat.le_refl _
  exact Nat.le_of_lt (hsorted.2.1.1 k hmem)

/-! ### One process -/
namespace Process
variable {s k : UInt32} {l : List UInt32}
section
variable (p : Process)
/-- The signals of `l` do not wait any more. -/
def clearAll (l : List UInt32) : Process := l.foldl clear p

/-- Signal `s` is delivered: a handler is left to the caller. -/
def deliver (s : UInt32) : Process :=
  if p.sig_handlers s.toNat = QOS_SIG_DFL then
    ((p.clear s).signal_apply_default s).getD (p.clear s)
  else p.clear s

/-- Signal `s` may be delivered and is not ignored. -/
def ready (deliverable s : UInt32) : Bool :=
  bitAt deliverable s && p.sig_handlers s.toNat != QOS_SIG_IGN
end
variable {p : Process}
theorem bitAt_clear (hs : s.toNat < 32) (hk : k.toNat < 32) :
    bitAt (p.clear s).sig_pending k = (bitAt p.sig_pending k && k != s) := by
  show bitAt (p.sig_pending &&& ~~~(1 <<< s)) k = _
  rw [bitAt_and, bitAt_not hk, bitAt_shift hs hk]
  by_cases hks : k = s <;> simp [hks]

theorem clearAll_ends (p : Process) (l : List UInt32) :
    ∃ pending, p.clearAll l = { p with sig_pending := pending } := by
  induction l generalizing p with
  | nil => exact ⟨_, rfl⟩
  | cons s rest ih =>
  obtain ⟨pending, heq⟩ := ih (p.clear s)
  exact ⟨pending, heq⟩

theorem bitAt_clearAll (hl : ∀ s ∈ l, s.toNat < 32) (hk : k.toNat < 32) :
    bitAt (p.clearAll l).sig_pending k = (bitAt p.sig_pending k && !l.contains k) := by
  induction l generalizing p with
  | nil => simp [clearAll]
  | cons s rest ih =>
  obtain ⟨hs, hrest⟩ := List.forall_mem_cons.mp hl
  have hstep : p.clearAll (s :: rest) = (p.clear s).clearAll rest := rfl
  rw [hstep, ih hrest, bitAt_clear hs hk, List.contains_cons, Bool.not_or, Bool.and_assoc]
  rfl

theorem signal_next_loop_eq (deliverable : UInt32) (hl : ∀ s ∈ l, s.toNat < 32) :
    p.signal_next_loop deliverable l =
      match l.find? (p.ready deliverable) with
      | none => (0, p.clearAll (l.filter (bitAt deliverable)))
      | some s =>
        (s, (p.clearAll ((l.takeWhile (· ≠ s)).filter (bitAt deliverable))).deliver s) := by
  -- on the signals that are left; the ones passed so far are cleared from `p`
  induction l generalizing p with
  | nil => rfl
  | cons s rest ih =>
  obtain ⟨hs, hrest⟩ := List.forall_mem_cons.mp hl
  unfold signal_next_loop
  by_cases hbit : bitAt deliverable s = true
  · rw [if_pos ((and_signum_bit_ne_zero hs).mpr hbit)]
    by_cases hign : p.sig_handlers s.toNat = QOS_SIG_IGN
    · -- an ignored signal is dropped, and the loop goes on
      have hready : p.ready deliverable s = false := by simp [ready, hign]
      rw [if_pos hign, ih hrest, List.find?_cons_of_neg (by simp [hready]),
        List.filter_cons_of_pos hbit]
      show (match rest.find? (p.ready deliverable) with
        | none => _
        | some k => _) = _
      cases hfind : rest.find? (p.ready deliverable) with
      | none => rfl
      | some k =>
      dsimp only
      rw [takeWhile_skip hready hfind, List.filter_cons_of_pos hbit]
      rfl
    -- the first signal that is ready is delivered, and none was passed
    · have hready : p.ready deliverable s = true := by simp [ready, hbit, hign]
      rw [if_neg hign, List.find?_cons_of_pos hready]
      simp only [ne_eq, not_true, decide_false, List.takeWhile_cons_of_neg, Bool.false_eq_true,
        not_false_eq_true, List.filter_nil]
      unfold clearAll deliver
      rw [List.foldl_nil]
      split <;> rfl
  -- a signal that cannot be delivered is left alone
  · have hready : p.ready deliverable s = false := by simp [ready, hbit]
    rw [if_neg (mt (and_signum_bit_ne_zero hs).mp hbit), ih hrest,
      List.find?_cons_of_neg (by simp [hready]), List.filter_cons_of_neg hbit]
    cases hfind : rest.find? (p.ready deliverable) with
    | none => rfl
    | some k =>
    dsimp only
    rw [takeWhile_skip hready hfind, List.filter_cons_of_neg hbit]

theorem bitAt_deliverable (hs : s.toNat < 32) :
    bitAt p.deliverable s =
      (bitAt p.sig_pending s && (!bitAt p.sig_blocked s || bitAt unmaskable_bits s)) := by
  unfold deliverable
  rw [bitAt_or, bitAt_and, bitAt_and, bitAt_not hs, Bool.and_or_distrib_left]

theorem signal_next_eq_loop (p : Process) :
    p.signal_next = p.signal_next_loop p.deliverable signums := by
  -- with nothing to deliver the loop would find nothing and clear nothing
  have hzero : p.deliverable = 0 → p.signal_next_loop p.deliverable signums = (0, p) := by
    intro h
    have hnone : signums.find? (p.ready 0) = none :=
      List.find?_eq_none.mpr fun s _ => by simp [ready, bitAt_zero]
    have hempty : signums.filter (bitAt 0) = [] :=
      List.filter_eq_nil_iff.mpr fun s _ => by simp [bitAt_zero]
    rw [h, signal_next_loop_eq 0 fun s => lt_of_mem_signums, hnone, hempty]
    rfl
  unfold signal_next
  split
  next hpending =>
    have h : p.deliverable = 0 := by simp [deliverable, hpending]
    exact (hzero h).symm
  next =>
  split
  next h => exact (hzero h).symm
  next => rfl

/-- The process when the loop comes to `s`: the signals below that could be
delivered were ignored and are dropped. -/
def passed (p : Process) (s : UInt32) : Process :=
  p.clearAll ((signums.takeWhile (· ≠ s)).filter (bitAt p.deliverable))

theorem signal_next_some (h : signums.find? (p.ready p.deliverable) = some s) :
    p.signal_next = (s, (p.passed s).deliver s) := by
  rw [signal_next_eq_loop, signal_next_loop_eq _ fun s => lt_of_mem_signums, h]
  rfl

theorem signal_next_none (h : signums.find? (p.ready p.deliverable) = none) :
    p.signal_next = (0, p.clearAll (signums.filter (bitAt p.deliverable))) := by
  rw [signal_next_eq_loop, signal_next_loop_eq _ fun s => lt_of_mem_signums, h]

theorem bitAt_passed (hs : s ∈ signums) (hk : k ∈ signums) :
    bitAt (p.passed s).sig_pending k =
      (bitAt p.sig_pending k && !(decide (k.toNat < s.toNat) && bitAt p.deliverable k)) := by
  have hmem : ∀ j, j ∈ (signums.takeWhile (· ≠ s)).filter (bitAt p.deliverable) ↔
      j ∈ signums ∧ j.toNat < s.toNat ∧ bitAt p.deliverable j = true := by
    intro j
    rw [List.mem_filter, mem_takeWhile_signums hs, and_assoc]
  have hlt : ∀ j ∈ (signums.takeWhile (· ≠ s)).filter (bitAt p.deliverable), j.toNat < 32 :=
    fun j hj => lt_of_mem_signums ((hmem j).mp hj).1
  unfold passed
  rw [bitAt_clearAll hlt (lt_of_mem_signums hk)]
  congr 2
  rw [Bool.eq_iff_iff, List.contains_iff_mem, hmem k, Bool.and_eq_true, decide_eq_true_iff]
  exact and_iff_right hk

theorem deliver_ends (p : Process) (s : UInt32) :
    ∃ stopped exited code, p.deliver s =
      { p.clear s with stopped := stopped, exited := exited, exit_code := code } := by
  unfold deliver
  split
  · rcases (p.clear s).signal_apply_default_ends s with hnone | ⟨_, _, _, hsome⟩
    · rw [hnone]
      exact ⟨_, _, _, rfl⟩
    rw [hsome]
    exact ⟨_, _, _, rfl⟩
  exact ⟨_, _, _, rfl⟩

theorem bitAt_pending_next (h : signums.find? (p.ready p.deliverable) = some s) (hk : k ∈ signums) :
    bitAt p.signal_next.2.sig_pending k = (bitAt p.sig_pending k &&
      !(decide (k.toNat < s.toNat) && bitAt p.deliverable k) && k != s) := by
  have hs := List.mem_of_find?_eq_some h
  obtain ⟨_, _, _, heq⟩ := (p.passed s).deliver_ends s
  rw [signal_next_some h, heq]
  exact (bitAt_clear (lt_of_mem_signums hs) (lt_of_mem_signums hk)).trans
    (by rw [bitAt_passed hs hk])
end Process
end QosKernel.CProc
