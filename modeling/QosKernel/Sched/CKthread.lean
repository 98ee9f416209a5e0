import QosKernel.Locks.RustState

/-! # Turns of the C kernel threads

The functions of `c-os/kernel/kthread/kthread.c`, on the table of threads of
the Rust kernel; what they do as the Rust ones do is taken from there.
`qos_kthread_run_next` calls its thread last, so what a thread does to the
table comes after the call in a run.
-/
open Framework
namespace QosKernel.CKthread
open RustKernel
abbrev Slot := Fin QOS_KTHREAD_MAX

section
variable (s : KthreadState)
/-- `none` is the return value -1; the id goes to `out_tid`. -/
def qos_kthread_create (entry arg : UInt64) : Option UInt32 × KthreadState :=
  if entry == 0 then (none, s) else s.create entry arg

variable (tid : UInt32)
def qos_kthread_wake : Bool × KthreadState :=
  s.setRunnable tid true

def qos_kthread_stop : Bool × KthreadState :=
  s.setRunnable tid false
end
def can_run (e : KthreadEntry) : Bool := e.used && e.runnable && e.entry.isSome

/-- The slot that the loop over `scanned` stops at. -/
def next_slot (s : KthreadState) : Option Slot :=
  (first fun scanned => can_run (s.entries (s.slotFrom scanned))).map s.slotFrom

/-- The return value, and the function that is called with its argument. -/
def qos_kthread_run_next (s : KthreadState) :
    (UInt32 × Option (UInt64 × UInt64)) × KthreadState :=
  match next_slot s with
  | none => ((0, none), { s with current_tid := 0 })
  | some idx =>
    let e := s.entries idx
    ((e.tid, e.entry.map (·, e.arg)), { s with
      entries := set s.entries idx { e with run_count := e.run_count + 1 }
      cursor := .ofNat ((idx + 1) % QOS_KTHREAD_MAX)
      current_tid := e.tid })

inductive Call where
  | create (entry arg : UInt64)
  | wake (tid : UInt32)
  | stop (tid : UInt32)
  | run_next
  deriving DecidableEq

def step (s : KthreadState) : Call → KthreadState
  | .create entry arg => (qos_kthread_create s entry arg).2
  | .wake tid => (qos_kthread_wake s tid).2
  | .stop tid => (qos_kthread_stop s tid).2
  | .run_next => (qos_kthread_run_next s).2

def system : System KthreadState Call := .ofStep .new step

variable {s : KthreadState} {i j : Slot} {d : Nat}
/-! ### Threads that can run -/
/-- What is runnable is a thread, and every thread has a function. -/
def Sound (e : KthreadEntry) : Prop :=
  (e.runnable = true → e.used = true) ∧ (e.used = true → e.entry.isSome = true)

theorem Sound.can_run {e : KthreadEntry} (h : Sound e) (hr : e.runnable = true) :
    can_run e = true := by
  unfold CKthread.can_run
  rw [h.1 hr, hr, h.2 (h.1 hr)]
  rfl

theorem sound_set {e : KthreadEntry} (h : ∀ i, Sound (s.entries i)) (he : Sound e) :
    ∀ j, Sound (set s.entries i e j) := by
  intro j
  by_cases hj : j = i
  · subst hj
    rwa [set_self]
  rw [set_ne hj]
  exact h j

theorem sound_setRunnable (h : ∀ i, Sound (s.entries i)) (tid : UInt32) (runnable : Bool) :
    ∀ i, Sound ((s.setRunnable tid runnable).2.entries i) := by
  unfold KthreadState.setRunnable
  split
  · exact h
  next i hi =>
  obtain ⟨hused, -⟩ := Bool.and_eq_true_iff.mp (first_some hi)
  exact sound_set h ⟨fun _ => hused, (h i).2⟩

theorem sound_step (h : ∀ i, Sound (s.entries i)) (c : Call) :
    ∀ i, Sound ((step s c).entries i) := by
  cases c with
  | create entry arg =>
    dsimp only [step]
    unfold qos_kthread_create KthreadState.create
    split
    · exact h
    split
    · exact h
    exact sound_set h ⟨fun _ => rfl, fun _ => rfl⟩
  | wake tid => exact sound_setRunnable h tid true
  | stop tid => exact sound_setRunnable h tid false
  | run_next =>
  dsimp only [step]
  unfold qos_kthread_run_next
  split
  · exact h
  exact sound_set h (h _)

/-- `qos_kthread_run_next` runs the thread in slot `j`: it calls its function,
counts the run, and returns its id. -/
structure Runs (s : KthreadState) (j : Slot) : Prop where
  tid : (qos_kthread_run_next s).1.1 = (s.entries j).tid
  called : ∃ fn, (s.entries j).entry = some fn ∧
    (qos_kthread_run_next s).1.2 = some (fn, (s.entries j).arg)
  counted : (qos_kthread_run_next s).2.entries j =
    { s.entries j with run_count := (s.entries j).run_count + 1 }
  current : (qos_kthread_run_next s).2.current_tid = (s.entries j).tid

theorem runs_of_next_slot (hj : can_run (s.entries j) = true) (hnext : next_slot s = some j) :
    Runs s j := by
  have hentry : (s.entries j).entry.isSome = true := (Bool.and_eq_true_iff.mp hj).2
  obtain ⟨fn, hfn⟩ := Option.isSome_iff_exists.mp hentry
  constructor <;> simp only [qos_kthread_run_next, hnext, hfn, set_self]
  exact ⟨fn, rfl, rfl⟩

/-! ### The way from the cursor to a thread -/
section
variable (s : KthreadState) (j : Slot)
/-- The thread in slot `j` is `d` steps behind the cursor. -/
def Ahead (d : Nat) : Prop :=
  (s.cursor.toNat + d) % QOS_KTHREAD_MAX = j.val

theorem exists_ahead : ∃ d < QOS_KTHREAD_MAX, Ahead s j d := by
  have hj : j.val < 64 := j.isLt
  refine ⟨(j.val + (64 - s.cursor.toNat % 64)) % 64, Nat.mod_lt _ (by decide), ?_⟩
  show (s.cursor.toNat + _) % 64 = j.val
  omega
end
theorem run_next_ahead (hj : can_run (s.entries j) = true) (hd : d < QOS_KTHREAD_MAX)
    (h : Ahead s j d) : next_slot s = some j ∨ ∃ d' < d, Ahead (qos_kthread_run_next s).2 j d' := by
  have hslot : s.slotFrom ⟨d, hd⟩ = j := Fin.ext h
  unfold qos_kthread_run_next next_slot
  cases hk : first fun scanned => can_run (s.entries (s.slotFrom scanned)) with
  | none =>
    have hno := first_none.mp hk ⟨d, hd⟩
    rw [hslot, hj] at hno
    cases hno
  | some k =>
  have hle : k.val ≤ d := by
    by_contra hlt
    have hno := first_min hk (j := ⟨d, hd⟩) (Nat.lt_of_not_le hlt)
    rw [hslot, hj] at hno
    cases hno
  rcases Nat.eq_or_lt_of_le hle with heq | hlt
  · left
    rw [Option.map_some, ← hslot]
    exact congrArg (fun k => some (s.slotFrom k)) (Fin.ext heq)
  right
  refine ⟨d - k - 1, by omega, ?_⟩
  have h : (s.cursor.toNat + d) % 64 = j.val := h
  show ((UInt32.ofNat (((s.cursor.toNat + k) % 64 + 1) % 64)).toNat + (d - k - 1)) % 64 = j.val
  rw [UInt32.toNat_ofNat']
  omega

theorem step_cursor {c : Call} (hc : c ≠ .run_next) : (step s c).cursor = s.cursor := by
  cases c with
  | create entry arg =>
    dsimp only [step]
    unfold qos_kthread_create KthreadState.create
    split
    · rfl
    split <;> rfl
  | wake tid | stop tid =>
    show (s.setRunnable tid _).2.cursor = s.cursor
    unfold KthreadState.setRunnable
    split <;> rfl
  | run_next => exact absurd rfl hc

theorem runs_within {calls : List Call} (h : ∀ i, Sound (s.entries i))
    (hstay : ∀ pre, pre <+: calls → ((pre.foldl step s).entries j).runnable = true)
    (hd : d < QOS_KTHREAD_MAX) (hahead : Ahead s j d) (hmany : d < calls.count .run_next) :
    ∃ pre post, calls = pre ++ .run_next :: post ∧ pre.count .run_next ≤ d ∧
      Runs (pre.foldl step s) j := by
  induction calls generalizing s d with
  | nil => cases hmany
  | cons c calls ih =>
  have hstay' : ∀ pre, pre <+: calls → ((pre.foldl step (step s c)).entries j).runnable = true :=
    fun pre hpre => hstay (c :: pre) ((List.prefix_cons_inj c).mpr hpre)
  by_cases hc : c = .run_next
  · subst hc
    rw [List.count_cons_self] at hmany
    have hrun := (h j).can_run (hstay [] List.nil_prefix)
    obtain hnext | ⟨d', hlt, hahead'⟩ := run_next_ahead hrun hd hahead
    · exact ⟨[], calls, rfl, Nat.zero_le d, runs_of_next_slot hrun hnext⟩
    obtain ⟨pre, post, rfl, hcount, hruns⟩ :=
      ih (sound_step h .run_next) hstay' (hlt.trans hd) hahead' (by omega)
    refine ⟨.run_next :: pre, post, rfl, ?_, hruns⟩
    rw [List.count_cons_self]
    omega
  rw [List.count_cons_of_ne hc] at hmany
  have hahead' : Ahead (step s c) j d := by
    unfold Ahead
    rw [step_cursor hc]
    exact hahead
  obtain ⟨pre, post, rfl, hcount, hruns⟩ := ih (sound_step h c) hstay' hd hahead' hmany
  refine ⟨c :: pre, post, rfl, ?_, hruns⟩
  rw [List.count_cons_of_ne hc]
  exact hcount

/-- In every table that calls can reach, and for all calls that follow: a thread
that stays runnable is run by one of the first `QOS_KTHREAD_MAX` calls of
`qos_kthread_run_next` among them. -/
theorem kthreads_fair {tr : List Call} (hr : system.Reach anyStep tr s) {calls : List Call}
    (hstay : ∀ pre, pre <+: calls → ((pre.foldl step s).entries j).runnable = true)
    (hmany : QOS_KTHREAD_MAX ≤ calls.count .run_next) :
    ∃ pre post, calls = pre ++ .run_next :: post ∧ pre.count .run_next < QOS_KTHREAD_MAX ∧
      Runs (pre.foldl step s) j := by
  have hsound : ∀ i, Sound (s.entries i) := by
    refine hr.invariant (fun s => ∀ i, Sound (s.entries i)) (fun i => ⟨nofun, nofun⟩) ?_
    intro s c s' h _ hs
    cases hs
    exact sound_step h c
  obtain ⟨d, hd, hahead⟩ := exists_ahead s j
  obtain ⟨pre, post, hcalls, hcount, hruns⟩ :=
    runs_within hsound hstay hd hahead (Nat.lt_of_lt_of_le hd hmany)
  exact ⟨pre, post, hcalls, Nat.lt_of_le_of_lt hcount hd, hruns⟩

theorem run_next_runnable (s : KthreadState) (j : Slot) :
    ((step s .run_next).entries j).runnable = (s.entries j).runnable := by
  dsimp only [step]
  unfold qos_kthread_run_next
  split
  · rfl
  next idx _ =>
  by_cases hj : j = idx
  · subst hj
    simp only [set_self]
  simp only [set_ne hj]

/-- Two threads take turns, and the second one has to be run as well. -/
theorem kthreads_fair_two :
    ∃ s, system.Reach anyStep [.create 7 0, .create 8 1] s ∧
      (qos_kthread_run_next s).1 = (1, some (7, 0)) ∧
      (qos_kthread_run_next (step s .run_next)).1 = (2, some (8, 1)) ∧
      (qos_kthread_run_next (step (step s .run_next) .run_next)).1 = (1, some (7, 0)) ∧
      ∃ pre post, List.replicate 64 Call.run_next = pre ++ .run_next :: post ∧
        pre.count .run_next < 64 ∧ Runs (pre.foldl step s) ⟨1, by decide⟩ := by
  have hstay : ∀ n s (j : Slot), (s.entries j).runnable = true →
      (((List.replicate n Call.run_next).foldl step s).entries j).runnable = true := by
    intro n
    induction n with
    | zero => exact fun _ _ h => h
    | succ n ih => exact fun s j h => ih _ j ((run_next_runnable s j).trans h)
  have hr := System.reach_foldl KthreadState.new step [.create 7 0, .create 8 1]
  refine ⟨_, hr, by decide, by decide, by decide, ?_⟩
  refine kthreads_fair hr (fun pre hpre => ?_) (by decide)
  rw [(List.prefix_replicate_iff.mp hpre).2]
  exact hstay _ _ _ (by decide)
end QosKernel.CKthread
