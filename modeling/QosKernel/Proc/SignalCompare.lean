import QosKernel.Proc.CDelivery
import QosKernel.Proc.RustSignals

/-! # Signal delivery in the two kernels

An abstract table keeps of a process who it is, whether it has exited, and
which signals are pending and blocked. The Rust table changes as this one
does. The C table does so too, except that it drops ignored signals and
takes default actions when it delivers. The kernels agree on a delivery
exactly when the lowest deliverable signal is not ignored and its default
action, if there is no handler, does not end a process that is alive.
-/
open Framework
namespace QosKernel.Signals
open CProc (signums signum_valid signum_bit unmaskable_bits)
/-! ### The abstract table -/
structure Entry where
  member : Family.Member
  pending : UInt32
  blocked : UInt32

namespace Entry
variable (e : Entry)
def deliverable : UInt32 :=
  (e.pending &&& ~~~e.blocked) ||| (e.pending &&& unmaskable_bits)

def lowest : Option UInt32 :=
  signums.find? fun s => e.deliverable &&& signum_bit s ≠ 0

def setMask (mask : UInt32) : Entry :=
  { e with blocked := mask &&& ~~~unmaskable_bits }

def procMask (how set : UInt32) : Entry :=
  (CProc.Procs.new_mask e.blocked how set).elim e e.setMask

def send (s : UInt32) : Entry := { e with pending := e.pending ||| signum_bit s }
def clear (s : UInt32) : Entry := { e with pending := e.pending &&& ~~~signum_bit s }

/-- The signal that is next is taken from the pending ones. -/
def take : Entry := e.lowest.elim e e.clear
end Entry
/-- The calls that both kernels take. A handler that is installed directly has
32 bits; `SIGACTION` takes any word. -/
inductive Call where
  | create (pid ppid : UInt32)
  | fork (parent_pid child_pid : UInt32)
  | signal_set_handler (pid signum handler : UInt32)
  | sigaction (a0 a1 a2 : UInt64)
  | signal_set_mask (pid mask : UInt32)
  | sigprocmask (a0 a1 a2 : UInt64)
  | signal_send (pid signum : UInt32)
  | signal_next (pid : UInt32)

abbrev Table (n : Nat) := Fin n → Entry

namespace Table
variable {blocked : UInt32} {e : Entry} {n : Nat}
section
variable (t : Table n)
def family : Family.Table n := fun i => (t i).member
def find (pid : UInt32) : Option (Fin n) := t.family.find pid

def enter (pid ppid blocked : UInt32) : Table n :=
  if t.family.admits pid then
    t.family.free_slot.elim t fun i => set t i ⟨.new pid ppid, 0, blocked⟩
  else t

def change (pid : UInt32) (f : Entry → Entry) : Table n :=
  (t.find pid).elim t fun i => set t i (f (t i))

def step : Call → Table n
  | .create pid ppid => t.enter pid ppid 0
  | .fork parent_pid child_pid =>
    (t.find parent_pid).elim t fun i => t.enter child_pid parent_pid (t i).blocked
  -- handlers are not kept
  | .signal_set_handler _ _ _ | .sigaction _ _ _ => t
  | .signal_set_mask pid mask => t.change pid fun e => e.setMask mask
  | .sigprocmask a0 a1 a2 => t.change a0.toUInt32 fun e => e.procMask a1.toUInt32 a2.toUInt32
  | .signal_send pid signum =>
    if signum_valid signum then t.change pid fun e => e.send signum else t
  | .signal_next pid => t.change pid Entry.take

/-- The number that a delivery returns. -/
def delivered : Call → Option Int
  | .signal_next pid => some ((t.find pid).elim (-1) fun i => (t i).lowest.elim 0 fun s => s.toNat)
  | _ => none

variable (pid : UInt32)
def pending : Option UInt32 :=
  (t.find pid).map fun i => (t i).pending

def alive : Bool :=
  (t.find pid).elim false fun i => !(t i).member.exited
end
variable {t : Table n} {pid ppid : UInt32} {i : Fin n}
theorem enter_of_not_admits (h : t.family.admits pid = false) : t.enter pid ppid blocked = t := by
  unfold enter
  rw [h]
  rfl

theorem enter_of_admits (h : t.family.admits pid = true) (hslot : t.family.free_slot = some i) :
    t.enter pid ppid blocked = set t i ⟨.new pid ppid, 0, blocked⟩ := by
  unfold enter
  rw [if_pos h, hslot, Option.elim_some]

theorem step_fork_of_refused (h : t.family.admits pid = false ∨ t.find ppid = none) :
    t.step (.fork ppid pid) = t := by
  dsimp only [step]
  rcases h with hadmits | hnone
  · cases t.find ppid with
    | none => rfl
    | some parent => exact enter_of_not_admits hadmits
  rw [hnone]
  rfl

theorem step_fork {parent : Fin n} (h : t.family.admits pid = true)
    (hparent : t.find ppid = some parent) (hslot : t.family.free_slot = some i) :
    t.step (.fork ppid pid) = set t i ⟨.new pid ppid, 0, (t parent).blocked⟩ := by
  dsimp only [step]
  rw [hparent, Option.elim_some, enter_of_admits h hslot]

theorem change_id : t.change pid id = t := by
  unfold change
  cases t.find pid with
  | none => rfl
  | some i => exact set_eq_self

theorem find_set (hfind : t.find pid = some i) (hused : e.member.used = (t i).member.used)
    (hpid : e.member.pid = (t i).member.pid) : find (set t i e) pid = some i := by
  rw [← hfind]
  refine first_congr fun j => ?_
  by_cases hji : j = i
  · simp [family, hji, hused, hpid]
  simp [family, hji]

theorem alive_set (hfind : t.find pid = some i) (hused : e.member.used = (t i).member.used)
    (hpid : e.member.pid = (t i).member.pid) : alive (set t i e) pid = !e.member.exited := by
  unfold alive
  rw [find_set hfind hused hpid, Option.elim_some, set_self]
end Table
end QosKernel.Signals
/-! ### The C table -/
namespace QosKernel.CProc
open Signals (Entry)
namespace Process
def entry (p : Process) : Entry := ⟨p.member, p.sig_pending, p.sig_blocked⟩

/-- The default action does not end the process. -/
def KeepsRunning (s : UInt32) : Prop :=
  s = 17 ∨ s = 18 ∨ s = QOS_SIGSTOP ∨ s = 20 ∨ s = 21 ∨ s = 22

instance (s : UInt32) : Decidable (KeepsRunning s) :=
  inferInstanceAs (Decidable (_ ∨ _))

/-- A signal is not ignored, and its default action does not end a process that
is alive. -/
def PlainSignal (p : Process) (s : UInt32) : Prop :=
  p.sig_handlers s.toNat ≠ QOS_SIG_IGN ∧
    (p.sig_handlers s.toNat = QOS_SIG_DFL → p.exited = true ∨ KeepsRunning s)

instance (p : Process) (s : UInt32) : Decidable (p.PlainSignal s) :=
  inferInstanceAs (Decidable (_ ∧ (_ → _)))

/-- The signal that is next is a plain one. -/
def Plain (p : Process) : Prop := ∀ s ∈ p.entry.lowest, p.PlainSignal s

instance (p : Process) : Decidable p.Plain :=
  decidable_of_iff (p.entry.lowest.all (fun s => p.PlainSignal s) = true)
    (by simp [Plain, Option.all_eq_true])

variable {p : Process} {deliverable : UInt32} {l : List UInt32} {s : UInt32}
theorem signal_next_loop_append {rest : List UInt32}
    (hl : ∀ k ∈ l, deliverable &&& signum_bit k = 0) :
    p.signal_next_loop deliverable (l ++ rest) = p.signal_next_loop deliverable rest := by
  induction l with
  | nil => rfl
  | cons k l ih =>
  rw [List.cons_append, signal_next_loop, if_neg (not_not.mpr (hl k List.mem_cons_self))]
  exact ih fun j hj => hl j (List.mem_cons_of_mem _ hj)

theorem signal_next_loop_none (hfind : l.find? (fun s => deliverable &&& signum_bit s ≠ 0) = none) :
    p.signal_next_loop deliverable l = (0, p) := by
  rw [← l.append_nil, signal_next_loop_append (by simpa using hfind)]
  rfl

theorem signal_next_loop_skip
    (hfind : l.find? (fun s => deliverable &&& signum_bit s ≠ 0) = some s) :
    ∃ pre rest, l = pre ++ s :: rest ∧ deliverable &&& signum_bit s ≠ 0 ∧
      p.signal_next_loop deliverable l = p.signal_next_loop deliverable (s :: rest) := by
  obtain ⟨hbit, pre, rest, rfl, hpre⟩ := List.find?_eq_some_iff_append.mp hfind
  exact ⟨pre, rest, rfl, of_decide_eq_true hbit, signal_next_loop_append (by simpa using hpre)⟩

theorem signal_next_loop_some (hfind : l.find? (fun s => deliverable &&& signum_bit s ≠ 0) = some s)
    (hign : p.sig_handlers s.toNat ≠ QOS_SIG_IGN) :
    p.signal_next_loop deliverable l = (s, p.deliver s) := by
  obtain ⟨-, rest, -, hbit, hloop⟩ := signal_next_loop_skip (p := p) hfind
  rw [hloop, signal_next_loop, if_pos hbit, if_neg hign]
  unfold deliver
  split <;> rfl

theorem signal_next_loop_mem (p : Process) (deliverable : UInt32) (l : List UInt32) :
    (p.signal_next_loop deliverable l).1 ∈ 0 :: l := by
  induction l generalizing p with
  | nil => exact List.mem_singleton.mpr rfl
  | cons k rest ih =>
  have hrest : ∀ p : Process, (p.signal_next_loop deliverable rest).1 ∈ 0 :: k :: rest := by
    intro p
    rcases List.mem_cons.mp (ih p) with hzero | hmem
    · exact hzero ▸ List.mem_cons_self
    exact List.mem_cons_of_mem _ (List.mem_cons_of_mem _ hmem)
  have hk : k ∈ 0 :: k :: rest := List.mem_cons_of_mem _ List.mem_cons_self
  unfold signal_next_loop
  split
  · split
    · exact hrest _
    split <;> exact hk
  exact hrest p

theorem signal_next_loop_ignored (hnodup : (0 :: l).Nodup)
    (hfind : l.find? (fun s => deliverable &&& signum_bit s ≠ 0) = some s)
    (hign : p.sig_handlers s.toNat = QOS_SIG_IGN) : (p.signal_next_loop deliverable l).1 ≠ s := by
  obtain ⟨pre, rest, rfl, hbit, hloop⟩ := signal_next_loop_skip (p := p) hfind
  rw [hloop, signal_next_loop, if_pos hbit, if_pos hign]
  -- the loop goes on behind `s`, and `s` does not stand there again
  intro heq
  have hmem := (p.clear s).signal_next_loop_mem deliverable rest
  rw [heq] at hmem
  obtain ⟨hzero, hnodup⟩ := List.nodup_cons.mp hnodup
  rcases List.mem_cons.mp hmem with rfl | hmem
  · exact hzero (List.mem_append_right _ List.mem_cons_self)
  exact (List.nodup_cons.mp (List.nodup_append.mp hnodup).2.1).1 hmem

theorem signal_next_of_lowest_none (h : p.entry.lowest = none) : p.signal_next = (0, p) := by
  rw [signal_next_eq_loop]
  exact signal_next_loop_none h

theorem signal_next_of_lowest (h : p.entry.lowest = some s)
    (hign : p.sig_handlers s.toNat ≠ QOS_SIG_IGN) : p.signal_next = (s, p.deliver s) := by
  rw [signal_next_eq_loop]
  exact signal_next_loop_some h hign

theorem signal_next_of_ignored (h : p.entry.lowest = some s)
    (hign : p.sig_handlers s.toNat = QOS_SIG_IGN) : p.signal_next.1 ≠ s := by
  rw [signal_next_eq_loop]
  exact signal_next_loop_ignored (by decide +kernel) h hign

theorem signum_valid_of_lowest (h : p.entry.lowest = some s) : signum_valid s = true :=
  signum_valid_of_mem (List.mem_of_find?_eq_some h)

theorem entry_apply_default (hs : signum_valid s = true) :
    ((p.signal_apply_default s).getD p).entry =
      { p.entry with member.exited := p.exited || decide (¬KeepsRunning s) } := by
  unfold signal_apply_default KeepsRunning
  rw [hs]
  repeat' split
  all_goals simp_all [entry, member]

theorem entry_deliver (hs : signum_valid s = true) :
    (p.deliver s).entry = { p.entry.clear s with
      member.exited := p.exited ||
        decide (p.sig_handlers s.toNat = QOS_SIG_DFL ∧ ¬KeepsRunning s) } := by
  unfold deliver
  split
  next hdfl =>
    rw [entry_apply_default hs]
    simp [hdfl, entry, Entry.clear, clear, member]
  next hdfl => simp [hdfl, entry, Entry.clear, clear, member]

theorem signal_next_plain (h : p.Plain) :
    p.signal_next.1 = p.entry.lowest.getD 0 ∧ p.signal_next.2.entry = p.entry.take := by
  unfold Entry.take
  cases hlow : p.entry.lowest with
  | none =>
    rw [signal_next_of_lowest_none hlow]
    exact ⟨rfl, rfl⟩
  | some s =>
  obtain ⟨hign, hdfl⟩ := h s hlow
  rw [signal_next_of_lowest hlow hign]
  refine ⟨rfl, ?_⟩
  have hexited : (p.exited || decide (p.sig_handlers s.toNat = QOS_SIG_DFL ∧
      ¬KeepsRunning s)) = p.exited := by
    by_cases hend : p.sig_handlers s.toNat = QOS_SIG_DFL ∧ ¬KeepsRunning s
    · rcases hdfl hend.1 with hexited | hruns
      · rw [hexited, Bool.true_or]
      exact absurd hruns hend.2
    rw [decide_eq_false hend, Bool.or_false]
  dsimp only
  rw [entry_deliver (signum_valid_of_lowest hlow), hexited]
  rfl

theorem plain_of_signal_next (hnum : p.signal_next.1 = p.entry.lowest.getD 0)
    (hexited : p.signal_next.2.exited = p.exited) : p.Plain := by
  intro s hlow
  rw [Option.mem_def] at hlow
  rw [hlow] at hnum
  have hign : p.sig_handlers s.toNat ≠ QOS_SIG_IGN := fun hign =>
    signal_next_of_ignored hlow hign hnum
  refine ⟨hign, fun hdfl => ?_⟩
  have hentry := entry_deliver (p := p) (signum_valid_of_lowest hlow)
  rw [signal_next_of_lowest hlow hign] at hexited
  have hor : (p.deliver s).exited = (p.exited ||
      decide (p.sig_handlers s.toNat = QOS_SIG_DFL ∧ ¬KeepsRunning s)) :=
    congrArg (fun e : Entry => e.member.exited) hentry
  dsimp only at hexited
  by_contra hnot
  obtain ⟨halive, hends⟩ := not_or.mp hnot
  rw [hexited, Bool.eq_false_iff.mpr halive, Bool.false_or, eq_comm, decide_eq_false_iff_not] at hor
  exact hor ⟨hdfl, hends⟩
end Process
namespace Procs
variable {c : Call} {pid : UInt32} {f : Process → Process} {t : Procs}
def signals (t : Procs) : Signals.Table QOS_PROC_MAX := fun i => (t.procs i).entry

def signalCall : Signals.Call → Call
  | .create pid ppid => .create pid ppid
  | .fork parent_pid child_pid => .fork parent_pid child_pid
  | .signal_set_handler pid signum handler => .signal_set_handler pid signum handler.toUInt64
  | .sigaction a0 a1 a2 => .sigaction a0 a1 a2
  | .signal_set_mask pid mask => .signal_set_mask pid mask
  | .sigprocmask a0 a1 a2 => .sigprocmask a0 a1 a2
  | .signal_send pid signum => .signal_send pid signum
  | .signal_next pid => .signal_next pid

def delivered (t : Procs) : Signals.Call → Option Int
  | .signal_next pid => some (t.qos_proc_signal_next pid).1
  | _ => none

/-- A delivery is plain. -/
def Plain (t : Procs) : Signals.Call → Prop
  | .signal_next pid => ∀ i ∈ t.find_pid pid, (t.procs i).Plain
  | _ => True

instance (t : Procs) : (c : Signals.Call) → Decidable (t.Plain c)
  | .signal_next pid =>
    decidable_of_iff ((t.find_pid pid).all (fun i => (t.procs i).Plain) = true)
      (by simp [Plain, Option.all_eq_true])
  | .create _ _ | .fork _ _ | .signal_set_handler _ _ _ | .sigaction _ _ _
  | .signal_set_mask _ _ | .sigprocmask _ _ _ | .signal_send _ _ => inferInstanceAs (Decidable True)

theorem signals_set {i : Slot} {p : Process} {count : UInt32} :
    signals ⟨set t.procs i p, count⟩ = set t.signals i p.entry :=
  set_comp Process.entry

theorem signals_acts {g : Entry → Entry} (hc : c.acts = some (pid, f))
    (hf : ∀ i, t.find_pid pid = some i → (f (t.procs i)).entry = g (t.procs i).entry) :
    (t.step c).signals = t.signals.change pid g := by
  have hfind : t.signals.find pid = t.find_pid pid := rfl
  unfold Signals.Table.change
  rw [hfind]
  cases hi : t.find_pid pid with
  | none => rw [step_of_find_none hc hi]; rfl
  | some i =>
  rw [step_of_find hc hi, signals_set, hf i hi]
  rfl

theorem signals_acts_same (hc : c.acts = some (pid, f)) (hf : ∀ p, (f p).entry = p.entry) :
    (t.step c).signals = t.signals := by
  rw [signals_acts (g := id) hc fun i _ => hf (t.procs i), Signals.Table.change_id]

theorem entry_set_handler (p : Process) (signum : UInt32) (handler : UInt64) :
    ((p.signal_set_handler signum handler).getD p).entry = p.entry := by
  unfold Process.signal_set_handler
  repeat' split
  all_goals rfl

theorem signals_step {c : Signals.Call} (h : t.Plain c) :
    (t.step (signalCall c)).signals = t.signals.step c := by
  cases c with
  | create pid ppid =>
    show (t.qos_proc_create pid ppid).2.signals = t.signals.enter pid ppid 0
    obtain ⟨hadmits, heq⟩ | ⟨slot, hadmits, hslot, heq⟩ := t.create_ends pid ppid
    · rw [heq, Signals.Table.enter_of_not_admits (t := t.signals) hadmits]
    rw [heq, Signals.Table.enter_of_admits (t := t.signals) hadmits hslot]
    exact signals_set
  | fork parent_pid child_pid =>
    show (t.qos_proc_fork parent_pid child_pid).2.signals = _
    obtain ⟨hfails, heq⟩ | ⟨parent, slot, hadmits, hparent, hslot, heq⟩ :=
      t.fork_ends parent_pid child_pid
    · rw [heq, Signals.Table.step_fork_of_refused (t := t.signals) hfails]
    rw [heq, Signals.Table.step_fork (t := t.signals) hadmits hparent hslot]
    exact signals_set
  | signal_set_handler pid signum handler =>
    exact signals_acts_same (c := .signal_set_handler _ _ _) rfl fun p => entry_set_handler p _ _
  | sigaction a0 a1 a2 =>
    refine signals_acts_same (c := .sigaction _ _ _) rfl fun p => ?_
    split
    · exact entry_set_handler p _ _
    rfl
  | signal_set_mask pid mask =>
    exact signals_acts (c := .signal_set_mask _ _) (g := fun e => e.setMask mask) rfl fun i _ => rfl
  | sigprocmask a0 a1 a2 =>
    refine signals_acts (c := .sigprocmask _ _ _)
      (g := fun e => e.procMask a1.toUInt32 a2.toUInt32) rfl fun i _ => ?_
    show _ = (new_mask (t.procs i).sig_blocked a1.toUInt32 a2.toUInt32).elim _ _
    cases new_mask (t.procs i).sig_blocked a1.toUInt32 a2.toUInt32 <;> rfl
  | signal_send pid signum =>
    dsimp only [Signals.Table.step]
    cases hvalid : signum_valid signum with
    | true =>
      refine signals_acts (c := .signal_send _ _) (g := fun e => e.send signum) rfl fun i _ => ?_
      unfold Process.signal_send
      rw [hvalid]
      rfl
    | false =>
    refine signals_acts_same (c := .signal_send _ _) rfl fun p => ?_
    unfold Process.signal_send
    rw [hvalid]
    rfl
  | signal_next pid =>
  refine signals_acts (c := .signal_next _) rfl fun i hi => ?_
  exact (Process.signal_next_plain (h i hi)).2

theorem delivered_eq {c : Signals.Call} (h : t.Plain c) : t.delivered c = t.signals.delivered c := by
  cases c with
  | signal_next pid =>
    show some (t.qos_proc_signal_next pid).1 = some ((t.find_pid pid).elim _ _)
    cases hi : t.find_pid pid with
    | none => simp only [qos_proc_signal_next, hi, Option.elim_none]
    | some i =>
    rw [signal_next_eq hi, (Process.signal_next_plain (h i hi)).1]
    show _ = some ((t.procs i).entry.lowest.elim _ _)
    cases (t.procs i).entry.lowest <;> rfl
  | _ => rfl

variable (t : Procs) (pid : UInt32)
theorem pending_eq : t.qos_proc_signal_pending pid = t.signals.pending pid := by
  show (t.find_pid pid).bind _ = (t.find_pid pid).map _
  cases t.find_pid pid <;> rfl

theorem alive_eq : t.qos_proc_alive pid = t.signals.alive pid := by
  show _ = (t.find_pid pid).elim _ _
  unfold qos_proc_alive
  cases t.find_pid pid <;> rfl
end Procs
end QosKernel.CProc
/-! ### The Rust table -/
namespace QosKernel.RustProc
open Signals (Entry)
namespace Process
def entry (p : Process) : Entry := ⟨p.member, p.sig_pending, p.sig_blocked⟩

theorem signal_next_loop_eq (deliverable : UInt32) (l : List UInt32) (p : Process) :
    p.signal_next_loop deliverable l =
      (l.find? fun s => deliverable &&& proc_signal_bit s ≠ 0).elim (0, p)
        fun s => (s, { p with sig_pending := p.sig_pending &&& ~~~proc_signal_bit s }) := by
  induction l with
  | nil => rfl
  | cons k rest ih =>
  unfold signal_next_loop
  rw [List.find?_cons]
  by_cases hbit : deliverable &&& proc_signal_bit k ≠ 0
  · rw [if_pos hbit, decide_eq_true hbit]
    rfl
  rw [if_neg hbit, decide_eq_false hbit, ih]

theorem lowest_of_zero {p : Process} (h : p.deliverable = 0) : p.entry.lowest = none := by
  have hzero : p.entry.deliverable = 0 := h
  unfold Entry.lowest
  rw [hzero, List.find?_eq_none]
  intro s _
  simp

theorem signal_next_eq (p : Process) : p.signal_next =
    p.entry.lowest.elim (0, p)
      fun s => (s, { p with sig_pending := p.sig_pending &&& ~~~proc_signal_bit s }) := by
  unfold signal_next
  split
  next hpending =>
    have h : p.deliverable = 0 := by simp [deliverable, hpending]
    rw [lowest_of_zero h]
    rfl
  next =>
  split
  next h => rw [lowest_of_zero h]; rfl
  next => exact signal_next_loop_eq _ _ _
end Process
namespace ProcState
variable {pid : UInt32} {f : Process → Process} {s : ProcState}
section
variable (s : ProcState)
def signals : Signals.Table QOS_PROC_MAX := fun i => (s.procs i).entry

def signalStep : Signals.Call → ProcState
  | .create pid ppid => (s.proc_create pid ppid).2
  | .fork parent_pid child_pid => (s.proc_fork parent_pid child_pid).2
  | .signal_set_handler pid signum handler => (s.proc_signal_set_handler pid signum handler).2
  | .sigaction a0 a1 a2 => (s.sys_sigaction a0 a1 a2).2
  | .signal_set_mask pid mask => (s.proc_signal_set_mask pid mask).2
  | .sigprocmask a0 a1 a2 => (s.sys_sigprocmask a0 a1 a2).2
  | .signal_send pid signum => (s.proc_signal_send pid signum).2
  | .signal_next pid => (s.proc_signal_next pid).2

def delivered : Signals.Call → Option Int
  | .signal_next pid => some (s.proc_signal_next pid).1
  | _ => none
end
theorem signals_set {i : Slot} {p : Process} {count : UInt32} :
    signals ⟨set s.procs i p, count⟩ = set s.signals i p.entry :=
  set_comp Process.entry

theorem signals_update {g : Entry → Entry} (hf : ∀ p, (f p).entry = g p.entry) :
    (s.update pid f).2.signals = s.signals.change pid g := by
  show _ = (s.proc_find pid).elim _ _
  cases hi : s.proc_find pid with
  | none =>
    rw [update_of_find_none hi]
    rfl
  | some i =>
  rw [update_of_find hi, Option.elim_some, signals_set, hf]
  rfl

theorem signals_update_same (hf : ∀ p, (f p).entry = p.entry) :
    (s.update pid f).2.signals = s.signals := by
  rw [signals_update (g := id) hf, Signals.Table.change_id]

section
variable (s : ProcState)
theorem signals_set_handler (pid signum handler : UInt32) :
    (s.proc_signal_set_handler pid signum handler).2.signals = s.signals := by
  unfold proc_signal_set_handler
  split
  · rfl
  split
  · rfl
  exact signals_update_same fun p => rfl

theorem signals_sigaction (a0 a1 a2 : UInt64) :
    (s.sys_sigaction a0 a1 a2).2.signals = s.signals := by
  obtain heq | heq := s.sys_sigaction_state a0 a1 a2 <;> rw [heq]
  exact signals_update_same fun p => rfl

theorem signals_sigprocmask (a0 a1 a2 : UInt64) :
    (s.sys_sigprocmask a0 a1 a2).2.signals = s.signals.step (.sigprocmask a0 a1 a2) := by
  show _ = (s.proc_find a0.toUInt32).elim _ _
  unfold sys_sigprocmask proc_signal_mask
  cases hi : s.proc_find a0.toUInt32 with
  | none =>
    rw [query_of_find_none hi]
    rfl
  | some i =>
  rw [query_of_find hi]
  show _ = set s.signals i ((new_mask (s.procs i).sig_blocked a1.toUInt32 a2.toUInt32).elim _ _)
  dsimp only
  cases new_mask (s.procs i).sig_blocked a1.toUInt32 a2.toUInt32 with
  | none => exact set_eq_self.symm
  | some mask =>
  dsimp only
  unfold proc_signal_set_mask
  rw [update_of_find hi]
  exact signals_set

theorem signals_step (c : Signals.Call) : (s.signalStep c).signals = s.signals.step c := by
  cases c with
  | create pid ppid =>
    show (s.proc_create pid ppid).2.signals = s.signals.enter pid ppid 0
    obtain ⟨hadmits, heq⟩ | ⟨slot, hadmits, hslot, heq⟩ := s.proc_create_ends pid ppid
    · rw [heq, Signals.Table.enter_of_not_admits (t := s.signals) hadmits]
    rw [heq, Signals.Table.enter_of_admits (t := s.signals) hadmits hslot]
    exact signals_set
  | fork parent_pid child_pid =>
    show (s.proc_fork parent_pid child_pid).2.signals = _
    obtain ⟨hfails, heq⟩ | ⟨parent, slot, hadmits, hparent, hslot, heq⟩ :=
      s.proc_fork_ends parent_pid child_pid
    · rw [heq, Signals.Table.step_fork_of_refused (t := s.signals) hfails]
    rw [heq, Signals.Table.step_fork (t := s.signals) hadmits hparent hslot]
    exact signals_set
  | signal_set_handler pid signum handler => exact s.signals_set_handler pid signum handler
  | sigaction a0 a1 a2 => exact s.signals_sigaction a0 a1 a2
  | signal_set_mask pid mask => exact signals_update (g := fun e => e.setMask mask) fun p => rfl
  | sigprocmask a0 a1 a2 => exact s.signals_sigprocmask a0 a1 a2
  | signal_send pid signum =>
    show (s.proc_signal_send pid signum).2.signals = if proc_signal_signum_valid signum then _ else _
    unfold proc_signal_send
    cases proc_signal_signum_valid signum with
    | true =>
      simp only [Bool.not_true, Bool.false_eq_true, if_false, if_true]
      exact signals_update (g := fun e => e.send signum) fun p => rfl
    | false => rfl
  | signal_next pid =>
  show (s.proc_signal_next pid).2.signals = (s.proc_find pid).elim _ _
  unfold proc_signal_next
  cases s.proc_find pid with
  | none => rfl
  | some i =>
  dsimp only [Option.elim_some]
  rw [signals_set]
  congr 1
  rw [Process.signal_next_eq]
  show _ = (s.procs i).entry.take
  unfold Entry.take
  cases (s.procs i).entry.lowest <;> rfl

theorem delivered_eq (c : Signals.Call) : s.delivered c = s.signals.delivered c := by
  cases c with
  | signal_next pid =>
    show some (s.proc_signal_next pid).1 = some ((s.proc_find pid).elim _ _)
    unfold proc_signal_next
    cases s.proc_find pid with
    | none => rfl
    | some i =>
    dsimp only [Option.elim_some]
    rw [Process.signal_next_eq]
    show _ = some ((s.procs i).entry.lowest.elim _ _)
    cases (s.procs i).entry.lowest <;> rfl
  | _ => rfl

variable (pid : UInt32)
theorem pending_eq : s.proc_signal_pending pid = s.signals.pending pid := rfl

theorem alive_eq : s.proc_alive pid = s.signals.alive pid := by
  show _ = (s.proc_find pid).elim _ _
  unfold proc_alive
  cases s.proc_find pid <;> rfl
end
end ProcState
end QosKernel.RustProc
/-! ### The two kernels -/
namespace QosKernel.SignalPair
variable {call : Signals.Call}
structure Pair where
  c : CProc.Procs
  rust : RustProc.ProcState

def step (s : Pair) (call : Signals.Call) : Pair :=
  ⟨s.c.step (CProc.Procs.signalCall call), s.rust.signalStep call⟩

def system : System Pair Signals.Call :=
  .ofStep ⟨CProc.Procs.qos_proc_reset, RustProc.ProcState.proc_reset⟩ step

/-- Every process has the same pending signals, and is alive in both kernels or
in none. -/
def SameProcesses (s : Pair) : Prop :=
  ∀ pid, s.c.qos_proc_signal_pending pid = s.rust.proc_signal_pending pid ∧
    s.c.qos_proc_alive pid = s.rust.proc_alive pid

section
variable (s : Pair) (call : Signals.Call)
/-- The call delivers the same signal, and the processes are the same after it. -/
def Agree : Prop :=
  s.c.delivered call = s.rust.delivered call ∧ SameProcesses (step s call)

def Plain : Prop := s.c.Plain call
end
instance (s : Pair) (call : Signals.Call) : Decidable (Plain s call) :=
  inferInstanceAs (Decidable (s.c.Plain call))

def Matching (s : Pair) : Prop := s.c.signals = s.rust.signals

variable {s : Pair}
theorem Matching.sameProcesses (h : Matching s) : SameProcesses s := by
  intro pid
  rw [CProc.Procs.pending_eq, RustProc.ProcState.pending_eq, CProc.Procs.alive_eq,
    RustProc.ProcState.alive_eq]
  exact ⟨congrArg (fun t => Signals.Table.pending t pid) h,
    congrArg (fun t => Signals.Table.alive t pid) h⟩

theorem Matching.step (h : Matching s) (hplain : Plain s call) : Matching (step s call) := by
  show (s.c.step _).signals = (s.rust.signalStep call).signals
  rw [CProc.Procs.signals_step hplain, RustProc.ProcState.signals_step]
  exact congrArg (fun t => Signals.Table.step t call) h

theorem Matching.agree (h : Matching s) (hplain : Plain s call) : Agree s call := by
  refine ⟨?_, (h.step hplain).sameProcesses⟩
  rw [CProc.Procs.delivered_eq hplain, RustProc.ProcState.delivered_eq]
  exact congrArg (fun t => Signals.Table.delivered t call) h

theorem Matching.plain (h : Matching s) (hagree : Agree s call) : Plain s call := by
  cases call with
  | signal_next pid =>
    intro i hi
    have hfind : s.c.signals.find pid = some i := hi
    obtain ⟨hnum, hsame⟩ := hagree
    -- the Rust kernel is the abstract table
    have hnum : s.c.delivered (.signal_next pid) = s.c.signals.delivered (.signal_next pid) := by
      rw [hnum, RustProc.ProcState.delivered_eq]
      exact congrArg (fun t => Signals.Table.delivered t (.signal_next pid)) h.symm
    have halive : (s.c.step (.signal_next pid)).signals.alive pid =
        (s.c.signals.step (.signal_next pid)).alive pid := by
      rw [← CProc.Procs.alive_eq]
      refine (hsame pid).2.trans ?_
      rw [RustProc.ProcState.alive_eq]
      refine congrArg (fun t => Signals.Table.alive t pid) ?_
      refine (RustProc.ProcState.signals_step s.rust (.signal_next pid)).trans ?_
      exact congrArg (fun t => Signals.Table.step t (.signal_next pid)) h.symm
    refine CProc.Process.plain_of_signal_next ?_ ?_
    · dsimp only [CProc.Procs.delivered, Signals.Table.delivered] at hnum
      rw [CProc.Procs.signal_next_eq hi, hfind] at hnum
      dsimp only [Option.elim_some] at hnum
      rw [CProc.Procs.signals] at hnum
      refine UInt32.toNat_inj.mp (Int.ofNat.inj ?_)
      cases hlow : (s.c.procs i).entry.lowest <;> rw [hlow] at hnum
      all_goals exact Option.some.inj hnum
    have hsame := (s.c.procs i).signal_next_same
    have htake : (s.c.procs i).entry.take.member = (s.c.procs i).member := by
      unfold Signals.Entry.take
      cases (s.c.procs i).entry.lowest <;> rfl
    rw [CProc.Procs.step_of_find (c := .signal_next pid) rfl hi, CProc.Procs.signals_set,
      Signals.Table.alive_set hfind hsame.1 hsame.2.1] at halive
    dsimp only [Signals.Table.step, Signals.Table.change] at halive
    rw [hfind, Option.elim_some, Signals.Table.alive_set hfind] at halive
    · exact (Bool.not_inj halive).trans (congrArg Family.Member.exited htake)
    · exact congrArg Family.Member.used htake
    exact congrArg Family.Member.pid htake
  | _ => trivial

theorem matching_of_reach {tr : List Signals.Call} (hr : system.Reach Plain tr s) : Matching s := by
  refine hr.invariant Matching rfl fun s call s' h hplain hstep => ?_
  cases hstep
  exact h.step hplain
end QosKernel.SignalPair
namespace QosKernel
/-- In every run whose deliveries are plain, the kernels deliver the same
signals and keep the same processes; and a call that is not plain makes
them differ. -/
theorem signal_delivery_agrees (tr : List Signals.Call) (s : SignalPair.Pair)
    (hr : SignalPair.system.Reach SignalPair.Plain tr s) :
    SignalPair.SameProcesses s ∧ ∀ call, SignalPair.Agree s call ↔ SignalPair.Plain s call := by
  have h := SignalPair.matching_of_reach hr
  exact ⟨h.sameProcesses, fun call => ⟨h.plain, h.agree⟩⟩

/-- A child inherits a handler for signal 10, which is sent to it. -/
def handledInChild : List Signals.Call :=
  [.create 1 0, .signal_set_handler 1 10 4096, .fork 1 2, .signal_send 2 10, .signal_next 2]

theorem signal_delivery_agrees_handled : ∃ s,
    SignalPair.system.Reach SignalPair.Plain handledInChild s ∧ SignalPair.SameProcesses s :=
  System.exists_execIf (P := fun _ => True) (by decide +kernel) fun s hr _ =>
    (signal_delivery_agrees _ s hr).1

/-- The signal 15 is ignored and sent: C delivers nothing, Rust delivers it.
With its default action it ends the process in C only. -/
theorem signal_delivery_differs :
    (∃ s, SignalPair.system.Reach anyStep
        [.create 1 0, .signal_set_handler 1 15 1, .signal_send 1 15] s ∧
      s.c.delivered (.signal_next 1) = some 0 ∧ s.rust.delivered (.signal_next 1) = some 15) ∧
    ∃ s, SignalPair.system.Reach anyStep [.create 1 0, .signal_send 1 15, .signal_next 1] s ∧
      s.c.qos_proc_alive 1 = false ∧ s.rust.proc_alive 1 = true := by
  constructor
  all_goals exact ⟨_, System.reach_foldl _ _ _, by decide +kernel, by decide +kernel⟩
end QosKernel
