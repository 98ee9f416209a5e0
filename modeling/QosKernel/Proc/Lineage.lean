import QosKernel.Proc.Family

/-! # Runs of a process table, with the parents noted

A process table is any state whose view as a family changes as a family
does. The runs of such a table are watched from outside: the numbers of
the processes and of their parents, and the forks by processes that had
exited, are read off the tables before and after each call.
-/
open Framework
namespace QosKernel.Family
structure Kernel (σ : Type) (n : Nat) where
  init : σ
  step : σ → Call → σ
  family : σ → Table n
  family_init : family init = .empty
  family_step : ∀ s c, (family s).Ok → family (step s c) = (family s).step c

structure Lineage (σ : Type) (n : Nat) where
  state : σ
  births : Births n
  /-- The number of the parent of each process, by its number. -/
  parent : Nat → Option Nat
  /-- The processes that were forked by a process that had exited. -/
  late : List Nat

/-- The slot of the process that came into the table. -/
def Table.newcomer {n : Nat} (t t' : Table n) : Option (Fin n) :=
  first fun i => (t' i).used && !(t i).used

/-- A fork by a process that had exited. -/
def Table.forkedLate {n : Nat} (t t' : Table n) : Call → Bool
  | .fork parent_pid _ => (t.newcomer t').isSome && (t.find parent_pid).any fun p => (t p).exited
  | _ => false

namespace Kernel
variable {c : Call} {pid ppid : UInt32} {tr : List Call} {σ : Type} {n : Nat} (k : Kernel σ n)
/-- After any calls the table is the family that the calls make. -/
theorem family_run (calls : List Call) : (k.family (calls.foldl k.step k.init)).Ok ∧
    k.family (calls.foldl k.step k.init) = calls.foldl Table.step .empty := by
  refine List.foldl_rel (r := fun s t => (k.family s).Ok ∧ k.family s = t)
    ⟨k.family_init ▸ Table.ok_empty, k.family_init⟩ ?_
  rintro c - s _ ⟨hok, rfl⟩
  rw [k.family_step s c hok]
  exact ⟨hok.step c, rfl⟩

section
variable (l : Lineage σ n)
def before : Table n := k.family l.state
variable (c : Call)
def after : Table n := k.family (k.step l.state c)

def watch : Lineage σ n where
  state := k.step l.state c
  births := l.births.observe (fun i => (k.before l i).used) fun i => (k.after l c i).used
  parent := ((k.before l).newcomer (k.after l c)).elim l.parent fun i =>
    set l.parent l.births.born (((k.before l).find (k.after l c i).ppid).map l.births.birth)
  late := if (k.before l).forkedLate (k.after l c) c then l.late ++ [l.births.born] else l.late
end
def system : System (Lineage σ n) Call := .ofStep ⟨k.init, .init, fun _ => none, []⟩ k.watch

section
variable (l : Lineage σ n)
/-- Process `j` is the live parent of process `i`: it has the parent pid, and it
is the process that had this pid when `i` came in. -/
def OwnParent (i j : Fin n) : Prop :=
  (k.before l j).live = true ∧ (k.before l j).pid = (k.before l i).ppid ∧
    l.parent (l.births.birth i) = some (l.births.birth j)

/-- No exited child of process `i` waits to be reaped. -/
def ChildrenReaped (i : Fin n) : Prop :=
  ∀ j, (k.before l j).used = true → (k.before l j).exited = true →
    (k.before l j).ppid ≠ (k.before l i).pid

/-- No process forks after its exit. A process with a parent pid exits while
its own parent lives, and no process exits or is removed while an exited
child of it waits to be reaped. -/
def Orderly : Call → Prop
  | .create _ _ => True
  | .fork parent_pid child_pid => (k.before l).admits child_pid = true →
    ∀ p ∈ (k.before l).find parent_pid, (k.before l p).exited = false
  | .exit pid _ => ∀ i ∈ (k.before l).find pid, (k.before l i).exited = false →
    ((k.before l i).ppid = 0 ∨ ∃ j, j ≠ i ∧ k.OwnParent l i j) ∧ k.ChildrenReaped l i
  | .remove pid => ∀ i ∈ (k.before l).find pid, k.ChildrenReaped l i
  | .wait _ _ _ => True
end
instance (l : Lineage σ n) (c : Call) : Decidable (k.Orderly l c) := by
  cases c <;> dsimp only [Orderly, OwnParent, ChildrenReaped] <;> infer_instance

/-- Every exited process with a parent pid has its own parent still alive. -/
structure Inv (l : Lineage σ n) : Prop where
  ok : (k.before l).Ok
  births : l.births.Ok fun i => (k.before l i).used
  parents : ∀ i, (k.before l i).used = true → (k.before l i).exited = true →
    (k.before l i).ppid ≠ 0 → ∃ j, k.OwnParent l i j
  late : l.late = []

variable {k} {l : Lineage σ n}
theorem inv_init : k.Inv ⟨k.init, .init, fun _ => none, []⟩ := by
  have hfree : ∀ i, k.before ⟨k.init, .init, fun _ => none, []⟩ i = .free := by
    intro i
    unfold before
    rw [k.family_init]
    rfl
  constructor
  case ok =>
    unfold before
    rw [k.family_init]
    exact Table.ok_empty
  case births =>
    refine Births.init_ok fun i => ?_
    rw [hfree]
    rfl
  case parents =>
    intro i hi
    rw [hfree] at hi
    cases hi
  case late => rfl

theorem Inv.fewer (h : k.Inv l) {l' : Lineage σ n} (hbirths : l'.births = l.births)
    (hparent : l'.parent = l.parent) (hlate : l'.late = l.late) (hok : (k.before l').Ok)
    (hused : ∀ i, (k.before l' i).used = true →
      (k.before l i).used = true ∧ (k.before l' i).ppid = (k.before l i).ppid)
    (hparents : ∀ i, (k.before l' i).used = true → (k.before l' i).exited = true →
      (k.before l i).ppid ≠ 0 → ∃ j, k.OwnParent l i j ∧ k.before l' j = k.before l j) :
    k.Inv l' := by
  constructor
  case ok => exact hok
  case births =>
    rw [hbirths]
    exact h.births.fewer fun i hi => (hused i hi).1
  case parents =>
    intro i hi hexited hne
    obtain ⟨-, hppid⟩ := hused i hi
    rw [hppid] at hne
    obtain ⟨j, ⟨hlive, hpid, hnumber⟩, hj⟩ := hparents i hi hexited hne
    refine ⟨j, ?_, ?_, ?_⟩
    · rw [hj]
      exact hlive
    · rw [hj, hppid]
      exact hpid
    rw [hbirths, hparent]
    exact hnumber
  case late => rw [hlate, h.late]

theorem watch_of_fewer (h : ∀ i, (k.after l c i).used = true → (k.before l i).used = true) :
    (k.watch l c).births = l.births ∧ (k.watch l c).parent = l.parent ∧
      (k.watch l c).late = l.late := by
  -- no slot has come into use
  have hnone : (k.before l).newcomer (k.after l c) = none := by
    refine first_none.mpr fun i => ?_
    cases hi : (k.after l c i).used with
    | false => rfl
    | true =>
    rw [h i hi]
    rfl
  have hlate : (k.before l).forkedLate (k.after l c) c = false := by
    cases c with
    | fork parent_pid child_pid =>
      dsimp only [Table.forkedLate]
      rw [hnone]
      rfl
    | _ => rfl
  unfold watch
  refine ⟨Births.observe_eq_self h, ?_, ?_⟩
  · rw [hnone]
    rfl
  rw [hlate]
  rfl

theorem watch_of_new {i : Fin n} {m : Member} (hi : (k.before l i).used = false)
    (hm : m.used = true) (hafter : k.after l c = set (k.before l) i m) :
    (k.watch l c).births = ⟨l.births.born + 1, set l.births.birth i l.births.born⟩ ∧
      (k.watch l c).parent =
        set l.parent l.births.born (((k.before l).find m.ppid).map l.births.birth) := by
  have hself : k.after l c i = m := by rw [hafter, set_self]
  have hother : ∀ j, j ≠ i → k.after l c j = k.before l j := by
    intro j hji
    rw [hafter, set_ne hji]
  -- slot `i` is the only one that has come into use
  have hnew : (k.before l).newcomer (k.after l c) = some i := by
    refine first_eq_some ?_ fun j hj => ?_
    · rw [hself, hm, hi]
      rfl
    by_contra hji
    rw [hother j hji] at hj
    simp at hj
  constructor
  · refine Births.observe_new hi ?_ fun j hji => ?_
    · rw [hself]
      exact hm
    rw [hother j hji]
  unfold watch
  rw [hnew, Option.elim_some, hself]

theorem Inv.new (h : k.Inv l) {i : Fin n} (hadmits : (k.before l).admits pid = true)
    (hslot : (k.before l).free_slot = some i)
    (hafter : k.after l c = set (k.before l) i (.new pid ppid))
    (hlate : (k.watch l c).late = l.late) : k.Inv (k.watch l c) := by
  obtain ⟨hpid, hfind, -⟩ := Table.admits_iff.mp hadmits
  have hi := Table.free_slot_some hslot
  obtain ⟨hbirths, hparent⟩ := watch_of_new hi rfl hafter
  have hbefore : k.before (k.watch l c) = set (k.before l) i (.new pid ppid) := hafter
  have hother : ∀ j, j ≠ i →
      (set (k.before l) i (Member.new pid ppid) j).used = (k.before l j).used := by
    intro j hji
    rw [set_ne hji]
  constructor
  case ok =>
    rw [hbefore]
    exact h.ok.new hpid hfind
  case births =>
    rw [hbirths, hbefore]
    exact h.births.new hother
  case parents =>
    intro j hj hexited hne
    unfold OwnParent
    rw [hbefore] at hj hexited hne ⊢
    rw [hbirths, hparent]
    have hji : j ≠ i := by
      rintro rfl
      rw [set_self] at hexited
      cases hexited
    rw [set_ne hji] at hj hexited hne ⊢
    obtain ⟨q, hlive, hqpid, hnumber⟩ := h.parents j hj hexited hne
    have hqi : q ≠ i := by
      rintro rfl
      rw [(Table.live_iff.mp hlive).1] at hi
      cases hi
    refine ⟨q, by rw [set_ne hqi]; exact hlive, by rw [set_ne hqi]; exact hqpid, ?_⟩
    show set l.parent l.births.born (((k.before l).find ppid).map l.births.birth)
      (set l.births.birth i l.births.born j) = some (set l.births.birth i l.births.born q)
    rw [set_ne hji, set_ne hqi, set_ne (Nat.ne_of_lt (h.births.past j hj)), hnumber]
  case late => rw [hlate, h.late]

theorem not_late (hcall : c = .create pid ppid ∨ c = .fork ppid pid)
    (hadmits : (k.before l).admits pid = true) (hc : k.Orderly l c) :
    (k.watch l c).late = l.late := by
  have hnot : (k.before l).forkedLate (k.after l c) c = false := by
    rcases hcall with rfl | rfl
    · rfl
    dsimp only [Table.forkedLate]
    cases hfind : (k.before l).find ppid with
    | none => rw [Option.any_none, Bool.and_false]
    | some p => rw [Option.any_some, hc hadmits p hfind, Bool.and_false]
  unfold watch
  rw [hnot]
  rfl

theorem Inv.exit (h : k.Inv l) {i : Fin n} (hi : (k.before l i).used = true)
    (hafter : k.after l c = set (k.before l) i { k.before l i with exited := true })
    (hok : (k.before (k.watch l c)).Ok) (hc : (k.before l i).exited = false →
      ((k.before l i).ppid = 0 ∨ ∃ j, j ≠ i ∧ k.OwnParent l i j) ∧ k.ChildrenReaped l i) :
    k.Inv (k.watch l c) := by
  have hself : k.after l c i = { k.before l i with exited := true } := by rw [hafter, set_self]
  have hother : ∀ j, j ≠ i → k.after l c j = k.before l j := by
    intro j hji
    rw [hafter, set_ne hji]
  have hused : ∀ j, (k.after l c j).used = true →
      (k.before l j).used = true ∧ (k.after l c j).ppid = (k.before l j).ppid := by
    intro j hj
    by_cases hji : j = i
    · rw [hji] at hj ⊢
      rw [hself] at hj ⊢
      exact ⟨hi, rfl⟩
    rw [hother j hji] at hj ⊢
    exact ⟨hj, rfl⟩
  obtain ⟨hbirths, hparent, hlate⟩ := watch_of_fewer fun j hj => (hused j hj).1
  refine h.fewer hbirths hparent hlate hok hused fun m hm hexited hne => ?_
  by_cases hmi : m = i
  · subst hmi
    -- either it had exited before, or it exits now, under its own parent
    cases hbefore : (k.before l m).exited with
    | true =>
      obtain ⟨j, hj⟩ := h.parents m hi hbefore hne
      have hjm : j ≠ m := by
        rintro rfl
        rw [(Table.live_iff.mp hj.1).2] at hbefore
        cases hbefore
      exact ⟨j, hj, hother j hjm⟩
    | false =>
    obtain ⟨j, hjm, hj⟩ := (hc hbefore).1.resolve_left hne
    exact ⟨j, hj, hother j hjm⟩
  replace hexited : (k.after l c m).exited = true := hexited
  rw [hother m hmi] at hexited
  obtain ⟨j, hj⟩ := h.parents m (hused m hm).1 hexited hne
  have hji : j ≠ i := by
    rintro rfl
    exact (hc (Table.live_iff.mp hj.1).2).2 m (hused m hm).1 hexited hj.2.1.symm
  exact ⟨j, hj, hother j hji⟩

theorem Inv.leave (h : k.Inv l) {i : Fin n} (hafter : k.after l c = set (k.before l) i .free)
    (hok : (k.before (k.watch l c)).Ok) (hc : (k.before l i).exited = true ∨ k.ChildrenReaped l i) :
    k.Inv (k.watch l c) := by
  have hused : ∀ j, (k.after l c j).used = true → j ≠ i ∧ (k.before l j).used = true := by
    intro j hj
    rw [hafter] at hj
    exact Table.used_of_leave hj
  have hother : ∀ j, j ≠ i → k.after l c j = k.before l j := by
    intro j hji
    rw [hafter, set_ne hji]
  obtain ⟨hbirths, hparent, hlate⟩ := watch_of_fewer fun j hj => (hused j hj).2
  refine h.fewer hbirths hparent hlate hok (fun j hj => ⟨(hused j hj).2, ?_⟩)
    fun m hm hexited hne => ?_
  · exact congrArg Member.ppid (hother j (hused j hj).1)
  replace hexited : (k.after l c m).exited = true := hexited
  rw [hother m (hused m hm).1] at hexited
  obtain ⟨j, hj⟩ := h.parents m (hused m hm).2 hexited hne
  -- the parent is alive and has an exited child, so it is not the one that leaves
  have hji : j ≠ i := by
    rintro rfl
    rcases hc with hgone | hreaped
    · rw [(Table.live_iff.mp hj.1).2] at hgone
      cases hgone
    exact hreaped m (hused m hm).2 hexited hj.2.1.symm
  exact ⟨j, hj, hother j hji⟩

theorem Inv.watch (h : k.Inv l) (hc : k.Orderly l c) : k.Inv (k.watch l c) := by
  have hafter : k.after l c = (k.before l).step c := k.family_step l.state c h.ok
  have hok : (k.before (k.watch l c)).Ok := by
    show (k.after l c).Ok
    rw [hafter]
    exact h.ok.step c
  obtain heq | ⟨i, pid, ppid, hcall, hadmits, hslot, heq⟩ | ⟨i, pid, code, rfl, hfind, heq⟩ |
      ⟨i, hi, hgone, heq⟩ := (k.before l).step_cases c <;> rw [heq] at hafter
  · -- nothing changes
    obtain ⟨hbirths, hparent, hlate⟩ := watch_of_fewer fun i hi => (congrFun hafter i) ▸ hi
    have hbefore : k.before (k.watch l c) = k.before l := hafter
    refine h.fewer hbirths hparent hlate hok ?_ ?_ <;> rw [hbefore]
    · exact fun i hi => ⟨hi, rfl⟩
    intro i hi hexited hne
    obtain ⟨j, hj⟩ := h.parents i hi hexited hne
    exact ⟨j, hj, rfl⟩
  · exact h.new hadmits hslot hafter (not_late hcall hadmits hc)
  · exact h.exit (Table.find_some hfind).1 hafter hok (hc i hfind)
  refine h.leave hafter hok ?_
  rcases hgone with hexited | ⟨pid, rfl, hfind⟩
  · exact .inl hexited
  exact .inr (hc i hfind)

theorem inv_of_reach (hr : k.system.Reach k.Orderly tr l) : k.Inv l := by
  refine hr.invariant k.Inv inv_init ?_
  intro l c l' h hc hstep
  cases hstep
  exact h.watch hc

theorem ok_of_reach {cond : Lineage σ n → Call → Prop} (hr : k.system.Reach cond tr l) :
    (k.before l).Ok := by
  refine hr.invariant (fun l => (k.before l).Ok) ?_ ?_
  · show (k.family k.init).Ok
    rw [k.family_init]
    exact Table.ok_empty
  intro l c l' h _ hstep
  cases hstep
  have hafter : k.after l c = (k.before l).step c := k.family_step l.state c h
  show (k.after l c).Ok
  rw [hafter]
  exact h.step c

/-! ### Wait and parenthood -/
variable (k) in
def waits (s : σ) (parent_pid : UInt32) (args : List (Int32 × UInt32)) : σ :=
  args.foldl (fun s arg => k.step s (.wait parent_pid arg.1 arg.2)) s

variable (k) in
def Reapable (s : σ) (i : Fin n) : Prop :=
  ∃ q, (k.family s q).live = true ∧
    ∃ args, (k.family (k.waits s (k.family s q).pid args) i).used = false

theorem family_waits {s : σ} (h : (k.family s).Ok) (parent_pid : UInt32)
    (args : List (Int32 × UInt32)) :
    k.family (k.waits s parent_pid args) = (k.family s).waits parent_pid args := by
  induction args generalizing s with
  | nil => rfl
  | cons arg rest ih =>
  -- one wait after the other; pids stay distinct
  have hstep := k.family_step s (.wait parent_pid arg.1 arg.2) h
  have hok : (k.family (k.step s (.wait parent_pid arg.1 arg.2))).Ok := by
    rw [hstep]
    exact h.step _
  have hrest := ih hok
  rw [hstep] at hrest
  exact hrest

theorem reapable_iff {s : σ} (h : (k.family s).Ok) (i : Fin n) :
    k.Reapable s i ↔ (k.family s).Reapable i := by
  unfold Reapable Table.Reapable
  simp only [family_waits h]

variable (k) in
/-- A wait reaps only exited children of the caller itself; nobody has forked
after its exit; and every exited process with a parent pid can be reaped by
a live process. -/
structure Parenthood (l : Lineage σ n) : Prop where
  own_child : ∀ parent_pid pid options i, (k.before l i).used = true →
    (k.after l (.wait parent_pid pid options) i).used = false →
    (k.before l i).exited = true ∧ ∃ p, (k.before l).find parent_pid = some p ∧
      l.parent (l.births.birth i) = some (l.births.birth p)
  no_late_fork : l.late = []
  reapable : ∀ i, (k.before l i).used = true → (k.before l i).exited = true →
    (k.before l i).ppid ≠ 0 → k.Reapable l.state i

theorem not_reapable {cond : Lineage σ n → Call → Prop} (hr : k.system.Reach cond tr l) {i : Fin n}
    (hi : (k.before l i).used = true) (hexited : (k.before l i).exited = true)
    (hnone : ¬∃ q, (k.before l q).live = true ∧ (k.before l q).pid = (k.before l i).ppid) :
    ¬k.Reapable l.state i := by
  have hok : (k.family l.state).Ok := ok_of_reach hr
  intro h
  exact hnone ((hok.reapable_iff hi hexited).mp ((reapable_iff hok i).mp h))

theorem Inv.parenthood (h : k.Inv l) : k.Parenthood l := by
  constructor
  case own_child =>
    intro parent_pid pid options i hi hgone
    have hafter : k.after l (.wait parent_pid pid options) =
      (k.before l).step (.wait parent_pid pid options) := k.family_step l.state _ h.ok
    rw [hafter] at hgone
    obtain ⟨hexited, hppid, p, hp⟩ := Table.wait_reaps hi hgone
    obtain ⟨hpused, hppid'⟩ := Table.find_some hp
    -- no process has pid 0, so the caller is not found under it
    have hne : (k.before l i).ppid ≠ 0 := by
      rw [hppid, ← hppid']
      exact h.ok.nonzero p hpused
    -- the parent of the child is the only process with this pid
    obtain ⟨j, hj, hjpid, hnumber⟩ := h.parents i hi hexited hne
    obtain rfl := h.ok.distinct j p (Table.live_iff.mp hj).1 hpused
      (hjpid.trans (hppid.trans hppid'.symm))
    exact ⟨hexited, j, hp, hnumber⟩
  case no_late_fork => exact h.late
  case reapable =>
    intro i hi hexited hne
    obtain ⟨j, hj, hjpid, -⟩ := h.parents i hi hexited hne
    exact (reapable_iff h.ok i).mpr ((h.ok.reapable_iff hi hexited).mpr ⟨j, hj, hjpid⟩)
end Kernel
end QosKernel.Family
