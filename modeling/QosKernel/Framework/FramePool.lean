import QosKernel.Framework.System
import Mathlib.Data.List.Nodup

/-! # First-fit frame pools

A pool is a list of frames, each with an address and a flag that says
whether it is in use. `alloc` takes the first frame not in use; `free`
clears the flag of the first frame with a given address; `reserve` marks
every frame whose address meets a predicate. Nothing requires the
addresses of a pool to be distinct.

Two questions about whole runs of allocations and frees are answered for
an arbitrary start pool:

* `noDoubleAlloc_iff`: no address is handed out while it is held, in any
  run, exactly when the addresses that are free at the start are distinct.
* `allocs_in_iff`: runs that never free an address reserved at the start
  hand out exactly the addresses that are free at the start.
-/
namespace Framework
structure Frame (α : Type u) where
  addr : α
  used : Bool
  deriving DecidableEq, Repr

namespace FramePool
variable {u : Bool} {α : Type u} {fs fs' pre post : List (Frame α)} {a : α}
/-! ### Operations -/
/-- First fit: the address of the first frame not in use, and the pool with
that frame in use. -/
def alloc : List (Frame α) → Option (α × List (Frame α))
  | [] => none
  | f :: fs =>
    if f.used then (alloc fs).map fun r => (r.1, f :: r.2)
    else some (f.addr, { f with used := true } :: fs)

/-- Clears the flag of the first frame at address `a`; fails if there is none
or if it is not in use. -/
def free [DecidableEq α] (a : α) : List (Frame α) → Option (List (Frame α))
  | [] => none
  | f :: fs =>
    if f.addr = a then
      if f.used then some ({ f with used := false } :: fs) else none
    else (free a fs).map (f :: ·)

/-- Marks every frame whose address meets `p`. -/
def reserve (p : α → Bool) (fs : List (Frame α)) : List (Frame α) :=
  fs.map fun f => { f with used := f.used || p f.addr }

/-- The addresses of the frames not in use, in pool order. -/
def freeAddrs (fs : List (Frame α)) : List α :=
  (fs.filter fun f => !f.used).map Frame.addr

/-- The flag of the first frame at address `a`. -/
def usedAt [DecidableEq α] (a : α) (fs : List (Frame α)) : Option Bool :=
  (fs.find? fun f => f.addr = a).map Frame.used

@[simp] theorem freeAddrs_cons (f : Frame α) (fs : List (Frame α)) :
    freeAddrs (f :: fs) = if f.used then freeAddrs fs else f.addr :: freeAddrs fs := by
  cases h : f.used <;> simp [freeAddrs, h]

@[simp] theorem freeAddrs_append (fs gs : List (Frame α)) :
    freeAddrs (fs ++ gs) = freeAddrs fs ++ freeAddrs gs := by
  simp [freeAddrs]

theorem mem_freeAddrs : a ∈ freeAddrs fs ↔ ∃ f ∈ fs, f.used = false ∧ f.addr = a := by
  simp [freeAddrs, and_assoc]

theorem freeAddrs_eq_nil (h : ∀ f ∈ fs, f.used = true) : freeAddrs fs = [] := by
  simp only [freeAddrs, List.map_eq_nil_iff, List.filter_eq_nil_iff]
  intro f hf
  simp [h f hf]

/-! ### What one operation does

Each operation changes the flag of one frame: the pool is split there, and
every later fact is read off the split. -/
theorem alloc_split : ∀ {fs fs' : List (Frame α)} {a : α}, alloc fs = some (a, fs') →
    ∃ pre post, fs = pre ++ ⟨a, false⟩ :: post ∧ fs' = pre ++ ⟨a, true⟩ :: post ∧
      ∀ f ∈ pre, f.used = true := by
  intro fs
  induction fs with
  | nil => intro fs' a h; simp [alloc] at h
  | cons f fs ih =>
  intro fs' a h
  obtain ⟨b, u⟩ := f
  cases u with
  | true =>
    simp only [alloc, if_true, Option.map_eq_some_iff, Prod.mk.injEq] at h
    obtain ⟨⟨c, gs⟩, hc, rfl, rfl⟩ := h
    obtain ⟨pre, post, rfl, rfl, hpre⟩ := ih hc
    exact ⟨⟨b, true⟩ :: pre, post, rfl, rfl, by simpa using hpre⟩
  | false =>
  simp only [alloc, Bool.false_eq_true, if_false, Option.some.injEq, Prod.mk.injEq] at h
  obtain ⟨rfl, rfl⟩ := h
  exact ⟨[], fs, rfl, rfl, by simp⟩

theorem alloc_eq_none : alloc fs = none ↔ freeAddrs fs = [] := by
  induction fs with
  | nil => simp [alloc, freeAddrs]
  | cons f fs ih => cases hu : f.used <;> simp [alloc, hu, ih]

/-- `free a` clears the flag of the first frame at `a`, which was in use. -/
theorem free_split [DecidableEq α] : ∀ {fs fs' : List (Frame α)}, free a fs = some fs' →
    ∃ pre post, fs = pre ++ ⟨a, true⟩ :: post ∧ fs' = pre ++ ⟨a, false⟩ :: post ∧
      ∀ f ∈ pre, f.addr ≠ a := by
  intro fs
  induction fs with
  | nil => intro fs' h; simp [free] at h
  | cons f fs ih =>
  intro fs' h
  obtain ⟨b, u⟩ := f
  by_cases hb : b = a
  · subst hb
    cases u with
    | true =>
      simp only [free, if_true, Option.some.injEq] at h
      exact ⟨[], fs, rfl, h.symm, by simp⟩
    | false => simp [free] at h
  simp only [free, hb, if_false, Option.map_eq_some_iff] at h
  obtain ⟨gs, hg, rfl⟩ := h
  obtain ⟨pre, post, rfl, rfl, hpre⟩ := ih hg
  exact ⟨⟨b, u⟩ :: pre, post, rfl, rfl, by simpa [hb] using hpre⟩

theorem alloc_freeAddrs (h : alloc fs = some (a, fs')) : freeAddrs fs = a :: freeAddrs fs' := by
  obtain ⟨pre, post, rfl, rfl, hpre⟩ := alloc_split h
  simp [freeAddrs_eq_nil hpre]

theorem free_freeAddrs_length [DecidableEq α]
    (h : free a fs = some fs') : (freeAddrs fs').length = (freeAddrs fs).length + 1 := by
  obtain ⟨pre, post, rfl, rfl, -⟩ := free_split h
  simp
  omega

theorem freeAddrs_length_le (fs : List (Frame α)) : (freeAddrs fs).length ≤ fs.length := by
  rw [freeAddrs, List.length_map]
  exact List.length_filter_le _ _

theorem usedAt_split [DecidableEq α]
    (hpre : ∀ f ∈ pre, f.addr ≠ a) : usedAt a (pre ++ ⟨a, u⟩ :: post) = some u := by
  have hnone : pre.find? (fun f => f.addr = a) = none := by simpa using hpre
  simp [usedAt, List.find?_append, hnone]

/-- The flag at another address does not see the frame that changes. -/
theorem usedAt_split_ne [DecidableEq α] {b : α} {v : Bool}
    (hb : a ≠ b) : usedAt b (pre ++ ⟨a, u⟩ :: post) = usedAt b (pre ++ ⟨a, v⟩ :: post) := by
  simp [usedAt, List.find?_append, hb]

/-! ### Runs of allocations and frees -/
/-- A pool together with the addresses its users hold: handed out by an
allocation and not freed since. -/
structure Holding (α : Type u) where
  frames : List (Frame α)
  held : List α

inductive Op (α : Type u) where
  | alloc
  | free (a : α)

def Holding.step [DecidableEq α] (s : Holding α) : Op α → Holding α
  | .alloc =>
    match alloc s.frames with
    | some (a, fs) => ⟨fs, a :: s.held⟩
    | none => s
  | .free a =>
    match free a s.frames with
    | some fs => ⟨fs, s.held.erase a⟩
    | none => s

/-- The system of users of the pool `fs`, of which nobody holds a frame yet. -/
def pool [DecidableEq α] (fs : List (Frame α)) : System (Holding α) (Op α) where
  init := ⟨fs, []⟩
  step s op := some (s.step op)

/-- No run hands out an address that is held. -/
def NoDoubleAlloc [DecidableEq α] (fs : List (Frame α)) : Prop :=
  ∀ tr s, (pool fs).Reach anyStep tr s → ∀ a fs', alloc s.frames = some (a, fs') → a ∉ s.held

/-! ### Handing out everything -/
section handout
variable [DecidableEq α] {C : Holding α → Op α → Prop}
omit [DecidableEq α] in
theorem alloc_of_freeAddrs {as : List α}
    (h : freeAddrs fs = a :: as) : ∃ fs', alloc fs = some (a, fs') ∧ freeAddrs fs' = as := by
  cases hal : alloc fs with
  | none => simp [alloc_eq_none.mp hal] at h
  | some r =>
  obtain ⟨b, fs'⟩ := r
  have hb := alloc_freeAddrs hal
  rw [h, List.cons.injEq] at hb
  exact ⟨fs', by rw [hb.1], hb.2.symm⟩

/-- After `k` allocations in a row the first `k` free addresses are held, and
the others are still free. -/
theorem reach_allocs (hc : ∀ s, C s .alloc) (fs : List (Frame α)) : ∀ k, k ≤ (freeAddrs fs).length →
    ∃ s, (pool fs).Reach C (List.replicate k .alloc) s ∧
      s.held.reverse = (freeAddrs fs).take k ∧ freeAddrs s.frames = (freeAddrs fs).drop k := by
  intro k
  induction k with
  | zero => intro _; exact ⟨⟨fs, []⟩, .init, by simp, by simp⟩
  | succ k ih =>
  intro hk
  obtain ⟨s, hr, hheld, hfree⟩ := ih (by omega)
  rw [List.drop_eq_getElem_cons (by omega)] at hfree
  obtain ⟨fs', hal, hfs'⟩ := alloc_of_freeAddrs hfree
  refine ⟨⟨fs', (freeAddrs fs)[k] :: s.held⟩, ?_, ?_, hfs'⟩
  · rw [List.replicate_succ']
    exact .step hr (hc s) (by simp [pool, Holding.step, hal])
  rw [List.reverse_cons, hheld, List.take_append_getElem]

/-- Every address that is free at the start is handed out in some run. -/
theorem exists_alloc (hc : ∀ s, C s .alloc) (ha : a ∈ freeAddrs fs) :
    ∃ tr s fs', (pool fs).Reach C tr s ∧ alloc s.frames = some (a, fs') := by
  obtain ⟨k, hk, rfl⟩ := List.getElem_of_mem ha
  obtain ⟨s, hr, -, hfree⟩ := reach_allocs hc fs k (by omega)
  rw [List.drop_eq_getElem_cons hk] at hfree
  obtain ⟨fs', hal, -⟩ := alloc_of_freeAddrs hfree
  exact ⟨_, s, fs', hr, hal⟩

/-- A repeated free address is handed out twice by allocating on and on. -/
theorem NoDoubleAlloc.nodup (h : NoDoubleAlloc fs) : (freeAddrs fs).Nodup := by
  rw [List.Nodup, List.pairwise_iff_getElem]
  intro i j hi hj hij heq
  obtain ⟨s, hr, hheld, hfree⟩ := reach_allocs (C := anyStep) (fun _ => trivial) fs j (by omega)
  rw [List.drop_eq_getElem_cons hj] at hfree
  obtain ⟨fs', hal, -⟩ := alloc_of_freeAddrs hfree
  apply h _ s hr _ fs' hal
  rw [← List.mem_reverse, hheld, ← heq]
  exact List.mem_take_iff_getElem.mpr ⟨i, by omega, rfl⟩
end handout
/-! ### No double allocation -/
section double
variable [DecidableEq α]
/-- Of several frames at one address only the first is ever free, and an
address that is held has its first frame in use. -/
structure Exclusive (s : Holding α) : Prop where
  dup_used : s.frames.Pairwise fun f g => f.addr = g.addr → g.used = true
  held_used : ∀ a ∈ s.held, usedAt a s.frames = some true
  held_nodup : s.held.Nodup

omit [DecidableEq α] in
/-- A free frame of an exclusive pool is the first one at its address. -/
theorem Exclusive.first
    (h : (pre ++ ⟨a, false⟩ :: post).Pairwise
      fun f g : Frame α => f.addr = g.addr → g.used = true) : ∀ f ∈ pre, f.addr ≠ a := by
  intro f hf heq
  have := (List.pairwise_append.mp h).2.2 f hf ⟨a, false⟩ (by simp) heq
  simp at this

theorem Exclusive.alloc_not_held {s : Holding α} (hs : Exclusive s)
    (h : alloc s.frames = some (a, fs')) : a ∉ s.held := by
  intro ha
  obtain ⟨pre, post, hfs, -, -⟩ := alloc_split h
  have hdup := hs.dup_used
  have hused := hs.held_used a ha
  rw [hfs] at hdup hused
  rw [usedAt_split (Exclusive.first hdup)] at hused
  simp at hused

theorem Exclusive.step {s : Holding α} (hs : Exclusive s) (op : Op α) : Exclusive (s.step op) := by
  cases op with
  | alloc =>
    cases hal : alloc s.frames with
    | none => simpa [Holding.step, hal] using hs
    | some r =>
    obtain ⟨a, fs'⟩ := r
    have hna := hs.alloc_not_held hal
    obtain ⟨pre, post, hfs, rfl, -⟩ := alloc_split hal
    obtain ⟨hdup, hused, hnodup⟩ := hs
    rw [hfs] at hdup hused
    have hpre := Exclusive.first hdup
    simp only [Holding.step, hal]
    refine ⟨?_, ?_, List.nodup_cons.mpr ⟨hna, hnodup⟩⟩
    · simp only [List.pairwise_append, List.pairwise_cons, List.mem_cons] at hdup ⊢
      refine ⟨hdup.1, hdup.2.1, ?_⟩
      rintro f hf g (rfl | hg) heq
      · rfl
      exact hdup.2.2 f hf g (.inr hg) heq
    intro b hb
    by_cases hab : a = b
    · rw [← hab]; exact usedAt_split hpre
    rcases List.mem_cons.mp hb with rfl | hb
    · exact absurd rfl hab
    rw [usedAt_split_ne hab]; exact hused b hb
  | free a =>
  cases hfr : free a s.frames with
  | none => simpa [Holding.step, hfr] using hs
  | some fs' =>
  obtain ⟨pre, post, hfs, rfl, hpre⟩ := free_split hfr
  have hnodup := hs.held_nodup
  obtain ⟨hdup, hused, -⟩ := hs
  rw [hfs] at hdup hused
  simp only [Holding.step, hfr]
  refine ⟨?_, ?_, hnodup.erase a⟩
  · -- the frame that becomes free is the first at its address
    simp only [List.pairwise_append, List.pairwise_cons, List.mem_cons] at hdup ⊢
    refine ⟨hdup.1, hdup.2.1, ?_⟩
    rintro f hf g (rfl | hg) heq
    · exact absurd heq (hpre f hf)
    exact hdup.2.2 f hf g (.inr hg) heq
  intro b hb
  have hb' := (hnodup.mem_erase_iff).mp hb
  rw [usedAt_split_ne (Ne.symm hb'.1)]
  exact hused b hb'.2

/-- In a pool whose flags depend on the address only, no run hands out an
address twice exactly when the free addresses are distinct. -/
theorem noDoubleAlloc_iff (hflag : ∀ f ∈ fs, ∀ g ∈ fs, f.addr = g.addr → f.used = g.used) :
    NoDoubleAlloc fs ↔ (freeAddrs fs).Nodup := by
  refine ⟨NoDoubleAlloc.nodup, fun hnd tr s hr a fs' hal => ?_⟩
  suffices hex : Exclusive s from hex.alloc_not_held hal
  refine hr.invariant Exclusive ?_ ?_
  · refine ⟨?_, by simp [pool], by simp [pool]⟩
    show fs.Pairwise _
    clear hr hal
    induction fs with
    | nil => exact List.Pairwise.nil
    | cons f fs ih =>
    refine List.pairwise_cons.mpr ⟨fun g hg heq => ?_, ih ?_ ?_⟩
    · by_contra hu
      have hgu : g.used = false := by simpa using hu
      have hfu : f.used = false := (hflag f (by simp) g (by simp [hg]) heq).trans hgu
      simp only [freeAddrs_cons, hfu, Bool.false_eq_true, if_false, List.nodup_cons] at hnd
      exact hnd.1 (mem_freeAddrs.mpr ⟨g, hg, hgu, heq.symm⟩)
    · exact fun f hf g hg => hflag f (by simp [hf]) g (by simp [hg])
    cases hfu : f.used <;> simp [hfu] at hnd
    · exact hnd.2
    exact hnd
  intro s op s' hs _ hstep
  simp only [pool, Option.some.injEq] at hstep
  exact hstep ▸ hs.step op
end double
/-! ### Runs that leave the reserved addresses alone -/
section keep
variable [DecidableEq α]
/-- Requests that do not free an address in `R`. -/
def Keeps (R : α → Prop) : Holding α → Op α → Prop
  | _, .alloc => True
  | _, .free a => ¬R a

/-- Runs that free no address in `R` have free, at any time, only frames whose
address was free at the start or is outside `R`. -/
theorem reach_free {R : α → Prop} (hR : ∀ f ∈ fs, f.used = true → R f.addr) :
    ∀ {tr s}, (pool fs).Reach (Keeps R) tr s →
    s.frames.map Frame.addr = fs.map Frame.addr ∧ ∀ a ∈ freeAddrs s.frames, a ∈ freeAddrs fs := by
  intro tr s hr
  refine hr.invariant (fun s => s.frames.map Frame.addr = fs.map Frame.addr ∧
      ∀ a ∈ freeAddrs s.frames, a ∈ freeAddrs fs) ?_ ?_
  · exact ⟨rfl, fun a ha => ha⟩
  rintro s op s' ⟨haddr, hfree⟩ hc hstep
  simp only [pool, Option.some.injEq] at hstep
  subst hstep
  cases op with
  | alloc =>
    cases hal : alloc s.frames with
    | none => simpa [Holding.step, hal] using ⟨haddr, hfree⟩
    | some r =>
    obtain ⟨b, fs'⟩ := r
    have hsub := alloc_freeAddrs hal
    obtain ⟨pre, post, hfs, rfl, -⟩ := alloc_split hal
    simp only [Holding.step, hal]
    refine ⟨by rw [← haddr, hfs]; simp, fun a ha => hfree a ?_⟩
    rw [hsub]
    exact List.mem_cons_of_mem _ ha
  | free b =>
  cases hfr : free b s.frames with
  | none => simpa [Holding.step, hfr] using ⟨haddr, hfree⟩
  | some fs' =>
  obtain ⟨pre, post, hfs, rfl, -⟩ := free_split hfr
  simp only [Holding.step, hfr]
  refine ⟨by rw [← haddr, hfs]; simp, fun a ha => ?_⟩
  -- the freed address belongs to the start pool and is not in `R` there
  have hb : b ∈ freeAddrs fs := by
    have : b ∈ fs.map Frame.addr := by rw [← haddr, hfs]; simp
    obtain ⟨f, hf, rfl⟩ := List.mem_map.mp this
    have hfu : f.used = false := by
      cases hu : f.used with
      | false => rfl
      | true => exact absurd (hR f hf hu) hc
    exact mem_freeAddrs.mpr ⟨f, hf, hfu, rfl⟩
  by_cases hab : a = b
  · exact hab ▸ hb
  apply hfree
  rw [hfs]
  simpa [hab] using ha

/-- Runs that free no reserved address hand out exactly the addresses that are
free at the start. -/
theorem allocs_in_iff {R P : α → Prop} (hR : ∀ f ∈ fs, f.used = true → R f.addr) :
    (∀ tr s, (pool fs).Reach (Keeps R) tr s →
      ∀ a fs', alloc s.frames = some (a, fs') → P a) ↔ ∀ a ∈ freeAddrs fs, P a := by
  constructor
  · intro h a ha
    obtain ⟨tr, s, fs', hr, hal⟩ := exists_alloc (C := Keeps R) (fun _ => trivial) ha
    exact h tr s hr a fs' hal
  intro h tr s hr a fs' hal
  apply h a
  apply (reach_free hR hr).2 a
  rw [alloc_freeAddrs hal]
  exact List.mem_cons_self
end keep
end FramePool
end Framework
