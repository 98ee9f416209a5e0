import QosKernel.Syscall.Endpoints

/-! # Pipes and what callers know of them

A `PipeLog` is what callers know of pipes. Pipes are numbered in the order
in which they are made, a descriptor gets the number of its pipe when it is
made or copied, and the bytes written and read are listed for each number.
`PipesAgree` ties the log to the table: a number that is in use has a pipe
of its own, and what was written to it is what was read and what is
buffered.
-/
open Framework
namespace QosKernel
structure PipeLog where
  /-- How many pipes were made. -/
  made : Nat
  /-- The number of the pipe that a descriptor is an end of. -/
  pipe : FdNum → Option Nat
  wrote : Nat → List UInt8
  got : Nat → List UInt8

namespace PipeLog
def empty : PipeLog := ⟨0, fun _ => none, fun _ => [], fun _ => []⟩

def record (l : PipeLog) : Event → PipeLog
  | .quiet | .connected .. => l
  | .opened i | .closed i | .accepted _ i _ _ => { l with pipe := set l.pipe i none }
  | .copied i j => { l with pipe := set l.pipe j (l.pipe i) }
  | .piped r w =>
    { l with
      made := l.made + 1
      pipe := set (set l.pipe r (some l.made)) w (some l.made) }
  | .got i bytes =>
    match l.pipe i with
    | none => l
    | some n => { l with got := set l.got n (l.got n ++ bytes) }
  | .wrote i bytes =>
    match l.pipe i with
    | none => l
    | some n => { l with wrote := set l.wrote n (l.wrote n ++ bytes) }

def Live (l : PipeLog) (n : Nat) : Prop := ∃ i, l.pipe i = some n

/-- The bytes of a pipe are written, read and buffered in order. -/
structure Flow (l : PipeLog) (n : Nat) (buf : List UInt8) : Prop where
  flow : l.wrote n = l.got n ++ buf
  bound : buf.length ≤ QOS_PIPE_CAP
end PipeLog
/-- `home` tells where the pipes with an end are. -/
structure PipesAgree (v : Endpoints) (l : PipeLog) (home : Nat → Nat) : Prop where
  ends : ∀ i, (v.rows i).pipe? = (l.pipe i).map home
  apart : ∀ n m, l.Live n → l.Live m → home n = home m → n = m
  buffered : ∀ n, l.Live n → ∃ buf, v.pipes (home n) = some buf ∧ l.Flow n buf
  numbered : ∀ n, l.Live n → n < l.made
  unborn : ∀ n, l.made ≤ n → l.wrote n = [] ∧ l.got n = []
  inOrder : ∀ n, l.got n <+: l.wrote n

namespace PipesAgree
variable {p : Nat} {buf : List UInt8}
variable {v v' : Endpoints} {l : PipeLog} {home : Nat → Nat} {i : FdNum}
theorem init (home : Nat → Nat) : PipesAgree .reset .empty home where
  ends _ := rfl
  apart _ _ hn := by
    obtain ⟨i, hi⟩ := hn
    cases hi
  buffered _ hn := by
    obtain ⟨i, hi⟩ := hn
    cases hi
  numbered _ hn := by
    obtain ⟨i, hi⟩ := hn
    cases hi
  unborn _ _ := ⟨rfl, rfl⟩
  inOrder _ := List.prefix_rfl

section
variable (h : PipesAgree v l home)
include h
theorem pipe_none (hi : (v.rows i).pipe? = none) : l.pipe i = none := by
  rw [h.ends i] at hi
  exact Option.map_eq_none_iff.mp hi

theorem pipe_some (hi : (v.rows i).pipe? = some p) : ∃ n, l.pipe i = some n ∧ home n = p := by
  rw [h.ends i] at hi
  exact Option.map_eq_some_iff.mp hi

/-- Rows change, but no pipe gets its first end, and the pipes that have an
end are left alone. -/
theorem move {pipe' : FdNum → Option Nat}
    (hends : ∀ i, (v'.rows i).pipe? = (pipe' i).map home)
    (hlive : ∀ i n, pipe' i = some n → l.Live n)
    (hpipes : ∀ p, Endpoints.Piped v'.rows p → v'.pipes p = v.pipes p) :
    PipesAgree v' { l with pipe := pipe' } home where
  ends := hends
  apart n m := fun ⟨i, hi⟩ ⟨j, hj⟩ => h.apart n m (hlive i n hi) (hlive j m hj)
  buffered n := by
    rintro ⟨i, hi⟩
    have hi : pipe' i = some n := hi
    have hpiped : Endpoints.Piped v'.rows (home n) := ⟨i, by rw [hends i, hi, Option.map_some]⟩
    obtain ⟨buf, hbuf, hflow, hbound⟩ := h.buffered n (hlive i n hi)
    exact ⟨buf, (hpipes _ hpiped).trans hbuf, hflow, hbound⟩
  numbered n := fun ⟨i, hi⟩ => h.numbered n (hlive i n hi)
  unborn := h.unborn
  inOrder := h.inOrder

theorem setRow (row : Endpoint) (hi : (v.rows i).pipe? = none)
    (hrow : row.pipe? = none) : PipesAgree (v.setRow i row) l home := by
  apply h.move
  · intro j
    by_cases hj : j = i
    · subst hj
      show ((set v.rows j row) j).pipe? = _
      rw [set_self, hrow, h.pipe_none hi, Option.map_none]
    show ((set v.rows i row) j).pipe? = _
    rw [set_ne hj]
    exact h.ends j
  · exact fun j n hj => ⟨j, hj⟩
  exact fun p _ => rfl

theorem forget (hi : (v.rows i).pipe? = none) : { l with pipe := set l.pipe i none } = l := by
  rw [← h.pipe_none hi, set_eq_self]

theorem collect {row : Endpoint} {number : Option Nat}
    (hrow : row.pipe? = number.map home) (hlive : ∀ n, number = some n → l.Live n) :
    PipesAgree (v.collect (set v.rows i row)) { l with pipe := set l.pipe i number } home := by
  apply h.move
  · intro j
    show ((set v.rows i row) j).pipe? = _
    by_cases hj : j = i
    · rw [hj, set_self, set_self, hrow]
    rw [set_ne hj, set_ne hj, h.ends j]
  · intro j n hj
    by_cases hji : j = i
    · rw [hji, set_self] at hj
      exact hlive n hj
    rw [set_ne hji] at hj
    exact ⟨j, hj⟩
  intro p hp
  exact if_pos hp

theorem refill {n : Nat} (hn : l.Live n) (wrote' got' buf : List UInt8)
    (hflow : wrote' = got' ++ buf) (hbound : buf.length ≤ QOS_PIPE_CAP) :
    PipesAgree { v with pipes := set v.pipes (home n) (some buf) }
      { l with wrote := set l.wrote n wrote', got := set l.got n got' } home where
  ends := h.ends
  apart := h.apart
  buffered m hm := by
    by_cases hmn : m = n
    · subst hmn
      refine ⟨buf, set_self, ?_, hbound⟩
      show set l.wrote m wrote' m = set l.got m got' m ++ buf
      rw [set_self, set_self, hflow]
    -- another pipe in another place
    have hhome : home m ≠ home n := fun heq => hmn (h.apart m n hm hn heq)
    obtain ⟨buf', hbuf', hflow', hbound'⟩ := h.buffered m hm
    refine ⟨buf', ?_, ?_, hbound'⟩
    · show set v.pipes (home n) (some buf) (home m) = some buf'
      rw [set_ne hhome, hbuf']
    show set l.wrote n wrote' m = set l.got n got' m ++ buf'
    rw [set_ne hmn, set_ne hmn, hflow']
  numbered := h.numbered
  unborn m hm := by
    have hmn : m ≠ n := by
      have := h.numbered n hn
      change l.made ≤ m at hm
      omega
    show set l.wrote n wrote' m = [] ∧ set l.got n got' m = []
    rw [set_ne hmn, set_ne hmn]
    exact h.unborn m hm
  inOrder m := by
    show set l.got n got' m <+: set l.wrote n wrote' m
    by_cases hmn : m = n
    · subst hmn
      rw [set_self, set_self, hflow]
      exact List.prefix_append got' buf
    rw [set_ne hmn, set_ne hmn]
    exact h.inOrder m

theorem read (hi : v.rows i = .reader p) (hbuf : v.pipes p = some buf) (n : Nat) :
    PipesAgree { v with pipes := set v.pipes p (some (buf.drop n)) }
      (l.record (.got i (buf.take n))) home := by
  obtain ⟨m, hm, rfl⟩ := h.pipe_some (i := i) (p := p) (by rw [hi]; rfl)
  obtain ⟨buf', hbuf', hflow, hbound⟩ := h.buffered m ⟨i, hm⟩
  obtain rfl : buf = buf' := Option.some.inj (hbuf.symm.trans hbuf')
  have hrefill := h.refill ⟨i, hm⟩ (l.wrote m) (l.got m ++ buf.take n) (buf.drop n)
    (by rw [List.append_assoc, List.take_append_drop, hflow])
    (by rw [List.length_drop]; omega)
  rw [set_eq_self] at hrefill
  rw [PipeLog.record, hm]
  exact hrefill

theorem written {data : List UInt8} (hi : v.rows i = .writer p)
    (hbuf : v.pipes p = some buf) (hcap : (buf ++ data).length ≤ QOS_PIPE_CAP) :
    PipesAgree { v with pipes := set v.pipes p (some (buf ++ data)) }
      (l.record (.wrote i data)) home := by
  obtain ⟨m, hm, rfl⟩ := h.pipe_some (i := i) (p := p) (by rw [hi]; rfl)
  obtain ⟨buf', hbuf', hflow, hbound⟩ := h.buffered m ⟨i, hm⟩
  obtain rfl : buf = buf' := Option.some.inj (hbuf.symm.trans hbuf')
  have hrefill := h.refill ⟨i, hm⟩ (l.wrote m ++ data) (l.got m) (buf ++ data)
    (by rw [hflow, List.append_assoc]) hcap
  rw [set_eq_self] at hrefill
  rw [PipeLog.record, hm]
  exact hrefill

theorem piped {r w : FdNum} (hp : v.pipes p = none) :
    PipesAgree { v with
      rows := set (set v.rows r (.reader p)) w (.writer p), pipes := set v.pipes p (some []) }
      (l.record (.piped r w)) (set home l.made p) := by
  -- a number in the new log is the new one or an old one that is in use
  have hlive : ∀ n, (l.record (.piped r w)).Live n → n = l.made ∨ l.Live n := by
    rintro n ⟨i, hi⟩
    change set (set l.pipe r (some l.made)) w (some l.made) i = some n at hi
    by_cases hiw : i = w
    · rw [hiw, set_self] at hi
      exact .inl (Option.some.inj hi).symm
    rw [set_ne hiw] at hi
    by_cases hir : i = r
    · rw [hir, set_self] at hi
      exact .inl (Option.some.inj hi).symm
    rw [set_ne hir] at hi
    exact .inr ⟨i, hi⟩
  have hnew : ∀ n, l.Live n → set home l.made p n = home n :=
    fun n hn => set_ne (Nat.ne_of_lt (h.numbered n hn))
  have hfree : ∀ n, l.Live n → home n ≠ p := by
    intro n hn heq
    obtain ⟨buf, hbuf, -⟩ := h.buffered n hn
    rw [heq, hp] at hbuf
    cases hbuf
  constructor
  · intro i
    show ((set (set v.rows r (.reader p)) w (.writer p)) i).pipe? =
      (set (set l.pipe r (some l.made)) w (some l.made) i).map (set home l.made p)
    by_cases hiw : i = w
    · rw [hiw, set_self, set_self, Option.map_some, set_self]
      rfl
    rw [set_ne hiw, set_ne hiw]
    by_cases hir : i = r
    · rw [hir, set_self, set_self, Option.map_some, set_self]
      rfl
    rw [set_ne hir, set_ne hir, h.ends i]
    cases hi : l.pipe i with
    | none => rfl
    | some n => rw [Option.map_some, Option.map_some, hnew n ⟨i, hi⟩]
  · intro n m hn hm heq
    rcases hlive n hn with rfl | hn
    · rcases hlive m hm with rfl | hm
      · rfl
      rw [set_self, hnew m hm] at heq
      exact absurd heq.symm (hfree m hm)
    rcases hlive m hm with rfl | hm
    · rw [set_self, hnew n hn] at heq
      exact absurd heq (hfree n hn)
    rw [hnew n hn, hnew m hm] at heq
    exact h.apart n m hn hm heq
  · intro n hn
    show ∃ buf, set v.pipes p (some []) (set home l.made p n) = some buf ∧ _
    rcases hlive n hn with rfl | hn
    · obtain ⟨hwrote, hgot⟩ := h.unborn l.made (Nat.le_refl _)
      refine ⟨[], by rw [set_self, set_self], ?_, Nat.zero_le _⟩
      show l.wrote l.made = l.got l.made ++ []
      rw [hwrote, hgot]
      rfl
    obtain ⟨buf, hbuf, hflow, hbound⟩ := h.buffered n hn
    exact ⟨buf, by rw [hnew n hn, set_ne (hfree n hn), hbuf], hflow, hbound⟩
  · intro n hn
    rcases hlive n hn with rfl | hn
    · exact Nat.lt_succ_self l.made
    exact Nat.lt_succ_of_lt (h.numbered n hn)
  · intro n hn
    exact h.unborn n (Nat.le_of_succ_le hn)
  exact h.inOrder

theorem effect {e : Event} (he : v.Effect e v') : ∃ home', PipesAgree v' (l.record e) home' := by
  cases he with
  | same => exact ⟨home, h⟩
  | @opened i row hi hrow =>
    have hfree : (v.rows i).pipe? = none := by rw [hi]; rfl
    have hnone : row.pipe? = none := by
      rcases hrow with rfl | rfl
      all_goals rfl
    refine ⟨home, ?_⟩
    rw [PipeLog.record, h.forget hfree]
    exact h.setRow row hfree hnone
  | @closed i => exact ⟨home, h.collect rfl fun n hn => by cases hn⟩
  | @copied i j => exact ⟨home, h.collect (h.ends i) fun n hn => ⟨i, hn⟩⟩
  | piped _ _ _ hp => exact ⟨_, h.piped hp⟩
  | read n hi hbuf => exact ⟨home, h.read hi hbuf n⟩
  | written hi hbuf hcap => exact ⟨home, h.written hi hbuf hcap⟩
  | readElse hi | writtenElse hi =>
    refine ⟨home, ?_⟩
    rw [PipeLog.record, h.pipe_none hi]
    exact h
  | bound hi _ | listening hi _ _ | gateway hi _ _ => exact ⟨home, h.setRow _ (by rw [hi]; rfl) rfl⟩
  | @connected i j k m port remote_ip c hi hj hne _ _ _ _ _ =>
    have hrow := h.setRow (.stream (k.connect port m.lport c.val)) (by rw [hi]; rfl) rfl
    have hstream : ((set v.rows i (.stream (k.connect port m.lport c.val))) j).pipe? = none := by
      rw [set_ne hne, hj]
      rfl
    have hrow' := hrow.setRow (.stream { m with
      pending := m.pending ++ [⟨port, QOS_NET_IPV4_LOCAL, c.val⟩] }) hstream rfl
    exact ⟨home, hrow'.move hrow'.ends (fun i n hi => ⟨i, hi⟩) fun _ _ => rfl⟩
  | @accepted i j k peer rest hi _ hj _ =>
  have hfree : (v.rows j).pipe? = none := by rw [hj]; rfl
  have hne : i ≠ j := by
    rintro rfl
    rw [hi] at hj
    cases hj
  have hstream : ((set v.rows j (.stream (k.accept peer))) i).pipe? = none := by
    rw [set_ne hne, hi]
    rfl
  refine ⟨home, ?_⟩
  rw [PipeLog.record, h.forget hfree]
  exact (h.setRow _ hfree rfl).setRow (.stream { k with pending := rest }) hstream rfl
end
end PipesAgree
end QosKernel
