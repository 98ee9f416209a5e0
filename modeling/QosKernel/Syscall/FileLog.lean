import QosKernel.Syscall.RustFiles

/-! # Files and what callers know of them

A `FileLog` is what callers know of files. A file gets a number when
`MKDIR` makes its path, and keeps it when the path is gone; a descriptor
gets the number of its file when it is opened or copied, and has a position
of its own; the writes are listed for each number.

`RustFiles.Agree` ties the log to the tables. `slot` tells where the file
with a number is kept, if it is: a file gets its slot when it is opened for
the first time, and loses it when neither a path nor a descriptor is left.
-/
open Framework
namespace QosKernel
structure FileLog where
  /-- How many files were made. -/
  made : Nat
  /-- The file that a path names. -/
  name : CStr → Option Nat
  /-- The file of a descriptor. -/
  file : Nat → Option Nat
  /-- The position of a descriptor. -/
  pos : Nat → Nat
  /-- What was written to a file. -/
  writes : Nat → List (Patch UInt8)

namespace FileLog
variable {l : FileLog} {fd : Nat}
def empty : FileLog := ⟨0, fun _ => none, fun _ => none, fun _ => 0, fun _ => []⟩

section
variable (l : FileLog)
def advance (fd n : Nat) : FileLog :=
  { l with pos := set l.pos fd (l.pos fd + n) }

variable (fd : Nat)
/-- The bytes are written at the position of the descriptor. -/
def addWrite (bytes : List UInt8) : FileLog :=
  match l.file fd with
  | none => l
  | some n =>
    if bytes.isEmpty then l
    else { l with writes := set l.writes n (l.writes n ++ [⟨l.pos fd, bytes⟩]) }

theorem advance_zero : l.advance fd 0 = l := by
  unfold advance
  rw [Nat.add_zero, set_eq_self]

theorem addWrite_nil : l.addWrite fd [] = l := by
  unfold addWrite
  split <;> rfl
end
theorem addWrite_none (hn : l.file fd = none) (bytes : List UInt8) : l.addWrite fd bytes = l := by
  unfold addWrite
  rw [hn]

theorem addWrite_some {n : Nat} {bytes : List UInt8} (hn : l.file fd = some n) (hne : bytes ≠ []) :
    l.addWrite fd bytes =
      { l with writes := set l.writes n (l.writes n ++ [⟨l.pos fd, bytes⟩]) } := by
  unfold addWrite
  rw [hn]
  dsimp only
  rw [if_neg (by simpa using hne)]

/-- What callers learn from a call that returned `n`. -/
def learn (l : FileLog) (c : FileCall) (n : Nat) : FileLog :=
  let fd := c.a0.toUInt32.toNat
  let path := c.env.str c.a0
  match c.op with
  | .mkdir =>
    match path with
    | none => l
    | some path => { l with made := l.made + 1, name := set l.name path (some l.made) }
  | .unlink =>
    match path with
    | none => l
    | some path => { l with name := set l.name path none }
  | .open => { l with file := set l.file n (path.bind l.name), pos := set l.pos n 0 }
  | .read => l.advance fd n
  | .write => (l.addWrite fd (c.env.bytes c.a1 n)).advance fd n
  | .lseek => { l with pos := set l.pos fd n }
  | .dup2 =>
    let newfd := c.a1.toUInt32.toNat
    { l with file := set l.file newfd (l.file fd), pos := set l.pos newfd (l.pos fd) }
  | .close => { l with file := set l.file fd none }

variable (l : FileLog) (c : FileCall)
/-- From a call that failed they learn nothing. -/
def record : Int → FileLog
  | .ofNat n => l.learn c n
  | .negSucc _ => l

theorem record_natCast (n : Nat) : l.record c n = l.learn c n := rfl
end FileLog
namespace RustFiles
/-! ### Paths -/
/-- The paths in the registry are those that name a file, each another one. -/
structure NamesAgree (v : Vfs) (name : CStr → Option Nat) (made : Nat) : Prop where
  listed : ∀ path, (∃ i, v.nodes i = some path) ↔ ∃ n, name path = some n
  valid : ∀ i path, v.nodes i = some path → Vfs.path_valid path = true
  once : ∀ i j path, v.nodes i = some path → v.nodes j = some path → i = j
  apart : ∀ path path' n, name path = some n → name path' = some n → path = path'
  older : ∀ path n, name path = some n → n < made

namespace NamesAgree
variable {n : Nat} {path' : CStr} {i : NodeSlot}
variable {v : Vfs} {name : CStr → Option Nat} {made : Nat} {path : CStr}
theorem init : NamesAgree .reset (fun _ => none) 0 where
  listed _ := by simp [Vfs.reset]
  valid _ _ h := by cases h
  once _ _ _ h := by cases h
  apart _ _ _ h := by cases h
  older _ _ h := by cases h

theorem exists_iff (h : NamesAgree v name made) :
    v.qos_vfs_exists path = true ↔ ∃ n, name path = some n := by
  rw [Vfs.qos_vfs_exists_iff, h.listed path]
  constructor
  · exact fun hand => hand.2
  intro hn
  obtain ⟨i, hi⟩ := (h.listed path).mpr hn
  exact ⟨h.valid i path hi, hn⟩

theorem ne_nil (h : NamesAgree v name made) (hn : name path = some n) : path ≠ [] := by
  obtain ⟨i, hi⟩ := (h.listed path).mpr ⟨n, hn⟩
  exact Vfs.path_valid_ne_nil (h.valid i path hi)

theorem update_some {m : Nat} (hn : set name path (some m) path' = some n) :
    (path' = path ∧ n = m) ∨ name path' = some n := by
  by_cases hp : path' = path
  · rw [hp, set_self] at hn
    exact .inl ⟨hp, (Option.some.inj hn).symm⟩
  rw [set_ne hp] at hn
  exact .inr hn

theorem update_none (hn : set name path none path' = some n) :
    path' ≠ path ∧ name path' = some n := by
  by_cases hp : path' = path
  · rw [hp, set_self] at hn
    cases hn
  rw [set_ne hp] at hn
  exact ⟨hp, hn⟩

theorem create (h : NamesAgree v name made) (hi : v.nodes i = none)
    (hvalid : Vfs.path_valid path = true) (hnew : ∀ j, v.nodes j ≠ some path) (count : UInt32) :
    NamesAgree ⟨set v.nodes i (some path), count⟩ (set name path (some made))
      (made + 1) := by
  have hnode : ∀ j path', set v.nodes i (some path) j = some path' ↔
      (j = i ∧ path' = path) ∨ v.nodes j = some path' := by
    intro j path'
    by_cases hj : j = i
    · subst hj
      rw [set_self, hi]
      simp [eq_comm]
    rw [set_ne hj]
    simp [hj]
  constructor
  · intro path'
    by_cases hp : path' = path
    · subst hp
      rw [set_self]
      exact ⟨fun _ => ⟨made, rfl⟩, fun _ => ⟨i, set_self⟩⟩
    rw [set_ne hp, ← h.listed path']
    constructor
    · rintro ⟨j, hj⟩
      exact ⟨j, ((hnode j path').mp hj).resolve_left fun hand => hp hand.2⟩
    rintro ⟨j, hj⟩
    exact ⟨j, (hnode j path').mpr (.inr hj)⟩
  · intro j path' hj
    rcases (hnode j path').mp hj with ⟨-, rfl⟩ | hj
    · exact hvalid
    exact h.valid j path' hj
  · intro j k path' hj hk
    rcases (hnode j path').mp hj with ⟨hji, hp⟩ | hjold
    · rcases (hnode k path').mp hk with ⟨hki, -⟩ | hkold
      · exact hji.trans hki.symm
      exact absurd (hp ▸ hkold) (hnew k)
    rcases (hnode k path').mp hk with ⟨-, hp⟩ | hkold
    · exact absurd (hp ▸ hjold) (hnew j)
    exact h.once j k path' hjold hkold
  · intro path' path'' n hn hn'
    rcases update_some hn with ⟨hp, hmade⟩ | hold
    · rcases update_some hn' with ⟨hp', -⟩ | hold'
      · exact hp.trans hp'.symm
      have hlt := h.older path'' n hold'
      omega
    rcases update_some hn' with ⟨-, hmade⟩ | hold'
    · have hlt := h.older path' n hold
      omega
    exact h.apart path' path'' n hold hold'
  intro path' n hn
  rcases update_some hn with ⟨-, rfl⟩ | hn
  · exact Nat.lt_succ_self n
  exact Nat.lt_succ_of_lt (h.older path' n hn)

theorem remove (h : NamesAgree v name made) (hi : v.nodes i = some path) (count : UInt32) :
    NamesAgree ⟨set v.nodes i none, count⟩ (set name path none) made := by
  have hnode : ∀ j path', set v.nodes i none j = some path' → j ≠ i ∧ v.nodes j = some path' := by
    intro j path' hj
    by_cases hji : j = i
    · rw [hji, set_self] at hj
      cases hj
    rw [set_ne hji] at hj
    exact ⟨hji, hj⟩
  constructor
  · intro path'
    constructor
    · rintro ⟨j, hj⟩
      obtain ⟨hji, hj⟩ := hnode j path' hj
      have hp : path' ≠ path := fun hp => hji (h.once j i path (hp ▸ hj) hi)
      rw [set_ne hp]
      exact (h.listed path').mp ⟨j, hj⟩
    rintro ⟨n, hn⟩
    obtain ⟨hp, hn⟩ := update_none hn
    obtain ⟨j, hj⟩ := (h.listed path').mpr ⟨n, hn⟩
    have hji : j ≠ i := by
      rintro rfl
      exact hp (Option.some.inj (hj.symm.trans hi))
    exact ⟨j, (set_ne hji).trans hj⟩
  · exact fun j path' hj => h.valid j path' (hnode j path' hj).2
  · exact fun j k path' hj hk => h.once j k path' (hnode j path' hj).2 (hnode k path' hk).2
  · exact fun path' path'' n hn hn' =>
      h.apart path' path'' n (update_none hn).2 (update_none hn').2
  exact fun path' n hn => h.older path' n (update_none hn).2
end NamesAgree
/-! ### Files -/
/-- A slot holds the file with number `n`: with the bytes that were written to
it, and the path that names it, if any. -/
structure FileAgrees (file : File) (name : CStr → Option Nat) (n : Nat)
    (log : List (Patch UInt8)) : Prop where
  used : file.used = true
  length : file.len = extent log
  bytes : file.data = lastAt log 0
  titled : ∀ path, name path = some n ↔ path ≠ [] ∧ file.path = path

/-- A file does not notice that a path loses its name that was another one's. -/
theorem FileAgrees.unlink_other {file : File} {name : CStr → Option Nat} {n : Nat}
    {log : List (Patch UInt8)} {path : CStr} (h : FileAgrees file name n log)
    (hne : name path ≠ some n) : FileAgrees file (set name path none) n log := by
  refine { h with titled := ?_ }
  intro path'
  by_cases hp : path' = path
  · subst hp
    rw [set_self, ← h.titled path']
    constructor
    · intro hnil
      cases hnil
    exact fun hname => absurd hname hne
  rw [set_ne hp]
  exact h.titled path'

/-- The slots that are in use hold files, each another one, with the bytes that
were written to it and the path that names it, if any. -/
structure SlotsAgree (files : NodeSlot → File) (name : CStr → Option Nat)
    (made : Nat) (writes : Nat → List (Patch UInt8))
    (slot : Nat → Option NodeSlot) : Prop where
  used : ∀ n f, slot n = some f → (files f).used = true
  length : ∀ n f, slot n = some f → (files f).len = extent (writes n)
  bytes : ∀ n f, slot n = some f → (files f).data = lastAt (writes n) 0
  titled : ∀ n f path, slot n = some f → (name path = some n ↔ path ≠ [] ∧ (files f).path = path)
  apart : ∀ n m f, slot n = some f → slot m = some f → n = m
  owned : ∀ f, (files f).used = true → ∃ n, slot n = some f
  /-- A file that was never opened was never written. -/
  unopened : ∀ path n, name path = some n → slot n = none → writes n = []
  older : ∀ n f, slot n = some f → n < made
  unmade : ∀ n, made ≤ n → writes n = []
  bounded : ∀ n, extent (writes n) ≤ QOS_PIPE_CAP

namespace SlotsAgree
variable {files : NodeSlot → File} {name : CStr → Option Nat} {made : Nat}
  {writes : Nat → List (Patch UInt8)} {slot : Nat → Option NodeSlot}
  {f : NodeSlot} {n : Nat} {path : CStr}
theorem init : SlotsAgree (fun _ => .empty) (fun _ => none) 0 (fun _ => []) (fun _ => none) where
  used _ _ h := by cases h
  length _ _ h := by cases h
  bytes _ _ h := by cases h
  titled _ _ _ h := by cases h
  apart _ _ _ h := by cases h
  owned _ h := by cases h
  unopened _ _ h := by cases h
  older _ _ h := by cases h
  unmade _ _ := rfl
  bounded _ := Nat.zero_le _

theorem held (h : SlotsAgree files name made writes slot) (n : Nat) (f : NodeSlot)
    (hn : slot n = some f) : FileAgrees (files f) name n (writes n) where
  used := h.used n f hn
  length := h.length n f hn
  bytes := h.bytes n f hn
  titled path := h.titled n f path hn

theorem of_held (hheld : ∀ n f, slot n = some f → FileAgrees (files f) name n (writes n))
    (hapart : ∀ n m f, slot n = some f → slot m = some f → n = m)
    (howned : ∀ f, (files f).used = true → ∃ n, slot n = some f)
    (hunopened : ∀ path n, name path = some n → slot n = none → writes n = [])
    (holder : ∀ n f, slot n = some f → n < made) (hunmade : ∀ n, made ≤ n → writes n = [])
    (hbounded : ∀ n, extent (writes n) ≤ QOS_PIPE_CAP) :
    SlotsAgree files name made writes slot where
  used n f hn := (hheld n f hn).used
  length n f hn := (hheld n f hn).length
  bytes n f hn := (hheld n f hn).bytes
  titled n f path hn := (hheld n f hn).titled path
  apart := hapart
  owned := howned
  unopened := hunopened
  older := holder
  unmade := hunmade
  bounded := hbounded

section
variable (h : SlotsAgree files name made writes slot)
include h
theorem slot_of_find (hname : name path = some n)
    (hne : path ≠ []) (hused : (files f).used = true) (hpath : (files f).path = path) :
    slot n = some f := by
  obtain ⟨m, hm⟩ := h.owned f hused
  have hm' : name path = some m := (h.titled m f path hm).mpr ⟨hne, hpath⟩
  rw [hname, Option.some.injEq] at hm'
  rw [hm', hm]

theorem create (hfree : name path = none) :
    SlotsAgree files (set name path (some made)) (made + 1) writes slot := by
  refine of_held ?_ h.apart h.owned ?_ ?_ ?_ h.bounded
  · intro n f hn
    refine { h.held n f hn with titled := ?_ }
    intro path'
    by_cases hp : path' = path
    · subst hp
      rw [set_self, ← h.titled n f path' hn, hfree, Option.some.injEq]
      -- the new number has no slot yet
      have hlt := h.older n f hn
      constructor
      · intro hmade
        omega
      intro hnone
      cases hnone
    rw [set_ne hp]
    exact h.titled n f path' hn
  · intro path' n hname hn
    rcases NamesAgree.update_some hname with ⟨-, hmade⟩ | hname
    · exact h.unmade n (Nat.le_of_eq hmade.symm)
    exact h.unopened path' n hname hn
  · exact fun n f hn => Nat.lt_succ_of_lt (h.older n f hn)
  exact fun n hn => h.unmade n (Nat.le_of_succ_le hn)

theorem unlink_unopened (hnone : ∀ n f, name path = some n → slot n ≠ some f) :
    SlotsAgree files (set name path none) made writes slot := by
  refine of_held ?_ h.apart h.owned ?_ h.older h.unmade h.bounded
  · intro n f hn
    exact (h.held n f hn).unlink_other fun hname => hnone n f hname hn
  exact fun path' n hname => h.unopened path' n (NamesAgree.update_none hname).2

theorem unlink (hn : slot n = some f) (hname : name path = some n) :
    SlotsAgree (set files f { files f with path := [] }) (set name path none) made
      writes slot := by
  refine of_held ?_ h.apart ?_ ?_ h.older h.unmade h.bounded
  · intro m g hm
    by_cases hg : g = f
    · -- the file that is unlinked had no other name
      subst hg
      have hmn : m = n := h.apart m n g hm hn
      subst hmn
      rw [set_self]
      refine { h.held m g hn with titled := ?_ }
      intro path'
      constructor
      · intro hname'
        obtain ⟨hp, hname'⟩ := NamesAgree.update_none hname'
        have hpath := ((h.titled m g path hn).mp hname).2
        have hpath' := ((h.titled m g path' hn).mp hname').2
        exact absurd (hpath'.symm.trans hpath) hp
      exact fun hand => absurd hand.2.symm hand.1
    rw [set_ne hg]
    apply (h.held m g hm).unlink_other
    intro hname'
    rw [hname, Option.some.injEq] at hname'
    rw [← hname', hn, Option.some.injEq] at hm
    exact hg hm.symm
  · intro g hg
    by_cases hgf : g = f
    · exact ⟨n, hgf ▸ hn⟩
    rw [set_ne hgf] at hg
    exact h.owned g hg
  exact fun path' m hname' => h.unopened path' m (NamesAgree.update_none hname').2

theorem alloc (hname : name path = some n)
    (hne : path ≠ []) (hapart : ∀ path', name path' = some n → path' = path)
    (hlt : n < made) (hn : slot n = none) (hfree : (files f).used = false) :
    SlotsAgree (set files f (.new path)) name made writes (set slot n (some f)) := by
  -- every other file is in another slot
  have hold : ∀ m g, set slot n (some f) m = some g → (m = n ∧ g = f) ∨
      (m ≠ n ∧ g ≠ f ∧ slot m = some g) := by
    intro m g hm
    by_cases hmn : m = n
    · rw [hmn, set_self, Option.some.injEq] at hm
      exact .inl ⟨hmn, hm.symm⟩
    rw [set_ne hmn] at hm
    refine .inr ⟨hmn, ?_, hm⟩
    rintro rfl
    rw [h.used m g hm] at hfree
    cases hfree
  have hempty : writes n = [] := h.unopened path n hname hn
  have hnew : FileAgrees (.new path) name n (writes n) := by
    rw [hempty]
    refine ⟨rfl, rfl, rfl, fun path' => ⟨?_, ?_⟩⟩
    · intro hname'
      have hp := hapart path' hname'
      exact ⟨hp ▸ hne, hp.symm⟩
    rintro ⟨-, rfl⟩
    exact hname
  refine of_held ?_ ?_ ?_ ?_ ?_ h.unmade h.bounded
  · intro m g hm
    rcases hold m g hm with ⟨rfl, rfl⟩ | ⟨-, hg, hm⟩
    · rw [set_self]
      exact hnew
    rw [set_ne hg]
    exact h.held m g hm
  · intro m k g hm hk
    rcases hold m g hm with ⟨rfl, rfl⟩ | ⟨-, hg, hm⟩
    · rcases hold k g hk with ⟨rfl, -⟩ | ⟨-, hg, -⟩
      · rfl
      exact absurd rfl hg
    rcases hold k g hk with ⟨-, hg'⟩ | ⟨-, -, hk⟩
    · exact absurd hg' hg
    exact h.apart m k g hm hk
  · intro g hg
    by_cases hgf : g = f
    · exact ⟨n, by rw [hgf, set_self]⟩
    rw [set_ne hgf] at hg
    obtain ⟨m, hm⟩ := h.owned g hg
    have hmn : m ≠ n := by
      rintro rfl
      rw [hn] at hm
      cases hm
    exact ⟨m, by rw [set_ne hmn, hm]⟩
  · intro path' m hname' hm
    by_cases hmn : m = n
    · rw [hmn, hempty]
    rw [set_ne hmn] at hm
    exact h.unopened path' m hname' hm
  intro m g hm
  rcases hold m g hm with ⟨rfl, -⟩ | ⟨-, -, hm⟩
  · exact hlt
  exact h.older m g hm

theorem drop (hn : slot n = some f) (hpath : (files f).path = []) :
    SlotsAgree (set files f .empty) name made writes (set slot n none) := by
  have hold : ∀ m g, set slot n none m = some g → g ≠ f ∧ slot m = some g := by
    intro m g hm
    by_cases hmn : m = n
    · rw [hmn, set_self] at hm
      cases hm
    rw [set_ne hmn] at hm
    refine ⟨?_, hm⟩
    rintro rfl
    exact hmn (h.apart m n g hm hn)
  refine of_held ?_ ?_ ?_ ?_ ?_ h.unmade h.bounded
  · intro m g hm
    obtain ⟨hg, hm⟩ := hold m g hm
    rw [set_ne hg]
    exact h.held m g hm
  · exact fun m k g hm hk => h.apart m k g (hold m g hm).2 (hold k g hk).2
  · intro g hg
    by_cases hgf : g = f
    · rw [hgf, set_self] at hg
      cases hg
    rw [set_ne hgf] at hg
    obtain ⟨m, hm⟩ := h.owned g hg
    have hmn : m ≠ n := by
      rintro rfl
      exact hgf (Option.some.inj (hm.symm.trans hn))
    exact ⟨m, by rw [set_ne hmn, hm]⟩
  · intro path' m hname hm
    by_cases hmn : m = n
    · -- no path names the file
      rw [hmn] at hname
      obtain ⟨hne, heq⟩ := (h.titled n f path' hn).mp hname
      exact absurd (heq.symm.trans hpath) hne
    rw [set_ne hmn] at hm
    exact h.unopened path' m hname hm
  exact fun m g hm => h.older m g (hold m g hm).2

theorem patch (hn : slot n = some f) (w : Patch UInt8) (hw : w.stop ≤ QOS_PIPE_CAP) {file : File}
    (hused : file.used = (files f).used) (hpath : file.path = (files f).path)
    (hlen : file.len = max (files f).len w.stop) (hdata : file.data = w.apply (files f).data) :
    SlotsAgree (set files f file) name made (set writes n (writes n ++ [w])) slot := by
  have hfile := h.held n f hn
  have hwritten : FileAgrees file name n (writes n ++ [w]) := by
    constructor
    · rw [hused, hfile.used]
    · rw [hlen, hfile.length, extent_append]
    · rw [hdata, hfile.bytes, lastAt_append]
    rw [hpath]
    exact hfile.titled
  refine of_held ?_ h.apart ?_ ?_ h.older ?_ ?_
  · intro m g hm
    by_cases hg : g = f
    · subst hg
      have hmn : m = n := h.apart m n g hm hn
      rw [hmn, set_self, set_self]
      exact hwritten
    have hmn : m ≠ n := by
      rintro rfl
      exact hg (Option.some.inj (hm.symm.trans hn))
    rw [set_ne hg, set_ne hmn]
    exact h.held m g hm
  · intro g hg
    by_cases hgf : g = f
    · exact ⟨n, hgf ▸ hn⟩
    rw [set_ne hgf] at hg
    exact h.owned g hg
  · intro path' m hname hm
    have hmn : m ≠ n := by
      rintro rfl
      rw [hn] at hm
      cases hm
    rw [set_ne hmn]
    exact h.unopened path' m hname hm
  · intro m hm
    have hlt := h.older n f hn
    rw [set_ne (by omega)]
    exact h.unmade m hm
  intro m
  by_cases hmn : m = n
  · rw [hmn, set_self, extent_append]
    exact Nat.max_le.mpr ⟨h.bounded n, hw⟩
  rw [set_ne hmn]
  exact h.bounded m
end
end SlotsAgree
/-! ### Descriptors -/
/-- A row is a descriptor of the file with the given number, at the given
position; `none` if it is none of a file. -/
structure RowAgrees (row : FdRow) (number : Option Nat) (p : Nat)
    (slot : Nat → Option NodeSlot) : Prop where
  isFile : row.isFile = number.isSome
  opened : ∀ n, number = some n → ∃ f, slot n = some f ∧ row.file_id.toNat = f.val
  position : ∀ n, number = some n → row.offset.toNat = p

structure RowsAgree (fds : FdNum → FdRow) (file : Nat → Option Nat) (pos : Nat → Nat)
    (slot : Nat → Option NodeSlot) : Prop where
  row : ∀ i, RowAgrees (fds i) (file i.val) (pos i.val) slot
  within : ∀ fd n, file fd = some n → fd < QOS_FD_MAX

theorem RowAgrees.other {row : FdRow} (h : row.isFile = false) (p : Nat)
    (slot : Nat → Option NodeSlot) : RowAgrees row none p slot where
  isFile := h
  opened _ hn := by cases hn
  position _ hn := by cases hn

namespace RowsAgree
variable {row : FdRow} {p : Nat}
variable {fds : FdNum → FdRow} {file : Nat → Option Nat} {pos : Nat → Nat}
  {slot : Nat → Option NodeSlot} {i : FdNum}
theorem init (slot : Nat → Option NodeSlot) :
    RowsAgree (fun _ => .closed) (fun _ => none) (fun _ => 0) slot where
  row _ := .other rfl 0 slot
  within _ _ h := by cases h

theorem setRow (h : RowsAgree fds file pos slot) {number : Option Nat}
    (hrow : RowAgrees row number p slot) :
    RowsAgree (set fds i row) (set file i.val number) (set pos i.val p) slot where
  row j := by
    by_cases hj : j = i
    · subst hj
      rw [set_self, set_self, set_self]
      exact hrow
    have hval : j.val ≠ i.val := fun heq => hj (Fin.ext heq)
    rw [set_ne hj, set_ne hval, set_ne hval]
    exact h.row j
  within fd n hn := by
    by_cases hfd : fd = i.val
    · exact hfd ▸ i.isLt
    rw [set_ne hfd] at hn
    exact h.within fd n hn

theorem close (h : RowsAgree fds file pos slot) (hrow : row.isFile = false) :
    RowsAgree (set fds i row) (set file i.val none) pos slot := by
  have hset := h.setRow (i := i) (.other hrow (pos i.val) slot)
  rwa [set_eq_self] at hset

theorem copy {j : FdNum} (h : RowsAgree fds (set file j.val none) pos slot)
    (hij : i ≠ j) :
    RowsAgree (set fds j (fds i)) (set file j.val (file i.val)) (set pos j.val (pos i.val))
      slot := by
  have hval : i.val ≠ j.val := fun heq => hij (Fin.ext heq)
  have hrow := h.row i
  rw [set_ne hval] at hrow
  have hset := h.setRow (i := j) hrow
  rwa [set_set] at hset

theorem file_none (h : RowsAgree fds file pos slot) (hi : (fds i).isFile = false) :
    file i.val = none := by
  have hsome := (h.row i).isFile
  rw [hi] at hsome
  exact Option.not_isSome_iff_eq_none.mp (by rw [← hsome]; decide)

theorem seek (h : RowsAgree fds file pos slot) (hfile : row.isFile = (fds i).isFile)
    (hid : row.file_id = (fds i).file_id) (hp : ∀ n, file i.val = some n → row.offset.toNat = p) :
    RowsAgree (set fds i row) file (set pos i.val p) slot := by
  have hrow : RowAgrees row (file i.val) p slot := by
    constructor
    · rw [hfile, (h.row i).isFile]
    · intro n hn
      rw [hid]
      exact (h.row i).opened n hn
    exact hp
  have hset := h.setRow (i := i) hrow
  rwa [set_eq_self] at hset

theorem move (h : RowsAgree fds file pos slot) {n : Nat}
    (hn : ∀ i : FdNum, file i.val ≠ some n) (f : Option NodeSlot) :
    RowsAgree fds file pos (set slot n f) where
  row i := by
    refine ⟨(h.row i).isFile, ?_, (h.row i).position⟩
    intro m hm
    have hmn : m ≠ n := by
      rintro rfl
      exact hn i hm
    rw [set_ne hmn]
    exact (h.row i).opened m hm
  within := h.within
end RowsAgree
/-! ### All tables -/
structure Agree (s : RustFiles) (l : FileLog) (slot : Nat → Option NodeSlot) :
    Prop where
  names : NamesAgree s.vfs l.name l.made
  slots : SlotsAgree s.files l.name l.made l.writes slot
  rows : RowsAgree s.fds l.file l.pos slot

theorem Agree.init : Agree .reset .empty fun _ => none := ⟨.init, .init, .init _⟩
end RustFiles
end QosKernel
