import QosKernel.Syscall.CSocketsKeep

/-! # Files, pipes and the ownership invariant

What the small functions for files and pipes return, how opening and
unlinking them keeps the invariant, and that it holds after a reset.
-/
open Framework
namespace QosKernel.KState
variable {path : CStr} {f : FileSlot} {s s' : KState} {i : FdNum}
/-! ### What the small functions return -/
theorem pipe_alloc_some {p : PipeSlot} (h : s.pipe_alloc = some (p, s')) :
    (s.pipes p).used = false ∧ s' = { s with pipes := set s.pipes p ⟨true, []⟩ } := by
  simp only [pipe_alloc, Option.map_eq_some_iff, Prod.mk.injEq] at h
  obtain ⟨q, hq, rfl, rfl⟩ := h
  exact ⟨by simpa using first_some hq, rfl⟩

theorem file_find_some (h : s.file_find path = some f) :
    (s.files f).used = true ∧ (s.files f).path = path := by
  simpa using first_some h

theorem file_find_none (h : s.file_find path = none) (f : FileSlot) :
    ¬(s.files f).Linked path := by
  intro hl
  have := first_none.mp h f
  simp [hl.1, hl.2.1] at this

/-- A file that `file_ensure` makes has the whole path: paths of the VFS are
never cut off. -/
theorem file_ensure_some (hlen : path.length < QOS_VFS_PATH_MAX)
    (h : s.file_ensure path = some (f, s')) :
    ∃ files', s' = { s with files := files' } ∧
      (((s.files f).used = true ∧ files' = s.files) ∨
        ((∀ j, ¬(s.files j).Linked path) ∧ files' = set s.files f (.new path))) := by
  unfold file_ensure at h
  split at h
  next j hj =>
    cases h
    exact ⟨_, rfl, .inl ⟨(file_find_some hj).1, rfl⟩⟩
  next hnone =>
  simp only [file_alloc, Option.map_eq_some_iff, Prod.mk.injEq] at h
  obtain ⟨j, -, rfl, rfl⟩ := h
  have htake : path.take (QOS_FILE_PATH_MAX - 1) = path :=
    List.take_of_length_le (Nat.le_of_lt_succ hlen)
  exact ⟨_, rfl, .inr ⟨file_find_none hnone, by rw [htake]⟩⟩

namespace Owns
variable {path : CStr} {fd : Fd} {p : PipeSlot}
/-! ### Files, pipes and descriptors -/
theorem open_file (h : s.Owns) {f : FileSlot} {files' : FileSlot → File}
    (hi : (s.fds i).used = false) (hexists : s.vfs.qos_vfs_exists path = true)
    (hfd : fd.hold = .file f.val) (hfiles : ((s.files f).used = true ∧ files' = s.files) ∨
      ((∀ j, ¬(s.files j).Linked path) ∧ files' = set s.files f (.new path))) :
    ({ s with files := files' }.setFd i fd).Owns := by
  obtain ⟨hvalid, hreg⟩ := Vfs.qos_vfs_exists_iff.mp hexists
  have hnone : s.holds i = .nothing := Fd.hold_unused hi
  have hempty : (s.holds i).noStore := by
    rw [hnone]
    trivial
  refine h.reload ?_ ?_ rfl rfl rfl rfl ?_
  · show (s.holds i).noSocket
    rw [hnone]
    trivial
  · rw [hfd]
    trivial
  rw [hfd]
  rcases hfiles with ⟨hused, rfl⟩ | ⟨hnew, rfl⟩
  · apply h.store.share hempty
    · exact fun p hp => hp.elim
    intro n hn
    obtain rfl : f.val = n := hn
    exact slotIs_val.mpr hused
  exact h.store.open_new hempty hvalid hreg hnew

theorem pipe_undo (h : s.Owns) (hp : (s.pipes p).used = false) (hi : (s.fds i).used = false)
    {t : KState}
    (ht : t = ({ s with pipes := set s.pipes p ⟨true, []⟩ }.setFd i .closed).releasePipe 0) :
    Owns { t with pipes := set t.pipes p { t.pipes p with used := false } } := by
  have hclosed : Fd.closed.hold = (s.fds i).hold := (Fd.hold_unused hi).symm
  have hrow := h.touch hclosed
  obtain ⟨pipes', hs, hpipes, -⟩ :=
    ({ s with pipes := set s.pipes p ⟨true, []⟩ }.setFd i .closed).releasePipe_spec 0
  rw [hs] at ht
  subst ht
  exact ⟨hrow.ns, hrow.store.undo_pipe hp hpipes⟩

theorem open_pipe (h : s.Owns) {j : FdNum} {fd' : Fd} (hi : (s.fds i).used = false)
    (hj : (s.fds j).used = false) (hij : j ≠ i) (hfd : fd.hold = .pipe p.val)
    (hfd' : fd'.hold = .pipe p.val) :
    (({ s with pipes := set s.pipes p ⟨true, []⟩ }.setFd i fd).setFd j fd').Owns := by
  have hi : s.holds i = .nothing := Fd.hold_unused hi
  have hj : s.holds j = .nothing := Fd.hold_unused hj
  have hholds : (({ s with pipes := set s.pipes p ⟨true, []⟩ }.setFd i fd).setFd j fd').holds =
      set (set s.holds i (.pipe p.val)) j (.pipe p.val) := by
    rw [holds_setFd, holds_setFd, hfd, hfd']
    rfl
  constructor
  · rw [hholds]
    apply Namespace.frame
    · apply h.ns.frame
      · rw [hi]
        trivial
      trivial
    · rw [set_ne hij, hj]
      trivial
    trivial
  rw [hholds]
  apply h.store.open_pipe hij
  · rw [hi]
    trivial
  rw [hj]
  trivial

theorem file_unlink_path_spec (s : KState) (hne : path ≠ [])
    (hd : ∀ i j, (s.files i).Linked path → (s.files j).Linked path → i = j) :
    ∃ files', s.file_unlink_path path = { s with files := files' } ∧
      (∀ f, ¬(files' f).Linked path) ∧
      ∀ f, files' f = s.files f ∨
        (Held Hold.refersToFile s.holds f.val ∧ files' f = { s.files f with path := [] }) ∨
        (¬Held Hold.refersToFile s.holds f.val ∧ files' f = .empty) := by
  unfold KState.file_unlink_path
  split
  next hnone => exact ⟨_, rfl, file_find_none hnone, fun _ => .inl rfl⟩
  next i hi =>
  obtain ⟨hused, hpath⟩ := file_find_some hi
  -- the other files have other paths
  have hother : ∀ f, f ≠ i → ¬(s.files f).Linked path :=
    fun f hf hl => hf (hd f i hl ⟨hused, hpath, hne⟩)
  have hspec (file : File) (hnot : ¬file.Linked path)
      (hfile : (Held Hold.refersToFile s.holds i.val ∧ file = { s.files i with path := [] }) ∨
        (¬Held Hold.refersToFile s.holds i.val ∧ file = .empty)) :
      (∀ f, ¬(set s.files i file f).Linked path) ∧
      ∀ f, set s.files i file f = s.files f ∨ (Held Hold.refersToFile s.holds f.val ∧
          set s.files i file f = { s.files f with path := [] }) ∨
        (¬Held Hold.refersToFile s.holds f.val ∧ set s.files i file f = .empty) := by
    constructor
    · intro f
      by_cases hf : f = i
      · rw [hf, set_self]
        exact hnot
      rw [set_ne hf]
      exact hother f hf
    intro f
    by_cases hf : f = i
    · rw [hf, set_self]
      exact .inr hfile
    exact .inl (set_ne hf)
  simp only
  split
  next hrefs =>
    refine ⟨_, rfl, hspec _ ?_ (.inl ⟨file_has_refs_iff.mp hrefs, rfl⟩)⟩
    exact fun hl => hne hl.2.1.symm
  next hrefs =>
  refine ⟨set s.files i .empty, ?_, hspec _ ?_ (.inr ⟨mt file_has_refs_iff.mpr hrefs, rfl⟩)⟩
  · simp only [file_drop, set_set]
  exact fun hl => absurd hl.1 (by decide)

theorem reset (vfs : Vfs) : (KState.reset vfs).Owns := by
  have hnone : ∀ {R : Type} {holds : Hold → R → Prop} {lo hi : R → Prop},
      (∀ r, ¬lo r) → (∀ r, ¬holds .nothing r) →
      Covers holds (KState.reset vfs).holds lo hi :=
    fun hlo hempty => ⟨fun r hr => absurd hr (hlo r), fun r ⟨_, hr⟩ => absurd hr (hempty r)⟩
  constructor
  · constructor
    · intro i k hk
      cases hk
    · exact hnone (fun _ h => Bool.noConfusion h) fun _ => id
    · exact hnone (fun _ h => Bool.noConfusion h) fun _ => id
    · exact hnone (fun _ ⟨_, h⟩ => nomatch h) fun _ => id
    · exact hnone (fun _ ⟨_, h⟩ => nomatch h) fun _ => id
    · intro i j p h
      cases h
    intro i j p h
    cases h
  constructor
  · exact hnone (fun _ ⟨_, h⟩ => Bool.noConfusion h) fun _ => id
  · exact hnone (fun _ ⟨_, h⟩ => Bool.noConfusion h.1) fun _ => id
  · exact fun _ _ _ h => Bool.noConfusion h.1
  · exact fun _ _ h => Bool.noConfusion h.1
  all_goals exact fun _ => Nat.zero_le _
end Owns
end QosKernel.KState
