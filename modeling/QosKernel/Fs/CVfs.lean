import QosKernel.Framework.Holders

/-! # The C VFS registry

The table of paths of `c-os/kernel/fs/vfs.c`. A path is the list of the
bytes of a C string, without the final NUL.
-/
open Framework
namespace QosKernel
/-- The bytes of a C string. -/
abbrev CStr := List UInt8
def QOS_VFS_MAX_NODES : Nat := 128
abbrev NodeSlot := Fin QOS_VFS_MAX_NODES
def QOS_VFS_PATH_MAX : Nat := 128

/-- The text of a string literal. -/
def cstr (text : String) : CStr := text.toUTF8.toList

inductive VfsKind where
  | initramfs | tmpfs | procfs | ext2
  deriving DecidableEq

/-- The entries in use with their paths. `g_count` is their number. -/
structure Vfs where
  nodes : NodeSlot → Option CStr
  count : UInt32

namespace Vfs
variable {s : Vfs} {path : CStr}
def reset : Vfs := ⟨fun _ => none, 0⟩
def slash : UInt8 := 47

def path_is_mount_or_child (path mount_path : CStr) : Bool :=
  mount_path.isPrefixOf path &&
    (match path.drop mount_path.length with
      | [] => true
      | c :: _ => c == slash)

/-- An absolute path that fits in the table. -/
def path_valid (path : CStr) : Bool :=
  path.head? == some slash && decide (path.length < QOS_VFS_PATH_MAX)

section
variable (s : Vfs) (path : CStr)
def find_path : Option NodeSlot :=
  first fun i => s.nodes i == some path

def qos_vfs_create : Int × Vfs :=
  if !path_valid path then (-1, s)
  else if (s.find_path path).isSome then (-1, s)
  else
    match first fun i => (s.nodes i).isNone with
    | none => (-1, s)
    | some i => (0, { nodes := set s.nodes i (some path), count := s.count + 1 })

def qos_vfs_exists : Bool :=
  path_valid path && (s.find_path path).isSome

def qos_vfs_remove : Int × Vfs :=
  if !path_valid path then (-1, s)
  else
    match s.find_path path with
    | none => (-1, s)
    | some i => (0, { nodes := set s.nodes i none, count := s.count - 1 })
end
/-- The file system a path belongs to; `none` for an invalid path. -/
def qos_vfs_fs_kind (path : CStr) : Option VfsKind :=
  if !path_valid path then none
  else if path_is_mount_or_child path (cstr "/tmp") then some .tmpfs
  else if path_is_mount_or_child path (cstr "/proc") then some .procfs
  else if path_is_mount_or_child path (cstr "/data") then some .ext2
  else some .initramfs

/-! ### Membership -/
theorem find_path_isSome : (s.find_path path).isSome = true ↔ ∃ i, s.nodes i = some path := by
  rw [find_path, first_isSome]
  simp

theorem qos_vfs_exists_iff :
    s.qos_vfs_exists path = true ↔ path_valid path = true ∧ ∃ i, s.nodes i = some path := by
  rw [qos_vfs_exists, Bool.and_eq_true, find_path_isSome]

theorem path_valid_ne_nil (h : path_valid path = true) : path ≠ [] := by
  rintro rfl
  simp [path_valid] at h

theorem path_valid_length (h : path_valid path = true) : path.length < QOS_VFS_PATH_MAX := by
  simp only [path_valid, Bool.and_eq_true, decide_eq_true_eq] at h
  exact h.2

section
variable (s : Vfs) (path : CStr)
theorem qos_vfs_create_cases : s.qos_vfs_create path = (-1, s) ∨
    ∃ i, s.nodes i = none ∧ path_valid path = true ∧ (∀ j, s.nodes j ≠ some path) ∧
      s.qos_vfs_create path = (0, ⟨set s.nodes i (some path), s.count + 1⟩) := by
  unfold qos_vfs_create
  rcases hv : path_valid path with _ | _
  · exact .inl rfl
  rcases hs : (s.find_path path).isSome with _ | _
  · rcases hf : first fun i => (s.nodes i).isNone with _ | i
    · exact .inl rfl
    refine .inr ⟨i, by simpa using first_some hf, rfl, fun j hj => ?_, rfl⟩
    rw [find_path_isSome.mpr ⟨j, hj⟩] at hs
    cases hs
  exact .inl rfl

theorem qos_vfs_remove_cases : s.qos_vfs_remove path = (-1, s) ∨
    ∃ i, s.nodes i = some path ∧ path_valid path = true ∧
      s.qos_vfs_remove path = (0, ⟨set s.nodes i none, s.count - 1⟩) := by
  unfold qos_vfs_remove
  rcases hv : path_valid path with _ | _
  · exact .inl rfl
  rcases hf : s.find_path path with _ | i
  · exact .inl rfl
  exact .inr ⟨i, by simpa using first_some hf, rfl, rfl⟩
end
/-! ### The registry as a set of paths -/
inductive Call where
  | create (path : CStr)
  | remove (path : CStr)
  | exists (path : CStr)

def step (s : Vfs) : Call → Vfs
  | .create path => (s.qos_vfs_create path).2
  | .remove path => (s.qos_vfs_remove path).2
  | .exists _ => s

/-- A set takes a valid path that is new, if there is room. -/
abbrev Takes (S : Finset CStr) (path : CStr) : Prop :=
  path_valid path = true ∧ path ∉ S ∧ S.card < QOS_VFS_MAX_NODES

/-- The same calls on a set of paths. -/
def onSet (S : Finset CStr) : Call → Finset CStr
  | .create path => if Takes S path then insert path S else S
  | .remove path => S.erase path
  | .exists _ => S

/-- The table holds the paths of `S`, each once. -/
structure Represents (s : Vfs) (S : Finset CStr) : Prop where
  mem : ∀ path, path ∈ S ↔ Registered s.nodes path
  distinct : Distinct s.nodes
  valid : ∀ path ∈ S, path_valid path = true
  count : s.count.toNat = S.card

section
variable {s : Vfs} {S : Finset CStr} (h : Represents s S) (path : CStr)
include h
theorem Represents.create_iff : (s.qos_vfs_create path).1 = 0 ↔ Takes S path := by
  unfold Takes qos_vfs_create
  rw [h.mem, Registered, ← find_path_isSome, h.distinct.card_lt_iff h.mem]
  by_cases hv : path_valid path = true
  · by_cases hs : (s.find_path path).isSome = true
    · simp [hv, hs]
    cases hf : first fun i => (s.nodes i).isNone with
    | none => simpa [hv, hs, Option.isSome_iff_ne_none] using first_none.mp hf
    | some i => simpa [hv, hs] using ⟨i, Option.isNone_iff_eq_none.mp (first_some hf)⟩
  simp [hv]

theorem Represents.create : Represents (s.qos_vfs_create path).2 (onSet S (.create path)) := by
  have hiff := h.create_iff path
  dsimp only [onSet]
  obtain hc | ⟨i, hi, hv, hnew, hc⟩ := s.qos_vfs_create_cases path <;> rw [hc] at hiff ⊢
  · rw [if_neg (mt hiff.mpr nofun)]
    exact h
  obtain ⟨-, hnot, hlt⟩ := hiff.mp rfl
  rw [if_pos (hiff.mp rfl)]
  refine ⟨fun p => ?_, h.distinct.add (mt (h.mem path).mpr hnot),
    Finset.forall_mem_insert _ _ _ |>.mpr ⟨hv, h.valid⟩, ?_⟩
  · rw [registered_add hi, Finset.mem_insert, h.mem, or_comm]
  rw [Finset.card_insert_of_notMem hnot, UInt32.toNat_add, h.count]
  exact Nat.mod_eq_of_lt (Nat.lt_of_le_of_lt hlt (by decide))

theorem Represents.remove : Represents (s.qos_vfs_remove path).2 (onSet S (.remove path)) ∧
    ((s.qos_vfs_remove path).1 = 0 ↔ path ∈ S) := by
  dsimp only [onSet]
  have hfail : path ∉ S → Represents s (S.erase path) ∧ ((-1 : Int) = 0 ↔ path ∈ S) := by
    intro hnot
    rw [Finset.erase_eq_of_notMem hnot]
    exact ⟨h, iff_of_false (by decide) hnot⟩
  rw [qos_vfs_remove]
  split
  next hv => exact hfail fun hmem => by simp [h.valid path hmem] at hv
  cases hf : s.find_path path with
  | none =>
    apply hfail
    simp [h.mem, Registered, ← find_path_isSome, hf]
  | some i =>
  have hi : s.nodes i = some path := by simpa using first_some hf
  have hmem := (h.mem path).mpr ⟨i, hi⟩
  have hpos := Finset.card_pos.mpr ⟨path, hmem⟩
  refine ⟨⟨fun p => ?_, h.distinct.remove, fun p hp => h.valid p (Finset.mem_of_mem_erase hp), ?_⟩,
    iff_of_true rfl hmem⟩
  · rw [registered_remove h.distinct hi, Finset.mem_erase, h.mem, and_comm]
  rw [Finset.card_erase_of_mem hmem, UInt32.toNat_sub_of_le, h.count]
  · rfl
  rw [UInt32.le_iff_toNat_le, h.count]
  exact hpos
end
variable (calls : List Call)
theorem represents_run : Represents (calls.foldl step reset) (calls.foldl onSet ∅) := by
  induction calls using List.reverseRecOn with
  | nil => exact ⟨fun _ => by simp [Registered, reset], nofun, nofun, rfl⟩
  | append_singleton calls c h =>
  rw [List.foldl_append, List.foldl_append]
  cases c with
  | create path => exact h.create path
  | remove path => exact (h.remove path).1
  | «exists» _ => exact h

/-- After any calls the registry is a set of valid paths, and it answers the
next call as the set does. -/
theorem vfs_refines_set (path : CStr) :
    let s := calls.foldl step reset
    let S := calls.foldl onSet ∅
    (∀ p ∈ S, path_valid p = true) ∧ S.card ≤ QOS_VFS_MAX_NODES ∧ s.count.toNat = S.card ∧
    (s.qos_vfs_exists path = true ↔ path ∈ S) ∧
    ((s.qos_vfs_create path).1 = 0 ↔ Takes S path) ∧
    ((s.qos_vfs_remove path).1 = 0 ↔ path ∈ S) ∧
    ((s.qos_vfs_create path).1 ≠ 0 → s.qos_vfs_create path = (-1, s)) ∧
    ((s.qos_vfs_remove path).1 ≠ 0 → s.qos_vfs_remove path = (-1, s)) := by
  intro s S
  have h := represents_run calls
  refine ⟨h.valid, h.distinct.card_le h.mem, h.count, ?_, h.create_iff path, (h.remove path).2,
    ?_, ?_⟩
  · rw [qos_vfs_exists_iff, ← Registered, ← h.mem, and_iff_right_iff_imp]
    exact h.valid path
  · intro hne
    exact (s.qos_vfs_create_cases path).resolve_right fun ⟨i, _, _, _, hc⟩ => hne (by rw [hc])
  intro hne
  exact (s.qos_vfs_remove_cases path).resolve_right fun ⟨i, _, _, hc⟩ => hne (by rw [hc])
end Vfs
end QosKernel
