import QosKernel.Exec.ElfCompare
import QosKernel.Exec.RustLibs
import QosKernel.Syscall.RustBounds

/-! # The libraries and modules of the Rust kernel keep short paths

Every path in the two tables fits into its buffer. With this, and with the
sizes of the files, none of the checks in loading and unloading fails.
-/
open Framework Framework.Checked
namespace QosKernel
structure Libs.Sized (l : Libs) : Prop where
  shlibs : ∀ i, (l.shlibs i).path.length < QOS_VFS_PATH_MAX
  modules : ∀ m, (l.modules m).path.length < QOS_VFS_PATH_MAX

namespace Libs
variable {l : Libs}
theorem sized_reset : reset.Sized := ⟨fun _ => Nat.zero_lt_succ _, fun _ => Nat.zero_lt_succ _⟩

theorem Sized.setShlib (h : l.Sized) (i : LibSlot) {row : Shlib}
    (hrow : row.path.length < QOS_VFS_PATH_MAX) : (l.setShlib i row).Sized := by
  refine ⟨fun j => ?_, h.modules⟩
  change (set l.shlibs i row j).path.length < QOS_VFS_PATH_MAX
  by_cases hj : j = i
  · subst hj
    rw [set_self]
    exact hrow
  rw [set_ne hj]
  exact h.shlibs j

theorem Sized.setModule (h : l.Sized) (m : ModuleSlot) {row : Module}
    (hrow : row.path.length < QOS_VFS_PATH_MAX) : (l.setModule m row).Sized := by
  refine ⟨h.shlibs, fun j => ?_⟩
  change (set l.modules m row j).path.length < QOS_VFS_PATH_MAX
  by_cases hj : j = m
  · subst hj
    rw [set_self]
    exact hrow
  rw [set_ne hj]
  exact h.modules j

theorem Sized.release (h : l.Sized) (handle : UInt32) :
    (l.shlib_release_handle handle).2.Sized := by
  unfold shlib_release_handle
  split
  · exact h
  next i _ =>
  split
  · exact h
  refine h.setShlib i ?_
  split
  · exact Nat.zero_lt_succ _
  exact h.shlibs i

theorem Sized.unload (h : l.Sized) (module_id : UInt32) :
    (l.module_unload_id module_id).2.Sized := by
  unfold module_unload_id
  split
  · exact h
  next m _ =>
  have hfree : (l.setModule m .free).Sized := h.setModule m (Nat.zero_lt_succ _)
  dsimp only
  split
  · exact hfree.release _
  exact hfree
end Libs
namespace RustCalls
variable {k : KState} {l : Libs}
/-! ### Images -/
theorem parsed_returns {α : Type} {x : Attempt α} (h : x ≠ .fault) :
    Returns (parsed x) fun _ => True := by
  cases x with
  | ok a | giveUp => exact returns_ok trivial
  | fault => exact absurd rfl h

theorem parse_exec_returns (image : Image) :
    Returns (parsed (RustElf.parse_exec_elf_image image)) fun _ => True := by
  refine parsed_returns ?_
  rw [← parse_exec_elf_image_eq]
  exact CElf.parse_exec_elf_image_ne_fault image

theorem parse_shared_returns (image : Image) :
    Returns (parse_shared_elf_image image) fun _ => True := by
  unfold parse_shared_elf_image
  refine returns_ite (fun _ => returns_ok trivial) fun hlen => ?_
  have hlong : 64 ≤ image.bytes.length := Nat.le_of_not_lt hlen
  rw [RustElf.elf_u16_eq (by omega)]
  refine returns_guard trivial ?_
  exact (parse_exec_returns image).bind fun _ _ => returns_ok trivial

/-! ### Loading and unloading -/
theorem shlib_find_path_eq (h : l.Sized) (path : CStr) :
    syscall_shlib_find_path l path = .ok (l.shlib_find_slot_by_path path) := by
  rw [syscall_shlib_find_path, findPath_eq]
  · refine congrArg Except.ok (first_congr fun i => ?_)
    cases (l.shlibs i).used with
    | false | true => rfl
  intro i p hp
  split at hp
  · cases hp
    exact h.shlibs i
  cases hp

theorem module_find_path_eq (h : l.Sized) (path : CStr) :
    syscall_module_find_path l path = .ok (l.module_find_slot_by_path path) := by
  rw [syscall_module_find_path, findPath_eq]
  · refine congrArg Except.ok (first_congr fun m => ?_)
    cases (l.modules m).used with
    | false | true => rfl
  intro m p hp
  split at hp
  · cases hp
    exact h.modules m
  cases hp

section loading
variable (hk : k.Sized) (hl : l.Sized) {path : CStr}
include hk hl
theorem shlib_add_returns (hpath : path.length < QOS_VFS_PATH_MAX) :
    Returns (shlib_add k l path) fun r => r.2.Sized := by
  unfold shlib_add
  rw [syscall_file_find_eq hk, ok_bind]
  split
  · exact returns_ok hl
  next f _ =>
  refine returns_guard hl ?_
  refine returns_guard hl ?_
  refine (returns_slice (Nat.zero_le _) (hk.files f).len).bind fun _ _ => ?_
  refine (parse_shared_returns _).bind fun _ _ => ?_
  refine returns_guard hl ?_
  split
  · exact returns_ok hl
  next slot _ =>
  refine returns_ok ?_
  have hnext : l.shlib_next_handle.2.Sized := ⟨hl.shlibs, hl.modules⟩
  refine hnext.setShlib slot ?_
  exact hpath

theorem shlib_load_returns (path : CStr) (force_new : Bool) :
    Returns (syscall_shlib_load k l path force_new) fun r => r.2.Sized := by
  unfold syscall_shlib_load
  cases hvalid : Vfs.path_valid path with
  | false => exact returns_ok hl
  | true =>
  have hadd := shlib_add_returns hk hl (Vfs.path_valid_length hvalid)
  rw [Bool.not_true, if_neg Bool.false_ne_true, shlib_find_path_eq hl]
  cases force_new with
  | true => exact hadd
  | false =>
  rw [if_neg Bool.false_ne_true, ok_bind]
  dsimp only
  split
  next slot _ => exact returns_ok (hl.setShlib slot (hl.shlibs slot))
  · exact hadd

theorem module_load_returns (path : CStr) :
    Returns (syscall_module_load k l path) fun r => r.2.Sized := by
  unfold syscall_module_load
  cases hvalid : Vfs.path_valid path with
  | false => exact returns_ok hl
  | true =>
  rw [Bool.not_true, if_neg Bool.false_ne_true, module_find_path_eq hl, ok_bind]
  split
  · exact returns_ok hl
  refine (shlib_load_returns hk hl path false).bind fun r hr => ?_
  split
  · exact returns_ok hr
  next handle _ =>
  refine returns_ok ?_
  unfold module_add
  split
  · exact hr.release handle
  next m _ =>
  have hnext : r.2.module_next_id.2.Sized := ⟨hr.shlibs, hr.modules⟩
  refine hnext.setModule m ?_
  exact Vfs.path_valid_length hvalid

theorem module_reload_returns (module_id : UInt32) :
    Returns (syscall_module_reload k l module_id) fun r => r.2.Sized := by
  unfold syscall_module_reload
  split
  · exact returns_ok hl
  next m _ =>
  refine returns_guard hl ?_
  refine (shlib_load_returns hk hl _ true).bind fun r hr => ?_
  split
  · exact returns_ok hr
  refine returns_ok ?_
  dsimp only
  split
  · refine Libs.Sized.release (hr.setModule m ?_) _
    exact hr.modules m
  refine hr.setModule m ?_
  exact hr.modules m
end loading
end RustCalls
end QosKernel
