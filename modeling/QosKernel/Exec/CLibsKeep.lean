import QosKernel.Framework.RefCount
import QosKernel.Exec.CLibs

/-! # What the library calls do to the counts

`shlib_load_path` either refuses, or counts one more reference to a library
that is there, or adds a library: its `LoadPlan`. Everything else follows
from the plan and from `shlib_release_handle`.

`Accounts` is the invariant: every count is the number of modules that hold
the library plus a number of references `outside` of the module table.
-/
open Framework
namespace QosKernel
variable {h : UInt32} {row : Shlib}
theorem nextNonzero_of_ne {counter : UInt32} (h : counter ≠ 0) :
    nextNonzero counter = (counter, counter + 1) := by
  simp [nextNonzero, h]

theorem nextNonzero_ne_zero (counter : UInt32) : (nextNonzero counter).1 ≠ 0 := by
  by_cases h : counter = 0
  · subst h
    decide
  rw [nextNonzero_of_ne h]
  exact h

/-! ### Rows -/
/-- The handle and the count of a live library. -/
def Shlib.view (row : Shlib) : Option (UInt32 × Nat) :=
  if row.used then some (row.handle, row.refcount.toNat) else none

theorem Shlib.view_eq_some {c : Nat} :
    row.view = some (h, c) ↔ row.used = true ∧ row.handle = h ∧ row.refcount.toNat = c := by
  unfold view
  split <;> simp_all

theorem Shlib.view_eq_none : row.view = none ↔ row.used = false := by
  unfold view
  split <;> simp_all

/-- Two rows of one live library; only its count may differ. -/
structure Shlib.Same (row row' : Shlib) : Prop where
  used : row.used = true
  used' : row'.used = true
  handle : row.handle = row'.handle
  file_id : row.file_id = row'.file_id
  path : row.path = row'.path

theorem Shlib.Same.refl (h : row.used = true) : row.Same row := ⟨h, h, rfl, rfl, rfl⟩

theorem Shlib.Same.trans {a b c : Shlib} (h : a.Same b) (h' : b.Same c) : a.Same c :=
  ⟨h.used, h'.used', h.handle.trans h'.handle, h.file_id.trans h'.file_id, h.path.trans h'.path⟩

/-- The module is loaded and holds the library with this handle. -/
def Module.holds (h : UInt32) (row : Module) : Bool := row.used && row.shlib_handle == h

namespace Libs
/-! ### Plans -/
inductive LoadPlan where
  | refuse
  | share (i : LibSlot)
  | add (i : LibSlot) (f : FileSlot) (path : CStr)

variable {plan : LoadPlan}
section
variable (k : KState) (l : Libs)
/-- The plan for a library that is not to be shared. -/
def addPlan (path : CStr) : LoadPlan :=
  match loadable k path, l.shlib_free_slot with
  | some f, some i => .add i f path
  | _, _ => .refuse

def loadPlan (path : Option CStr) (force_new : Bool) : LoadPlan :=
  match path with
  | none => .refuse
  | some path =>
    if path.head? ≠ some Vfs.slash then .refuse
    else if force_new then l.addPlan k path
    else
      match l.shlib_find_slot_by_path path with
      | some i => .share i
      | none => l.addPlan k path
end
section
variable (l : Libs)
section
variable (i : LibSlot)
/-- One more reference to the library in a slot. -/
def addRef : Libs :=
  l.setShlib i { l.shlibs i with refcount := (l.shlibs i).refcount + 1 }

/-- One reference less; the last one frees the slot. -/
def dropRef : Libs :=
  l.setShlib i (if (l.shlibs i).refcount - 1 == 0 then .free
    else { l.shlibs i with refcount := (l.shlibs i).refcount - 1 })
end
/-- The handle that the next new library gets. -/
def newHandle : UInt32 := (nextNonzero l.next_handle).1

def addLib (i : LibSlot) (f : FileSlot) (path : CStr) : Libs :=
  { l with next_handle := (nextNonzero l.next_handle).2 }.setShlib i
    ⟨true, l.newHandle, 1, .ofNat f.val, path.take (QOS_FILE_PATH_MAX - 1)⟩

/-- The handle a plan ends with. -/
def LoadPlan.handle : LoadPlan → Option UInt32
  | .refuse => none
  | .share i => some (l.shlibs i).handle
  | .add _ _ _ => some l.newHandle

def LoadPlan.apply : LoadPlan → Libs
  | .refuse => l
  | .share i => l.addRef i
  | .add i f path => l.addLib i f path

/-- What a plan knows about the table. -/
def LoadPlan.Ok : LoadPlan → Prop
  | .refuse => True
  | .share i => (l.shlibs i).used = true
  | .add i _ _ => (l.shlibs i).used = false
end
variable {k : KState} {l : Libs} {path : Option CStr} {force_new : Bool} {p : CStr}
theorem take_ne_nil (h : p.head? = some Vfs.slash) :
    (p.take (QOS_FILE_PATH_MAX - 1)).isEmpty = false := by
  cases p with
  | nil => cases h
  | cons c rest => rfl

theorem shlib_add_eq (h : p.head? = some Vfs.slash) :
    l.shlib_add k p =
      (((l.addPlan k p).handle l).elim (-1) UInt32.toInt32, (l.addPlan k p).apply l) := by
  unfold shlib_add addPlan
  cases loadable k p with
  | none => rfl
  | some f =>
  cases l.shlib_free_slot with
  | none => rfl
  | some i =>
  simp only [take_ne_nil h]
  rfl

theorem shlib_load_path_eq :
    l.shlib_load_path k path force_new =
      (((l.loadPlan k path force_new).handle l).elim (-1) UInt32.toInt32,
        (l.loadPlan k path force_new).apply l) := by
  unfold shlib_load_path loadPlan
  cases path with
  | none => rfl
  | some p =>
  dsimp only
  split
  · rfl
  rename_i hslash
  have hslash := not_not.mp hslash
  split
  · exact shlib_add_eq hslash
  cases l.shlib_find_slot_by_path p with
  | some i => rfl
  | none => exact shlib_add_eq hslash

theorem addPlan_ok : (l.addPlan k p).Ok l := by
  unfold addPlan
  split
  · rename_i hfree
    simpa [LoadPlan.Ok] using first_some hfree
  trivial

theorem loadPlan_ok : (l.loadPlan k path force_new).Ok l := by
  unfold loadPlan
  cases path with
  | none => trivial
  | some p =>
  dsimp only
  split
  · trivial
  split
  · exact addPlan_ok
  cases hfind : l.shlib_find_slot_by_path p with
  | some i => exact (Bool.and_eq_true_iff.mp (first_some hfind)).1
  | none => exact addPlan_ok

theorem used_of_find {handle : UInt32} {i : LibSlot}
    (h : l.shlib_find_slot_by_handle handle = some i) : (l.shlibs i).used = true := by
  unfold shlib_find_slot_by_handle at h
  split at h
  · cases h
  exact (Bool.and_eq_true_iff.mp (first_some h)).1

theorem handle_of_find {handle : UInt32} {i : LibSlot}
    (h : l.shlib_find_slot_by_handle handle = some i) : (l.shlibs i).handle = handle := by
  unfold shlib_find_slot_by_handle at h
  split at h
  · cases h
  exact beq_iff_eq.mp (Bool.and_eq_true_iff.mp (first_some h)).2

theorem shlib_release_handle_eq (handle : UInt32) :
    l.shlib_release_handle handle = match l.shlib_find_slot_by_handle handle with
      | none => (-1, l)
      | some i => if (l.shlibs i).refcount = 0 then (-1, l) else (0, l.dropRef i) := by
  unfold shlib_release_handle
  cases l.shlib_find_slot_by_handle handle with
  | none => rfl
  | some i => simp [dropRef]

/-! ### The table as counts -/
def view (l : Libs) : LibSlot → Option (UInt32 × Nat) := fun i => (l.shlibs i).view

/-- The number of loaded modules that hold the library with this handle. -/
def holding (l : Libs) (h : UInt32) : Nat := slotCount (Module.holds h) l.modules

theorem view_setShlib (i : LibSlot) (row : Shlib) :
    (l.setShlib i row).view = set l.view i row.view :=
  set_comp Shlib.view

theorem view_congr {l' : Libs} (h : l'.shlibs = l.shlibs) : l'.view = l.view := by
  unfold view
  rw [h]

@[simp] theorem holding_setShlib (i : LibSlot) (row : Shlib) :
    (l.setShlib i row).holding = l.holding := rfl

@[simp] theorem holding_apply (plan : LoadPlan) : (plan.apply l).holding = l.holding := by
  cases plan <;> rfl

variable {i : LibSlot} {m : ModuleSlot} {h : UInt32} {c : Nat}
  {outside : UInt32 → Nat}
theorem view_addRef (hi : l.view i = some (h, c)) (hc : c + 1 < 2 ^ 32) :
    (l.addRef i).view = set l.view i (some (h, c + 1)) := by
  obtain ⟨hused, hhandle, hcount⟩ := Shlib.view_eq_some.mp hi
  rw [addRef, view_setShlib]
  congr 1
  rw [Shlib.view_eq_some]
  refine ⟨hused, hhandle, ?_⟩
  rw [UInt32.toNat_add, UInt32.toNat_one]
  omega

theorem view_dropRef (hi : l.view i = some (h, c)) (hc : 0 < c) :
    (l.dropRef i).view = set l.view i (if c - 1 = 0 then none else some (h, c - 1)) := by
  obtain ⟨hused, hhandle, hcount⟩ := Shlib.view_eq_some.mp hi
  have hleft : ((l.shlibs i).refcount - 1).toNat = c - 1 := by
    rw [UInt32.toNat_sub_of_le _ _ (UInt32.le_iff_toNat_le.mpr (by rw [UInt32.toNat_one]; omega)),
      UInt32.toNat_one, hcount]
  have hzero : ((l.shlibs i).refcount - 1 == 0) = decide (c - 1 = 0) := by
    rw [beq_eq_decide, ← hleft]
    simp [← UInt32.toNat_inj]
  rw [dropRef, view_setShlib, hzero]
  congr 1
  by_cases hlast : c - 1 = 0
  · simp [hlast, Shlib.view, Shlib.free]
  simp [hlast, Shlib.view, hused, hhandle, hleft]

theorem view_addLib (i : LibSlot) (f : FileSlot) (p : CStr) :
    (l.addLib i f p).view = set l.view i (some (l.newHandle, 1)) :=
  view_setShlib i _

/-! ### Accounts -/
/-- Every count is the number of modules that hold the library and of the
references `outside` of the module table. -/
structure Accounts (l : Libs) (outside : UInt32 → Nat) : Prop where
  counted : Counted l.view fun h => outside h + l.holding h
  handles : ∀ i c, l.view i ≠ some (0, c)

theorem Accounts.set_handles (ha : l.Accounts outside) {row : Option (UInt32 × Nat)}
    (hrow : ∀ c, row ≠ some (0, c)) (j : LibSlot) (c : Nat) :
    set l.view i row j ≠ some (0, c) := by
  by_cases hj : j = i
  · rw [hj, set_self]
    exact hrow c
  rw [set_ne hj]
  exact ha.handles j c

/-- A new library gets a handle that no library has, and no count is at its bound. -/
structure Room (l : Libs) : Prop where
  handle : ∀ i, (l.shlibs i).used = true → (l.shlibs i).handle ≠ l.newHandle
  count : ∀ i, (l.shlibs i).used = true → (l.shlibs i).refcount ≠ 0xFFFFFFFF

section
variable (ha : l.Accounts outside)
include ha
theorem Accounts.find (hi : l.view i = some (h, c)) : l.shlib_find_slot_by_handle h = some i := by
  obtain ⟨hused, rfl, hcount⟩ := Shlib.view_eq_some.mp hi
  have hzero : (l.shlibs i).handle ≠ 0 := fun e => ha.handles i c (e ▸ hi)
  unfold shlib_find_slot_by_handle
  rw [if_neg (by simpa using hzero)]
  refine first_eq_some (by simp [hused]) fun j hj => ?_
  simp only [Bool.and_eq_true, beq_iff_eq] at hj
  exact ha.counted.distinct j i _ _ c (Shlib.view_eq_some.mpr ⟨hj.1, hj.2, rfl⟩) hi

theorem Accounts.release (hh : 0 < outside h + l.holding h) :
    ∃ i c, l.view i = some (h, c) ∧ 0 < c ∧ l.shlib_release_handle h = (0, l.dropRef i) := by
  obtain ⟨i, c, hi⟩ := ha.counted.live h hh
  have hc := ha.counted.used i h c hi
  refine ⟨i, c, hi, hc, ?_⟩
  have hcount := (Shlib.view_eq_some.mp hi).2.2
  have hne : (l.shlibs i).refcount ≠ 0 := by
    intro hzero
    rw [hzero] at hcount
    simp at hcount
    omega
  rw [shlib_release_handle_eq, ha.find hi]
  simp [hne]

theorem Accounts.move {l' : Libs} {outside' : UInt32 → Nat} (hlibs : l'.shlibs = l.shlibs)
    (hrefs : ∀ h, outside' h + l'.holding h = outside h + l.holding h) : l'.Accounts outside' where
  counted := by
    rw [view_congr hlibs, funext hrefs]
    exact ha.counted
  handles := by
    rw [view_congr hlibs]
    exact ha.handles

theorem Accounts.load (hroom : l.Room) (hok : plan.Ok l)
    (hh : plan.handle l = some h) : (plan.apply l).Accounts (bump outside h) := by
  have hrefs : (fun k => bump outside h k + (plan.apply l).holding k) =
      bump (fun k => outside k + l.holding k) h := by
    funext k
    rw [holding_apply]
    by_cases hk : k = h
    · subst hk
      rw [bump_self, bump_self]
      omega
    rw [bump_ne hk, bump_ne hk]
  cases plan with
  | refuse => cases hh
  | share i =>
    cases hh
    have hi : l.view i = some ((l.shlibs i).handle, (l.shlibs i).refcount.toNat) :=
      Shlib.view_eq_some.mpr ⟨hok, rfl, rfl⟩
    have hbound : (l.shlibs i).refcount.toNat + 1 < 2 ^ 32 := by
      have hlt := (l.shlibs i).refcount.toNat_lt
      have hne : (l.shlibs i).refcount.toNat ≠ 0xFFFFFFFF :=
        fun e => hroom.count i hok (UInt32.toNat_inj.mp e)
      omega
    refine ⟨?_, ?_⟩
    · rw [hrefs, LoadPlan.apply, view_addRef hi hbound]
      exact ha.counted.acquire hi
    rw [LoadPlan.apply, view_addRef hi hbound]
    refine ha.set_handles fun c hrow => ?_
    have hzero : (l.shlibs i).handle = 0 := congrArg Prod.fst (Option.some.inj hrow)
    rw [hzero] at hi
    exact ha.handles i _ hi
  | add i f p =>
  cases hh
  have hi : l.view i = none := Shlib.view_eq_none.mpr hok
  -- no live library has the new handle, so nothing refers to it
  have hnone : outside l.newHandle + l.holding l.newHandle = 0 := by
    by_contra hpos
    obtain ⟨j, c, hj⟩ := ha.counted.live l.newHandle (Nat.pos_of_ne_zero hpos)
    obtain ⟨hused, hhandle, -⟩ := Shlib.view_eq_some.mp hj
    exact hroom.handle j hused hhandle
  refine ⟨?_, ?_⟩
  · rw [hrefs, LoadPlan.apply, view_addLib]
    exact ha.counted.add hi hnone
  rw [LoadPlan.apply, view_addLib]
  refine ha.set_handles fun c hrow => nextNonzero_ne_zero l.next_handle ?_
  exact congrArg Prod.fst (Option.some.inj hrow)

theorem Accounts.giveBack (hh : 0 < outside h) :
    (l.shlib_release_handle h).1 = 0 ∧ (l.shlib_release_handle h).2.Accounts (drop outside h) := by
  obtain ⟨i, c, hi, hc, hrel⟩ := ha.release (h := h) (by omega)
  have hrefs : (fun k => drop outside h k + (l.dropRef i).holding k) =
      drop (fun k => outside k + l.holding k) h := by
    funext k
    rw [dropRef, holding_setShlib]
    by_cases hk : k = h
    · subst hk
      rw [drop_self, drop_self]
      omega
    rw [drop_ne hk, drop_ne hk]
  rw [hrel]
  refine ⟨rfl, ?_, ?_⟩
  · rw [hrefs, view_dropRef hi hc]
    exact ha.counted.release hi
  rw [view_dropRef hi hc]
  refine ha.set_handles fun d hrow => ?_
  split at hrow
  · cases hrow
  cases hrow
  exact ha.handles i c hi
end
/-! ### The operations -/
theorem drop_bump (outside : UInt32 → Nat) (h : UInt32) : drop (bump outside h) h = outside := by
  funext k
  by_cases hk : k = h
  · subst hk
    rw [drop_self, bump_self]
    omega
  rw [drop_ne hk, bump_ne hk]

theorem holding_setModule (m : ModuleSlot) (row : Module) (h : UInt32) :
    (l.setModule m row).holding h + ((l.modules m).holds h).toNat =
      l.holding h + (row.holds h).toNat :=
  slotCount_set

theorem Accounts.take (ha : l.Accounts (bump outside h)) (hm : (l.modules m).used = false)
    {row : Module} (hrow : row.used = true) (hhandle : row.shlib_handle = h) :
    (l.setModule m row).Accounts outside := by
  refine ha.move rfl fun k => ?_
  have hset := holding_setModule (l := l) m row k
  have hold : (l.modules m).holds k = false := by simp [Module.holds, hm]
  rw [hold] at hset
  by_cases hk : k = h
  · subst hk
    have hnew : row.holds k = true := by simp [Module.holds, hrow, hhandle]
    rw [hnew] at hset
    rw [bump_self]
    simp at hset
    omega
  have hnew : row.holds k = false := by simp [Module.holds, hhandle, Ne.symm hk]
  rw [hnew] at hset
  rw [bump_ne hk]
  simp at hset
  omega

theorem Accounts.letGo (ha : l.Accounts outside) (hm : (l.modules m).used = true) :
    (l.setModule m .free).Accounts (bump outside (l.modules m).shlib_handle) := by
  refine ha.move rfl fun k => ?_
  have hset := holding_setModule (l := l) m .free k
  have hnew : Module.holds k .free = false := rfl
  rw [hnew] at hset
  by_cases hk : k = (l.modules m).shlib_handle
  · subst hk
    have hold : (l.modules m).holds (l.modules m).shlib_handle = true := by simp [Module.holds, hm]
    rw [hold] at hset
    rw [bump_self]
    simp at hset
    omega
  have hold : (l.modules m).holds k = false := by simp [Module.holds, Ne.symm hk]
  rw [hold] at hset
  rw [bump_ne hk]
  simp at hset
  omega

theorem bump_comm (outside : UInt32 → Nat) (h h' : UInt32) :
    bump (bump outside h) h' = bump (bump outside h') h := by
  funext k
  unfold bump
  by_cases hk : k = h <;> by_cases hk' : k = h' <;> simp_all [Function.update_apply]

section
variable (k : KState) (l : Libs)
/-- The library that `MODLOAD` asks for; none if the module is there already. -/
def modPlan (path : Option CStr) : LoadPlan :=
  if (path.bind l.module_find_slot_by_path).isSome then .refuse else l.loadPlan k path false

/-- The library that `MODRELOAD` asks for. -/
def reloadPlan (module_id : UInt32) : LoadPlan :=
  match l.module_find_slot_by_id module_id with
  | none => .refuse
  | some m => l.loadPlan k (some (l.modules m).path) true

theorem modPlan_ok (path : Option CStr) : (l.modPlan k path).Ok l := by
  unfold modPlan
  split
  · trivial
  exact loadPlan_ok
end
theorem reloadPlan_ok (module_id : UInt32) : (l.reloadPlan k module_id).Ok l := by
  unfold reloadPlan
  cases l.module_find_slot_by_id module_id with
  | none => trivial
  | some m => exact loadPlan_ok

theorem apply_of_handle_none (hh : plan.handle l = none) : plan.apply l = l := by
  cases plan with
  | refuse => rfl
  | share i | add i f p => cases hh

theorem module_load_path_cases (k : KState) (l : Libs) (path : Option CStr) :
    ((l.modPlan k path).handle l = none ∧ (l.module_load_path k path).2 = l) ∨
    ∃ p h, path = some p ∧ p.head? = some Vfs.slash ∧ (l.modPlan k path).handle l = some h ∧
      ((2 ^ 31 ≤ h.toNat ∧ l.module_load_path k path = (-1, (l.modPlan k path).apply l)) ∨
       (h.toNat < 2 ^ 31 ∧
        l.module_load_path k path = ((l.modPlan k path).apply l).module_add p h.toInt32)) := by
  unfold module_load_path
  cases path with
  | none => exact .inl ⟨rfl, rfl⟩
  | some p =>
  dsimp only
  split
  · rename_i hslash
    refine .inl ⟨?_, rfl⟩
    unfold modPlan loadPlan
    split
    · rfl
    dsimp only
    rw [if_pos hslash]
    rfl
  rename_i hslash
  have hslash := not_not.mp hslash
  cases hm : l.module_find_slot_by_path p with
  | some m =>
    refine .inl ⟨?_, rfl⟩
    simp [modPlan, hm, LoadPlan.handle]
  | none =>
  have hplan : l.modPlan k (some p) = l.loadPlan k (some p) false := by simp [modPlan, hm]
  rw [hplan, shlib_load_path_eq]
  cases hh : (l.loadPlan k (some p) false).handle l with
  | none => exact .inl ⟨rfl, apply_of_handle_none hh⟩
  | some h =>
  refine .inr ⟨p, h, rfl, hslash, rfl, ?_⟩
  by_cases hneg : 2 ^ 31 ≤ h.toNat
  · exact .inl ⟨hneg, if_pos (toInt32_neg.mpr hneg)⟩
  exact .inr ⟨Nat.lt_of_not_le hneg, if_neg fun hlt => hneg (toInt32_neg.mp hlt)⟩

theorem module_add_cases (l : Libs) (handle : Int32) (hp : p.head? = some Vfs.slash) :
    (l.module_free_slot = none ∧
      l.module_add p handle = (-1, (l.shlib_release_handle handle.toUInt32).2)) ∨
    ∃ m, l.module_free_slot = some m ∧ (l.modules m).used = false ∧
      l.module_add p handle = ((nextNonzero l.next_id).1.toInt32,
        { l with next_id := (nextNonzero l.next_id).2 }.setModule m
          ⟨true, (nextNonzero l.next_id).1, 1, handle.toUInt32, p.take (QOS_FILE_PATH_MAX - 1)⟩) := by
  unfold module_add
  cases hfree : l.module_free_slot with
  | none => exact .inl ⟨rfl, rfl⟩
  | some m =>
  refine .inr ⟨m, rfl, by simpa using first_some hfree, ?_⟩
  simp only [take_ne_nil hp]
  rfl

theorem modules_apply (plan : LoadPlan) : (plan.apply l).modules = l.modules := by
  cases plan <;> rfl

theorem modules_release (handle : UInt32) :
    (l.shlib_release_handle handle).2.modules = l.modules := by
  rw [shlib_release_handle_eq]
  split
  · rfl
  split <;> rfl

theorem setModule_setModule (m : ModuleSlot) (row row' : Module) :
    (l.setModule m row).setModule m row' = l.setModule m row' := by
  simp [setModule]

theorem module_used_of_find {module_id : UInt32} (h : l.module_find_slot_by_id module_id = some m) :
    (l.modules m).used = true := by
  unfold module_find_slot_by_id at h
  split at h
  · cases h
  exact (Bool.and_eq_true_iff.mp (first_some h)).1

/-- No library has the handle 0, so the test before a release makes no difference. -/
theorem release_nonzero (handle : UInt32) :
    (if handle != 0 then (l.shlib_release_handle handle).2 else l) =
      (l.shlib_release_handle handle).2 := by
  by_cases hzero : handle = 0
  · subst hzero
    rfl
  simp [hzero]

theorem module_unload_id_cases (l : Libs) (module_id : UInt32) :
    l.module_unload_id module_id = (-1, l) ∨
    ∃ m, l.module_find_slot_by_id module_id = some m ∧ (l.modules m).used = true ∧
      l.module_unload_id module_id =
        (0, ((l.setModule m .free).shlib_release_handle (l.modules m).shlib_handle).2) := by
  unfold module_unload_id
  cases hfind : l.module_find_slot_by_id module_id with
  | none => exact .inl rfl
  | some m => exact .inr ⟨m, rfl, module_used_of_find hfind, by simp only [release_nonzero]⟩

/-- The row of a module after a reload. -/
def reloaded (row : Module) (handle : UInt32) : Module :=
  { row with
    shlib_handle := handle
    generation := if row.generation + 1 == 0 then 1 else row.generation + 1 }

theorem module_reload_id_cases (k : KState) (l : Libs) (module_id : UInt32) :
    ((l.reloadPlan k module_id).handle l = none ∧ l.module_reload_id k module_id = (-1, l)) ∨
    ∃ m h, l.module_find_slot_by_id module_id = some m ∧ (l.modules m).used = true ∧
      (l.reloadPlan k module_id).handle l = some h ∧
      ((2 ^ 31 ≤ h.toNat ∧ l.module_reload_id k module_id = (-1, (l.reloadPlan k module_id).apply l))
       ∨ (h.toNat < 2 ^ 31 ∧ l.module_reload_id k module_id =
        ((reloaded (l.modules m) h).generation.toInt32,
          ((((l.reloadPlan k module_id).apply l).setModule m
            (reloaded (l.modules m) h)).shlib_release_handle (l.modules m).shlib_handle).2))) := by
  unfold module_reload_id reloadPlan
  cases hfind : l.module_find_slot_by_id module_id with
  | none => exact .inl ⟨rfl, rfl⟩
  | some m =>
  dsimp only
  rw [shlib_load_path_eq]
  cases hh : (l.loadPlan k (some (l.modules m).path) true).handle l with
  | none =>
    refine .inl ⟨rfl, ?_⟩
    rw [apply_of_handle_none hh]
    rfl
  | some h =>
  refine .inr ⟨m, h, rfl, module_used_of_find hfind, rfl, ?_⟩
  by_cases hneg : 2 ^ 31 ≤ h.toNat
  · exact .inl ⟨hneg, if_pos (toInt32_neg.mpr hneg)⟩
  refine .inr ⟨Nat.lt_of_not_le hneg, ?_⟩
  refine (if_neg fun hlt => hneg (toInt32_neg.mp hlt)).trans ?_
  simp only [release_nonzero, modules_apply]
  rfl

/-! ### Free slots are empty -/
/-- A slot that is not in use holds nothing, and a live library has a handle. -/
structure Tidy (l : Libs) : Prop where
  free : ∀ i, (l.shlibs i).used = false → l.shlibs i = .free
  handle : ∀ i, (l.shlibs i).used = true → (l.shlibs i).handle ≠ 0

section
variable (ht : l.Tidy)
include ht
theorem Tidy.write (i : LibSlot) (row : Shlib) (hfree : row.used = false → row = .free)
    (hhandle : row.used = true → row.handle ≠ 0) {l' : Libs}
    (hl' : l'.shlibs = set l.shlibs i row) : l'.Tidy := by
  constructor
  · intro j hj
    rw [hl'] at hj ⊢
    by_cases hji : j = i
    · subst hji
      rw [set_self] at hj ⊢
      exact hfree hj
    rw [set_ne hji] at hj ⊢
    exact ht.free j hj
  intro j hj
  rw [hl'] at hj ⊢
  by_cases hji : j = i
  · subst hji
    rw [set_self] at hj ⊢
    exact hhandle hj
  rw [set_ne hji] at hj ⊢
  exact ht.handle j hj

theorem Tidy.modules {l' : Libs} (hlibs : l'.shlibs = l.shlibs) : l'.Tidy := by
  constructor
  · rw [hlibs]
    exact ht.free
  rw [hlibs]
  exact ht.handle

theorem Tidy.apply (hok : plan.Ok l) : (plan.apply l).Tidy := by
  cases plan with
  | refuse => exact ht
  | share i =>
    refine ht.write i { l.shlibs i with refcount := (l.shlibs i).refcount + 1 } ?_
      (fun _ => ht.handle i hok) rfl
    intro hused
    cases (hok : (l.shlibs i).used = true).symm.trans hused
  | add i f p =>
  refine ht.write i _ ?_ (fun _ => nextNonzero_ne_zero l.next_handle) rfl
  intro hused
  cases hused

theorem Tidy.release (handle : UInt32) : (l.shlib_release_handle handle).2.Tidy := by
  rw [shlib_release_handle_eq]
  split
  · exact ht
  rename_i i hfind
  have hi := used_of_find hfind
  split
  · exact ht
  by_cases hleft : ((l.shlibs i).refcount - 1 == 0) = true
  · refine ht.write i .free (fun _ => rfl) (fun hused => by cases hused) ?_
    simp [dropRef, setShlib, hleft]
  refine ht.write i { l.shlibs i with refcount := (l.shlibs i).refcount - 1 }
    (fun hused => ?_) (fun _ => ht.handle i hi) ?_
  · cases hi.symm.trans hused
  simp [dropRef, setShlib, hleft]

theorem Tidy.module_unload_id (module_id : UInt32) : (l.module_unload_id module_id).2.Tidy := by
  rcases l.module_unload_id_cases module_id with hr | ⟨m, -, -, hr⟩
  · rw [hr]
    exact ht
  rw [hr]
  refine Tidy.release ?_ _
  exact ht.modules rfl

theorem Tidy.module_load_path : (l.module_load_path k path).2.Tidy := by
  have hload := ht.apply (modPlan_ok k l path)
  rcases l.module_load_path_cases k path with ⟨-, hr⟩ | ⟨p, h, rfl, hp, -, ⟨-, hr⟩ | ⟨-, hr⟩⟩
  · rw [hr]
    exact ht
  · rw [hr]
    exact hload
  rw [hr]
  rcases module_add_cases ((l.modPlan k (some p)).apply l) h.toInt32 hp with
    ⟨-, hadd⟩ | ⟨m, -, -, hadd⟩
  · rw [hadd]
    exact hload.release _
  rw [hadd]
  exact hload.modules rfl

theorem Tidy.module_reload_id (module_id : UInt32) : (l.module_reload_id k module_id).2.Tidy := by
  have hload := ht.apply (reloadPlan_ok (k := k) module_id)
  rcases l.module_reload_id_cases k module_id with ⟨-, hr⟩ | ⟨m, h, -, -, -, ⟨-, hr⟩ | ⟨-, hr⟩⟩
  · rw [hr]
    exact ht
  · rw [hr]
    exact hload
  rw [hr]
  refine Tidy.release ?_ _
  exact hload.modules rfl

theorem Tidy.library_op {env : Env} {op : SyscallOp} {a0 a1 : UInt64}
    {rc : Int} {l' : Libs} (hcall : LibKernel.library_op env k l op a0 a1 = some (rc, l')) :
    l'.Tidy := by
  cases op <;> simp only [LibKernel.library_op, Option.some.injEq, reduceCtorEq] at hcall <;>
    cases hcall
  case dlopen =>
    rw [shlib_load_path_eq]
    exact ht.apply loadPlan_ok
  case dlclose => exact ht.release _
  case dlsym => exact ht
  case modload => exact ht.module_load_path
  case modunload => exact ht.module_unload_id _
  case modreload => exact ht.module_reload_id _
end
/-! ### No library is replaced -/
/-- Every library of `l'` is one of `l`, in the same slot. -/
structure Within (l l' : Libs) : Prop where
  next : l'.next_handle = l.next_handle
  live : ∀ i, (l'.shlibs i).used = true → (l.shlibs i).Same (l'.shlibs i)

theorem Within.refl (l : Libs) : l.Within l := ⟨rfl, fun _ hi => .refl hi⟩

variable {l' l'' : Libs}
theorem Within.modules (hw : l.Within l') (hnext : l''.next_handle = l'.next_handle)
    (hlibs : l''.shlibs = l'.shlibs) : l.Within l'' where
  next := hnext.trans hw.next
  live := by
    rw [hlibs]
    exact hw.live

theorem Within.release (hw : l.Within l') (handle : UInt32) :
    l.Within (l'.shlib_release_handle handle).2 := by
  rw [shlib_release_handle_eq]
  split
  · exact hw
  rename_i i _
  split
  · exact hw
  refine ⟨hw.next, fun j hj => ?_⟩
  by_cases hji : j = i
  · subst hji
    simp only [dropRef, setShlib, set_self] at hj ⊢
    split at hj
    · cases hj
    rename_i hleft
    rw [if_neg hleft]
    exact (hw.live j hj).trans ⟨hj, hj, rfl, rfl, rfl⟩
  simp only [dropRef, setShlib, set_ne hji] at hj ⊢
  exact hw.live j hj

theorem within_module_unload_id (module_id : UInt32) :
    l.Within (l.module_unload_id module_id).2 := by
  rcases l.module_unload_id_cases module_id with hr | ⟨m, -, -, hr⟩
  · rw [hr]
    exact .refl l
  rw [hr]
  refine Within.release ?_ _
  exact (Within.refl l).modules rfl rfl

theorem within_module_load_path (path : Option CStr) :
    ((l.modPlan k path).apply l).Within (l.module_load_path k path).2 := by
  rcases l.module_load_path_cases k path with ⟨hh, hr⟩ | ⟨p, h, rfl, hp, -, ⟨-, hr⟩ | ⟨-, hr⟩⟩
  · rw [hr, apply_of_handle_none hh]
    exact .refl l
  · rw [hr]
    exact .refl _
  rw [hr]
  rcases module_add_cases ((l.modPlan k (some p)).apply l) h.toInt32 hp with
    ⟨-, hadd⟩ | ⟨m, -, -, hadd⟩
  · rw [hadd]
    exact (Within.refl _).release _
  rw [hadd]
  exact (Within.refl _).modules rfl rfl

theorem within_module_reload_id (module_id : UInt32) :
    ((l.reloadPlan k module_id).apply l).Within (l.module_reload_id k module_id).2 := by
  rcases l.module_reload_id_cases k module_id with ⟨hh, hr⟩ | ⟨m, h, -, -, -, ⟨-, hr⟩ | ⟨-, hr⟩⟩
  · rw [hr, apply_of_handle_none hh]
    exact .refl l
  · rw [hr]
    exact .refl _
  rw [hr]
  refine Within.release ?_ _
  exact (Within.refl _).modules rfl rfl

/-! ### The accounts are kept -/
theorem Accounts.module_unload_id (ha : l.Accounts outside) (module_id : UInt32) :
    (l.module_unload_id module_id).2.Accounts outside := by
  rcases l.module_unload_id_cases module_id with hr | ⟨m, hfind, hm, hr⟩
  · rw [hr]
    exact ha
  rw [hr]
  have hback := (ha.letGo hm).giveBack (h := (l.modules m).shlib_handle) (by simp)
  rw [drop_bump] at hback
  exact hback.2

theorem Accounts.module_load_path (ha : l.Accounts outside) (hroom : l.Room) (k : KState)
    (path : Option CStr) :
    (l.module_load_path k path).2.Accounts outside ∨
    ∃ h, (l.modPlan k path).handle l = some h ∧ 2 ^ 31 ≤ h.toNat ∧
      (l.module_load_path k path).2.Accounts (bump outside h) := by
  rcases l.module_load_path_cases k path with ⟨-, hr⟩ | ⟨p, h, rfl, hp, hh, hcase⟩
  · rw [hr]
    exact .inl ha
  have hload := ha.load hroom (modPlan_ok _ _ _) hh
  rcases hcase with ⟨hneg, hr⟩ | ⟨hpos, hr⟩
  · rw [hr]
    exact .inr ⟨h, hh, hneg, hload⟩
  refine .inl ?_
  rw [hr]
  rcases module_add_cases ((l.modPlan k (some p)).apply l) h.toInt32 hp with
    ⟨-, hadd⟩ | ⟨m, -, hm, hadd⟩
  · rw [hadd]
    have hback := hload.giveBack (h := h) (by simp)
    rw [drop_bump] at hback
    exact hback.2
  rw [hadd]
  refine Accounts.take (h := h) ?_ ?_ ?_ ?_
  · exact hload.move rfl fun _ => rfl
  · exact hm
  all_goals rfl

theorem Accounts.module_reload_id (ha : l.Accounts outside) (hroom : l.Room) (module_id : UInt32) :
    (l.module_reload_id k module_id).2.Accounts outside ∨
    ∃ h, (l.reloadPlan k module_id).handle l = some h ∧ 2 ^ 31 ≤ h.toNat ∧
      (l.module_reload_id k module_id).2.Accounts (bump outside h) := by
  rcases l.module_reload_id_cases k module_id with ⟨-, hr⟩ | ⟨m, h, hfind, hm, hh, hcase⟩
  · rw [hr]
    exact .inl ha
  have hload := ha.load hroom (reloadPlan_ok module_id) hh
  rcases hcase with ⟨hneg, hr⟩ | ⟨hpos, hr⟩
  · rw [hr]
    exact .inr ⟨h, hh, hneg, hload⟩
  refine .inl ?_
  rw [hr]
  -- the module lets the old library go before it takes the new one
  have hm' : (((l.reloadPlan k module_id).apply l).modules m).used = true := by
    rw [modules_apply]
    exact hm
  have hfree := hload.letGo hm'
  rw [modules_apply, bump_comm] at hfree
  have htake : ((((l.reloadPlan k module_id).apply l).setModule m .free).setModule m
      (reloaded (l.modules m) h)).Accounts (bump outside (l.modules m).shlib_handle) := by
    refine hfree.take ?_ hm rfl
    simp [setModule, Module.free]
  rw [setModule_setModule] at htake
  have hback := htake.giveBack (h := (l.modules m).shlib_handle) (by simp)
  rw [drop_bump] at hback
  exact hback.2
end Libs
theorem tidy_of_reach {vfs : Vfs} {tr : List Syscall} {s : LibKernel}
    (hr : (libraryRuns vfs).Reach anyStep tr s) : s.libs.Tidy := by
  refine hr.invariant (fun s => s.libs.Tidy) ⟨fun _ _ => rfl, fun _ hi => by cases hi⟩ ?_
  intro s c s' ht _ hs
  have hcall : s.call c = s' := Option.some.inj hs
  subst hcall
  cases he : s.event c with
  | none =>
    rw [LibKernel.libs_of_event_none he]
    exact ht
  | some e =>
  obtain ⟨hstate, env, a0, a1, -, hop⟩ := LibKernel.event_some he
  rw [hstate]
  exact ht.library_op hop
end QosKernel
