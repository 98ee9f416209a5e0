import QosKernel.Exec.CLibsCount

/-! # Loads that fail

A load returns a handle, an id or a generation as an `int`, and every
negative number is a failure. A number of 2^31 or more is a success to the
kernel and a failure to the caller, who cannot undo it. With numbers below
that, a load that fails leaves both tables as they were, except where the
reference that `MODLOAD` gives back is not the one that it took.
-/
open Framework
namespace QosKernel
namespace Libs
variable {row : Shlib}
variable {k : KState} {l l' : Libs} {path : Option CStr} {i : LibSlot} {h : UInt32}
  {plan : LoadPlan}
/-- Both tables are as before. -/
def Untouched (l l' : Libs) : Prop := l'.shlibs = l.shlibs ∧ l'.modules = l.modules

theorem apply_shlibs_ne (hok : plan.Ok l) (hh : plan.handle l = some h) :
    (plan.apply l).shlibs ≠ l.shlibs := by
  intro heq
  cases plan with
  | refuse => cases hh
  | share i =>
    have hrow := congrArg Shlib.refcount (congrFun heq i)
    simp [LoadPlan.apply, addRef, setShlib] at hrow
  | add i f p =>
  have hrow := congrArg Shlib.used (congrFun heq i)
  have hold : (l.shlibs i).used = false := hok
  simp [LoadPlan.apply, addLib, setShlib, hold] at hrow

/-- Giving the handle of a load back undoes the load: the count does not wrap around, and no
library in an earlier slot has the same handle. -/
def LoadPlan.Undone (l : Libs) : LoadPlan → Prop
  | .refuse => True
  | .share i => (l.shlibs i).refcount ≠ 0 ∧ (l.shlibs i).refcount ≠ 0xFFFFFFFF ∧
      ∀ j, j < i → (l.shlibs j).used = true → (l.shlibs j).handle ≠ (l.shlibs i).handle
  | .add i _ _ => ∀ j, j < i → (l.shlibs j).used = true → (l.shlibs j).handle ≠ l.newHandle

theorem find_self (hi : (l.shlibs i).used = true) (hzero : (l.shlibs i).handle ≠ 0)
    (hmin : ∀ j, j < i → (l.shlibs j).used = true → (l.shlibs j).handle ≠ (l.shlibs i).handle) :
    l.shlib_find_slot_by_handle (l.shlibs i).handle = some i := by
  unfold shlib_find_slot_by_handle
  rw [if_neg (by simpa using hzero)]
  refine first_of_min (by simp [hi]) fun j hj => ?_
  cases hused : (l.shlibs j).used with
  | false => rfl
  | true => simpa [hused] using hmin j hj hused

theorem find_earlier {j : LibSlot} (hj : j < i) (hused : (l.shlibs j).used = true)
    (hhandle : (l.shlibs j).handle = h) : l.shlib_find_slot_by_handle h ≠ some i := by
  intro hfind
  unfold shlib_find_slot_by_handle at hfind
  split at hfind
  · cases hfind
  have hfalse := first_min hfind hj
  simp [hused, hhandle] at hfalse

theorem release_shlibs_ne (hfind : l.shlib_find_slot_by_handle h ≠ some i) :
    (l.shlib_release_handle h).2.shlibs i = l.shlibs i := by
  rw [shlib_release_handle_eq]
  cases hj : l.shlib_find_slot_by_handle h with
  | none => rfl
  | some j =>
  have hij : i ≠ j := fun e => hfind (e ▸ hj)
  dsimp only
  split
  · rfl
  exact set_ne hij

theorem release_eq (l : Libs) (h : UInt32) : (l.shlib_release_handle h).2 =
    { l with shlibs := (l.shlib_release_handle h).2.shlibs } := by
  rw [shlib_release_handle_eq]
  cases l.shlib_find_slot_by_handle h with
  | none => rfl
  | some j =>
  dsimp only
  split <;> rfl

theorem release_shlibs_self (hfind : l.shlib_find_slot_by_handle h = some i) :
    (l.shlib_release_handle h).2.shlibs = set l.shlibs i
      (if (l.shlibs i).refcount = 0 then l.shlibs i
        else if (l.shlibs i).refcount - 1 == 0 then .free
        else { l.shlibs i with refcount := (l.shlibs i).refcount - 1 }) := by
  rw [shlib_release_handle_eq, hfind]
  dsimp only
  split
  · exact set_eq_self.symm
  rfl

/-- One reference more and one less: the row is as before unless the count wraps around. -/
theorem share_row_iff (hused : row.used = true) :
    (if row.refcount + 1 = 0 then { row with refcount := row.refcount + 1 }
      else if row.refcount + 1 - 1 == 0 then .free
      else { row with refcount := row.refcount + 1 - 1 }) = row ↔
      row.refcount ≠ 0 ∧ row.refcount ≠ 0xFFFFFFFF := by
  have hback : row.refcount + 1 - 1 = row.refcount := UInt32.add_sub_cancel ..
  have hwrap : row.refcount + 1 = 0 ↔ row.refcount = 0xFFFFFFFF := by
    have hlt := row.refcount.toNat_lt
    have hmax : (0xFFFFFFFF : UInt32).toNat = 4294967295 := rfl
    rw [← UInt32.toNat_inj, ← UInt32.toNat_inj, UInt32.toNat_add, UInt32.toNat_one,
      UInt32.toNat_zero, hmax]
    omega
  rw [hback]
  by_cases hmax : row.refcount = 0xFFFFFFFF
  · rw [if_pos (hwrap.mpr hmax)]
    refine iff_of_false (fun hrow => ?_) (fun hne => hne.2 hmax)
    have hcount := congrArg Shlib.refcount hrow
    simp at hcount
  rw [if_neg fun e => hmax (hwrap.mp e)]
  by_cases hzero : row.refcount = 0
  · rw [if_pos (by simpa using hzero)]
    refine iff_of_false (fun hrow => ?_) (fun hne => hne.1 hzero)
    rw [← hrow] at hused
    cases hused
  rw [if_neg (by simpa using hzero)]
  exact iff_of_true rfl ⟨hzero, hmax⟩

theorem undone_earlier (hrow : row ≠ l.shlibs i) (hl' : l'.shlibs = set l.shlibs i row)
    (hearlier : ∃ j, j < i ∧ (l.shlibs j).used = true ∧ (l.shlibs j).handle = h) :
    (l'.shlib_release_handle h).2.shlibs ≠ l.shlibs := by
  obtain ⟨j, hj, hused, hhandle⟩ := hearlier
  intro heq
  have hj' : l'.shlibs j = l.shlibs j := by rw [hl', set_ne (ne_of_lt hj)]
  have hfind : l'.shlib_find_slot_by_handle h ≠ some i :=
    find_earlier hj (hj' ▸ hused) (hj' ▸ hhandle)
  have hi := congrFun heq i
  rw [release_shlibs_ne hfind, hl', set_self] at hi
  exact hrow hi

theorem find_written (hrow : row.used = true) (hzero : row.handle ≠ 0)
    (hl' : l'.shlibs = set l.shlibs i row)
    (hmin : ∀ j, j < i → (l.shlibs j).used = true → (l.shlibs j).handle ≠ row.handle) :
    l'.shlib_find_slot_by_handle row.handle = some i := by
  have hi : l'.shlibs i = row := by rw [hl', set_self]
  have hfind := find_self (l := l') (i := i) (hi ▸ hrow) (hi ▸ hzero) (by
    intro j hj hused
    rw [hi]
    rw [hl', set_ne (ne_of_lt hj)] at hused ⊢
    exact hmin j hj hused)
  rwa [hi] at hfind

/-- Giving back the handle that a load returned restores the library table exactly if
`Undone`. -/
theorem undone_iff (ht : l.Tidy) (hok : plan.Ok l) (hh : plan.handle l = some h) :
    ((plan.apply l).shlib_release_handle h).2.shlibs = l.shlibs ↔ plan.Undone l := by
  have hne := apply_shlibs_ne hok hh
  cases plan with
  | refuse => cases hh
  | share i =>
    cases hh
    have hl' : (l.addRef i).shlibs = set l.shlibs i
        { l.shlibs i with refcount := (l.shlibs i).refcount + 1 } := rfl
    by_cases hmin : ∀ j, j < i → (l.shlibs j).used = true →
        (l.shlibs j).handle ≠ (l.shlibs i).handle
    · have hfind := find_written (by exact hok) (by exact ht.handle i hok) hl' hmin
      change ((l.addRef i).shlib_release_handle _).2.shlibs = _ ↔ _
      rw [release_shlibs_self hfind, hl', set_set, set_eq_iff, set_self, share_row_iff hok]
      exact ⟨fun hcount => ⟨hcount.1, hcount.2, hmin⟩, fun hundone => ⟨hundone.1, hundone.2.1⟩⟩
    refine iff_of_false ?_ fun hundone => hmin hundone.2.2
    simp only [not_forall, not_not, exists_prop] at hmin
    exact undone_earlier (fun hrow => hne (by rw [LoadPlan.apply, hl', hrow, set_eq_self])) hl' hmin
  | add i f p =>
  cases hh
  have hold : l.shlibs i = .free := ht.free i hok
  have hl' : (l.addLib i f p).shlibs = set l.shlibs i
      ⟨true, l.newHandle, 1, .ofNat f.val, p.take (QOS_FILE_PATH_MAX - 1)⟩ := rfl
  by_cases hmin : ∀ j, j < i → (l.shlibs j).used = true → (l.shlibs j).handle ≠ l.newHandle
  · have hfind := find_written rfl (nextNonzero_ne_zero l.next_handle) hl' hmin
    refine iff_of_true ?_ hmin
    change ((l.addLib i f p).shlib_release_handle _).2.shlibs = _
    rw [release_shlibs_self hfind, hl', set_set, set_eq_iff, set_self, hold]
    simp
  refine iff_of_false ?_ hmin
  simp only [not_forall, not_not, exists_prop] at hmin
  exact undone_earlier (fun hrow => hne (by rw [LoadPlan.apply, hl', hrow, set_eq_self])) hl' hmin

/-! ### The three loads -/
/-- The handle that a load ends with is not negative as an `int`. -/
def LoadPlan.Small (l : Libs) (plan : LoadPlan) : Prop :=
  ∀ h, plan.handle l = some h → h.toNat < 2 ^ 31

section
variable (k : KState) (l : Libs)
/-- If `MODLOAD` finds its module table full, it can undo its load; if not, the id is not
negative. -/
def ModLoadClean (path : Option CStr) : Prop :=
  (l.modPlan k path).Small l ∧
  ((l.modPlan k path).handle l ≠ none → (l.module_free_slot = none → (l.modPlan k path).Undone l) ∧
    (l.module_free_slot ≠ none → (nextNonzero l.next_id).1.toNat < 2 ^ 31))

def ModReloadClean (module_id : UInt32) : Prop :=
  (l.reloadPlan k module_id).Small l ∧
  ∀ m h, l.module_find_slot_by_id module_id = some m →
    (l.reloadPlan k module_id).handle l = some h →
    (reloaded (l.modules m) h).generation.toNat < 2 ^ 31
end
theorem failure_neg : (-1 : Int32) < 0 := by decide

theorem answer_neg {r : Int32 × Libs} : (LibKernel.answer r).1 < 0 ↔ r.1 < 0 := by
  unfold LibKernel.answer
  split
  · rename_i hneg
    exact iff_of_true (Int.negSucc_lt_zero 0) hneg
  rename_i hpos
  refine iff_of_false ?_ hpos
  have hzero : Int32.toInt 0 = 0 := rfl
  rw [Int32.lt_iff_toInt_lt, hzero] at hpos
  exact hpos

theorem dlopen_clean_iff :
    ((l.shlib_load_path k path false).1 < 0 →
      l.Untouched (l.shlib_load_path k path false).2) ↔ (l.loadPlan k path false).Small l := by
  rw [shlib_load_path_eq]
  cases hh : (l.loadPlan k path false).handle l with
  | none =>
    refine iff_of_true (fun _ => ?_) (fun h hsome => ?_)
    · rw [apply_of_handle_none hh]
      exact ⟨rfl, rfl⟩
    rw [hh] at hsome
    cases hsome
  | some h =>
  by_cases hneg : 2 ^ 31 ≤ h.toNat
  · refine iff_of_false (fun himp => ?_) (fun hsmall => ?_)
    · exact apply_shlibs_ne loadPlan_ok hh (himp (toInt32_neg.mpr hneg)).1
    exact absurd (hsmall h hh) (Nat.not_lt.mpr hneg)
  refine iff_of_true (fun hlt => absurd (toInt32_neg.mp hlt) hneg) (fun h' hsome => ?_)
  rw [hh] at hsome
  cases hsome
  exact Nat.lt_of_not_le hneg

theorem not_small (hh : plan.handle l = some h) (hneg : 2 ^ 31 ≤ h.toNat) : ¬plan.Small l :=
  fun hsmall => absurd (hsmall h hh) (Nat.not_lt.mpr hneg)

theorem small_of_handle (hh : plan.handle l = some h) (hpos : h.toNat < 2 ^ 31) : plan.Small l := by
  intro h' hsome
  rw [hh] at hsome
  cases hsome
  exact hpos

theorem small_of_none (hh : plan.handle l = none) : plan.Small l := by
  intro h' hsome
  rw [hh] at hsome
  cases hsome

theorem modload_clean_iff (ht : l.Tidy) :
    ((l.module_load_path k path).1 < 0 → l.Untouched (l.module_load_path k path).2) ↔
      l.ModLoadClean k path := by
  rcases l.module_load_path_cases k path with ⟨hh, hr⟩ | ⟨p, h, rfl, hp, hh, hcase⟩
  · rw [hr]
    exact iff_of_true (fun _ => ⟨rfl, rfl⟩) ⟨small_of_none hh, fun hne => absurd hh hne⟩
  have hfree : ((l.modPlan k (some p)).apply l).module_free_slot = l.module_free_slot := by
    unfold module_free_slot
    rw [modules_apply]
  have hmodules : ((l.modPlan k (some p)).apply l).modules = l.modules := modules_apply _
  rcases hcase with ⟨hneg, hr⟩ | ⟨hpos, hr⟩
  · rw [hr]
    refine iff_of_false (fun himp => ?_) fun hclean => not_small hh hneg hclean.1
    exact apply_shlibs_ne (modPlan_ok _ _ _) hh (himp failure_neg).1
  rw [hr]
  rcases module_add_cases ((l.modPlan k (some p)).apply l) h.toInt32 hp with
    ⟨hnone, hadd⟩ | ⟨m, hsome, hm, hadd⟩
  · -- the module table is full
    rw [hadd]
    rw [hfree] at hnone
    have hundone := undone_iff ht (modPlan_ok _ _ _) hh
    constructor
    · intro himp
      refine ⟨small_of_handle hh hpos, fun _ => ⟨fun _ => ?_, fun hne => absurd hnone hne⟩⟩
      exact hundone.mp (himp failure_neg).1
    intro hclean _
    refine ⟨hundone.mpr ((hclean.2 (by rw [hh]; simp)).1 hnone), ?_⟩
    exact (modules_release _).trans hmodules
  -- the module is loaded
  rw [hadd]
  rw [hfree] at hsome
  have hid : ((l.modPlan k (some p)).apply l).next_id = l.next_id := by
    cases l.modPlan k (some p) <;> rfl
  rw [hid]
  by_cases hneg : 2 ^ 31 ≤ (nextNonzero l.next_id).1.toNat
  · refine iff_of_false (fun himp => ?_) fun hclean => ?_
    · have hrow := congrArg Module.used (congrFun (himp (toInt32_neg.mpr hneg)).2 m)
      rw [hmodules] at hm
      simp [setModule, hm] at hrow
    have hlt := (hclean.2 (by rw [hh]; simp)).2 (by rw [hsome]; simp)
    omega
  refine iff_of_true (fun hlt => absurd (toInt32_neg.mp hlt) hneg) ?_
  refine ⟨small_of_handle hh hpos, fun _ => ⟨fun hnone => ?_, fun _ => Nat.lt_of_not_le hneg⟩⟩
  rw [hsome] at hnone
  cases hnone

theorem reloaded_generation_ne (row : Module) (h : UInt32)
    (hneg : 2 ^ 31 ≤ (reloaded row h).generation.toNat) :
    (reloaded row h).generation ≠ row.generation := by
  unfold reloaded at hneg ⊢
  dsimp only at hneg ⊢
  split at hneg
  · exact absurd hneg (by decide)
  rename_i hwrap
  rw [if_neg hwrap]
  simp

theorem modreload_clean_iff (module_id : UInt32) :
    ((l.module_reload_id k module_id).1 < 0 → l.Untouched (l.module_reload_id k module_id).2) ↔
      l.ModReloadClean k module_id := by
  rcases l.module_reload_id_cases k module_id with ⟨hh, hr⟩ | ⟨m, h, hfind, -, hh, hcase⟩
  · rw [hr]
    refine iff_of_true (fun _ => ⟨rfl, rfl⟩) ⟨small_of_none hh, fun m h _ hsome => ?_⟩
    rw [hh] at hsome
    cases hsome
  rcases hcase with ⟨hneg, hr⟩ | ⟨hpos, hr⟩
  · rw [hr]
    refine iff_of_false (fun himp => ?_) fun hclean => not_small hh hneg hclean.1
    exact apply_shlibs_ne (reloadPlan_ok module_id) hh (himp failure_neg).1
  rw [hr]
  by_cases hneg : 2 ^ 31 ≤ (reloaded (l.modules m) h).generation.toNat
  · refine iff_of_false (fun himp => ?_) fun hclean => ?_
    · have hrow := congrArg Module.generation (congrFun (himp (toInt32_neg.mpr hneg)).2 m)
      simp only [modules_release, setModule, set_self] at hrow
      exact reloaded_generation_ne _ _ hneg hrow
    have hlt := hclean.2 m h hfind hh
    omega
  refine iff_of_true (fun hlt => absurd (toInt32_neg.mp hlt) hneg) ?_
  refine ⟨small_of_handle hh hpos, fun n h' hn hsome => ?_⟩
  rw [hfind] at hn
  rw [hh] at hsome
  cases hn
  cases hsome
  exact Nat.lt_of_not_le hneg
end Libs
/-! ### Runs -/
namespace LibKernel
/-- The state in which a load that fails leaves no trace. -/
def Clean (env : Env) (s : LibKernel) (op : SyscallOp) (a0 : UInt64) : Prop :=
  match op with
  | .dlopen => (s.libs.loadPlan s.kernel (text env a0) false).Small s.libs
  | .modload => s.libs.ModLoadClean s.kernel (text env a0)
  | .modreload => s.libs.ModReloadClean s.kernel a0.toUInt32
  | _ => True

theorem dispatch_answer {env : Env} {s : LibKernel} {nr : UInt32} {a0 a1 : UInt64}
    {op : SyscallOp} (hop : s.opOf nr = some op) {r : Int32 × Libs}
    (hlib : library_op env s.kernel s.libs op a0 a1 = some (answer r)) (a2 a3 : UInt64) :
    s.qos_syscall_dispatch env nr a0 a1 a2 a3 = ((answer r).1, [], { s with libs := r.2 }) := by
  have hcall : s.library_call env nr a0 a1 = some ⟨op, a0.toUInt32, (answer r).1, r.2⟩ := by
    simp only [library_call, hop, Option.bind_some, hlib, Option.map_some]
    rfl
  simp only [qos_syscall_dispatch, hcall]
end LibKernel
/-- In every state that system calls lead to, a `DLOPEN`, `MODLOAD` or `MODRELOAD` leaves both
tables as they were if it fails, exactly if the state is `Clean` for it. -/
theorem failed_load_no_trace_iff (vfs : Vfs) (tr : List Syscall) (s : LibKernel)
    (hr : (libraryRuns vfs).Reach anyStep tr s) (env : Env) (nr : UInt32) (a0 a1 a2 a3 : UInt64)
    (op : SyscallOp) (hop : s.opOf nr = some op)
    (hload : op = .dlopen ∨ op = .modload ∨ op = .modreload) :
    ((s.qos_syscall_dispatch env nr a0 a1 a2 a3).1 < 0 →
      s.libs.Untouched (s.qos_syscall_dispatch env nr a0 a1 a2 a3).2.2.libs) ↔
      s.Clean env op a0 := by
  rcases hload with rfl | rfl | rfl
  · rw [LibKernel.dispatch_answer hop rfl a2 a3, Libs.answer_neg]
    exact Libs.dlopen_clean_iff
  · rw [LibKernel.dispatch_answer hop rfl a2 a3, Libs.answer_neg]
    exact Libs.modload_clean_iff (tidy_of_reach hr)
  rw [LibKernel.dispatch_answer hop rfl a2 a3, Libs.answer_neg]
  exact Libs.modreload_clean_iff _

/-- A `DLOPEN` of a null pointer fails while two libraries and a module are live, and nothing has
changed. -/
theorem failed_load_no_trace_live : ∃ s, (libraryRuns .reset).Reach anyStep reloadCalls s ∧
    (∃ i j k, (s.libs.shlibs i).handle = 1 ∧ (s.libs.shlibs j).handle = 2 ∧
      (s.libs.modules k).used = true) ∧
    (s.qos_syscall_dispatch libraryEnv 40 0 0 0 0).1 < 0 ∧
    s.libs.Untouched (s.qos_syscall_dispatch libraryEnv 40 0 0 0 0).2.2.libs := by
  refine System.exists_exec (P := fun s => (∃ i j k, (s.libs.shlibs i).handle = 1 ∧
    (s.libs.shlibs j).handle = 2 ∧ (s.libs.modules k).used = true) ∧ s.opOf 40 = some .dlopen ∧
    (s.qos_syscall_dispatch libraryEnv 40 0 0 0 0).1 < 0) (by decide +kernel) ?_
  rintro s hr ⟨hlive, hop, hrc⟩
  refine ⟨hlive, hrc, (failed_load_no_trace_iff .reset reloadCalls s hr libraryEnv 40 0 0 0 0
    .dlopen hop (.inl rfl)).mpr ?_ hrc⟩
  intro h hh
  cases hh

/-! ### Handles from 2^31 on

Opening and closing a library uses up one handle. -/
namespace LibKernel
/-- The call numbers 40 and 41 open and close, no library is live, and `/f` can be loaded. -/
structure Ready (s : LibKernel) (f : FileSlot) : Prop where
  open_op : s.opOf 40 = some .dlopen
  close_op : s.opOf 41 = some .dlclose
  free : ∀ i, s.libs.shlibs i = .free
  file : Libs.loadable s.kernel [47, 102] = some f

/-- The same state with another handle as the next one. -/
def atHandle (s : LibKernel) (n : UInt32) : LibKernel :=
  { s with libs := { s.libs with next_handle := n } }

def openCall : Syscall := .dispatch libraryEnv 40 1 0 0 0
def closeOf (n : UInt32) : Syscall := .dispatch libraryEnv 41 n.toUInt64 0 0 0

variable {s : LibKernel} {f : FileSlot} {n : UInt32}
theorem Ready.plan (h : s.Ready f) (n : UInt32) :
    (s.atHandle n).libs.loadPlan s.kernel (some [47, 102]) false =
      .add ⟨0, by decide⟩ f [47, 102] := by
  have hpath : (s.atHandle n).libs.shlib_find_slot_by_path [47, 102] = none := by
    refine first_none.mpr fun i => ?_
    have hfree : (s.atHandle n).libs.shlibs i = .free := h.free i
    rw [hfree]
    rfl
  have hslot : (s.atHandle n).libs.shlib_free_slot = some ⟨0, by decide⟩ := by
    refine first_of_min ?_ fun j hj => absurd hj (Nat.not_lt_zero _)
    have hfree : (s.atHandle n).libs.shlibs ⟨0, by decide⟩ = .free := h.free _
    rw [hfree]
    rfl
  unfold Libs.loadPlan
  dsimp only
  rw [if_neg (by decide), if_neg (by decide), hpath]
  dsimp only
  rw [Libs.addPlan, h.file, hslot]

theorem Ready.opened (h : s.Ready f) (n : UInt32) :
    (s.atHandle n).qos_syscall_dispatch libraryEnv 40 1 0 0 0 =
      ((answer ((nextNonzero n).1.toInt32, s.libs)).1, [],
        { s.atHandle n with libs := (s.atHandle n).libs.addLib ⟨0, by decide⟩ f [47, 102] }) := by
  have hload : (s.atHandle n).libs.shlib_load_path s.kernel (some [47, 102]) false =
      ((nextNonzero n).1.toInt32, (s.atHandle n).libs.addLib ⟨0, by decide⟩ f [47, 102]) := by
    rw [Libs.shlib_load_path_eq, h.plan n]
    rfl
  have hop : (s.atHandle n).opOf 40 = some .dlopen := h.open_op
  have hlib : library_op libraryEnv (s.atHandle n).kernel (s.atHandle n).libs .dlopen 1 0 =
      some (answer ((nextNonzero n).1.toInt32,
        (s.atHandle n).libs.addLib ⟨0, by decide⟩ f [47, 102])) :=
    congrArg (fun r => some (answer r)) hload
  exact dispatch_answer hop hlib 0 0

theorem Ready.closed (h : s.Ready f) (hn : n ≠ 0) :
    ((s.atHandle n).call openCall).call (closeOf n) = s.atHandle (n + 1) := by
  have hnext : nextNonzero n = (n, n + 1) := nextNonzero_of_ne hn
  have hopened : (s.atHandle n).call openCall =
      { s.atHandle n with libs := (s.atHandle n).libs.addLib ⟨0, by decide⟩ f [47, 102] } :=
    congrArg (fun r => r.2.2) (h.opened n)
  rw [hopened]
  have hnew : (s.atHandle n).libs.newHandle = n := congrArg Prod.fst hnext
  have hl' : ((s.atHandle n).libs.addLib ⟨0, by decide⟩ f [47, 102]).shlibs =
      set s.libs.shlibs ⟨0, by decide⟩
        ⟨true, (s.atHandle n).libs.newHandle, 1, .ofNat f.val, [47, 102]⟩ := rfl
  rw [hnew] at hl'
  have hfind := Libs.find_written rfl hn hl' fun j hj => absurd hj (Nat.not_lt_zero _)
  have hshlibs : (((s.atHandle n).libs.addLib ⟨0, by decide⟩ f [47, 102]).shlib_release_handle
      n).2.shlibs = s.libs.shlibs := by
    refine (Libs.release_shlibs_self hfind).trans ?_
    rw [hl', set_set, set_self, set_eq_iff, h.free]
    simp
  have hrel : (((s.atHandle n).libs.addLib ⟨0, by decide⟩ f [47, 102]).shlib_release_handle
      n).2 = { s.libs with next_handle := n + 1 } := by
    rw [Libs.release_eq, hshlibs]
    change { s.libs with next_handle := (nextNonzero n).2 } = _
    rw [hnext]
  have hcall : ∀ t : LibKernel, t.opOf 41 = some .dlclose →
      t.call (closeOf n) = { t with libs := (t.libs.shlib_release_handle n).2 } := by
    intro t ht
    simp [call, closeOf, qos_syscall_dispatch, library_call, ht, library_op]
  refine (hcall _ ?_).trans ?_
  · exact h.close_op
  exact congrArg (LibKernel.mk s.kernel) hrel

/-- The first `n` rounds of an open and a close. -/
def rounds (n : Nat) : List Syscall :=
  (List.range n).flatMap fun j => [openCall, closeOf (.ofNat (j + 1))]

theorem Ready.rounds (h : s.Ready f) (hfirst : s.libs.next_handle = 1) {vfs : Vfs}
    {tr : List Syscall} (hr : (libraryRuns vfs).Reach anyStep tr s) (n : Nat)
    (hn : n < 2 ^ 32 - 1) :
    (libraryRuns vfs).Reach anyStep (tr ++ LibKernel.rounds n) (s.atHandle (.ofNat (n + 1))) := by
  induction n with
  | zero =>
    have hsame : s.atHandle (.ofNat (0 + 1)) = s := by
      unfold atHandle
      rw [show UInt32.ofNat (0 + 1) = s.libs.next_handle from hfirst.symm]
    rw [hsame]
    simpa [LibKernel.rounds] using hr
  | succ n ih =>
  have hne : UInt32.ofNat (n + 1) ≠ 0 := by
    intro hzero
    have hnat := congrArg UInt32.toNat hzero
    rw [UInt32.toNat_ofNat'] at hnat
    simp only [UInt32.toNat_zero] at hnat
    omega
  have hround := h.closed hne
  have hadd : UInt32.ofNat (n + 1) + 1 = UInt32.ofNat (n + 1 + 1) := by
    rw [UInt32.ofNat_add (n + 1) 1]
    rfl
  rw [hadd] at hround
  have hstep := ((ih (by omega)).step (l := openCall) trivial rfl).step (l := closeOf (.ofNat (n + 1)))
    trivial rfl
  rw [hround] at hstep
  simpa [LibKernel.rounds, List.range_succ] using hstep
end LibKernel
/-- After 2^31 - 1 opens and closes, a `DLOPEN` loads the library and returns -1. -/
theorem failed_open_keeps_library : ∃ tr s, (libraryRuns .reset).Reach anyStep tr s ∧
    s.opOf 40 = some .dlopen ∧ (s.qos_syscall_dispatch libraryEnv 40 1 0 0 0).1 = -1 ∧
    (∀ i, (s.libs.shlibs i).used = false) ∧
    ∃ i, ((s.qos_syscall_dispatch libraryEnv 40 1 0 0 0).2.2.libs.shlibs i).used = true := by
  obtain ⟨s, hr, hopen, hclose, hfree, hf, hfirst⟩ : ∃ s,
      (libraryRuns .reset).Reach anyStep objectCalls s ∧ s.opOf 40 = some .dlopen ∧
      s.opOf 41 = some .dlclose ∧ (∀ i, s.libs.shlibs i = .free) ∧
      (Libs.loadable s.kernel [47, 102]).isSome = true ∧ s.libs.next_handle = 1 :=
    System.exists_exec (by decide +kernel) fun _ _ h => h
  obtain ⟨f, hf⟩ := Option.isSome_iff_exists.mp hf
  have hready : s.Ready f := ⟨hopen, hclose, hfree, hf⟩
  have hrun := hready.rounds hfirst hr (2 ^ 31 - 1) (by decide)
  refine ⟨_, _, hrun, hopen, ?_, fun i => ?_, ⟨0, by decide⟩, ?_⟩
  · rw [hready.opened]
    rfl
  · exact congrArg Shlib.used (hfree i)
  rw [hready.opened]
  rfl
end QosKernel
