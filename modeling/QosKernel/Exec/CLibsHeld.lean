import QosKernel.Exec.CLibsCount

/-! # The libraries of loaded modules

Modules and callers count their references to a library in one number, and
`DLCLOSE` does not ask whose reference it takes back. A module is left
without its library by a `DLCLOSE` that takes the reference of the module.

The `Careful` calls take back no reference of a module, and are made while
no counter wraps around. Along them every library stays for as long as a
loaded module holds it.
-/
open Framework
namespace QosKernel
open LibKernel
namespace Libs
variable {k : KState} {l l' : Libs} {i : LibSlot} {m : ModuleSlot}
  {env : Env} {op : SyscallOp} {a0 a1 : UInt64} {rc : Int}
/-- The calls that leave the references of the modules alone. -/
structure Careful (l : Libs) (op : SyscallOp) (arg : UInt32) : Prop where
  /-- A library that is closed has more references than modules. -/
  close : op = .dlclose → ∀ i, l.shlib_find_slot_by_handle arg = some i →
    l.holding arg < (l.shlibs i).refcount.toNat
  /-- The counters of libraries have room for a load. -/
  load : op = .dlopen ∨ op = .modload ∨ op = .modreload → l.Room

/-- The counts cover the modules. -/
def Covered (l : Libs) : Prop := ∃ outside, l.Accounts outside
theorem covered_reset : reset.Covered := ⟨_, booked_reset.accounts⟩

theorem Covered.dlclose (hcov : l.Covered) {handle : UInt32}
    (hc : l.Careful .dlclose handle) : (l.shlib_release_handle handle).2.Covered := by
  obtain ⟨outside, ha⟩ := hcov
  cases hfind : l.shlib_find_slot_by_handle handle with
  | none =>
    rw [shlib_release_handle_eq, hfind]
    exact ⟨outside, ha⟩
  | some i =>
  have hused := used_of_find hfind
  have hcount := ha.counted.count i handle _
    (Shlib.view_eq_some.mpr ⟨hused, handle_of_find hfind, rfl⟩)
  have hlt := hc.close rfl i hfind
  exact ⟨_, (ha.giveBack (by omega)).2⟩

theorem Covered.library_op (hcov : l.Covered) (hcall : library_op env k l op a0 a1 = some (rc, l'))
    (hc : l.Careful op a0.toUInt32) : l'.Covered := by
  obtain ⟨outside, ha⟩ := hcov
  cases op <;> simp only [library_op, Option.some.injEq, reduceCtorEq] at hcall <;>
    cases hcall
  case dlopen =>
    rw [shlib_load_path_eq]
    cases hh : (l.loadPlan k (text env a0) false).handle l with
    | none =>
      rw [apply_of_handle_none hh]
      exact ⟨_, ha⟩
    | some h => exact ⟨_, ha.load (hc.load (.inl rfl)) loadPlan_ok hh⟩
  case dlclose => exact Covered.dlclose ⟨outside, ha⟩ hc
  case dlsym => exact ⟨_, ha⟩
  case modload =>
    have hroom := hc.load (.inr (.inl rfl))
    rcases ha.module_load_path hroom k (text env a0) with
      ha' | ⟨h, -, -, ha'⟩
    all_goals exact ⟨_, ha'⟩
  case modunload => exact ⟨_, ha.module_unload_id _⟩
  case modreload =>
    have hroom := hc.load (.inr (.inr rfl))
    rcases ha.module_reload_id (k := k) hroom a0.toUInt32 with ha' | ⟨h, -, -, ha'⟩
    all_goals exact ⟨_, ha'⟩

/-! ### Modules and libraries that stay -/
/-- The call unloads or reloads the module in a slot. -/
def Touches (l : Libs) (m : ModuleSlot) (op : SyscallOp) (arg : UInt32) : Prop :=
  (op = .modunload ∨ op = .modreload) ∧ l.module_find_slot_by_id arg = some m

theorem module_stays (hcall : library_op env k l op a0 a1 = some (rc, l'))
    (hm : (l.modules m).used = true) (hnot : ¬l.Touches m op a0.toUInt32) :
    l'.modules m = l.modules m := by
  cases op <;> simp only [library_op, Option.some.injEq, reduceCtorEq] at hcall <;>
    cases hcall
  case dlopen =>
    rw [shlib_load_path_eq]
    exact congrFun (modules_apply _) m
  case dlclose => exact congrFun (modules_release _) m
  case dlsym => rfl
  case modload =>
    generalize text env a0 = path
    have hload : ((l.modPlan k path).apply l).modules = l.modules := modules_apply _
    rcases l.module_load_path_cases k path with ⟨-, hr⟩ | ⟨p, h, rfl, hp, -, ⟨-, hr⟩ | ⟨-, hr⟩⟩
    · rw [hr]
    · rw [hr, hload]
    rw [hr]
    rcases module_add_cases ((l.modPlan k (some p)).apply l) h.toInt32 hp with
      ⟨-, hadd⟩ | ⟨n, -, hn, hadd⟩
    · rw [hadd, modules_release, hload]
    -- the slot of the new module was free
    have hmn : m ≠ n := by
      rintro rfl
      rw [hload, hm] at hn
      cases hn
    rw [hadd, setModule]
    exact (set_ne hmn).trans (congrFun hload m)
  case modunload =>
    rcases l.module_unload_id_cases a0.toUInt32 with hr | ⟨n, hfind, -, hr⟩
    · rw [hr]
    have hmn : m ≠ n := by
      rintro rfl
      exact hnot ⟨.inl rfl, hfind⟩
    rw [hr, modules_release, setModule]
    exact set_ne hmn
  case modreload =>
    have hload : ((l.reloadPlan k a0.toUInt32).apply l).modules = l.modules := modules_apply _
    rcases l.module_reload_id_cases k a0.toUInt32 with
      ⟨-, hr⟩ | ⟨n, h, hfind, -, -, ⟨-, hr⟩ | ⟨-, hr⟩⟩
    · rw [hr]
    · rw [hr, hload]
    have hmn : m ≠ n := by
      rintro rfl
      exact hnot ⟨.inr rfl, hfind⟩
    rw [hr, modules_release, setModule]
    exact (set_ne hmn).trans (congrFun hload m)

/-- A library after a call was there before, in the same slot, or has a handle that no library
had. -/
def Replaced (l l' : Libs) : Prop :=
  ∀ j, (l'.shlibs j).used = true → (l.shlibs j).Same (l'.shlibs j) ∨
    ∀ i, (l.shlibs i).used = true → (l.shlibs i).handle ≠ (l'.shlibs j).handle

theorem Replaced.of_within (hw : l.Within l') : l.Replaced l' := fun j hj => .inl (hw.live j hj)

theorem Replaced.apply {plan : LoadPlan} (hroom : l.Room) (hw : (plan.apply l).Within l') :
    l.Replaced l' := by
  cases plan with
  | refuse => exact .of_within hw
  | share i =>
    intro j hj
    have hsame := hw.live j hj
    refine .inl (Shlib.Same.trans ?_ hsame)
    have hused : ((l.addRef i).shlibs j).used = true := hsame.used
    change (l.shlibs j).Same ((l.addRef i).shlibs j)
    by_cases hji : j = i
    · subst hji
      simp only [addRef, setShlib, set_self] at hused ⊢
      exact ⟨hused, hused, rfl, rfl, rfl⟩
    simp only [addRef, setShlib, set_ne hji] at hused ⊢
    exact .refl hused
  | add i f p =>
  intro j hj
  have hsame := hw.live j hj
  have hsame : ((l.addLib i f p).shlibs j).Same (l'.shlibs j) := hsame
  by_cases hji : j = i
  · subst hji
    refine .inr fun n hn => ?_
    rw [← hsame.handle]
    simpa [addLib, setShlib] using hroom.handle n hn
  simp only [addLib, setShlib, set_ne hji] at hsame
  exact .inl hsame

theorem replaced_library_op (hcall : library_op env k l op a0 a1 = some (rc, l'))
    (hc : l.Careful op a0.toUInt32) : l.Replaced l' := by
  cases op <;> simp only [library_op, Option.some.injEq, reduceCtorEq] at hcall <;>
    cases hcall
  case dlopen =>
    rw [shlib_load_path_eq]
    exact .apply (hc.load (.inl rfl)) (.refl _)
  case dlclose => exact .of_within ((Within.refl l).release _)
  case dlsym => exact .of_within (.refl l)
  case modload => exact .apply (hc.load (.inr (.inl rfl))) (within_module_load_path _)
  case modunload => exact .of_within (within_module_unload_id _)
  case modreload => exact .apply (hc.load (.inr (.inr rfl))) (within_module_reload_id _)

/-- The module in slot `m` is loaded, and its library is the one in slot `i`. -/
structure Keeps (l : Libs) (m : ModuleSlot) (i : LibSlot) : Prop where
  loaded : (l.modules m).used = true
  live : (l.shlibs i).used = true
  handle : (l.shlibs i).handle = (l.modules m).shlib_handle

theorem Covered.keeps (hcov : l.Covered) (hm : (l.modules m).used = true) : ∃ i, l.Keeps m i := by
  obtain ⟨outside, ha⟩ := hcov
  have hpos : 0 < l.holding (l.modules m).shlib_handle := by
    rw [Nat.pos_iff_ne_zero]
    intro hzero
    have hnone := slotCount_eq_zero.mp hzero m
    simp [Module.holds, hm] at hnone
  obtain ⟨i, c, hi⟩ := ha.counted.live (l.modules m).shlib_handle (by omega)
  obtain ⟨hused, hhandle, -⟩ := Shlib.view_eq_some.mp hi
  exact ⟨i, hm, hused, hhandle⟩

theorem Covered.alone (hcov : l.Covered) {j : LibSlot}
    (hi : (l.shlibs i).used = true) (hj : (l.shlibs j).used = true)
    (heq : (l.shlibs i).handle = (l.shlibs j).handle) : i = j := by
  obtain ⟨outside, ha⟩ := hcov
  exact ha.counted.distinct i j _ _ _ (Shlib.view_eq_some.mpr ⟨hi, rfl, rfl⟩)
    (Shlib.view_eq_some.mpr ⟨hj, heq.symm, rfl⟩)

/-- A careful call that leaves the module alone leaves its library where it is. -/
theorem Keeps.library_op (hk : l.Keeps m i) (hcov : l.Covered)
    (hcall : library_op env k l op a0 a1 = some (rc, l'))
    (hc : l.Careful op a0.toUInt32) (hnot : ¬l.Touches m op a0.toUInt32) :
    l'.Keeps m i ∧ l'.modules m = l.modules m ∧ (l.shlibs i).Same (l'.shlibs i) := by
  have hstays := module_stays hcall hk.loaded hnot
  obtain ⟨j, hj⟩ := (hcov.library_op hcall hc).keeps (hstays ▸ hk.loaded)
  -- the library that the module has now is the one it had: no other had the handle
  have hhandle : (l.shlibs i).handle = (l'.shlibs j).handle := by rw [hk.handle, hj.handle, hstays]
  rcases replaced_library_op hcall hc j hj.live with hsame | hnew
  · have hij : i = j := hcov.alone hk.live hsame.used (hhandle.trans hsame.handle.symm)
    subst hij
    exact ⟨hj, hstays, hsame⟩
  exact absurd hhandle (hnew i hk.live)
end Libs
/-! ### Runs -/
namespace LibKernel
/-- The library call of a step, if there is one, is careful. -/
def Careful (s : LibKernel) (c : Syscall) : Prop :=
  ∀ e, s.event c = some e → s.libs.Careful e.op e.arg

def Touches (s : LibKernel) (m : ModuleSlot) (c : Syscall) : Prop :=
  ∃ e, s.event c = some e ∧ s.libs.Touches m e.op e.arg

theorem covered_of_reach {vfs : Vfs} {tr : List Syscall} {s : LibKernel}
    (hr : (libraryRuns vfs).Reach Careful tr s) : s.libs.Covered := by
  refine hr.invariant (fun s => s.libs.Covered) Libs.covered_reset ?_
  intro s c s' hcov hc hs
  have hcall : s.call c = s' := Option.some.inj hs
  subst hcall
  cases he : s.event c with
  | none =>
    rw [libs_of_event_none he]
    exact hcov
  | some e =>
  obtain ⟨hstate, env, a0, a1, harg, hop⟩ := event_some he
  rw [hstate]
  exact hcov.library_op hop (harg ▸ hc e he)
end LibKernel
instance (l : Libs) : Decidable l.Room :=
  decidable_of_iff ((∀ i, (l.shlibs i).used = true → (l.shlibs i).handle ≠ l.newHandle) ∧
    ∀ i, (l.shlibs i).used = true → (l.shlibs i).refcount ≠ 0xFFFFFFFF)
    ⟨fun h => ⟨h.1, h.2⟩, fun h => ⟨h.handle, h.count⟩⟩

instance (l : Libs) (op : SyscallOp) (arg : UInt32) : Decidable (l.Careful op arg) :=
  decidable_of_iff ((op = .dlclose → ∀ i, l.shlib_find_slot_by_handle arg = some i →
      l.holding arg < (l.shlibs i).refcount.toNat) ∧
    (op = .dlopen ∨ op = .modload ∨ op = .modreload → l.Room))
    ⟨fun h => ⟨h.1, h.2⟩, fun h => ⟨h.close, h.load⟩⟩

instance (s : LibKernel) (c : Syscall) : Decidable (s.Careful c) :=
  decidable_of_iff ((s.event c).all fun e => decide (s.libs.Careful e.op e.arg)) (by
    unfold Careful
    cases s.event c <;> simp)

/-- In every run of careful calls, a loaded module has a live library, and that library stays in
its slot for as long as the module is neither unloaded nor reloaded. -/
theorem module_keeps_library (vfs : Vfs) (tr : List Syscall) (s : LibKernel)
    (hr : (libraryRuns vfs).Reach Careful tr s) (m : ModuleSlot)
    (hm : (s.libs.modules m).used = true) :
    ∃ i, s.libs.Keeps m i ∧ ∀ tr' s',
      (libraryRuns vfs).Steps (fun s c => s.Careful c ∧ ¬s.Touches m c) s tr' s' →
        s'.libs.modules m = s.libs.modules m ∧ (s.libs.shlibs i).Same (s'.libs.shlibs i) := by
  have hcov := covered_of_reach hr
  obtain ⟨i, hi⟩ := hcov.keeps hm
  refine ⟨i, hi, fun tr' s' hsteps => ?_⟩
  have hinv : s'.libs.Covered ∧ s'.libs.Keeps m i ∧ s'.libs.modules m = s.libs.modules m ∧
      (s.libs.shlibs i).Same (s'.libs.shlibs i) := by
    induction hsteps with
    | refl => exact ⟨hcov, hi, rfl, .refl hi.live⟩
    | step _ hc hs ih =>
    rename_i tr' t t' c _
    obtain ⟨htcov, htk, htm, hts⟩ := ih
    have hcall : t.call c = t' := Option.some.inj hs
    subst hcall
    cases he : t.event c with
    | none =>
      rw [libs_of_event_none he]
      exact ⟨htcov, htk, htm, hts⟩
    | some e =>
    obtain ⟨hstate, env, a0, a1, harg, hop⟩ := event_some he
    have hcareful := hc.1 e he
    have hnot : ¬t.libs.Touches m e.op e.arg := fun ht => hc.2 ⟨e, he, ht⟩
    rw [harg] at hcareful hnot
    obtain ⟨hk', hm', hsame⟩ := htk.library_op htcov hop hcareful hnot
    rw [hstate]
    exact ⟨htcov.library_op hop hcareful, hk', hm'.trans htm, hts.trans hsame⟩
  exact hinv.2.2

/-- The library is opened, and a module is loaded from it. -/
def moduleCalls : List Syscall :=
  objectCalls ++ [.dispatch libraryEnv 40 1 0 0 0, .dispatch libraryEnv 43 1 0 0 0]

def closeCall : Syscall := .dispatch libraryEnv 41 1 0 0 0

/-- The open is closed again, and the module keeps the library. -/
theorem module_keeps_library_closed : ∃ s i, (libraryRuns .reset).Reach Careful moduleCalls s ∧
    s.libs.Keeps ⟨0, by decide⟩ i ∧
    (s.libs.shlibs i).Same ((s.call closeCall).libs.shlibs i) := by
  obtain ⟨s, hr, hm, hcareful, hclose⟩ : ∃ s, (libraryRuns .reset).Reach Careful
      moduleCalls s ∧ (s.libs.modules ⟨0, by decide⟩).used = true ∧ s.Careful closeCall ∧
      (s.event closeCall).all (·.op == .dlclose) = true :=
    System.exists_execIf (by decide +kernel) fun _ _ h => h
  obtain ⟨i, hi, hstays⟩ := module_keeps_library .reset moduleCalls s hr _ hm
  refine ⟨s, i, hr, hi, (hstays [closeCall] _ (.step .refl ⟨hcareful, ?_⟩ rfl)).2⟩
  rintro ⟨e, he, hop, -⟩
  rw [he] at hclose
  have hclose : e.op = .dlclose := by simpa using hclose
  rw [hclose] at hop
  rcases hop with hop | hop <;> cases hop

/-- A module is loaded, and then a `DLCLOSE` of its library succeeds: the module still holds the
handle, but the library is gone. -/
theorem module_loses_library : ∃ s,
    (libraryRuns .reset).Reach anyStep (objectCalls ++ [.dispatch libraryEnv 43 1 0 0 0]) s ∧
    s.libs.Keeps ⟨0, by decide⟩ ⟨0, by decide⟩ ∧
    ((s.call closeCall).libs.modules ⟨0, by decide⟩).used = true ∧
    ∀ i, ((s.call closeCall).libs.shlibs i).used = false := by
  refine System.exists_exec (P := fun s => ((s.libs.modules ⟨0, by decide⟩).used = true ∧
    (s.libs.shlibs ⟨0, by decide⟩).used = true ∧ (s.libs.shlibs ⟨0, by decide⟩).handle =
      (s.libs.modules ⟨0, by decide⟩).shlib_handle) ∧
    ((s.call closeCall).libs.modules ⟨0, by decide⟩).used = true ∧
    ∀ i, ((s.call closeCall).libs.shlibs i).used = false) ?_ ?_
  · decide +kernel
  rintro s - ⟨⟨hm, hi, hhandle⟩, hgone⟩
  exact ⟨⟨hm, hi, hhandle⟩, hgone⟩
end QosKernel
