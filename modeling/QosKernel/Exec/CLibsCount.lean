import QosKernel.Exec.CLibsKeep
import QosKernel.Syscall.CContracts

/-! # The counts of shared libraries

The books of a run count the loads, and for every handle the opens and the
closes that succeeded. As long as every close is matched to an open, the
opens that are not matched yet are the references from outside of the module
table, so the counts of the kernel are right.
-/
open Framework
namespace QosKernel
/-! ### Books -/
structure Books where
  /-- The `DLOPEN`, `MODLOAD` and `MODRELOAD` calls. -/
  loads : Nat
  /-- The successful `DLOPEN` calls that returned a handle. -/
  opens : UInt32 → Nat
  /-- The successful `DLCLOSE` calls of a handle. -/
  closes : UInt32 → Nat

namespace Books
def empty : Books := ⟨0, fun _ => 0, fun _ => 0⟩

section
variable (b : Books)
/-- The opens that no close is matched to yet. -/
def unmatched (h : UInt32) : Nat := b.opens h - b.closes h

def note (op : SyscallOp) (handle : UInt32) (rc : Int) : Books :=
  match op with
  | .dlopen =>
    { b with
      loads := b.loads + 1
      opens := if rc < 0 then b.opens else bump b.opens (.ofNat rc.toNat) }
  | .modload | .modreload => { b with loads := b.loads + 1 }
  | .dlclose => if rc = 0 then { b with closes := bump b.closes handle } else b
  | _ => b

def record (s : LibKernel) (c : Syscall) : Books :=
  match s.event c with
  | some e => b.note e.op e.arg e.rc
  | none => b

/-- A close that succeeds is matched to an earlier open of the handle. -/
def MatchedCall : Option LibCall → Prop
  | some e => e.op = .dlclose → e.rc = 0 → b.closes e.arg < b.opens e.arg
  | none => True
end
instance (b : Books) : ∀ e, Decidable (b.MatchedCall e)
  | some e => inferInstanceAs (Decidable (e.op = .dlclose → e.rc = 0 →
      b.closes e.arg < b.opens e.arg))
  | none => .isTrue trivial
end Books
/-- The runs of the system calls, with the books. -/
def bookedRuns (vfs : Vfs) : System (LibKernel × Books) Syscall :=
  (libraryRuns vfs).logged .empty Books.record

def Matched (x : LibKernel × Books) (c : Syscall) : Prop := x.2.MatchedCall (x.1.event c)

instance (x : LibKernel × Books) (c : Syscall) : Decidable (Matched x c) :=
  inferInstanceAs (Decidable (x.2.MatchedCall (x.1.event c)))

/-! ### Handles are never given out twice -/
namespace Libs
variable {plan : LoadPlan} {k : KState} {l l' : Libs} {i : LibSlot} {h : UInt32} {n : Nat}
/-- After `n` loads at most `n` handles were given out, all of them below the counter. -/
structure Young (l : Libs) (n : Nat) : Prop where
  pos : 0 < l.next_handle.toNat
  next : l.next_handle.toNat ≤ n + 1
  below : ∀ i h c, l.view i = some (h, c) → h.toNat < l.next_handle.toNat

theorem Young.within (hy : l.Young n) (hw : l.Within l') : l'.Young n where
  pos := hw.next ▸ hy.pos
  next := hw.next ▸ hy.next
  below i h c hi := by
    obtain ⟨hused, hhandle, -⟩ := Shlib.view_eq_some.mp hi
    have hsame := hw.live i hused
    rw [hw.next]
    exact hy.below i h _ (Shlib.view_eq_some.mpr ⟨hsame.used, hsame.handle.trans hhandle, rfl⟩)

theorem Young.newHandle (hy : l.Young n) : l.newHandle = l.next_handle := by
  have hne : l.next_handle ≠ 0 := by
    intro hzero
    have hpos := hy.pos
    rw [hzero] at hpos
    exact absurd hpos (by decide)
  rw [Libs.newHandle, nextNonzero_of_ne hne]

theorem Young.handle (hy : l.Young n) (hok : plan.Ok l) (hh : plan.handle l = some h) :
    h.toNat ≤ n + 1 := by
  cases plan with
  | refuse => cases hh
  | share i =>
    cases hh
    have hbelow := hy.below i _ _ (Shlib.view_eq_some.mpr ⟨hok, rfl, rfl⟩)
    have hnext := hy.next
    omega
  | add i f p =>
  cases hh
  rw [hy.newHandle]
  exact hy.next

theorem Young.load (hy : l.Young n) (hn : n < 2 ^ 31) (hok : plan.Ok l) :
    (plan.apply l).Young (n + 1) := by
  have hpos := hy.pos
  have hnext := hy.next
  cases plan with
  | refuse => exact ⟨hpos, Nat.le_succ_of_le hnext, hy.below⟩
  | share i =>
    refine ⟨hpos, Nat.le_succ_of_le hnext, fun j h c hj => ?_⟩
    have hj : (l.addRef i).view j = some (h, c) := hj
    rw [addRef, view_setShlib] at hj
    by_cases hji : j = i
    · subst hji
      rw [set_self] at hj
      obtain ⟨hused, hhandle, -⟩ := Shlib.view_eq_some.mp hj
      exact hy.below j h _ (Shlib.view_eq_some.mpr ⟨hused, hhandle, rfl⟩)
    rw [set_ne hji] at hj
    exact hy.below j h c hj
  | add i f p =>
  have hcounter : (nextNonzero l.next_handle).2.toNat = l.next_handle.toNat + 1 := by
    have hne : l.next_handle ≠ 0 := by
      intro hzero
      rw [hzero] at hpos
      exact absurd hpos (by decide)
    rw [nextNonzero_of_ne hne, UInt32.toNat_add, UInt32.toNat_one]
    omega
  refine ⟨?_, ?_, fun j h c hj => ?_⟩
  · change 0 < (nextNonzero l.next_handle).2.toNat
    omega
  · change (nextNonzero l.next_handle).2.toNat ≤ n + 1 + 1
    omega
  change h.toNat < (nextNonzero l.next_handle).2.toNat
  rw [LoadPlan.apply, view_addLib] at hj
  by_cases hji : j = i
  · subst hji
    rw [set_self] at hj
    cases hj
    rw [hy.newHandle]
    omega
  rw [set_ne hji] at hj
  have hbelow := hy.below j h c hj
  omega

/-! ### The books are right -/
/-- The counts agree with the books, and no counter is near its bound. -/
structure Booked (l : Libs) (b : Books) : Prop where
  accounts : l.Accounts b.unmatched
  young : l.Young b.loads
  opens : ∀ h, b.opens h ≤ b.loads
  closes : ∀ h, b.closes h ≤ b.opens h

variable {b : Books} {path : Option CStr}
theorem booked_reset : reset.Booked .empty where
  accounts := {
    counted := by
      have hholding : (fun h => Books.empty.unmatched h + reset.holding h) = fun _ => 0 := by
        funext h
        have hnone : reset.holding h = 0 := slotCount_eq_zero.mpr fun _ => rfl
        rw [hnone]
        rfl
      rw [hholding]
      exact .empty fun _ => rfl
    handles := by
      intro i c hi
      cases hi }
  young := ⟨by decide, by decide, fun i h c hi => by cases hi⟩
  opens _ := Nat.le_refl 0
  closes _ := Nat.le_refl 0

theorem Booked.room (hb : l.Booked b) (hn : b.loads < 2 ^ 31) : l.Room where
  handle i hused heq := by
    have hbelow := hb.young.below i _ _ (Shlib.view_eq_some.mpr ⟨hused, rfl, rfl⟩)
    rw [heq, hb.young.newHandle] at hbelow
    exact absurd hbelow (Nat.lt_irrefl _)
  count i hused heq := by
    have hview : l.view i = some ((l.shlibs i).handle, (l.shlibs i).refcount.toNat) :=
      Shlib.view_eq_some.mpr ⟨hused, rfl, rfl⟩
    have hcount := hb.accounts.counted.count i _ _ hview
    have hopens := hb.opens (l.shlibs i).handle
    have hholding : l.holding (l.shlibs i).handle ≤ QOS_MODULE_MAX := slotCount_le
    have hmodules : QOS_MODULE_MAX = 32 := rfl
    rw [heq] at hcount
    unfold Books.unmatched at hcount
    have hmax : (0xFFFFFFFF : UInt32).toNat = 4294967295 := rfl
    omega

theorem unmatched_bump (hb : ∀ h, b.closes h ≤ b.opens h) (h : UInt32) (n : Nat) :
    (Books.mk n (bump b.opens h) b.closes).unmatched = bump b.unmatched h := by
  funext k
  unfold Books.unmatched
  by_cases hk : k = h
  · subst hk
    have hle := hb k
    simp only [bump_self]
    omega
  simp only [bump_ne hk]

theorem unmatched_close (h : UInt32) :
    (Books.mk b.loads b.opens (bump b.closes h)).unmatched = drop b.unmatched h := by
  funext k
  unfold Books.unmatched
  by_cases hk : k = h
  · subst hk
    simp only [bump_self, drop_self]
    omega
  simp only [bump_ne hk, drop_ne hk]

theorem Booked.loaded (hb : l.Booked b) (ha : l'.Accounts b.unmatched)
    (hy : l'.Young (b.loads + 1)) : l'.Booked { b with loads := b.loads + 1 } where
  accounts := ha
  young := hy
  opens h := Nat.le_succ_of_le (hb.opens h)
  closes := hb.closes

theorem note_dlopen (b : Books) (handle h : UInt32) :
    b.note .dlopen handle h.toNat = ⟨b.loads + 1, bump b.opens h, b.closes⟩ := by
  have hpos : ¬(h.toNat : Int) < 0 := by omega
  simp [Books.note, hpos]

theorem Booked.dlopen (hb : l.Booked b) (hn : b.loads + 1 < 2 ^ 31) (handle : UInt32) :
    (l.shlib_load_path k path false).2.Booked
      (b.note .dlopen handle (LibKernel.answer (l.shlib_load_path k path false)).1) := by
  have hok : (l.loadPlan k path false).Ok l := loadPlan_ok
  have hyoung := hb.young.load (by omega) hok
  rw [shlib_load_path_eq]
  cases hh : (l.loadPlan k path false).handle l with
  | none =>
    rw [apply_of_handle_none hh] at hyoung ⊢
    exact hb.loaded hb.accounts hyoung
  | some h =>
  have hsmall := hb.young.handle hok hh
  have hrc : (LibKernel.answer ((some h).elim (-1) UInt32.toInt32,
      (l.loadPlan k path false).apply l)).1 = (h.toNat : Int) := by
    have hpos : ¬h.toInt32 < 0 := fun hneg => absurd (toInt32_neg.mp hneg) (by omega)
    exact (if_neg hpos).trans (toInt32_toInt (by omega))
  rw [hrc, note_dlopen]
  refine ⟨?_, hyoung, fun k => ?_, fun k => ?_⟩
  · rw [unmatched_bump hb.closes]
    exact hb.accounts.load (hb.room (by omega)) hok hh
  · exact (bump_le k).trans (Nat.succ_le_succ (hb.opens k))
  exact (hb.closes k).trans (le_bump k)

theorem Booked.dlclose (hb : l.Booked b) {handle : UInt32}
    (hmatched : (l.shlib_release_handle handle).1 = 0 → b.closes handle < b.opens handle) :
    (l.shlib_release_handle handle).2.Booked
      (b.note .dlclose handle (if (l.shlib_release_handle handle).1 == 0 then 0 else -1)) := by
  by_cases hok : (l.shlib_release_handle handle).1 = 0
  · have hlt := hmatched hok
    have hopen : 0 < b.unmatched handle := by
      unfold Books.unmatched
      omega
    have hwithin := (Within.refl l).release handle
    simp only [hok, Books.note]
    refine ⟨?_, hb.young.within hwithin, hb.opens, fun k => ?_⟩
    · refine (unmatched_close handle) ▸ (hb.accounts.giveBack hopen).2
    have hcloses := hb.closes k
    change bump b.closes handle k ≤ b.opens k
    by_cases hk : k = handle
    · subst hk
      rw [bump_self]
      omega
    rw [bump_ne hk]
    exact hcloses
  have hsame : (l.shlib_release_handle handle).2 = l := by
    rw [shlib_release_handle_eq] at hok ⊢
    split
    · rfl
    rename_i i hfind
    rw [hfind] at hok
    dsimp only at hok ⊢
    split at hok
    · rename_i hzero
      rw [if_pos hzero]
    exact absurd rfl hok
  simpa [hok, Books.note, hsame] using hb

theorem Booked.modload (hb : l.Booked b) (hn : b.loads + 1 < 2 ^ 31) :
    (l.module_load_path k path).2.Booked { b with loads := b.loads + 1 } := by
  have hyoung := hb.young.load (by omega) (modPlan_ok k l path)
  refine hb.loaded ?_ (hyoung.within (within_module_load_path path))
  rcases hb.accounts.module_load_path (hb.room (by omega)) k path with
    ha | ⟨h, hh, hneg, -⟩
  · exact ha
  have hsmall := hb.young.handle (modPlan_ok _ _ _) hh
  omega

theorem Booked.modreload (hb : l.Booked b) (hn : b.loads + 1 < 2 ^ 31) (module_id : UInt32) :
    (l.module_reload_id k module_id).2.Booked { b with loads := b.loads + 1 } := by
  have hyoung := hb.young.load (by omega) (reloadPlan_ok (k := k) module_id)
  refine hb.loaded ?_ (hyoung.within (within_module_reload_id module_id))
  rcases hb.accounts.module_reload_id (k := k) (hb.room (by omega)) module_id with
    ha | ⟨h, hh, hneg, -⟩
  · exact ha
  have hsmall := hb.young.handle (reloadPlan_ok module_id) hh
  omega

theorem Booked.modunload (hb : l.Booked b) (module_id : UInt32) :
    (l.module_unload_id module_id).2.Booked b where
  accounts := hb.accounts.module_unload_id module_id
  young := hb.young.within (within_module_unload_id module_id)
  opens := hb.opens
  closes := hb.closes
end Libs
/-! ### Runs -/
section runs
variable {l : Libs} {b : Books} {vfs : Vfs} {tr : List Syscall}
theorem Libs.Booked.library_op {k : KState} (hb : l.Booked b) {env : Env} {op : SyscallOp}
    {a0 a1 : UInt64} {rc : Int} {l' : Libs}
    (hcall : LibKernel.library_op env k l op a0 a1 = some (rc, l'))
    (hmatched : op = .dlclose → rc = 0 → b.closes a0.toUInt32 < b.opens a0.toUInt32)
    (hn : (b.note op a0.toUInt32 rc).loads < 2 ^ 31) : l'.Booked (b.note op a0.toUInt32 rc) := by
  cases op <;> simp only [LibKernel.library_op, Option.some.injEq, reduceCtorEq] at hcall <;>
    cases hcall
  case dlopen => exact hb.dlopen hn _
  case dlclose =>
    refine hb.dlclose fun hok => hmatched rfl ?_
    rw [hok]
    rfl
  case dlsym => exact hb
  case modload => exact hb.modload hn
  case modunload => exact hb.modunload _
  case modreload => exact hb.modreload hn _

theorem Books.loads_le_note (b : Books) (op : SyscallOp) (arg : UInt32) (rc : Int) :
    b.loads ≤ (b.note op arg rc).loads := by
  cases op <;> simp only [Books.note] <;> first | omega | (split <;> exact Nat.le_refl _)

theorem booked_of_reach {x : LibKernel × Books} (hr : (bookedRuns vfs).Reach Matched tr x) :
    x.2.loads < 2 ^ 31 → x.1.libs.Booked x.2 := by
  refine hr.invariant (fun x => x.2.loads < 2 ^ 31 → x.1.libs.Booked x.2) ?_ ?_
  · intro _
    exact Libs.booked_reset
  rintro ⟨s, b⟩ c ⟨s', b'⟩ ih hc hs hn
  obtain ⟨hcall, hrecord⟩ := System.logged_step_some hs
  have hcall : s.call c = s' := Option.some.inj hcall
  dsimp only at ih hrecord hn ⊢
  subst hcall hrecord
  unfold Matched at hc
  unfold Books.record at hn ⊢
  cases he : s.event c with
  | none =>
    simp only [he] at hn ⊢
    rw [LibKernel.libs_of_event_none he]
    exact ih hn
  | some e =>
  simp only [he] at hc hn ⊢
  obtain ⟨hstate, env, a0, a1, harg, hop⟩ := LibKernel.event_some he
  have hb := ih (Nat.lt_of_le_of_lt (b.loads_le_note e.op e.arg e.rc) hn)
  have hc : e.op = .dlclose → e.rc = 0 → b.closes e.arg < b.opens e.arg := hc
  rw [harg] at hc hn
  rw [hstate, harg]
  exact hb.library_op hop hc hn

/-- The counts of the libraries agree with the books. -/
structure CountsRight (s : LibKernel) (b : Books) : Prop where
  count : ∀ i, (s.libs.shlibs i).used = true → (s.libs.shlibs i).refcount.toNat =
    b.unmatched (s.libs.shlibs i).handle + s.libs.holding (s.libs.shlibs i).handle
  live : ∀ i, (s.libs.shlibs i).used = true ↔
    0 < b.unmatched (s.libs.shlibs i).handle + s.libs.holding (s.libs.shlibs i).handle
  found : ∀ h, 0 < b.unmatched h + s.libs.holding h →
    ∃ i, (s.libs.shlibs i).used = true ∧ (s.libs.shlibs i).handle = h
  distinct : ∀ i j, (s.libs.shlibs i).used = true → (s.libs.shlibs j).used = true →
    (s.libs.shlibs i).handle = (s.libs.shlibs j).handle → i = j

theorem Libs.Booked.countsRight {s : LibKernel} (hb : s.libs.Booked b) (ht : s.libs.Tidy) :
    CountsRight s b where
  count i hi := hb.accounts.counted.count i _ _ (Shlib.view_eq_some.mpr ⟨hi, rfl, rfl⟩)
  live i := by
    constructor
    · intro hi
      have hview := Shlib.view_eq_some.mpr ⟨hi, rfl, rfl⟩
      have hcount := hb.accounts.counted.count i _ _ hview
      have hused := hb.accounts.counted.used i _ _ hview
      omega
    intro hpos
    by_contra hi
    -- a free slot has the handle 0, which nothing refers to
    have hfree := ht.free i (Bool.eq_false_of_not_eq_true hi)
    rw [hfree] at hpos
    obtain ⟨j, c, hj⟩ := hb.accounts.counted.live _ hpos
    exact hb.accounts.handles j c hj
  found h hpos := by
    obtain ⟨i, c, hi⟩ := hb.accounts.counted.live h hpos
    obtain ⟨hused, hhandle, -⟩ := Shlib.view_eq_some.mp hi
    exact ⟨i, hused, hhandle⟩
  distinct i j hi hj heq :=
    hb.accounts.counted.distinct i j _ _ _ (Shlib.view_eq_some.mpr ⟨hi, rfl, rfl⟩)
      (Shlib.view_eq_some.mpr ⟨hj, heq.symm, rfl⟩)

theorem Libs.symbol_live {handle : UInt32} {name : Option CStr} {addr : UInt64}
    (h : l.symbol handle name = some addr) :
    ∃ i, (l.shlibs i).used = true ∧ (l.shlibs i).handle = handle := by
  unfold Libs.symbol at h
  cases hfind : l.shlib_find_slot_by_handle handle with
  | none =>
    rw [hfind] at h
    cases h
  | some i => exact ⟨i, Libs.used_of_find hfind, Libs.handle_of_find hfind⟩

/-- In every run with fewer than 2^31 loads in which every close that succeeds is matched to an
earlier open of its handle, the counts are right, and `DLSYM` succeeds only on the handle of
a live library. -/
theorem library_counts_right (vfs : Vfs) (tr : List Syscall) (x : LibKernel × Books)
    (hr : (bookedRuns vfs).Reach Matched tr x) (hn : x.2.loads < 2 ^ 31) :
    CountsRight x.1 x.2 ∧
    ∀ env nr (a0 a1 a2 a3 : UInt64), x.1.opOf nr = some .dlsym →
      (x.1.qos_syscall_dispatch env nr a0 a1 a2 a3).1 ≠ -1 →
      ∃ i, (x.1.libs.shlibs i).used = true ∧ (x.1.libs.shlibs i).handle = a0.toUInt32 := by
  refine ⟨(booked_of_reach hr hn).countsRight (tidy_of_reach hr.of_logged), ?_⟩
  intro env nr a0 a1 a2 a3 hop hrc
  have hcall : x.1.library_call env nr a0 a1 = some ⟨.dlsym, a0.toUInt32,
      LibKernel.address (x.1.libs.symbol a0.toUInt32 (LibKernel.text env a1)), x.1.libs⟩ := by
    simp [LibKernel.library_call, hop, LibKernel.library_op]
  rw [LibKernel.qos_syscall_dispatch, hcall] at hrc
  cases hsym : x.1.libs.symbol a0.toUInt32 (LibKernel.text env a1) with
  | none =>
    rw [hsym] at hrc
    exact absurd rfl hrc
  | some addr => exact Libs.symbol_live hsym

/-- The bytes of a shared object with one empty segment. -/
def sharedObject : List UInt8 :=
  [0x7F, 69, 76, 70, 2, 1, 1] ++ List.replicate 9 0 ++ [3, 0, 0x3E, 0] ++ List.replicate 12 0 ++
    [64] ++ List.replicate 21 0 ++ [56, 0, 1, 0] ++ List.replicate 6 0 ++ [1] ++
    List.replicate 55 0

/-- A caller with that object at address 4096, and the string `/f` at every address. -/
def libraryEnv : Env :=
  { plainEnv with byte := fun a => sharedObject.getD (a - 4096).toNat 0 }

/-- The numbers of the calls, and a file `/f` with the object in it. -/
def objectCalls : List Syscall :=
  [.register 22 17 0, .register 5 21 0, .register 7 23 0, .register 40 40 0, .register 41 41 0,
    .register 43 43 0, .register 44 44 0, .register 45 45 0, .dispatch libraryEnv 22 1 0 0 0,
    .dispatch libraryEnv 5 1 0 0 0, .dispatch libraryEnv 7 0 4096 120 0]

/-- The library is opened twice, a module is loaded from it, one open is closed, and the module
is reloaded. -/
def reloadCalls : List Syscall :=
  objectCalls ++ [.dispatch libraryEnv 40 1 0 0 0, .dispatch libraryEnv 40 1 0 0 0,
    .dispatch libraryEnv 43 1 0 0 0, .dispatch libraryEnv 41 1 0 0 0,
    .dispatch libraryEnv 45 1 0 0 0]

/-- After these calls the old library has one reference left, the new one has one. -/
theorem library_counts_right_reloaded : ∃ x,
    (bookedRuns .reset).Reach Matched reloadCalls x ∧ x.2.unmatched 1 = 1 ∧
    x.1.libs.holding 2 = 1 ∧ CountsRight x.1 x.2 := by
  refine System.exists_execIf (P := fun x => x.2.unmatched 1 = 1 ∧ x.1.libs.holding 2 = 1 ∧
    x.2.loads < 2 ^ 31) (by decide +kernel) ?_
  rintro x hr ⟨hopens, hholding, hn⟩
  exact ⟨hopens, hholding, (library_counts_right .reset reloadCalls x hr hn).1⟩
end runs
end QosKernel
