import QosKernel.Framework.System
import QosKernel.Mm.RustVmm
import QosKernel.Mm.VmmMaps

/-! # The two virtual memory managers side by side

The C kernel has a table of `QOS_VMM_MAX_MAPPINGS` slots for every address
space, the Rust kernel one such table for all of them. The same calls
give the same results as long as no new page meets a full shared table, or
as long as all pages in it are of its own address space.
-/
open Framework
namespace QosKernel
open SlotMap
/-- What a caller learns from a call: whether it was done, and for a
translation the address, if there is one. -/
inductive VmmOutcome where
  | done (ok : Bool)
  | found (pa : Option UInt64)
  deriving DecidableEq

/-- The frame 0 is not given to any page. -/
def VmmCall.FrameNonZero : VmmCall → Prop
  | .map _ _ pa _ => pa ≠ 0
  | .unmap _ _ | .translate _ _ => True

/-- In C the result 0 says that there is no translation. -/
def CVmm.outcome : VmmResult → VmmOutcome
  | .code rc => .done (rc = 0)
  | .address pa => .found (if pa = 0 then none else some pa)

namespace RustVmm
variable (s : Vmm)
def step : VmmCall → VmmOutcome × Vmm
  | .map asid va pa flags =>
    match vmm_map_as s asid va pa flags with
    | .ok s' => (.done true, s')
    | .error _ => (.done false, s)
  | .unmap asid va =>
    match vmm_unmap_as s asid va with
    | some s' => (.done true, s')
    | none => (.done false, s)
  | .translate asid va => (.found (vmm_translate_as s asid va), s)

/-- A call that needs a slot for a page: it is valid, and the page is not
mapped. -/
def Vmm.NeedsSlot : VmmCall → Prop
  | .map asid va pa flags =>
    asid_valid asid = true ∧ flags ≠ 0 ∧ is_page_aligned va = true ∧ is_page_aligned pa = true ∧
      s.table.get (asid, va) = none
  | .unmap _ _ | .translate _ _ => False

def Vmm.mappedPages : Nat := s.table.entries.length

def Vmm.mappedPagesOf (asid : UInt32) : Nat :=
  (s.table.entries.filter fun e => e.1.1 = asid).length

/-- A call that needs a slot finds fewer than `QOS_VMM_MAX_MAPPINGS` pages
mapped in all address spaces together, or that many in its own. -/
def Vmm.Fits (c : VmmCall) : Prop :=
  s.NeedsSlot c → s.mappedPages < QOS_VMM_MAX_MAPPINGS ∨
    s.mappedPagesOf c.asid = QOS_VMM_MAX_MAPPINGS
end RustVmm
namespace VmmPair
variable {asid : UInt32}
structure Pair where
  c : CVmm.Vmm
  rust : RustVmm.Vmm

def step (s : Pair) (call : VmmCall) : Pair :=
  ⟨(CVmm.step s.c call).2, (RustVmm.step s.rust call).2⟩

def system : System Pair VmmCall := .ofStep ⟨CVmm.qos_vmm_reset, RustVmm.vmm_reset⟩ step

section
variable (s : Pair) (call : VmmCall)
/-- The calls give the same outcome. -/
def Agree : Prop :=
  CVmm.outcome (CVmm.step s.c call).1 = (RustVmm.step s.rust call).1

/-- The condition on the calls of a run. -/
def Within : Prop := call.FrameNonZero ∧ s.rust.Fits call
end
/-! ### Tables with the same mappings -/
def toC (m : RustVmm.Mapping) : CVmm.Mapping := ⟨m.pa, m.flags⟩

/-- The tables hold the same mappings, of valid address spaces and of frames
that are aligned and not 0. -/
structure Same (s : Pair) : Prop where
  get : ∀ asid a p, CVmm.asid_valid asid = some a →
    (s.c.tables a).get p = (s.rust.table.get (asid, p)).map toC
  valid : ∀ asid p, s.rust.table.get (asid, p) ≠ none → RustVmm.asid_valid asid = true
  frame : ∀ k m, s.rust.table.get k = some m → m.pa ≠ 0 ∧ is_page_aligned m.pa = true

theorem asid_valid_iff : RustVmm.asid_valid asid = true ↔ ∃ a, CVmm.asid_valid asid = some a := by
  unfold RustVmm.asid_valid CVmm.asid_valid
  rw [decide_eq_true_iff]
  constructor
  · intro h
    exact ⟨⟨asid.toNat, h⟩, dif_pos h⟩
  rintro ⟨a, h⟩
  split at h
  next hlt => exact hlt
  next => cases h

theorem asid_valid_none (h : CVmm.asid_valid asid = none) : RustVmm.asid_valid asid = false := by
  rw [Bool.eq_false_iff, Ne, asid_valid_iff]
  rintro ⟨a, ha⟩
  rw [h] at ha
  cases ha

section
variable {va pa : UInt64} {flags : UInt32} {s : Pair} {asid : UInt32} {a : Fin CVmm.QOS_VMM_MAX_AS}
theorem Same.ncard (h : Same s) (ha : CVmm.asid_valid asid = some a) :
    (PartialMap.keys (s.c.tables a).get).ncard = s.rust.mappedPagesOf asid := by
  have himage : {k | k ∈ PartialMap.keys s.rust.table.get ∧ decide (k.1 = asid) = true} =
      (fun p => (asid, p)) '' PartialMap.keys (s.c.tables a).get := by
    ext ⟨b, p⟩
    simp only [PartialMap.keys, Set.mem_ofPred_eq, decide_eq_true_eq, Set.mem_image,
      Prod.mk.injEq, h.get asid a _ ha, ne_eq, Option.map_eq_none_iff]
    constructor
    · rintro ⟨hget, rfl⟩
      exact ⟨p, hget, rfl, rfl⟩
    rintro ⟨q, hget, rfl, rfl⟩
    exact ⟨hget, rfl⟩
  have hinj : Function.Injective fun p : UInt64 => (asid, p) := fun p q hpq => (Prod.mk.inj hpq).2
  rw [RustVmm.Vmm.mappedPagesOf,
    ← s.rust.table.ncard_keys_filter fun k : UInt32 × UInt64 => decide (k.1 = asid), himage,
    Set.ncard_image_of_injective _ hinj]

section
variable (t : RustVmm.Vmm)
theorem mappedPagesOf_le (asid : UInt32) : t.mappedPagesOf asid ≤ t.mappedPages :=
  List.length_filter_le _ _

theorem mappedPages_add_room : t.mappedPages + t.table.room = RustVmm.QOS_VMM_MAX_MAPPINGS :=
  t.table.length_entries

/-! ### One call -/
theorem rust_map_outcome (hvalid : RustVmm.asid_valid asid = true)
    (hflags : flags ≠ 0) (hva : is_page_aligned va = true) (hpa : is_page_aligned pa = true) :
    RustVmm.vmm_map_as t asid va pa flags = (match t.table.put (asid, va) ⟨pa, flags⟩ with
      | some t' => .ok { t with table := t' }
      | none => .error .VmmFull) := by
  unfold RustVmm.vmm_map_as
  rw [align_down_of_aligned hva]
  cases t.table.put (asid, va) ⟨pa, flags⟩ <;>
    simp only [hvalid, beq_eq_false_iff_ne.mpr hflags, hva, hpa, Bool.not_true, Bool.or_false,
      Bool.false_eq_true, if_false]
end
theorem c_map_outcome (t : CVmm.Vmm) (ha : CVmm.asid_valid asid = some a) (hflags : flags ≠ 0)
    (hva : is_page_aligned va = true) (hpa : is_page_aligned pa = true) :
    CVmm.qos_vmm_map_as t asid va pa flags = (match (t.tables a).put va ⟨pa, flags⟩ with
      | some t' => (0, { t with tables := set t.tables a t' })
      | none => (-1, t)) := by
  unfold CVmm.qos_vmm_map_as
  rw [ha, align_down_of_aligned hva]
  dsimp only
  have haligned := not_or.mpr ⟨CVmm.aligned_iff.mpr hva, CVmm.aligned_iff.mpr hpa⟩
  cases (t.tables a).put va ⟨pa, flags⟩ <;> rw [if_neg hflags, if_neg haligned]

theorem map_invalid (h : ¬(RustVmm.asid_valid asid = true ∧ flags ≠ 0 ∧ is_page_aligned va = true ∧
      is_page_aligned pa = true)) :
    CVmm.qos_vmm_map_as s.c asid va pa flags = (-1, s.c) ∧
    RustVmm.vmm_map_as s.rust asid va pa flags = .error .InvalidAddress := by
  constructor
  · unfold CVmm.qos_vmm_map_as
    cases ha : CVmm.asid_valid asid with
    | none => rfl
    | some a =>
    dsimp only
    by_cases hflags : flags = 0
    · rw [if_pos hflags]
    rw [if_neg hflags, if_pos]
    by_contra hnot
    obtain ⟨hva, hpa⟩ := not_or.mp hnot
    exact h ⟨asid_valid_iff.mpr ⟨a, ha⟩, hflags, CVmm.aligned_iff.mp hva, CVmm.aligned_iff.mp hpa⟩
  unfold RustVmm.vmm_map_as
  rw [if_pos]
  by_contra hnot
  simp only [Bool.or_eq_true, Bool.not_eq_true', beq_iff_eq, not_or, Bool.not_eq_false] at hnot
  exact h ⟨hnot.1.1.1, hnot.1.1.2, hnot.1.2, hnot.2⟩

theorem Same.room_iff (h : Same s) (ha : CVmm.asid_valid asid = some a) :
    ((s.c.tables a).room = 0 ↔ s.rust.table.room = 0) ↔
      (s.rust.mappedPages < RustVmm.QOS_VMM_MAX_MAPPINGS ∨
        s.rust.mappedPagesOf asid = RustVmm.QOS_VMM_MAX_MAPPINGS) := by
  have hc := (s.c.tables a).ncard_keys_add_room
  rw [h.ncard ha] at hc
  have hrust := mappedPages_add_room s.rust
  have hle := mappedPagesOf_le s.rust asid
  have hcap : CVmm.QOS_VMM_MAX_MAPPINGS = RustVmm.QOS_VMM_MAX_MAPPINGS := rfl
  omega

theorem unmap_outcomes (s : Pair) (asid : UInt32) (va : UInt64) :
    (CVmm.qos_vmm_unmap_as s.c asid va = (-1, s.c) ∧ RustVmm.vmm_unmap_as s.rust asid va = none ∧
      ¬(RustVmm.asid_valid asid = true ∧ is_page_aligned va = true)) ∨
    ∃ a, CVmm.asid_valid asid = some a ∧ is_page_aligned va = true ∧
      CVmm.qos_vmm_unmap_as s.c asid va = (match (s.c.tables a).del va with
        | some t => (0, { s.c with tables := set s.c.tables a t })
        | none => (-1, s.c)) ∧
      RustVmm.vmm_unmap_as s.rust asid va = (s.rust.table.del (asid, va)).map fun t =>
        { s.rust with table := t } := by
  unfold CVmm.qos_vmm_unmap_as RustVmm.vmm_unmap_as
  cases ha : CVmm.asid_valid asid with
  | none =>
    have hvalid := asid_valid_none ha
    exact .inl ⟨rfl, by simp [hvalid], fun h => by rw [hvalid] at h; cases h.1⟩
  | some a =>
  have hvalid := asid_valid_iff.mpr ⟨a, ha⟩
  by_cases hva : is_page_aligned va = true
  · refine .inr ⟨a, rfl, hva, ?_, ?_⟩
    · dsimp only
      rw [align_down_of_aligned hva]
      cases (s.c.tables a).del va <;> rw [if_neg (CVmm.aligned_iff.mpr hva)]
    rw [align_down_of_aligned hva]
    cases s.rust.table.del (asid, va) <;>
      simp only [hvalid, hva, Bool.not_true, Bool.or_false, Bool.false_eq_true, if_false,
        Option.map_none, Option.map_some]
  refine .inl ⟨?_, by simp [hva], fun h => hva h.2⟩
  dsimp only
  rw [if_pos (by simpa [is_page_aligned] using hva)]

theorem Same.write (h : Same s) {o : Option RustVmm.Mapping}
    {t : SlotMap UInt64 CVmm.Mapping CVmm.QOS_VMM_MAX_MAPPINGS}
    {t' : SlotMap (UInt32 × UInt64) RustVmm.Mapping RustVmm.QOS_VMM_MAX_MAPPINGS}
    (ha : CVmm.asid_valid asid = some a)
    (ht : ∀ p, t.get p = if p = va then o.map toC else (s.c.tables a).get p)
    (ht' : ∀ k, t'.get k = if k = (asid, va) then o else s.rust.table.get k)
    (ho : ∀ m, o = some m → m.pa ≠ 0 ∧ is_page_aligned m.pa = true) :
    Same ⟨{ s.c with tables := set s.c.tables a t }, { s.rust with table := t' }⟩ where
  get b a' p hb := by
    rw [ht' (b, p)]
    by_cases haa : a' = a
    · subst haa
      obtain rfl := CVmm.asid_valid_inj hb ha
      dsimp only
      rw [set_self, ht p]
      by_cases hp : p = va
      · rw [if_pos hp, if_pos (by rw [hp])]
      rw [if_neg hp, if_neg fun e => hp (Prod.mk.inj e).2]
      exact h.get b a' p ha
    have hba : b ≠ asid := by
      rintro rfl
      exact haa (Option.some.inj (hb.symm.trans ha))
    dsimp only
    rw [set_ne haa, if_neg fun e => hba (Prod.mk.inj e).1]
    exact h.get b a' p hb
  valid b p hget := by
    rw [ht' (b, p)] at hget
    by_cases hk : (b, p) = (asid, va)
    · rw [(Prod.mk.inj hk).1]
      exact asid_valid_iff.mpr ⟨a, ha⟩
    rw [if_neg hk] at hget
    exact h.valid b p hget
  frame k m hm := by
    rw [ht' k] at hm
    split at hm
    · exact ho m hm
    exact h.frame k m hm

theorem Same.map (h : Same s) (asid : UInt32) (va pa : UInt64) (flags : UInt32) :
    (Agree s (.map asid va pa flags) ↔ s.rust.Fits (.map asid va pa flags)) ∧
      (pa ≠ 0 → Agree s (.map asid va pa flags) → Same (step s (.map asid va pa flags))) := by
  unfold Agree step CVmm.step RustVmm.step
  by_cases hargs : RustVmm.asid_valid asid = true ∧ flags ≠ 0 ∧ is_page_aligned va = true ∧
      is_page_aligned pa = true
  · obtain ⟨hvalid, hflags, hva, hpa⟩ := hargs
    obtain ⟨a, ha⟩ := asid_valid_iff.mp hvalid
    have hc := c_map_outcome s.c ha hflags hva hpa
    have hrust := rust_map_outcome s.rust hvalid hflags hva hpa
    dsimp only
    rw [hc, hrust]
    -- each of them fails for a new page that finds no room
    have hget := h.get asid a va ha
    have hneeds : s.rust.NeedsSlot (.map asid va pa flags) ↔ s.rust.table.get (asid, va) = none :=
      ⟨fun hn => hn.2.2.2.2, fun hn => ⟨hvalid, hflags, hva, hpa, hn⟩⟩
    rw [RustVmm.Vmm.Fits, hneeds]
    have hroom := h.room_iff ha
    cases hput : (s.c.tables a).put va ⟨pa, flags⟩ with
    | none =>
      obtain ⟨hnone, hfull⟩ := put_eq_none.mp hput
      have hnone' : s.rust.table.get (asid, va) = none := by
        rw [hget, Option.map_eq_none_iff] at hnone
        exact hnone
      cases hput' : s.rust.table.put (asid, va) ⟨pa, flags⟩ with
      | none =>
        have hfull' := (put_eq_none.mp hput').2
        exact ⟨iff_of_true rfl fun _ => hroom.mp (iff_of_true hfull hfull'), fun _ _ => h⟩
      | some t =>
      have hroom' : s.rust.table.room ≠ 0 := by
        intro hz
        rw [put_eq_none.mpr ⟨hnone', hz⟩] at hput'
        cases hput'
      refine ⟨iff_of_false (by simp [CVmm.outcome]) fun hfits => hroom' ?_,
        fun _ hagree => by simp [CVmm.outcome] at hagree⟩
      exact (hroom.mpr (hfits hnone')).mp hfull
    | some t =>
    cases hput' : s.rust.table.put (asid, va) ⟨pa, flags⟩ with
    | none =>
      obtain ⟨hnone', hfull'⟩ := put_eq_none.mp hput'
      have hroom' : (s.c.tables a).room ≠ 0 := by
        intro hz
        rw [put_eq_none.mpr ⟨by rw [hget, hnone']; rfl, hz⟩] at hput
        cases hput
      refine ⟨iff_of_false (by simp [CVmm.outcome]) fun hfits => hroom' ?_,
        fun _ hagree => by simp [CVmm.outcome] at hagree⟩
      exact (hroom.mpr (hfits hnone')).mpr hfull'
    | some t' =>
    refine ⟨iff_of_true rfl fun hnone' => hroom.mp ?_, fun hpa0 _ => ?_⟩
    · have hr := (put_eq_some hput).2
      have hr' := (put_eq_some hput').2
      rw [if_pos (by rw [hget, hnone']; rfl)] at hr
      rw [if_pos hnone'] at hr'
      omega
    refine h.write (o := some ⟨pa, flags⟩) ha (put_eq_some hput).1
      (put_eq_some hput').1 fun m hm => ?_
    cases hm
    exact ⟨hpa0, hpa⟩
  obtain ⟨hc, hrust⟩ := map_invalid (s := s) hargs
  dsimp only
  rw [hc, hrust]
  exact ⟨iff_of_true rfl fun hn => absurd ⟨hn.1, hn.2.1, hn.2.2.1, hn.2.2.2.1⟩ hargs, fun _ _ => h⟩

theorem Same.del_none_iff (h : Same s) (va : UInt64) (ha : CVmm.asid_valid asid = some a) :
    (s.c.tables a).del va = none ↔ s.rust.table.del (asid, va) = none := by
  rw [del_eq_none, del_eq_none, h.get asid a va ha, Option.map_eq_none_iff]

theorem Same.unmap (h : Same s) (asid : UInt32) (va : UInt64) :
    Agree s (.unmap asid va) ∧ Same (step s (.unmap asid va)) := by
  unfold Agree step CVmm.step RustVmm.step
  dsimp only
  obtain ⟨hc, hrust, -⟩ | ⟨a, ha, -, hc, hrust⟩ := unmap_outcomes s asid va
  · rw [hc, hrust]
    exact ⟨rfl, h⟩
  rw [hc, hrust]
  have hiff := h.del_none_iff va ha
  cases hdel : (s.c.tables a).del va with
  | none =>
    rw [hiff.mp hdel]
    exact ⟨rfl, h⟩
  | some t =>
  cases hdel' : s.rust.table.del (asid, va) with
  | none =>
    rw [hiff.mpr hdel'] at hdel
    cases hdel
  | some t' =>
  exact ⟨rfl, h.write (o := none) ha (del_eq_some hdel).1 (del_eq_some hdel').1
    fun m hm => by cases hm⟩

theorem address_ne_zero (va : UInt64) (hne : pa ≠ 0) (hpa : is_page_aligned pa = true) :
    pa + (va &&& (QOS_PAGE_SIZE - 1)) ≠ 0 := by
  rw [is_page_aligned_iff] at hpa
  have hoff : (va &&& (QOS_PAGE_SIZE - 1)).toNat = va.toNat % 4096 := UInt64.toNat_and_4095 va
  have hpos : pa.toNat ≠ 0 := fun h => hne (UInt64.toNat_inj.mp h)
  have hlt := pa.toNat_lt
  intro hzero
  rw [← UInt64.toNat_inj, UInt64.toNat_add, hoff] at hzero
  have hmod : (pa.toNat + va.toNat % 4096) % 2 ^ 64 = 0 := hzero
  omega

theorem Same.translate_agree (h : Same s) (asid : UInt32) (va : UInt64) :
    Agree s (.translate asid va) := by
  unfold Agree CVmm.step RustVmm.step
  dsimp only [CVmm.outcome]
  unfold CVmm.qos_vmm_translate_as RustVmm.vmm_translate_as
  cases ha : CVmm.asid_valid asid with
  | none =>
    rw [asid_valid_none ha]
    rfl
  | some a =>
  rw [asid_valid_iff.mpr ⟨a, ha⟩]
  simp only [CVmm.translation, h.get asid a _ ha]
  cases hm : s.rust.table.get (asid, align_down va) with
  | none => rfl
  | some m =>
  obtain ⟨hne, hpa⟩ := h.frame _ m hm
  have haddr := address_ne_zero va hne hpa
  simp [toC, haddr]

theorem Same.agree_iff (h : Same s) (call : VmmCall) : Agree s call ↔ s.rust.Fits call := by
  cases call with
  | map asid va pa flags => exact (h.map asid va pa flags).1
  | unmap asid va => exact iff_of_true (h.unmap asid va).1 fun hn => hn.elim
  | translate asid va => exact iff_of_true (h.translate_agree asid va) fun hn => hn.elim

/-! ### Runs -/
theorem Same.reset : Same ⟨CVmm.qos_vmm_reset, RustVmm.vmm_reset⟩ where
  get asid a p _ := by simp only [CVmm.qos_vmm_reset, RustVmm.vmm_reset, get_empty, Option.map_none]
  valid asid p h := by simp only [RustVmm.vmm_reset, get_empty, ne_eq, not_true] at h
  frame k m h := by simp only [RustVmm.vmm_reset, get_empty, reduceCtorEq] at h

theorem Same.step (h : Same s) {call : VmmCall} (hc : Within s call) : Same (step s call) := by
  cases call with
  | map asid va pa flags => exact (h.map asid va pa flags).2 hc.1 ((h.agree_iff _).mpr hc.2)
  | unmap asid va => exact (h.unmap asid va).2
  | translate asid va => exact h
end
theorem same_of_reach {tr : List VmmCall} {s : Pair} (hr : system.Reach Within tr s) : Same s := by
  apply hr.invariant Same Same.reset
  intro s call s' h hc hs
  cases hs
  exact h.step hc
end VmmPair
/-- In every run in which each new page finds fewer than 2048 pages mapped in
all address spaces together, or 2048 in its own, the next call gives the
same outcome in both kernels exactly if it meets this condition too. -/
theorem vmms_equivalent (tr : List VmmCall) (s : VmmPair.Pair)
    (hr : VmmPair.system.Reach VmmPair.Within tr s) (call : VmmCall) :
    VmmPair.Agree s call ↔ s.rust.Fits call :=
  (VmmPair.same_of_reach hr).agree_iff call

/-! ### A full shared table -/
namespace VmmPair
variable {n : Nat}
/-- Maps the page with number `k` in the address space 0. -/
def mapPage (k : Nat) : VmmCall := .map 0 (UInt64.ofNat (4096 * k)) 4096 1

/-- Maps the first `n` pages in the address space 0. -/
def fill (n : Nat) : List VmmCall := (List.range n).map mapPage

/-- The shared table holds the first `n` pages of the address space 0 and
nothing else. -/
structure Filled (n : Nat) (t : RustVmm.Vmm) : Prop where
  room : t.table.room = RustVmm.QOS_VMM_MAX_MAPPINGS - n
  get : ∀ asid p, t.table.get (asid, p) ≠ none → asid = 0 ∧ ∃ k < n, p = UInt64.ofNat (4096 * k)

theorem page_aligned (k : Nat) : is_page_aligned (UInt64.ofNat (4096 * k)) = true := by
  rw [is_page_aligned_iff, UInt64.toNat_ofNat']
  omega

theorem page_inj {j k : Nat} (hj : j < 2048) (hk : k < 2048)
    (h : UInt64.ofNat (4096 * j) = UInt64.ofNat (4096 * k)) : j = k := by
  rw [← UInt64.toNat_inj, UInt64.toNat_ofNat', UInt64.toNat_ofNat'] at h
  omega

theorem Filled.map {t : RustVmm.Vmm} (h : Filled n t) (hn : n < RustVmm.QOS_VMM_MAX_MAPPINGS) :
    Filled (n + 1) (RustVmm.step t (mapPage n)).2 := by
  have hn' : n < 2048 := hn
  have hva := page_aligned n
  have hget : t.table.get (0, UInt64.ofNat (4096 * n)) = none := by
    by_contra hne
    obtain ⟨-, k, hk, hpage⟩ := h.get _ _ hne
    have := page_inj hn' (Nat.lt_trans hk hn') hpage
    omega
  have hroom : t.table.room ≠ 0 := by
    rw [h.room]
    omega
  have heq : RustVmm.step t (mapPage n) =
      match t.table.put (0, UInt64.ofNat (4096 * n)) ⟨4096, 1⟩ with
      | some t' => (.done true, { t with table := t' })
      | none => (.done false, t) := by
    have hmap : RustVmm.vmm_map_as t 0 (UInt64.ofNat (4096 * n)) 4096 1 = _ :=
      rust_map_outcome t (by decide) (by decide) hva (by decide)
    simp only [RustVmm.step, mapPage, hmap]
    cases t.table.put (0, UInt64.ofNat (4096 * n)) ⟨4096, 1⟩ <;> dsimp only
  rw [heq]
  cases hput : t.table.put (0, UInt64.ofNat (4096 * n)) ⟨4096, 1⟩ with
  | none => exact absurd (put_eq_none.mp hput).2 hroom
  | some t' =>
  obtain ⟨hget', hroom'⟩ := put_eq_some hput
  rw [if_pos hget, h.room] at hroom'
  refine ⟨by dsimp only; omega, fun asid p hne => ?_⟩
  dsimp only at hne
  rw [hget'] at hne
  by_cases hk : (asid, p) = (0, UInt64.ofNat (4096 * n))
  · exact ⟨(Prod.mk.inj hk).1, n, Nat.lt_succ_self n, (Prod.mk.inj hk).2⟩
  rw [if_neg hk] at hne
  obtain ⟨hasid, k, hlt, hpage⟩ := h.get asid p hne
  exact ⟨hasid, k, Nat.lt_succ_of_lt hlt, hpage⟩

theorem fill_reach (hn : n ≤ RustVmm.QOS_VMM_MAX_MAPPINGS) :
    ∃ s, system.Reach Within (fill n) s ∧ Filled n s.rust := by
  induction n with
  | zero =>
    refine ⟨_, .init, ⟨?_, fun asid p h => ?_⟩⟩
    · simp [system, System.ofStep, RustVmm.vmm_reset, room, empty]
    simp only [system, System.ofStep, RustVmm.vmm_reset, get_empty, ne_eq, not_true] at h
  | succ n ih =>
  obtain ⟨s, hr, hfilled⟩ := ih (Nat.le_of_succ_le hn)
  refine ⟨step s (mapPage n), ?_, hfilled.map hn⟩
  have htrace : fill (n + 1) = fill n ++ [mapPage n] := by
    rw [fill, List.range_succ, List.map_append]
    rfl
  rw [htrace]
  refine .step hr ⟨show (4096 : UInt64) ≠ 0 by decide, fun _ => .inl ?_⟩ rfl
  -- so far `n` pages are mapped
  have hsum := mappedPages_add_room s.rust
  rw [hfilled.room] at hsum
  omega
end VmmPair
/-- Any number of pages up to 2048 in one address space is such a run. -/
theorem vmms_equivalent_filled : ∃ s,
    VmmPair.system.Reach VmmPair.Within (VmmPair.fill 2048) s ∧
      (VmmPair.Agree s (.translate 0 4096) ↔ s.rust.Fits (.translate 0 4096)) := by
  obtain ⟨s, hr, -⟩ := VmmPair.fill_reach (n := 2048) (Nat.le_refl _)
  exact ⟨s, hr, vmms_equivalent _ s hr _⟩

/-- After 2048 pages in the address space 0, a page of the address space 1 is
mapped in C and refused in Rust. -/
theorem full_table_differs : ∃ s,
    VmmPair.system.Reach anyStep (VmmPair.fill 2048) s ∧
      CVmm.outcome (CVmm.step s.c (.map 1 4096 4096 1)).1 ≠
        (RustVmm.step s.rust (.map 1 4096 4096 1)).1 := by
  obtain ⟨s, hr, hfilled⟩ := VmmPair.fill_reach (n := 2048) (Nat.le_refl _)
  have hnone : s.rust.table.get (1, 4096) = none := by
    by_contra hne
    exact absurd (hfilled.get _ _ hne).1 (by decide)
  refine ⟨s, hr.weaken fun _ _ _ => trivial, fun hagree => ?_⟩
  have hfits := ((VmmPair.same_of_reach hr).agree_iff (.map 1 4096 4096 1)).mp hagree
  have hsum := VmmPair.mappedPages_add_room s.rust
  rcases hfits ⟨by decide, by decide, by decide, by decide, hnone⟩ with hlt | hall
  · rw [hfilled.room, RustVmm.QOS_VMM_MAX_MAPPINGS] at hsum
    rw [RustVmm.QOS_VMM_MAX_MAPPINGS] at hlt
    omega
  -- no page of the address space 1 is mapped
  have hempty : (s.rust.table.entries.filter fun e => e.1.1 = (1 : UInt32)) = [] := by
    rw [List.filter_eq_nil_iff]
    rintro ⟨⟨asid, p⟩, m⟩ hmem hasid
    have hget := mem_entries.mp hmem
    have hzero := (hfilled.get asid p (by rw [hget]; simp)).1
    rw [decide_eq_true_iff] at hasid
    exact absurd (hasid.symm.trans hzero) (by decide)
  rw [RustVmm.Vmm.mappedPagesOf, VmmCall.asid, hempty] at hall
  exact absurd hall (by decide)
end QosKernel
