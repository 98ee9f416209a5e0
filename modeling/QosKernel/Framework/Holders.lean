import QosKernel.Framework.Slots

/-! # Resources and their holders

A table of rows, each of which may hold resources, and elsewhere some
record of which resources are taken. No counts are kept: a resource is
released when a scan finds no row that holds it.

`Covers` ties the two together, with a lower and an upper bound, since
some resources may be taken without a holder. `Covers.set` is the only
rule that writes a row; the rules after it are its uses.
-/
namespace Framework
variable {n : Nat}
/-! ### Rows that hold resources -/
section Covers
variable {n : Nat} {Row : Type u} {R : Type v} {holds : Row → R → Prop} {rows : Fin n → Row}
  {i : Fin n} {row : Row} {lo hi lo' hi' : R → Prop}
/-- Some row holds `r`. -/
def Held (holds : Row → R → Prop) (rows : Fin n → Row) (r : R) : Prop := ∃ i, holds (rows i) r

theorem held_set {r : R} (h : Held holds (set rows i row) r) : holds row r ∨ Held holds rows r := by
  obtain ⟨j, hj⟩ := h
  by_cases hji : j = i
  · subst hji
    exact .inl (by simpa using hj)
  exact .inr ⟨j, by simpa [hji] using hj⟩

/-- The rows other than `i` still hold what they held. -/
theorem Held.of_set {r : R} (h : Held holds rows r) (hi : ¬holds (rows i) r) :
    Held holds (set rows i row) r := by
  obtain ⟨j, hj⟩ := h
  have hji : j ≠ i := fun e => hi (e ▸ hj)
  exact ⟨j, by simpa [hji] using hj⟩

/-- Whatever is in `lo` is held, and whatever is held is in `hi`. -/
structure Covers (holds : Row → R → Prop) (rows : Fin n → Row) (lo hi : R → Prop) : Prop where
  held : ∀ r, lo r → Held holds rows r
  live : ∀ r, Held holds rows r → hi r

/-- A row is written. What is in the new `lo` is in the new row, or it was in
the old `lo` and is not lost with the old row. -/
theorem Covers.set (h : Covers holds rows lo hi)
    (hlo : ∀ r, lo' r → holds row r ∨ (lo r ∧ (holds (rows i) r → Held holds (set rows i row) r)))
    (hrow : ∀ r, holds row r → hi' r)
    (hhi : ∀ r, hi r → Held holds (Framework.set rows i row) r → hi' r) :
    Covers holds (Framework.set rows i row) lo' hi' where
  held r hr := by
    rcases hlo r hr with hnew | ⟨hold, hkept⟩
    · exact ⟨i, by simpa using hnew⟩
    by_cases hrow : holds (rows i) r
    · exact hkept hrow
    exact (h.held r hold).of_set hrow
  live r hr := by
    rcases held_set hr with hnew | hold
    · exact hrow r hnew
    exact hhi r (h.live r hold) hr

theorem Covers.share (h : Covers holds rows lo hi) (hempty : ∀ r, ¬holds (rows i) r)
    (hrow : ∀ r, holds row r → hi r) : Covers holds (Framework.set rows i row) lo hi :=
  h.set (fun r hr => .inr ⟨hr, fun hold => absurd hold (hempty r)⟩) hrow fun _ hr _ => hr

theorem Covers.acquire (h : Covers holds rows lo hi) (hempty : ∀ r, ¬holds (rows i) r)
    (hlo : ∀ r, lo' r → lo r ∨ holds row r) (hrow : ∀ r, holds row r → hi' r)
    (hhi : ∀ r, hi r → hi' r) : Covers holds (Framework.set rows i row) lo' hi' := by
  apply h.set
  · intro r hr
    rcases hlo r hr with hr | hr
    · exact .inr ⟨hr, fun hold => absurd hold (hempty r)⟩
    exact .inl hr
  · exact hrow
  exact fun r hr _ => hhi r hr

/-- The records after the resources that meet `named` were given back, as far
as no row holds them: none of those is left in the lower record, and what
rows hold is left in the upper one. -/
structure GivenBack (holds : Row → R → Prop) (named : R → Prop) (rows : Fin n → Row)
    (lo hi lo' hi' : R → Prop) : Prop where
  gone : ∀ r, lo' r → lo r ∧ (named r → Held holds rows r)
  stays : ∀ r, hi r → Held holds rows r → hi' r

/-- A row is emptied, and what it named is given back. -/
theorem Covers.close {named : R → Prop} (h : Covers holds rows lo hi)
    (hrow : ∀ r, ¬holds row r) (hnamed : ∀ r, holds (rows i) r → named r)
    (hg : GivenBack holds named (Framework.set rows i row) lo hi lo' hi') :
    Covers holds (Framework.set rows i row) lo' hi' := by
  apply h.set
  · intro r hr
    obtain ⟨hlo, hkept⟩ := hg.gone r hr
    exact .inr ⟨hlo, fun hold => hkept (hnamed r hold)⟩
  · exact fun r hr => absurd hr (hrow r)
  exact hg.stays

theorem Covers.giveBack {named : R → Prop} (h : Covers holds rows lo hi)
    (hg : GivenBack holds named rows lo hi lo' hi') : Covers holds rows lo' hi' where
  held r hr := h.held r (hg.gone r hr).1
  live r hr := hg.stays r (h.live r hr) hr

/-- Nothing is given back, since all that is named has a holder. -/
theorem GivenBack.nothing {named : R → Prop} (h : ∀ r, lo r → named r → Held holds rows r) :
    GivenBack holds named rows lo hi lo hi :=
  ⟨fun r hr => ⟨hr, h r hr⟩, fun _ hr _ => hr⟩

theorem GivenBack.one {named : R → Prop} {r₀ : R} (hnot : ¬Held holds rows r₀)
    (hnamed : ∀ r, named r → r = r₀) (hlo : ∀ r, lo' r → lo r ∧ r ≠ r₀)
    (hhi : ∀ r, hi r → r ≠ r₀ → hi' r) : GivenBack holds named rows lo hi lo' hi' where
  gone r hr := ⟨(hlo r hr).1, fun hn => absurd (hnamed r hn) (hlo r hr).2⟩
  stays r hr hheld := hhi r hr fun e => hnot (e ▸ hheld)

theorem Covers.keep (h : Covers holds rows lo hi) (hrow : ∀ r, holds row r ↔ holds (rows i) r) :
    Covers holds (Framework.set rows i row) lo hi := by
  apply h.set
  · intro r hr
    by_cases hnew : holds row r
    · exact .inl hnew
    exact .inr ⟨hr, fun hold => absurd ((hrow r).mpr hold) hnew⟩
  · exact fun r hr => h.live r ⟨i, (hrow r).mp hr⟩
  exact fun _ hr _ => hr

theorem Covers.mono (h : Covers holds rows lo hi) (hlo : ∀ r, lo' r → lo r)
    (hhi : ∀ r, hi r → Held holds rows r → hi' r) : Covers holds rows lo' hi' where
  held r hr := h.held r (hlo r hr)
  live r hr := hhi r (h.live r hr) hr
end Covers
/-! ### Slots by number -/
/-- Slot `i` exists and meets `P`. -/
def SlotIs {n : Nat} {α : Type u} (P : α → Prop) (t : Fin n → α) (i : Nat) : Prop :=
  ∃ h : i < n, P (t ⟨i, h⟩)

theorem slotIs_set {α : Type u} {P : α → Prop} {t : Fin n → α} {f : Fin n} {a : α} {i : Nat} :
    SlotIs P (set t f a) i ↔ (i = f.val ∧ P a) ∨ (i ≠ f.val ∧ SlotIs P t i) := by
  by_cases hi : i = f.val
  · subst hi
    simp [SlotIs]
  have hne : ∀ h : i < n, (⟨i, h⟩ : Fin n) ≠ f := fun h e => hi (congrArg Fin.val e)
  simp [SlotIs, hi, set_ne (hne _)]

theorem slotIs_val {α : Type u} {P : α → Prop} {t : Fin n → α} {f : Fin n} :
    SlotIs P t f.val ↔ P (t f) := by
  simp [SlotIs]

/-! ### Registers: tables of keys without order -/
section Registered
variable {n : Nat} {κ : Type u} {t : Fin n → Option κ} {i : Fin n} {k k' : κ}
section
variable (t : Fin n → Option κ)
def Registered (k : κ) : Prop := ∃ i, t i = some k

/-- No key is in two slots. -/
def Distinct : Prop := ∀ i j k, t i = some k → t j = some k → i = j
end
theorem registered_add (hi : t i = none) :
    Registered (set t i (some k)) k' ↔ Registered t k' ∨ k' = k := by
  constructor
  · intro ⟨j, hj⟩
    by_cases hji : j = i
    · subst hji
      exact .inr (by simpa using hj.symm)
    exact .inl ⟨j, by simpa [hji] using hj⟩
  intro h
  rcases h with ⟨j, hj⟩ | rfl
  · have hji : j ≠ i := fun e => by simp [e, hi] at hj
    exact ⟨j, by simpa [hji] using hj⟩
  exact ⟨i, by simp⟩

theorem Distinct.add (h : Distinct t) (hk : ¬Registered t k) : Distinct (set t i (some k)) := by
  intro a b k' ha hb
  rw [set_apply] at ha hb
  split at ha <;> split at hb
  · next ha' hb' => rw [ha', hb']
  · exact absurd ⟨b, (Option.some.inj ha) ▸ hb⟩ hk
  · exact absurd ⟨a, (Option.some.inj hb) ▸ ha⟩ hk
  exact h a b k' ha hb

theorem registered_remove (h : Distinct t) (hi : t i = some k) :
    Registered (set t i none) k' ↔ Registered t k' ∧ k' ≠ k := by
  constructor
  · intro ⟨j, hj⟩
    by_cases hji : j = i
    · simp [hji] at hj
    have hj : t j = some k' := by simpa [hji] using hj
    refine ⟨⟨j, hj⟩, fun e => hji (h j i k (e ▸ hj) hi)⟩
  intro ⟨⟨j, hj⟩, hne⟩
  have hji : j ≠ i := fun e => hne (by rw [e, hi] at hj; exact (Option.some.inj hj).symm)
  exact ⟨j, by simpa [hji] using hj⟩

theorem Distinct.remove (h : Distinct t) : Distinct (set t i none) := by
  intro a b k ha hb
  rw [set_apply] at ha hb
  split at ha <;> split at hb
  · cases ha
  · cases ha
  · cases hb
  exact h a b k ha hb

section
variable {S : Finset κ} (hd : Distinct t) (hS : ∀ k, k ∈ S ↔ Registered t k)
include hd hS
theorem Distinct.card_eq : S.card = (Finset.univ.filter fun i => (t i).isSome).card := by
  refine (Finset.card_bij (fun i hi => (t i).get (Finset.mem_filter.mp hi).2) ?_ ?_ ?_).symm
  · exact fun i _ => (hS _).mpr ⟨i, (Option.some_get _).symm⟩
  · intro i hi j hj heq
    refine hd i j _ (Option.some_get (Finset.mem_filter.mp hi).2).symm ?_
    rw [heq, Option.some_get]
  intro k hk
  obtain ⟨i, hi⟩ := (hS k).mp hk
  exact ⟨i, by simp [hi], by simp [hi]⟩

theorem Distinct.card_le : S.card ≤ n := by
  rw [hd.card_eq hS]
  exact (Finset.card_filter_le _ _).trans_eq (Finset.card_fin n)

theorem Distinct.card_lt_iff : S.card < n ↔ ∃ i, t i = none := by
  have hlt := Finset.card_lt_iff_ne_univ (Finset.univ.filter fun i => (t i).isSome)
  rw [Fintype.card_fin, ← hd.card_eq hS, ne_eq, Finset.filter_eq_self] at hlt
  simpa using hlt
end
end Registered
end Framework
