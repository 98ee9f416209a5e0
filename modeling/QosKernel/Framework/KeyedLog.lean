import Mathlib.Data.List.Count
import Mathlib.Data.List.Nodup

/-! # Logs of many subjects

One list of entries, each with the key of its subject: `onKey log key` is
the log of one subject.
-/
namespace Framework
variable {κ : Type u} {α : Type v} [DecidableEq κ]
section
variable (log : List (κ × α)) (key : κ)
/-- The entries of one subject, in order. -/
def onKey : List α := (log.filter (·.1 == key)).map (·.2)

theorem onKey_append_self (a : α) : onKey (log ++ [(key, a)]) key = onKey log key ++ [a] := by
  simp [onKey, List.filter_append]
end
theorem onKey_append_ne {log : List (κ × α)} {key other : κ} (h : other ≠ key) (a : α) :
    onKey (log ++ [(key, a)]) other = onKey log other := by
  simp [onKey, List.filter_append, Ne.symm h]

theorem onKey_sublist_append (log : List (κ × α)) (key other : κ) (a : α) :
    List.Sublist (onKey log other) (onKey (log ++ [(key, a)]) other) := by
  by_cases h : other = key
  · rw [h, onKey_append_self]
    exact List.sublist_append_left _ _
  rw [onKey_append_ne h]

/-- Entries that are all different stay so in every log that takes, for each
subject, some of its entries in their order. -/
theorem nodup_of_onKey_sublist [DecidableEq α] {taken log : List (κ × α)}
    (hlog : (log.map (·.2)).Nodup)
    (h : ∀ key, List.Sublist (onKey taken key) (onKey log key)) : (taken.map (·.2)).Nodup := by
  have hmem : ∀ x ∈ taken, x ∈ log := by
    intro x hx
    have htaken : x.2 ∈ onKey taken x.1 :=
      List.mem_map_of_mem (List.mem_filter.mpr ⟨hx, beq_self_eq_true x.1⟩)
    obtain ⟨y, hy, hyx⟩ := List.mem_map.mp ((h x.1).subset htaken)
    obtain ⟨hy, hkey⟩ := List.mem_filter.mp hy
    have heq : y = x := Prod.ext (beq_iff_eq.mp hkey) hyx
    exact heq ▸ hy
  have hnodup : taken.Nodup := by
    rw [List.nodup_iff_count_le_one]
    intro x
    have hkey : (onKey taken x.1).Nodup :=
      (hlog.sublist (List.filter_sublist.map _)).sublist (h x.1)
    have hfilter : (taken.filter (·.1 == x.1)).Nodup := hkey.of_map _
    rw [← List.count_filter (p := (·.1 == x.1)) (beq_self_eq_true x.1)]
    exact List.nodup_iff_count_le_one.mp hfilter x
  apply hnodup.map_on
  intro x hx y hy hxy
  exact List.inj_on_of_nodup_map hlog (hmem x hx) (hmem y hy) hxy
end Framework
