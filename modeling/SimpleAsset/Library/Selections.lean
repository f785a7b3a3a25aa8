import Mathlib.Data.List.Sections
import Mathlib.Tactic.Common

/-! Selections of one element out of each list, against all the elements of the lists. -/
namespace SimpleAsset.Library
variable {α : Type}

theorem sections_map_singleton (l : List α) : (l.map fun x => [x]).sections = [l] := by
  induction l with
  | nil => rfl
  | cons x l ih => rw [List.map_cons, List.sections, ih]; rfl

theorem mem_of_mem_selection {ls : List (List α)} {s : List α} (h : s ∈ ls.sections) {x : α}
    (hx : x ∈ s) :
    x ∈ ls.flatten := by
  have hs := List.mem_sections.mp h
  induction hs with
  | nil => cases hx
  | cons hmem hrest ih =>
    rw [List.flatten_cons, List.mem_append]
    rcases List.mem_cons.mp hx with rfl | hx
    · exact .inl hmem
    · exact .inr (ih (List.mem_sections.mpr hrest) hx)

theorem ne_nil_of_selection {ls : List (List α)} {s : List α} (h : s ∈ ls.sections) {l : List α}
    (hl : l ∈ ls) :
    l ≠ [] := by
  have hs := List.mem_sections.mp h
  induction hs with
  | nil => cases hl
  | cons hmem hrest ih =>
    rcases List.mem_cons.mp hl with rfl | hl
    · exact List.ne_nil_of_mem hmem
    · exact ih (List.mem_sections.mpr hrest) hl

theorem exists_selection {ls : List (List α)} (h : ∀ l ∈ ls, l ≠ []) : ∃ s, s ∈ ls.sections := by
  induction ls with
  | nil => exact ⟨[], List.mem_sections.mpr .nil⟩
  | cons l ls ih =>
    obtain ⟨s, hs⟩ := ih fun l' hl' => h l' (by simp [hl'])
    obtain ⟨x, hx⟩ := List.exists_mem_of_ne_nil l (h l (by simp))
    exact ⟨x :: s, List.mem_sections.mpr (.cons hx (List.mem_sections.mp hs))⟩

/-- Lists that are not empty: one of several is shorter than all of them. -/
theorem length_lt_of_mem {l : List (List α)} (h : ∀ x ∈ l, x ≠ []) {x : List α} (hx : x ∈ l)
    (hmore : l.length ≠ 1) :
    x.length < l.flatten.length := by
  obtain ⟨before, after, rfl⟩ := List.append_of_mem hx
  have hother : ∃ y, y ∈ before ++ after := by
    apply List.exists_mem_of_ne_nil
    intro hnil
    obtain ⟨rfl, rfl⟩ := List.append_eq_nil_iff.mp hnil
    exact hmore rfl
  obtain ⟨y, hy⟩ := hother
  have hpos : 0 < y.length := List.length_pos_iff.mpr (h y (by
    rcases List.mem_append.mp hy with hy | hy
    · simp [hy]
    · simp [hy]))
  have hle : y.length ≤ (before ++ after).flatten.length :=
    (List.sublist_flatten_of_mem hy).length_le
  simp only [List.flatten_append, List.flatten_cons, List.length_append] at hle ⊢
  omega

theorem length_le_of_selection {ls : List (List (List α))} {s : List (List α)}
    (h : s ∈ ls.sections) :
    s.flatten.length ≤ ls.flatten.flatten.length := by
  have hs := List.mem_sections.mp h
  induction hs with
  | nil => exact Nat.le_refl _
  | cons hmem hrest ih =>
    have hfirst := (List.sublist_flatten_of_mem hmem).length_le
    have hlater := ih (List.mem_sections.mpr hrest)
    simp only [List.flatten_cons, List.flatten_append, List.length_append]
    omega

/-- A selection leaves something out where there is a choice. -/
theorem length_lt_of_selection {ls : List (List (List α))} (hne : ∀ l ∈ ls, ∀ x ∈ l, x ≠ [])
    {s : List (List α)}
    (h : s ∈ ls.sections) {l : List (List α)} (hl : l ∈ ls) (hmore : l.length ≠ 1) :
    s.flatten.length < ls.flatten.flatten.length := by
  have hs := List.mem_sections.mp h
  induction hs with
  | nil => cases hl
  | @cons x l' s ls hmem hrest ih =>
    have hrest' := List.mem_sections.mpr hrest
    simp only [List.flatten_cons, List.flatten_append, List.length_append]
    rcases List.mem_cons.mp hl with rfl | hl
    · have hfirst := length_lt_of_mem (hne l (by simp)) hmem hmore
      have hlater := length_le_of_selection hrest'
      omega
    · have hfirst := (List.sublist_flatten_of_mem hmem).length_le
      have hlater := ih (fun l hl => hne l (by simp [hl])) hrest' hl
      omega

end SimpleAsset.Library
