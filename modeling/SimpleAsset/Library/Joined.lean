import Mathlib.Data.List.Basic

/-! Two lists joined by a separator. -/
namespace SimpleAsset.Library
variable {α : Type} {c : α} {a b a' b' : List α}

/-- The separator that ends `a` stands inside `a'`. -/
def EndsInside (c : α) (a b a' b' : List α) : Prop := ∃ x, a' = a ++ c :: x ∧ b = x ++ c :: b'

theorem EndsInside.joined_eq (h : EndsInside c a b a' b') : a ++ c :: b = a' ++ c :: b' := by
  obtain ⟨x, rfl, rfl⟩ := h
  simp

theorem EndsInside.ne (h : EndsInside c a b a' b') : a ≠ a' := by
  obtain ⟨x, rfl, -⟩ := h
  simp

/-- One joined list can be cut in two ways only at different separators. -/
theorem joined_eq_iff : a ++ c :: b = a' ++ c :: b' ↔
    (a = a' ∧ b = b') ∨ EndsInside c a b a' b' ∨ EndsInside c a' b' a b := by
  constructor
  · intro h
    rcases List.append_eq_append_iff.mp h with ⟨x, ha', hb⟩ | ⟨x, ha, hb'⟩
    · cases x with
      | nil =>
        refine Or.inl ⟨by simpa using ha'.symm, ?_⟩
        simpa using hb
      | cons d x =>
        obtain ⟨rfl, hrest⟩ := List.cons.inj hb
        exact Or.inr (Or.inl ⟨x, ha', hrest⟩)
    · cases x with
      | nil =>
        refine Or.inl ⟨by simpa using ha, ?_⟩
        simpa using hb'.symm
      | cons d x =>
        obtain ⟨rfl, hrest⟩ := List.cons.inj hb'
        exact Or.inr (Or.inr ⟨x, ha, hrest⟩)
  · rintro (⟨rfl, rfl⟩ | h | h)
    · rfl
    · exact h.joined_eq
    · exact h.joined_eq.symm

theorem joined_inj_of_left (ha : c ∉ a) (ha' : c ∉ a') :
    a ++ c :: b = a' ++ c :: b' ↔ a = a' ∧ b = b' := by
  rw [joined_eq_iff]
  constructor
  · rintro (h | ⟨x, rfl, -⟩ | ⟨x, rfl, -⟩)
    · exact h
    · simp at ha'
    · simp at ha
  · exact Or.inl

theorem joined_inj_of_right (hb : c ∉ b) (hb' : c ∉ b') :
    a ++ c :: b = a' ++ c :: b' ↔ a = a' ∧ b = b' := by
  rw [joined_eq_iff]
  constructor
  · rintro (h | ⟨x, -, rfl⟩ | ⟨x, -, rfl⟩)
    · exact h
    · simp at hb
    · simp at hb'
  · exact Or.inl

/-- What is in a list is in one of its parts, or is the separator. -/
theorem mem_splitOn [DecidableEq α] {x : α} {l : List α} (h : x ∈ l) :
    x = c ∨ ∃ part ∈ l.splitOn c, x ∈ part := by
  induction l with
  | nil => simp at h
  | cons y l ih =>
    obtain ⟨part, parts, hparts⟩ := List.exists_cons_of_ne_nil (List.splitOn_ne_nil c l)
    rw [List.splitOn_cons_eq_if_modifyHead, hparts]
    rw [hparts] at ih
    rcases List.mem_cons.mp h with rfl | hmem
    · by_cases hx : x = c
      · exact Or.inl hx
      · exact Or.inr ⟨x :: part, by simp [hx], by simp⟩
    · rcases ih hmem with hx | ⟨part', hpart', hx⟩
      · exact Or.inl hx
      · right
        by_cases hy : y = c
        · exact ⟨part', by simp [hy, hpart'], hx⟩
        · rcases List.mem_cons.mp hpart' with rfl | hpart'
          · exact ⟨y :: part', by simp [hy], by simp [hx]⟩
          · exact ⟨part', by simp [hy, hpart'], hx⟩

/-- No part has the separator. -/
theorem notMem_of_mem_splitOn [DecidableEq α] {l part : List α} (h : part ∈ l.splitOn c) :
    c ∉ part := by
  induction l generalizing part with
  | nil =>
    rw [List.splitOn_nil, List.mem_singleton] at h
    rw [h]
    exact List.not_mem_nil
  | cons y l ih =>
    obtain ⟨first, parts, hparts⟩ := List.exists_cons_of_ne_nil (List.splitOn_ne_nil c l)
    rw [List.splitOn_cons_eq_if_modifyHead, hparts] at h
    rw [hparts] at ih
    by_cases hy : y = c
    · simp only [hy, BEq.rfl, if_true, List.mem_cons] at h
      rcases h with rfl | h
      · exact List.not_mem_nil
      · exact ih (List.mem_cons.mpr h)
    · simp only [beq_iff_eq, hy, if_false, List.modifyHead_cons, List.mem_cons] at h
      rcases h with rfl | h
      · rw [List.mem_cons, not_or]
        exact ⟨Ne.symm hy, ih List.mem_cons_self⟩
      · exact ih (List.mem_cons_of_mem _ h)

end SimpleAsset.Library
