import Mathlib.Data.List.Basic
import Mathlib.Data.List.Induction
import Mathlib.Logic.Function.Basic

/-! What a log says last, and the map that a log of writes leaves behind. -/
namespace SimpleAsset.Library

section Last

variable {α : Type} {p : α → Bool} {a : α} {l rest : List α}

/-- The last entry with a property, and the entries after it. -/
def lastSplit (p : α → Bool) : List α → Option (α × List α)
  | [] => none
  | a :: l =>
    match lastSplit p l with
    | some split => some split
    | none => if p a then some (a, l) else none

theorem lastSplit_concat (p : α → Bool) (l : List α) (a : α) : lastSplit p (l ++ [a]) =
    if p a then some (a, []) else (lastSplit p l).map fun split => (split.1, split.2 ++ [a]) := by
  induction l with
  | nil => by_cases h : p a <;> simp [lastSplit, h]
  | cons b l ih =>
    rw [List.cons_append, lastSplit, ih, lastSplit]
    by_cases h : p a
    · simp [h]
    · rcases lastSplit p l with _ | split
      · by_cases hb : p b <;> simp [h, hb]
      · simp [h]

/-- The entry has the property, and none after it has. -/
theorem exists_append_of_lastSplit (h : lastSplit p l = some (a, rest)) :
    ∃ pre, l = pre ++ a :: rest ∧ p a = true ∧ ∀ b ∈ rest, p b = false := by
  induction l using List.reverseRecOn generalizing rest with
  | nil => cases h
  | append_singleton l b ih =>
    rw [lastSplit_concat] at h
    split_ifs at h with hb
    · cases h
      exact ⟨l, rfl, hb, by simp⟩
    · obtain ⟨⟨a', rest'⟩, hsplit, heq⟩ := Option.map_eq_some_iff.mp h
      obtain ⟨rfl, rfl⟩ := Prod.mk.inj heq
      obtain ⟨pre, hl, ha, hrest⟩ := ih hsplit
      refine ⟨pre, by simp [hl], ha, ?_⟩
      intro c hc
      rcases List.mem_append.mp hc with hc | hc
      · exact hrest c hc
      · simpa [List.mem_singleton.mp hc] using hb

theorem lastSplit_append_cons (pre : List α) (ha : p a = true) (hrest : ∀ b ∈ rest, p b = false) :
    lastSplit p (pre ++ a :: rest) = some (a, rest) := by
  induction rest using List.reverseRecOn with
  | nil => rw [lastSplit_concat, if_pos ha]
  | append_singleton rest b ih =>
    have hb : p b = false := hrest b (by simp)
    rw [← List.cons_append, ← List.append_assoc, lastSplit_concat, hb, ih fun c hc =>
      hrest c (by simp [hc])]
    rfl

theorem lastSplit_eq_none_iff : lastSplit p l = none ↔ ∀ b ∈ l, p b = false := by
  induction l using List.reverseRecOn with
  | nil => simp [lastSplit]
  | append_singleton l b ih =>
    rw [lastSplit_concat]
    by_cases hb : p b
    · simp [hb]
    · simp [hb, ih, or_imp, forall_and]

/-- A search from the end finds the last one. -/
theorem find?_reverse (p : α → Bool) (l : List α) :
    l.reverse.find? p = (lastSplit p l).map Prod.fst := by
  induction l using List.reverseRecOn with
  | nil => rfl
  | append_singleton l b ih =>
    rw [lastSplit_concat, List.reverse_concat, List.find?_cons]
    by_cases hb : p b
    · simp [hb]
    · rw [ih]
      simp [hb, Function.comp_def]

end Last

section Writes

variable {κ β α γ : Type} [DecidableEq κ] [DecidableEq α]

/-- What the log wrote last under a key. -/
def lastWrite (k : κ) (writes : List (κ × β)) : Option β :=
  writes.foldl (fun last w => if w.1 = k then some w.2 else last) none

theorem lastWrite_concat (k : κ) (writes : List (κ × β)) (w : κ × β) :
    lastWrite k (writes ++ [w]) = if w.1 = k then some w.2 else lastWrite k writes := by
  rw [lastWrite, List.foldl_concat]
  rfl

theorem mem_of_lastWrite {k : κ} {writes : List (κ × β)} {b : β} (h : lastWrite k writes = some b) :
    (k, b) ∈ writes := by
  induction writes using List.reverseRecOn with
  | nil => cases h
  | append_singleton writes w ih =>
    rw [lastWrite_concat] at h
    split_ifs at h with hk
    · cases h
      simp [← hk]
    · exact List.mem_append_left _ (ih h)

/-- The map after a log, with its keys and values encoded. -/
def writeAll (key : κ → α) (val : β → γ) (m : α → Option γ) (writes : List (κ × β)) :
    α → Option γ :=
  writes.foldl (fun m w => Function.update m (key w.1) (some (val w.2))) m

/-- If keys are told apart, the map holds what was written last, and what it held before
elsewhere. -/
theorem writeAll_apply {key : κ → α} (hkey : Function.Injective key) (val : β → γ)
    (m : α → Option γ) (writes : List (κ × β)) (k : κ) :
    writeAll key val m writes (key k) = ((lastWrite k writes).map fun b => some (val b)).getD
      (m (key k)) := by
  induction writes using List.reverseRecOn with
  | nil => rfl
  | append_singleton writes w ih =>
    rw [writeAll, List.foldl_concat, lastWrite_concat]
    by_cases hk : w.1 = k
    · rw [if_pos hk, hk, Function.update_self]
      rfl
    · rw [if_neg hk, Function.update_of_ne (fun h => hk (hkey h).symm)]
      exact ih

end Writes

end SimpleAsset.Library
