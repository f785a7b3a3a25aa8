import Mathlib.Data.List.Perm.Basic
import Mathlib.Data.Nat.Notation

/-! Iteration in an order nobody promises. -/
namespace SimpleAsset.Library
variable {α : Type}

/-- The order in which a hash table hands out its rows this time. -/
structure Shuffle (α : Type) where
  order : List α → List α
  perm : ∀ l, (order l).Perm l

def Shuffle.id : Shuffle α := ⟨fun l => l, fun _ => .refl _⟩

theorem Shuffle.mem_order {s : Shuffle α} {l : List α} {x : α} : x ∈ s.order l ↔ x ∈ l :=
  (s.perm l).mem_iff

/-- `Iterator::max_by_key`: the last of the greatest elements. -/
def maxByKey (key : α → ℕ) (l : List α) : Option α :=
  l.foldl (fun best x => match best with
    | none => some x
    | some b => if key b ≤ key x then some x else some b) none

private theorem foldl_maxByKey (key : α → ℕ) (l : List α) (b : α) :
    ∃ x, l.foldl (fun best x => match best with
      | none => some x
      | some b => if key b ≤ key x then some x else some b) (some b) = some x ∧
      (x = b ∨ x ∈ l) ∧ key b ≤ key x ∧ ∀ y ∈ l, key y ≤ key x := by
  induction l generalizing b with
  | nil => exact ⟨b, rfl, Or.inl rfl, Nat.le_refl _, by simp⟩
  | cons y l ih =>
    simp only [List.foldl_cons]
    split
    · rename_i hby
      obtain ⟨x, hx, hmem, hle, hall⟩ := ih y
      refine ⟨x, hx, ?_, Nat.le_trans hby hle, ?_⟩
      · rcases hmem with rfl | h
        · exact Or.inr (by simp)
        · exact Or.inr (by simp [h])
      · intro z hz
        rcases List.mem_cons.mp hz with rfl | hz
        · exact hle
        · exact hall z hz
    · rename_i hby
      obtain ⟨x, hx, hmem, hle, hall⟩ := ih b
      refine ⟨x, hx, hmem.imp_right fun h => by simp [h], hle, ?_⟩
      intro z hz
      rcases List.mem_cons.mp hz with rfl | hz
      · omega
      · exact hall z hz

/-- `max_by_key` finds an element of the list, and none has a greater key. -/
theorem maxByKey_spec (key : α → ℕ) {l : List α} (hl : l ≠ []) :
    ∃ x, maxByKey key l = some x ∧ x ∈ l ∧ ∀ y ∈ l, key y ≤ key x := by
  obtain ⟨a, t, rfl⟩ := List.exists_cons_of_ne_nil hl
  obtain ⟨x, hx, hmem, hle, hall⟩ := foldl_maxByKey key t a
  refine ⟨x, hx, ?_, ?_⟩
  · rcases hmem with rfl | h
    · simp
    · simp [h]
  · intro y hy
    rcases List.mem_cons.mp hy with rfl | hy
    · exact hle
    · exact hall y hy

end SimpleAsset.Library
