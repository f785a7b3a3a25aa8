import Mathlib.Algebra.Order.Group.Int
import Mathlib.Algebra.Order.Group.Abs
import Mathlib.Data.List.Chain
import Mathlib.Data.List.Sort

/-! Points on a line that keep a distance: to see it, it is enough to look at neighbours in
order. -/
namespace SimpleAsset.Library
variable {α β κ : Type} {γ : Type} [AddCommGroup γ] [LinearOrder γ] [IsOrderedAddMonoid γ]

/-- `b` comes after `a` with a gap. -/
def After (f : α → γ) (gap : γ) (a b : α) : Prop := gap ≤ f b - f a

theorem After.trans {f : α → γ} {gap : γ} (hgap : 0 ≤ gap) {a b c : α} (hab : After f gap a b)
    (hbc : After f gap b c) :
    After f gap a c := by
  unfold After at *
  rw [← sub_add_sub_cancel]
  exact hab.trans (le_add_of_nonneg_left (hgap.trans hbc))

theorem isChain_after_iff {f : α → γ} {gap : γ} (hgap : 0 ≤ gap) (l : List α) :
    l.IsChain (After f gap) ↔ l.Pairwise (After f gap) := by
  have htrans : Trans (After f gap) (After f gap) (After f gap) := ⟨After.trans hgap⟩
  exact List.isChain_iff_pairwise

/-- In order, the later of two points is the greater one. -/
theorem pairwise_after_iff {f : α → γ} {gap : γ} {l : List α}
    (hsorted : l.Pairwise fun a b => f a ≤ f b) :
    l.Pairwise (After f gap) ↔ l.Pairwise fun a b => gap ≤ |f a - f b| := by
  have habs : ∀ a b, f a ≤ f b → (After f gap a b ↔ gap ≤ |f a - f b|) := by
    intro a b hle
    rw [After, abs_sub_comm, abs_of_nonneg (sub_nonneg.mpr hle)]
  constructor
  · intro hpairwise
    refine (hsorted.and hpairwise).imp ?_
    rintro a b ⟨hle, hafter⟩
    exact (habs a b hle).mp hafter
  · intro hpairwise
    refine (hsorted.and hpairwise).imp ?_
    rintro a b ⟨hle, hgap⟩
    exact (habs a b hle).mpr hgap

/-- Neighbours in order keep a distance exactly when any two points do. -/
theorem isChain_mergeSort_iff {f : α → γ} {gap : γ} (hgap : 0 ≤ gap) (l : List α) :
    (l.mergeSort fun a b => f a ≤ f b).IsChain (After f gap) ↔
    l.Pairwise fun a b => gap ≤ |f a - f b| := by
  have hsorted : (l.mergeSort fun a b => f a ≤ f b).Pairwise fun a b => f a ≤ f b := by
    have hle : (l.mergeSort fun a b => f a ≤ f b).Pairwise fun a b => decide (f a ≤ f b) = true :=
      List.pairwise_mergeSort
        (fun a b c hab hbc => by simpa using (of_decide_eq_true hab).trans (of_decide_eq_true hbc))
        (fun a b => by simpa using le_total (f a) (f b)) l
    exact hle.imp of_decide_eq_true
  rw [isChain_after_iff hgap, pairwise_after_iff hsorted]
  apply (List.mergeSort_perm l _).pairwise_iff
  intro a b hab
  rwa [abs_sub_comm]

/-- Any two rows of a table with different keys keep a distance. -/
theorem pairwise_map_iff {R : β → β → Prop} (hsymm : ∀ {a b}, R a b → R b a) {key : α → κ}
    {f : α → β} {l : List α} (hnodup : (l.map key).Nodup) :
    (l.map f).Pairwise R ↔ ∀ a ∈ l, ∀ b ∈ l, key a ≠ key b → R (f a) (f b) := by
  rw [List.pairwise_map]
  rw [List.Nodup, List.pairwise_map] at hnodup
  constructor
  · intro hpairwise a ha b hb hne
    have hsym : Std.Symm fun a b => R (f a) (f b) := ⟨fun _ _ h => hsymm h⟩
    exact hpairwise.forall ha hb fun hab => hne (by rw [hab])
  · intro hall
    refine hnodup.imp_of_mem ?_
    intro a b ha hb hne
    exact hall a ha b hb hne

end SimpleAsset.Library
