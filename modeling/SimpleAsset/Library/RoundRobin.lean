import Mathlib.Data.Finset.Image
import Mathlib.Data.Finset.Option
import Mathlib.Data.Finset.Range

/-! Places opened in turn while others are closed: when all of them are closed. -/
namespace SimpleAsset.Library
variable {α : Type} [DecidableEq α]

/-- Places open after these rounds, latest first: round `i` opens `pick i` and then closes what it
names. -/
def openPlaces (pick : ℕ → α) (start : Finset α) : List (Option α) → Finset α
  | [] => start
  | closed :: rounds => (insert (pick rounds.length) (openPlaces pick start rounds)).filter fun a =>
      some a ≠ closed

/-- Each of the last `n` rounds, or of all of them if there are fewer, closed the place it had just
opened. -/
def ClosedOwn (pick : ℕ → α) : ℕ → List (Option α) → Prop
  | n + 1, closed :: rounds => closed = some (pick rounds.length) ∧ ClosedOwn pick n rounds
  | _, _ => True

variable {pick : ℕ → α} {start : Finset α}

omit [DecidableEq α] in
theorem closedOwn_zero (rounds : List (Option α)) : ClosedOwn pick 0 rounds := by
  cases rounds <;> trivial

omit [DecidableEq α] in
theorem closedOwn_nil (n : ℕ) : ClosedOwn pick n [] := by
  cases n <;> trivial

theorem openPlaces_subset_iff {S : Finset α} (hall : ∀ i, pick i ∈ S) (rounds : List (Option α)) :
    openPlaces pick start rounds ⊆ S ↔ ∀ a ∈ start, a ∉ S → some a ∈ rounds := by
  induction rounds generalizing S with
  | nil =>
    simp only [openPlaces, List.not_mem_nil, imp_false, not_not]
    exact Iff.rfl
  | cons closed rounds ih =>
    -- what this round closed may stay open before it
    have hopen : openPlaces pick start (closed :: rounds) ⊆ S ↔ openPlaces pick start rounds ⊆ S ∪
        closed.toFinset := by
      constructor
      · intro h a ha
        by_cases hclosed : some a = closed
        · simp [← hclosed]
        · exact Finset.mem_union_left _
            (h (Finset.mem_filter.mpr ⟨Finset.mem_insert_of_mem ha, hclosed⟩))
      · intro h a ha
        obtain ⟨ha, hclosed⟩ := Finset.mem_filter.mp ha
        rcases Finset.mem_insert.mp ha with rfl | ha
        · exact hall _
        · rcases Finset.mem_union.mp (h ha) with hS | hc
          · exact hS
          · exact absurd (Option.mem_toFinset.mp hc).symm hclosed
    rw [hopen, ih fun i => Finset.mem_union_left _ (hall i)]
    apply forall₂_congr
    intro a _
    simp only [Finset.mem_union, Option.mem_toFinset, Option.mem_def, List.mem_cons,
      not_or, and_imp]
    constructor
    · intro h hS
      by_cases hc : closed = some a
      · exact Or.inl hc.symm
      · exact Or.inr (h hS hc)
    · intro h hS hc
      rcases h hS with heq | hmem
      · exact absurd heq.symm hc
      · exact hmem

section Ring
variable {n : ℕ} (hperiod : ∀ i, pick (i + n) = pick i)
    (hne : ∀ i j, i < j → j < i + n → pick i ≠ pick j)
include hperiod hne

/-- The places of the next `d` rounds. -/
private def nextPlaces (pick : ℕ → α) (i d : ℕ) : Finset α :=
  (Finset.range d).image fun k => pick (i + k)

omit [DecidableEq α] hne in
private theorem exists_next_pick (hn : 0 < n) (i j : ℕ) : ∃ k < n, pick (i + k) = pick j := by
  have hmod : ∀ m q, pick (m + n * q) = pick m := by
    intro m q
    induction q with
    | zero => rfl
    | succ q ih => rw [Nat.mul_succ, ← Nat.add_assoc, hperiod, ih]
  have hrep : ∀ m, pick m = pick (m % n) := by
    intro m
    conv_lhs => rw [← Nat.mod_add_div m n]
    exact hmod _ _
  refine ⟨(j + n * i - i) % n, Nat.mod_lt _ hn, ?_⟩
  have hle : i ≤ j + n * i := (Nat.le_mul_of_pos_left i hn).trans (Nat.le_add_left _ _)
  rw [hrep, Nat.add_mod_mod, Nat.add_sub_cancel' hle, ← hrep, hmod]

omit hperiod hne in
private theorem nextPlaces_succ (i d : ℕ) :
    nextPlaces pick i (d + 1) = insert (pick i) (nextPlaces pick (i + 1) d) := by
  ext a
  simp only [nextPlaces, Finset.mem_image, Finset.mem_range, Finset.mem_insert]
  constructor
  · rintro ⟨k, hk, rfl⟩
    rcases Nat.eq_zero_or_pos k with rfl | hpos
    · exact Or.inl rfl
    · refine Or.inr ⟨k - 1, by omega, ?_⟩
      congr 1
      omega
  · rintro (rfl | ⟨k, hk, rfl⟩)
    · exact ⟨0, by omega, rfl⟩
    · refine ⟨k + 1, by omega, ?_⟩
      congr 1
      omega

omit hperiod hne in
/-- A round that closes the place it opens. -/
private theorem openPlaces_own_subset_iff {S : Finset α} (rounds : List (Option α)) :
    openPlaces pick start (some (pick rounds.length) :: rounds) ⊆ S ↔
      openPlaces pick start rounds ⊆ insert (pick rounds.length) S := by
  simp only [openPlaces, Finset.subset_iff, Finset.mem_filter, Finset.mem_insert, ne_eq,
    Option.some.injEq]
  constructor
  · intro h a ha
    by_cases heq : a = pick rounds.length
    · exact Or.inl heq
    · exact Or.inr (h ⟨Or.inr ha, heq⟩)
  · rintro h a ⟨rfl | ha, hneq⟩
    · exact absurd rfl hneq
    · exact (h ha).resolve_left hneq

private theorem openPlaces_subset_next_iff {d : ℕ} (hd : d ≤ n) (hn : 0 < n)
    (rounds : List (Option α)) :
    openPlaces pick start rounds ⊆ nextPlaces pick rounds.length d ↔
      (∀ a ∈ start, a ∉ nextPlaces pick rounds.length d → some a ∈ rounds) ∧
      ClosedOwn pick (n - d) rounds := by
  induction rounds generalizing d with
  | nil =>
    simp only [openPlaces, List.not_mem_nil, imp_false, not_not, closedOwn_nil, and_true]
    exact Iff.rfl
  | cons closed rounds ih =>
    rcases Nat.eq_or_lt_of_le hd with rfl | hlt
    · rw [Nat.sub_self, openPlaces_subset_iff]
      · simp only [closedOwn_zero, and_true]
      · intro i
        obtain ⟨k, hk, hpick⟩ := exists_next_pick hperiod hn (closed :: rounds).length i
        exact Finset.mem_image.mpr ⟨k, Finset.mem_range.mpr hk, hpick⟩
    · have hnext : nextPlaces pick rounds.length (d + 1) =
          insert (pick rounds.length) (nextPlaces pick (closed :: rounds).length d) :=
          nextPlaces_succ rounds.length d
      have hfresh : pick rounds.length ∉ nextPlaces pick (closed :: rounds).length d := by
        simp only [nextPlaces, Finset.mem_image, Finset.mem_range, List.length_cons,
          not_exists, not_and]
        intro k hk heq
        exact hne _ _ (by omega) (by omega) heq.symm
      obtain ⟨m, hm⟩ : ∃ m, n - d = m + 1 := ⟨n - d - 1, by omega⟩
      have ih := ih (d := d + 1) (by omega)
      rw [hnext, show n - (d + 1) = m by omega] at ih
      rw [hm]
      generalize nextPlaces pick (closed :: rounds).length d = S at ih hfresh ⊢
      by_cases hown : closed = some (pick rounds.length)
      · rw [hown, openPlaces_own_subset_iff, ih]
        simp only [ClosedOwn, true_and, List.mem_cons, Option.some.injEq, Finset.mem_insert,
          not_or, and_imp]
        refine and_congr_left fun _ => forall₂_congr fun a _ => ?_
        constructor
        · intro h hS
          by_cases heq : a = pick rounds.length
          · exact Or.inl heq
          · exact Or.inr (h heq hS)
        · intro h hneq hS
          exact (h hS).resolve_left hneq
      · constructor
        · intro h
          have hmem : pick rounds.length ∈ openPlaces pick start (closed :: rounds) := by
            exact Finset.mem_filter.mpr ⟨Finset.mem_insert_self _ _, fun heq => hown heq.symm⟩
          exact absurd (h hmem) hfresh
        · rintro ⟨-, hclosed, -⟩
          exact absurd hclosed hown

/-- On a ring of `n` places nothing is open exactly when what was open at the start has been closed,
and each of the last `n` rounds closed the very place it opened. -/
theorem openPlaces_eq_empty_iff (hn : 0 < n) (rounds : List (Option α)) :
    openPlaces pick start rounds = ∅ ↔ (∀ a ∈ start, some a ∈ rounds) ∧
    ClosedOwn pick n rounds := by
  have h : openPlaces pick start rounds ⊆ nextPlaces pick rounds.length 0 ↔ _ :=
    openPlaces_subset_next_iff hperiod hne (Nat.zero_le n) hn rounds
  simpa [nextPlaces] using h

end Ring
end SimpleAsset.Library
