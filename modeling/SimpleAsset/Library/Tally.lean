import Mathlib.Data.Finset.Card
import Mathlib.Data.Finset.Insert
import Mathlib.Data.Finset.Dedup
import Mathlib.Algebra.Order.BigOperators.Group.List
import SimpleAsset.Library.Table

/-! Votes: for each option the voters it has, each with the ballot it sent first. -/
namespace SimpleAsset.Library

abbrev Tally (κ ν β : Type) := Table κ (Table ν β)

namespace Tally
variable {κ ν β : Type} [DecidableEq κ] [DecidableEq ν]

def ballots (k : κ) (t : Tally κ ν β) : Table ν β := (t.lookup k).getD ∅

def voters (k : κ) (t : Tally κ ν β) : Finset ν := (ballots k t).keys.toFinset

/-- A vote for `k`; a voter the option already has keeps its ballot. -/
def vote (k : κ) (a : ν) (b : β) (t : Tally κ ν β) : Tally κ ν β :=
  t.insert k (if a ∈ ballots k t then ballots k t else (ballots k t).insert a b)

/-- Number of voters of `k`. -/
def count (k : κ) (t : Tally κ ν β) : ℕ := (ballots k t).entries.length

/-- The options with the numbers of their voters. -/
def counts (t : Tally κ ν β) : List (κ × ℕ) := t.entries.map fun e => (e.1, e.2.entries.length)

/-- Number of votes for all options together. -/
def total (t : Tally κ ν β) : ℕ := Table.total (fun s => s.entries.length) t

/-- Number of votes of the most popular option. -/
def maxCount (t : Tally κ ν β) : ℕ := (t.entries.map fun e => e.2.entries.length).foldr max 0

/-- Voters of any option. -/
def allVoters (t : Tally κ ν β) : Finset ν := (t.entries.flatMap fun e => e.2.keys).toFinset

theorem mem_voters {k : κ} {a : ν} {t : Tally κ ν β} : a ∈ voters k t ↔ a ∈ ballots k t := by
  rw [voters, List.mem_toFinset, AList.mem_keys]

theorem count_eq_card (k : κ) (t : Tally κ ν β) : count k t = (voters k t).card := by
  rw [voters, List.toFinset_card_of_nodup (ballots k t).keys_nodup, count, AList.keys, List.keys,
    List.length_map]

theorem mem_allVoters {a : ν} {t : Tally κ ν β} : a ∈ allVoters t ↔ ∃ k, a ∈ voters k t := by
  rw [allVoters, List.mem_toFinset, List.mem_flatMap]
  constructor
  · intro ⟨e, he, ha⟩
    have hk : t.lookup e.1 = some e.2 := AList.mem_lookup_iff.mpr he
    exact ⟨e.1, by rw [voters, List.mem_toFinset, ballots, hk]; exact ha⟩
  · intro ⟨k, ha⟩
    rw [voters, List.mem_toFinset, ballots] at ha
    rcases hk : t.lookup k with _ | s
    · rw [hk] at ha
      simp at ha
    · rw [hk] at ha
      exact ⟨⟨k, s⟩, AList.mem_lookup_iff.mp hk, ha⟩

theorem ballots_vote_self (k : κ) (a : ν) (b : β) (t : Tally κ ν β) :
    ballots k (vote k a b t) = if a ∈ ballots k t then ballots k t
      else (ballots k t).insert a b := by
  rw [ballots, vote, AList.lookup_insert, Option.getD_some]

theorem ballots_vote_ne {k k' : κ} (h : k' ≠ k) (a : ν) (b : β) (t : Tally κ ν β) :
    ballots k' (vote k a b t) = ballots k' t := by
  rw [ballots, vote, AList.lookup_insert_ne h, ballots]

/-- A ballot in the table was there before, or is the one just cast. -/
theorem lookup_ballots_vote {k k' : κ} {a x : ν} {b y : β} {t : Tally κ ν β}
    (h : (ballots k' (vote k a b t)).lookup x = some y) :
    (ballots k' t).lookup x = some y ∨ k' = k ∧ x = a ∧ y = b := by
  by_cases hk : k' = k
  · subst hk
    rw [ballots_vote_self] at h
    split at h
    · exact Or.inl h
    · by_cases hx : x = a
      · subst hx
        rw [AList.lookup_insert, Option.some.injEq] at h
        exact Or.inr ⟨rfl, rfl, h.symm⟩
      · rw [AList.lookup_insert_ne hx] at h
        exact Or.inl h
  · rw [ballots_vote_ne hk] at h
    exact Or.inl h

theorem voters_vote_self (k : κ) (a : ν) (b : β) (t : Tally κ ν β) :
    voters k (vote k a b t) = insert a (voters k t) := by
  ext x
  rw [Finset.mem_insert, mem_voters, mem_voters, ballots_vote_self]
  split
  · rename_i h
    constructor
    · exact Or.inr
    · intro hx
      rcases hx with rfl | hx
      · exact h
      · exact hx
  · rw [AList.mem_insert]

theorem voters_vote_ne {k k' : κ} (h : k' ≠ k) (a : ν) (b : β) (t : Tally κ ν β) :
    voters k' (vote k a b t) = voters k' t := by
  rw [voters, ballots_vote_ne h, voters]

theorem allVoters_vote (k : κ) (a : ν) (b : β) (t : Tally κ ν β) :
    allVoters (vote k a b t) = insert a (allVoters t) := by
  ext x
  rw [Finset.mem_insert, mem_allVoters, mem_allVoters]
  constructor
  · intro ⟨k', hx⟩
    by_cases hk : k' = k
    · subst hk
      rw [voters_vote_self, Finset.mem_insert] at hx
      exact hx.imp_right fun h => ⟨k', h⟩
    · rw [voters_vote_ne hk] at hx
      exact Or.inr ⟨k', hx⟩
  · intro hx
    rcases hx with rfl | ⟨k', hx⟩
    · exact ⟨k, by rw [voters_vote_self]; exact Finset.mem_insert_self x _⟩
    · by_cases hk : k' = k
      · subst hk
        exact ⟨k', by rw [voters_vote_self]; exact Finset.mem_insert_of_mem hx⟩
      · exact ⟨k', by rwa [voters_vote_ne hk]⟩

omit [DecidableEq ν] in
theorem snd_of_mem_counts {t : Tally κ ν β} {e : κ × ℕ} (h : e ∈ counts t) : e.2 = count e.1 t := by
  obtain ⟨row, hrow, rfl⟩ := List.mem_map.mp h
  have hlookup : t.lookup row.1 = some row.2 := AList.mem_lookup_iff.mpr hrow
  rw [count, ballots, hlookup, Option.getD_some]

omit [DecidableEq ν] in
theorem mem_counts_of_count_ne_zero {t : Tally κ ν β} {k : κ} (h : count k t ≠ 0) :
    (k, count k t) ∈ counts t := by
  rcases hk : t.lookup k with _ | s
  · exact absurd (by simp [count, ballots, hk]) h
  · have hcount : count k t = s.entries.length := by rw [count, ballots, hk, Option.getD_some]
    rw [hcount]
    exact List.mem_map.mpr ⟨⟨k, s⟩, AList.mem_lookup_iff.mp hk, rfl⟩

omit [DecidableEq ν] in
theorem weight_eq_count (k : κ) (t : Tally κ ν β) :
    Table.weight (fun s : Table ν β => s.entries.length) k t = count k t := by
  rw [Table.weight, count, ballots]
  rcases t.lookup k with _ | s <;> rfl

/-- A vote counts once for each option. -/
theorem total_vote (k : κ) (a : ν) (b : β) (t : Tally κ ν β) :
    total (vote k a b t) = total t + if a ∈ voters k t then 0 else 1 := by
  have hsum := Table.weight_add_total_insert (fun s : Table ν β => s.entries.length) k
    (if a ∈ ballots k t then ballots k t else (ballots k t).insert a b) t
  rw [weight_eq_count, count] at hsum
  simp only [mem_voters]
  split_ifs at hsum ⊢ with ha
  · unfold total vote
    rw [if_pos ha]
    omega
  · have hlen : ((ballots k t).insert a b).entries.length = (ballots k t).entries.length + 1 := by
      rw [AList.entries_insert_of_notMem ha, List.length_cons]
    unfold total vote
    rw [if_neg ha]
    omega

omit [DecidableEq ν] in
theorem count_le_total (k : κ) (t : Tally κ ν β) : count k t ≤ total t := by
  have hsum := Table.weight_add_total_erase (fun s : Table ν β => s.entries.length) k t
  rw [weight_eq_count] at hsum
  rw [total, ← hsum]
  exact Nat.le_add_right _ _

theorem total_vote_pos (k : κ) (a : ν) (b : β) (t : Tally κ ν β) : 0 < total (vote k a b t) := by
  have hvoter : a ∈ voters k (vote k a b t) := by
    rw [voters_vote_self]
    exact Finset.mem_insert_self a _
  have hcount : 0 < count k (vote k a b t) := by
    rw [count_eq_card]
    exact Finset.card_pos.mpr ⟨a, hvoter⟩
  exact hcount.trans_le (count_le_total k _)

/-- A vote opens a row only for an option without voters. -/
theorem length_keys_vote_le (k : κ) (a : ν) (b : β) (t : Tally κ ν β) :
    (vote k a b t).keys.length ≤ t.keys.length + if a ∈ voters k t then 0 else 1 := by
  unfold vote
  rw [AList.keys_insert, List.length_cons]
  by_cases hk : k ∈ t.keys
  · have := List.length_pos_of_mem hk
    rw [List.length_erase_of_mem hk]
    omega
  · have hvoters : a ∉ voters k t := by
      have hlookup : t.lookup k = none := AList.lookup_eq_none.mpr (AList.mem_keys.not.mpr hk)
      simp [voters, ballots, hlookup]
    rw [List.erase_of_not_mem hk, if_neg hvoters]

theorem foldr_max_le_iff {l : List ℕ} {m : ℕ} : l.foldr max 0 ≤ m ↔ ∀ x ∈ l, x ≤ m := by
  induction l with
  | nil => simp
  | cons x l ih => simp [ih]

omit [DecidableEq ν] in
theorem maxCount_le_iff {t : Tally κ ν β} {m : ℕ} : maxCount t ≤ m ↔ ∀ k, count k t ≤ m := by
  rw [maxCount, foldr_max_le_iff]
  constructor
  · intro h k
    rw [count, ballots]
    rcases hk : t.lookup k with _ | s
    · exact Nat.zero_le _
    · exact h _ (List.mem_map.mpr ⟨⟨k, s⟩, AList.mem_lookup_iff.mp hk, rfl⟩)
  · intro h x hx
    obtain ⟨e, he, rfl⟩ := List.mem_map.mp hx
    have hk : t.lookup e.1 = some e.2 := AList.mem_lookup_iff.mpr he
    have hc := h e.1
    rwa [count, ballots, hk] at hc

omit [DecidableEq ν] in
theorem count_le_maxCount (k : κ) (t : Tally κ ν β) : count k t ≤ maxCount t :=
  maxCount_le_iff.mp le_rfl k

theorem count_le_vote (k k' : κ) (a : ν) (b : β) (t : Tally κ ν β) :
    count k' t ≤ count k' (vote k a b t) := by
  rw [count_eq_card, count_eq_card]
  by_cases hk : k' = k
  · subst hk
    rw [voters_vote_self]
    exact Finset.card_le_card (Finset.subset_insert _ _)
  · rw [voters_vote_ne hk]

theorem maxCount_le_vote (k : κ) (a : ν) (b : β) (t : Tally κ ν β) :
    maxCount t ≤ maxCount (vote k a b t) :=
  maxCount_le_iff.mpr fun k' => (count_le_vote k k' a b t).trans (count_le_maxCount k' _)

/-- Every option of the table has a voter. -/
def Filled (t : Tally κ ν β) : Prop := ∀ k s, t.lookup k = some s → 0 < s.entries.length

omit [DecidableEq ν] in
theorem filled_empty : Filled (∅ : Tally κ ν β) := by
  intro k s h
  simp at h

theorem Filled.vote {t : Tally κ ν β} (h : t.Filled) (k : κ) (a : ν) (b : β) :
    (t.vote k a b).Filled := by
  refine Table.forall_lookup_insert ?_ h
  split
  · rename_i ha
    have hkeys := List.length_pos_of_mem (AList.mem_keys.mp ha)
    rwa [AList.keys, List.keys, List.length_map] at hkeys
  · rw [AList.entries_insert, List.length_cons]
    omega

omit [DecidableEq ν] in
theorem Filled.pos_of_mem_counts {t : Tally κ ν β} (h : t.Filled) {e : κ × ℕ} (he : e ∈ counts t) :
    0 < e.2 := by
  obtain ⟨row, hrow, rfl⟩ := List.mem_map.mp he
  exact h row.1 row.2 (AList.mem_lookup_iff.mpr hrow)

omit [DecidableEq ν] in
/-- There are as many options as votes when no option has two. -/
theorem Filled.length_keys_eq_total_iff {t : Tally κ ν β} (h : t.Filled) :
    t.keys.length = total t ↔ ∀ k, count k t ≤ 1 := by
  have hsum : ∀ l : List ℕ, (∀ x ∈ l, 0 < x) → l.length ≤ l.sum ∧
      (l.length = l.sum ↔ ∀ x ∈ l, x ≤ 1) := by
    intro l hl
    induction l with
    | nil => simp
    | cons x l ih =>
      have hx := hl x (by simp)
      obtain ⟨hle, hiff⟩ := ih fun y hy => hl y (by simp [hy])
      simp only [List.length_cons, List.sum_cons, List.forall_mem_cons, ← hiff]
      omega
  have hpos : ∀ x ∈ t.entries.map fun e => e.2.entries.length, 0 < x := by
    intro x hx
    obtain ⟨e, he, rfl⟩ := List.mem_map.mp hx
    exact h.pos_of_mem_counts (List.mem_map_of_mem he)
  have hlen : t.keys.length = (t.entries.map fun e => e.2.entries.length).length := by
    rw [AList.keys, List.keys, List.length_map, List.length_map]
  rw [hlen, total, Table.total, (hsum _ hpos).2, ← maxCount_le_iff, maxCount, foldr_max_le_iff]

end Tally
end SimpleAsset.Library
