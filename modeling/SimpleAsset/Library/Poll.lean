import Mathlib.Data.Finset.Lattice.Lemmas
import SimpleAsset.Library.Tally

/-! Polls: who voted for what, who declined, and who did not answer in time. -/
namespace SimpleAsset.Library

structure Poll (κ ν β : Type) where
  tally : Tally κ ν β
  declined : Finset ν
  silent : Finset ν

namespace Poll
variable {κ ν β : Type} [DecidableEq κ] [DecidableEq ν]

/-- A vote, which also ends the voter's silence. -/
def vote (k : κ) (a : ν) (b : β) (p : Poll κ ν β) : Poll κ ν β :=
  { p with tally := p.tally.vote k a b, silent := p.silent.erase a }

def decline (a : ν) (p : Poll κ ν β) : Poll κ ν β :=
  { p with declined := insert a p.declined, silent := p.silent.erase a }

def fallSilent (a : ν) (p : Poll κ ν β) : Poll κ ν β := { p with silent := insert a p.silent }

/-- Everyone heard from is counted in one place: as a voter of one option, as declining, or as
silent. -/
structure CountsOnce (p : Poll κ ν β) (heard : Finset ν) : Prop where
  one_option : p.tally.total = p.tally.allVoters.card
  rows : p.tally.keys.length ≤ p.tally.total
  cover : p.tally.allVoters ∪ p.declined ∪ p.silent = heard
  not_declined : Disjoint p.tally.allVoters p.declined
  not_silent : Disjoint (p.tally.allVoters ∪ p.declined) p.silent

omit [DecidableEq κ] in
theorem countsOnce_empty : CountsOnce (⟨∅, ∅, ∅⟩ : Poll κ ν β) ∅ := by
  constructor <;> simp [Tally.total, Table.total, Tally.allVoters]

variable {p : Poll κ ν β} {heard : Finset ν} {k : κ} {a : ν} {b : β}

omit [DecidableEq κ] in
theorem CountsOnce.card_heard (h : p.CountsOnce heard) :
    p.tally.total + p.declined.card + p.silent.card = heard.card := by
  rw [← h.cover, Finset.card_union_of_disjoint h.not_silent,
    Finset.card_union_of_disjoint h.not_declined, h.one_option]

/-- A voter who declined nothing and has no other option is still counted once. -/
theorem CountsOnce.vote (h : p.CountsOnce heard) (hdeclined : a ∉ p.declined)
    (hother : ∀ k', k' ≠ k → a ∉ p.tally.voters k') :
    (p.vote k a b).CountsOnce (insert a heard) := by
  have hall : (p.tally.vote k a b).allVoters = insert a p.tally.allVoters :=
    Tally.allVoters_vote k a b p.tally
  have hnew : a ∈ p.tally.voters k ↔ a ∈ p.tally.allVoters := by
    rw [Tally.mem_allVoters]
    constructor
    · exact fun ha => ⟨k, ha⟩
    · intro ⟨k', ha⟩
      by_cases hk : k' = k
      · rwa [← hk]
      · exact absurd ha (hother k' hk)
  have htotal := Tally.total_vote k a b p.tally
  have hrows := Tally.length_keys_vote_le k a b p.tally
  have hcount := h.one_option
  have hrows' := h.rows
  refine ⟨?_, ?_, ?_, ?_, ?_⟩
  · rw [Poll.vote, hall, htotal, hcount]
    by_cases ha : a ∈ p.tally.voters k
    · rw [if_pos ha, Finset.insert_eq_of_mem (hnew.mp ha), Nat.add_zero]
    · rw [if_neg ha, Finset.card_insert_of_notMem fun h' => ha (hnew.mpr h')]
  · change (p.tally.vote k a b).keys.length ≤ (p.tally.vote k a b).total
    rw [htotal]
    exact hrows.trans (Nat.add_le_add_right hrows' _)
  · rw [Poll.vote, hall, ← h.cover]
    grind
  · rw [Poll.vote, hall, Finset.disjoint_insert_left]
    exact ⟨hdeclined, h.not_declined⟩
  · rw [Poll.vote, hall, Finset.insert_union, Finset.disjoint_insert_left]
    exact ⟨Finset.notMem_erase a _,
      Finset.disjoint_of_subset_right (Finset.erase_subset a _) h.not_silent⟩

omit [DecidableEq κ] in
theorem CountsOnce.decline (h : p.CountsOnce heard) (hvoter : a ∉ p.tally.allVoters) :
    (p.decline a).CountsOnce (insert a heard) := by
  refine ⟨h.one_option, h.rows, ?_, ?_, ?_⟩
  · rw [Poll.decline, ← h.cover]
    grind
  · rw [Poll.decline, Finset.disjoint_insert_right]
    exact ⟨hvoter, h.not_declined⟩
  · rw [Poll.decline, Finset.union_insert, Finset.disjoint_insert_left]
    exact ⟨Finset.notMem_erase a _,
      Finset.disjoint_of_subset_right (Finset.erase_subset a _) h.not_silent⟩

omit [DecidableEq κ] in
theorem CountsOnce.fallSilent (h : p.CountsOnce heard) (hvoter : a ∉ p.tally.allVoters)
    (hdeclined : a ∉ p.declined) : (p.fallSilent a).CountsOnce (insert a heard) := by
  refine ⟨h.one_option, h.rows, ?_, h.not_declined, ?_⟩
  · rw [Poll.fallSilent, ← h.cover]
    grind
  · rw [Poll.fallSilent, Finset.disjoint_insert_right]
    exact ⟨by simp [hvoter, hdeclined], h.not_silent⟩

end Poll
end SimpleAsset.Library
