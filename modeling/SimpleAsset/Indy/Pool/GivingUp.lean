import SimpleAsset.Indy.Pool.Underflow

/-! When the search for a catch-up target is given up. -/
namespace SimpleAsset.Indy
open SimpleAsset.Library

/-- The votes of these nodes, in the order they came in. -/
def votesOf (received : List (String × CatchupVote)) : Tally CatchupVote String Unit :=
  received.foldl (fun votes e => votes.vote e.2 e.1 ()) ∅

/-- Only nodes of the pool vote, and each of them at most once. -/
structure OnePerNode (nodes : Nodes) (received : List (String × CatchupVote)) : Prop where
  nodup : (received.map Prod.fst).Nodup
  members : ∀ e ∈ received, e.1 ∈ nodes

/-- The vote that a timeout is counted as. -/
def timeoutVote : CatchupVote := ("timeout", 0, none)

/-- Votes of the nodes that have not answered yet can still give a target `m` votes. -/
def CanReach (nodes : Nodes) (received : List (String × CatchupVote)) (m : ℕ) : Prop :=
  ∃ later v, OnePerNode nodes (received ++ later) ∧ v.1 ≠ "timeout" ∧
    m ≤ (votesOf (received ++ later)).count v

/-- The search starts over, or fails with a `PoolTimeout`. -/
def GivesUp (x : Outcome CatchupProgress) : Prop :=
  (∃ merkle, x = .ok (.restart merkle)) ∨ ∃ e, x = .error (.err e) ∧ e.kind = .poolTimeout

section Votes
variable {nodes : Nodes} {received later : List (String × CatchupVote)} {v : CatchupVote}

theorem votesOf_concat (e : String × CatchupVote) :
    votesOf (received ++ [e]) = (votesOf received).vote e.2 e.1 () := by
  rw [votesOf, List.foldl_append]
  rfl

theorem mem_voters_votesOf {node : String} :
    node ∈ (votesOf received).voters v ↔ (node, v) ∈ received := by
  induction received using List.reverseRecOn with
  | nil => simp [votesOf, Tally.voters, Tally.ballots]
  | append_singleton received e ih =>
    obtain ⟨a, k⟩ := e
    rw [votesOf_concat, List.mem_append, List.mem_singleton, Prod.mk.injEq, ← ih]
    by_cases hv : v = k
    · subst hv
      rw [Tally.voters_vote_self, Finset.mem_insert]
      tauto
    · rw [Tally.voters_vote_ne hv]
      tauto

theorem filled_votesOf (received : List (String × CatchupVote)) : (votesOf received).Filled := by
  induction received using List.reverseRecOn with
  | nil => exact Tally.filled_empty
  | append_singleton received e ih =>
    rw [votesOf_concat]
    exact ih.vote e.2 e.1 ()

theorem total_votesOf (h : (received.map Prod.fst).Nodup) :
    (votesOf received).total = received.length := by
  induction received using List.reverseRecOn with
  | nil => rfl
  | append_singleton received e ih =>
    rw [List.map_append, List.map_singleton] at h
    have hfresh : e.1 ∉ (votesOf received).voters e.2 := by
      intro hmem
      have hbefore := List.mem_map_of_mem (f := Prod.fst) (mem_voters_votesOf.mp hmem)
      exact List.disjoint_of_nodup_append h hbefore (List.mem_singleton_self _)
    rw [votesOf_concat, Tally.total_vote, if_neg hfresh, ih h.of_append_left, List.length_append,
      List.length_singleton]

/-- Each further vote adds at most one. -/
theorem count_votesOf_append_le :
    (votesOf (received ++ later)).count v ≤ (votesOf received).count v + later.length := by
  rw [Tally.count_eq_card, Tally.count_eq_card]
  have hsubset : (votesOf (received ++ later)).voters v ⊆
      (votesOf received).voters v ∪ (later.map Prod.fst).toFinset := by
    intro node hnode
    rw [Finset.mem_union, mem_voters_votesOf, List.mem_toFinset]
    rcases List.mem_append.mp (mem_voters_votesOf.mp hnode) with hold | hnew
    · exact Or.inl hold
    · exact Or.inr (List.mem_map_of_mem hnew)
  calc ((votesOf (received ++ later)).voters v).card
      ≤ ((votesOf received).voters v ∪ (later.map Prod.fst).toFinset).card :=
      Finset.card_le_card hsubset
    _ ≤ ((votesOf received).voters v).card + (later.map Prod.fst).toFinset.card :=
      Finset.card_union_le _ _
    _ ≤ ((votesOf received).voters v).card + later.length := by
        have hlen := List.toFinset_card_le (later.map Prod.fst)
        rw [List.length_map] at hlen
        exact Nat.add_le_add_left hlen _

theorem OnePerNode.length_le (h : OnePerNode nodes received) : received.length ≤ nodes.len := by
  have hsubset : received.map Prod.fst ⊆ nodes.keys := by
    intro node hnode
    obtain ⟨e, he, rfl⟩ := List.mem_map.mp hnode
    exact AList.mem_keys.mp (h.members e he)
  have hlen := (h.nodup.subperm hsubset).length_le
  rwa [List.length_map] at hlen

theorem OnePerNode.total_le (h : OnePerNode nodes received) :
    (votesOf received).total ≤ nodes.len := by
  rw [total_votesOf h.nodup]
  exact h.length_le

/-- A target can have at most its votes and those of the nodes that have not answered. -/
theorem OnePerNode.count_append_le (h : OnePerNode nodes (received ++ later)) :
    (votesOf (received ++ later)).count v ≤ (votesOf received).count v +
    (nodes.len - (votesOf received).total) := by
  have hlen := h.length_le
  have hnodup := h.nodup
  rw [List.length_append] at hlen
  rw [List.map_append] at hnodup
  rw [total_votesOf hnodup.of_append_left]
  have hcount : (votesOf (received ++ later)).count v ≤ _ := count_votesOf_append_le
  omega

end Votes

section Check
variable {env : Env} {host : Host} {votes : Tally CatchupVote String Unit}
    {merkle : MerkleTree} {n f : ℕ}

theorem not_givesUp_tryToCatchUp (status : CatchupVote) (merkle : MerkleTree) :
    ¬ GivesUp (tryToCatchUp env status merkle) := by
  rintro (⟨merkle', hrestart⟩ | ⟨e, herr, hkind⟩)
  · exact (tryToCatchUp_ends status merkle).ne_restart merkle' hrestart
  · obtain ⟨root, size, hashes⟩ := status
    unfold tryToCatchUp at herr
    dsimp only at herr
    split at herr
    · split at herr <;> cases herr
      cases hkind
    · split at herr
      · split at herr
        · cases herr
          cases hkind
        · rename_i rootBytes _
          cases hashes with
          | none => cases herr
          | some hashes =>
            rcases hcheck : checkConsProofs env merkle hashes rootBytes size with x | u
            · simp only [hcheck, except_error_bind, Except.error.injEq] at herr
              rw [herr] at hcheck
              rcases checkConsProofs_error hcheck with hx | ⟨e', hx, hne⟩
              · cases hx
              · cases hx
                exact hne hkind
            · simp only [hcheck, except_ok_bind] at herr
              cases herr
      · cases herr
        cases hkind

/-- A target with enough votes is not given up. -/
theorem not_givesUp_catchUpOrRecreate
    (hcreate : ∀ e, host.create = .error e → e.kind ≠ .poolTimeout)
    (status : CatchupVote) (merkle : MerkleTree) :
    ¬ GivesUp (orElse (tryToCatchUp env status merkle) fun err =>
      if host.dropCache
        then do tryToCatchUp env status (← ofResult host.create) else .error (.err err)) := by
  have hfirst : ¬ GivesUp (tryToCatchUp env status merkle) := not_givesUp_tryToCatchUp status merkle
  unfold orElse
  split
  · rename_i err herr
    split
    · rcases hc : host.create with e | merkle'
      · rintro (⟨merkle', hrestart⟩ | ⟨e', he', hkind⟩)
        · cases hrestart
        · cases he'
          exact hcreate e hc hkind
      · exact not_givesUp_tryToCatchUp status merkle'
    · rwa [herr] at hfirst
  · exact hfirst

theorem givesUp_ifConsensusReachable {votesCnt : ℕ} (htotal : votes.total ≤ n) (hf : f ≤ n)
    (h : GivesUp (ifConsensusReachable env host votes n votesCnt f)) :
    votesCnt + (n - votes.total) < n - f := by
  unfold ifConsensusReachable at h
  have hfits : ¬ (n < votes.total ∧ 2 ^ 64 ≤ votesCnt + (n - votes.total)) := by omega
  rw [subU64_of_le _ htotal, except_ok_bind, subU64_of_le _ hf, except_ok_bind, if_neg hfits] at h
  split at h
  · assumption
  · rcases h with ⟨merkle, h⟩ | ⟨e, h, -⟩ <;> cases h

/-- What the check has seen when it gives up: the leading target stays below `n - f` with all open
votes, or nobody reports a target and the timeouts have come to `n - f` or are split. -/
inductive VotesHopeless (n f : ℕ) (votes : Tally CatchupVote String Unit) : Prop
  | behind (best : CatchupVote) (hbest : best.1 ≠ "timeout") (hvoted : 0 < votes.count best)
      (hmax : ∀ k : CatchupVote, k.1 ≠ "timeout" → votes.count k ≤ votes.count best)
      (hlt : votes.count best + (n - votes.total) < n - f)
  | silent (hnone : ∀ k : CatchupVote, k.1 ≠ "timeout" → votes.count k = 0) (key : CatchupVote)
      (hvoted : 0 < votes.count key)
      (hcnt : votes.count key = n - f ∨ votes.count key + (n - votes.total) < n - f)

theorem votesHopeless_of_givesUp (hcreate : ∀ e, host.create = .error e → e.kind ≠ .poolTimeout)
    (hfilled : votes.Filled) (htotal : votes.total ≤ n) (hf : f ≤ n)
    (h : GivesUp (checkNodesResponsesOnStatus env host votes merkle n f)) :
    VotesHopeless n f votes := by
  unfold checkNodesResponsesOnStatus at h
  rcases hbest : maxByKey Prod.snd
    (host.votes.order (votes.counts.filter fun e => e.1.1 ≠ "timeout")) with _ | ⟨best, votesCnt⟩
  · have hnone : ∀ k : CatchupVote, k.1 ≠ "timeout" → votes.count k = 0 :=
      fun k hk => mostPopular_none hbest (by simpa using hk)
    rcases hlast : (host.votes.order (votes.counts.filter fun e => e.1.1 = "timeout")).getLast?
      with _ | ⟨key, votesCnt⟩
    · simp only [hbest, hlast] at h
      rcases h with ⟨merkle, h⟩ | ⟨e, h, -⟩ <;> cases h
    · obtain ⟨hmem, -, hvotes⟩ := last_some hlast
      have hvoted := hfilled.pos_of_mem_counts hmem
      dsimp only at hvotes hvoted
      simp only [hbest, hlast, subU64_of_le _ hf, except_ok_bind] at h
      rw [hvotes] at h hvoted
      split at h
      · exact .silent hnone key hvoted (.inl ‹_›)
      · exact .silent hnone key hvoted (.inr (givesUp_ifConsensusReachable htotal hf h))
  · obtain ⟨hmem, hkey, hvotes, hmax⟩ := mostPopular_some hbest
    have hvoted := hfilled.pos_of_mem_counts hmem
    dsimp only at hkey hvotes hmax hvoted
    simp only [hbest] at h
    rw [hvotes] at h hmax hvoted
    split at h
    · exact absurd h (not_givesUp_catchUpOrRecreate hcreate best merkle)
    · exact .behind best (by simpa using hkey) hvoted (fun k hk => hmax k (by simpa using hk))
        (givesUp_ifConsensusReachable htotal hf h)

/-- However the open votes fall, no target comes to `n - f`. -/
theorem VotesHopeless.count_add_open_lt (h : VotesHopeless n f votes) (htotal : votes.total ≤ n)
    (hf : 2 * f < n) (k : CatchupVote)
    (hk : k.1 ≠ "timeout") : votes.count k + (n - votes.total) < n - f := by
  cases h with
  | behind best _ _ hmax hlt =>
    have := hmax k hk
    omega
  | silent hnone key hvoted hcnt =>
    have hle : votes.count key ≤ votes.total := Tally.count_le_total key votes
    rw [hnone k hk]
    omega

/-- Somebody has voted. -/
theorem VotesHopeless.total_pos (h : VotesHopeless n f votes) : 0 < votes.total := by
  cases h with
  | behind best _ hvoted => exact hvoted.trans_le (Tally.count_le_total best votes)
  | silent _ key hvoted => exact hvoted.trans_le (Tally.count_le_total key votes)

end Check

section Answer
variable {env : Env} {host : Host} {nodes : Nodes} {received : List (String × CatchupVote)}
    {merkle : MerkleTree}

theorem eq_timeoutVote_of_count_pos (hsilent : ∀ e ∈ received, e.2 = timeoutVote) {k : CatchupVote}
    (hk : 0 < (votesOf received).count k) : k = timeoutVote := by
  rw [Tally.count_eq_card] at hk
  obtain ⟨node, hnode⟩ := Finset.card_pos.mp hk
  exact hsilent _ (mem_voters_votesOf.mp hnode)

theorem count_timeoutVote (honce : OnePerNode nodes received)
    (hsilent : ∀ e ∈ received, e.2 = timeoutVote) :
    (votesOf received).count timeoutVote = received.length := by
  have hvoters : (votesOf received).voters timeoutVote = (received.map Prod.fst).toFinset := by
    ext node
    rw [mem_voters_votesOf, List.mem_toFinset, List.mem_map]
    constructor
    · exact fun hmem => ⟨_, hmem, rfl⟩
    · rintro ⟨e, he, rfl⟩
      rwa [← hsilent e he]
  rw [Tally.count_eq_card, hvoters, List.toFinset_card_of_nodup honce.nodup, List.length_map]

/-- The search is given up only when no target can get `n - f` votes any more; when only timeouts
have come in, no target can then get `f + 1`. -/
theorem not_canReach_of_givesUp {f : ℕ} (hf : f = getF nodes.len)
    (honce : OnePerNode nodes received)
    (hcreate : ∀ e, host.create = .error e → e.kind ≠ .poolTimeout)
    (h : GivesUp (checkNodesResponsesOnStatus env host (votesOf received) merkle nodes.len f)) :
    ¬ CanReach nodes received (nodes.len - f) ∧
      ((∀ e ∈ received, e.2 = timeoutVote) → ¬ CanReach nodes received (f + 1)) := by
  have htotal := honce.total_le
  have hfn : f ≤ nodes.len := by
    rw [hf]
    unfold getF
    split <;> omega
  have hopeless := votesHopeless_of_givesUp hcreate (filled_votesOf received) htotal hfn h
  have hquorum : 2 * f < nodes.len := by
    have := three_mul_getF_lt (hopeless.total_pos.trans_le htotal)
    omega
  constructor
  · rintro ⟨later, v, honce', hv, hreach⟩
    have hcount : (votesOf (received ++ later)).count v ≤ _ := honce'.count_append_le
    have := hopeless.count_add_open_lt htotal hquorum v hv
    omega
  · rintro hsilent ⟨later, v, honce', hv, hreach⟩
    have hlen := total_votesOf honce.nodup
    have hall := count_timeoutVote honce hsilent
    have hcount : (votesOf (received ++ later)).count v ≤ _ := honce'.count_append_le
    have hzero : (votesOf received).count v = 0 := by
      by_contra hne
      rw [eq_timeoutVote_of_count_pos hsilent (Nat.pos_of_ne_zero hne)] at hv
      exact hv rfl
    cases hopeless with
    | behind best hbest hvoted =>
      rw [eq_timeoutVote_of_count_pos hsilent hvoted] at hbest
      exact hbest rfl
    | silent hnone key hvoted hcnt =>
      rw [eq_timeoutVote_of_count_pos hsilent hvoted] at hcnt
      omega

end Answer

/-- Two nodes time out and a third reports a target, for examples. -/
def splitVotes : List (String × CatchupVote) :=
  [("n1", timeoutVote), ("n2", timeoutVote), ("n3", ("14", 2, none))]

theorem onePerNode_splitVotes : OnePerNode sampleRequest.nodes splitVotes := ⟨by decide, by decide⟩

theorem givesUp_splitVotes :
    GivesUp (checkNodesResponsesOnStatus sampleEnv sampleHost (votesOf splitVotes) .default
    sampleRequest.nodes.len (getF sampleRequest.nodes.len)) := .inl ⟨.default, rfl⟩

theorem not_canReach_of_givesUp_split : ¬ CanReach sampleRequest.nodes splitVotes 3 := by
  have hcreate : ∀ e, sampleHost.create = .error e → e.kind ≠ .poolTimeout := fun e he => nomatch he
  have h := not_canReach_of_givesUp rfl onePerNode_splitVotes hcreate givesUp_splitVotes
  exact h.1

/-- The split pool is given up although the fourth node could give the target its second vote. -/
theorem givesUp_though_canReach : OnePerNode sampleRequest.nodes splitVotes ∧
    GivesUp (checkNodesResponsesOnStatus sampleEnv sampleHost (votesOf splitVotes) .default
      sampleRequest.nodes.len (getF sampleRequest.nodes.len)) ∧
    CanReach sampleRequest.nodes splitVotes (getF sampleRequest.nodes.len + 1) := by
  refine ⟨onePerNode_splitVotes, givesUp_splitVotes, [("n4", ("14", 2, none))], ("14", 2, none),
    ⟨?_, ?_⟩, ?_, ?_⟩
  all_goals decide

end SimpleAsset.Indy
