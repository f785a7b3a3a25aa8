import SimpleAsset.Indy.Pool.Agreement

/-! Counting votes without underflow: where the unsigned subtractions of the request handlers stay
above zero, and which answers can take them below. -/
namespace SimpleAsset.Indy
open SimpleAsset.Library

/-- The same code with overflow checks. -/
def Env.checked (env : Env) : Env := { env with build := .debug }

section Consensus
variable {env : Env} {sm : RequestSM} {re : RequestEvent} {s : ConsensusState} {n : ℕ}

/-- Room for one more count in `max_no + total_nodes_cnt - rep_no - timeout_nodes -
denied_nodes`. -/
def ConsensusState.HasRoom (s : ConsensusState) (n : ℕ) : Prop :=
  s.replies.total + s.timeoutNodes.card + s.deniedNodes.card < s.replies.maxCount + n

theorem ConsensusState.HasRoom.record (h : s.HasRoom n) (b : Ballot) :
    (s.record b).replies.total + (s.record b).timeoutNodes.card + (s.record b).deniedNodes.card ≤
      (s.record b).replies.maxCount + n := by
  unfold HasRoom at h
  cases b with
  | result node msg v =>
    have htotal := Tally.total_vote v node () s.replies
    have hmax := Tally.maxCount_le_vote v node () s.replies
    simp only [ConsensusState.record]
    split at htotal <;> omega
  | denial node =>
    have hcard := Finset.card_insert_le node s.deniedNodes
    simp only [ConsensusState.record]
    omega
  | timeout node =>
    have hcard := Finset.card_insert_le node s.timeoutNodes
    simp only [ConsensusState.record]
    omega

theorem consensusReply_of_hasRoom (h : s.HasRoom sm.nodes.len) (msg node reqId : String) :
    ∃ r, consensusReply env sm s msg node reqId = .ok r := by
  unfold consensusReply
  split
  · rename_i v hv
    have hreach :=
      ConsensusState.isConsensusReachable_of_le env sm.f (h.record (.result node msg v))
    rw [ConsensusState.record] at hreach
    dsimp only
    split
    · exact ⟨_, rfl⟩
    · rw [hreach, except_ok_bind]
      split <;> exact ⟨_, rfl⟩
  · dsimp only
    split <;> exact ⟨_, rfl⟩

/-- With room left, the event is handled in any build. -/
theorem handleConsensus_of_hasRoom (h : s.HasRoom sm.nodes.len) :
    ∃ r, handleConsensus env sm s re = .ok r := by
  unfold handleConsensus
  split
  · exact consensusReply_of_hasRoom h _ _ _
  · exact consensusReply_of_hasRoom h _ _ _
  · exact consensusReply_of_hasRoom h _ _ _
  · exact ⟨_, rfl⟩
  · rename_i reqId node
    have hreach := ConsensusState.isConsensusReachable_of_le env sm.f (h.record (.timeout node))
    rw [ConsensusState.record] at hreach
    dsimp only
    rw [hreach, except_ok_bind]
    split <;> exact ⟨_, rfl⟩
  · exact ⟨_, rfl⟩
  · exact ⟨_, rfl⟩

/-- An unparsable answer that denies a new node and leaves the request waiting is taken in only
while there is room for two counts: no test follows it. -/
def ConsensusState.KeepsRoom (env : Env) (sm : RequestSM) (s : ConsensusState)
    (re : RequestEvent) : Prop :=
  ∀ node, re.ballot env = some (.denial node) → node ∉ s.deniedNodes →
    s.deniedNodes.card + 1 + s.replies.keys.length ≠ sm.nodes.len →
    s.replies.total + s.timeoutNodes.card + s.deniedNodes.card + 1 < s.replies.maxCount +
    sm.nodes.len

theorem ConsensusStep.hasRoom {st : RequestState} {answer : Option (Except IndyError String)}
    (h : s.HasRoom sm.nodes.len) (hkeeps : s.KeepsRoom env sm re)
    (hstep : ConsensusStep env sm s re st answer) :
    st = .finish ∨ ∃ s', st = .consensus s' ∧ s'.HasRoom sm.nodes.len := by
  cases hstep with
  | agree => exact .inl rfl
  | fail => exact .inl rfl
  | terminate => exact .inl rfl
  | idle => exact .inr ⟨s, rfl, h⟩
  | wait hb hcount hgo =>
    rename_i b
    refine .inr ⟨_, rfl, ?_⟩
    have hle := h.record b
    have hreach : (s.record b).isConsensusReachable env sm.f sm.nodes.len = .ok true →
        (s.record b).HasRoom sm.nodes.len := by
      intro hyes
      rw [ConsensusState.isConsensusReachable_of_le env sm.f hle, Except.ok.injEq,
        decide_eq_true_eq] at hyes
      unfold ConsensusState.HasRoom
      omega
    cases b with
    | result node msg v => exact hreach hgo
    | timeout node => exact hreach hgo
    | denial node =>
      by_cases hnode : node ∈ s.deniedNodes
      · rw [ConsensusState.record, Finset.insert_eq_of_mem hnode]
        exact h
      · have hcard := Finset.card_insert_of_notMem hnode
        have hmore : s.deniedNodes.card + 1 + s.replies.keys.length ≠ sm.nodes.len := by
          simpa [ConsensusState.goesOn, ConsensusState.record, hcard] using hgo
        have hroom := hkeeps node hb hnode hmore
        unfold ConsensusState.HasRoom
        simp only [ConsensusState.record, hcard]
        omega

end Consensus

section Catchup
variable {env : Env} {host : Host} {sm : RequestSM} {re : RequestEvent} {n f : ℕ}
    {merkle : MerkleTree}
  {votes : Tally CatchupVote String Unit} {s : CatchupConsensusState}

/-- Vote and voter of an event in state `CatchupConsensus`; silence is a vote of its own. -/
def RequestEvent.catchupVote : RequestEvent → Option (CatchupVote × String)
  | .ledgerStatus ls (some node) _ => some ((ls.merkleRoot, ls.txnSeqNo, none), node)
  | .consistencyProof cp node => some ((cp.newMerkleRoot, cp.seqNoEnd, some cp.hashes), node)
  | .timeout _ node => some (("timeout", 0, none), node)
  | _ => none

/-- The cached tree can be dropped and made again. -/
def Host.Recreates (host : Host) : Prop :=
  host.dropCache = true ∧ ∃ merkle, host.create = .ok merkle

/-- Fewer votes than nodes; or the last vote gives a target its `f + 1` votes; or it makes the
request start over, and it fails because the tree cannot be made again. -/
def RoomAfter (host : Host) (n f : ℕ) (votes : Tally CatchupVote String Unit) : Prop :=
  votes.total < n ∨ (∃ k, k.1 ≠ "timeout" ∧ votes.count k = f + 1) ∨
    ¬ host.Recreates ∧
      ((∃ k, k.1 ≠ "timeout" ∧ votes.count k ≠ 0) ∨ ∀ k, k.1 = "timeout" → votes.count k ≤ n - f)

/-- The vote of the event leaves room for one more, or ends the request. -/
def CatchupConsensusState.KeepsRoom (host : Host) (sm : RequestSM) (s : CatchupConsensusState)
    (re : RequestEvent) :
    Prop :=
  ∀ vote node, re.catchupVote = some (vote, node) →
    RoomAfter host sm.nodes.len sm.f (s.replies.vote vote node ())

/-- No target has enough votes, and there is room for one more vote. -/
structure OpenVotes (n f : ℕ) (votes : Tally CatchupVote String Unit) : Prop where
  target : ∀ k, k.1 ≠ "timeout" → votes.count k ≤ f
  total : votes.total < n

theorem mostPopular_none {order : Shuffle (CatchupVote × ℕ)} {p : CatchupVote × ℕ → Bool}
    (h : maxByKey Prod.snd (order.order (votes.counts.filter p)) = none) {k : CatchupVote}
    (hk : ∀ c, p (k, c) = true) : votes.count k = 0 := by
  by_contra hne
  have hmem : (k, votes.count k) ∈ order.order (votes.counts.filter p) :=
    Shuffle.mem_order.mpr (List.mem_filter.mpr ⟨Tally.mem_counts_of_count_ne_zero hne, hk _⟩)
  obtain ⟨x, hx, -⟩ := maxByKey_spec Prod.snd (List.ne_nil_of_mem hmem)
  rw [h] at hx
  cases hx

theorem mostPopular_some {order : Shuffle (CatchupVote × ℕ)} {p : CatchupVote × ℕ → Bool}
    {e : CatchupVote × ℕ}
    (h : maxByKey Prod.snd (order.order (votes.counts.filter p)) = some e) : e ∈ votes.counts ∧
    p e = true ∧ e.2 = votes.count e.1 ∧ ∀ k, (∀ c, p (k, c) = true) → votes.count k ≤ e.2 := by
  have hne : order.order (votes.counts.filter p) ≠ [] := by
    intro hnil
    rw [hnil] at h
    cases h
  obtain ⟨x, hx, hmem, hmax⟩ := maxByKey_spec Prod.snd hne
  rw [h, Option.some.injEq] at hx
  subst hx
  obtain ⟨hcounts, hp⟩ := List.mem_filter.mp (Shuffle.mem_order.mp hmem)
  refine ⟨hcounts, hp, Tally.snd_of_mem_counts hcounts, ?_⟩
  intro k hk
  by_cases hzero : votes.count k = 0
  · omega
  · exact hmax _
      (Shuffle.mem_order.mpr (List.mem_filter.mpr ⟨Tally.mem_counts_of_count_ne_zero hzero, hk _⟩))

theorem last_some {order : Shuffle (CatchupVote × ℕ)} {p : CatchupVote × ℕ → Bool}
    {e : CatchupVote × ℕ} (h : (order.order (votes.counts.filter p)).getLast? = some e) :
    e ∈ votes.counts ∧ p e = true ∧ e.2 = votes.count e.1 := by
  have hmem := Shuffle.mem_order.mp (List.mem_of_getLast? h)
  obtain ⟨hcounts, hp⟩ := List.mem_filter.mp hmem
  exact ⟨hcounts, hp, Tally.snd_of_mem_counts hcounts⟩

/-- The request is finished by this outcome, and no arithmetic has failed. -/
structure Ends (x : Outcome CatchupProgress) : Prop where
  ne_overflow : x ≠ .error (.panic .overflow)
  ne_inProgress : x ≠ .ok .inProgress
  ne_restart : ∀ merkle, x ≠ .ok (.restart merkle)

theorem tryToRestartCatchUp_cases (host : Host) (err : IndyError) :
    Ends (tryToRestartCatchUp host err) ∨
      host.Recreates ∧ ∃ merkle, tryToRestartCatchUp host err = .ok (.restart merkle) := by
  unfold tryToRestartCatchUp
  split
  · rename_i hdrop
    rcases hcreate : host.create with e | merkle
    · exact .inl ⟨by simp [ofResult], by simp [ofResult], by simp [ofResult]⟩
    · exact .inr ⟨⟨hdrop, merkle, hcreate⟩, merkle, rfl⟩
  · exact .inl ⟨by simp, by simp, by simp⟩

theorem consistencyProof_error {H : Hash} {mt : MerkleTree} {root : Bytes} {size : ℕ}
    {proof : List Bytes} {x : Fault}
    (h : mt.consistencyProof H root size proof = .error x) : x = .panic .assertionFailed := by
  unfold MerkleTree.consistencyProof at h
  dsimp only at h
  split at h
  · cases h
  · split at h
    · cases h
    · split at h
      · cases h
        rfl
      · split at h
        · cases h
        · split at h <;> cases h

theorem checkConsProofs_error {mt : MerkleTree} {proofs : List String} {root : Bytes}
    {size : ℕ} {x : Fault} (h : checkConsProofs env mt proofs root size = .error x) :
    x = .panic .assertionFailed ∨ ∃ e, x = .err e ∧ e.kind ≠ .poolTimeout := by
  unfold checkConsProofs at h
  split at h
  · cases h
    exact .inr ⟨_, rfl, by simp⟩
  · rename_i bytesProofs _
    rcases hproof : mt.consistencyProof env.hash root size bytesProofs with y | b
    · rw [hproof, except_error_bind, Except.error.injEq] at h
      rw [← h]
      exact .inl (consistencyProof_error hproof)
    · rw [hproof, except_ok_bind] at h
      cases b with
      | true => cases h
      | false =>
        cases h
        exact .inr ⟨_, rfl, by simp⟩

theorem checkConsProofs_ne_overflow (mt : MerkleTree) (proofs : List String) (root : Bytes)
    (size : ℕ) :
    checkConsProofs env mt proofs root size ≠ .error (.panic .overflow) := by
  intro h
  rcases checkConsProofs_error h with hx | ⟨e, hx, -⟩ <;> cases hx

/-- Catching up with an agreed status ends the vote. -/
theorem tryToCatchUp_ends (status : CatchupVote) (merkle : MerkleTree) :
    Ends (tryToCatchUp env status merkle) := by
  obtain ⟨root, size, hashes⟩ := status
  unfold tryToCatchUp
  dsimp only
  split
  · split
    · exact ⟨by simp, by simp, by simp⟩
    · exact ⟨by simp [errMsg], by simp [errMsg], by simp [errMsg]⟩
  · split
    · split
      · exact ⟨by simp [errMsg], by simp [errMsg], by simp [errMsg]⟩
      · rename_i rootBytes _
        cases hashes with
        | none => exact ⟨by simp, by simp, by simp⟩
        | some hashes =>
          have hne : checkConsProofs env merkle hashes rootBytes size ≠ .error (.panic .overflow) :=
            checkConsProofs_ne_overflow merkle hashes rootBytes size
          rcases hcheck : checkConsProofs env merkle hashes rootBytes size with e | u
          · rw [hcheck] at hne
            exact ⟨by simpa [hcheck] using hne, by simp [hcheck], by simp [hcheck]⟩
          · exact ⟨by simp [hcheck], by simp [hcheck], by simp [hcheck]⟩
    · exact ⟨by simp [errMsg], by simp [errMsg], by simp [errMsg]⟩

theorem catchUpOrRecreate_ends (env : Env) (host : Host) (status : CatchupVote)
    (merkle : MerkleTree) :
    Ends (orElse (tryToCatchUp env status merkle) fun err =>
      if host.dropCache
        then do tryToCatchUp env status (← ofResult host.create) else .error (.err err)) := by
  have hends : Ends (tryToCatchUp env status merkle) := tryToCatchUp_ends status merkle
  unfold orElse
  split
  · split
    · rcases host.create with e | merkle'
      · exact ⟨by simp [ofResult], by simp [ofResult], by simp [ofResult]⟩
      · exact tryToCatchUp_ends status merkle'
    · exact ⟨by simp, by simp, by simp⟩
  · exact hends

/-- What a new vote can make of open votes, before the handler looks at them. -/
structure NearlyOpen (n f : ℕ) (votes : Tally CatchupVote String Unit) : Prop where
  target : ∀ k, k.1 ≠ "timeout" → votes.count k ≤ f + 1
  total : votes.total ≤ n
  voted : ∃ k, votes.count k ≠ 0

theorem OpenVotes.vote (h : OpenVotes n f votes) (k : CatchupVote) (node : String) :
    NearlyOpen n f (votes.vote k node ()) := by
  refine ⟨?_, ?_, k, ?_⟩
  · intro k' hk'
    have hbound := h.target k' hk'
    rw [Tally.count_eq_card] at hbound ⊢
    by_cases hk : k' = k
    · rw [hk] at hbound ⊢
      rw [Tally.voters_vote_self]
      exact (Finset.card_insert_le _ _).trans (Nat.add_le_add_right hbound 1)
    · rw [Tally.voters_vote_ne hk]
      omega
  · have htotal := Tally.total_vote k node () votes
    have := h.total
    split at htotal <;> omega
  · rw [Tally.count_eq_card, Tally.voters_vote_self]
    exact Finset.card_ne_zero_of_mem (Finset.mem_insert_self _ _)

/-- What the handler can see in the votes: it waits, it starts over, or the request is finished. -/
inductive StatusCheck (host : Host) (n f : ℕ) (votes : Tally CatchupVote String Unit) :
    Outcome CatchupProgress → Prop
  | wait (htarget : ∀ k, k.1 ≠ "timeout" → votes.count k ≤ f)
      (hroom : votes.total < n ∨ (∀ k, k.1 ≠ "timeout" → votes.count k = 0) ∧
        ∃ k, k.1 = "timeout" ∧ n - f < votes.count k) : StatusCheck host n f votes (.ok .inProgress)
  | restart (merkle : MerkleTree) (htarget : ∀ k, k.1 ≠ "timeout" → votes.count k ≤ f)
      (hcache : host.Recreates) : StatusCheck host n f votes (.ok (.restart merkle))
  | ends {x : Outcome CatchupProgress} (hx : Ends x) : StatusCheck host n f votes x

/-- Starting over, or failing to. -/
theorem statusCheck_tryToRestart (htarget : ∀ k, k.1 ≠ "timeout" → votes.count k ≤ f)
    (err : IndyError) :
    StatusCheck host n f votes (tryToRestartCatchUp host err) := by
  rcases tryToRestartCatchUp_cases host err with hends | ⟨hcache, merkle, hm⟩
  · exact .ends hends
  · rw [hm]
    exact .restart merkle htarget hcache

/-- With no more votes than nodes the test does not underflow, and it says whether to wait. -/
theorem statusCheck_ifConsensusReachable (h : NearlyOpen n f votes) (hf : f ≤ n)
    (htarget : ∀ k, k.1 ≠ "timeout" → votes.count k ≤ f) {votesCnt : ℕ}
    (hroom : n - f ≤ votesCnt + (n - votes.total) → votes.total < n ∨
      (∀ k, k.1 ≠ "timeout" → votes.count k = 0) ∧ ∃ k, k.1 = "timeout" ∧ n - f < votes.count k) :
    StatusCheck host n f votes (ifConsensusReachable env host votes n votesCnt f) := by
  unfold ifConsensusReachable
  have hfits : ¬ (n < votes.total ∧ 2 ^ 64 ≤ votesCnt + (n - votes.total)) :=
    fun hp => not_lt.mpr h.total hp.1
  rw [subU64_of_le _ h.total, except_ok_bind, subU64_of_le _ hf, except_ok_bind, if_neg hfits]
  split
  · exact statusCheck_tryToRestart htarget _
  · rename_i hreach
    exact .wait htarget (hroom (not_lt.mp hreach))

theorem statusCheck_spec (hf : 3 * f < n) (h : NearlyOpen n f votes) :
    StatusCheck host n f votes (checkNodesResponsesOnStatus env host votes merkle n f) := by
  have hfn : f ≤ n := by omega
  unfold checkNodesResponsesOnStatus
  rcases hbest : maxByKey Prod.snd
    (host.votes.order (votes.counts.filter fun e => e.1.1 ≠ "timeout")) with _ | ⟨best, votesCnt⟩
  · have hnone : ∀ k, k.1 ≠ "timeout" → votes.count k = 0 :=
      fun k hk => mostPopular_none hbest (by simpa using hk)
    have htarget : ∀ k, k.1 ≠ "timeout" → votes.count k ≤ f := by
      intro k hk
      rw [hnone k hk]
      omega
    rcases hlast : (host.votes.order (votes.counts.filter fun e => e.1.1 = "timeout")).getLast?
      with _ | ⟨key, votesCnt⟩
    · -- somebody has voted
      obtain ⟨k, hk⟩ := h.voted
      by_cases htime : k.1 = "timeout"
      · have hmem : (k, votes.count k) ∈ host.votes.order
            (votes.counts.filter fun e => e.1.1 = "timeout") :=
          Shuffle.mem_order.mpr
            (List.mem_filter.mpr ⟨Tally.mem_counts_of_count_ne_zero hk, by simpa using htime⟩)
        rw [List.getLast?_eq_none_iff.mp hlast] at hmem
        cases hmem
      · exact absurd (hnone k htime) hk
    · obtain ⟨-, hkey, hvotes⟩ := last_some hlast
      dsimp only at hkey hvotes ⊢
      subst hvotes
      rw [subU64_of_le _ hfn, except_ok_bind]
      split
      · exact statusCheck_tryToRestart htarget _
      · rename_i hcnt
        apply statusCheck_ifConsensusReachable h hfn htarget
        intro hreach
        by_cases htotal : votes.total < n
        · exact .inl htotal
        · exact .inr ⟨hnone, key, by simpa using hkey, by omega⟩
  · obtain ⟨-, hkey, hvotes, hmax⟩ := mostPopular_some hbest
    dsimp only at hkey hvotes hmax ⊢
    subst hvotes
    have hbound := h.target best (by simpa using hkey)
    split
    · exact .ends (catchUpOrRecreate_ends env host best merkle)
    · rename_i hcnt
      have htarget : ∀ k, k.1 ≠ "timeout" → votes.count k ≤ f := by
        intro k hk
        have := hmax k (by simpa using hk)
        omega
      apply statusCheck_ifConsensusReachable h hfn htarget
      intro hreach
      exact .inl (by omega)

/-- Where the request goes on after a vote that leaves room, the votes are open. -/
theorem RoomAfter.open_of_wait (hroom : RoomAfter host n f votes)
    (hcheck : StatusCheck host n f votes (.ok .inProgress)) : OpenVotes n f votes := by
  cases hcheck with
  | ends hx => exact absurd rfl hx.ne_inProgress
  | wait htarget hwait =>
    refine ⟨htarget, ?_⟩
    rcases hroom with htotal | ⟨k, hk, hcount⟩ | ⟨-, ⟨k, hk, hcount⟩ | hsilent⟩
    · exact htotal
    · have := htarget k hk
      omega
    · rcases hwait with htotal | ⟨hnone, -⟩
      · exact htotal
      · exact absurd (hnone k hk) hcount
    · rcases hwait with htotal | ⟨-, k, hk, hcount⟩
      · exact htotal
      · have := hsilent k hk
        omega

theorem RoomAfter.open_of_restart (hroom : RoomAfter host n f votes)
    (hcheck : StatusCheck host n f votes (.ok (.restart merkle))) : OpenVotes n f votes := by
  cases hcheck with
  | ends hx => exact absurd rfl (hx.ne_restart merkle)
  | restart _ htarget hcache =>
    refine ⟨htarget, ?_⟩
    rcases hroom with htotal | ⟨k, hk, hcount⟩ | ⟨hnot, -⟩
    · exact htotal
    · have := htarget k hk
      omega
    · exact absurd hcache hnot

theorem processCatchupTarget_cases (hf : 3 * sm.f < sm.nodes.len)
    (h : OpenVotes sm.nodes.len sm.f s.replies) (vote : CatchupVote) (node : String) :
    processCatchupTarget env host sm s vote node ≠ .error (.panic .overflow) ∧
      ∀ s' event, processCatchupTarget env host sm s vote node = .ok (s', false, event) →
        RoomAfter host sm.nodes.len sm.f (s.replies.vote vote node ()) →
        OpenVotes sm.nodes.len sm.f s'.replies := by
  have hcheck : StatusCheck host sm.nodes.len sm.f (s.replies.vote vote node ())
      (checkNodesResponsesOnStatus env host
        (s.replies.vote vote node ()) s.merkle sm.nodes.len sm.f) :=
    statusCheck_spec hf (h.vote vote node)
  unfold processCatchupTarget
  dsimp only
  split
  · rename_i hprogress
    rw [hprogress] at hcheck
    refine ⟨by simp, ?_⟩
    intro s' event heq hroom
    cases heq
    exact hroom.open_of_wait hcheck
  · simp
  · rename_i merkle hrestart
    rw [hrestart] at hcheck
    refine ⟨by simp, ?_⟩
    intro s' event heq hroom
    cases heq
    exact hroom.open_of_restart hcheck
  · simp
  · simp
  · rename_i fault _ hfault
    rw [hfault] at hcheck
    cases hcheck with
    | ends hx => exact ⟨by simpa using hx.ne_overflow, by simp⟩

/-- The request is finished, or the votes are open. -/
def StaysOpen (sm : RequestSM) (r : Reaction) : Prop :=
  r.state = .finish ∨ ∃ s, r.state = .catchupConsensus s ∧ OpenVotes sm.nodes.len sm.f s.replies

theorem catchupTargetHandleConsensusState_cases (hf : 3 * sm.f < sm.nodes.len)
    (h : OpenVotes sm.nodes.len sm.f s.replies) (vote : CatchupVote) (node reqId : String) :
    catchupTargetHandleConsensusState env host sm s vote node reqId ≠ .error (.panic .overflow) ∧
      ∀ r, catchupTargetHandleConsensusState env host sm s vote node reqId = .ok r →
        RoomAfter host sm.nodes.len sm.f (s.replies.vote vote node ()) → StaysOpen sm r := by
  have htarget : processCatchupTarget env host sm s vote node ≠ .error (.panic .overflow) ∧ _ :=
    processCatchupTarget_cases hf h vote node
  unfold catchupTargetHandleConsensusState
  rcases hprocess : processCatchupTarget env host sm s vote node with e | ⟨s₁, finished, event⟩
  · rw [hprocess] at htarget
    exact ⟨by simpa using htarget.1, by simp⟩
  · rw [except_ok_bind]
    dsimp only
    cases finished with
    | true =>
      refine ⟨by simp, ?_⟩
      intro r heq _
      cases heq
      exact .inl rfl
    | false =>
      have hopen := htarget.2 s₁ event hprocess
      rw [if_neg (by simp)]
      split
      · refine ⟨by simp, ?_⟩
        intro r heq hroom
        cases heq
        exact .inr ⟨_, rfl, hopen hroom⟩
      · refine ⟨by simp, ?_⟩
        intro r heq hroom
        cases heq
        exact .inr ⟨_, rfl, hopen hroom⟩

/-- An event on open votes is handled without underflow. -/
theorem handleCatchupConsensus_cases (hf : 3 * sm.f < sm.nodes.len)
    (h : OpenVotes sm.nodes.len sm.f s.replies) (re : RequestEvent) :
    handleCatchupConsensus env host sm s re ≠ .error (.panic .overflow) ∧
      ∀ r, handleCatchupConsensus env host sm s re = .ok r → s.KeepsRoom host sm re →
        StaysOpen sm r := by
  have hvote : ∀ vote node reqId, re.catchupVote = some (vote, node) →
      catchupTargetHandleConsensusState env host sm s vote node reqId ≠ .error (.panic .overflow) ∧
        ∀ r, catchupTargetHandleConsensusState env host sm s vote node reqId = .ok r →
          s.KeepsRoom host sm re → StaysOpen sm r := by
    intro vote node reqId hre
    have hcases : catchupTargetHandleConsensusState env host sm s vote node reqId ≠ .error
        (.panic .overflow) ∧ _ :=
      catchupTargetHandleConsensusState_cases hf h vote node reqId
    obtain ⟨hne, hopen⟩ := hcases
    exact ⟨hne, fun r hr hkeeps => hopen r hr (hkeeps vote node hre)⟩
  unfold handleCatchupConsensus
  split
  · exact hvote _ _ _ rfl
  · exact hvote _ _ _ rfl
  · exact hvote _ _ _ rfl
  · refine ⟨by simp, ?_⟩
    intro r heq _
    cases heq
    exact .inl rfl
  · refine ⟨by simp, ?_⟩
    intro r heq _
    cases heq
    exact .inr ⟨s, rfl, h⟩

end Catchup

/-- `CustomConsensusRequest`, and `LedgerStatus` with a tree, which starts a vote on the catch-up
target. -/
inductive VoteRequest : RequestEvent → Prop
  | consensus (msg reqId : String) : VoteRequest (.customConsensusRequest msg reqId)
  | catchup (status : LedgerStatus) (node : Option String) (merkle : MerkleTree) :
      VoteRequest (.ledgerStatus status node (some merkle))

/-- The event keeps room in the counts of the state it comes to. -/
def KeepsCounting (env : Env) (sm : RequestSM) (e : RequestEvent × Host) : Prop :=
  match sm.state with
  | .consensus s => s.KeepsRoom env sm e.1
  | .catchupConsensus s => s.KeepsRoom e.2 sm e.1
  | _ => True

/-- State of a vote with room in its counts. -/
inductive Countable (n f : ℕ) : RequestState → Prop
  | consensus {s : ConsensusState} (h : s.HasRoom n) : Countable n f (.consensus s)
  | catchup {s : CatchupConsensusState} (h : OpenVotes n f s.replies) : Countable n f
      (.catchupConsensus s)
  | finish : Countable n f .finish

variable {env : Env} {host : Host} {sm sm' : RequestSM} {re req : RequestEvent}
    {effects : List Effect}

theorem Countable.react_ne_overflow (hf : 3 * sm.f < sm.nodes.len)
    (h : Countable sm.nodes.len sm.f sm.state) :
    sm.react env host re ≠ .error (.panic .overflow) := by
  unfold RequestSM.react
  generalize sm.state = st at h
  cases h with
  | consensus h =>
    obtain ⟨r, hr⟩ : ∃ r, handleConsensus env sm _ re = .ok r := handleConsensus_of_hasRoom h
    simp [hr]
  | catchup h => exact (handleCatchupConsensus_cases hf h re).1
  | finish => simp

/-- One step that keeps room in the counts leaves room for the next. -/
theorem Countable.step (hf : 3 * sm.f < sm.nodes.len) (h : Countable sm.nodes.len sm.f sm.state)
    (hkeeps : KeepsCounting env sm (re, host))
    (hstep : sm.step env (re, host) = .ok (sm', effects)) :
    Countable sm.nodes.len sm.f sm'.state := by
  obtain ⟨r, hr, rfl, rfl⟩ := RequestSM.step_inv hstep
  unfold RequestSM.react at hr
  unfold KeepsCounting at hkeeps
  generalize sm.state = st at h hr hkeeps
  cases h with
  | consensus h =>
    obtain ⟨answer, hstep, -⟩ := handleConsensus_inv hr
    rcases hstep.hasRoom h hkeeps with hst | ⟨s', hst, hroom⟩
    · simp only [hst]
      exact .finish
    · simp only [hst]
      exact .consensus hroom
  | catchup h =>
    rcases (handleCatchupConsensus_cases hf h re).2 r hr hkeeps with hst | ⟨s', hst, hopen⟩
    · simp only [hst]
      exact .finish
    · simp only [hst]
      exact .catchup hopen
  | finish =>
    cases hr
    exact .finish

theorem countable_of_start (hn : 0 < sm.nodes.len) (hstart : sm.state = .start)
    (hreq : VoteRequest req) (h : sm.step env (req, host) = .ok (sm', effects)) :
    Countable sm.nodes.len sm.f sm'.state := by
  obtain ⟨r, hr, rfl, rfl⟩ := RequestSM.step_inv h
  unfold RequestSM.react at hr
  rw [hstart] at hr
  cases hreq with
  | consensus msg reqId =>
    cases hr
    apply Countable.consensus
    simpa [ConsensusState.HasRoom, Tally.total, Tally.maxCount] using hn
  | catchup status node merkle =>
    simp only [handleStart] at hr
    split at hr
    · cases hr
    · cases hr
      apply Countable.catchup
      constructor
      · simp [Tally.count, Tally.ballots]
      · simpa [Tally.total] using hn

/-- After a run that keeps room in its counts, no event makes a subtraction of the vote counting
underflow: with overflow checks, the step does not trap. -/
theorem step_ne_overflow {sm₀ : RequestSM} {host₀ : Host} {before : List (RequestEvent × Host)}
    {sent : List Effect} (hn : 0 < sm₀.nodes.len) (hf : sm₀.f = getF sm₀.nodes.len)
    (hstart : sm₀.state = .start) (hreq : VoteRequest req)
    (hkeeps : EveryStep (RequestSM.step env) (KeepsCounting env) sm₀ ((req, host₀) :: before))
    (hrun : sm₀.run env ((req, host₀) :: before) = .ok (sm, sent)) (e : RequestEvent × Host) :
    sm.step env.checked e ≠ .error (.panic .overflow) := by
  have hthree : 3 * sm₀.f < sm₀.nodes.len := by
    rw [hf]
    exact three_mul_getF_lt hn
  obtain ⟨sm₁, sent₁, sent₂, hfirst, hrest, -⟩ := runSteps_cons_iff.mp hrun
  have hinv := runSteps_invariant (C := KeepsCounting env)
    (P := fun _ _ (sm : RequestSM) => Countable sm.nodes.len sm.f sm.state ∧ sm.f = sm₀.f ∧
      sm.nodes = sm₀.nodes)
    (by
      obtain ⟨hf₁, hnodes₁, -⟩ := RequestSM.step_params hfirst
      rw [hf₁, hnodes₁]
      exact ⟨countable_of_start hn hstart hreq hfirst, rfl, rfl⟩)
    (by
      intro events out s e s' out' ⟨hs, hf₁, hnodes₁⟩ hkeeps h
      obtain ⟨hf₂, hnodes₂, -⟩ := RequestSM.step_params h
      rw [hf₂, hnodes₂]
      exact ⟨hs.step (by rw [hf₁, hnodes₁]; exact hthree) hkeeps h, hf₁, hnodes₁⟩)
    (hkeeps.tail hfirst) hrest
  obtain ⟨hs, hf₁, hnodes₁⟩ := hinv
  intro h
  have hreact : sm.react env.checked e.2 e.1 ≠ .error (.panic .overflow) :=
    hs.react_ne_overflow (by rw [hf₁, hnodes₁]; exact hthree)
  rcases hr : sm.react env.checked e.2 e.1 with fault | r
  · rw [hr] at hreact
    simp only [RequestSM.step, RequestSM.handleEvent, hr, except_error_bind] at h
    exact hreact (by rw [Except.error.inj h])
  · simp [RequestSM.step, RequestSM.handleEvent, hr] at h

theorem step_ne_overflow_two :
    ∃ sm sent, sampleRequest.run sampleEnv [(.customConsensusRequest "" "1", sampleHost),
        (.timeout "1" "n1", sampleHost), (.reply "" "n2" "1", sampleHost)] = .ok (sm, sent) ∧
      ∀ e, sm.step sampleEnv.checked e ≠ .error (.panic .overflow) := by
  refine ⟨_, _, rfl, ?_⟩
  have hkeeps : EveryStep (RequestSM.step sampleEnv) (KeepsCounting sampleEnv) sampleRequest
      [(.customConsensusRequest "" "1", sampleHost), (.timeout "1" "n1", sampleHost),
        (.reply "" "n2" "1", sampleHost)] := by
    refine .cons trivial fun sm₁ _ h₁ => ?_
    cases h₁
    refine .cons ?_ fun sm₂ _ h₂ => ?_
    · intro node hnode
      cases hnode
    cases h₂
    refine .cons ?_ fun _ _ _ => everyStep_nil
    intro node _ _ _
    decide
  exact step_ne_overflow (by decide) (by decide) rfl (.consensus "" "1") hkeeps rfl

/-- Two timeouts and three unparsable answers of the same nodes, then an answer: the sum is below
zero. -/
theorem step_overflow_denied : ∃ sm sent,
    sampleRequest.run sampleEnv
      [(.customConsensusRequest "" "1", sampleHost), (.timeout "1" "n1", sampleHost),
      (.timeout "1" "n2", sampleHost), (.reply "" "n1" "1", sampleHost),
        (.reply "" "n2" "1", sampleHost),
      (.reply "" "n3" "1", sampleHost)] = .ok (sm, sent) ∧
    sm.step sampleEnv.checked (.reply (sampleText 1) "n4" "1", sampleHost) = .error
      (.panic .overflow) := by
  apply RequestSM.exists_step_of_fault
  · decide
  · decide

end SimpleAsset.Indy
