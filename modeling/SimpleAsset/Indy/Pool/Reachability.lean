import SimpleAsset.Library.Poll
import SimpleAsset.Indy.Pool.Agreement

/-! When a ledger request may give up: only once no result can find enough supporters any more. -/
namespace SimpleAsset.Indy
open SimpleAsset.Library

def Ballot.node : Ballot → String
  | result node _ _ => node
  | denial node => node
  | timeout node => node

/-- Nodes of the final events (`Reply`, `ReqNACK`, `Reject`, `Timeout`), one entry for each
event. -/
def finalNodes (env : Env) (history : List RequestEvent) : List String :=
  history.filterMap fun re => (re.ballot env).map Ballot.node

/-- Nodes that answered or timed out. -/
def heardNodes (env : Env) (history : List RequestEvent) : Finset String :=
  (finalNodes env history).toFinset

/-- Nodes of the pool that have neither answered nor timed out. -/
def unheard (env : Env) (nodes : Nodes) (history : List RequestEvent) : Finset String :=
  nodes.keys.toFinset \ heardNodes env history

/-- Whatever the nodes not yet heard from would reply, no result gets `f + 1` supporters. -/
def Hopeless (env : Env) (f : ℕ) (nodes : Nodes) (history : List RequestEvent) : Prop :=
  ∀ (reply : String → Json) (v : Json),
    (supporters env history v ∪ (unheard env nodes history).filter fun node =>
      reply node = v).card ≤ f

/-- Only pool nodes are heard, each once so far. -/
structure OnceSoFar (env : Env) (nodes : Nodes) (history : List RequestEvent) : Prop where
  nodup : (finalNodes env history).Nodup
  members : ∀ node ∈ finalNodes env history, node ∈ nodes

/-- A ballot in a poll; `response` is what is kept of an answer. -/
def recordBallot {β : Type} (response : String → β) (p : Poll Json String β) :
    Ballot → Poll Json String β
  | .result node msg v => p.vote v node (response msg)
  | .denial node => p.decline node
  | .timeout node => p.fallSilent node

/-- The ballot does not count its node a second time. -/
def FirstCount {β : Type} (p : Poll Json String β) : Ballot → Prop
  | .result node _ v => node ∉ p.declined ∧ ∀ v', v' ≠ v → node ∉ p.tally.voters v'
  | .denial node => node ∉ p.tally.allVoters
  | .timeout node => node ∉ p.tally.allVoters ∧ node ∉ p.declined

/-- The poll is what the history says, and no result has enough votes yet. -/
structure Tracks {β : Type} (env : Env) (nodes : Nodes) (f : ℕ) (history : List RequestEvent)
    (p : Poll Json String β) : Prop where
  once : p.CountsOnce (heardNodes env history)
  members : heardNodes env history ⊆ nodes.keys.toFinset
  voters_eq : ∀ v, p.tally.voters v = supporters env history v
  undecided : ∀ v, p.tally.count v ≤ f

section Poll
variable {β : Type} {env : Env} {nodes : Nodes} {f : ℕ} {history : List RequestEvent}
    {re : RequestEvent}
  {p : Poll Json String β} {response : String → β} {b : Ballot}

theorem mem_heardNodes {node : String} : node ∈ heardNodes env history ↔
    node ∈ finalNodes env history := by
  rw [heardNodes, List.mem_toFinset, finalNodes]

@[simp] theorem heardNodes_nil : heardNodes env [] = ∅ := rfl

theorem finalNodes_append (hb : re.ballot env = some b) :
    finalNodes env (history ++ [re]) = finalNodes env history ++ [b.node] := by
  simp [finalNodes, hb]

theorem heardNodes_append (hb : re.ballot env = some b) :
    heardNodes env (history ++ [re]) = insert b.node (heardNodes env history) := by
  ext node
  simp [heardNodes, finalNodes, hb, eq_comm]

theorem heardNodes_append_idle (hb : re.ballot env = none) :
    heardNodes env (history ++ [re]) = heardNodes env history := by
  simp [heardNodes, finalNodes, hb]

theorem OnceSoFar.of_append {later : List RequestEvent}
    (h : OnceSoFar env nodes (history ++ later)) :
    OnceSoFar env nodes history := by
  have hsplit : finalNodes env (history ++ later) = finalNodes env history ++
      finalNodes env later :=
    List.filterMap_append
  obtain ⟨hnodup, hmem⟩ := h
  rw [hsplit] at hnodup hmem
  refine ⟨hnodup.of_append_left, ?_⟩
  intro node hnode
  exact hmem node (List.mem_append_left _ hnode)

/-- A node that delivers a final event is a pool node not heard before. -/
theorem OnceSoFar.fresh (h : OnceSoFar env nodes (history ++ [re])) (hb : re.ballot env = some b) :
    b.node ∈ nodes ∧ b.node ∉ heardNodes env history := by
  obtain ⟨hnodup, hmem⟩ := h
  rw [finalNodes_append hb] at hnodup hmem
  refine ⟨hmem b.node (by simp), ?_⟩
  rw [mem_heardNodes]
  have hdisj := List.disjoint_of_nodup_append hnodup
  exact fun hheard => hdisj hheard (List.mem_singleton_self _)

theorem supporters_append_result {node msg : String} {v : Json}
    (hb : re.ballot env = some (.result node msg v))
    (v' : Json) : supporters env (history ++ [re]) v' =
      if v' = v then insert node (supporters env history v') else supporters env history v' := by
  ext node'
  have hsupp : re.supporter env v' = if v = v' then some node else none := by
    rw [RequestEvent.supporter, hb]
  by_cases hv : v' = v
  · subst hv
    simp [supporters, hsupp, eq_comm]
  · simp [supporters, hsupp, hv, Ne.symm hv]

theorem supporters_append_other (hb : ∀ node msg v, re.ballot env ≠ some (.result node msg v))
    (v : Json) :
    supporters env (history ++ [re]) v = supporters env history v := by
  have hsupp : re.supporter env v = none := by
    rw [Option.eq_none_iff_forall_ne_some]
    intro node h
    obtain ⟨msg, hmsg⟩ := supporter_eq_some_iff.mp h
    exact hb node msg v hmsg
  simp [supporters, hsupp]

theorem tracks_empty : Tracks env nodes f [] (⟨∅, ∅, ∅⟩ : Poll Json String β) := by
  refine ⟨Poll.countsOnce_empty, by simp, ?_, ?_⟩
  · intro v
    simp [Tally.voters, Tally.ballots, supporters]
  · intro v
    simp [Tally.count, Tally.ballots]

theorem Tracks.idle (h : Tracks env nodes f history p) (hb : re.ballot env = none) :
    Tracks env nodes f (history ++ [re]) p := by
  refine ⟨?_, ?_, ?_, h.undecided⟩
  · rw [heardNodes_append_idle hb]
    exact h.once
  · rw [heardNodes_append_idle hb]
    exact h.members
  · intro v
    rw [supporters_append_other (by simp [hb])]
    exact h.voters_eq v

theorem countsOnce_recordBallot {heard : Finset String} (h : p.CountsOnce heard)
    (hfirst : FirstCount p b) :
    (recordBallot response p b).CountsOnce (insert b.node heard) := by
  cases b with
  | result node msg v => exact h.vote hfirst.1 hfirst.2
  | denial node => exact h.decline hfirst
  | timeout node => exact h.fallSilent hfirst.1 hfirst.2

/-- A ballot of a pool node that is counted for the first time keeps the poll in step. -/
theorem Tracks.record (h : Tracks env nodes f history p) (hb : re.ballot env = some b)
    (hnode : b.node ∈ nodes) (hfirst : FirstCount p b)
    (hcount : b.Undecided f fun v => (recordBallot response p b).tally.count v) :
    Tracks env nodes f (history ++ [re]) (recordBallot response p b) := by
  refine ⟨?_, ?_, ?_, ?_⟩
  · rw [heardNodes_append hb]
    exact countsOnce_recordBallot h.once hfirst
  · rw [heardNodes_append hb, Finset.insert_subset_iff, List.mem_toFinset]
    exact ⟨AList.mem_keys.mp hnode, h.members⟩
  · intro v
    cases b with
    | result node msg v' =>
      rw [supporters_append_result hb, ← h.voters_eq v]
      split
      · rename_i hv
        subst hv
        exact Tally.voters_vote_self v node (response msg) p.tally
      · rename_i hv
        exact Tally.voters_vote_ne hv node (response msg) p.tally
    | denial node =>
      rw [supporters_append_other (by simp [hb])]
      exact h.voters_eq v
    | timeout node =>
      rw [supporters_append_other (by simp [hb])]
      exact h.voters_eq v
  · intro v
    cases b with
    | result node msg v' =>
      by_cases hv : v = v'
      · rw [hv]
        exact hcount
      · have hsame : (recordBallot response p (.result node msg v')).tally.voters v =
            p.tally.voters v :=
          Tally.voters_vote_ne hv node (response msg) p.tally
        rw [Tally.count_eq_card, hsame, ← Tally.count_eq_card]
        exact h.undecided v
    | denial node => exact h.undecided v
    | timeout node => exact h.undecided v

theorem Tracks.card_unheard (h : Tracks env nodes f history p) :
    (unheard env nodes history).card + p.tally.total + p.declined.card +
    p.silent.card = nodes.len := by
  have hcard := Finset.card_sdiff_add_card_eq_card h.members
  rw [List.toFinset_card_of_nodup nodes.keys_nodup, ← h.once.card_heard] at hcard
  unfold unheard Nodes.len
  omega

/-- Counting all unheard nodes for the best result decides whether there is hope. -/
theorem Tracks.hopeless (h : Tracks env nodes f history p)
    (hcount : ∀ v, p.tally.count v + (unheard env nodes history).card ≤ f) :
    Hopeless env f nodes history := by
  intro reply v
  have hv := hcount v
  rw [Tally.count_eq_card, h.voters_eq v] at hv
  calc _ ≤ (supporters env history v).card +
    ((unheard env nodes history).filter fun node => reply node = v).card :=
        Finset.card_union_le _ _
    _ ≤ (supporters env history v).card + (unheard env nodes history).card :=
        Nat.add_le_add_left (Finset.card_filter_le _ _) _
    _ ≤ f := hv

end Poll

def ConsensusState.poll (s : ConsensusState) : Poll Json String Unit :=
  ⟨s.replies, s.deniedNodes, s.timeoutNodes⟩

def SingleState.poll (s : SingleState) : Poll Json String NodeResponse :=
  ⟨s.replies, s.deniedNodes, s.timeoutNodes⟩

/-- In state `Consensus` an answer does not take its node off the list of timeouts. -/
def ConsensusState.FirstCount (s : ConsensusState) (b : Ballot) : Prop :=
  Indy.FirstCount s.poll b ∧ ((∃ node, b = .timeout node) ∨ b.node ∉ s.timeoutNodes)

/-- The event is of a pool node, and its ballot is the first one of that node that is counted. -/
def CountsOnce (env : Env) (sm : RequestSM) (re : RequestEvent) : Prop :=
  ∀ b, re.ballot env = some b → b.node ∈ sm.nodes ∧
    match sm.state with
    | .consensus s => s.FirstCount b
    | .single s => FirstCount s.poll b
    | _ => True

/-- A node not heard before is counted nowhere. -/
theorem Tracks.firstCount_of_fresh {β : Type} {env : Env} {nodes : Nodes} {f : ℕ}
    {history : List RequestEvent}
    {p : Poll Json String β} {b : Ballot} (h : Tracks env nodes f history p)
    (hb : b.node ∉ heardNodes env history) : FirstCount p b ∧ b.node ∉ p.silent := by
  rw [← h.once.cover, Finset.mem_union, Finset.mem_union, not_or, not_or] at hb
  obtain ⟨⟨hvoters, hdeclined⟩, hsilent⟩ := hb
  refine ⟨?_, hsilent⟩
  cases b with
  | result node msg v =>
    exact ⟨hdeclined, fun v' _ hnode => hvoters (Tally.mem_allVoters.mpr ⟨v', hnode⟩)⟩
  | denial node => exact hvoters
  | timeout node => exact ⟨hvoters, hdeclined⟩

theorem ConsensusState.poll_record {s : ConsensusState} {b : Ballot} (h : s.FirstCount b) :
    (s.record b).poll = recordBallot (fun _ => ()) s.poll b := by
  obtain ⟨-, h⟩ := h
  cases b with
  | timeout node => rfl
  | result node msg v =>
    have hnode : node ∉ s.timeoutNodes := by simpa [Ballot.node] using h
    simp [poll, record, recordBallot, Poll.vote, Finset.erase_eq_of_notMem hnode]
  | denial node =>
    have hnode : node ∉ s.timeoutNodes := by simpa [Ballot.node] using h
    simp [poll, record, recordBallot, Poll.decline, Finset.erase_eq_of_notMem hnode]

theorem SingleState.poll_record (env : Env) (s : SingleState) (b : Ballot) :
    (s.record env b).poll =
      recordBallot (fun msg => ⟨msg, (getLastSignedTime env msg).getD 0⟩) s.poll b := by
  cases b <;> rfl

/-- State of a ledger request whose counts follow the history. -/
inductive Tracked (env : Env) (nodes : Nodes) (f : ℕ) (history : List RequestEvent) :
    RequestState → Prop
  | consensus {s : ConsensusState} (h : Tracks env nodes f history s.poll) :
      Tracked env nodes f history (.consensus s)
  | single {s : SingleState} (h : Tracks env nodes f history s.poll) :
      Tracked env nodes f history (.single s)
  | finish : Tracked env nodes f history .finish

variable {env : Env} {host : Host} {history : List RequestEvent} {re req : RequestEvent}
    {sm sm' : RequestSM}
  {effects : List Effect}

/-- The test of state `Consensus` is exact while everyone is counted once. -/
theorem ConsensusState.isConsensusReachable_eq {s : ConsensusState} {nodes : Nodes} {f : ℕ}
    (h : Tracks env nodes f history s.poll) : s.isConsensusReachable env f nodes.len =
      .ok (decide (f < s.replies.maxCount + (unheard env nodes history).card)) := by
  have hcard : (unheard env nodes history).card + s.replies.total + s.deniedNodes.card +
      s.timeoutNodes.card =
    nodes.len := h.card_unheard
  rw [isConsensusReachable_of_le env f (by omega)]
  congr 2
  apply propext
  omega

theorem ConsensusState.hopeless_of_not_goesOn {s : ConsensusState} {b : Ballot}
    (h : Tracks env sm.nodes sm.f history s.poll) (hgo : s.goesOn env sm b = .ok false) :
    Hopeless env sm.f sm.nodes history := by
  apply h.hopeless
  intro v
  have hundecided : s.replies.count v ≤ sm.f := h.undecided v
  have hreach : s.isConsensusReachable env sm.f sm.nodes.len = .ok false →
      s.replies.count v + (unheard env sm.nodes history).card ≤ sm.f := by
    intro hno
    rw [isConsensusReachable_eq h, Except.ok.injEq, decide_eq_false_iff_not] at hno
    have := s.replies.count_le_maxCount v
    omega
  cases b with
  | result node msg v' => exact hreach hgo
  | timeout node => exact hreach hgo
  | denial node =>
    have hall : s.deniedNodes.card + s.replies.keys.length = sm.nodes.len := by
      simpa [goesOn] using hgo
    have hcard : (unheard env sm.nodes history).card + s.replies.total + s.deniedNodes.card +
      s.timeoutNodes.card = sm.nodes.len := h.card_unheard
    have hrows : s.replies.keys.length ≤ s.replies.total := h.once.rows
    change s.replies.count v + _ ≤ _
    omega

theorem SingleState.hopeless_of_not_reachable {s : SingleState}
    (h : Tracks env sm.nodes sm.f history s.poll)
    (hgo : s.isConsensusReachable sm.nodes.len = false) : Hopeless env sm.f sm.nodes history := by
  apply h.hopeless
  intro v
  have hundecided : s.replies.count v ≤ sm.f := h.undecided v
  have hcard : (unheard env sm.nodes history).card + s.replies.total + s.deniedNodes.card +
    s.timeoutNodes.card = sm.nodes.len := h.card_unheard
  rw [isConsensusReachable, decide_eq_false_iff_not] at hgo
  change s.replies.count v + _ ≤ _
  omega

theorem ConsensusState.tracks_record {s : ConsensusState} {nodes : Nodes} {f : ℕ} {b : Ballot}
    (h : Tracks env nodes f history s.poll) (hb : re.ballot env = some b) (hnode : b.node ∈ nodes)
    (hfirst : s.FirstCount b) (hcount : b.Undecided f fun v => (s.record b).replies.count v) :
    Tracks env nodes f (history ++ [re]) (s.record b).poll := by
  have hcount' : b.Undecided f fun v => (s.record b).poll.tally.count v := hcount
  rw [ConsensusState.poll_record hfirst] at hcount' ⊢
  exact h.record hb hnode hfirst.1 hcount'

theorem SingleState.tracks_record {s : SingleState} {nodes : Nodes} {f : ℕ} {b : Ballot}
    (h : Tracks env nodes f history s.poll) (hb : re.ballot env = some b) (hnode : b.node ∈ nodes)
    (hfirst : FirstCount s.poll b)
    (hcount : b.Undecided f fun v => (s.record env b).replies.count v) :
    Tracks env nodes f (history ++ [re]) (s.record env b).poll := by
  have hcount' : b.Undecided f fun v => (s.record env b).poll.tally.count v := hcount
  rw [SingleState.poll_record] at hcount' ⊢
  exact h.record hb hnode hfirst hcount'

theorem ConsensusStep.tracked {s : ConsensusState} {st : RequestState}
    {answer : Option (Except IndyError String)}
    (hs : Tracks env sm.nodes sm.f history s.poll) (h : ConsensusStep env sm s re st answer)
    (honce : ∀ b, re.ballot env = some b → b.node ∈ sm.nodes ∧ s.FirstCount b) :
    Tracked env sm.nodes sm.f (history ++ [re]) st ∧
      (answer = some (.error consensusImpossible) →
        Hopeless env sm.f sm.nodes (history ++ [re])) := by
  have hrecord : ∀ b, re.ballot env = some b →
      b.Undecided sm.f (fun v => (s.record b).replies.count v) →
      Tracks env sm.nodes sm.f (history ++ [re]) (s.record b).poll := by
    intro b hb hcount
    obtain ⟨hnode, hfirst⟩ := honce b hb
    exact ConsensusState.tracks_record hs hb hnode hfirst hcount
  cases h with
  | agree => exact ⟨.finish, by simp⟩
  | wait hb hcount => exact ⟨.consensus (hrecord _ hb hcount), by simp⟩
  | fail hb hcount hgo =>
    exact ⟨.finish, fun _ => ConsensusState.hopeless_of_not_goesOn (hrecord _ hb hcount) hgo⟩
  | terminate => exact ⟨.finish, by simp [terminated, consensusImpossible]⟩
  | idle hb => exact ⟨.consensus (hs.idle hb), by simp⟩

theorem SingleStep.tracked {s : SingleState} {st : RequestState}
    {answer : Option (Except IndyError String)}
    (hs : Tracks env sm.nodes sm.f history s.poll) (h : SingleStep env host sm s re st answer)
    (honce : ∀ b, re.ballot env = some b → b.node ∈ sm.nodes ∧ FirstCount s.poll b) :
    Tracked env sm.nodes sm.f (history ++ [re]) st ∧
      (answer = some (.error consensusImpossible) →
        Hopeless env sm.f sm.nodes (history ++ [re])) := by
  have hrecord : ∀ b, re.ballot env = some b →
      b.Undecided sm.f (fun v => (s.record env b).replies.count v) →
      Tracks env sm.nodes sm.f (history ++ [re]) (s.record env b).poll := by
    intro b hb hcount
    obtain ⟨hnode, hfirst⟩ := honce b hb
    exact SingleState.tracks_record hs hb hnode hfirst hcount
  cases h with
  | agree => exact ⟨.finish, by simp⟩
  | proof => exact ⟨.finish, by simp⟩
  | wait hb hcount => exact ⟨.single (hrecord _ hb hcount), by simp⟩
  | fail hb hcount hgo =>
    exact ⟨.finish, fun _ => SingleState.hopeless_of_not_reachable (hrecord _ hb hcount) hgo⟩
  | terminate => exact ⟨.finish, by simp [terminated, consensusImpossible]⟩
  | idle hb => exact ⟨.single (hs.idle hb), by simp⟩

/-- One step that counts once keeps the counts in step, and gives up only without hope. -/
theorem Tracked.step (hs : Tracked env sm.nodes sm.f history sm.state)
    (honce : CountsOnce env sm re) (h : sm.step env (re, host) = .ok (sm', effects)) :
    Tracked env sm.nodes sm.f (history ++ [re]) sm'.state ∧
      ∀ cmdId, .submitAck cmdId (.error consensusImpossible) ∈ effects →
        Hopeless env sm.f sm.nodes (history ++ [re]) := by
  obtain ⟨r, hr, rfl, rfl⟩ := RequestSM.step_inv h
  have hstep : ∃ answer, submitAcks r.effects = ackAll sm.cmdIds answer ∧
      Tracked env sm.nodes sm.f (history ++ [re]) r.state ∧
      (answer = some (.error consensusImpossible) →
        Hopeless env sm.f sm.nodes (history ++ [re])) := by
    unfold RequestSM.react at hr
    unfold CountsOnce at honce
    generalize sm.state = st at hs hr honce
    cases hs with
    | consensus hs =>
      obtain ⟨answer, hstep, hacks, -⟩ := handleConsensus_inv hr
      exact ⟨answer, hacks, hstep.tracked hs honce⟩
    | single hs =>
      obtain ⟨answer, hstep, hacks, -⟩ := handleSingle_inv hr
      exact ⟨answer, hacks, hstep.tracked hs honce⟩
    | finish =>
      cases hr
      exact ⟨none, rfl, .finish, by simp⟩
  obtain ⟨answer, hacks, htracked, hhope⟩ := hstep
  refine ⟨htracked, ?_⟩
  intro cmdId hmem
  rw [← mem_submitAcks, hacks] at hmem
  exact hhope (eq_some_of_mem_ackAll hmem)

theorem tracked_of_start (hstart : sm.state = .start) (hreq : LedgerRequest req)
    (h : sm.step env (req, host) = .ok (sm', effects)) :
    Tracked env sm'.nodes sm'.f [] sm'.state := by
  obtain ⟨r, hr, rfl, rfl⟩ := RequestSM.step_inv h
  unfold RequestSM.react at hr
  rw [hstart] at hr
  cases hreq with
  | consensus msg reqId =>
    cases hr
    exact .consensus tracks_empty
  | single msg reqId spKey timestamps =>
    obtain ⟨resends, -, hr⟩ := except_bind_eq_ok.mp hr
    cases hr
    exact .single tracks_empty

/-- In a run that counts every node once, a ledger request gives up only when no result can get
`f + 1` supporters any more. -/
theorem hopeless_of_countsOnce {sm₀ : RequestSM} {host₀ : Host}
    {before : List (RequestEvent × Host)}
    {sent : List Effect} {cmdId : CommandHandle} (hstart : sm₀.state = .start)
    (hreq : LedgerRequest req)
    (honce : EveryStep (RequestSM.step env) (fun sm e => CountsOnce env sm e.1) sm₀
      ((req, host₀) :: before ++ [(re, host)]))
    (hrun : sm₀.run env ((req, host₀) :: before) = .ok (sm, sent))
    (hstep : sm.step env (re, host) = .ok (sm', effects))
    (hgiveUp : .submitAck cmdId (.error consensusImpossible) ∈ effects) :
    Hopeless env sm₀.f sm₀.nodes (before.map Prod.fst ++ [re]) := by
  obtain ⟨sm₁, sent₁, sent₂, hfirst, hrest, -⟩ := runSteps_cons_iff.mp hrun
  obtain ⟨hf, hnodes, -⟩ := RequestSM.step_params hfirst
  have hinv := runSteps_invariant (C := fun sm e => CountsOnce env sm e.1)
    (P := fun events _ (sm : RequestSM) =>
      Tracked env sm.nodes sm.f (events.map Prod.fst) sm.state ∧
      sm.f = sm₀.f ∧ sm.nodes = sm₀.nodes)
    ⟨tracked_of_start hstart hreq hfirst, hf, hnodes⟩
    (by
      intro events out s e s' out' ⟨hs, hf, hnodes⟩ honce h
      obtain ⟨hf', hnodes', -⟩ := RequestSM.step_params h
      rw [List.map_append, hf', hnodes']
      exact ⟨(hs.step honce h).1, hf, hnodes⟩)
    (honce.of_append.tail hfirst) hrest
  obtain ⟨hs, hf, hnodes⟩ := hinv
  rw [← hf, ← hnodes]
  exact (hs.step (honce _ _ _ _ (List.prefix_refl _) hrun) hstep).2 cmdId hgiveUp

theorem Tracked.countsOnce (hs : Tracked env sm.nodes sm.f history sm.state)
    (hnew : ∀ b, re.ballot env = some b → b.node ∈ sm.nodes ∧ b.node ∉ heardNodes env history) :
    CountsOnce env sm re := by
  intro b hb
  obtain ⟨hmember, hunheard⟩ := hnew b hb
  refine ⟨hmember, ?_⟩
  generalize sm.state = st at hs
  cases hs with
  | consensus h =>
    obtain ⟨hfirst, hsilent⟩ := h.firstCount_of_fresh hunheard
    exact ⟨hfirst, .inr hsilent⟩
  | single h => exact (h.firstCount_of_fresh hunheard).1
  | finish => trivial

/-- Nodes that are heard once are counted once. -/
theorem Tracked.everyStep {events : List (RequestEvent × Host)}
    (hs : Tracked env sm.nodes sm.f history sm.state)
    (honce : OnceSoFar env sm.nodes (history ++ events.map Prod.fst)) :
    EveryStep (RequestSM.step env) (fun sm e => CountsOnce env sm e.1) sm events := by
  induction events generalizing sm history with
  | nil => exact everyStep_nil
  | cons e events ih =>
    rw [List.map_cons, ← List.singleton_append, ← List.append_assoc] at honce
    have hcounts : CountsOnce env sm e.1 := hs.countsOnce fun b hb => honce.of_append.fresh hb
    refine .cons hcounts fun sm' out hstep => ?_
    obtain ⟨hf, hnodes, -⟩ := RequestSM.step_params hstep
    have htracked := (hs.step hcounts hstep).1
    rw [← hf, ← hnodes] at htracked
    rw [← hnodes] at honce
    exact ih htracked honce

theorem everyStep_of_start {events : List (RequestEvent × Host)} (hstart : sm.state = .start)
    (hreq : LedgerRequest req) (honce : OnceSoFar env sm.nodes (events.map Prod.fst)) :
    EveryStep (RequestSM.step env) (fun sm e => CountsOnce env sm e.1) sm
      ((req, host) :: events) := by
  refine .cons ?_ fun sm' out hstep => ?_
  · intro b hb
    cases hreq <;> cases hb
  · obtain ⟨-, hnodes, -⟩ := RequestSM.step_params hstep
    rw [← hnodes] at honce
    exact (tracked_of_start hstart hreq hstep).everyStep honce

/-- Two different results and an answer that cannot be parsed, for examples. -/
def splitReplies : List (RequestEvent × Host) :=
  [(.reply (sampleText 1) "n1" "1", sampleHost), (.reply (sampleText 2) "n2" "1", sampleHost),
    (.reply "" "n3" "1", sampleHost)]

def lastReply : RequestEvent × Host := (.reply (sampleText 3) "n4" "1", sampleHost)

/-- With a third result from the last node, no result has two supporters. -/
theorem hopeless_of_countsOnce_split : Hopeless sampleEnv 1 sampleRequest.nodes
    (splitReplies.map Prod.fst ++ [lastReply.1]) := by
  have hbefore : sampleRequest.answers sampleEnv
      ((.customConsensusRequest "" "1", sampleHost) :: splitReplies) = some [] := by decide
  have hafter : sampleRequest.answers sampleEnv
      (((.customConsensusRequest "" "1", sampleHost) :: splitReplies) ++
        [lastReply]) = some [(7, .error consensusImpossible)] := by decide
  have hstart : sampleRequest.state = .start := rfl
  have honce : OnceSoFar sampleEnv sampleRequest.nodes
      ((splitReplies ++ [lastReply]).map Prod.fst) := ⟨by decide, by decide⟩
  have hevery : EveryStep (RequestSM.step sampleEnv)
      (fun sm e => CountsOnce sampleEnv sm e.1) sampleRequest
      ((.customConsensusRequest "" "1", sampleHost) :: splitReplies ++
        [lastReply]) :=
    everyStep_of_start hstart (.consensus "" "1") honce
  obtain ⟨sm, sent, sm', effects, hrun, hstep, hacks⟩ :=
    RequestSM.exists_step_of_answers hbefore hafter
  have hgiveUp : .submitAck 7 (.error consensusImpossible) ∈ effects := by
    rw [← mem_submitAcks, hacks]
    simp
  exact hopeless_of_countsOnce hstart (.consensus "" "1") hevery hrun hstep hgiveUp

/-- A correct node sends one well-formed answer or times out once. -/
def WellBehaved (env : Env) (history : List RequestEvent) (node : String) : Prop :=
  match (history.filterMap (RequestEvent.ballot env)).filter fun b => b.node = node with
  | [] => True
  | [.result _ _ _] => True
  | [.timeout _] => True
  | _ => False

/-- Four different answers of one faulty node make the request fail, with three nodes unheard. -/
theorem not_hopeless_faulty_node : ∃ sm sent sm' effects,
    sampleRequest.run sampleEnv [(.customConsensusRequest "" "1", sampleHost),
      (.reply (sampleText 1) "n1" "1", sampleHost), (.reply (sampleText 2) "n1" "1", sampleHost),
      (.reply (sampleText 3) "n1" "1", sampleHost)] = .ok (sm, sent) ∧
    sm.step sampleEnv (.reply (sampleText 4) "n1" "1", sampleHost) = .ok (sm', effects) ∧
    .submitAck 7 (.error consensusImpossible) ∈ effects ∧
    (∀ node ∈ sampleRequest.nodes, node ≠ "n1" →
      WellBehaved sampleEnv [.reply (sampleText 1) "n1" "1",
      .reply (sampleText 2) "n1" "1", .reply (sampleText 3) "n1" "1",
        .reply (sampleText 4) "n1" "1"] node) ∧
    ¬ Hopeless sampleEnv 1 sampleRequest.nodes
      [.reply (sampleText 1) "n1" "1", .reply (sampleText 2) "n1" "1",
      .reply (sampleText 3) "n1" "1", .reply (sampleText 4) "n1" "1"] := by
  have hbefore : sampleRequest.answers sampleEnv [(.customConsensusRequest "" "1", sampleHost),
      (.reply (sampleText 1) "n1" "1", sampleHost), (.reply (sampleText 2) "n1" "1", sampleHost),
      (.reply (sampleText 3) "n1" "1", sampleHost)] = some [] := by decide
  have hafter : sampleRequest.answers sampleEnv ([(.customConsensusRequest "" "1", sampleHost),
      (.reply (sampleText 1) "n1" "1", sampleHost), (.reply (sampleText 2) "n1" "1", sampleHost),
      (.reply (sampleText 3) "n1" "1", sampleHost)] ++
        [(.reply (sampleText 4) "n1" "1", sampleHost)]) =
      some [(7, .error consensusImpossible)] := by decide
  obtain ⟨sm, sent, sm', effects, hrun, hstep, hacks⟩ :=
    RequestSM.exists_step_of_answers hbefore hafter
  refine ⟨sm, sent, sm', effects, hrun, hstep, ?_, ?_, ?_⟩
  · rw [← mem_submitAcks, hacks]
    simp
  · intro node _ hne
    have hballots : [.reply (sampleText 1) "n1" "1", .reply (sampleText 2) "n1" "1",
        .reply (sampleText 3) "n1" "1", .reply (sampleText 4) "n1" "1"].filterMap
          (RequestEvent.ballot sampleEnv) = [1, 2, 3, 4].map fun n =>
          .result "n1" (sampleText n) (.number (.posInt n)) := by decide
    rw [WellBehaved, hballots]
    simp [Ballot.node, hne.symm]
  · intro h
    have hcard := h (fun _ => .number (.posInt 1)) (.number (.posInt 1))
    revert hcard
    decide

end SimpleAsset.Indy
