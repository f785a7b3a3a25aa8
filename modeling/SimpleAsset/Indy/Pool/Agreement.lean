import SimpleAsset.Indy.Pool.Votes

/-! Safety of the answers to ledger requests: a result accepted by counting has more supporters than
there are faulty nodes. -/
namespace SimpleAsset.Indy
open SimpleAsset.Library

/-- The node sent this message as an answer. -/
def Sent (history : List RequestEvent) (node msg : String) : Prop :=
  ∃ reqId, .reply msg node reqId ∈ history ∨ .reqNACK msg node reqId ∈ history ∨
    .reject msg node reqId ∈ history

/-- The node an event adds to the supporters of a result. -/
def RequestEvent.supporter (env : Env) (v : Json) (re : RequestEvent) : Option String :=
  match re.ballot env with
  | some (.result node _ v') => if v' = v then some node else none
  | _ => none

/-- Nodes that sent an answer with this result. -/
def supporters (env : Env) (history : List RequestEvent) (v : Json) : Finset String :=
  (history.filterMap (RequestEvent.supporter env v)).toFinset

variable {env : Env} {host : Host} {history : List RequestEvent} {re : RequestEvent} {v : Json}
  {node msg : String}

theorem ballot_eq_result_iff : re.ballot env = some (.result node msg v) ↔
    normalResult env msg = some v ∧ ∃ reqId, re = .reply msg node reqId ∨
      re = .reqNACK msg node reqId ∨
      re = .reject msg node reqId := by
  have hanswer : ∀ msg' node', answerBallot env msg' node' = .result node msg v ↔
      normalResult env msg = some v ∧ msg' = msg ∧ node' = node := by
    intro msg' node'
    constructor
    · intro h
      obtain ⟨rfl, rfl, hv⟩ := normalResult_of_answerBallot h
      exact ⟨hv, rfl, rfl⟩
    · intro ⟨hv, hmsg, hnode⟩
      subst hmsg hnode
      rw [answerBallot, hv]
  cases re <;> simp [RequestEvent.ballot, hanswer]

theorem supporter_eq_some_iff : re.supporter env v = some node ↔
    ∃ msg, re.ballot env = some (.result node msg v) := by
  unfold RequestEvent.supporter
  split
  · rename_i node' msg' v' hb
    rw [hb]
    split
    · rename_i hv
      simp [hv]
    · rename_i hv
      simp [hv]
  · rename_i hb
    simp only [reduceCtorEq, false_iff, not_exists]
    intro msg h
    exact hb _ _ _ h

theorem mem_supporters : node ∈ supporters env history v ↔
    ∃ msg, Sent history node msg ∧ normalResult env msg = some v := by
  unfold supporters Sent
  simp only [List.mem_toFinset, List.mem_filterMap, supporter_eq_some_iff, ballot_eq_result_iff]
  constructor
  · intro ⟨re, hre, msg, hv, reqId, h⟩
    refine ⟨msg, ⟨reqId, ?_⟩, hv⟩
    rcases h with rfl | rfl | rfl
    · exact .inl hre
    · exact .inr (.inl hre)
    · exact .inr (.inr hre)
  · intro ⟨msg, ⟨reqId, h⟩, hv⟩
    rcases h with h | h | h
    · exact ⟨_, h, msg, hv, reqId, .inl rfl⟩
    · exact ⟨_, h, msg, hv, reqId, .inr (.inl rfl)⟩
    · exact ⟨_, h, msg, hv, reqId, .inr (.inr rfl)⟩

theorem Sent.append (h : Sent history node msg) (re : RequestEvent) :
    Sent (history ++ [re]) node msg := by
  obtain ⟨reqId, h⟩ := h
  refine ⟨reqId, ?_⟩
  simp only [List.mem_append]
  exact h.imp .inl (.imp .inl .inl)

theorem sent_of_ballot (hb : re.ballot env = some (.result node msg v)) :
    Sent (history ++ [re]) node msg := by
  obtain ⟨-, reqId, h⟩ := ballot_eq_result_iff.mp hb
  refine ⟨reqId, ?_⟩
  rcases h with rfl | rfl | rfl <;> simp

theorem supporters_subset_append (re : RequestEvent) :
    supporters env history v ⊆ supporters env (history ++ [re]) v := by
  intro node h
  obtain ⟨msg, hsent, hv⟩ := mem_supporters.mp h
  exact mem_supporters.mpr ⟨msg, hsent.append re, hv⟩

/-- Every vote of a `Consensus` request was sent. -/
def ConsensusState.VotesSent (env : Env) (history : List RequestEvent)
    (s : ConsensusState) : Prop :=
  ∀ v, s.replies.voters v ⊆ supporters env history v

/-- Every response a `Single` request keeps was sent, with the result it is kept under. -/
def SingleState.VotesSent (env : Env) (history : List RequestEvent) (s : SingleState) : Prop :=
  ∀ v node resp, (s.replies.ballots v).lookup node = some resp →
    Sent history node resp.rawMsg ∧ normalResult env resp.rawMsg = some v

theorem ConsensusState.VotesSent.append {s : ConsensusState} (h : s.VotesSent env history)
    (re : RequestEvent) :
    s.VotesSent env (history ++ [re]) :=
  fun v => (h v).trans (supporters_subset_append re)

theorem SingleState.VotesSent.append {s : SingleState} (h : s.VotesSent env history)
    (re : RequestEvent) :
    s.VotesSent env (history ++ [re]) := by
  intro v node resp hresp
  obtain ⟨hsent, hv⟩ := h v node resp hresp
  exact ⟨hsent.append re, hv⟩

theorem ConsensusState.VotesSent.record {s : ConsensusState} (h : s.VotesSent env history)
    {b : Ballot} (hb : re.ballot env = some b) : (s.record b).VotesSent env (history ++ [re]) := by
  intro v node hnode
  cases b with
  | denial n => exact h.append re v hnode
  | timeout n => exact h.append re v hnode
  | result n msg v' =>
    by_cases hv : v = v'
    · subst hv
      rw [ConsensusState.record, Tally.voters_vote_self, Finset.mem_insert] at hnode
      rcases hnode with rfl | hnode
      · exact mem_supporters.mpr ⟨msg, sent_of_ballot hb, (ballot_eq_result_iff.mp hb).1⟩
      · exact h.append re v hnode
    · rw [ConsensusState.record, Tally.voters_vote_ne hv] at hnode
      exact h.append re v hnode

theorem SingleState.VotesSent.record {s : SingleState} (h : s.VotesSent env history) {b : Ballot}
    (hb : re.ballot env = some b) : (s.record env b).VotesSent env (history ++ [re]) := by
  intro v node resp hresp
  cases b with
  | denial n => exact h.append re v node resp hresp
  | timeout n => exact h.append re v node resp hresp
  | result n msg v' =>
    rcases Tally.lookup_ballots_vote hresp with hold | ⟨rfl, rfl, rfl⟩
    · exact h.append re v node resp hold
    · exact ⟨sent_of_ballot hb, (ballot_eq_result_iff.mp hb).1⟩

theorem SingleState.VotesSent.voters_subset {s : SingleState} (h : s.VotesSent env history)
    (v : Json) :
    s.replies.voters v ⊆ supporters env history v := by
  intro node hnode
  obtain ⟨resp, hresp⟩ :=
    Option.isSome_iff_exists.mp (AList.lookup_isSome.mpr (Tally.mem_voters.mp hnode))
  obtain ⟨hsent, hv⟩ := h v node resp hresp
  exact mem_supporters.mpr ⟨resp.rawMsg, hsent, hv⟩

/-- The message that is handed on is one of the responses counted. -/
theorem exists_lookup_soonestMsg (host : Host) (msg : String)
    {responses : Table String NodeResponse} (h : 0 < responses.entries.length) :
    ∃ node resp, responses.lookup node = some resp ∧
      soonestMsg host responses msg = resp.rawMsg := by
  have hne : host.responses.order responses.entries ≠ [] := by
    intro hnil
    have hlen := (host.responses.perm responses.entries).length_eq
    rw [hnil, List.length_nil] at hlen
    omega
  obtain ⟨e, he, hmem, -⟩ := maxByKey_spec
    (fun e : (_ : String) × NodeResponse => e.2.timestamp) hne
  refine ⟨e.1, e.2, AList.mem_lookup_iff.mpr (Shuffle.mem_order.mp hmem), ?_⟩
  rw [soonestMsg, he]

/-- The message has a result that more than `f` nodes sent, this message among the answers; so
whichever `f` nodes are faulty, a correct node sent the result. -/
structure Supported (env : Env) (f : ℕ) (history : List RequestEvent) (msg : String)
    (v : Json) : Prop where
  result : normalResult env msg = some v
  quorum : f + 1 ≤ (supporters env history v).card
  received : ∃ node ∈ supporters env history v, Sent history node msg
  correct : ∀ faulty : Finset String, faulty.card ≤ f →
    ∃ node ∈ supporters env history v, node ∉ faulty

theorem supported_of_voters {f : ℕ} {voters : Finset String} (hcard : f < voters.card)
    (hsub : voters ⊆ supporters env history v) (hv : normalResult env msg = some v)
    (hsent : Sent history node msg) : Supported env f history msg v := by
  have hquorum := Finset.card_le_card hsub
  refine ⟨hv, by omega, ⟨node, mem_supporters.mpr ⟨msg, hsent, hv⟩, hsent⟩, ?_⟩
  intro faulty hfaulty
  exact Finset.exists_mem_notMem_of_card_lt_card (by omega)

/-- `CustomConsensusRequest` and `CustomSingleRequest`. -/
inductive LedgerRequest : RequestEvent → Prop
  | consensus (msg reqId : String) : LedgerRequest (.customConsensusRequest msg reqId)
  | single (msg reqId : String) (spKey : Option Bytes) (timestamps : Option ℕ × Option ℕ) :
      LedgerRequest (.customSingleRequest msg reqId spKey timestamps)

/-- State of a ledger request whose votes were all sent. -/
inductive VotesSent (env : Env) (req : RequestEvent) (history : List RequestEvent) :
    RequestState → Prop
  | consensus {s : ConsensusState} (h : s.VotesSent env history) : VotesSent env req history
      (.consensus s)
  | single {s : SingleState} (h : s.VotesSent env history)
      (hreq : ∃ msg reqId, req = .customSingleRequest msg reqId s.spKey s.timestamps) :
      VotesSent env req history (.single s)
  | finish : VotesSent env req history .finish

/-- Where an accepted message comes from. -/
def Accepted (env : Env) (host : Host) (sm : RequestSM) (req : RequestEvent)
    (history : List RequestEvent) (msg : String) : Prop :=
  (∃ v, Supported env sm.f history msg v) ∨ ∃ reqMsg reqId spKey timestamps,
    req = .customSingleRequest reqMsg reqId spKey timestamps ∧
    PassesStateProof env host sm.f sm.nodes spKey timestamps msg

variable {req : RequestEvent} {sm sm' : RequestSM} {effects : List Effect}

theorem ConsensusStep.accepted {s : ConsensusState} {st : RequestState}
    {answer : Option (Except IndyError String)}
    (hs : s.VotesSent env history) (h : ConsensusStep env sm s re st answer) :
    VotesSent env req (history ++ [re]) st ∧
      ∀ m, answer = some (.ok m) → Accepted env host sm req (history ++ [re]) m := by
  cases h with
  | agree hb hcount =>
    rename_i node m v
    refine ⟨.finish, ?_⟩
    intro m' hm'
    cases hm'
    rw [Tally.count_eq_card] at hcount
    exact .inl ⟨v, supported_of_voters hcount (hs.record hb v) (ballot_eq_result_iff.mp hb).1
      (sent_of_ballot hb)⟩
  | wait hb => exact ⟨.consensus (hs.record hb), by simp⟩
  | fail => exact ⟨.finish, by simp⟩
  | terminate => exact ⟨.finish, by simp⟩
  | idle => exact ⟨.consensus (hs.append re), by simp⟩

theorem SingleStep.accepted {s : SingleState} {st : RequestState}
    {answer : Option (Except IndyError String)} (hs : s.VotesSent env history)
    (hreq : ∃ reqMsg reqId, req = .customSingleRequest reqMsg reqId s.spKey s.timestamps)
    (h : SingleStep env host sm s re st answer) :
    VotesSent env req (history ++ [re]) st ∧
      ∀ m, answer = some (.ok m) → Accepted env host sm req (history ++ [re]) m := by
  cases h with
  | agree hb hcount =>
    rename_i node m v
    refine ⟨.finish, ?_⟩
    intro m' hm'
    cases hm'
    obtain ⟨node', resp, hresp, hmsg⟩ := exists_lookup_soonestMsg host m (Nat.zero_lt_of_lt hcount)
    obtain ⟨hsent, hv⟩ := hs.record hb v node' resp hresp
    rw [Tally.count_eq_card] at hcount
    rw [hmsg]
    exact .inl ⟨v, supported_of_voters hcount ((hs.record hb).voters_subset v) hv hsent⟩
  | proof hb hproof =>
    refine ⟨.finish, ?_⟩
    intro m' hm'
    cases hm'
    obtain ⟨reqMsg, reqId, hreq⟩ := hreq
    exact .inr ⟨reqMsg, reqId, _, _, hreq, hproof⟩
  | wait hb => exact ⟨.single (hs.record hb) (by simpa using hreq), by simp⟩
  | fail => exact ⟨.finish, by simp⟩
  | terminate => exact ⟨.finish, by simp⟩
  | idle => exact ⟨.single (hs.append re) hreq, by simp⟩

/-- One step of a ledger request keeps its votes sent, and accepts only what they support. -/
theorem VotesSent.step (hs : VotesSent env req history sm.state)
    (h : sm.step env (re, host) = .ok (sm', effects)) :
    VotesSent env req (history ++ [re]) sm'.state ∧
      ∀ cmdId m, .submitAck cmdId (.ok m) ∈ effects →
        Accepted env host sm req (history ++ [re]) m := by
  obtain ⟨r, hr, rfl, rfl⟩ := RequestSM.step_inv h
  have hstep : ∃ answer, submitAcks r.effects = ackAll sm.cmdIds answer ∧
      VotesSent env req (history ++ [re]) r.state ∧
      ∀ m, answer = some (.ok m) → Accepted env host sm req (history ++ [re]) m := by
    unfold RequestSM.react at hr
    generalize sm.state = st at hs hr
    cases hs with
    | consensus hs =>
      obtain ⟨answer, hstep, hacks, -⟩ := handleConsensus_inv hr
      exact ⟨answer, hacks, hstep.accepted hs⟩
    | single hs hreq =>
      obtain ⟨answer, hstep, hacks, -⟩ := handleSingle_inv hr
      exact ⟨answer, hacks, hstep.accepted hs hreq⟩
    | finish =>
      cases hr
      exact ⟨none, rfl, .finish, by simp⟩
  obtain ⟨answer, hacks, hsent, hacc⟩ := hstep
  refine ⟨hsent, ?_⟩
  intro cmdId m hm
  rw [← mem_submitAcks, hacks] at hm
  exact hacc m (eq_some_of_mem_ackAll hm)

theorem votesSent_of_start (hstart : sm.state = .start) (hreq : LedgerRequest req)
    (h : sm.step env (req, host) = .ok (sm', effects)) : VotesSent env req [] sm'.state := by
  obtain ⟨r, hr, rfl, rfl⟩ := RequestSM.step_inv h
  unfold RequestSM.react at hr
  rw [hstart] at hr
  cases hreq with
  | consensus msg reqId =>
    cases hr
    apply VotesSent.consensus
    intro v node hnode
    simp [Tally.voters, Tally.ballots] at hnode
  | single msg reqId spKey timestamps =>
    obtain ⟨resends, -, hr⟩ := except_bind_eq_ok.mp hr
    cases hr
    refine .single ?_ ⟨msg, reqId, rfl⟩
    intro v node resp hresp
    simp [Tally.ballots] at hresp

/-- Whatever the nodes send and in whatever order: a message goes to the caller only with a result
that more than `f` nodes sent during the run, or, on a single request, with a state proof. -/
theorem okReply_supported {sm₀ : RequestSM} {host₀ : Host} {before : List (RequestEvent × Host)}
    {sent : List Effect} {cmdId : CommandHandle} (hstart : sm₀.state = .start)
    (hreq : LedgerRequest req) (hrun : sm₀.run env ((req, host₀) :: before) = .ok (sm, sent))
    (hstep : sm.step env (re, host) = .ok (sm', effects))
    (hok : .submitAck cmdId (.ok msg) ∈ effects) :
    Accepted env host sm₀ req (before.map Prod.fst ++ [re]) msg := by
  obtain ⟨sm₁, sent₁, sent₂, hfirst, hrest, -⟩ := runSteps_cons_iff.mp hrun
  obtain ⟨hf, hnodes, -⟩ := RequestSM.step_params hfirst
  have hinv := runSteps_invariant (C := fun _ _ => True)
    (P := fun events _ (sm : RequestSM) => VotesSent env req (events.map Prod.fst) sm.state ∧
      sm.f = sm₀.f ∧ sm.nodes = sm₀.nodes)
    ⟨votesSent_of_start hstart hreq hfirst, hf, hnodes⟩
    (by
      intro events out s e s' out' ⟨hs, hf, hnodes⟩ _ h
      obtain ⟨hf', hnodes', -⟩ := RequestSM.step_params h
      rw [List.map_append]
      exact ⟨(hs.step h).1, hf'.trans hf, hnodes'.trans hnodes⟩)
    (fun _ _ _ _ _ _ => trivial) hrest
  obtain ⟨hs, hf, hnodes⟩ := hinv
  have hacc := (hs.step hstep).2 cmdId msg hok
  unfold Accepted at hacc ⊢
  rwa [← hf, ← hnodes]

theorem okReply_supported_two :
    ∃ sm sent sm' effects,
      sampleRequest.run sampleEnv [(.customConsensusRequest "" "1", sampleHost),
        (.reply (sampleText 1) "n1" "1", sampleHost)] = .ok (sm, sent) ∧
      sm.step sampleEnv (.reply (sampleText 1) "n2" "1", sampleHost) = .ok (sm', effects) ∧
      Accepted sampleEnv sampleHost sampleRequest (.customConsensusRequest "" "1")
        [.reply (sampleText 1) "n1" "1", .reply (sampleText 1) "n2" "1"] (sampleText 1) := by
  have hbefore : sampleRequest.answers sampleEnv [(.customConsensusRequest "" "1", sampleHost),
      (.reply (sampleText 1) "n1" "1", sampleHost)] = some [] := by decide
  have hafter : sampleRequest.answers sampleEnv ([(.customConsensusRequest "" "1", sampleHost),
      (.reply (sampleText 1) "n1" "1", sampleHost)] ++
        [(.reply (sampleText 1) "n2" "1", sampleHost)]) =
      some [(7, .ok (sampleText 1))] := by decide
  obtain ⟨sm, sent, sm', effects, hrun, hstep, hacks⟩ :=
    RequestSM.exists_step_of_answers hbefore hafter
  have hok : .submitAck 7 (.ok (sampleText 1)) ∈ effects := by
    rw [← mem_submitAcks, hacks]
    simp
  exact ⟨sm, sent, sm', effects, hrun, hstep,
    okReply_supported rfl (.consensus "" "1") hrun hstep hok⟩

end SimpleAsset.Indy
