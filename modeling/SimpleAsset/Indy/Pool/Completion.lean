import SimpleAsset.Indy.Pool.Answers
import SimpleAsset.Indy.Pool.Reachability

/-! When a request ends: once every node has answered or timed out, except that unparsable answers
to a consensus request are tested against the number of different results. -/
namespace SimpleAsset.Indy
open SimpleAsset.Library

/-- Every node of the pool has delivered exactly one final event. -/
def HeardOnce (env : Env) (nodes : Nodes) (history : List RequestEvent) : Prop :=
  (finalNodes env history).Perm nodes.keys

def Ballot.isDenial : Ballot → Bool
  | denial _ => true
  | _ => false

/-- Number of unparsable answers since the last result or timeout. -/
def lateDenials (env : Env) (history : List RequestEvent) : ℕ :=
  ((history.reverse.filterMap (RequestEvent.ballot env)).takeWhile Ballot.isDenial).length

/-- Some node timed out. -/
def SomeTimeout (history : List RequestEvent) : Prop := ∃ reqId node, .timeout reqId node ∈ history

/-- A consensus request that has heard everyone ends: a result has more than `f` votes, or there was
no hope left at the last result or timeout, or nobody timed out and no two nodes gave the same
result. -/
def NoticesEnd (env : Env) (f : ℕ) (history : List RequestEvent) : Prop :=
  (∃ v, f < (supporters env history v).card) ∨
  (∀ v, (supporters env history v).card + lateDenials env history ≤ f) ∨
  ¬ SomeTimeout history ∧ ∀ v, (supporters env history v).card ≤ 1

/-- The three kinds of requests that commands send, to all nodes. -/
inductive PoolRequest : RequestEvent → Prop
  | consensus (msg reqId : String) : PoolRequest (.customConsensusRequest msg reqId)
  | single (msg reqId : String) (spKey : Option Bytes) (timestamps : Option ℕ × Option ℕ) :
      PoolRequest (.customSingleRequest msg reqId spKey timestamps)
  | full (msg reqId : String) (timeout : Option ℤ) : PoolRequest
      (.customFullRequest msg reqId timeout none)

/-- The request is cut off, or the pool has nodes and a consensus request notices that all of them
were heard. -/
def EndsWhen (env : Env) (sm : RequestSM) (req : RequestEvent)
    (history : List RequestEvent) : Prop :=
  .terminate ∈ history ∨ 0 < sm.nodes.len ∧
    match req with
    | .customConsensusRequest _ _ => NoticesEnd env sm.f history
    | _ => True

/-- The handler has finished, and each of its commands has one answer. -/
def Completed (sm₀ sm : RequestSM) (sent : List Effect) : Prop :=
  sm.state = .finish ∧ ∀ c, ackCount c sent = sm₀.cmdIds.count c

section History
variable {env : Env} {nodes : Nodes} {f : ℕ} {history : List RequestEvent} {re : RequestEvent}
    {b : Ballot}

theorem lateDenials_append (hb : re.ballot env = some b) :
    lateDenials env (history ++ [re]) = if b.isDenial then lateDenials env history + 1 else 0 := by
  simp only [lateDenials, List.reverse_append, List.reverse_singleton, List.singleton_append,
    List.filterMap_cons, hb, List.takeWhile_cons]
  split <;> simp

theorem lateDenials_append_idle (hb : re.ballot env = none) :
    lateDenials env (history ++ [re]) = lateDenials env history := by
  simp [lateDenials, hb]

theorem HeardOnce.onceSoFar (h : HeardOnce env nodes history) : OnceSoFar env nodes history := by
  refine ⟨h.nodup_iff.mpr nodes.keys_nodup, ?_⟩
  intro node hnode
  exact AList.mem_keys.mpr (h.mem_iff.mp hnode)

theorem card_heardNodes (h : OnceSoFar env nodes history) :
    (heardNodes env history).card = (finalNodes env history).length :=
  List.toFinset_card_of_nodup h.nodup

theorem heardNodes_subset (h : OnceSoFar env nodes history) :
    heardNodes env history ⊆ nodes.keys.toFinset := by
  intro node hnode
  exact List.mem_toFinset.mpr (AList.mem_keys.mp (h.members node (mem_heardNodes.mp hnode)))

theorem HeardOnce.card_heardNodes (h : HeardOnce env nodes history) :
    (heardNodes env history).card = nodes.len := by
  rw [Indy.card_heardNodes h.onceSoFar, h.length_eq, Nodes.len]

theorem card_unheard_add (h : OnceSoFar env nodes history) :
    (unheard env nodes history).card + (heardNodes env history).card = nodes.len := by
  have hcard := Finset.card_sdiff_add_card_eq_card (heardNodes_subset h)
  rwa [List.toFinset_card_of_nodup nodes.keys_nodup] at hcard

theorem card_unheard_append (h : OnceSoFar env nodes (history ++ [re]))
    (hb : re.ballot env = some b) :
    (unheard env nodes (history ++ [re])).card + 1 = (unheard env nodes history).card := by
  have hafter := card_unheard_add h
  have hbefore := card_unheard_add h.of_append
  rw [heardNodes_append hb, Finset.card_insert_of_notMem (h.fresh hb).2] at hafter
  omega

theorem unheard_append_idle (hb : re.ballot env = none) :
    unheard env nodes (history ++ [re]) = unheard env nodes history := by
  rw [unheard, heardNodes_append_idle hb, unheard]

/-- One ballot adds at most one supporter, and only one with a result. -/
theorem card_supporters_append (hb : re.ballot env = some b) (v : Json) :
    (supporters env (history ++ [re]) v).card ≤
      (supporters env history v).card + if b.isDenial then 0 else 1 := by
  cases b with
  | result node msg v' =>
    rw [supporters_append_result hb]
    split
    · exact Finset.card_insert_le _ _
    · exact Nat.le_add_right _ _
  | denial node => rw [supporters_append_other (by simp [hb])]; exact Nat.le_add_right _ _
  | timeout node => rw [supporters_append_other (by simp [hb])]; exact Nat.le_add_right _ _

/-- The ways a consensus request has ended after these events. -/
inductive Ended (env : Env) (nodes : Nodes) (f : ℕ) (history : List RequestEvent) : Prop
  | cutOff (h : .terminate ∈ history)
  | agreed (v : Json) (h : f < (supporters env history v).card)
  | hopeless (h : ∀ v, (supporters env history v).card +
      ((unheard env nodes history).card + lateDenials env history) ≤ f)
  | distinct (hall : (unheard env nodes history).card = 0) (htimeout : ¬ SomeTimeout history)
      (hone : ∀ v, (supporters env history v).card ≤ 1)

theorem ended_iff_of_heardOnce (h : HeardOnce env nodes history) :
    Ended env nodes f history ↔ .terminate ∈ history ∨ NoticesEnd env f history := by
  have hunheard : (unheard env nodes history).card = 0 := by
    have hsum := card_unheard_add h.onceSoFar
    rw [h.card_heardNodes] at hsum
    omega
  constructor
  · intro hended
    cases hended with
    | cutOff h => exact .inl h
    | agreed v h => exact .inr (.inl ⟨v, h⟩)
    | hopeless h =>
      rw [hunheard, Nat.zero_add] at h
      exact .inr (.inr (.inl h))
    | distinct _ htimeout hone => exact .inr (.inr (.inr ⟨htimeout, hone⟩))
  · intro hends
    rcases hends with h | ⟨v, h⟩ | h | ⟨htimeout, hone⟩
    · exact .cutOff h
    · exact .agreed v h
    · refine .hopeless ?_
      rwa [hunheard, Nat.zero_add]
    · exact .distinct hunheard htimeout hone

theorem someTimeout_append_iff (env : Env) : SomeTimeout (history ++ [re]) ↔
    SomeTimeout history ∨ ∃ node, re.ballot env = some (.timeout node) := by
  have hballot : (∃ node, re.ballot env = some (.timeout node)) ↔
      ∃ reqId node, .timeout reqId node = re := by
    cases re <;> simp [RequestEvent.ballot, answerBallot] <;> split <;> simp
  rw [hballot]
  simp only [SomeTimeout, List.mem_append, List.mem_singleton, exists_or]

/-- What has ended stays so. -/
theorem Ended.append (h : Ended env nodes f history)
    (honce : OnceSoFar env nodes (history ++ [re])) :
    Ended env nodes f (history ++ [re]) := by
  cases h with
  | cutOff h => exact .cutOff (List.mem_append_left _ h)
  | agreed v h => exact .agreed v (h.trans_le (Finset.card_le_card (supporters_subset_append re)))
  | hopeless h =>
    refine .hopeless ?_
    intro v
    have hv := h v
    rcases hb : re.ballot env with _ | b
    · rwa [supporters_append_other (by simp [hb]), unheard_append_idle hb,
        lateDenials_append_idle hb]
    · have hsupp : (supporters env (history ++ [re]) v).card ≤
          (supporters env history v).card + _ := card_supporters_append hb v
      have hunheard := card_unheard_append honce hb
      rw [lateDenials_append hb]
      split at hsupp <;> split <;> first | omega | contradiction
  | distinct hall htimeout hone =>
    rcases hb : re.ballot env with _ | b
    · refine .distinct ?_ ?_ ?_
      · rwa [unheard_append_idle hb]
      · rw [someTimeout_append_iff env, hb]
        simpa using htimeout
      · intro v
        rw [supporters_append_other (by simp [hb])]
        exact hone v
    · have hunheard := card_unheard_append honce hb
      omega

end History

variable {env : Env} {host : Host} {history : List RequestEvent} {re req : RequestEvent}
    {sm sm' : RequestSM}
  {effects : List Effect} {nodes : Nodes} {f : ℕ}

/-- A consensus request that goes on, with counts that follow the history. -/
structure Waiting (env : Env) (nodes : Nodes) (f : ℕ) (history : List RequestEvent)
    (s : ConsensusState) : Prop where
  tracks : Tracks env nodes f history s.poll
  filled : s.replies.Filled
  timeouts : s.timeoutNodes.card = 0 ↔ ¬ SomeTimeout history
  not_ended : ¬ Ended env nodes f history

theorem ConsensusState.filled_record {s : ConsensusState} (h : s.replies.Filled) (b : Ballot) :
    (s.record b).replies.Filled := by
  cases b with
  | result node msg v => exact h.vote v node ()
  | denial node => exact h
  | timeout node => exact h

theorem ConsensusState.timeouts_record {s : ConsensusState} {b : Ballot}
    (h : s.timeoutNodes.card = 0 ↔ ¬ SomeTimeout history) (hb : re.ballot env = some b) :
    (s.record b).timeoutNodes.card = 0 ↔ ¬ SomeTimeout (history ++ [re]) := by
  rw [someTimeout_append_iff env, hb]
  cases b with
  | result node msg v => simpa [record] using h
  | denial node => simpa [record] using h
  | timeout node => simp [record]

/-- The test for unparsable answers, in terms of what was heard. -/
theorem Tracks.all_counted_iff {s : ConsensusState} (h : Tracks env nodes f history s.poll)
    (hfilled : s.replies.Filled) (htimeouts : s.timeoutNodes.card = 0 ↔ ¬ SomeTimeout history) :
    s.deniedNodes.card + s.replies.keys.length = nodes.len ↔ (unheard env nodes history).card = 0 ∧
      ¬ SomeTimeout history ∧ ∀ v, (supporters env history v).card ≤ 1 := by
  have hcard : (unheard env nodes history).card + s.replies.total + s.deniedNodes.card +
      s.timeoutNodes.card =
    nodes.len := h.card_unheard
  have hrows : s.replies.keys.length ≤ s.replies.total := h.once.rows
  have hone : (∀ v, (supporters env history v).card ≤ 1) ↔
      s.replies.keys.length = s.replies.total := by
    rw [hfilled.length_keys_eq_total_iff]
    apply forall_congr'
    intro v
    have hv : s.replies.voters v = supporters env history v := h.voters_eq v
    rw [Tally.count_eq_card, hv]
  rw [hone, ← htimeouts]
  omega

/-- After a result or a timeout the test decides whether there is hope. -/
theorem ConsensusState.not_ended_of_reachable {s : ConsensusState}
    (h : Tracks env nodes f history s.poll)
    (hgo : s.isConsensusReachable env f nodes.len = .ok true) (hlate : lateDenials env history = 0)
    (hcut : .terminate ∉ history) : ¬ Ended env nodes f history := by
  rw [ConsensusState.isConsensusReachable_eq h, Except.ok.injEq, decide_eq_true_eq] at hgo
  have hbound : ∀ v, (supporters env history v).card ≤ f := by
    intro v
    rw [← h.voters_eq v, ← Tally.count_eq_card]
    exact h.undecided v
  intro hended
  cases hended with
  | cutOff h => exact hcut h
  | agreed v h => exact absurd (hbound v) (by omega)
  | hopeless hno =>
    have hmax : s.replies.maxCount ≤ f - (unheard env nodes history).card := by
      rw [Tally.maxCount_le_iff]
      intro v
      have hv := hno v
      rw [← h.voters_eq v, ← Tally.count_eq_card] at hv
      change s.replies.count v + _ ≤ _ at hv
      omega
    have := hno .null
    omega
  | distinct hall _ _ =>
    have hmax : s.replies.maxCount ≤ f := Tally.maxCount_le_iff.mpr h.undecided
    omega

theorem ConsensusState.ended_of_not_reachable {s : ConsensusState}
    (h : Tracks env nodes f history s.poll)
    (hgo : s.isConsensusReachable env f nodes.len = .ok false)
    (hlate : lateDenials env history = 0) :
    Ended env nodes f history := by
  rw [ConsensusState.isConsensusReachable_eq h, Except.ok.injEq, decide_eq_false_iff_not] at hgo
  refine .hopeless ?_
  intro v
  rw [← h.voters_eq v, ← Tally.count_eq_card, hlate]
  have hmax := s.replies.count_le_maxCount v
  change s.replies.count v + _ ≤ f
  omega

theorem Waiting.terminate_notMem {s : ConsensusState} (h : Waiting env nodes f history s)
    (hne : re ≠ .terminate) :
    .terminate ∉ history ++ [re] := by
  simp only [List.mem_append, List.mem_singleton, not_or]
  exact ⟨fun hmem => h.not_ended (.cutOff hmem), hne.symm⟩

/-- An unparsable answer that fails the test for all being counted ends nothing. -/
theorem Waiting.not_ended_of_denial {s : ConsensusState} {node : String}
    (hs : Waiting env nodes f history s)
    (hb : re.ballot env = some (.denial node)) (hne : re ≠ .terminate)
    (honce : OnceSoFar env nodes (history ++ [re]))
    (hmore : ¬ ((unheard env nodes (history ++ [re])).card = 0 ∧ ¬ SomeTimeout (history ++ [re]) ∧
      ∀ v, (supporters env (history ++ [re]) v).card ≤ 1)) : ¬ Ended env nodes f
        (history ++ [re]) := by
  have hsupp : ∀ v, supporters env (history ++ [re]) v = supporters env history v :=
    supporters_append_other (by simp [hb])
  have hunheard := card_unheard_append honce hb
  have hlate : lateDenials env (history ++ [re]) = lateDenials env history + 1 := by
    rw [lateDenials_append hb]
    rfl
  intro hended
  cases hended with
  | cutOff h => exact hs.terminate_notMem hne h
  | agreed v h =>
    rw [hsupp v] at h
    exact hs.not_ended (.agreed v h)
  | hopeless h =>
    refine hs.not_ended (.hopeless ?_)
    intro v
    have hv := h v
    rw [hsupp v, hlate] at hv
    omega
  | distinct hall htimeout hone => exact hmore ⟨hall, htimeout, hone⟩

theorem Waiting.not_ended_of_idle {s : ConsensusState} (hs : Waiting env nodes f history s)
    (hb : re.ballot env = none) (hne : re ≠ .terminate) :
    ¬ Ended env nodes f (history ++ [re]) := by
  have hsupp : ∀ v, supporters env (history ++ [re]) v = supporters env history v :=
    supporters_append_other (by simp [hb])
  intro hended
  cases hended with
  | cutOff h => exact hs.terminate_notMem hne h
  | agreed v h =>
    rw [hsupp v] at h
    exact hs.not_ended (.agreed v h)
  | hopeless h =>
    refine hs.not_ended (.hopeless ?_)
    intro v
    have hv := h v
    rwa [hsupp v, unheard_append_idle hb, lateDenials_append_idle hb] at hv
  | distinct hall htimeout hone =>
    rw [unheard_append_idle hb] at hall
    rw [someTimeout_append_iff env, not_or] at htimeout
    refine hs.not_ended (.distinct hall htimeout.1 ?_)
    intro v
    rw [← hsupp v]
    exact hone v

theorem ConsensusStep.ended {s : ConsensusState} {st : RequestState}
    {answer : Option (Except IndyError String)}
    (hs : Waiting env sm.nodes sm.f history s) (h : ConsensusStep env sm s re st answer)
    (hne : re ≠ .terminate) (honce : OnceSoFar env sm.nodes (history ++ [re])) :
    st = .finish ∧ Ended env sm.nodes sm.f (history ++ [re]) ∨
      ∃ s', st = .consensus s' ∧ Waiting env sm.nodes sm.f (history ++ [re]) s' := by
  have hrecord : ∀ b, re.ballot env = some b →
      b.Undecided sm.f (fun v => (s.record b).replies.count v) →
      Tracks env sm.nodes sm.f (history ++ [re]) (s.record b).poll := by
    intro b hb hcount
    obtain ⟨hnode, hfresh⟩ := honce.fresh hb
    obtain ⟨hfirst, hsilent⟩ := hs.tracks.firstCount_of_fresh hfresh
    exact ConsensusState.tracks_record hs.tracks hb hnode ⟨hfirst, .inr hsilent⟩ hcount
  cases h with
  | agree hb hcount =>
    rename_i node msg v
    refine .inl ⟨rfl, .agreed v ?_⟩
    have hv : s.replies.voters v = supporters env history v := hs.tracks.voters_eq v
    rw [Tally.count_eq_card, ConsensusState.record, Tally.voters_vote_self, hv] at hcount
    rwa [supporters_append_result hb, if_pos rfl]
  | wait hb hcount hgo =>
    rename_i b
    have htracks := hrecord b hb hcount
    have hfilled := ConsensusState.filled_record hs.filled b
    have htimeouts := ConsensusState.timeouts_record hs.timeouts hb
    refine .inr ⟨_, rfl, htracks, hfilled, htimeouts, ?_⟩
    have hlate : lateDenials env (history ++ [re]) = _ := lateDenials_append hb
    cases b with
    | result node msg v =>
      exact ConsensusState.not_ended_of_reachable htracks hgo hlate (hs.terminate_notMem hne)
    | timeout node =>
      exact ConsensusState.not_ended_of_reachable htracks hgo hlate (hs.terminate_notMem hne)
    | denial node =>
      apply hs.not_ended_of_denial hb hne honce
      rw [← htracks.all_counted_iff hfilled htimeouts]
      simpa [ConsensusState.goesOn] using hgo
  | fail hb hcount hgo =>
    rename_i b
    have htracks := hrecord b hb hcount
    refine .inl ⟨rfl, ?_⟩
    have hlate : lateDenials env (history ++ [re]) = _ := lateDenials_append hb
    cases b with
    | result node msg v => exact ConsensusState.ended_of_not_reachable htracks hgo hlate
    | timeout node => exact ConsensusState.ended_of_not_reachable htracks hgo hlate
    | denial node =>
      have hall := (htracks.all_counted_iff (ConsensusState.filled_record hs.filled _)
        (ConsensusState.timeouts_record hs.timeouts hb)).mp
          (by simpa [ConsensusState.goesOn] using hgo)
      exact .distinct hall.1 hall.2.1 hall.2.2
  | terminate hre => exact absurd hre hne
  | idle hb =>
    refine .inr ⟨s, rfl, hs.tracks.idle hb, hs.filled, ?_, ?_⟩
    · rw [someTimeout_append_iff env, hb]
      simpa using hs.timeouts
    · exact hs.not_ended_of_idle hb hne

/-- A single request that goes on has not heard everyone. -/
theorem SingleStep.heard {s : SingleState} {st : RequestState}
    {answer : Option (Except IndyError String)} (hs : Tracks env sm.nodes sm.f history s.poll)
    (hmore : (heardNodes env history).card < sm.nodes.len)
    (h : SingleStep env host sm s re st answer) (honce : OnceSoFar env sm.nodes (history ++ [re])) :
    st = .finish ∨ ∃ s', st = .single s' ∧ Tracks env sm.nodes sm.f (history ++ [re]) s'.poll ∧
      (heardNodes env (history ++ [re])).card < sm.nodes.len := by
  cases h with
  | agree => exact .inl rfl
  | proof => exact .inl rfl
  | fail => exact .inl rfl
  | terminate => exact .inl rfl
  | idle hb =>
    refine .inr ⟨s, rfl, hs.idle hb, ?_⟩
    rwa [heardNodes_append_idle hb]
  | wait hb hcount hgo =>
    rename_i b
    obtain ⟨hnode, hfresh⟩ := honce.fresh hb
    have htracks := SingleState.tracks_record hs hb hnode (hs.firstCount_of_fresh hfresh).1 hcount
    refine .inr ⟨_, rfl, htracks, ?_⟩
    have hcard : (s.record env b).replies.total + (s.record env b).deniedNodes.card +
      (s.record env b).timeoutNodes.card = (heardNodes env (history ++ [re])).card :=
      htracks.once.card_heard
    rw [SingleState.isConsensusReachable, decide_eq_true_eq] at hgo
    omega

/-- A request to all nodes has collected an answer of everyone heard so far, and waits for more. -/
structure Collecting (env : Env) (nodes : Nodes) (history : List RequestEvent)
    (s : FullState) : Prop where
  everyone : s.nodesToSend = none
  collected : ∀ node, node ∈ (s.accumReply.getD []).map Prod.fst ↔ node ∈ heardNodes env history
  count : (s.accumReply.getD []).length = (heardNodes env history).card
  more : (heardNodes env history).card < nodes.len

theorem fullRequestHandleConsensusState_state (env : Env) (sm : RequestSM) (s : FullState)
    (reqId node result : String) :
    (fullRequestHandleConsensusState env sm s reqId node result).state =
      if (Json.insertField node (.string result) (s.accumReply.getD [])).length =
        (s.nodesToSend.map List.length).getD sm.nodes.len then .finish
      else .full { s with accumReply := some (Json.insertField node (.string result)
        (s.accumReply.getD [])) } := by
  obtain ⟨accumReply, nodesToSend⟩ := s
  cases accumReply with
  | none => exact apply_ite Reaction.state _ _ _
  | some fields => exact apply_ite Reaction.state _ _ _

theorem Collecting.record {s : FullState} {reqId node result : String} {b : Ballot}
    (hs : Collecting env sm.nodes history s) (hb : re.ballot env = some b) (hnode : b.node = node)
    (honce : OnceSoFar env sm.nodes (history ++ [re])) :
    (fullRequestHandleConsensusState env sm s reqId node result).state = .finish ∨
      ∃ s', (fullRequestHandleConsensusState env sm s reqId node result).state = .full s' ∧
        Collecting env sm.nodes (history ++ [re]) s' := by
  subst hnode
  have hfresh := (honce.fresh hb).2
  have hnew : b.node ∉ (s.accumReply.getD []).map Prod.fst := by rwa [hs.collected]
  have hcard : (heardNodes env (history ++ [re])).card = (heardNodes env history).card + 1 := by
    rw [heardNodes_append hb, Finset.card_insert_of_notMem hfresh]
  have hle := Finset.card_le_card (heardNodes_subset honce)
  rw [List.toFinset_card_of_nodup sm.nodes.keys_nodup] at hle
  rw [fullRequestHandleConsensusState_state, hs.everyone, Option.map_none, Option.getD_none,
    Json.length_insertField _ hnew, hs.count, ← hcard]
  split
  · exact .inl rfl
  · rename_i hmore
    refine .inr ⟨_, rfl, rfl, ?_, ?_, by unfold Nodes.len at hmore ⊢; omega⟩
    · intro node
      rw [Option.getD_some, Json.mem_insertField, hs.collected, heardNodes_append hb,
        Finset.mem_insert]
    · rw [Option.getD_some, Json.length_insertField _ hnew, hs.count, hcard]

theorem Collecting.idle {s : FullState} (hs : Collecting env nodes history s)
    (hb : re.ballot env = none) :
    Collecting env nodes (history ++ [re]) s := by
  refine ⟨hs.everyone, ?_, ?_, ?_⟩
  · rw [heardNodes_append_idle hb]
    exact hs.collected
  · rw [heardNodes_append_idle hb]
    exact hs.count
  · rw [heardNodes_append_idle hb]
    exact hs.more

theorem answerBallot_node (env : Env) (msg node : String) :
    (answerBallot env msg node).node = node := by
  unfold answerBallot
  split <;> rfl

theorem Collecting.handleFull {s : FullState} (hs : Collecting env sm.nodes history s)
    (honce : OnceSoFar env sm.nodes (history ++ [re])) :
    (handleFull env sm s re).state = .finish ∨ ∃ s', (handleFull env sm s re).state = .full s' ∧
      Collecting env sm.nodes (history ++ [re]) s' := by
  unfold Indy.handleFull
  split
  · exact hs.record rfl (answerBallot_node env _ _) honce
  · exact hs.record rfl (answerBallot_node env _ _) honce
  · exact hs.record rfl (answerBallot_node env _ _) honce
  · exact hs.record rfl rfl honce
  · exact .inl rfl
  · refine .inr ⟨s, rfl, hs.idle ?_⟩
    cases re <;> simp_all [RequestEvent.ballot]

/-- State of a request to the pool after these events, while each node has been heard at most
once. -/
inductive Progress (env : Env) (nodes : Nodes) (f : ℕ) (history : List RequestEvent) :
    RequestEvent → RequestState → Prop
  | consensus {msg reqId : String} {s : ConsensusState} (hs : Waiting env nodes f history s) :
      Progress env nodes f history (.customConsensusRequest msg reqId) (.consensus s)
  | consensusFinish {msg reqId : String} (hs : Ended env nodes f history) :
      Progress env nodes f history (.customConsensusRequest msg reqId) .finish
  | single {msg reqId : String} {spKey : Option Bytes} {timestamps : Option ℕ × Option ℕ}
      {s : SingleState}
      (hs : Tracks env nodes f history s.poll) (hmore : (heardNodes env history).card < nodes.len) :
      Progress env nodes f history (.customSingleRequest msg reqId spKey timestamps) (.single s)
  | singleFinish {msg reqId : String} {spKey : Option Bytes} {timestamps : Option ℕ × Option ℕ} :
      Progress env nodes f history (.customSingleRequest msg reqId spKey timestamps) .finish
  | full {msg reqId : String} {timeout : Option ℤ} {s : FullState}
      (hs : Collecting env nodes history s) :
      Progress env nodes f history (.customFullRequest msg reqId timeout none) (.full s)
  | fullFinish {msg reqId : String} {timeout : Option ℤ} :
      Progress env nodes f history (.customFullRequest msg reqId timeout none) .finish

theorem Progress.step (hs : Progress env sm.nodes sm.f history req sm.state)
    (honce : OnceSoFar env sm.nodes (history ++ [re]))
    (h : sm.step env (re, host) = .ok (sm', effects)) :
    Progress env sm.nodes sm.f (history ++ [re]) req sm'.state := by
  obtain ⟨r, hr, rfl, rfl⟩ := RequestSM.step_inv h
  unfold RequestSM.react at hr
  dsimp only
  generalize sm.state = st at hs hr
  cases hs with
  | consensus hs =>
    by_cases hre : re = .terminate
    · subst hre
      cases hr
      exact .consensusFinish (.cutOff (by simp))
    · obtain ⟨answer, hstep, -⟩ := handleConsensus_inv hr
      rcases hstep.ended hs hre honce with ⟨hst, hended⟩ | ⟨s', hst, hwait⟩
      · rw [hst]
        exact .consensusFinish hended
      · rw [hst]
        exact .consensus hwait
  | consensusFinish hs =>
    cases hr
    exact .consensusFinish (hs.append honce)
  | single hs hmore =>
    obtain ⟨answer, hstep, -⟩ := handleSingle_inv hr
    rcases hstep.heard hs hmore honce with hst | ⟨s', hst, htracks, hmore'⟩
    · rw [hst]
      exact .singleFinish
    · rw [hst]
      exact .single htracks hmore'
  | singleFinish =>
    cases hr
    exact .singleFinish
  | full hs =>
    cases hr
    rcases hs.handleFull honce with hst | ⟨s', hst, hcollect⟩
    · rw [hst]
      exact .fullFinish
    · rw [hst]
      exact .full hcollect
  | fullFinish =>
    cases hr
    exact .fullFinish

theorem progress_of_start (hstart : sm.state = .start) (hreq : PoolRequest req)
    (hf : sm.f < sm.nodes.len) (h : sm.step env (req, host) = .ok (sm', effects)) :
    Progress env sm.nodes sm.f [] req sm'.state := by
  obtain ⟨r, hr, rfl, rfl⟩ := RequestSM.step_inv h
  unfold RequestSM.react at hr
  rw [hstart] at hr
  have hmore : (heardNodes env []).card < sm.nodes.len := by
    rw [heardNodes_nil, Finset.card_empty]
    omega
  cases hreq with
  | consensus msg reqId =>
    cases hr
    refine .consensus ⟨tracks_empty, Tally.filled_empty, by simp [SomeTimeout], ?_⟩
    have hunheard : (unheard env sm.nodes []).card = sm.nodes.len := by
      simp [unheard, Nodes.len, List.toFinset_card_of_nodup sm.nodes.keys_nodup]
    intro hended
    cases hended with
    | cutOff h => simp at h
    | agreed v h => simp [supporters] at h
    | hopeless h =>
      have := h .null
      omega
    | distinct hall _ _ => omega
  | single msg reqId spKey timestamps =>
    obtain ⟨resends, -, hr⟩ := except_bind_eq_ok.mp hr
    cases hr
    exact .single tracks_empty hmore
  | full msg reqId timeout =>
    cases hr
    exact .full ⟨rfl, by simp, by simp, hmore⟩

theorem PoolRequest.customRequest (h : PoolRequest req) : CustomRequest req := by
  cases h with
  | consensus msg reqId => exact .consensus msg reqId
  | single msg reqId spKey timestamps => exact .single msg reqId spKey timestamps
  | full msg reqId timeout => exact .full msg reqId timeout none

theorem RequestSM.exists_handleEvent_of_step {e : RequestEvent × Host}
    (h : sm.step env e = .ok (sm', effects)) :
    ∃ event, sm.handleEvent env e.2 e.1 = .ok (sm', event, effects) := by
  obtain ⟨⟨sm₁, event, effects₁⟩, hev, hret⟩ := except_bind_eq_ok.mp h
  cases hret
  exact ⟨event, hev⟩

/-- The answers of a whole run and those still owed are one for each command. -/
theorem answers_of_run {sm₀ : RequestSM} {host₀ : Host} {events : List (RequestEvent × Host)}
    {sent : List Effect} (hstart : sm₀.state = .start) (hreq : PoolRequest req)
    (hrun : sm₀.run env ((req, host₀) :: events) = .ok (sm, sent)) :
    Serving sm.state ∧ ∀ c, ackCount c sent + owed c sm = sm₀.cmdIds.count c := by
  obtain ⟨sm₁, sent₁, sent₂, hfirst, hrest, rfl⟩ := runSteps_cons_iff.mp hrun
  obtain ⟨event, hfirst⟩ := RequestSM.exists_handleEvent_of_step hfirst
  obtain ⟨hserving, -, hsum⟩ := hreq.customRequest.handleEvent hstart hfirst
  have hinv := runSteps_invariant (C := fun _ _ => True)
    (P := fun _ out (sm : RequestSM) => Serving sm.state ∧ ∀ c, ackCount c out +
      owed c sm = owed c sm₁)
    ⟨hserving, fun c => Nat.zero_add _⟩
    (by
      intro pre out s e s' out' ⟨hs, hout⟩ _ hstep
      obtain ⟨event', hstep⟩ := RequestSM.exists_handleEvent_of_step hstep
      obtain ⟨hs', -, hsum'⟩ := hs.handleEvent hstep
      refine ⟨hs', ?_⟩
      intro c
      have := hout c
      have := hsum' c
      rw [ackCount_append]
      omega)
    (fun _ _ _ _ _ _ => trivial) hrest
  refine ⟨hinv.1, ?_⟩
  intro c
  have := hinv.2 c
  have := hsum c
  rw [ackCount_append]
  omega

theorem owed_eq_zero_of_finish (h : sm.state = .finish) (c : CommandHandle) : owed c sm = 0 := by
  rw [owed, isTerminal_eq, h]
  rfl

section Release

theorem exists_subU64_release (a b : ℕ) : ∃ c, subU64 .release a b = .ok c := by
  unfold subU64
  split <;> exact ⟨_, rfl⟩

theorem exists_addU64_release (a b : ℕ) : ∃ c, addU64 .release a b = .ok c := by
  unfold addU64
  split <;> exact ⟨_, rfl⟩

variable (hbuild : env.build = .release)
include hbuild

theorem exists_isConsensusReachable (s : ConsensusState) (f n : ℕ) :
    ∃ b, s.isConsensusReachable env f n = .ok b := by
  unfold ConsensusState.isConsensusReachable
  rw [hbuild]
  obtain ⟨a, ha⟩ := exists_subU64_release (s.replies.maxCount + n) s.replies.total
  rw [ha, except_ok_bind]
  obtain ⟨b, hb⟩ := exists_subU64_release a s.timeoutNodes.card
  rw [hb, except_ok_bind]
  obtain ⟨c, hc⟩ := exists_subU64_release b s.deniedNodes.card
  rw [hc, except_ok_bind]
  exact ⟨_, rfl⟩

theorem exists_checkStateProof (host : Host) (result : Json) (f : ℕ) (nodes : Nodes) (msg : String)
    (spKey : Option Bytes) (requested : Option ℕ × Option ℕ) (lastWriteTime : ℕ) :
    ∃ b, checkStateProof env host result f nodes msg spKey requested lastWriteTime = .ok b := by
  have hfresh : ∀ time written, ∃ b, isFresh env host time written = .ok b := by
    intro time written
    obtain ⟨c, hc⟩ := exists_addU64_release host.freshnessThreshold written
    exact ⟨_, by rw [isFresh, hbuild, hc, except_ok_bind]; rfl⟩
  unfold checkStateProof
  split
  · unfold checkFreshness
    split
    · rename_i left _
      obtain ⟨b, hb⟩ := hfresh left ((extractLeftLastWriteTime result).getD 0)
      rw [hb, except_ok_bind]
      cases b with
      | true => exact hfresh _ _
      | false => exact ⟨false, rfl⟩
    · exact hfresh _ _
  · exact ⟨false, rfl⟩

theorem exists_consensusReply (s : ConsensusState) (msg node reqId : String) :
    ∃ r, consensusReply env sm s msg node reqId = .ok r := by
  unfold consensusReply
  split
  · dsimp only
    split
    · exact ⟨_, rfl⟩
    · rename_i result _ _
      obtain ⟨b, hb⟩ :=
        exists_isConsensusReachable hbuild { s with replies := s.replies.vote result node () } sm.f
        sm.nodes.len
      rw [hb, except_ok_bind]
      split <;> exact ⟨_, rfl⟩
  · dsimp only
    split <;> exact ⟨_, rfl⟩

theorem exists_singleReply (s : SingleState) (msg node reqId : String) :
    ∃ r, singleReply env host sm s msg node reqId = .ok r := by
  unfold singleReply
  dsimp only
  split
  · rename_i result v _
    split
    · exact ⟨_, rfl⟩
    · obtain ⟨b, hb⟩ :=
        exists_checkStateProof hbuild host result sm.f sm.nodes msg s.spKey s.timestamps
        ((getLastSignedTime env msg).getD 0)
      rw [hb, except_ok_bind]
      split <;> exact ⟨_, rfl⟩
  · exact ⟨_, rfl⟩

/-- In a release build nothing stops a started request. -/
theorem Serving.exists_step (hs : Serving sm.state) (e : RequestEvent × Host) :
    ∃ r, sm.step env e = .ok r := by
  have hreact : ∃ r, sm.react env e.2 e.1 = .ok r := by
    unfold RequestSM.react
    generalize sm.state = st at hs
    cases hs with
    | consensus s =>
      dsimp only
      unfold handleConsensus
      split
      · exact exists_consensusReply hbuild _ _ _ _
      · exact exists_consensusReply hbuild _ _ _ _
      · exact exists_consensusReply hbuild _ _ _ _
      · exact ⟨_, rfl⟩
      · rename_i reqId node _
        obtain ⟨b, hb⟩ :=
          exists_isConsensusReachable hbuild { s with timeoutNodes := insert node s.timeoutNodes }
          sm.f sm.nodes.len
        dsimp only
        rw [hb, except_ok_bind]
        split <;> exact ⟨_, rfl⟩
      · exact ⟨_, rfl⟩
      · exact ⟨_, rfl⟩
    | single s =>
      dsimp only
      unfold handleSingle
      split
      · exact exists_singleReply hbuild _ _ _ _
      · exact exists_singleReply hbuild _ _ _ _
      · exact exists_singleReply hbuild _ _ _ _
      · exact ⟨_, rfl⟩
      · exact ⟨_, rfl⟩
      · exact ⟨_, rfl⟩
      · exact ⟨_, rfl⟩
    | full s => exact ⟨_, rfl⟩
    | finish => exact ⟨_, rfl⟩
  obtain ⟨r, hr⟩ := hreact
  exact ⟨({ sm with state := r.state }, r.effects),
    by rw [RequestSM.step, RequestSM.handleEvent, hr]; rfl⟩

theorem exists_run_of_release {sm₀ : RequestSM} (hstart : sm₀.state = .start)
    (hreq : PoolRequest req) (host₀ : Host)
    (events : List (RequestEvent × Host)) : ∃ r, sm₀.run env ((req, host₀) :: events) = .ok r := by
  have hfirst : ∃ r, sm₀.step env (req, host₀) = .ok r := by
    simp only [RequestSM.step, RequestSM.handleEvent, RequestSM.react, hstart]
    cases hreq with
    | consensus msg reqId => exact ⟨_, rfl⟩
    | full msg reqId timeout => exact ⟨_, rfl⟩
    | single msg reqId spKey timestamps =>
      simp only [handleStart, hbuild, subU8]
      split <;> exact ⟨_, rfl⟩
  obtain ⟨⟨sm₁, sent₁⟩, hfirst⟩ := hfirst
  obtain ⟨event, hev⟩ := RequestSM.exists_handleEvent_of_step hfirst
  have hserving := (hreq.customRequest.handleEvent hstart hev).1
  have hrest := exists_runSteps (P := fun sm : RequestSM => Serving sm.state) hserving
    (by
      intro s e hs
      obtain ⟨⟨s', out⟩, hstep⟩ := hs.exists_step hbuild e
      obtain ⟨event', hev'⟩ := RequestSM.exists_handleEvent_of_step hstep
      exact ⟨s', out, hstep, (hs.handleEvent hev').1⟩) events
  obtain ⟨⟨sm, sent⟩, hrest⟩ := hrest
  exact ⟨_, runSteps_cons_iff.mpr ⟨sm₁, sent₁, sent, hfirst, hrest, rfl⟩⟩

end Release

/-- An event that is no final event and does not cut the request off leaves it where it is. -/
theorem Serving.idle_step {e : RequestEvent × Host} (hs : Serving sm.state)
    (hb : e.1.ballot env = none)
    (hne : e.1 ≠ .terminate) (h : sm.step env e = .ok (sm', effects)) : sm'.state = sm.state := by
  obtain ⟨r, hr, rfl, rfl⟩ := RequestSM.step_inv h
  unfold RequestSM.react at hr
  dsimp only
  generalize sm.state = st at hs hr
  obtain ⟨re, host⟩ := e
  cases hs with
  | consensus s => cases re <;> simp_all [RequestEvent.ballot, handleConsensus] <;> rw [← hr]
  | single s => cases re <;> simp_all [RequestEvent.ballot, handleSingle] <;> rw [← hr]
  | full s => cases re <;> simp_all [RequestEvent.ballot, handleFull] <;> rw [← hr]
  | finish =>
    cases hr
    rfl

theorem completed_iff_finish {sm₀ : RequestSM} {host₀ : Host} {events : List (RequestEvent × Host)}
    {sent : List Effect} (hstart : sm₀.state = .start) (hreq : PoolRequest req)
    (hrun : sm₀.run env ((req, host₀) :: events) = .ok (sm, sent)) :
    Completed sm₀ sm sent ↔ sm.state = .finish := by
  refine ⟨fun h => h.1, fun h => ⟨h, ?_⟩⟩
  intro c
  have hsum := (answers_of_run hstart hreq hrun).2 c
  rwa [owed_eq_zero_of_finish h, Nat.add_zero] at hsum

/-- A request that is cut off has finished. -/
theorem finish_of_terminate {sm₀ : RequestSM} {events : List (RequestEvent × Host)}
    {sent : List Effect}
    (hs : Serving sm₀.state) (hrun : runSteps (RequestSM.step env) sm₀ events = .ok (sm, sent))
    (hcut : .terminate ∈ events.map Prod.fst) : sm.state = .finish := by
  have hinv := runSteps_invariant (C := fun _ _ => True)
    (P := fun pre _ (sm : RequestSM) => Serving sm.state ∧
      (.terminate ∈ pre.map Prod.fst → sm.state = .finish))
    ⟨hs, by simp⟩
    (by
      intro pre out s e s' out' ⟨hs, hfin⟩ _ hstep
      obtain ⟨event, hev⟩ := RequestSM.exists_handleEvent_of_step hstep
      refine ⟨(hs.handleEvent hev).1, ?_⟩
      intro hmem
      obtain ⟨re, host⟩ := e
      obtain ⟨r, hr, rfl, rfl⟩ := RequestSM.step_inv hstep
      unfold RequestSM.react at hr
      dsimp only
      by_cases hpre : .terminate ∈ pre.map Prod.fst
      · rw [hfin hpre] at hr
        cases hr
        rfl
      · have hre : re = .terminate := by simpa [hpre, eq_comm] using hmem
        subst hre
        generalize s.state = st at hs hr
        cases hs <;> cases hr <;> rfl)
    (fun _ _ _ _ _ _ => trivial) hrun
  exact hinv.2 hcut

/-- Without nodes there is nobody to be heard, and only a cut-off ends the request. -/
theorem not_finish_of_no_nodes {sm₀ : RequestSM} {host₀ : Host}
    {events : List (RequestEvent × Host)}
    {sent : List Effect} (hstart : sm₀.state = .start) (hreq : PoolRequest req)
    (hidle : ∀ e ∈ events, e.1.ballot env = none) (hcut : .terminate ∉ events.map Prod.fst)
    (hrun : sm₀.run env ((req, host₀) :: events) = .ok (sm, sent)) : sm.state ≠ .finish := by
  obtain ⟨sm₁, sent₁, sent₂, hfirst, hrest, -⟩ := runSteps_cons_iff.mp hrun
  have hstarted : Serving sm₁.state ∧ sm₁.state ≠ .finish := by
    obtain ⟨r, hr, rfl, rfl⟩ := RequestSM.step_inv hfirst
    unfold RequestSM.react at hr
    rw [hstart] at hr
    cases hreq with
    | consensus msg reqId =>
      cases hr
      exact ⟨.consensus _, by simp⟩
    | single msg reqId spKey timestamps =>
      obtain ⟨resends, -, hr⟩ := except_bind_eq_ok.mp hr
      cases hr
      exact ⟨.single _, by simp⟩
    | full msg reqId timeout =>
      cases hr
      exact ⟨.full _, by simp⟩
  have hinv := runSteps_invariant (C := fun _ _ => True)
    (P := fun pre _ (sm : RequestSM) => (∀ e ∈ pre, e.1.ballot env = none ∧ e.1 ≠ .terminate) →
      Serving sm.state ∧ sm.state ≠ .finish)
    (fun _ => hstarted)
    (by
      intro pre out s e s' out' hs _ hstep hpre
      obtain ⟨hserving, hne⟩ := hs fun e' he' => hpre e' (List.mem_append_left _ he')
      obtain ⟨hb, hcut'⟩ := hpre e (by simp)
      rw [hserving.idle_step hb hcut' hstep]
      exact ⟨hserving, hne⟩)
    (fun _ _ _ _ _ _ => trivial) hrest
  refine (hinv ?_).2
  intro e he
  exact ⟨hidle e he, fun heq => hcut (List.mem_map.mpr ⟨e, he, heq⟩)⟩

theorem progress_of_run {sm₀ : RequestSM} {host₀ : Host} {events : List (RequestEvent × Host)}
    {sent : List Effect}
    (hstart : sm₀.state = .start) (hreq : PoolRequest req) (hf : sm₀.f < sm₀.nodes.len)
    (honce : OnceSoFar env sm₀.nodes (events.map Prod.fst))
    (hrun : sm₀.run env ((req, host₀) :: events) = .ok (sm, sent)) :
    Progress env sm₀.nodes sm₀.f (events.map Prod.fst) req sm.state := by
  obtain ⟨sm₁, sent₁, sent₂, hfirst, hrest, -⟩ := runSteps_cons_iff.mp hrun
  have hinv := runSteps_invariant (C := fun _ _ => True)
    (P := fun pre _ (sm : RequestSM) => sm.f = sm₀.f ∧ sm.nodes = sm₀.nodes ∧
      (OnceSoFar env sm₀.nodes (pre.map Prod.fst) →
        Progress env sm₀.nodes sm₀.f (pre.map Prod.fst) req sm.state))
    (by
      obtain ⟨hf₁, hnodes₁, -⟩ := RequestSM.step_params hfirst
      exact ⟨hf₁, hnodes₁, fun _ => progress_of_start hstart hreq hf hfirst⟩)
    (by
      intro pre out s e s' out' ⟨hf₁, hnodes₁, hprogress⟩ _ hstep
      obtain ⟨hf₂, hnodes₂, -⟩ := RequestSM.step_params hstep
      refine ⟨hf₂.trans hf₁, hnodes₂.trans hnodes₁, ?_⟩
      intro honce
      rw [List.map_append, List.map_singleton] at honce ⊢
      have hs := hprogress honce.of_append
      rw [← hf₁, ← hnodes₁] at hs ⊢
      rw [← hnodes₁] at honce
      exact hs.step honce hstep)
    (fun _ _ _ _ _ _ => trivial) hrest
  exact hinv.2.2 honce

/-- A request that is cut off has finished. -/
theorem finish_of_cutOff {sm₀ sm : RequestSM} {host₀ : Host} {events : List (RequestEvent × Host)}
    {sent : List Effect} (hstart : sm₀.state = .start) (hreq : PoolRequest req)
    (hrun : sm₀.run env ((req, host₀) :: events) = .ok (sm, sent))
    (hcut : .terminate ∈ events.map Prod.fst) :
    sm.state = .finish := by
  obtain ⟨sm₁, sent₁, sent₂, hfirst, hrest, -⟩ := runSteps_cons_iff.mp hrun
  obtain ⟨event, hev⟩ := RequestSM.exists_handleEvent_of_step hfirst
  exact finish_of_terminate (hreq.customRequest.handleEvent hstart hev).1 hrest hcut

/-- In a pool without nodes nobody is heard. -/
theorem HeardOnce.ballot_eq_none {nodes : Nodes} {events : List (RequestEvent × Host)}
    (hheard : HeardOnce env nodes (events.map Prod.fst)) (hzero : nodes.len = 0) :
    ∀ e ∈ events, e.1.ballot env = none := by
  have hnil : finalNodes env (events.map Prod.fst) = [] := by
    apply List.eq_nil_of_length_eq_zero
    rw [hheard.length_eq]
    exact hzero
  intro e he
  have hnone := List.filterMap_eq_nil_iff.mp hnil e.1 (List.mem_map_of_mem he)
  simpa using hnone

/-- Once everyone has been heard, a request to the pool has finished with one answer for each
command, exactly under the condition; in a release build nothing stops it before. -/
theorem completed_iff_endsWhen {sm₀ : RequestSM} {host₀ : Host}
    {events : List (RequestEvent × Host)}
    (hstart : sm₀.state = .start) (hf : sm₀.f = getF sm₀.nodes.len) (hreq : PoolRequest req)
    (hheard : HeardOnce env sm₀.nodes (events.map Prod.fst)) :
    (env.build = .release → ∃ r, sm₀.run env ((req, host₀) :: events) = .ok r) ∧
    ∀ sm sent, sm₀.run env ((req, host₀) :: events) = .ok (sm, sent) →
      (Completed sm₀ sm sent ↔ EndsWhen env sm₀ req (events.map Prod.fst)) := by
  refine ⟨fun hbuild => exists_run_of_release hbuild hstart hreq host₀ events, ?_⟩
  intro sm sent hrun
  rw [completed_iff_finish hstart hreq hrun]
  unfold EndsWhen
  rcases Nat.eq_zero_or_pos sm₀.nodes.len with hzero | hpos
  · have hidle := hheard.ballot_eq_none hzero
    constructor
    · intro hfinish
      by_contra hnot
      rw [hzero] at hnot
      exact not_finish_of_no_nodes hstart hreq hidle (by simpa using hnot) hrun hfinish
    · rintro (hcut | ⟨hpos, -⟩)
      · exact finish_of_cutOff hstart hreq hrun hcut
      · omega
  · have hlt : sm₀.f < sm₀.nodes.len := by
      have := three_mul_getF_lt hpos
      rw [hf]
      omega
    have hprogress := progress_of_run hstart hreq hlt hheard.onceSoFar hrun
    have hall := hheard.card_heardNodes
    generalize sm.state = st at hprogress
    cases hprogress with
    | consensus hs =>
      have hended := hs.not_ended
      rw [ended_iff_of_heardOnce hheard] at hended
      simp only [reduceCtorEq, false_iff]
      simp only [hpos, true_and]
      exact hended
    | consensusFinish hs =>
      rw [ended_iff_of_heardOnce hheard] at hs
      simp only [true_iff]
      simp only [hpos, true_and]
      exact hs
    | single hs hmore => omega
    | singleFinish => simp [hpos]
    | full hs =>
      have := hs.more
      omega
    | fullFinish => simp [hpos]

/-- A timeout, an answer that cannot be parsed and two equal results, for examples. -/
def mixedEvents : List (RequestEvent × Host) :=
  [(.timeout "1" "n1", sampleHost), (.reply "" "n2" "1", sampleHost),
    (.reply (sampleText 1) "n3" "1", sampleHost), (.reply (sampleText 1) "n4" "1", sampleHost)]

theorem completed_iff_endsWhen_four : ∃ sm sent,
    sampleRequest.run sampleEnv ((.customConsensusRequest "" "1", sampleHost) :: mixedEvents) = .ok
      (sm, sent) ∧
    (Completed sampleRequest sm sent ↔
      EndsWhen sampleEnv sampleRequest (.customConsensusRequest "" "1")
        (mixedEvents.map Prod.fst)) := by
  have hf : sampleRequest.f = getF sampleRequest.nodes.len := by decide
  have hheard : HeardOnce sampleEnv sampleRequest.nodes (mixedEvents.map Prod.fst) := by
    unfold HeardOnce
    decide
  obtain ⟨sm, sent, hrun⟩ : ∃ sm sent, sampleRequest.run sampleEnv
      ((.customConsensusRequest "" "1", sampleHost) :: mixedEvents) = .ok (sm, sent) := ⟨_, _, rfl⟩
  exact ⟨sm, sent, hrun, (completed_iff_endsWhen rfl hf (.consensus "" "1") hheard).2 sm sent hrun⟩

/-- A timeout, then three answers that cannot be parsed, for examples. -/
def deniedEvents : List (RequestEvent × Host) :=
  [(.timeout "1" "n1", sampleHost), (.reply "" "n2" "1", sampleHost),
    (.reply "" "n3" "1", sampleHost), (.reply "" "n4" "1", sampleHost)]

/-- One node times out and the others answer what cannot be parsed: the request waits for ever. -/
theorem not_completed_timeout_denials :
    sampleRequest.state = .start ∧ sampleRequest.f = getF sampleRequest.nodes.len ∧
    HeardOnce sampleEnv sampleRequest.nodes (deniedEvents.map Prod.fst) ∧
    ∃ sm sent,
      sampleRequest.run sampleEnv ((.customConsensusRequest "" "1", sampleHost) :: deniedEvents) =
      .ok (sm, sent) ∧ ¬ Completed sampleRequest sm sent := by
  refine ⟨rfl, by decide, ?_, _, _, rfl, ?_⟩
  · unfold HeardOnce
    decide
  · rintro ⟨hfinish, -⟩
    cases hfinish

end SimpleAsset.Indy
