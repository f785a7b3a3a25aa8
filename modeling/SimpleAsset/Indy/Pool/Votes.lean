import SimpleAsset.Indy.Pool.RequestHandler

/-! What one event does to the votes of a ledger request. -/
namespace SimpleAsset.Indy
open SimpleAsset.Library

/-- What an event tells about a node: an answer with its result, an answer without one, or
silence. -/
inductive Ballot
  | result (node msg : String) (result : Json)
  | denial (node : String)
  | timeout (node : String)
  deriving DecidableEq

/-- `Reply`, `ReqNACK` and `Reject` are counted alike. -/
def answerBallot (env : Env) (msg node : String) : Ballot :=
  match normalResult env msg with
  | some result => .result node msg result
  | none => .denial node

def RequestEvent.ballot (env : Env) : RequestEvent → Option Ballot
  | .reply msg node _ => some (answerBallot env msg node)
  | .reqNACK msg node _ => some (answerBallot env msg node)
  | .reject msg node _ => some (answerBallot env msg node)
  | .timeout _ node => some (.timeout node)
  | _ => none

theorem normalResult_of_answerBallot {env : Env} {msg msg' node node' : String} {v : Json}
    (h : answerBallot env msg node = .result node' msg' v) :
    msg = msg' ∧ node = node' ∧ normalResult env msg = some v := by
  unfold answerBallot at h
  split at h
  · rename_i hv
    simp only [Ballot.result.injEq] at h
    exact ⟨h.2.1, h.1, by rw [hv, h.2.2]⟩
  · cases h

/-- Answers to commands among the effects. -/
def submitAcks (effects : List Effect) : List (CommandHandle × Except IndyError String) :=
  effects.filterMap fun
    | .submitAck cmdId res => some (cmdId, res)
    | _ => none

@[simp] theorem submitAcks_nil : submitAcks [] = [] := rfl

@[simp] theorem submitAcks_network (e : NetworkerEvent) (effects : List Effect) :
    submitAcks (.network e :: effects) = submitAcks effects := rfl

@[simp] theorem submitAcks_append (l l' : List Effect) :
    submitAcks (l ++ l') = submitAcks l ++ submitAcks l' :=
  List.filterMap_append

@[simp] theorem submitAcks_sendReplies (cmdIds : List CommandHandle)
    (res : Except IndyError String) :
    submitAcks (sendReplies cmdIds res) = cmdIds.map fun id => (id, res) := by
  unfold submitAcks sendReplies
  induction cmdIds with
  | nil => rfl
  | cons id cmdIds ih => simp

theorem mem_submitAcks {effects : List Effect} {cmdId : CommandHandle}
    {res : Except IndyError String} :
    (cmdId, res) ∈ submitAcks effects ↔ .submitAck cmdId res ∈ effects := by
  unfold submitAcks
  rw [List.mem_filterMap]
  constructor
  · intro ⟨e, he, h⟩
    cases e <;> simp_all
  · intro h
    exact ⟨_, h, rfl⟩

namespace RequestSM
variable {env : Env} {host : Host} {sm sm' : RequestSM} {re : RequestEvent} {effects : List Effect}

theorem step_inv (h : sm.step env (re, host) = .ok (sm', effects)) :
    ∃ r, sm.react env host re = .ok r ∧ sm' = { sm with state := r.state } ∧
      effects = r.effects := by
  obtain ⟨⟨sm₁, event, effects₁⟩, hev, hret⟩ := except_bind_eq_ok.mp h
  obtain ⟨r, hr, hret'⟩ := except_bind_eq_ok.mp hev
  cases hret
  cases hret'
  exact ⟨r, hr, rfl, rfl⟩

theorem step_params {e : RequestEvent × Host} (h : sm.step env e = .ok (sm', effects)) :
    sm'.f = sm.f ∧ sm'.nodes = sm.nodes ∧ sm'.cmdIds = sm.cmdIds := by
  obtain ⟨r, -, rfl, -⟩ := step_inv h
  exact ⟨rfl, rfl, rfl⟩

/-- Answers sent in a run; none if it was cut short. -/
def answers (env : Env) (sm : RequestSM) (events : List (RequestEvent × Host)) :
    Option (List (CommandHandle × Except IndyError String)) :=
  match sm.run env events with
  | .ok (_, effects) => some (submitAcks effects)
  | .error _ => none

theorem exists_step_of_answers {events : List (RequestEvent × Host)} {e : RequestEvent × Host}
    {l : List (CommandHandle × Except IndyError String)} (hbefore : sm.answers env events = some [])
    (hafter : sm.answers env (events ++ [e]) = some l) :
    ∃ sm₁ sent sm₂ effects, sm.run env events = .ok (sm₁, sent) ∧
      sm₁.step env e = .ok (sm₂, effects) ∧
      submitAcks effects = l := by
  unfold answers at hbefore hafter
  split at hafter
  · rename_i sm₂ out hrun
    obtain ⟨sm₁, sent, effects, hpre, hstep, rfl⟩ := runSteps_concat_iff.mp hrun
    have hpre' : sm.run env events = .ok (sm₁, sent) := hpre
    rw [hpre', Option.some.injEq] at hbefore
    rw [submitAcks_append, hbefore, List.nil_append, Option.some.injEq] at hafter
    exact ⟨sm₁, sent, sm₂, effects, hpre, hstep, hafter⟩
  · cases hafter

/-- What cut a run short. -/
def fault (env : Env) (sm : RequestSM) (events : List (RequestEvent × Host)) : Option Fault :=
  match sm.run env events with
  | .ok _ => none
  | .error x => some x

theorem exists_step_of_fault {events : List (RequestEvent × Host)}
    {e : RequestEvent × Host} {x : Fault}
    (hbefore : sm.fault env events = none) (hafter : sm.fault env (events ++ [e]) = some x) :
    ∃ sm₁ sent, sm.run env events = .ok (sm₁, sent) ∧ sm₁.step env e = .error x := by
  unfold fault at hbefore hafter
  split at hbefore
  · rename_i r hrun
    split at hafter
    · cases hafter
    · rename_i y hrun'
      cases hafter
      exact ⟨r.1, r.2, hrun, step_error_of_runSteps hrun hrun'⟩
  · cases hbefore

end RequestSM

/-- A request to four nodes of which one may be faulty, for examples. -/
def sampleRequest : RequestSM :=
  .new 1 [7]
    ((((∅ : Nodes).insert "n1" none).insert "n2" none).insert "n3" none |>.insert "n4" none) 20 60 2

/-- The same answer to all commands of a request, or none yet. -/
def ackAll (cmdIds : List CommandHandle) : Option (Except IndyError String) →
    List (CommandHandle × Except IndyError String)
  | none => []
  | some res => cmdIds.map fun id => (id, res)

theorem eq_some_of_mem_ackAll {cmdIds : List CommandHandle}
    {answer : Option (Except IndyError String)}
    {cmdId : CommandHandle} {res : Except IndyError String}
    (h : (cmdId, res) ∈ ackAll cmdIds answer) :
    answer = some res := by
  cases answer with
  | none => simp [ackAll] at h
  | some res' =>
    obtain ⟨id, -, heq⟩ := List.mem_map.mp h
    cases heq
    rfl

/-- The answer of a request that the pool cuts off. -/
def terminated : IndyError := ⟨.poolTerminated, "Pool is terminated"⟩

def ConsensusState.record (s : ConsensusState) : Ballot → ConsensusState
  | .result node _ v => { s with replies := s.replies.vote v node () }
  | .denial node => { s with deniedNodes := insert node s.deniedNodes }
  | .timeout node => { s with timeoutNodes := insert node s.timeoutNodes }

/-- Without underflow the test compares `f` with the votes the best result can still have. -/
theorem ConsensusState.isConsensusReachable_of_le (env : Env) {s : ConsensusState} (f : ℕ) {n : ℕ}
    (h : s.replies.total + s.timeoutNodes.card + s.deniedNodes.card ≤ s.replies.maxCount + n) :
    s.isConsensusReachable env f n =
      .ok (decide (f < s.replies.maxCount +
        n - s.replies.total - s.timeoutNodes.card - s.deniedNodes.card)) := by
  unfold ConsensusState.isConsensusReachable
  rw [subU64_of_le _ (by omega), except_ok_bind, subU64_of_le _ (by omega), except_ok_bind,
    subU64_of_le _ (by omega), except_ok_bind, except_pure]

/-- Whether the request waits for more answers once the ballot is recorded. -/
def ConsensusState.goesOn (env : Env) (sm : RequestSM) (s : ConsensusState) : Ballot → Outcome Bool
  | .denial _ => .ok (decide (s.deniedNodes.card + s.replies.keys.length ≠ sm.nodes.len))
  | _ => s.isConsensusReachable env sm.f sm.nodes.len

/-- No result has more than `f` votes by this ballot. -/
def Ballot.Undecided (b : Ballot) (f : ℕ) (count : Json → ℕ) : Prop :=
  match b with
  | .result _ _ v => count v ≤ f
  | _ => True

/-- Next state and answer of a request in state `Consensus`. -/
inductive ConsensusStep (env : Env) (sm : RequestSM) (s : ConsensusState) (re : RequestEvent) :
    RequestState → Option (Except IndyError String) → Prop
  | agree {node msg : String} {v : Json} (hb : re.ballot env = some (.result node msg v))
      (hcount : sm.f < (s.record (.result node msg v)).replies.count v) :
      ConsensusStep env sm s re .finish (some (.ok msg))
  | wait {b : Ballot} (hb : re.ballot env = some b)
      (hcount : b.Undecided sm.f fun v => (s.record b).replies.count v)
      (hgo : (s.record b).goesOn env sm b = .ok true) :
      ConsensusStep env sm s re (.consensus (s.record b)) none
  | fail {b : Ballot} (hb : re.ballot env = some b)
      (hcount : b.Undecided sm.f fun v => (s.record b).replies.count v)
      (hgo : (s.record b).goesOn env sm b = .ok false) :
      ConsensusStep env sm s re .finish (some (.error consensusImpossible))
  | terminate (hre : re = .terminate) : ConsensusStep env sm s re .finish (some (.error terminated))
  | idle (hb : re.ballot env = none) : ConsensusStep env sm s re (.consensus s) none

def SingleState.record (env : Env) (s : SingleState) : Ballot → SingleState
  | .result node msg v => { s with
      timeoutNodes := s.timeoutNodes.erase node
      replies := s.replies.vote v node ⟨msg, (getLastSignedTime env msg).getD 0⟩ }
  | .denial node => { s with
      timeoutNodes := s.timeoutNodes.erase node
      deniedNodes := insert node s.deniedNodes }
  | .timeout node => { s with timeoutNodes := insert node s.timeoutNodes }

@[simp] theorem SingleState.record_spKey (env : Env) (s : SingleState) (b : Ballot) :
    (s.record env b).spKey = s.spKey := by cases b <;> rfl

@[simp] theorem SingleState.record_timestamps (env : Env) (s : SingleState) (b : Ballot) :
    (s.record env b).timestamps = s.timestamps := by cases b <;> rfl

/-- The message passes `_check_state_proof` as an answer to this request. -/
def PassesStateProof (env : Env) (host : Host) (f : ℕ) (nodes : Nodes) (spKey : Option Bytes)
    (timestamps : Option ℕ × Option ℕ) (msg : String) : Prop :=
  ∃ result rest, getMsgResultWithoutStateProof env msg = some (result, rest) ∧
    checkStateProof env host result f nodes msg spKey timestamps
    ((getLastSignedTime env msg).getD 0) = .ok true

/-- Next state and answer of a request in state `Single`. -/
inductive SingleStep (env : Env) (host : Host) (sm : RequestSM) (s : SingleState)
    (re : RequestEvent) :
    RequestState → Option (Except IndyError String) → Prop
  | agree {node msg : String} {v : Json} (hb : re.ballot env = some (.result node msg v))
      (hcount : sm.f < (s.record env (.result node msg v)).replies.count v) :
      SingleStep env host sm s re .finish
        (some (.ok (soonestMsg host ((s.record env (.result node msg v)).replies.ballots v) msg)))
  | proof {node msg : String} {v : Json} (hb : re.ballot env = some (.result node msg v))
      (hproof : PassesStateProof env host sm.f sm.nodes s.spKey s.timestamps msg) :
      SingleStep env host sm s re .finish (some (.ok msg))
  | wait {b : Ballot} (hb : re.ballot env = some b)
      (hcount : b.Undecided sm.f fun v => (s.record env b).replies.count v)
      (hgo : (s.record env b).isConsensusReachable sm.nodes.len = true) :
      SingleStep env host sm s re (.single (s.record env b)) none
  | fail {b : Ballot} (hb : re.ballot env = some b)
      (hcount : b.Undecided sm.f fun v => (s.record env b).replies.count v)
      (hgo : (s.record env b).isConsensusReachable sm.nodes.len = false) :
      SingleStep env host sm s re .finish (some (.error consensusImpossible))
  | terminate (hre : re = .terminate) : SingleStep env host sm s re .finish
      (some (.error terminated))
  | idle (hb : re.ballot env = none) : SingleStep env host sm s re (.single s) none

variable {env : Env} {host : Host} {sm : RequestSM} {re : RequestEvent} {r : Reaction}

theorem consensusReply_inv {s : ConsensusState} {msg node reqId : String}
    (hb : re.ballot env = some (answerBallot env msg node))
    (h : consensusReply env sm s msg node reqId = .ok r) :
    ∃ answer, ConsensusStep env sm s re r.state answer ∧
      submitAcks r.effects = ackAll sm.cmdIds answer ∧
      r.event = none := by
  unfold consensusReply at h
  unfold answerBallot at hb
  split at h
  · rename_i v hv
    rw [hv] at hb
    dsimp only at h
    split at h
    · rename_i hcount
      cases h
      exact ⟨_, .agree hb hcount, by simp [sendOkReplies, ackAll], rfl⟩
    · rename_i hcount
      obtain ⟨go, hgo, h⟩ := except_bind_eq_ok.mp h
      cases go with
      | true =>
        cases h
        exact ⟨_, .wait hb (Nat.le_of_not_lt hcount) hgo, rfl, rfl⟩
      | false =>
        cases h
        exact ⟨_, .fail hb (Nat.le_of_not_lt hcount) hgo, by simp [ackAll], rfl⟩
  · rename_i hv
    rw [hv] at hb
    dsimp only at h
    split at h
    · rename_i hall
      cases h
      refine ⟨_, .fail hb trivial ?_, by simp [ackAll], rfl⟩
      simp [ConsensusState.goesOn, ConsensusState.record, hall]
    · rename_i hall
      cases h
      refine ⟨_, .wait hb trivial ?_, rfl, rfl⟩
      simp [ConsensusState.goesOn, ConsensusState.record, hall]

/-- Every event on a request in state `Consensus` is one of these steps. -/
theorem handleConsensus_inv {s : ConsensusState} (h : handleConsensus env sm s re = .ok r) :
    ∃ answer, ConsensusStep env sm s re r.state answer ∧
      submitAcks r.effects = ackAll sm.cmdIds answer ∧
      r.event = none := by
  unfold handleConsensus at h
  split at h
  · exact consensusReply_inv rfl h
  · exact consensusReply_inv rfl h
  · exact consensusReply_inv rfl h
  · cases h
    exact ⟨_, .idle rfl, rfl, rfl⟩
  · rename_i reqId node
    obtain ⟨go, hgo, h⟩ := except_bind_eq_ok.mp h
    cases go with
    | true =>
      cases h
      exact ⟨_, .wait (b := .timeout node) rfl trivial hgo, rfl, rfl⟩
    | false =>
      cases h
      exact ⟨_, .fail (b := .timeout node) rfl trivial hgo, by simp [ackAll], rfl⟩
  · cases h
    exact ⟨_, .terminate rfl, by simp [finishRequest, ackAll, terminated], rfl⟩
  · cases h
    refine ⟨_, .idle ?_, rfl, rfl⟩
    cases re <;> simp_all [RequestEvent.ballot]

theorem tryToContinue_inv {s : SingleState} {s' : SingleState} {reqId node : String} {b : Ballot}
    (hb : re.ballot env = some b) (hs : s' = s.record env b)
    (hcount : b.Undecided sm.f fun v => (s.record env b).replies.count v) :
    ∃ answer, SingleStep env host sm s re (s'.tryToContinue sm reqId node).state answer ∧
      submitAcks (s'.tryToContinue sm reqId node).effects = ackAll sm.cmdIds answer ∧
      (s'.tryToContinue sm reqId node).event = none := by
  subst hs
  unfold SingleState.tryToContinue
  split
  · rename_i hgo
    exact ⟨_, .wait hb hcount hgo, rfl, rfl⟩
  · rename_i hgo
    exact ⟨_, .fail hb hcount (by simpa using hgo), by simp [ackAll], rfl⟩

theorem singleReply_inv {s : SingleState} {msg node reqId : String}
    (hb : re.ballot env = some (answerBallot env msg node))
    (h : singleReply env host sm s msg node reqId = .ok r) :
    ∃ answer, SingleStep env host sm s re r.state answer ∧
      submitAcks r.effects = ackAll sm.cmdIds answer ∧
      r.event = none := by
  unfold singleReply at h
  dsimp only at h
  split at h
  · rename_i result v hv
    have hnormal : normalResult env msg = some v := by rw [normalResult, hv]; rfl
    rw [answerBallot, hnormal] at hb
    split at h
    · rename_i hcount
      cases h
      exact ⟨_, .agree hb hcount, by simp [sendOkReplies, ackAll, SingleState.record], rfl⟩
    · rename_i hcount
      obtain ⟨passed, hpassed, h⟩ := except_bind_eq_ok.mp h
      cases passed with
      | true =>
        cases h
        exact ⟨_, .proof hb ⟨result, v, hv, hpassed⟩, by simp [sendOkReplies, ackAll], rfl⟩
      | false =>
        cases h
        exact tryToContinue_inv hb rfl (Nat.le_of_not_lt hcount)
  · rename_i hv
    have hnormal : normalResult env msg = none := by rw [normalResult, hv]; rfl
    rw [answerBallot, hnormal] at hb
    cases h
    exact tryToContinue_inv hb rfl trivial

/-- Every event on a request in state `Single` is one of these steps. -/
theorem handleSingle_inv {s : SingleState} (h : handleSingle env host sm s re = .ok r) :
    ∃ answer, SingleStep env host sm s re r.state answer ∧
      submitAcks r.effects = ackAll sm.cmdIds answer ∧
      r.event = none := by
  unfold handleSingle at h
  split at h
  · exact singleReply_inv rfl h
  · exact singleReply_inv rfl h
  · exact singleReply_inv rfl h
  · cases h
    exact ⟨_, .idle rfl, rfl, rfl⟩
  · cases h
    exact tryToContinue_inv rfl rfl trivial
  · cases h
    exact ⟨_, .terminate rfl, by simp [finishRequest, ackAll, terminated], rfl⟩
  · cases h
    refine ⟨_, .idle ?_, rfl, rfl⟩
    cases re <;> simp_all [RequestEvent.ballot]

end SimpleAsset.Indy
