import SimpleAsset.Library.Runs
import SimpleAsset.Indy.Pool.Catchup

/-! The state machine of one request (`pool/request_handler.rs`). -/
namespace SimpleAsset.Indy
open SimpleAsset.Library

structure SingleState where
  deniedNodes : Finset String
  replies : Tally Json String NodeResponse
  timeoutNodes : Finset String
  spKey : Option Bytes
  timestamps : Option ℕ × Option ℕ

structure ConsensusState where
  deniedNodes : Finset String
  replies : Tally Json String Unit
  timeoutNodes : Finset String

structure CatchupSingleState where
  targetMtRoot : Bytes
  targetMtSize : ℕ
  merkle : MerkleTree
  reqId : String

structure CatchupConsensusState where
  replies : Tally CatchupVote String Unit
  merkle : MerkleTree

structure FullState where
  /-- fields of the JSON object that collects the answers -/
  accumReply : Option (List (String × Json))
  nodesToSend : Option (List String)

inductive RequestState
  | start
  | single (state : SingleState)
  | consensus (state : ConsensusState)
  | catchupSingle (state : CatchupSingleState)
  | catchupConsensus (state : CatchupConsensusState)
  | full (state : FullState)
  | finish

structure RequestSM where
  f : ℕ
  cmdIds : List CommandHandle
  nodes : Nodes
  timeout : ℤ
  extendedTimeout : ℤ
  numberReadNodes : ℕ
  state : RequestState

/-- What a handler does with an event: the next state, an event for the pool, and effects. -/
structure Reaction where
  state : RequestState
  event : Option PoolEvent
  effects : List Effect

namespace RequestSM

def new (f : ℕ) (cmdIds : List CommandHandle) (nodes : Nodes) (timeout extendedTimeout : ℤ)
    (numberReadNodes : ℕ) : RequestSM :=
  ⟨f, cmdIds, nodes, timeout, extendedTimeout, numberReadNodes, .start⟩

def isTerminal (sm : RequestSM) : Bool :=
  match sm.state with
  | .finish => true
  | _ => false

end RequestSM

variable (env : Env) (host : Host) (sm : RequestSM)

def SingleState.isConsensusReachable (s : SingleState) (totalNodesCnt : ℕ) : Bool :=
  s.timeoutNodes.card + s.deniedNodes.card + s.replies.total < totalNodesCnt

def SingleState.tryToContinue (s : SingleState) (reqId nodeAlias : String) : Reaction :=
  if s.isConsensusReachable sm.nodes.len then
    ⟨.single s, none, [.network (.resend reqId sm.timeout), .network (.resend reqId sm.timeout),
      .network (.cleanTimeout reqId (some nodeAlias))]⟩
  else
    ⟨.finish, none, sendReplies sm.cmdIds (.error consensusImpossible) ++
      [.network (.cleanTimeout reqId none)]⟩

/-- `max_no + total_nodes_cnt - rep_no - timeout_nodes - denied_nodes > f`. -/
def ConsensusState.isConsensusReachable (s : ConsensusState) (f totalNodesCnt : ℕ) :
    Outcome Bool := do
  let left ← subU64 env.build (s.replies.maxCount + totalNodesCnt) s.replies.total
  let left ← subU64 env.build left s.timeoutNodes.card
  let left ← subU64 env.build left s.deniedNodes.card
  return decide (left > f)

/-- Branch `Start`. -/
def handleStart (re : RequestEvent) : Outcome Reaction :=
  match re with
  | .ledgerStatus ls _ (some merkle) =>
    match env.ledgerStatusJson ls with
    | none => .error (.panic .unwrapNone)
    | some msg => .ok ⟨.catchupConsensus ⟨∅, merkle⟩, none,
        [.network (.sendAllRequest msg ls.merkleRoot sm.extendedTimeout none)]⟩
  | .catchupReq merkle targetMtSize targetMtRoot =>
    match buildCatchupReq env merkle targetMtSize with
    | .ok (some (reqId, reqJson)) =>
      .ok ⟨.catchupSingle ⟨targetMtRoot, targetMtSize, merkle, reqId⟩, none,
        [.network (.sendOneRequest reqJson reqId sm.timeout)]⟩
    | .ok none => .ok ⟨.finish, some (.synced merkle), []⟩
    | .error (.err e) => .ok ⟨.finish, none, sendReplies sm.cmdIds (.error e)⟩
    | .error fault => .error fault
  | .customSingleRequest msg reqId spKey timestamps => do
    let resends ← subU8 env.build sm.numberReadNodes 1
    return ⟨.single ⟨∅, ∅, ∅, spKey, timestamps⟩, none,
      .network (.sendOneRequest msg reqId sm.timeout) ::
        List.replicate resends (.network (.resend reqId sm.timeout))⟩
  | .customFullRequest msg reqId localTimeout nodesToSend =>
    let timeout := localTimeout.getD sm.extendedTimeout
    match nodesToSend with
    | none => .ok ⟨.full ⟨none, none⟩, none, [.network (.sendAllRequest msg reqId timeout none)]⟩
    | some nodesToSend =>
      match env.parseStrings nodesToSend with
      | none => .ok ⟨.finish, none,
          sendReplies sm.cmdIds (.error ⟨.invalidStructure, "Invalid list of nodes to send"⟩)⟩
      | some nodesToSend =>
        if nodesToSend ≠ [] ∧ ∀ node ∈ nodesToSend, node ∈ sm.nodes then
          .ok ⟨.full ⟨none, some nodesToSend⟩, none,
            [.network (.sendAllRequest msg reqId timeout (some nodesToSend))]⟩
        else .ok ⟨.finish, none, sendReplies sm.cmdIds (.error ⟨.invalidStructure,
          "There is no known node in list to send " ++ env.debugStrings nodesToSend ++
            ", known nodes are " ++ env.debugStrings sm.nodes.keys⟩)⟩
  | .customConsensusRequest msg reqId =>
    .ok ⟨.consensus ⟨∅, ∅, ∅⟩, none, [.network (.sendAllRequest msg reqId sm.timeout none)]⟩
  | _ => .ok ⟨.start, none, []⟩

/-- Branch `Consensus` for `Reply`, `ReqNACK` and `Reject`. -/
def consensusReply (s : ConsensusState) (rawMsg nodeAlias reqId : String) : Outcome Reaction :=
  match normalResult env rawMsg with
  | some result => do
    let s := { s with replies := s.replies.vote result nodeAlias () }
    if s.replies.count result > sm.f then
      return ⟨.finish, none, sendOkReplies sm.cmdIds rawMsg ++
        [.network (.cleanTimeout reqId none)]⟩
    else if ← s.isConsensusReachable env sm.f sm.nodes.len then
      return ⟨.consensus s, none, [.network (.cleanTimeout reqId (some nodeAlias))]⟩
    else
      return ⟨.finish, none, sendReplies sm.cmdIds (.error consensusImpossible) ++
        [.network (.cleanTimeout reqId none)]⟩
  | none =>
    let s := { s with deniedNodes := insert nodeAlias s.deniedNodes }
    if s.deniedNodes.card + s.replies.keys.length = sm.nodes.len then
      .ok ⟨.finish, none, sendReplies sm.cmdIds (.error consensusImpossible)⟩
    else .ok ⟨.consensus s, none, []⟩

/-- Branch `Consensus`. -/
def handleConsensus (s : ConsensusState) (re : RequestEvent) : Outcome Reaction :=
  match re with
  | .reply rawMsg nodeAlias reqId => consensusReply env sm s rawMsg nodeAlias reqId
  | .reqNACK rawMsg nodeAlias reqId => consensusReply env sm s rawMsg nodeAlias reqId
  | .reject rawMsg nodeAlias reqId => consensusReply env sm s rawMsg nodeAlias reqId
  | .reqACK _ nodeAlias reqId =>
    .ok ⟨.consensus s, none, [.network (.extendTimeout reqId nodeAlias sm.extendedTimeout)]⟩
  | .timeout reqId nodeAlias => do
    let s := { s with timeoutNodes := insert nodeAlias s.timeoutNodes }
    if ← s.isConsensusReachable env sm.f sm.nodes.len then
      return ⟨.consensus s, none, [.network (.cleanTimeout reqId (some nodeAlias))]⟩
    else
      return ⟨.finish, none, sendReplies sm.cmdIds (.error consensusImpossible) ++
        [.network (.cleanTimeout reqId none)]⟩
  | .terminate => .ok ⟨.finish, none, finishRequest sm.cmdIds⟩
  | _ => .ok ⟨.consensus s, none, []⟩

/-- Message of the response with the latest time; the caller passes a set that is not empty. -/
def soonestMsg (responses : Table String NodeResponse) (rawMsg : String) : String :=
  match maxByKey (fun e : (_ : String) × NodeResponse => e.2.timestamp)
    (host.responses.order responses.entries) with
  | some e => e.2.rawMsg
  | none => rawMsg

/-- Branch `Single` for `Reply`, `ReqNACK` and `Reject`. -/
def singleReply (s : SingleState) (rawMsg nodeAlias reqId : String) : Outcome Reaction :=
  let s := { s with timeoutNodes := s.timeoutNodes.erase nodeAlias }
  match getMsgResultWithoutStateProof env rawMsg with
  | some (result, resultWithoutProof) => do
    let lastWriteTime := (getLastSignedTime env rawMsg).getD 0
    let s :=
      { s with replies := s.replies.vote resultWithoutProof nodeAlias ⟨rawMsg, lastWriteTime⟩ }
    if s.replies.count resultWithoutProof > sm.f then
      return ⟨.finish, none, .network (.cleanTimeout reqId none) ::
        sendOkReplies sm.cmdIds (soonestMsg host (s.replies.ballots resultWithoutProof) rawMsg)⟩
    else if ← checkStateProof env host result sm.f sm.nodes rawMsg s.spKey s.timestamps
      lastWriteTime then
      return ⟨.finish, none, .network (.cleanTimeout reqId none) :: sendOkReplies sm.cmdIds rawMsg⟩
    else return s.tryToContinue sm reqId nodeAlias
  | none =>
    let s := { s with deniedNodes := insert nodeAlias s.deniedNodes }
    .ok (s.tryToContinue sm reqId nodeAlias)

/-- Branch `Single`. -/
def handleSingle (s : SingleState) (re : RequestEvent) : Outcome Reaction :=
  match re with
  | .reply rawMsg nodeAlias reqId => singleReply env host sm s rawMsg nodeAlias reqId
  | .reqNACK rawMsg nodeAlias reqId => singleReply env host sm s rawMsg nodeAlias reqId
  | .reject rawMsg nodeAlias reqId => singleReply env host sm s rawMsg nodeAlias reqId
  | .reqACK _ nodeAlias reqId =>
    .ok ⟨.single s, none, [.network (.extendTimeout reqId nodeAlias sm.extendedTimeout)]⟩
  | .timeout reqId nodeAlias =>
    let s := { s with timeoutNodes := insert nodeAlias s.timeoutNodes }
    .ok (s.tryToContinue sm reqId nodeAlias)
  | .terminate => .ok ⟨.finish, none, finishRequest sm.cmdIds⟩
  | _ => .ok ⟨.single s, none, []⟩

/-- `_process_catchup_target`: the votes with this one, whether the request is finished, and an
event. -/
def processCatchupTarget (s : CatchupConsensusState) (vote : CatchupVote) (nodeAlias : String) :
    Outcome (CatchupConsensusState × Bool × Option PoolEvent) :=
  let s := { s with replies := s.replies.vote vote nodeAlias () }
  match checkNodesResponsesOnStatus env host s.replies s.merkle sm.nodes.len sm.f with
  | .ok .inProgress => .ok (s, false, none)
  | .ok (.notNeeded merkle) => .ok (s, true, some (.synced merkle))
  | .ok (.restart merkle) => .ok (s, false, some (.catchupRestart merkle))
  | .ok (.shouldBeStarted root size merkle) =>
    .ok (s, true, some (.catchupTargetFound root size merkle))
  | .error (.err e) => .ok (s, true, some (.catchupTargetNotFound e))
  | .error fault => .error fault

/-- `_catchup_target_handle_consensus_state`. -/
def catchupTargetHandleConsensusState (s : CatchupConsensusState) (vote : CatchupVote)
    (nodeAlias reqId : String) : Outcome Reaction := do
  let (s, finished, event) ← processCatchupTarget env host sm s vote nodeAlias
  if finished then return ⟨.finish, event, [.network (.cleanTimeout reqId none)]⟩
  else match event with
    | some (.catchupRestart merkle) =>
      return ⟨.catchupConsensus s, some (.catchupRestart merkle),
        [.network (.cleanTimeout reqId none)]⟩
    | event =>
      return ⟨.catchupConsensus s, event, [.network (.cleanTimeout reqId (some nodeAlias))]⟩

/-- Branch `CatchupConsensus`. -/
def handleCatchupConsensus (s : CatchupConsensusState) (re : RequestEvent) : Outcome Reaction :=
  match re with
  | .ledgerStatus ls (some nodeAlias) _ =>
    catchupTargetHandleConsensusState env host sm s
      (ls.merkleRoot, ls.txnSeqNo, none) nodeAlias ls.merkleRoot
  | .consistencyProof cp nodeAlias =>
    catchupTargetHandleConsensusState env host sm s
      (cp.newMerkleRoot, cp.seqNoEnd, some cp.hashes) nodeAlias cp.oldMerkleRoot
  | .timeout reqId nodeAlias =>
    catchupTargetHandleConsensusState env host sm s ("timeout", 0, none) nodeAlias reqId
  | .terminate => .ok ⟨.finish, none, finishRequest sm.cmdIds⟩
  | _ => .ok ⟨.catchupConsensus s, none, []⟩

/-- Branch `CatchupSingle`. -/
def handleCatchupSingle (s : CatchupSingleState) (re : RequestEvent) : Outcome Reaction :=
  match re with
  | .catchupRep cr nodeAlias =>
    match processCatchupReply env host cr s.merkle s.targetMtRoot s.targetMtSize with
    | .ok merkle => .ok ⟨.finish, some (.synced merkle), [.network (.cleanTimeout s.reqId none)]⟩
    | .error (.err _) => .ok ⟨.catchupSingle s, none, [.network (.resend s.reqId sm.timeout),
        .network (.cleanTimeout s.reqId (some nodeAlias))]⟩
    | .error fault => .error fault
  | .timeout reqId nodeAlias => .ok ⟨.catchupSingle s, none, [.network (.resend s.reqId sm.timeout),
      .network (.cleanTimeout reqId (some nodeAlias))]⟩
  | .terminate => .ok ⟨.finish, none, finishRequest sm.cmdIds⟩
  | _ => .ok ⟨.catchupSingle s, none, []⟩

/-- `_full_request_handle_consensus_state`. -/
def fullRequestHandleConsensusState (s : FullState)
    (reqId nodeAlias nodeResult : String) : Reaction :=
  let accum := match s.accumReply with
    | none => [(nodeAlias, Json.string nodeResult)]
    | some fields => Json.insertField nodeAlias (.string nodeResult) fields
  let requiredReplyCnt := (s.nodesToSend.map List.length).getD sm.nodes.len
  if accum.length = requiredReplyCnt then
    ⟨.finish, none, .network (.cleanTimeout reqId none) ::
      sendOkReplies sm.cmdIds (env.jsonToString (.object accum))⟩
  else ⟨.full { s with accumReply := some accum }, none,
    [.network (.cleanTimeout reqId (some nodeAlias))]⟩

/-- Branch `Full`. -/
def handleFull (s : FullState) (re : RequestEvent) : Reaction :=
  match re with
  | .reply rawMsg nodeAlias reqId => fullRequestHandleConsensusState env sm s reqId nodeAlias rawMsg
  | .reqNACK rawMsg nodeAlias reqId =>
    fullRequestHandleConsensusState env sm s reqId nodeAlias rawMsg
  | .reject rawMsg nodeAlias reqId =>
    fullRequestHandleConsensusState env sm s reqId nodeAlias rawMsg
  | .timeout reqId nodeAlias => fullRequestHandleConsensusState env sm s reqId nodeAlias "timeout"
  | .terminate => ⟨.finish, none, finishRequest sm.cmdIds⟩
  | _ => ⟨.full s, none, []⟩

namespace RequestSM

def react (re : RequestEvent) : Outcome Reaction :=
  match sm.state with
  | .start => handleStart env sm re
  | .consensus s => handleConsensus env sm s re
  | .single s => handleSingle env host sm s re
  | .catchupConsensus s => handleCatchupConsensus env host sm s re
  | .catchupSingle s => handleCatchupSingle env host sm s re
  | .full s => .ok (handleFull env sm s re)
  | .finish => .ok ⟨.finish, none, []⟩

/-- `handle_event`. -/
def handleEvent (re : RequestEvent) : Outcome (RequestSM × Option PoolEvent × List Effect) := do
  let r ← sm.react env host re
  return ({ sm with state := r.state }, r.event, r.effects)

/-- One event, with what the host had at that moment. -/
def step (sm : RequestSM) (event : RequestEvent × Host) : Outcome (RequestSM × List Effect) := do
  let (sm, _, effects) ← sm.handleEvent env event.2 event.1
  return (sm, effects)

/-- State and effects after a sequence of events. -/
def run (sm : RequestSM) (events : List (RequestEvent × Host)) :
    Outcome (RequestSM × List Effect) :=
  runSteps (step env) sm events

end RequestSM
end SimpleAsset.Indy
