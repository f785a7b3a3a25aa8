import SimpleAsset.Indy.Pool.RequestHandler

/-! The state machine of a pool (`pool/pool.rs`) and its view of events (`pool/events.rs`). -/
namespace SimpleAsset.Indy
open SimpleAsset.Library

/-- A message of a node; of replies and acknowledgements only the id of the request is kept. -/
inductive Message
  | consistencyProof (proof : ConsistencyProof)
  | ledgerStatus (status : LedgerStatus)
  | catchupReq (req : CatchupReq)
  | catchupRep (rep : CatchupRep)
  | reqACK (reqId : ℕ)
  | reqNACK (reqId : ℕ)
  | reply (reqId : ℕ)
  | reject (reqId : ℕ)
  | poolLedgerTxns
  | ping
  | pong

structure PoolEnv extends Env where
  /-- `serde_json::from_str` at `Message` -/
  parseMessage : String → Option Message
  /-- `parse_key_from_request_for_builtin_sp` -/
  parseKeyFromRequest : Json → Option Bytes
  /-- `PoolService::get_sp_parser` knows the operation -/
  hasSpParser : String → Bool
  /-- `_get_nodes_and_remotes` -/
  getNodesAndRemotes : MerkleTree → Except IndyError (Nodes × List RemoteNode)

structure PoolHost extends Host where
  protocolVersion : ℕ
  /-- `merkle_tree_factory::create` before the cache is dropped -/
  createCached : Except IndyError MerkleTree
  handlers : Shuffle ((_ : String) × RequestSM)

/-- `Message::from_raw_str`. -/
def Message.fromRawStr (env : PoolEnv) (str : String) : Option Message :=
  match str with
  | "po" => some .pong
  | "pi" => some .ping
  | _ => env.parseMessage str

def requestsForStateProofs : List String :=
  ["105", "6", "7", "107", "108", "104", "116", "115", getRevocRegDelta, "121", "3"]

def requestForFull : List String := ["118", "119"]

/-- `_parse_timestamp_from_req_for_builtin_sp`. -/
def parseTimestamp (req : Json) (op : String) : Option ℕ × Option ℕ :=
  match op with
  | "3" => (none, some 0)
  | "116" => (none, ((req.index "operation").index "timestamp").asU64)
  | "6" => (none, ((req.index "operation").index "timestamp").asU64)
  | "7" => (none, ((req.index "operation").index "timestamp").asU64)
  | "117" =>
    (((req.index "operation").index "from").asU64, ((req.index "operation").index "to").asU64)
  | _ => (none, none)

/-- `_parse_req_id_and_op`. -/
def parseReqIdAndOp (env : Env) (msg : String) : Option (Json × String × String) := do
  let req ← env.parseJson msg
  let reqId ← (req.index "reqId").asU64
  let op ← ((req.index "operation").index "type").asStr
  return (req, u64ToString reqId, op)

/-- `impl Into<Option<RequestEvent>> for PoolEvent`. -/
def PoolEvent.toRequestEvent (env : PoolEnv) : PoolEvent → Option RequestEvent
  | .nodeReply msg nodeAlias => (Message.fromRawStr env msg).map fun
    | .catchupReq _ => .catchupReq .default 0 []
    | .catchupRep rep => .catchupRep rep nodeAlias
    | .ledgerStatus ls => .ledgerStatus ls (some nodeAlias) none
    | .consistencyProof cp => .consistencyProof cp nodeAlias
    | .reply reqId => .reply msg nodeAlias (u64ToString reqId)
    | .reqACK reqId => .reqACK msg nodeAlias (u64ToString reqId)
    | .reqNACK reqId => .reqNACK msg nodeAlias (u64ToString reqId)
    | .reject reqId => .reject msg nodeAlias (u64ToString reqId)
    | .poolLedgerTxns => .poolLedgerTxns
    | .ping => .ping
    | .pong => .pong
  | .sendRequest _ msg localTimeout nodes =>
    match parseReqIdAndOp env.toEnv msg with
    | none => none
    | some (req, reqId, op) =>
      if op ∈ requestForFull then some (.customFullRequest msg reqId localTimeout nodes)
      else if localTimeout.isSome ∨ nodes.isSome then none
      else if op ∈ requestsForStateProofs then
        some (.customSingleRequest msg reqId (env.parseKeyFromRequest req) (parseTimestamp req op))
      else if env.hasSpParser op then some (.customSingleRequest msg reqId none (none, none))
      else some (.customConsensusRequest msg reqId)
  | .timeout reqId nodeAlias => some (.timeout reqId nodeAlias)
  | _ => none

/-- `process_event` of `RequestHandlerImpl`. -/
def RequestSM.processEvent (env : Env) (host : Host) (sm : RequestSM) :
    Option RequestEvent → Outcome (RequestSM × Option PoolEvent × List Effect)
  | none => .ok (sm, none, [])
  | some re => sm.handleEvent env host re

/-- States `GettingCatchupTarget` and `SyncCatchup` hold the same data. -/
structure CatchingUpState where
  requestHandler : RequestSM
  cmdId : CommandHandle
  refresh : Bool

structure ActiveState where
  requestHandlers : Table String RequestSM
  nodes : Nodes

inductive PoolState
  | initialization
  | gettingCatchupTarget (state : CatchingUpState)
  | active (state : ActiveState)
  | syncCatchup (state : CatchingUpState)
  | terminated
  | closed

structure PoolSM where
  timeout : ℤ
  extendedTimeout : ℤ
  numberReadNodes : ℕ
  state : PoolState

variable (env : PoolEnv) (host : PoolHost) (pool : PoolSM)

namespace PoolSM

def new (timeout extendedTimeout : ℤ) (numberReadNodes : ℕ) : PoolSM :=
  ⟨timeout, extendedTimeout, numberReadNodes, .initialization⟩

def isTerminal : Bool :=
  match pool.state with
  | .closed => true
  | _ => false

/-- `R::new` with the pool's settings. -/
def newHandler (cmdIds : List CommandHandle) (nodes : Nodes) : RequestSM :=
  .new (getF nodes.len) cmdIds nodes pool.timeout pool.extendedTimeout pool.numberReadNodes

end PoolSM

/-- `_ledger_status`. -/
def ledgerStatus (merkle : MerkleTree) : LedgerStatus where
  txnSeqNo := merkle.count
  merkleRoot := env.toBase58 merkle.rootHash
  ledgerId := 0
  ppSeqNo := none
  viewNo := none
  protocolVersion := if host.protocolVersion > 1 then some host.protocolVersion else none

/-- `_send_open_refresh_ack`. -/
def sendOpenRefreshAck (s : CatchingUpState) (res : Except IndyError Unit) : Effect :=
  if s.refresh then .refreshAck s.cmdId res else .openAck s.cmdId res

/-- A handler that has asked the nodes for their ledger status, and what it sent. -/
def askLedgerStatus (merkle : MerkleTree) (nodes : Nodes) (remotes : List RemoteNode) :
    Outcome (RequestSM × List Effect) := do
  let (handler, _, effects) ← (pool.newHandler [] nodes).processEvent env.toEnv host.toHost
    (some (.ledgerStatus (ledgerStatus env host merkle) none (some merkle)))
  return (handler, .network (.nodesStateUpdated remotes) :: effects)

/-- `_get_request_handler_with_ledger_status_sent`. -/
def getRequestHandlerWithLedgerStatusSent : Outcome (RequestSM × List Effect) := do
  let merkle ← ofResult host.createCached
  match env.getNodesAndRemotes merkle with
  | .ok (nodes, remotes) => askLedgerStatus env host pool merkle nodes remotes
  | .error err =>
    if host.dropCache then do
      let merkle ← ofResult host.create
      let (nodes, remotes) ← ofResult (env.getNodesAndRemotes merkle)
      askLedgerStatus env host pool merkle nodes remotes
    else .error (.err err)

/-- `Terminate` for every handler that is left. -/
def terminateHandlers : List ((_ : String) × RequestSM) → Outcome (List Effect)
  | [] => .ok []
  | e :: handlers => do
    let (_, _, effects) ← e.2.processEvent env.toEnv host.toHost (some .terminate)
    let rest ← terminateHandlers handlers
    return effects ++ rest

/-- `Synced` on the way to `Active`. -/
def activate (s : CatchingUpState) (merkle : MerkleTree) : PoolState × List Effect :=
  match env.getNodesAndRemotes merkle with
  | .ok (nodes, remotes) => (.active ⟨∅, nodes⟩,
      [.network (.nodesStateUpdated remotes), sendOpenRefreshAck s (.ok ())])
  | .error _ => (.terminated, [])

/-- Branch `Initialization`. -/
def handleInitialization (pe : PoolEvent) : Outcome (PoolState × List Effect) :=
  match pe with
  | .checkCache cmdId =>
    match getRequestHandlerWithLedgerStatusSent env host pool with
    | .ok (handler, effects) => .ok (.gettingCatchupTarget ⟨handler, cmdId, false⟩, effects)
    | .error (.err e) => .ok (.terminated, [.openAck cmdId (.error e)])
    | .error fault => .error fault
  | .close cmdId => .ok (.closed, [.closeAck cmdId])
  | _ => .ok (.initialization, [])

/-- Branch `GettingCatchupTarget`. -/
def handleGettingCatchupTarget (s : CatchingUpState) (pe : PoolEvent) :
    Outcome (PoolState × List Effect) := do
  let (handler, event, sent) ← s.requestHandler.processEvent env.toEnv host.toHost
      (pe.toRequestEvent env)
  let s := { s with requestHandler := handler }
  match event.getD pe with
  | .close cmdId => do
    let (_, _, effects) ← handler.processEvent env.toEnv host.toHost (some .terminate)
    return (.closed, sent ++ .closeAck cmdId :: effects)
  | .catchupTargetNotFound err => return (.terminated, sent ++ [sendOpenRefreshAck s (.error err)])
  | .catchupRestart merkle =>
    match env.getNodesAndRemotes merkle with
    | .ok (nodes, remotes) => do
      let (handler, effects) ← askLedgerStatus env host pool merkle nodes remotes
      return (.gettingCatchupTarget { s with requestHandler := handler }, sent ++ effects)
    | .error _ => return (.terminated, sent)
  | .catchupTargetFound root size merkle =>
    match env.getNodesAndRemotes merkle with
    | .ok (nodes, remotes) => do
      let (handler, _, effects) ← (pool.newHandler [] nodes).processEvent env.toEnv host.toHost
        (some (.catchupReq merkle size root))
      return (.syncCatchup { s with requestHandler := handler },
        sent ++ .network (.nodesStateUpdated remotes) :: effects)
    | .error _ => return (.terminated, sent)
  | .synced merkle =>
    let (state, effects) := activate env s merkle
    return (state, sent ++ effects)
  | _ => return (.gettingCatchupTarget s, sent)

/-- Branch `Terminated`. -/
def handleTerminated (pe : PoolEvent) : Outcome (PoolState × List Effect) :=
  match pe with
  | .close cmdId => .ok (.closed, [.closeAck cmdId])
  | .refresh cmdId =>
    match getRequestHandlerWithLedgerStatusSent env host pool with
    | .ok (handler, effects) => .ok (.gettingCatchupTarget ⟨handler, cmdId, true⟩, effects)
    | .error (.err _) => .ok (.terminated, [])
    | .error fault => .error fault
  | .timeout reqId _ => .ok (.terminated, if reqId = "" then [.network .timeout] else [])
  | _ => .ok (.terminated, [])

/-- Branch `Active`. -/
def handleActive (s : ActiveState) (pe : PoolEvent) : Outcome (PoolState × List Effect) :=
  match pe with
  | .poolOutdated => .ok (.terminated, [])
  | .close cmdId => do
    let effects ← terminateHandlers env host (host.handlers.order s.requestHandlers.entries)
    return (.closed, .closeAck cmdId :: effects)
  | .refresh cmdId =>
    match getRequestHandlerWithLedgerStatusSent env host pool with
    | .ok (handler, effects) => .ok (.gettingCatchupTarget ⟨handler, cmdId, true⟩, effects)
    | .error (.err _) => .ok (.terminated, [])
    | .error fault => .error fault
  | .sendRequest cmdId _ _ _ =>
    match pe.toRequestEvent env with
    | some re => do
      let (handler, _, effects) ← (pool.newHandler [cmdId] s.nodes).processEvent env.toEnv
          host.toHost (some re)
      return (.active { s with requestHandlers := s.requestHandlers.insert re.getReqId handler },
        effects)
    | none =>
      .ok (.active s, [.submitAck cmdId (.error ⟨.invalidStructure, "Request id not found"⟩)])
  | .nodeReply _ _ =>
    match pe.toRequestEvent env with
    | some re =>
      match s.requestHandlers.lookup re.getReqId with
      | some handler => do
        let (handler, _, effects) ← handler.processEvent env.toEnv host.toHost (some re)
        if handler.isTerminal then
          return (.active { s with requestHandlers := s.requestHandlers.erase re.getReqId },
            effects)
        else return (.active
          { s with requestHandlers := s.requestHandlers.insert re.getReqId handler }, effects)
      | none => .ok (.active s, [])
    | none => .ok (.active s, [])
  | .timeout reqId _ =>
    match s.requestHandlers.lookup reqId with
    | some handler => do
      let (handler, _, effects) ← handler.processEvent env.toEnv host.toHost (pe.toRequestEvent env)
      return (.active { s with requestHandlers := s.requestHandlers.insert reqId handler }, effects)
    | none => .ok (.active s, if reqId = "" then [.network .timeout] else [])
  | _ => .ok (.active s, [])

/-- Branch `SyncCatchup`. -/
def handleSyncCatchup (s : CatchingUpState) (pe : PoolEvent) :
    Outcome (PoolState × List Effect) := do
  let (handler, event, sent) ← s.requestHandler.processEvent env.toEnv host.toHost
      (pe.toRequestEvent env)
  let s := { s with requestHandler := handler }
  match event.getD pe with
  | .close cmdId => do
    let (_, _, effects) ← handler.processEvent env.toEnv host.toHost (some .terminate)
    return (.closed, sent ++ .closeAck cmdId :: effects)
  | .nodesBlacklisted => return (.terminated, sent)
  | .synced merkle =>
    let (state, effects) := activate env s merkle
    return (state, sent ++ effects)
  | _ => return (.syncCatchup s, sent)

namespace PoolSM

def react (pe : PoolEvent) : Outcome (PoolState × List Effect) :=
  match pool.state with
  | .initialization => handleInitialization env host pool pe
  | .gettingCatchupTarget s => handleGettingCatchupTarget env host pool s pe
  | .terminated => handleTerminated env host pool pe
  | .closed => .ok (.closed, [])
  | .active s => handleActive env host pool s pe
  | .syncCatchup s => handleSyncCatchup env host s pe

/-- `handle_event`. -/
def handleEvent (pe : PoolEvent) : Outcome (PoolSM × List Effect) := do
  let (state, effects) ← pool.react env host pe
  return ({ pool with state }, effects)

/-- One event, with what the host had at that moment. -/
def step (pool : PoolSM) (event : PoolEvent × PoolHost) : Outcome (PoolSM × List Effect) :=
  pool.handleEvent env event.2 event.1

/-- State and effects after a sequence of events. -/
def run (pool : PoolSM) (events : List (PoolEvent × PoolHost)) : Outcome (PoolSM × List Effect) :=
  runSteps (step env) pool events

end PoolSM
end SimpleAsset.Indy
