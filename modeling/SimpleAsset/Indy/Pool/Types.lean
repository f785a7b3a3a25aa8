import SimpleAsset.Library.Tally
import SimpleAsset.Library.Order
import SimpleAsset.Indy.Primitive
import SimpleAsset.Indy.Merkle.Tree
import SimpleAsset.Indy.Pool.Json

/-! Messages, events and effects of the pool (`pool/types.rs`, `pool/events.rs`). -/
namespace SimpleAsset.Indy
open SimpleAsset.Library

abbrev CommandHandle := ℤ

/-- Aliases of the pool's nodes with their BLS keys. -/
abbrev Nodes := Table String (Option Bytes)

/-- `nodes.len()`. -/
def Nodes.len (nodes : Nodes) : ℕ := nodes.keys.length

structure RemoteNode where
  name : String
  publicKey : Bytes
  zaddr : String
  isBlacklisted : Bool

structure LedgerStatus where
  txnSeqNo : ℕ
  merkleRoot : String
  ledgerId : ℕ
  ppSeqNo : Option ℕ
  viewNo : Option ℕ
  protocolVersion : Option ℕ

structure ConsistencyProof where
  seqNoEnd : ℕ
  seqNoStart : ℕ
  ledgerId : ℕ
  hashes : List String
  oldMerkleRoot : String
  newMerkleRoot : String

structure CatchupReq where
  ledgerId : ℕ
  seqNoStart : ℕ
  seqNoEnd : ℕ
  catchupTill : ℕ

structure CatchupRep where
  ledgerId : ℕ
  consProof : List String
  txns : Table String Json

inductive NetworkerEvent
  | sendOneRequest (msg reqId : String) (timeout : ℤ)
  | sendAllRequest (msg reqId : String) (timeout : ℤ) (nodes : Option (List String))
  | resend (reqId : String) (timeout : ℤ)
  | nodesStateUpdated (remotes : List RemoteNode)
  | extendTimeout (reqId nodeAlias : String) (timeout : ℤ)
  | cleanTimeout (reqId : String) (nodeAlias : Option String)
  | timeout

inductive PoolEvent
  | checkCache (cmdId : CommandHandle)
  | nodeReply (reply nodeAlias : String)
  | close (cmdId : CommandHandle)
  | refresh (cmdId : CommandHandle)
  | catchupTargetFound (targetMtRoot : Bytes) (targetMtSize : ℕ) (merkle : MerkleTree)
  | catchupRestart (merkle : MerkleTree)
  | catchupTargetNotFound (err : IndyError)
  | poolOutdated
  | synced (merkle : MerkleTree)
  | nodesBlacklisted
  | sendRequest (cmdId : CommandHandle) (request : String) (timeout : Option ℤ)
      (nodes : Option String)
  | timeout (reqId nodeAlias : String)

/-- Events of a request. The parsed form that `Reply` and the acknowledgements also carry is read by
no handler. -/
inductive RequestEvent
  | ledgerStatus (status : LedgerStatus) (nodeAlias : Option String) (merkle : Option MerkleTree)
  | catchupReq (merkle : MerkleTree) (targetMtSize : ℕ) (targetMtRoot : Bytes)
  | timeout (reqId nodeAlias : String)
  | catchupRep (rep : CatchupRep) (nodeAlias : String)
  | customSingleRequest (msg reqId : String) (spKey : Option Bytes)
      (timestamps : Option ℕ × Option ℕ)
  | customConsensusRequest (msg reqId : String)
  | customFullRequest (msg reqId : String) (timeout : Option ℤ) (nodes : Option String)
  | consistencyProof (proof : ConsistencyProof) (nodeAlias : String)
  | reply (rawMsg nodeAlias reqId : String)
  | reqACK (rawMsg nodeAlias reqId : String)
  | reqNACK (rawMsg nodeAlias reqId : String)
  | reject (rawMsg nodeAlias reqId : String)
  | poolLedgerTxns
  | ping
  | pong
  | terminate

def RequestEvent.getReqId : RequestEvent → String
  | customSingleRequest _ id _ _ => id
  | customConsensusRequest _ id => id
  | customFullRequest _ id _ _ => id
  | reply _ _ id => id
  | reqACK _ _ id => id
  | reqNACK _ _ id => id
  | reject _ _ id => id
  | _ => ""

/-- What the state machines tell the network and the commands that wait for them. -/
inductive Effect
  | network (event : NetworkerEvent)
  | submitAck (cmdId : CommandHandle) (res : Except IndyError String)
  | openAck (cmdId : CommandHandle) (res : Except IndyError Unit)
  | refreshAck (cmdId : CommandHandle) (res : Except IndyError Unit)
  | closeAck (cmdId : CommandHandle)

/-- What a node answered to a single request; a set holds one answer of each node. -/
structure NodeResponse where
  rawMsg : String
  timestamp : ℕ

/-- Merkle root, size and consistency proof a node reports. -/
abbrev CatchupVote := String × ℕ × Option (List String)

/-- Functions of other crates, and checks of state proofs, that the request handlers call. -/
structure Env where
  build : Build
  hash : Hash
  fromBase58 : String → Option Bytes
  toBase58 : Bytes → String
  /-- `serde_json::from_str` at `Value` -/
  parseJson : String → Option Json
  /-- `serde_json::from_str` at `Vec<String>` -/
  parseStrings : String → Option (List String)
  jsonToString : Json → String
  /-- `{:?}` at lists of strings -/
  debugStrings : List String → String
  /-- `serde_json::to_string` at `Message::LedgerStatus` -/
  ledgerStatusJson : LedgerStatus → Option String
  /-- `serde_json::to_string` at `Message::CatchupReq` -/
  catchupReqJson : CatchupReq → Option String
  /-- `rmp_serde::to_vec_named` -/
  toVecNamed : Json → Option Bytes
  /-- result of a message that parses as a `Reply` -/
  replyResult : String → Option Json
  /-- `parse_generic_reply_for_proof_checking` and `verify_parsed_sp` -/
  verifyStateProof : Json → ℕ → Nodes → String → Option Bytes → Bool

/-- What a step takes from outside: clock, settings, files, and the order hash tables are read
in. -/
structure Host where
  curTime : ℕ
  freshnessThreshold : ℕ
  responses : Shuffle ((_ : String) × NodeResponse)
  votes : Shuffle (CatchupVote × ℕ)
  /-- `merkle_tree_factory::drop_cache` succeeds -/
  dropCache : Bool
  /-- `merkle_tree_factory::create` -/
  create : Except IndyError MerkleTree
  /-- `merkle_tree_factory::dump_new_txns` -/
  dumpNewTxns : List Bytes → Except IndyError Unit

/-- Text of an answer with this number as its result, for examples. -/
def sampleText (n : ℕ) : String := "\x7b\"result\":" ++ u64ToString n ++ "\x7d"

/-- Parsers that know a few inputs and refuse the others, for examples. -/
def sampleEnv : Env where
  build := .debug
  hash := taggedHash
  fromBase58 s := if s = "14" then some [0, 3] else none
  toBase58 b := if b = [0, 3] then "14" else ""
  parseJson s := ([1, 2, 3, 4].find? fun n => sampleText n = s).map fun n =>
    .object [("result", .number (.posInt n))]
  parseStrings _ := none
  jsonToString _ := ""
  debugStrings _ := ""
  ledgerStatusJson _ := none
  catchupReqJson _ := none
  toVecNamed
    | .number (.posInt n) => if n < 128 then some [UInt8.ofNat n] else none
    | _ => none
  replyResult _ := none
  verifyStateProof _ _ _ _ _ := false

/-- A host whose files can be written, for examples. -/
def sampleHost : Host where
  curTime := 0
  freshnessThreshold := 300
  responses := .id
  votes := .id
  dropCache := true
  create := .ok .default
  dumpNewTxns _ := .ok ()

/-- `_get_f`: how many of the nodes may be faulty. -/
def getF (cnt : ℕ) : ℕ := if cnt < 4 then 0 else (cnt - 1) / 3

theorem three_mul_getF_lt {cnt : ℕ} (h : 0 < cnt) : 3 * getF cnt < cnt := by
  unfold getF
  split <;> omega

/-- `_send_replies`. -/
def sendReplies (cmdIds : List CommandHandle) (res : Except IndyError String) : List Effect :=
  cmdIds.map fun id => .submitAck id res

/-- `_send_ok_replies`. -/
def sendOkReplies (cmdIds : List CommandHandle) (msg : String) : List Effect :=
  sendReplies cmdIds (.ok msg)

/-- `_finish_request`. -/
def finishRequest (cmdIds : List CommandHandle) : List Effect :=
  sendReplies cmdIds (.error ⟨.poolTerminated, "Pool is terminated"⟩)

/-- The answer to a request whose replies cannot agree any more. -/
def consensusImpossible : IndyError := ⟨.poolTimeout, "Consensus is impossible"⟩

/-- `_get_msg_result_without_state_proof`. -/
def getMsgResultWithoutStateProof (env : Env) (msg : String) : Option (Json × Json) := do
  let msg ← env.parseJson msg
  let msgResult := msg.index "result"
  let withoutProof := msgResult.remove "state_proof"
  let withoutProof := if (withoutProof.index "data").isObject
    then withoutProof.modify "data" (Json.remove "stateProofFrom") else withoutProof
  return (msgResult, withoutProof)

/-- The result votes are compared by. -/
def normalResult (env : Env) (msg : String) : Option Json :=
  (getMsgResultWithoutStateProof env msg).map Prod.snd

/-- `get_last_signed_time`. -/
def getLastSignedTime (env : Env) (response : String) : Option ℕ := do
  let result ← env.replyResult response
  match (result.index "ver").asStr with
  | none =>
    ((((result.index "state_proof").index "multi_signature").index "value").index "timestamp").asU64
  | some "1" =>
    ((((result.index "multiSignature").index "signedState").index "stateMetadata").index
      "timestamp").asU64
  | some _ => none

/-- Code of GET_REVOC_REG_DELTA. -/
def getRevocRegDelta : String := "117"

/-- `_extract_left_last_write_time`. -/
def extractLeftLastWriteTime (msgResult : Json) : Option ℕ :=
  if (msgResult.index "type").asStr = some getRevocRegDelta then
    (((((msgResult.index "data").index "stateProofFrom").index "multi_signature").index
      "value").index "timestamp").asU64
  else none

/-- `time <= _get_freshness_threshold() + written` on 64 bits. -/
def isFresh (env : Env) (host : Host) (time written : ℕ) : Outcome Bool := do
  return decide (time ≤ (← addU64 env.build host.freshnessThreshold written))

/-- `_check_freshness`. -/
def checkFreshness (env : Env) (host : Host) (msgResult : Json) (requested : Option ℕ × Option ℕ)
    (lastWriteTime : ℕ) : Outcome Bool := do
  let right := requested.2.getD host.curTime
  match requested.1 with
  | some left =>
    if ← isFresh env host left ((extractLeftLastWriteTime msgResult).getD 0)
    then isFresh env host right lastWriteTime else return false
  | none => isFresh env host right lastWriteTime

/-- `_check_state_proof`. -/
def checkStateProof (env : Env) (host : Host) (msgResult : Json) (f : ℕ) (nodes : Nodes)
    (rawMsg : String) (spKey : Option Bytes) (requested : Option ℕ × Option ℕ) (lastWriteTime : ℕ) :
    Outcome Bool := do
  if env.verifyStateProof msgResult f nodes rawMsg spKey
  then checkFreshness env host msgResult requested lastWriteTime else return false

end SimpleAsset.Indy
