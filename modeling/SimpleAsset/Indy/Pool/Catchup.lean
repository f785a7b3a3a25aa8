import SimpleAsset.Indy.Merkle.Append
import SimpleAsset.Indy.Merkle.Consistency
import SimpleAsset.Indy.Pool.Types

/-! Catching up with the pool ledger (`pool/catchup.rs` and `_process_catchup_reply`). -/
namespace SimpleAsset.Indy
open SimpleAsset.Library

inductive CatchupProgress
  | shouldBeStarted (targetMtRoot : Bytes) (targetMtSize : ℕ) (merkle : MerkleTree)
  | notNeeded (merkle : MerkleTree)
  | restart (merkle : MerkleTree)
  | inProgress

variable (env : Env) (host : Host)

/-- `IndyResult` of a file operation as an outcome. -/
def ofResult {α : Type} : Except IndyError α → Outcome α
  | .ok a => .ok a
  | .error e => .error (.err e)

/-- `or_else`, which sees errors but no panics. -/
def orElse {α : Type} (x : Outcome α) (handler : IndyError → Outcome α) : Outcome α :=
  match x with
  | .error (.err e) => handler e
  | x => x

/-- `build_catchup_req`: the request's id and text, `none` when there is nothing to catch up. -/
def buildCatchupReq (merkle : MerkleTree) (targetMtSize : ℕ) : Outcome (Option (String × String)) :=
  if merkle.count ≥ targetMtSize then .ok none
  else
    let seqNoStart := merkle.count + 1
    let reqId := u64ToString seqNoStart ++ u64ToString targetMtSize
    match env.catchupReqJson ⟨0, seqNoStart, targetMtSize, targetMtSize⟩ with
    | some reqJson => .ok (some (reqId, reqJson))
    | none => errMsg .invalidState "Cannot serialize CatchupRequest"

/-- `check_cons_proofs`. -/
def checkConsProofs (mt : MerkleTree) (consProofs : List String) (targetMtRoot : Bytes)
    (targetMtSize : ℕ) :
    Outcome Unit :=
  match consProofs.mapM env.fromBase58 with
  | none => errMsg .invalidStructure "Can't decode node consistency proof"
  | some bytesProofs => do
    if ← mt.consistencyProof env.hash targetMtRoot targetMtSize bytesProofs then return ()
    else errMsg .invalidState "Consistency proof verification failed"

/-- `_try_to_catch_up`. -/
def tryToCatchUp (status : CatchupVote) (merkle : MerkleTree) : Outcome CatchupProgress :=
  let (targetMtRoot, targetMtSize, hashes) := status
  if targetMtSize = merkle.count then
    if env.toBase58 merkle.rootHash = targetMtRoot then .ok (.notNeeded merkle)
    else errMsg .invalidState "Ledger merkle tree is not acceptable for current tree."
  else if targetMtSize > merkle.count then
    match env.fromBase58 targetMtRoot with
    | none => errMsg .invalidStructure "Can't parse target MerkleTree hash from nodes responses"
    | some root => do
      match hashes with
      | none => pure ()
      | some hashes => checkConsProofs env merkle hashes root targetMtSize
      return .shouldBeStarted root targetMtSize merkle
  else errMsg .invalidState "Local merkle tree greater than mt from ledger"

/-- `_try_to_restart_catch_up`. -/
def tryToRestartCatchUp (err : IndyError) : Outcome CatchupProgress :=
  if host.dropCache then do return .restart (← ofResult host.create)
  else .error (.err err)

/-- `_if_consensus_reachable`. -/
def ifConsensusReachable (votes : Tally CatchupVote String Unit) (nodeCnt votesCnt f : ℕ) :
    Outcome CatchupProgress := do
  let sum := votesCnt + (← subU64 env.build nodeCnt votes.total)
  -- `votes_cnt` is a part of `reps_cnt`: the sum passes `2 ^ 64` only after a difference below
  -- zero.
  let positiveVotesCnt := if nodeCnt < votes.total ∧ 2 ^ 64 ≤ sum then sum - 2 ^ 64 else sum
  if positiveVotesCnt < (← subU64 env.build nodeCnt f) then
    tryToRestartCatchUp host ⟨.poolTimeout, "No consensus possible"⟩
  else return .inProgress

/-- `check_nodes_responses_on_status`. -/
def checkNodesResponsesOnStatus (votes : Tally CatchupVote String Unit) (merkle : MerkleTree)
    (nodeCnt f : ℕ) : Outcome CatchupProgress := do
  let mostPopularNotTimeout :=
    maxByKey Prod.snd (host.votes.order (votes.counts.filter fun e => e.1.1 ≠ "timeout"))
  let timeoutVotes := (host.votes.order (votes.counts.filter fun e => e.1.1 = "timeout")).getLast?
  match mostPopularNotTimeout, timeoutVotes with
  | some (mostPopular, votesCnt), _ =>
    if votesCnt = f + 1 then
      orElse (tryToCatchUp env mostPopular merkle) fun err =>
        if host.dropCache then do tryToCatchUp env mostPopular (← ofResult host.create)
        else .error (.err err)
    else ifConsensusReachable env host votes nodeCnt votesCnt f
  | none, some (_, votesCnt) =>
    if votesCnt = (← subU64 env.build nodeCnt f) then
      tryToRestartCatchUp host ⟨.poolTimeout, "Pool timeout"⟩
    else ifConsensusReachable env host votes nodeCnt votesCnt f
  | none, none => return .inProgress

/-- `CatchupRep::min_tx`. -/
def minTx (txns : Table String Json) : Outcome ℕ :=
  match txns.keys.mapM parseU64 with
  | none => errMsg .invalidStructure "Invalid key in catchup reply"
  | some keys =>
    match keys.min? with
    | none => errMsg .invalidStructure "Empty map"
    | some key => .ok key

/-- Loop of `_process_catchup_reply`: the tree with the reply's transactions, and the
transactions. -/
def appendTxns (txns : Table String Json) (merkle : MerkleTree) (txnsToDrop : List Bytes) :
    Outcome (MerkleTree × List Bytes) :=
  if txns.keys = [] then .ok (merkle, txnsToDrop)
  else do
    let key ← minTx txns
    match _hget : txns.lookup (u64ToString key) with
    | none => .error (.panic .unwrapNone)
    | some txn =>
      match env.toVecNamed txn with
      | none => errMsg .invalidStructure "Invalid transaction -- can not transform to bytes"
      | some bytes => do
        let merkle ← merkle.append env.hash bytes
        appendTxns (txns.erase (u64ToString key)) merkle (txnsToDrop ++ [bytes])
termination_by txns.keys.length
decreasing_by
  have hmem : u64ToString key ∈ txns := AList.lookup_isSome.mp (by rw [_hget]; rfl)
  have hkeys : u64ToString key ∈ txns.keys := AList.mem_keys.mp hmem
  rw [AList.keys_erase, List.length_erase_of_mem hkeys]
  have := List.length_pos_of_mem hkeys
  omega

/-- `_process_catchup_reply`. -/
def processCatchupReply (rep : CatchupRep) (merkle : MerkleTree) (targetMtRoot : Bytes)
    (targetMtSize : ℕ) :
    Outcome MerkleTree := do
  let (merkle, txnsToDrop) ← appendTxns env rep.txns merkle []
  checkConsProofs env merkle rep.consProof targetMtRoot targetMtSize
  ofResult (host.dumpNewTxns txnsToDrop)
  return merkle

end SimpleAsset.Indy
