import SimpleAsset.IndyNode.AuthMap
import SimpleAsset.IndyNode.IdrCache
import SimpleAsset.IndyNode.StatePath

/-! NYM transactions: validation, the domain state and the identity cache (`nym_handler.py`,
`idr_cache_nym_handler.py`). -/
namespace SimpleAsset.IndyNode
open SimpleAsset.Indy

/-- The operation of a NYM request. A field may be missing, null or a text. -/
structure NymOperation where
  dest : String
  role : Option (Option String)
  verkey : Option (Option String)
  deriving DecidableEq, Repr

/-- A NYM request, with the number and the time it is given when it is applied. -/
structure NymRequest where
  signed : SignedRequest
  operation : NymOperation
  seqNo : ℕ
  txnTime : Option ℕ
  deriving DecidableEq, Repr

/-- The record of a DID in the domain state. -/
structure NymRecord where
  identifier : Option String
  role : Option String
  verkey : Option String
  seqNo : ℕ
  txnTime : Option ℕ
  deriving DecidableEq, Repr

abbrev NymState := Bytes → Option NymRecord

/-- A transaction as it is on the ledger. -/
structure NymTxn where
  author : Option String
  operation : NymOperation
  seqNo : ℕ
  txnTime : Option ℕ
  deriving DecidableEq, Repr

/-- `_req_to_txn` with the metadata. -/
def NymRequest.txn (req : NymRequest) : NymTxn :=
  ⟨req.signed.identifier, req.operation, req.seqNo, req.txnTime⟩

section UpdateState

variable (sha256 : Bytes → Bytes)

/-- The record that `NymHandler.update_state` writes and returns. -/
def mergedRecord (existing : Option NymRecord) (txn : NymTxn) : NymRecord :=
  let base := existing.getD ⟨txn.author, none, none, txn.seqNo, txn.txnTime⟩
  { base with
    role := txn.operation.role.getD base.role
    verkey := txn.operation.verkey.getD base.verkey
    seqNo := txn.seqNo
    txnTime := txn.txnTime }

/-- `NymHandler.update_state`. -/
def nymUpdateState (s : NymState) (txn : NymTxn) : NymState × NymRecord :=
  let key := makeStatePathForNym sha256 txn.operation.dest
  let record := mergedRecord (s key) txn
  (Function.update s key (some record), record)

/-- `IdrCacheNymHandler.update_state`, given what the handler before it returned. -/
def idrCacheUpdateState (cache : IdrCache) (txn : NymTxn) (prevResult : NymRecord) : IdrCache :=
  cache.set txn.operation.dest
    (IdrCache.packIdrValue txn.seqNo txn.txnTime prevResult.identifier prevResult.role
      prevResult.verkey)

/-- The domain state and the cache. -/
structure NymStores where
  state : NymState
  cache : IdrCache

/-- Both handlers, one after the other. -/
def applyNym (stores : NymStores) (txn : NymTxn) : NymStores :=
  let (state, record) := nymUpdateState sha256 stores.state txn
  ⟨state, idrCacheUpdateState stores.cache txn record⟩

end UpdateState

/-- Why a NYM request is refused. -/
inductive NymError
  | noIdentifier
  | notOnLedger
  | verkeyMissing
  | nothingToUpdate
  | auth (error : AuthError)
  deriving DecidableEq, Repr

section Validation

variable (rules : List (String × Constraint)) (cache : IdrCache) (req : NymRequest)

/-- The validator's verdict on one action. -/
def validateAction (action : AuthAction) : Except NymError Unit :=
  (validate rules cache.getRole req.signed [action]).mapError .auth

/-- `_validate_new_nym`. -/
def validateNewNym : Except NymError Unit :=
  match req.signed.identifier with
  | none => .error .noIdentifier
  | some identifier =>
    let offLedger := (cache.getNym identifier none).isNone
    if offLedger && identifier ≠ req.operation.dest then .error .notOnLedger
    else if offLedger && (req.operation.verkey.join.getD "") = "" then .error .verkeyMissing
    else validateAction rules cache req (.add "1" "role" (req.operation.role.join.getD "") true)

/-- One round of the loop of `_validate_existing_nym`, for a key that may be in the operation. -/
def validateUpdateKey (isOwner : Bool) (field : String) (oldVal : Option String)
    (newVal : Option (Option String)) :
    Except NymError Unit :=
  match newVal with
  | none => .ok ()
  | some newVal =>
    validateAction rules cache req (.edit "1" field (oldVal.getD "") (newVal.getD "") isOwner)

/-- `_validate_existing_nym`. -/
def validateExistingNym (nymData : IdrCache.NymData) : Except NymError Unit := do
  let isOwner : Bool := req.signed.identifier = cache.getOwnerFor req.operation.dest
  validateUpdateKey rules cache req isOwner "role" nymData.role req.operation.role
  validateUpdateKey rules cache req isOwner "verkey" nymData.verkey req.operation.verkey
  if isOwner || req.operation.role.isSome || req.operation.verkey.isSome then return ()
  else throw .nothingToUpdate

/-- `NymHandler.additional_dynamic_validation`. -/
def nymDynamicValidation : Except NymError Unit :=
  match cache.getNym req.operation.dest none with
  | none => validateNewNym rules cache req
  | some nymData => validateExistingNym rules cache req nymData

end Validation

/-- A request that is validated and, when accepted, applied. -/
def nymStep (sha256 : Bytes → Bytes) (rules : List (String × Constraint)) (stores : NymStores)
    (req : NymRequest) :
    NymStores :=
  match nymDynamicValidation rules stores.cache req with
  | .ok _ => applyNym sha256 stores req.txn
  | .error _ => stores

/-- Requests handled one after another. -/
def runNym (sha256 : Bytes → Bytes) (rules : List (String × Constraint)) (stores : NymStores)
    (reqs : List NymRequest) : NymStores :=
  reqs.foldl (nymStep sha256 rules) stores

end SimpleAsset.IndyNode
