import SimpleAsset.Indy.Wallet.NonSecrets
import SimpleAsset.Indy.Dids.DidObjects

/-! Commands about DIDs, keys and pairwise connections (commands/did.rs, crypto.rs, pairwise.rs) on
an open wallet. -/
namespace SimpleAsset.Indy.Dids
open SimpleAsset.Library Crypto Wallet Wallet.WalletService
open Anoncreds (DidValue)

/-- The error of the kind `DIDAlreadyExists`. -/
structure DidAlreadyExists where
  message : String
  deriving DecidableEq, Repr

/-- The `?` on a result that has nothing to do with the wallet. -/
def lift {α : Type} : IndyResult α → InWallet α
  | .ok a => pure a
  | .error e => throw (.err e)

section Commands
variable (S : Sodium) (T : Crypto.Codecs) (D : SeedCodecs) (J : DidSerde)

def walletGetMyDid (myDid : DidValue) : InWallet Did := getIndyObject J.didType myDid.value

def walletGetTheirDid (theirDid : DidValue) : InWallet TheirDid :=
  getIndyObject J.theirDidType theirDid.value

def createAndStoreMyDid (random : BytesOf 32) (myDidInfo : MyDidInfo) :
    InWallet (Except DidAlreadyExists (String × String)) := do
  let (did, key) ← lift (createMyDid S T D random myDidInfo)
  match ← Stateful.attempt (walletGetMyDid J did.did) with
  | .ok currentDid =>
    if did.verkey = currentDid.verkey then pure (.ok (did.did.value, did.verkey))
    else pure (.error
      ⟨"DID \"" ++ did.did.value ++ "\" already exists but with different Verkey. " ++
      "You should specify Seed used for initial generation"⟩)
  | .error _ =>
    let _ ← addIndyObject J.didType did.did.value did
    -- The result for the key is not looked at: another DID may have it.
    let _ ← Stateful.attempt (addIndyObject J.keyType key.verkey key)
    pure (.ok (did.did.value, did.verkey))

def replaceKeysStart (random : BytesOf 32) (keyInfo : KeyInfo) (myDid : DidValue) :
    InWallet String := do
  let myDid ← walletGetMyDid J myDid
  let temporaryKey ← lift (createKeyOf S T D random keyInfo)
  let myTemporaryDid : TemporaryDid := ⟨myDid.did, temporaryKey.verkey⟩
  let _ ← addIndyObject J.keyType temporaryKey.verkey temporaryKey
  let _ ← addIndyObject J.temporaryDidType myTemporaryDid.did.value myTemporaryDid
  pure myTemporaryDid.verkey

def replaceKeysApply (myDid : DidValue) : InWallet Unit := do
  let myDid ← walletGetMyDid J myDid
  let myTemporaryDid ← getIndyObject J.temporaryDidType myDid.did.value
  let myDid := Did.ofTemporary myTemporaryDid
  let _ ← updateIndyObject J.didType myDid.did.value myDid
  deleteIndyRecord J.temporaryDidType myDid.did.value

def storeTheirDid (theirDidInfo : TheirDidInfo) : InWallet Unit := do
  let theirDid ← lift (createTheirDid T theirDidInfo)
  let _ ← upsertIndyObject J.theirDidType theirDid.did.value theirDid
  pure ()

def getMyDidWithMeta (myDid : DidValue) : InWallet DidWithMeta := do
  let did ← getIndyObject J.didType myDid.value
  let metadata ← getIndyOptObject J.didMetadataType did.did.value
  let tempVerkey ← getIndyOptObject J.temporaryDidType did.did.value
  pure ⟨did.did, did.verkey, tempVerkey.map (·.verkey), metadata.map (·.value)⟩

/-- My DID or theirs. -/
def keyForLocalDid (did : DidValue) : InWallet String := do
  match ← Stateful.attempt (walletGetMyDid J did) with
  | .ok myDid => pure myDid.verkey
  | .error fault =>
    if isNotFound (.error fault : Outcome Did) then do
      let theirDid ← walletGetTheirDid J did
      pure theirDid.verkey
    else throw fault

/-- The check of a transport key, if there is one. -/
def validateTransportKey (endpoint : Endpoint) : IndyResult Unit :=
  match endpoint.verkey with
  | some transportKey => validateKey T transportKey
  | none => .ok ()

def setEndpointForDid (did : DidValue) (endpoint : Endpoint) : InWallet Unit := do
  lift (validateTransportKey T endpoint)
  let _ ← upsertIndyObject J.endpointType did.value endpoint
  pure ()

def setDidMetadata (did : DidValue) (metadata : String) : InWallet Unit := do
  let _ ← upsertIndyObject J.didMetadataType did.value ⟨metadata⟩
  pure ()

/-- `update_dependent_entity_reference`. -/
def updateDependentEntityReference {α : Type} (type : ObjectType α) (id newId : String) :
    InWallet Unit := do
  match ← Stateful.attempt (getIndyRecordValue type id RecordOptions.idValue) with
  | .ok record =>
    deleteIndyRecord type id
    addRecord (addPrefix type.name) newId record ∅
  | .error _ => pure ()

/-- The pairwise connections of a DID, one after another. -/
def movePairwise (did newDid : DidValue) : List String → InWallet Unit
  | [] => pure ()
  | name :: names => do
    let pairwise ← getIndyObject J.pairwiseType name
    if pairwise.myDid = did then
      let _ ← updateIndyObject J.pairwiseType pairwise.theirDid.value
          { pairwise with myDid := newDid }
      movePairwise did newDid names
    else movePairwise did newDid names

/-- The temporary DID of a DID, if there is one. -/
def moveTemporaryDid (did newDid : DidValue) : InWallet Unit := do
  match ← Stateful.attempt (getIndyObject J.temporaryDidType did.value) with
  | .ok tempDid =>
    deleteIndyRecord J.temporaryDidType did.value
    let _ ← addIndyObject J.temporaryDidType newDid.value { tempDid with did := newDid }
    pure ()
  | .error _ => pure ()

def qualifyDid (did : DidValue) (method : String) : InWallet String := do
  let currDid ← getIndyObject J.didType did.value
  let newDid := newDidValue did.toUnqualified.value (some method)
  deleteIndyRecord J.didType did.value
  let _ ← addIndyObject J.didType newDid.value ⟨newDid, currDid.verkey⟩
  moveTemporaryDid J did newDid
  updateDependentEntityReference J.didMetadataType did.value newDid.value
  updateDependentEntityReference J.endpointType did.value newDid.value
  let pairwise ← searchIndyRecords J.pairwiseType
  movePairwise J did newDid pairwise
  pure newDid.value

/-- `create_key` of crypto.rs. -/
def createKeyCommand (random : BytesOf 32) (keyInfo : KeyInfo) : InWallet String := do
  let key ← lift (createKeyOf S T D random keyInfo)
  let _ ← addIndyObject J.keyType key.verkey key
  pure key.verkey

def setKeyMetadata (verkey metadata : String) : InWallet Unit := do
  lift (validateKey T verkey)
  let _ ← upsertIndyObject J.keyMetadataType verkey ⟨metadata⟩
  pure ()

def createPairwise (theirDid myDid : DidValue) (metadata : Option String) : InWallet Unit := do
  let _ ← getRecord (addPrefix J.didType.name) myDid.value RecordOptions.id
  let _ ← getRecord (addPrefix J.theirDidType.name) theirDid.value RecordOptions.id
  let _ ← addIndyObject J.pairwiseType theirDid.value ⟨myDid, theirDid, metadata⟩
  pure ()

def setPairwiseMetadata (theirDid : DidValue) (metadata : Option String) : InWallet Unit := do
  let pairwise ← getIndyObject J.pairwiseType theirDid.value
  let _ ← updateIndyObject J.pairwiseType theirDid.value { pairwise with metadata := metadata }
  pure ()

/-- What a reply to GET_NYM says about a DID, if it is on the ledger. -/
abbrev NymReply := Option (String × Option String)

def theirDidInfoOf (did : DidValue) : NymReply → IndyResult TheirDidInfo
  | some (dest, verkey) => .ok ⟨qualifyShort dest did.getMethod, verkey⟩
  | none => .error ⟨.walletItemNotFound, "Their DID isn't found on the ledger"⟩

/-- `_get_nym_ack`. -/
def getNymAck (did : DidValue) (getNymReplyResult : IndyResult NymReply) : InWallet Unit := do
  let getNymReply ← lift getNymReplyResult
  let theirDidInfo ← lift (theirDidInfoOf did getNymReply)
  let theirDid ← lift (createTheirDid T theirDidInfo)
  let _ ← addIndyObject J.theirDidType theirDid.did.value theirDid
  pure ()

/-- `_get_attrib_ack`, of the DID and the endpoint in a reply to GET_ATTR. -/
def getAttribAck (getAttribReplyResult : IndyResult (String × Endpoint)) : InWallet Unit := do
  let (did, endpoint) ← lift getAttribReplyResult
  let _ ← addIndyObject J.endpointType did endpoint
  pure ()

variable {S} in
/-- `crypto_sign`. -/
def cryptoSign (E : Ed25519 S) (myVk : String) (msg : Bytes) : InWallet Bytes := do
  lift (validateKey T myVk)
  let key ← getIndyObject J.keyType myVk
  lift (sign E T key msg)

/-- What changes a wallet: the commands, the replies of the ledger that it waits for, and the
application. -/
inductive WalletEvent
  | createAndStoreMyDid (random : BytesOf 32) (myDidInfo : MyDidInfo)
  | replaceKeysStart (random : BytesOf 32) (keyInfo : KeyInfo) (myDid : DidValue)
  | replaceKeysApply (myDid : DidValue)
  | storeTheirDid (theirDidInfo : TheirDidInfo)
  | setEndpointForDid (did : DidValue) (endpoint : Endpoint)
  | setDidMetadata (did : DidValue) (metadata : String)
  | qualifyDid (did : DidValue) (method : String)
  | getNymAck (did : DidValue) (getNymReplyResult : IndyResult NymReply)
  | getAttribAck (getAttribReplyResult : IndyResult (String × Endpoint))
  | createKey (random : BytesOf 32) (keyInfo : KeyInfo)
  | setKeyMetadata (verkey metadata : String)
  | createPairwise (theirDid myDid : DidValue) (metadata : Option String)
  | setPairwiseMetadata (theirDid : DidValue) (metadata : Option String)
  | nonSecrets (command : NonSecretsCommandExecutor.NonSecretsCommand)

/-- The wallet after an event. -/
def handle (like : String → String → Bool) (m : RecordMap) : WalletEvent → RecordMap
  | .createAndStoreMyDid random myDidInfo =>
    ((createAndStoreMyDid S T D J random myDidInfo).runOn m).2
  | .replaceKeysStart random keyInfo myDid =>
    ((replaceKeysStart S T D J random keyInfo myDid).runOn m).2
  | .replaceKeysApply myDid => ((replaceKeysApply J myDid).runOn m).2
  | .storeTheirDid theirDidInfo => ((storeTheirDid T J theirDidInfo).runOn m).2
  | .setEndpointForDid did endpoint => ((setEndpointForDid T J did endpoint).runOn m).2
  | .setDidMetadata did metadata => ((setDidMetadata J did metadata).runOn m).2
  | .qualifyDid did method => ((qualifyDid J did method).runOn m).2
  | .getNymAck did getNymReplyResult => ((getNymAck T J did getNymReplyResult).runOn m).2
  | .getAttribAck getAttribReplyResult => ((getAttribAck J getAttribReplyResult).runOn m).2
  | .createKey random keyInfo => ((createKeyCommand S T D J random keyInfo).runOn m).2
  | .setKeyMetadata verkey metadata => ((setKeyMetadata T J verkey metadata).runOn m).2
  | .createPairwise theirDid myDid metadata =>
    ((createPairwise J theirDid myDid metadata).runOn m).2
  | .setPairwiseMetadata theirDid metadata => ((setPairwiseMetadata J theirDid metadata).runOn m).2
  | .nonSecrets command => (NonSecretsCommandExecutor.executeOnMap like m command).2

/-- A wallet that was new before these events. -/
def walletAfterEvents (like : String → String → Bool) (events : List WalletEvent) : RecordMap :=
  events.foldl (handle S T D J like) ∅

end Commands

end SimpleAsset.Indy.Dids
