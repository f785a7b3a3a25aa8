import SimpleAsset.Indy.Anoncreds.Domain
import SimpleAsset.Indy.Wallet.NonSecrets

/-! Credential definitions of an issuer (commands/anoncreds/issuer.rs): they are created, their keys
are rotated and credentials are offered with them, while keys are generated on other threads. -/
namespace SimpleAsset.Indy.Anoncreds

def SchemaId.getMethod (id : SchemaId) : Option String := (qualifierCaptures id.value).map Prod.fst

end SimpleAsset.Indy.Anoncreds

namespace SimpleAsset.Indy.IssuerCommandExecutor
open SimpleAsset.Library Wallet Wallet.WalletService
open Anoncreds (DidValue SchemaId CredentialDefinitionId)
open NonSecretsCommandExecutor (NonSecretsCommand)

/-- The parts of a key of ursa. -/
structure ClKeys where
  CredentialDefinitionData : Type
  CredentialPrivateKey : Type
  CredentialKeyCorrectnessProof : Type

inductive SignatureType
  | CL
  deriving DecidableEq, Repr

def SignatureType.toStr : SignatureType → String
  | .CL => "CL"

structure CredentialDefinitionConfig where
  supportRevocation : Bool
  deriving DecidableEq, Repr

def CredentialDefinitionConfig.default : CredentialDefinitionConfig := ⟨false⟩

structure SchemaV1 where
  id : SchemaId
  name : String
  version : String
  /-- A `HashSet`; their order does not count. -/
  attrNames : List String
  seqNo : Option UInt32
  deriving DecidableEq

section Domain
variable (K : ClKeys)

/-- What `new_credential_definition` generates. -/
structure GeneratedKeys where
  data : K.CredentialDefinitionData
  privateKey : K.CredentialPrivateKey
  correctnessProof : K.CredentialKeyCorrectnessProof

structure CredentialDefinitionV1 where
  id : CredentialDefinitionId
  schemaId : SchemaId
  signatureType : SignatureType
  tag : String
  value : K.CredentialDefinitionData

structure CredentialDefinitionPrivateKey where
  value : K.CredentialPrivateKey

structure CredentialDefinitionCorrectnessProof where
  value : K.CredentialKeyCorrectnessProof

structure TemporaryCredentialDefinition where
  credDef : CredentialDefinitionV1 K
  credDefPrivKey : CredentialDefinitionPrivateKey K
  credDefCorrectnessProof : CredentialDefinitionCorrectnessProof K

structure CredentialOffer where
  schemaId : SchemaId
  credDefId : CredentialDefinitionId
  keyCorrectnessProof : K.CredentialKeyCorrectnessProof
  nonce : String
  methodName : Option String

/-- The serializations of what an issuer keeps in a wallet. -/
structure IssuerSerde where
  schema : Serde SchemaV1
  credDef : Serde (CredentialDefinitionV1 K)
  privateKey : Serde (CredentialDefinitionPrivateKey K)
  correctnessProof : Serde (CredentialDefinitionCorrectnessProof K)
  temporary : Serde (TemporaryCredentialDefinition K)
  /-- A text in quotes as a `SignatureType`. -/
  signatureType : String → Except String SignatureType

end Domain

namespace IssuerSerde
variable {K : ClKeys} (J : IssuerSerde K)

def schemaType : ObjectType SchemaV1 := ⟨J.schema, "Schema"⟩

def credDefType : ObjectType (CredentialDefinitionV1 K) := ⟨J.credDef, "CredentialDefinition"⟩

def privateKeyType : ObjectType (CredentialDefinitionPrivateKey K) :=
  ⟨J.privateKey, "CredentialDefinitionPrivateKey"⟩

def correctnessProofType : ObjectType (CredentialDefinitionCorrectnessProof K) :=
  ⟨J.correctnessProof, "CredentialDefinitionCorrectnessProof"⟩

def temporaryType : ObjectType (TemporaryCredentialDefinition K) :=
  ⟨J.temporary, "TemporaryCredentialDefinition"⟩

end IssuerSerde

/-- A command that waits for new keys, as the closure of the thread keeps it. -/
structure PendingCreation where
  schema : SchemaV1
  schemaId : SchemaId
  credDefId : CredentialDefinitionId
  tag : String
  signatureType : SignatureType
  supportRevocation : Bool
  cb : ℕ
  deriving DecidableEq

/-- The same for a rotation. -/
structure PendingRotation where
  schemaId : SchemaId
  credDefId : CredentialDefinitionId
  tag : String
  signatureType : SignatureType
  attrNames : List String
  supportRevocation : Bool
  cb : ℕ
  deriving DecidableEq

section Commands
variable {K : ClKeys} (J : IssuerSerde K)

/-- `.to_indy(IndyErrorKind::InvalidStructure, "Invalid Signature Type format")?`. -/
def parseSignatureType (type : Option String) : IndyResult SignatureType :=
  match type with
  | none => .ok .CL
  | some type =>
    NonSecretsCommandExecutor.ofSerde "Invalid Signature Type format" (J.signatureType type)

/-- The schema with an id that goes with the DID. -/
def qualifySchema (issuerDid : DidValue) (schema : SchemaV1) : IndyResult SchemaV1 :=
  match issuerDid.getMethod, schema.id.getMethod with
  | none, some _ =>
    .error ⟨.invalidStructure, "You can't use unqualified Did with fully qualified Schema"⟩
  | some method, none => .ok { schema with id := schema.id.qualify method }
  | _, _ => .ok schema

/-- `_prepare_create_and_store_credential_definition`. -/
def prepareCreation (node13 : Bool) (issuerDid : DidValue) (schema : SchemaV1) (tag : String)
    (type : Option String)
    (config : Option CredentialDefinitionConfig) (cb : ℕ) : IndyResult PendingCreation := do
  let schema ← qualifySchema issuerDid schema
  let signatureType ← parseSignatureType J type
  let schemaId := match schema.seqNo with
    | some seqNo => ⟨toString seqNo.toNat⟩
    | none => schema.id
  let credDefId := CredentialDefinitionId.new node13 issuerDid schemaId signatureType.toStr tag
  pure ⟨schema, schemaId, credDefId, tag, signatureType,
    (config.getD .default).supportRevocation, cb⟩

/-- `_complete_create_and_store_credential_definition`. -/
def completeCreation (p : PendingCreation) (keys : GeneratedKeys K) : InWallet String := do
  let id := p.credDefId.value
  let credDefJson ← addIndyObject J.credDefType id
      ⟨p.credDefId, p.schemaId, p.signatureType, p.tag, keys.data⟩
  let _ ← addIndyObject J.privateKeyType id ⟨keys.privateKey⟩
  let _ ← addIndyObject J.correctnessProofType id ⟨keys.correctnessProof⟩
  -- The schema may be there already; the result is not looked at.
  let _ ← Stateful.attempt (addIndyObject J.schemaType p.schemaId.value p.schema)
  WalletService.addRecord (addPrefix "SchemaId") id p.schema.id.value ∅
  pure credDefJson

/-- `rotate_credential_definition_start` up to the keys: the definition that is prepared already, or
what to prepare. -/
def startRotation (credDefId : CredentialDefinitionId)
    (config : Option CredentialDefinitionConfig) (cb : ℕ) :
    InWallet (String ⊕ PendingRotation) := do
  let credDef ← getIndyObject J.credDefType credDefId.value
  match ← Stateful.attempt (getIndyObject J.temporaryType credDefId.value) with
  | .ok tempCredDef => pure (.inl (J.credDef.toJson tempCredDef.credDef))
  | .error _ =>
    let schema ← getIndyObject J.schemaType credDef.schemaId.value
    let supportRevocation := (config.map CredentialDefinitionConfig.supportRevocation).getD false
    pure (.inr ⟨credDef.schemaId, credDef.id, credDef.tag, credDef.signatureType, schema.attrNames,
      supportRevocation, cb⟩)

/-- `_rotate_credential_definition_start_complete`. -/
def completeRotation (p : PendingRotation) (keys : GeneratedKeys K) : InWallet String := do
  let credDef : CredentialDefinitionV1 K :=
    ⟨p.credDefId, p.schemaId, p.signatureType, p.tag, keys.data⟩
  let credDefJson := J.credDef.toJson credDef
  let _ ← addIndyObject J.temporaryType p.credDefId.value
      ⟨credDef, ⟨keys.privateKey⟩, ⟨keys.correctnessProof⟩⟩
  pure credDefJson

/-- `rotate_credential_definition_apply`. -/
def applyRotation (credDefId : CredentialDefinitionId) : InWallet Unit := do
  let _ ← getIndyObject J.credDefType credDefId.value
  let tempCredDef ← getIndyObject J.temporaryType credDefId.value
  let _ ← updateIndyObject J.credDefType credDefId.value tempCredDef.credDef
  let _ ← updateIndyObject J.privateKeyType credDefId.value tempCredDef.credDefPrivKey
  let _ ← updateIndyObject J.correctnessProofType credDefId.value
      tempCredDef.credDefCorrectnessProof
  deleteIndyRecord J.temporaryType credDefId.value

/-- `_wallet_get_schema_id`. -/
def walletGetSchemaId (key : String) : InWallet SchemaId := do
  let record ← getRecord (addPrefix "SchemaId") key RecordOptions.idValue
  match record.value with
  | some id => pure ⟨id⟩
  | none => throw (.err ⟨.invalidStructure, "SchemaId not found for id: " ++ key⟩)

/-- The result of a function of ursa. -/
def ofUrsa {α : Type} : IndyResult α → InWallet α
  | .ok a => pure a
  | .error e => throw (.err e)

def createCredentialOffer (credDefId : CredentialDefinitionId) (nonce : IndyResult String) :
    InWallet (CredentialOffer K) := do
  let correctnessProof ← getIndyObject J.correctnessProofType credDefId.value
  let nonce ← ofUrsa nonce
  let schemaId ← walletGetSchemaId credDefId.value
  pure ⟨schemaId, credDefId, correctnessProof.value, nonce, none⟩

end Commands

section Executor
variable (K : ClKeys)

/-- What a callback is called with, and about which credential definition. -/
inductive Told
  | created (credDefId : CredentialDefinitionId) (credDefJson : String)
  | rotationStarted (credDefId : CredentialDefinitionId) (credDefJson : String)
  | rotationApplied (credDefId : CredentialDefinitionId)
  | offered (offer : CredentialOffer K)
  | failed (err : IndyError)

/-- An `i32` of `next_command_handle`. -/
abbrev CommandHandle := BitVec 32

structure Executor where
  wallet : RecordMap
  /-- `pending_str_str_callbacks`, with the keys that are being generated. -/
  creations : Table CommandHandle PendingCreation
  /-- `pending_str_callbacks`, in the same way. -/
  rotations : Table CommandHandle PendingRotation
  nextId : CommandHandle
  told : List (ℕ × Told K)
  /-- Whether the thread of the commands has panicked. -/
  dead : Bool

inductive IssuerEvent
  /-- With `node13` for `ProtocolVersion::is_node_1_3()` at that time. -/
  | createCredDef (node13 : Bool) (issuerDid : DidValue) (schema : SchemaV1) (tag : String)
      (type : Option String)
    (config : Option CredentialDefinitionConfig) (cb : ℕ)
  /-- A thread has generated the keys of a creation. -/
  | createCredDefContinue (cbId : CommandHandle) (result : IndyResult (GeneratedKeys K))
  | rotateStart (credDefId : CredentialDefinitionId)
      (config : Option CredentialDefinitionConfig) (cb : ℕ)
  /-- A thread has generated the keys of a rotation. -/
  | rotateStartComplete (cbId : CommandHandle) (result : IndyResult (GeneratedKeys K))
  | rotateApply (credDefId : CredentialDefinitionId) (cb : ℕ)
  | createCredentialOffer (credDefId : CredentialDefinitionId) (nonce : IndyResult String) (cb : ℕ)
  /-- A command of the application on the wallet. -/
  | wallet (command : NonSecretsCommand)

namespace Executor
variable {K}

def new (wallet : RecordMap) : Executor K := ⟨wallet, ∅, ∅, 1, [], false⟩

def tell (s : Executor K) (cb : ℕ) (told : Told K) : Executor K :=
  { s with told := s.told ++ [(cb, told)] }

/-- An error goes to the callback, a panic ends the thread. -/
def fail (s : Executor K) (cb : ℕ) : Fault → Executor K
  | .err e => s.tell cb (.failed e)
  | _ => { s with dead := true }

/-- Runs on the wallet, and goes on with the result. -/
def onWallet {α : Type} (s : Executor K) (cb : ℕ) (f : InWallet α)
    (next : Executor K → α → Executor K) : Executor K :=
  match f.runOn s.wallet with
  | (.ok a, wallet) => next { s with wallet } a
  | (.error fault, wallet) => { s with wallet }.fail cb fault

variable (J : IssuerSerde K) (like : String → String → Bool)

/-- `create_and_store_credential_definition`. -/
def createCredDef (s : Executor K) (node13 : Bool) (issuerDid : DidValue) (schema : SchemaV1)
    (tag : String)
    (type : Option String) (config : Option CredentialDefinitionConfig) (cb : ℕ) : Executor K :=
  match prepareCreation J node13 issuerDid schema tag type config cb with
  | .error e => s.tell cb (.failed e)
  | .ok p =>
    match ((getIndyRecordValue J.credDefType p.credDefId.value RecordOptions.idValue).runOn
      s.wallet).1 with
    | .ok credDef => s.tell cb (.created p.credDefId credDef)
    | .error _ => { s with creations := s.creations.insert s.nextId p, nextId := s.nextId + 1 }

/-- `_create_and_store_credential_definition_continue`. -/
def createCredDefContinue (s : Executor K) (cbId : CommandHandle)
    (result : IndyResult (GeneratedKeys K)) : Executor K :=
  match s.creations.lookup cbId with
  -- `.expect("FIXME INVALID STATE")`
  | none => { s with dead := true }
  | some p =>
    let s := { s with creations := s.creations.erase cbId }
    match result with
    | .error e => s.tell p.cb (.failed e)
    | .ok keys => s.onWallet p.cb (completeCreation J p keys) fun s credDefJson =>
        s.tell p.cb (.created p.credDefId credDefJson)

/-- `rotate_credential_definition_start`. -/
def rotateStart (s : Executor K) (credDefId : CredentialDefinitionId)
    (config : Option CredentialDefinitionConfig) (cb : ℕ) : Executor K :=
  s.onWallet cb (startRotation J credDefId config cb) fun s started =>
    match started with
    | .inl credDefJson => s.tell cb (.rotationStarted credDefId credDefJson)
    | .inr p => { s with rotations := s.rotations.insert s.nextId p, nextId := s.nextId + 1 }

/-- `rotate_credential_definition_start_complete`. -/
def rotateStartComplete (s : Executor K) (cbId : CommandHandle)
    (result : IndyResult (GeneratedKeys K)) : Executor K :=
  match s.rotations.lookup cbId with
  -- `.expect("FIXME INVALID STATE")`
  | none => { s with dead := true }
  | some p =>
    let s := { s with rotations := s.rotations.erase cbId }
    match result with
    | .error e => s.tell p.cb (.failed e)
    | .ok keys => s.onWallet p.cb (completeRotation J p keys) fun s credDefJson =>
        s.tell p.cb (.rotationStarted p.credDefId credDefJson)

/-- `IssuerCommandExecutor::execute`. -/
def process (s : Executor K) : IssuerEvent K → Executor K
  | .createCredDef node13 issuerDid schema tag type config cb =>
    s.createCredDef J node13 issuerDid schema tag type config cb
  | .createCredDefContinue cbId result => s.createCredDefContinue J cbId result
  | .rotateStart credDefId config cb => s.rotateStart J credDefId config cb
  | .rotateStartComplete cbId result => s.rotateStartComplete J cbId result
  | .rotateApply credDefId cb =>
    s.onWallet cb (applyRotation J credDefId) fun s _ => s.tell cb (.rotationApplied credDefId)
  | .createCredentialOffer credDefId nonce cb =>
    s.onWallet cb (createCredentialOffer J credDefId nonce) fun s offer =>
      s.tell cb (.offered offer)
  | .wallet command =>
    { s with wallet := (NonSecretsCommandExecutor.executeOnMap like s.wallet command).2 }

/-- One event; nothing is done after the thread died. -/
def step (s : Executor K) (event : IssuerEvent K) : Executor K :=
  if s.dead then s else s.process J like event

end Executor

end Executor

end SimpleAsset.Indy.IssuerCommandExecutor
