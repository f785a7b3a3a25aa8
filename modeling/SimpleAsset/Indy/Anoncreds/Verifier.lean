import Mathlib.Data.Finset.Union
import SimpleAsset.Indy.Anoncreds.Restriction

/-! `Verifier::verify` (verifier.rs), with ursa as a parameter. -/
namespace SimpleAsset.Indy.Anoncreds
open SimpleAsset.Library

/-- A predicate as `SubProofRequestBuilder::add_predicate` stores it. -/
structure SubProofPredicate where
  attrName : String
  pType : PredicateTypes
  value : ℤ
  deriving DecidableEq

/-- `ursa::cl::SubProofRequest`. -/
structure SubProofRequest where
  revealedAttrs : Finset String
  predicates : Finset SubProofPredicate
  deriving DecidableEq

/-- `VerifiableCredential` of ursa: what is added to the proof verifier for one sub-proof. -/
structure VerifiableCredential (PublicKey RevocationKey Registry : Type) where
  subProofRequest : SubProofRequest
  credentialSchema : Finset String
  pubKey : PublicKey
  revKeyPub : Option RevocationKey
  revReg : Option Registry

/-- What the verifier uses of ursa. -/
structure Ursa where
  Nonce : Type
  CredentialPrimaryPublicKey : Type
  CredentialRevocationPublicKey : Type
  CredentialPublicKey : Type
  RevocationKeyPublic : Type
  RevocationRegistry : Type
  SubProof : Type
  AggregatedProof : Type
  buildFromParts : CredentialPrimaryPublicKey → Option CredentialRevocationPublicKey →
    IndyResult CredentialPublicKey
  /-- `SubProof::revealed_attrs`. -/
  revealedAttrs : SubProof → IndyResult (Table String String)
  /-- `BigNumber::from_dec`. -/
  fromDec : String → IndyResult ℤ
  /-- The checks of `ProofVerifier::add_sub_proof_request`. -/
  addSubProofRequest : VerifiableCredential CredentialPublicKey RevocationKeyPublic
    RevocationRegistry → IndyResult Unit
  /-- `ProofVerifier::verify`: the sub-proofs, the aggregated proof, what was added for each of
  them, the nonce. -/
  verify : List SubProof → AggregatedProof →
    List (VerifiableCredential CredentialPublicKey RevocationKeyPublic RevocationRegistry) → Nonce →
    IndyResult Bool

abbrev Ursa.AddedSubProof (U : Ursa) : Type :=
  VerifiableCredential U.CredentialPublicKey U.RevocationKeyPublic U.RevocationRegistry

section
variable (U : Ursa)

structure CryptoProof where
  proofs : List U.SubProof
  aggregatedProof : U.AggregatedProof

structure Proof where
  proof : CryptoProof U
  requestedProof : RequestedProof
  identifiers : List Identifier

structure SchemaV1 where
  attrNames : Finset String

structure CredentialDefinitionData where
  primary : U.CredentialPrimaryPublicKey
  revocation : Option U.CredentialRevocationPublicKey

/-- What a proof is checked against: the maps that `verify` is given. -/
structure LedgerObjects where
  schemas : Table SchemaId SchemaV1
  credDefs : Table CredentialDefinitionId (CredentialDefinitionData U)
  revRegDefs : Table RevocationRegistryId U.RevocationKeyPublic
  revRegs : Table RevocationRegistryId (Table ℕ U.RevocationRegistry)

end

/-- Iteration orders of the value maps that the checks of restrictions build, by referent. -/
structure ValueOrders where
  ofAttribute : String → Shuffle ((_ : String) × Option String)
  ofPredicate : String → Shuffle ((_ : String) × Option String)

section Helpers
variable (lc : Lowercase)

/-- `names` of `build_sub_proof_request`: the one name, or else all names of the group. -/
def AttributeInfo.allNames (attr : AttributeInfo) : Option (List String) :=
  match attr.name with
  | some name => some [name]
  | none => attr.names

def PredicateInfo.subProofPredicate (predicate : PredicateInfo) : SubProofPredicate :=
  ⟨attrCommonView lc predicate.name, predicate.pType, predicate.pValue⟩

def namesToReveal : Option (List String) → IndyResult (List String)
  | some names => .ok names
  | none => .error ⟨.invalidStructure,
      "Attr for credential restriction should contain \"name\" or \"names\" param."⟩

def buildSubProofRequest (attrsForCredential : List AttributeInfo)
    (predicatesForCredential : List PredicateInfo) :
    IndyResult SubProofRequest := do
  let names ← attrsForCredential.mapM fun attr => namesToReveal attr.allNames
  pure ⟨(names.flatten.map (attrCommonView lc)).toFinset,
    (predicatesForCredential.map (PredicateInfo.subProofPredicate lc)).toFinset⟩

def buildCredentialSchema (attrs : Finset String) : Finset String := attrs.image (attrCommonView lc)

end Helpers

section Verify
variable {U : Ursa} (lc : Lowercase) (orders : ValueOrders) (proofReq : ProofRequestPayload U.Nonce)
    (proof : Proof U)

def getProofIdentifier (index : ℕ) : IndyResult Identifier :=
  match proof.identifiers[index]? with
  | some identifier => .ok identifier
  | none => .error ⟨.invalidStructure, "Identifier not found for index: " ++ toString index⟩

def receivedRevealedAttrs : IndyResult (Table String Identifier) := do
  let revealed ← Table.insertAllM
      (fun (info : RevealedAttributeInfo) => getProofIdentifier proof info.subProofIndex)
    proof.requestedProof.revealedAttrs ∅
  Table.insertAllM
    (fun (infos : RevealedAttributeGroupInfo) => getProofIdentifier proof infos.subProofIndex)
    proof.requestedProof.revealedAttrGroups revealed

def receivedUnrevealedAttrs : IndyResult (Table String Identifier) :=
  Table.insertAllM (fun (info : SubProofReferent) => getProofIdentifier proof info.subProofIndex)
    proof.requestedProof.unrevealedAttrs ∅

def receivedPredicates : IndyResult (Table String Identifier) :=
  Table.insertAllM (fun (info : SubProofReferent) => getProofIdentifier proof info.subProofIndex)
    proof.requestedProof.predicates ∅

def receivedSelfAttestedAttrs : Finset String :=
  proof.requestedProof.selfAttestedAttrs.keys.toFinset

/-- The four results of the first lines of `verify`. -/
structure Received where
  revealed : Table String Identifier
  unrevealed : Table String Identifier
  predicates : Table String Identifier
  selfAttested : Finset String

def received : IndyResult Received := do
  let revealed ← receivedRevealedAttrs proof
  let unrevealed ← receivedUnrevealedAttrs proof
  let predicates ← receivedPredicates proof
  pure ⟨revealed, unrevealed, predicates, receivedSelfAttestedAttrs proof⟩

def compareAttrFromProofAndRequest (recv : Received) : IndyResult Unit :=
  if proofReq.requestedAttributes.keys.toFinset ≠
      recv.revealed.keys.toFinset ∪ recv.unrevealed.keys.toFinset ∪ recv.selfAttested then
    .error ⟨.invalidStructure, "Requested attributes do not correspond to received"⟩
  else if proofReq.requestedPredicates.keys.toFinset ≠ recv.predicates.keys.toFinset then
    .error ⟨.invalidStructure, "Requested predicates do not correspond to received"⟩
  else .ok ()

def validateTimestamp (received : Table String Identifier) (referent : String)
    (globalInterval localInterval : Option NonRevocedInterval) : IndyResult Unit :=
  if (getNonRevocInterval globalInterval localInterval).isNone then .ok ()
  else if ((received.lookup referent).map fun attr => attr.timestamp.isSome).getD false then .ok ()
  else .error ⟨.invalidStructure, ""⟩

def compareTimestampsFromProofAndRequest (recv : Received) : IndyResult Unit := do
  forM proofReq.requestedAttributes.entries fun e =>
    match validateTimestamp recv.revealed e.1 proofReq.nonRevoked e.2.nonRevoked with
    | .ok () => .ok ()
    | .error _ =>
      match validateTimestamp recv.unrevealed e.1 proofReq.nonRevoked e.2.nonRevoked with
      | .ok () => .ok ()
      | .error _ => if e.1 ∈ recv.selfAttested then .ok ()
          else .error (⟨.invalidStructure, ""⟩ : IndyError)
  forM proofReq.requestedPredicates.entries fun e =>
    validateTimestamp recv.predicates e.1 proofReq.nonRevoked e.2.nonRevoked

def verifyRevealedAttributeValue (attrName : String) (attrInfo : RevealedAttributeInfo) :
    IndyResult Unit := do
  let subProof ← match proof.proof.proofs[attrInfo.subProofIndex]? with
    | some subProof => Except.ok subProof
    | none => Except.error (⟨.proofRejected,
        "CryptoProof not found by index \"" ++ toString attrInfo.subProofIndex ++ "\""⟩ : IndyError)
  let revealed ← U.revealedAttrs subProof
  let cryptoProofEncoded ←
    match revealed.entries.find? fun e => attrCommonView lc attrName = attrCommonView lc e.1 with
    | some e => Except.ok e.2
    | none => Except.error ⟨.proofRejected, "Attribute with name \"" ++ attrName ++
        "\" not found in CryptoProof"⟩
  let revealAttrEncoded ← U.fromDec attrInfo.encoded
  let cryptoProofNumber ← U.fromDec cryptoProofEncoded
  if revealAttrEncoded ≠ cryptoProofNumber then
    Except.error ⟨.proofRejected, "Encoded Values for \"" ++ attrName ++
      "\" are different in RequestedProof \"" ++
      attrInfo.encoded ++ "\" and CryptoProof \"" ++ cryptoProofEncoded ++ "\""⟩
  else .ok ()

/-- The name (or the names) that the request has for a revealed referent. -/
def requestedName {α : Type} (part : AttributeInfo → Option α) (referent : String) : IndyResult α :=
  match (proofReq.requestedAttributes.lookup referent).bind part with
  | some a => .ok a
  | none => .error ⟨.proofRejected, "Attribute with referent \"" ++ referent ++
      "\" not found in ProofRequests"⟩

/-- The values of a group: one for each name of the request. -/
def verifyRevealedAttributeGroup (attrNames : List String)
    (attrInfos : RevealedAttributeGroupInfo) :
    IndyResult Unit :=
  if attrInfos.values.entries.length ≠ attrNames.length then
    .error ⟨.invalidStructure,
      "Proof Revealed Attr Group does not match Proof Request Attribute Group"⟩
  else
    forM attrNames fun attrName =>
      match attrInfos.values.lookup attrName with
      | some attrInfo =>
        verifyRevealedAttributeValue lc proof attrName
          ⟨attrInfos.subProofIndex, attrInfo.raw, attrInfo.encoded⟩
      | none =>
        .error ⟨.invalidStructure,
          "Proof Revealed Attr Group does not match Proof Request Attribute Group"⟩

def verifyRevealedAttributeValues : IndyResult Unit := do
  forM proof.requestedProof.revealedAttrs.entries fun e => do
    let attrName ← requestedName proofReq AttributeInfo.name e.1
    verifyRevealedAttributeValue lc proof attrName e.2
  forM proof.requestedProof.revealedAttrGroups.entries fun e => do
    let attrNames ← requestedName proofReq AttributeInfo.names e.1
    verifyRevealedAttributeGroup lc proof attrNames e.2

/-- Restrictions that restrict something: empty lists stand for none. -/
def Query.isEmptyList : Query → Bool
  | .and operators => operators.isEmpty
  | .or operators => operators.isEmpty
  | _ => false

def isSelfAttested (referent : String) (info : AttributeInfo)
    (selfAttestedAttrs : Finset String) : Bool :=
  match info.restrictions with
  | some query => query.isEmptyList && decide (referent ∈ selfAttestedAttrs)
  | none => decide (referent ∈ selfAttestedAttrs)

/-- The values of an attribute (or group) by name, as far as they are revealed. -/
def nameValueMap (referent : String) (info : AttributeInfo) :
    IndyResult (Table String (Option String)) :=
  match info.name, info.names with
  | some name, _ =>
    .ok (AList.singleton name ((proof.requestedProof.revealedAttrs.lookup referent).map (·.raw)))
  | none, some names =>
    match proof.requestedProof.revealedAttrGroups.lookup referent with
    | some attrs =>
      .ok (names.foldl (fun map name => map.insert name ((attrs.values.lookup name).map (·.raw))) ∅)
    | none => .error ⟨.invalidStructure, "Proof does not have referent from proof request"⟩
  | none, none => .error ⟨.invalidStructure,
      "Proof Request attribute restriction should contain \"name\" or \"names\" param"⟩

def verifyAttributeRestrictions (identifiers : Table String Identifier) (referent : String)
    (info : AttributeInfo) :
    IndyResult Unit :=
  match info.restrictions with
  | none => .ok ()
  | some query => do
    let filter ← gatherFilterInfo referent identifiers
    let values ← nameValueMap proof referent info
    extendErr "Requested restriction validation failed for attributes"
      (doProcessOperator lc ⟨values, orders.ofAttribute referent⟩ filter query)

/-- `proof_attr_identifiers`: an entry for an unrevealed attribute replaces one for a revealed
attribute. -/
def proofAttrIdentifiers (recv : Received) : Table String Identifier :=
  recv.unrevealed ∪ recv.revealed

/-- `requested_attrs`: without the attributes that may be self-attested and are. -/
def requestedAttrs (selfAttestedAttrs : Finset String) : List ((_ : String) × AttributeInfo) :=
  proofReq.requestedAttributes.entries.filter fun e => !isSelfAttested e.1 e.2 selfAttestedAttrs

/-- Takes a revealed attribute of the predicate's credential into the map. The lookup in
`requested_attrs` is unwrapped. -/
def addRevealedValue (selfAttestedAttrs : Finset String) (predSubProofIndex : ℕ)
    (map : Table String (Option String))
    (e : (_ : String) × RevealedAttributeInfo) : Outcome (Table String (Option String)) :=
  if predSubProofIndex = e.2.subProofIndex then
    match (requestedAttrs proofReq selfAttestedAttrs).find? fun e' => e'.1 = e.1 with
    | none => .error (.panic .unwrapNone)
    | some e' => match e'.2.name with
      | some attrName => .ok (map.insert attrName (some e.2.raw))
      | none => .ok map
  else .ok map

/-- The revealed values of the credential that a predicate is proved from. -/
def attrValueMap (selfAttestedAttrs : Finset String) (name : String) (predSubProofIndex : ℕ) :
    Outcome (Table String (Option String)) := do
  let map ← proof.requestedProof.revealedAttrs.entries.foldlM
    (addRevealedValue proofReq selfAttestedAttrs predSubProofIndex) (AList.singleton name none)
  pure (proof.requestedProof.revealedAttrGroups.entries.foldl (fun map e =>
    if predSubProofIndex = e.2.subProofIndex then
      e.2.values.entries.foldl (fun map v => map.insert v.1 (some v.2.raw)) map
    else map) map)

def verifyPredicateRestrictions (recv : Received) (referent : String) (info : PredicateInfo) :
    Outcome Unit :=
  match info.restrictions with
  | none => .ok ()
  | some query => do
    let filter ← ofIndyResult (gatherFilterInfo referent recv.predicates)
    match proof.requestedProof.predicates.lookup referent with
    | none => Except.error (.panic .unwrapNone)
    | some predicate =>
      let values ← attrValueMap proofReq proof recv.selfAttested info.name predicate.subProofIndex
      ofIndyResult <|
        extendErr ("Requested restriction validation failed for \"" ++ info.name ++ "\" predicate")
        (doProcessOperator lc ⟨values, orders.ofPredicate referent⟩ filter query)

def verifyRequestedRestrictions (recv : Received) : Outcome Unit := do
  forM (requestedAttrs proofReq recv.selfAttested) fun e =>
    ofIndyResult (verifyAttributeRestrictions lc orders proof (proofAttrIdentifiers recv) e.1 e.2)
  forM proofReq.requestedPredicates.entries fun e =>
    verifyPredicateRestrictions lc orders proofReq proof recv e.1 e.2

/-- Every check of `verify` before the first call of the proof verifier. -/
def structuralChecks : Outcome Unit := do
  let recv ← ofIndyResult (received proof)
  ofIndyResult (compareAttrFromProofAndRequest proofReq recv)
  ofIndyResult (verifyRevealedAttributeValues lc proofReq proof)
  verifyRequestedRestrictions lc orders proofReq proof recv
  ofIndyResult (compareTimestampsFromProofAndRequest proofReq recv)

def getRevealedAttributesForCredential (subProofIndex : ℕ) : List AttributeInfo :=
  (proof.requestedProof.revealedAttrs.entries.filterMap fun e =>
    if subProofIndex = e.2.subProofIndex then proofReq.requestedAttributes.lookup e.1 else none) ++
  proof.requestedProof.revealedAttrGroups.entries.filterMap fun e =>
    if subProofIndex = e.2.subProofIndex then proofReq.requestedAttributes.lookup e.1 else none

def getPredicatesForCredential (subProofIndex : ℕ) : List PredicateInfo :=
  proof.requestedProof.predicates.entries.filterMap fun e =>
    if subProofIndex = e.2.subProofIndex then proofReq.requestedPredicates.lookup e.1 else none

def notFound {α : Type} (message : String) : Option α → IndyResult α
  | some a => .ok a
  | none => .error ⟨.invalidStructure, message⟩

/-- The revocation registry that an identifier points to, with the key of its accumulator. -/
def registryOf (ledger : LedgerObjects U) (identifier : Identifier) :
    IndyResult (Option U.RevocationKeyPublic × Option U.RevocationRegistry) :=
  match identifier.timestamp with
  | none => .ok (none, none)
  | some timestamp => do
    let revRegId ← notFound "Revocation Registry Id not found" identifier.revRegId
    let revRegDef ← notFound "RevocationRegistryDefinition not found for id"
        (ledger.revRegDefs.lookup revRegId)
    let revRegsForCred ← notFound "RevocationRegistry not found for id"
        (ledger.revRegs.lookup revRegId)
    let revReg ← notFound ("RevocationRegistry not found for timestamp: " ++ toString timestamp)
      (revRegsForCred.lookup timestamp)
    pure (some revRegDef, some revReg)

/-- The sub-proof request that the verifier rebuilds for a sub-proof. -/
def rebuiltSubProofRequest (subProofIndex : ℕ) : IndyResult SubProofRequest :=
  buildSubProofRequest lc (getRevealedAttributesForCredential proofReq proof subProofIndex)
    (getPredicatesForCredential proofReq proof subProofIndex)

/-- What one round of the loop looks up and rebuilds before it turns to ursa. -/
def subProofParts (ledger : LedgerObjects U) (subProofIndex : ℕ) (identifier : Identifier) :
    IndyResult (SchemaV1 × CredentialDefinitionData U ×
      (Option U.RevocationKeyPublic × Option U.RevocationRegistry) × SubProofRequest) := do
  let schema ← notFound "Schema not found for id" (ledger.schemas.lookup identifier.schemaId)
  let credDef ← notFound "CredentialDefinition not found for id"
      (ledger.credDefs.lookup identifier.credDefId)
  let registry ← registryOf ledger identifier
  let subProofRequest ← rebuiltSubProofRequest lc proofReq proof subProofIndex
  pure (schema, credDef, registry, subProofRequest)

/-- One round of the loop over the identifiers. -/
def addSubProof (ledger : LedgerObjects U) (subProofIndex : ℕ) (identifier : Identifier) :
    IndyResult U.AddedSubProof := do
  let parts ← subProofParts lc proofReq proof ledger subProofIndex identifier
  let credentialPubKey ← U.buildFromParts parts.2.1.primary parts.2.1.revocation
  let added : U.AddedSubProof :=
    ⟨parts.2.2.2, buildCredentialSchema lc parts.1.attrNames, credentialPubKey,
    parts.2.2.1.1, parts.2.2.1.2⟩
  U.addSubProofRequest added
  pure added

def verify (ledger : LedgerObjects U) : Outcome Bool := do
  structuralChecks lc orders proofReq proof
  let added ← ofIndyResult
      (proof.identifiers.zipIdx.mapM fun e => addSubProof lc proofReq proof ledger e.2 e.1)
  ofIndyResult (U.verify proof.proof.proofs proof.proof.aggregatedProof added proofReq.nonce)

end Verify

section Sample

/-- Ursa without the cryptography: a sub-proof is the table of the values it reveals, and the
sub-proofs are good when they reveal what was asked for. -/
def sampleUrsa : Ursa where
  Nonce := Unit
  CredentialPrimaryPublicKey := Unit
  CredentialRevocationPublicKey := Unit
  CredentialPublicKey := Unit
  RevocationKeyPublic := Unit
  RevocationRegistry := Unit
  SubProof := Table String String
  AggregatedProof := Unit
  buildFromParts _ _ := .ok ()
  revealedAttrs subProof := .ok subProof
  fromDec s := .ok (s.toList.foldl (fun n c => 10 * n + (c.toNat - 48)) 0)
  addSubProofRequest _ := .ok ()
  verify proofs _ added _ :=
    .ok (decide (proofs.map (fun subProof => subProof.keys.toFinset) = added.map fun a =>
      a.subProofRequest.revealedAttrs))

def sampleOrders : ValueOrders := ⟨fun _ => .id, fun _ => .id⟩

end Sample

end SimpleAsset.Indy.Anoncreds
