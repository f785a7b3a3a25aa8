import SimpleAsset.Indy.Anoncreds.Verifier
import SimpleAsset.Indy.Anoncreds.CredentialQuery

/-! `Prover::create_proof` (prover.rs), with ursa as a parameter. -/
namespace SimpleAsset.Indy.Anoncreds
open SimpleAsset.Library

structure RequestedAttribute where
  credId : String
  timestamp : Option ℕ
  revealed : Bool
  deriving DecidableEq, Repr

structure ProvingCredentialKey where
  credId : String
  timestamp : Option ℕ
  deriving DecidableEq, Repr

structure RequestedCredentials where
  selfAttestedAttributes : Table String String
  requestedAttributes : Table String RequestedAttribute
  requestedPredicates : Table String ProvingCredentialKey

structure RequestedAttributeInfo where
  attrReferent : String
  attrInfo : AttributeInfo
  revealed : Bool

structure RequestedPredicateInfo where
  predicateReferent : String
  predicateInfo : PredicateInfo

/-- The referents that are answered from one credential. -/
abbrev ForCredential := List RequestedAttributeInfo × List RequestedPredicateInfo

section Prepare
variable {Nonce : Type} (proofReq : ProofRequestPayload Nonce)

def RequestedAttribute.key (requestedAttr : RequestedAttribute) : ProvingCredentialKey :=
  ⟨requestedAttr.credId, requestedAttr.timestamp⟩

/-- `entry(key)`: what is there already, or two empty lists. -/
def forKey (credentialsForProving : Table ProvingCredentialKey ForCredential)
    (key : ProvingCredentialKey) :
    ForCredential := (credentialsForProving.lookup key).getD ([], [])

def addAttribute (credentialsForProving : Table ProvingCredentialKey ForCredential)
    (e : (_ : String) × RequestedAttribute) :
    IndyResult (Table ProvingCredentialKey ForCredential) := do
  let attrInfo ← notFound ("AttributeInfo not found in ProofRequest for referent \"" ++ e.1 ++ "\"")
    (proofReq.requestedAttributes.lookup e.1)
  let old := forKey credentialsForProving e.2.key
  pure (credentialsForProving.insert e.2.key (old.1 ++ [⟨e.1, attrInfo, e.2.revealed⟩], old.2))

def addPredicate (credentialsForProving : Table ProvingCredentialKey ForCredential)
    (e : (_ : String) × ProvingCredentialKey) :
    IndyResult (Table ProvingCredentialKey ForCredential) := do
  let predicateInfo ← notFound
      ("PredicateInfo not found in ProofRequest for referent \"" ++ e.1 ++ "\"")
    (proofReq.requestedPredicates.lookup e.1)
  let old := forKey credentialsForProving e.2
  pure (credentialsForProving.insert e.2 (old.1, old.2 ++ [⟨e.1, predicateInfo⟩]))

def prepareCredentialsForProving (requestedCredentials : RequestedCredentials) :
    IndyResult (Table ProvingCredentialKey ForCredential) := do
  let withAttributes ← requestedCredentials.requestedAttributes.entries.foldlM
      (addAttribute proofReq) ∅
  requestedCredentials.requestedPredicates.entries.foldlM (addPredicate proofReq) withAttributes

end Prepare

section SubProofs
variable (lc : Lowercase)

/-- `_build_sub_proof_request`: unlike the verifier's, it skips an attribute without a name. -/
def proverSubProofRequest (forCredential : ForCredential) : SubProofRequest :=
  ⟨((forCredential.1.filter (·.revealed)).flatMap fun attr =>
      (attr.attrInfo.allNames.getD []).map (attrCommonView lc)).toFinset,
    (forCredential.2.map fun predicate => predicate.predicateInfo.subProofPredicate lc).toFinset⟩

end SubProofs

section Update
variable (lc : Lowercase) {Nonce Signature : Type} (proofReq : ProofRequestPayload Nonce)
  (credential : Credential Signature) (subProofIndex : ℕ)

def groupValues (names : List String) : IndyResult (Table String AttributeValue) :=
  names.foldlM (fun valueMap name => do
    let attrValue ← notFound ("Credential value not found for attribute " ++ name)
      (getCredentialValuesForAttribute lc credential.values name)
    pure (valueMap.insert name attrValue)) ∅

/-- One attribute of `_update_requested_proof`; the request is indexed by the referent. -/
def updateAttribute (requestedProof : RequestedProof) (attr : RequestedAttributeInfo) :
    Outcome RequestedProof :=
  if attr.revealed then
    match proofReq.requestedAttributes.lookup attr.attrReferent with
    | none => .error (.panic .unwrapNone)
    | some requested => ofIndyResult <| match requested.name, requested.names with
      | some name, _ => do
        let values ← notFound ("Credential value not found for attribute " ++ name)
          (getCredentialValuesForAttribute lc credential.values name)
        pure { requestedProof with
          revealedAttrs := requestedProof.revealedAttrs.insert attr.attrReferent
            ⟨subProofIndex, values.raw, values.encoded⟩ }
      | none, some names => do
        let values ← groupValues lc credential names
        pure { requestedProof with
          revealedAttrGroups :=
            requestedProof.revealedAttrGroups.insert attr.attrReferent ⟨subProofIndex, values⟩ }
      | none, none => pure requestedProof
  else
    .ok { requestedProof with
      unrevealedAttrs := requestedProof.unrevealedAttrs.insert attr.attrReferent ⟨subProofIndex⟩ }

def updatePredicate (requestedProof : RequestedProof) (predicate : RequestedPredicateInfo) :
    RequestedProof :=
  { requestedProof with
    predicates := requestedProof.predicates.insert predicate.predicateReferent ⟨subProofIndex⟩ }

def updateRequestedProof (forCredential : ForCredential) (requestedProof : RequestedProof) :
    Outcome RequestedProof := do
  let requestedProof ← forCredential.1.foldlM
      (updateAttribute lc proofReq credential subProofIndex) requestedProof
  pure (forCredential.2.foldl (updatePredicate subProofIndex) requestedProof)

end Update

/-- What the prover hands to ursa for one credential. -/
structure ProvingInput (U : Ursa) (Signature RevocationState : Type) where
  subProofRequest : SubProofRequest
  credentialSchema : Finset String
  signature : Signature
  values : Table String ℤ
  pubKey : U.CredentialPublicKey
  revState : Option RevocationState

/-- What the prover uses of ursa besides. -/
structure UrsaProver (U : Ursa) where
  CredentialSignature : Type
  MasterSecret : Type
  /-- Registry and witness of a `RevocationState`. -/
  RevocationState : Type
  /-- The checks of `ProofBuilder::add_sub_proof_request`. -/
  addSubProofRequest : MasterSecret → ProvingInput U CredentialSignature RevocationState →
    IndyResult Unit
  /-- `ProofBuilder::finalize`. -/
  finalize : MasterSecret → List (ProvingInput U CredentialSignature RevocationState) → U.Nonce →
    IndyResult (CryptoProof U)

section CreateProof
variable {U : Ursa} (lc : Lowercase) (node13 : Bool) (P : UrsaProver U)

abbrev UrsaProver.Input : Type := ProvingInput U P.CredentialSignature P.RevocationState

/-- `build_credential_values`: of two attributes with one common view the later one stays. -/
def buildCredentialValues (U : Ursa) (values : Table String AttributeValue) :
    IndyResult (Table String ℤ) :=
  values.entries.foldlM (fun built e => do
    let number ← U.fromDec e.2.encoded
    pure (built.insert (attrCommonView lc e.1) number)) ∅

/-- The maps that `create_proof` is given. -/
structure ProverObjects where
  credentials : Table String (Credential P.CredentialSignature)
  schemas : Table SchemaId SchemaV1
  credDefs : Table CredentialDefinitionId (CredentialDefinitionData U)
  revStates : Table String (Table ℕ P.RevocationState)

/-- The identifier of a sub-proof; the first version of proof requests has short identifiers. -/
def proofIdentifier {Signature : Type} (version : ProofRequestsVersion)
    (credential : Credential Signature) (timestamp : Option ℕ) : Identifier :=
  match version with
  | .v1 => ⟨credential.schemaId.toUnqualified, credential.credDefId.toUnqualified node13,
      credential.revRegId.map (·.toUnqualified node13), timestamp⟩
  | .v2 => ⟨credential.schemaId, credential.credDefId, credential.revRegId, timestamp⟩

variable {P}

def revStateOf (objects : ProverObjects P) (credKey : ProvingCredentialKey)
    (credential : Credential P.CredentialSignature) : IndyResult (Option P.RevocationState) :=
  match credKey.timestamp with
  | none => .ok none
  | some timestamp => do
    let revRegId ← notFound "Revocation Registry Id not found" credential.revRegId
    let revStatesForTimestamp ← notFound "RevocationState not found by id"
      ((objects.revStates.lookup revRegId.value).or (objects.revStates.lookup credKey.credId))
    let revState ← notFound ("RevocationInfo not found by timestamp: " ++ toString timestamp)
      (revStatesForTimestamp.lookup timestamp)
    pure (some revState)

/-- What one round of `create_proof` hands to ursa. -/
def provingInput (masterSecret : P.MasterSecret) (objects : ProverObjects P)
    (credKey : ProvingCredentialKey)
    (forCredential : ForCredential) (credential : Credential P.CredentialSignature) :
    IndyResult P.Input := do
  let schema ← notFound "Schema not found by id" (objects.schemas.lookup credential.schemaId)
  let credDef ← notFound "CredentialDefinition not found by id"
      (objects.credDefs.lookup credential.credDefId)
  let revState ← revStateOf objects credKey credential
  let pubKey ← U.buildFromParts credDef.primary credDef.revocation
  let values ← buildCredentialValues lc U credential.values
  let input : P.Input :=
    ⟨proverSubProofRequest lc forCredential, buildCredentialSchema lc schema.attrNames,
    credential.signature, values, pubKey, revState⟩
  P.addSubProofRequest masterSecret input
  pure input

/-- Where `create_proof` is after some credentials. -/
structure Proving (P : UrsaProver U) where
  inputs : List P.Input
  identifiers : List Identifier
  requestedProof : RequestedProof

/-- One round of the loop of `create_proof`; the index is the number of rounds made. -/
def proveCredential (version : ProofRequestsVersion) (proofReq : ProofRequestPayload U.Nonce)
    (masterSecret : P.MasterSecret) (objects : ProverObjects P) (s : Proving P)
    (e : (_ : ProvingCredentialKey) × ForCredential) : Outcome (Proving P) := do
  let credential ← ofIndyResult
      (notFound "Credential not found by id" (objects.credentials.lookup e.1.credId))
  let input ← ofIndyResult (provingInput lc masterSecret objects e.1 e.2 credential)
  let requestedProof ← updateRequestedProof lc proofReq credential s.identifiers.length e.2
      s.requestedProof
  pure ⟨s.inputs ++ [input], s.identifiers ++
    [proofIdentifier node13 version credential e.1.timestamp], requestedProof⟩

/-- The credentials to prove from, in the order the hash map hands them out. -/
def credentialsForProving (order : Shuffle ((_ : ProvingCredentialKey) × ForCredential))
    (proofReq : ProofRequestPayload U.Nonce) (requestedCredentials : RequestedCredentials) :
    IndyResult (List ((_ : ProvingCredentialKey) × ForCredential)) := do
  let prepared ← prepareCredentialsForProving proofReq requestedCredentials
  pure (order.order prepared.entries)

def createProof (order : Shuffle ((_ : ProvingCredentialKey) × ForCredential))
    (version : ProofRequestsVersion)
    (proofReq : ProofRequestPayload U.Nonce) (requestedCredentials : RequestedCredentials)
    (masterSecret : P.MasterSecret) (objects : ProverObjects P) : Outcome (Proof U) := do
  let rounds ← ofIndyResult (credentialsForProving order proofReq requestedCredentials)
  let proving ← rounds.foldlM (proveCredential lc node13 version proofReq masterSecret objects)
    ⟨[], [], { selfAttestedAttrs := requestedCredentials.selfAttestedAttributes }⟩
  let proof ← ofIndyResult (P.finalize masterSecret proving.inputs proofReq.nonce)
  pure ⟨proof, proving.requestedProof, proving.identifiers⟩

end CreateProof

end SimpleAsset.Indy.Anoncreds
