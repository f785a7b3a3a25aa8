import Mathlib.Data.Finset.Basic
import SimpleAsset.Indy.Anoncreds.Restriction

/-! Tags of a stored credential and the wallet query for a proof request (prover.rs). -/
namespace SimpleAsset.Indy.Anoncreds
open SimpleAsset.Library

structure Credential (Signature : Type) where
  schemaId : SchemaId
  credDefId : CredentialDefinitionId
  revRegId : Option RevocationRegistryId
  values : Table String AttributeValue
  signature : Signature

section Tags
variable {Signature : Type} (lc : Lowercase)

def attributeExistenceMarker : String := "1"

def buildAttrMarkerTag (attr : String) : String := "attr::" ++ attrCommonView lc attr ++ "::marker"

def buildAttrValueTag (attr : String) : String := "attr::" ++ attrCommonView lc attr ++ "::value"

def addExtraTagSuffix (tag : String) : String := tag ++ "_short"

def qualifiableTags : List String :=
  ["issuer_did", "cred_def_id", "schema_id", "schema_issuer_did", "rev_reg_id"]

/-- `CredentialAttrTagPolicy::is_taggable`; the policy keeps its names in common view. -/
def isTaggable (taggable : Finset String) (attrName : String) : Bool :=
  decide (attrCommonView lc attrName ∈ taggable)

/-- The tags of one attribute, unless the policy marks it untaggable. -/
def attrTags (catpol : Option (Finset String)) (attr : String) (values : AttributeValue) :
    List (String × String) :=
  if (catpol.map fun cp => isTaggable lc cp attr).getD true then
    [(buildAttrMarkerTag lc attr, attributeExistenceMarker),
      (buildAttrValueTag lc attr, values.raw)]
  else []

/-- The tags about the identifiers of a credential; fully qualified ones have a short form too. -/
def identifierTags (node13 : Bool) (credential : Credential Signature) (schemaIssuerDid : DidValue)
    (schemaName schemaVersion : String) (issuerDid : DidValue) : List (String × String) :=
  [("schema_id", credential.schemaId.value), ("schema_issuer_did", schemaIssuerDid.value),
   ("schema_name", schemaName), ("schema_version", schemaVersion), ("issuer_did", issuerDid.value),
   ("cred_def_id", credential.credDefId.value),
   ("rev_reg_id", (credential.revRegId.map (·.value)).getD "None")] ++
  if credential.credDefId.isFullyQualified then
    [(addExtraTagSuffix "schema_id", credential.schemaId.toUnqualified.value),
     (addExtraTagSuffix "schema_issuer_did", schemaIssuerDid.toUnqualified.value),
     (addExtraTagSuffix "issuer_did", issuerDid.toUnqualified.value),
     (addExtraTagSuffix "cred_def_id", (credential.credDefId.toUnqualified node13).value),
     (addExtraTagSuffix "rev_reg_id",
       (credential.revRegId.map fun revRegId => (revRegId.toUnqualified node13).value).getD "None")]
  else []

def buildCredentialTags (node13 : Bool) (credential : Credential Signature)
    (catpol : Option (Finset String)) :
    IndyResult (Table String String) :=
  match credential.schemaId.parts, credential.credDefId.issuerDid with
  | none, _ =>
    .error ⟨.invalidState, "Invalid Schema ID `" ++ credential.schemaId.value ++
      "`: wrong number of parts"⟩
  | some _, none =>
    .error ⟨.invalidState,
      "Invalid Credential Definition ID `" ++ credential.credDefId.value ++
      "`: wrong number of parts"⟩
  | some (schemaIssuerDid, schemaName, schemaVersion), some issuerDid =>
    .ok (Table.insertAll
      (identifierTags node13 credential schemaIssuerDid schemaName schemaVersion issuerDid ++
        credential.values.entries.flatMap fun e => attrTags lc catpol e.1 e.2) ∅)

def getCredentialValuesForAttribute (credentialAttrs : Table String AttributeValue)
    (requestedAttr : String) :
    Option AttributeValue :=
  (credentialAttrs.entries.find? fun e =>
    attrCommonView lc e.1 = attrCommonView lc requestedAttr).map (·.2)

end Tags

section Restrictions
variable (lc : Lowercase)

/-- A tag about an attribute, with the name of the attribute in common view. -/
def caseInsensitiveTag (tagName : String) : String :=
  match attrRequestByValue tagName, attrRequestByMarker tagName with
  | some name, _ => buildAttrValueTag lc name
  | none, some name => buildAttrMarkerTag lc name
  | none, none => tagName

mutual

def makeRestrictionsByInternalTagsCaseInsensitive : Query → IndyResult Query
  | .eq tagName tagValue => .ok (.eq (caseInsensitiveTag lc tagName) tagValue)
  | .neq tagName tagValue => .ok (.neq (caseInsensitiveTag lc tagName) tagValue)
  | .isIn tagName tagValues => .ok (.isIn (caseInsensitiveTag lc tagName) tagValues)
  | .and operators => do
    let operators ← makeAllCaseInsensitive operators
    pure (.and operators)
  | .or operators => do
    let operators ← makeAllCaseInsensitive operators
    pure (.or operators)
  | .not operator => do
    let operator ← makeRestrictionsByInternalTagsCaseInsensitive operator
    pure (.not operator)
  | .gt .. | .gte .. | .lt .. | .lte .. | .like .. =>
    .error ⟨.invalidStructure, "unsupported operator"⟩

def makeAllCaseInsensitive : List Query → IndyResult (List Query)
  | [] => .ok []
  | operator :: operators => do
    let operator ← makeRestrictionsByInternalTagsCaseInsensitive operator
    let operators ← makeAllCaseInsensitive operators
    pure (operator :: operators)

end

mutual

/-- Requests of the first version match short identifiers too. -/
def doubleRestrictions : Query → IndyResult Query
  | .eq tagName tagValue =>
    if tagName ∈ qualifiableTags then
      .ok (.or [.eq tagName tagValue, .eq (addExtraTagSuffix tagName) tagValue])
    else .ok (.eq tagName tagValue)
  | .neq tagName tagValue =>
    if tagName ∈ qualifiableTags then
      .ok (.and [.neq tagName tagValue, .neq (addExtraTagSuffix tagName) tagValue])
    else .ok (.neq tagName tagValue)
  | .isIn tagName tagValues =>
    if tagName ∈ qualifiableTags then
      .ok (.or [.isIn tagName tagValues, .isIn (addExtraTagSuffix tagName) tagValues])
    else .ok (.isIn tagName tagValues)
  | .and operators => do
    let operators ← doubleAll operators
    pure (.and operators)
  | .or operators => do
    let operators ← doubleAll operators
    pure (.or operators)
  | .not operator => do
    let operator ← doubleRestrictions operator
    pure (.not operator)
  | .gt .. | .gte .. | .lt .. | .lte .. | .like .. =>
    .error ⟨.invalidStructure, "unsupported operator"⟩

def doubleAll : List Query → IndyResult (List Query)
  | [] => .ok []
  | operator :: operators => do
    let operator ← doubleRestrictions operator
    let operators ← doubleAll operators
    pure (operator :: operators)

end

inductive ProofRequestsVersion
  | v1
  | v2
  deriving DecidableEq, Repr

def versionRestrictions (version : ProofRequestsVersion) (restrictions : Query) :
    IndyResult Query := do
  let insensitive ← makeRestrictionsByInternalTagsCaseInsensitive lc restrictions
  match version with
  | .v1 => doubleRestrictions insensitive
  | .v2 => pure insensitive

def processProofRequestRestrictions (version : ProofRequestsVersion) (name : Option String)
    (names : Option (List String)) (referent : String) (restrictions : Option Query)
    (extraQuery : Option (Table String Query)) : IndyResult Query :=
  match names.or (name.map fun s => [s]) with
  | none => .error ⟨.invalidStructure,
      "Proof Request attribute restriction should contain \"name\" or \"names\" param"⟩
  | some names => do
    let attrQueries := names.map fun name =>
      Query.eq (buildAttrMarkerTag lc name) attributeExistenceMarker
    let restricted ← match restrictions with
      | some restrictions => (versionRestrictions lc version restrictions).map fun query => [query]
      | none => Except.ok []
    let extra := (extraQuery.bind fun query => query.lookup referent).toList
    pure (.and (restricted ++ extra ++ attrQueries))

end Restrictions

section Satisfaction

mutual

/-- The tags satisfy the query; a comparison with a tag that is not there is false. Only operators
that `process_proof_request_restrictions` lets through are given a meaning. -/
def Query.holdsOf (tags : Table String String) : Query → Bool
  | .eq tagName tagValue => (tags.lookup tagName).any fun value => value = tagValue
  | .neq tagName tagValue => (tags.lookup tagName).any fun value => value ≠ tagValue
  | .isIn tagName tagValues => (tags.lookup tagName).any fun value => tagValues.contains value
  | .and operators => allHoldOf tags operators
  | .or operators => anyHoldsOf tags operators
  | .not operator => !operator.holdsOf tags
  | .gt .. | .gte .. | .lt .. | .lte .. | .like .. => false

def allHoldOf (tags : Table String String) : List Query → Bool
  | [] => true
  | operator :: operators => operator.holdsOf tags && allHoldOf tags operators

def anyHoldsOf (tags : Table String String) : List Query → Bool
  | [] => false
  | operator :: operators => operator.holdsOf tags || anyHoldsOf tags operators

end

end Satisfaction

end SimpleAsset.Indy.Anoncreds
