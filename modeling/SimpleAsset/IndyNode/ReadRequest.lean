import SimpleAsset.IndyNode.AuthAction
import SimpleAsset.IndyNode.StatePath
import SimpleAsset.Indy.StateProof.RequestKey

/-! Read requests on a node: what is accepted, and where the answer is looked up
(`indy_common/types.py`, `read_req_handlers`). -/
namespace SimpleAsset.IndyNode
open SimpleAsset.Indy

section Schemas

variable (plenum : Plenum)

def constantField (name : String) (value : Json) : FieldSpec :=
  ⟨name, false, fun val => val = value⟩

def chooseField (name : String) (values : List Json) (optional : Bool) : FieldSpec :=
  ⟨name, optional, fun val => val ∈ values⟩

def identifierField (name : String) (optional : Bool) : FieldSpec :=
  ⟨name, optional, plenum.validateField [.str] plenum.identifierField⟩

def limitedLengthStringField (name : String) (maxLength : ℕ) (optional : Bool) : FieldSpec :=
  ⟨name, optional, plenum.validateField [.str] (plenum.limitedLengthStringField maxLength false)⟩

def nonEmptyStringField (name : String) : FieldSpec :=
  ⟨name, false, plenum.validateField [.str] plenum.nonEmptyStringField⟩

def sha256HexField (name : String) (optional : Bool) : FieldSpec :=
  ⟨name, optional, plenum.validateField [.str] plenum.sha256HexField⟩

def txnSeqNoField (name : String) : FieldSpec :=
  ⟨name, false, plenum.validateField [.int] plenum.txnSeqNoField⟩

def integerField (name : String) (optional : Bool) : FieldSpec :=
  ⟨name, optional, plenum.validateField [.int] plenum.integerField⟩

def versionField (name : String) : FieldSpec :=
  ⟨name, false, plenum.validateField [.str] plenum.versionField⟩

def authRuleValueField (name : String) : FieldSpec :=
  ⟨name, true, plenum.validateField [.str, .noneType]
    (plenum.limitedLengthStringField plenum.nameFieldLimit true)⟩

/-- A message inside a message. -/
def messageField (name : String) (schema : List FieldSpec) : FieldSpec :=
  ⟨name, false, fun
    | .object fields => plenum.validateMessage schema fields
    | _ => false⟩

def typeField (type : ReadType) : FieldSpec := constantField "type" (.string type.code)

def getSchemaField : List FieldSpec :=
  [limitedLengthStringField plenum "name" plenum.nameFieldLimit false,
    versionField plenum "version", identifierField plenum "origin" true]

def clientGetNymOperation : List FieldSpec :=
  [typeField .getNym, identifierField plenum "dest" false]

def clientGetAttribOperation : List FieldSpec :=
  [typeField .getAttr, identifierField plenum "dest" true,
    limitedLengthStringField plenum "raw" plenum.rawFieldLimit true,
    limitedLengthStringField plenum "enc" plenum.encFieldLimit true,
    sha256HexField plenum "hash" true]

def clientGetSchemaOperation : List FieldSpec :=
  [typeField .getSchema, identifierField plenum "dest" false,
    messageField plenum "data" (getSchemaField plenum)]

def clientClaimDefGetOperation : List FieldSpec :=
  [typeField .getCredDef, txnSeqNoField plenum "ref", identifierField plenum "origin" false,
    limitedLengthStringField plenum "signature_type" plenum.signatureTypeFieldLimit false,
    limitedLengthStringField plenum "tag" 256 true]

def clientGetRevocRegDefField : List FieldSpec :=
  [nonEmptyStringField plenum "id", typeField .getRevocRegDef]

def clientGetRevocRegField : List FieldSpec :=
  [nonEmptyStringField plenum "revocRegDefId", integerField plenum "timestamp" false,
    typeField .getRevocReg]

def clientGetAuthRuleOperation : List FieldSpec :=
  [typeField .getAuthRule, chooseField "auth_action" [.string addMark, .string editMark] true,
    limitedLengthStringField plenum "auth_type" plenum.nameFieldLimit true,
    limitedLengthStringField plenum "field" plenum.nameFieldLimit true,
    authRuleValueField plenum "old_value", authRuleValueField plenum "new_value"]

end Schemas

/-- `_validate_field_set` of the attribute operations, also `validate_attrib_keys`. -/
def validateFieldSet (op : Operation) : Bool := ["raw", "enc", "hash"].countP op.has = 1

/-- `StaticAuthRuleHelper.check_auth_key`. -/
def checkAuthKey (authKeys : List String) (op : Operation) : Bool :=
  let action := op.get "auth_action"
  if !op.has "old_value" && action = .string editMark then false
  else if op.has "old_value" && action = .string addMark then false
  else match getAuthKey op with
    | some authKey => authKey ∈ authKeys
    | none => false

/-- `GetAuthRuleHandler.static_validation`. -/
def getAuthRuleStaticValidation (authKeys : List String) (op : Operation) : Bool :=
  if 1 < op.length then
    (["type", "auth_action", "auth_type", "field", "new_value"].all op.has) &&
      checkAuthKey authKeys op
  else true

/-- Whether a request of a type that names a single record passes the checks of the node. -/
def acceptsRead (plenum : Plenum) (authKeys : List String) (type : ReadType)
    (op : Operation) : Bool :=
  match type with
  | .getNym => plenum.validateMessage (clientGetNymOperation plenum) op
  | .getAttr => plenum.validateMessage (clientGetAttribOperation plenum) op && validateFieldSet op
  | .getSchema => plenum.validateMessage (clientGetSchemaOperation plenum) op
  | .getCredDef => plenum.validateMessage (clientClaimDefGetOperation plenum) op
  | .getRevocRegDef => plenum.validateMessage (clientGetRevocRegDefField plenum) op
  | .getRevocReg => plenum.validateMessage (clientGetRevocRegField plenum) op
  | .getAuthRule =>
    plenum.validateMessage (clientGetAuthRuleOperation plenum) op &&
      getAuthRuleStaticValidation authKeys op
  | _ => false

section Handlers

variable (sha256 : Bytes → Bytes)

/-- `GetAttributeHandler.get_result` up to the path. -/
def getAttrPath (op : Operation) : Option Bytes := do
  let nym ← (op.get "dest").asStr
  let attrType := if op.has "raw" then "raw" else if op.has "enc" then "enc" else "hash"
  let attrKey ← (op.get attrType).asStr
  return makeStatePathForAttr sha256 nym attrKey (attrType = "hash")

/-- `GetSchemaHandler.get_result` up to the path. -/
def getSchemaPath (op : Operation) : Option Bytes := do
  let authorDid ← (op.get "dest").asStr
  let schemaName ← ((op.get "data").index "name").asStr
  let schemaVersion ← ((op.get "data").index "version").asStr
  return makeStatePathForSchema authorDid schemaName schemaVersion

/-- `GetClaimDefHandler.get_result` up to the path. -/
def getClaimDefPath (op : Operation) : Option Bytes := do
  let frm ← (op.get "origin").asStr
  let signatureType ← ((op.lookup "signature_type").getD (.string "CL")).asStr
  let schemaRef ← pyStr (op.get "ref")
  let tag ← ((op.lookup "tag").getD (.string "tag")).asStr
  return makeStatePathForClaimDef frm schemaRef signatureType tag

/-- `GetAuthRuleHandler.get_result` up to the path; the answer with all rules has no path. -/
def getAuthRulePath (op : Operation) : Option Bytes :=
  if 5 ≤ op.length then (getAuthKey op).map makeStatePathForAuthRule else none

/-- The path under which the handler of the type looks the answer up. -/
def readPath (type : ReadType) (op : Operation) : Option Bytes :=
  match type with
  | .getNym => (op.get "dest").asStr.map (makeStatePathForNym sha256)
  | .getAttr => getAttrPath sha256 op
  | .getSchema => getSchemaPath op
  | .getCredDef => getClaimDefPath op
  | .getRevocRegDef => (op.get "id").asStr.map asBytes
  | .getRevocReg => (op.get "revocRegDefId").asStr.map makeStatePathForRevocRegEntryAccum
  | .getAuthRule => getAuthRulePath op
  | _ => none

end Handlers

end SimpleAsset.IndyNode
