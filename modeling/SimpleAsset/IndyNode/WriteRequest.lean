import SimpleAsset.IndyNode.AuthConstraint
import SimpleAsset.IndyNode.ReadRequest

/-! Write requests of the domain ledger: what is accepted, and the key under which it is written
(`indy_common/types.py`, `domain_req_handlers`). -/
namespace SimpleAsset.IndyNode
open SimpleAsset.Indy

inductive DomainType
  | nym
  | attrib
  | schema
  | claimDef
  | revocRegDef
  | revocRegEntry
  deriving DecidableEq, Repr

def DomainType.code : DomainType → String
  | nym => "1"
  | attrib => "100"
  | schema => "101"
  | claimDef => "102"
  | revocRegDef => "113"
  | revocRegEntry => "114"

/-- What the checks of write requests take from plenum, and `json.loads`. -/
structure WritePlenum extends Plenum where
  /-- The schema of NYM operations. -/
  clientNymOperation : Operation → Bool
  jsonField (maxLength : ℕ) : Json → Bool
  jsonFieldLimit : ℕ
  /-- The limit of `LimitedLengthStringField()`. -/
  defaultLengthLimit : ℕ
  isNetworkIpAddressValid : String → Bool
  isNetworkPortValid : String → Bool
  jsonLoads : String → Option Json

section Schemas

variable (plenum : WritePlenum)

def domainTypeField (type : DomainType) : FieldSpec := constantField "type" (.string type.code)

def anyMapField (name : String) (optional : Bool) : FieldSpec :=
  ⟨name, optional, fun
    | .object _ => true
    | _ => false⟩

def iterableField (name : String) (optional : Bool) (inner : Json → Bool) (minLength : ℕ)
    (maxLength : Option ℕ) :
    FieldSpec :=
  ⟨name, optional, fun
    | .array items => minLength ≤ items.length &&
        (maxLength.all fun limit => items.length ≤ limit) && items.all inner
    | _ => false⟩

def schemaAttributesLimit : ℕ := 125

def tagLimitSize : ℕ := 256

def schemaField : List FieldSpec :=
  [limitedLengthStringField plenum.toPlenum "name" plenum.nameFieldLimit false,
    versionField plenum.toPlenum "version",
    iterableField "attr_names" false
      (plenum.validateField [.str] (plenum.limitedLengthStringField plenum.nameFieldLimit false)) 1
      (some schemaAttributesLimit)]

def claimDefField : List FieldSpec := [anyMapField "primary" false, anyMapField "revocation" true]

def revocDefValueField : List FieldSpec :=
  [chooseField "issuanceType" [.string "ISSUANCE_BY_DEFAULT", .string "ISSUANCE_ON_DEMAND"] false,
    integerField plenum.toPlenum "maxCredNum" false, anyMapField "publicKeys" false,
    nonEmptyStringField plenum.toPlenum "tailsHash",
    nonEmptyStringField plenum.toPlenum "tailsLocation"]

def revocRegEntryValueField : List FieldSpec :=
  [⟨"prevAccum", true, plenum.validateField [.str] plenum.nonEmptyStringField⟩,
    nonEmptyStringField plenum.toPlenum "accum",
    iterableField "issued" true (plenum.validateField [.int] plenum.integerField) 0 none,
    iterableField "revoked" true (plenum.validateField [.int] plenum.integerField) 0 none]

def clientAttribOperation : List FieldSpec :=
  [domainTypeField .attrib, identifierField plenum.toPlenum "dest" false,
    ⟨"raw", true, plenum.validateField [.str] (plenum.jsonField plenum.jsonFieldLimit)⟩,
    limitedLengthStringField plenum.toPlenum "enc" plenum.encFieldLimit true,
    sha256HexField plenum.toPlenum "hash" true]

def clientSchemaOperation : List FieldSpec :=
  [domainTypeField .schema, messageField plenum.toPlenum "data" (schemaField plenum)]

def clientClaimDefSubmitOperation : List FieldSpec :=
  [domainTypeField .claimDef, txnSeqNoField plenum.toPlenum "ref",
    messageField plenum.toPlenum "data" claimDefField,
    limitedLengthStringField plenum.toPlenum "signature_type" plenum.signatureTypeFieldLimit false,
    limitedLengthStringField plenum.toPlenum "tag" 256 false]

def clientRevocDefSubmitField : List FieldSpec :=
  [domainTypeField .revocRegDef, nonEmptyStringField plenum.toPlenum "id",
    limitedLengthStringField plenum.toPlenum "revocDefType" plenum.defaultLengthLimit false,
    limitedLengthStringField plenum.toPlenum "tag" tagLimitSize false,
    nonEmptyStringField plenum.toPlenum "credDefId",
    messageField plenum.toPlenum "value" (revocDefValueField plenum)]

def clientRevocRegEntrySubmitField : List FieldSpec :=
  [domainTypeField .revocRegEntry, nonEmptyStringField plenum.toPlenum "revocRegDefId",
    limitedLengthStringField plenum.toPlenum "revocDefType" plenum.defaultLengthLimit false,
    messageField plenum.toPlenum "value" (revocRegEntryValueField plenum)]

/-- `__validate_endpoint_ha_field`. -/
def validateEndpointHaField : Json → Bool
  | .null => true
  | .object endpoint =>
    match Operation.get endpoint "ha" with
    | .null => true
    | .string ha =>
      match ha.toList.splitOn ':' with
      | [ip, port] =>
        plenum.isNetworkIpAddressValid (String.ofList ip) &&
          plenum.isNetworkPortValid (String.ofList port)
      | _ => false
    | _ => false
  | _ => false

/-- `__validate_raw_field`. -/
def validateRawField (raw : Json) : Bool :=
  match raw.asStr.bind plenum.jsonLoads with
  | some (.object [(name, value)]) =>
    if name = "endpoint" then validateEndpointHaField plenum value else true
  | _ => false

/-- `ClientAttribOperation._validate_message`. -/
def validateAttribMessage (op : Operation) : Bool :=
  validateFieldSet op && (!op.has "raw" || validateRawField plenum (op.get "raw"))

end Schemas

section Static

/-- What `str.strip` takes away. -/
def pyWhitespace : List Char :=
  ['\t', '\n', '\x0b', '\x0c', '\r', '\x1c', '\x1d', '\x1e', '\x1f', ' ', '\u0085', '\u00a0',
    '\u1680', '\u2000',
    '\u2001', '\u2002', '\u2003', '\u2004', '\u2005', '\u2006', '\u2007', '\u2008', '\u2009',
    '\u200a', '\u2028', '\u2029', '\u202f', '\u205f', '\u3000']

/-- `Authoriser.isValidRole`. -/
def isValidRole (role : Json) : Bool :=
  role ∈ [.string Role.trustee.code, .string Role.steward.code, .string Role.endorser.code,
    .string Role.networkMonitor.code, .null]

/-- `NymHandler.static_validation`. -/
def nymStaticValidation (op : Operation) : Bool :=
  ((op.get "dest").asStr.any fun nym => nym.toList.any (· ∉ pyWhitespace)) &&
    isValidRole (op.get "role")

/-- `AttributeHandler.static_validation`. -/
def attribStaticValidation (plenum : WritePlenum) (op : Operation) : Bool :=
  validateFieldSet op && (!op.has "raw" ||
    match (op.get "raw").asStr.bind plenum.jsonLoads with
    | some (.object fields) => fields ≠ []
    | some (.array items) => items ≠ []
    | some (.string text) => text ≠ ""
    | _ => false)

/-- `RevocRegDefHandler.static_validation`: the id of a credential definition has four or five
parts. -/
def revocRegDefStaticValidation (op : Operation) : Bool :=
  (op.get "credDefId").asStr.any fun credDefId =>
    let tags := credDefId.toList.splitOn ':'
    tags.length = 4 || tags.length = 5

/-- The schema of a request and the static validation of its handler. -/
def acceptsStatic (plenum : WritePlenum) (type : DomainType) (op : Operation) : Bool :=
  match type with
  | .nym => plenum.clientNymOperation op && nymStaticValidation op
  | .attrib =>
    plenum.validateMessage (clientAttribOperation plenum) op && validateAttribMessage plenum op &&
      attribStaticValidation plenum op
  | .schema => plenum.validateMessage (clientSchemaOperation plenum) op
  | .claimDef => plenum.validateMessage (clientClaimDefSubmitOperation plenum) op
  | .revocRegDef => plenum.validateMessage (clientRevocDefSubmitField plenum) op &&
      revocRegDefStaticValidation op
  | .revocRegEntry => plenum.validateMessage (clientRevocRegEntrySubmitField plenum) op

end Static

inductive AttrType
  | raw
  | enc
  | hash
  deriving DecidableEq, Repr

/-- What the key of a transaction is made of. -/
inductive DomainTxn
  | nym (did : String)
  | attrib (did : String) (attrType : AttrType) (attrName : String)
  | schema (authorsDid schemaName schemaVersion : String)
  | claimDef (authorsDid schemaSeqNo signatureType tag : String)
  | revocRegDef (authorsDid credDefId revocDefType revocDefTag : String)
  | revocRegEntry (revocRegDefId : String)
  deriving DecidableEq, Repr

namespace DomainTxn

def type : DomainTxn → DomainType
  | nym _ => .nym
  | attrib .. => .attrib
  | schema .. => .schema
  | claimDef .. => .claimDef
  | revocRegDef .. => .revocRegDef
  | revocRegEntry _ => .revocRegEntry

/-- The key under which a transaction is written. -/
def statePath (sha256 : Bytes → Bytes) : DomainTxn → Bytes
  | nym did => makeStatePathForNym sha256 did
  | attrib did attrType attrName => makeStatePathForAttr sha256 did attrName (attrType = .hash)
  | schema authorsDid schemaName schemaVersion =>
    makeStatePathForSchema authorsDid schemaName schemaVersion
  | claimDef authorsDid schemaSeqNo signatureType tag =>
    makeStatePathForClaimDef authorsDid schemaSeqNo signatureType tag
  | revocRegDef authorsDid credDefId revocDefType revocDefTag =>
    makeStatePathForRevocDef authorsDid credDefId revocDefType revocDefTag
  | revocRegEntry revocRegDefId => makeStatePathForRevocRegEntry revocRegDefId

end DomainTxn

section Prepare

variable (plenum : WritePlenum)

/-- `parse_attr_txn`: the type of the attribute and its key. -/
def parseAttrTxn (op : Operation) : Option (AttrType × String) :=
  if op.has "raw" then
    match (op.get "raw").asStr.bind plenum.jsonLoads with
    | some (.object data) => data.getLast?.map fun item => (.raw, item.1)
    | _ => none
  else if op.has "enc" then (op.get "enc").asStr.map fun attr => (.enc, attr)
  else (op.get "hash").asStr.map fun attr => (.hash, attr)

/-- What the `prepare_*_for_state` functions read of a transaction and its author. -/
def prepareForState (type : DomainType) (author : Option String) (op : Operation) :
    Option DomainTxn :=
  match type with
  | .nym => do
    let did ← (op.get "dest").asStr
    return .nym did
  | .attrib => do
    let did ← (op.get "dest").asStr
    let (attrType, attrName) ← parseAttrTxn plenum op
    return .attrib did attrType attrName
  | .schema => do
    let schemaName ← ((op.get "data").index "name").asStr
    let schemaVersion ← ((op.get "data").index "version").asStr
    return .schema (author.getD "None") schemaName schemaVersion
  | .claimDef => do
    if op.get "ref" = .null then failure
    let schemaSeqNo ← pyStr (op.get "ref")
    let signatureType ← ((op.lookup "signature_type").getD (.string "CL")).asStr
    let tag ← ((op.lookup "tag").getD (.string "tag")).asStr
    return .claimDef (author.getD "None") schemaSeqNo signatureType tag
  | .revocRegDef => do
    let authorsDid ← author
    let credDefId ← (op.get "credDefId").asStr
    let revocDefType ← (op.get "revocDefType").asStr
    let revocDefTag ← (op.get "tag").asStr
    return .revocRegDef authorsDid credDefId revocDefType revocDefTag
  | .revocRegEntry => do
    let _ ← author
    let revocRegDefId ← (op.get "revocRegDefId").asStr
    return .revocRegEntry revocRegDefId

end Prepare

end SimpleAsset.IndyNode
