import SimpleAsset.IndyNode.Nym
import SimpleAsset.IndyNode.RevocRegDelta
import SimpleAsset.IndyNode.WriteRequest

/-! Dynamic validation of the requests of the domain ledger (`domain_req_handlers`). -/
namespace SimpleAsset.IndyNode
open SimpleAsset.Indy

structure DomainRequest where
  signed : SignedRequest
  type : DomainType
  operation : Operation
  deriving DecidableEq

/-- What a node looks up when it validates. -/
structure DomainNode where
  cache : IdrCache
  /-- The type of the transaction with this number. -/
  ledger : Json → Option String
  state : DomainState
  attributeStore : String → Option String
  /-- The records of the registries, decoded. -/
  revocState : RevocState Json

/-- Why a request is refused. -/
inductive DomainError
  | nym (error : NymError)
  | revoc (error : RevocError Json)
  | auth (error : AuthError)
  | targetNotAdded
  | noSuchSeqNo (ref : Json)
  | notSeqNoOfSchema (ref : Json)
  | noCredDef (credDefId : String)
  | malformed
  deriving DecidableEq

section Validation

variable (plenum : WritePlenum) (sha256 : Bytes → Bytes) (rules : List (String × Constraint))
    (node : DomainNode)
  (req : DomainRequest)

def validateDomainAction (action : AuthAction) : Except DomainError Unit :=
  (validate rules node.cache.getRole req.signed [action]).mapError .auth

/-- The action on a record as a whole, by whether there is one. -/
def wholeAction (type : DomainType) (present : Bool) : AuthAction :=
  if present then .edit type.code "*" "*" "*" true else .add type.code "*" "*" true

/-- A field that may be missing, null or a text. -/
def optionalText (op : Operation) (name : String) : Option (Option String) :=
  (op.lookup name).map Json.asStr

/-- `NymHandler.additional_dynamic_validation`. -/
def nymRequestValidation : Except DomainError Unit :=
  match (req.operation.get "dest").asStr with
  | none => .error .malformed
  | some dest =>
    (nymDynamicValidation rules node.cache
      ⟨req.signed, ⟨dest, optionalText req.operation "role", optionalText req.operation "verkey"⟩,
        0, none⟩).mapError .nym

/-- `_get_attr`: the old value and the number of its transaction. -/
def getAttr (did key : String) (attrType : AttrType) : Option String × Option ℕ :=
  match node.state (makeStatePathForAttr sha256 did key (attrType = .hash)) with
  | none => (none, none)
  | some record =>
    if truthy record.value then (record.value.asStr.bind node.attributeStore, some record.seqNo)
    else (record.value.asStr, some record.seqNo)

/-- The field of an attribute, its text, and the key it is looked up with. -/
def attribField (op : Operation) : Option (AttrType × String × String × String) :=
  if op.has "raw" then do
    let value ← (op.get "raw").asStr
    match plenum.jsonLoads value with
    | some (.object fields) => fields.head?.map fun item => (.raw, "raw", value, item.1)
    | _ => none
  else if op.has "enc" then (op.get "enc").asStr.map fun value => (.enc, "enc", value, value)
  else (op.get "hash").asStr.map fun value => (.hash, "hash", value, value)

/-- `AttributeHandler.additional_dynamic_validation`. -/
def attribDynamicValidation : Except DomainError Unit :=
  match (req.operation.get "dest").asStr, attribField plenum req.operation with
  | some dest, some (attrType, field, value, getKey) =>
    if dest ≠ "" ∧ node.cache.getNym dest none = none then .error .targetNotAdded
    else
      let isOwner : Bool := node.cache.getOwnerFor dest = req.signed.identifier
      match getAttr sha256 node dest getKey attrType with
      | (oldValue, some _) =>
        validateDomainAction rules node req
          (.edit DomainType.attrib.code field (oldValue.getD "") value isOwner)
      | (_, none) =>
        validateDomainAction rules node req (.add DomainType.attrib.code field value isOwner)
  | _, _ => .error .malformed

/-- `SchemaHandler.additional_dynamic_validation`. -/
def schemaDynamicValidation (path : Bytes) : Except DomainError Unit :=
  validateDomainAction rules node req
    (wholeAction .schema ((node.state path).any fun record => truthy record.value))

/-- `ClaimDefHandler.additional_dynamic_validation`. -/
def claimDefDynamicValidation (path : Bytes) : Except DomainError Unit :=
  let ref := req.operation.get "ref"
  match node.ledger ref with
  | none => .error (.noSuchSeqNo ref)
  | some type =>
    if type ≠ DomainType.schema.code then .error (.notSeqNoOfSchema ref)
    else
      validateDomainAction rules node req
        (wholeAction .claimDef ((node.state path).any fun record => truthy record.value))

/-- `RevocRegDefHandler.additional_dynamic_validation`. -/
def revocRegDefDynamicValidation (path : Bytes) (credDefId : String) : Except DomainError Unit := do
  validateDomainAction rules node req
    (wholeAction .revocRegDef ((node.state path).any fun record => record.value ≠ .null))
  if (node.state (asBytes credDefId)).all fun record =>
    record.value = .null then throw (.noCredDef credDefId)

/-- The value of an entry; its schema makes the fields texts and lists. -/
def entryValue (value : Json) : EntryValue Json :=
  let items : Json → Option (List Json)
    | .array items => some items
    | _ => none
  ⟨(value.index "prevAccum").asStr, (value.index "accum").asStr.getD "",
    items (value.index "issued"), items (value.index "revoked")⟩

/-- `RevocRegEntryHandler.additional_dynamic_validation`. -/
def revocRegEntryValidation (revocRegDefId : String) : Except DomainError Unit :=
  (additionalDynamicValidation
    (fun _ action => (validate rules node.cache.getRole req.signed [action]).isOk) node.revocState
    ⟨req.signed.identifier.getD "", revocRegDefId, (req.operation.get "revocDefType").asStr.getD "",
      entryValue (req.operation.get "value"), 0, 0⟩).mapError .revoc

/-- The dynamic validation of the handler of the request. -/
def domainDynamicValidation : Except DomainError Unit :=
  match prepareForState plenum req.type req.signed.identifier req.operation with
  | none => .error .malformed
  | some txn =>
    match txn with
    | .nym _ => nymRequestValidation rules node req
    | .attrib .. => attribDynamicValidation plenum sha256 rules node req
    | .schema .. => schemaDynamicValidation rules node req (txn.statePath sha256)
    | .claimDef .. => claimDefDynamicValidation rules node req (txn.statePath sha256)
    | .revocRegDef _ credDefId _ _ =>
      revocRegDefDynamicValidation rules node req (txn.statePath sha256) credDefId
    | .revocRegEntry revocRegDefId => revocRegEntryValidation rules node req revocRegDefId

/-- A request that a node in this state accepts. The identifier of a request is a DID if it has
one. -/
def acceptsDomain : Bool :=
  (req.signed.identifier.all fun did => plenum.identifierField (.string did)) &&
    acceptsStatic plenum req.type req.operation &&
    (domainDynamicValidation plenum sha256 rules node req).isOk

end Validation

end SimpleAsset.IndyNode
