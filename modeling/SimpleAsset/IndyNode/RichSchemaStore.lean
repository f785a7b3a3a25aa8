import SimpleAsset.Indy.Wql.JsonText
import SimpleAsset.IndyNode.KeyCollision
import SimpleAsset.IndyNode.RichSchema
import SimpleAsset.Library.Table

/-! Rich schema objects in the domain state: how requests write them, and how they are read
(`abstract_rich_schema_object_handler.py`, `read_req_handlers/rich_schema`). -/
namespace SimpleAsset.IndyNode.RichSchema
open SimpleAsset.Indy SimpleAsset.Library

/-- The fields of an operation that its handler writes. -/
structure RichObject where
  id : String
  rsType : String
  rsName : String
  rsVersion : String
  content : String
  deriving DecidableEq

def makeSecondaryKey (rsType rsName rsVersion : String) : String :=
  rsType ++ ":" ++ rsName ++ ":" ++ rsVersion

def RichObject.secondaryKey (object : RichObject) : String :=
  makeSecondaryKey object.rsType object.rsName object.rsVersion

/-- A transaction of the ledger. -/
structure RichTxn where
  object : RichObject
  sender : Option String
  endorser : Option String
  payloadVersion : Option String
  seqNo : ℕ
  txnTime : ℕ
  deriving DecidableEq

def optionalJson (text : Option String) : Json := (text.map Json.string).getD .null

/-- The value that `update_state` encodes. -/
def RichTxn.record (txn : RichTxn) : StateRecord :=
  ⟨.object [("content", .string txn.object.content), ("endorser", optionalJson txn.endorser),
    ("from", optionalJson txn.sender), ("id", .string txn.object.id),
    ("rsName", .string txn.object.rsName),
    ("rsType", .string txn.object.rsType), ("rsVersion", .string txn.object.rsVersion),
    ("ver", optionalJson txn.payloadVersion)], txn.seqNo, txn.txnTime⟩

/-- A text of the domain state: an encoded value, or the id that a secondary key leads to. -/
inductive StateText
  | value (record : StateRecord)
  | id (text : String)

/-- The domain state. -/
abbrev RichState := Table String StateText

/-- A node with rich schemas: its configuration, and what it takes from plenum. -/
structure RichNode where
  enableRichSchemas : Bool
  plenum : WritePlenum
  python : Python
  /-- `encode_state_value`. -/
  encodeStateValue : StateRecord → String
  /-- `decode_state_value` of a text that `encode_state_value` has not made; most texts raise. -/
  decodeText : String → Option StateRecord

/-- A request with what the node knows when it comes to it. -/
structure RichRequest where
  signed : SignedRequest
  type : RichType
  operation : Operation
  payloadVersion : Option String
  rules : List (String × Constraint)
  cache : RoleCache
  seqNo : ℕ
  txnTime : ℕ

/-- The domain ledger, as far as rich schema objects are in it, with the state. -/
structure RichLedger where
  txns : List RichTxn
  state : RichState

namespace RichNode
variable (node : RichNode)

def decode : StateText → Option StateRecord
  | .value record => some record
  | .id text => node.decodeText text

/-- `get_from_state`, which gives `None` for what is not there. -/
def getFromState (state : RichState) : Json → Except RichError Json
  | .string path =>
    match state.lookup path with
    | none => .ok .null
    | some text =>
      match node.decode text with
      | some record => .ok record.value
      | none => .error .raised
  | _ => .error .raised

/-- `rich_schema_objects_schema`. -/
def richSchemaObjectsSchema (type : RichType) : List FieldSpec :=
  [constantField "type" (.string type.code), nonEmptyStringField node.plenum.toPlenum "id",
    constantField "rsType" (.string type.rsType),
    limitedLengthStringField node.plenum.toPlenum "rsName" node.plenum.nameFieldLimit false,
    versionField node.plenum.toPlenum "rsVersion",
    nonEmptyStringField node.plenum.toPlenum "content",
    limitedLengthStringField node.plenum.toPlenum "ver" node.plenum.defaultLengthLimit true]

/-- `static_validation`. -/
def staticValidation (request : RichRequest) : Except RichError Unit := do
  if !node.enableRichSchemas
    then throw (.invalidClientRequest "RichSchema transactions are disabled")
  match (request.operation.get "content").asStr.bind node.plenum.jsonLoads with
  | none => throw (.invalidClientRequest "'content' must be a JSON serialized string")
  | some content =>
    if request.type.isJsonLdContent then staticValidationJsonLd request.operation content
    staticValidationContent node.python request.type content

def objectOf (op : Operation) : Option RichObject := do
  return ⟨← (op.get "id").asStr, ← (op.get "rsType").asStr, ← (op.get "rsName").asStr,
    ← (op.get "rsVersion").asStr, ← (op.get "content").asStr⟩

def alreadyExistsReason (object : RichObject) : String :=
  "An object with rsName=\"" ++ object.rsName ++ "\", rsVersion=\"" ++ object.rsVersion ++
    "\" and rsType=\"" ++
    object.rsType ++ "\" already exists. Please choose different rsName, rsVersion or rsType"

/-- The check that name, type and version of a new object are unique within all rich schema
objects. -/
def checkUnique (state : RichState) (rsObject : Json) (object : RichObject) :
    Except RichError Unit :=
  if !truthy rsObject && (state.lookup object.secondaryKey).isSome then
    .error (.invalidClientRequest (alreadyExistsReason object))
  else .ok ()

/-- The authorization by the rules for adding an object, or for editing it if it is there. -/
def authorizeAction (request : RichRequest) (rsObject : Json) : Except RichError Unit :=
  let code := request.type.code
  let action := if truthy rsObject then AuthAction.edit code "*" "*" "*" true
    else AuthAction.add code "*" "*" true
  (validate request.rules request.cache request.signed [action]).mapError .unauthorized

/-- `additional_dynamic_validation`. -/
def dynamicValidation (state : RichState) (request : RichRequest) (object : RichObject) :
    Except RichError Unit := do
  let rsObject ← node.getFromState state (.string object.id)
  checkUnique state rsObject object
  authorizeAction request rsObject
  match node.plenum.jsonLoads object.content with
  | none => throw .raised
  | some content =>
    dynamicValidationContent node.python (node.getFromState state) request.type content

def txnOf (request : RichRequest) (object : RichObject) : RichTxn :=
  ⟨object, request.signed.identifier, request.signed.endorser, request.payloadVersion,
    request.seqNo, request.txnTime⟩

end RichNode

/-- `update_state`. -/
def updateState (state : RichState) (txn : RichTxn) : RichState :=
  (state.insert txn.object.id (.value txn.record)).insert txn.object.secondaryKey
    (.id txn.object.id)

namespace RichNode
variable (node : RichNode)

/-- A request is checked against the schema of its operation, statically and dynamically, and
written. -/
def applyRequest (ledger : RichLedger) (request : RichRequest) : Except RichError RichLedger :=
  if !node.plenum.validateMessage (node.richSchemaObjectsSchema request.type) request.operation
    then .error .raised
  else
    match objectOf request.operation with
    | none => .error .raised
    | some object => do
      node.staticValidation request
      node.dynamicValidation ledger.state request object
      let txn := txnOf request object
      return ⟨ledger.txns ++ [txn], updateState ledger.state txn⟩

/-- A request that fails leaves the ledger as it is. -/
def step (ledger : RichLedger) (request : RichRequest) : RichLedger :=
  match node.applyRequest ledger request with
  | .ok ledger' => ledger'
  | .error _ => ledger

def afterRequests (state : RichState) (requests : List RichRequest) : RichLedger :=
  requests.foldl node.step ⟨[], state⟩

section Reads

variable (state : RichState)

/-- `lookup`: the record under a path, if there is one. -/
def lookup (path : String) : Except RichError (Option StateRecord) :=
  match state.lookup path with
  | none => .ok none
  | some text =>
    match node.decode text with
    | some record => .ok (some record)
    | none => .error .raised

def validateQueriesEnabled : Except RichError Unit :=
  if node.enableRichSchemas then .ok ()
    else .error (.invalidClientRequest "RichSchema queries are disabled")

/-- `GetRichSchemaObjectByIdHandler.get_result`. -/
def getRichSchemaObjectById (id : String) : Except RichError (Option StateRecord) := do
  node.validateQueriesEnabled
  node.lookup state id

/-- The bytes of a text as the path of another. -/
def textOf : StateText → String
  | .value record => node.encodeStateValue record
  | .id text => text

/-- `GetRichSchemaObjectByMetadataHandler.get_result`. -/
def getRichSchemaObjectByMetadata (rsType rsName rsVersion : String) :
    Except RichError (Option StateRecord) := do
  node.validateQueriesEnabled
  match state.lookup (makeSecondaryKey rsType rsName rsVersion) with
  | none => return none
  | some id => node.lookup state (node.textOf id)

end Reads

end RichNode

section Steps
variable {node : RichNode} {state : RichState} {ledger ledger' : RichLedger} {request : RichRequest}
  {requests : List RichRequest} {object : RichObject} {txn : RichTxn}

/-- Rules that let nobody edit a rich schema object. -/
def ForbidsEdits (rules : List (String × Constraint)) : Prop :=
  ∀ type : RichType,
    getAuthConstraint (AuthAction.edit type.code "*" "*" "*" true).getActionId rules =
    some (some .forbidden)

/-- What holds of a request that is written, where nobody may edit. -/
structure Passed (node : RichNode) (ledger : RichLedger) (request : RichRequest)
    (object : RichObject) : Prop where
  enabled : node.enableRichSchemas = true
  message : node.plenum.validateMessage
    (node.richSchemaObjectsSchema request.type) request.operation = true
  object_eq : RichNode.objectOf request.operation = some object
  absent : ∃ current, node.getFromState ledger.state (.string object.id) = .ok current ∧
    truthy current = false
  unique : ledger.state.lookup object.secondaryKey = none
  content : ∃ content, node.plenum.jsonLoads object.content = some content ∧
    dynamicValidationContent node.python
    (node.getFromState ledger.state) request.type content = .ok ()

theorem not_authorizeAction {current : Json} {u : Unit} (hforbids : ForbidsEdits request.rules)
    (htruthy : truthy current = true) : RichNode.authorizeAction request current ≠ .ok u := by
  intro h
  simp [RichNode.authorizeAction, htruthy, validate, hforbids request.type,
    CompositeAuthorizer.authorize, CompositeAuthorizer.composite, Except.mapError] at h

theorem enabled_of_staticValidation {u : Unit} (h : node.staticValidation request = .ok u) :
    node.enableRichSchemas = true := by
  by_contra hdisabled
  rw [Bool.not_eq_true] at hdisabled
  simp [RichNode.staticValidation, hdisabled] at h

theorem applyRequest_eq_ok (hforbids : ForbidsEdits request.rules)
    (h : node.applyRequest ledger request = .ok ledger') : ∃ object,
      Passed node ledger request object ∧ ledger' = ⟨ledger.txns ++ [RichNode.txnOf request object],
      updateState ledger.state (RichNode.txnOf request object)⟩ := by
  unfold RichNode.applyRequest at h
  split_ifs at h with hmessage
  rcases hobject : RichNode.objectOf request.operation with _ | object
  · simp [hobject] at h
  · simp only [hobject, except_bind_eq_ok, RichNode.dynamicValidation] at h
    obtain ⟨_, hstatic, _, ⟨current, hcurrent, _, hunique, _, hauthorized, hcontent⟩, hledger⟩ := h
    have habsent : truthy current = false := by
      by_contra htruthy
      exact not_authorizeAction hforbids (by simpa using htruthy) hauthorized
    refine ⟨object, ⟨enabled_of_staticValidation hstatic, by simpa using hmessage, hobject,
      ⟨current, hcurrent, habsent⟩, ?_, ?_⟩, (Except.ok.inj hledger).symm⟩
    · by_contra hsome
      simp [RichNode.checkUnique, habsent, Option.isSome_iff_ne_none, hsome] at hunique
    · rcases hloads : node.plenum.jsonLoads object.content with _ | content
      · simp [hloads] at hcontent
      · rw [hloads] at hcontent
        exact ⟨content, rfl, hcontent⟩

/-- A request is written, or leaves the ledger as it is. -/
theorem step_cases (node : RichNode) (ledger : RichLedger) (hforbids : ForbidsEdits request.rules) :
    node.step ledger request = ledger ∨
    ∃ object, Passed node ledger request object ∧ node.step ledger request =
      ⟨ledger.txns ++ [RichNode.txnOf request object],
        updateState ledger.state (RichNode.txnOf request object)⟩ := by
  unfold RichNode.step
  rcases happly : node.applyRequest ledger request with _ | ledger'
  · exact .inl rfl
  · exact .inr (applyRequest_eq_ok hforbids happly)

theorem lookup_updateState (state : RichState) (txn : RichTxn) (key : String) :
    (updateState state txn).lookup key =
    if key = txn.object.secondaryKey then some (.id txn.object.id)
    else if key = txn.object.id then some (.value txn.record)
    else state.lookup key := by
  rw [updateState, Table.lookup_insert_ite, Table.lookup_insert_ite]

@[simp] theorem txnOf_object (request : RichRequest) (object : RichObject) :
    (RichNode.txnOf request object).object = object := rfl

theorem getFromState_congr {state' : RichState} {path : String}
    (h : state'.lookup path = state.lookup path) :
    node.getFromState state' (.string path) = node.getFromState state (.string path) := by
  simp only [RichNode.getFromState, h]

/-- Nothing that was found under a path is written over, as long as nobody may edit. -/
theorem keeps_step (hforbids : ForbidsEdits request.rules) :
    Keeps (node.getFromState ledger.state)
      (node.getFromState (node.step ledger request).state) := by
  rcases step_cases node ledger hforbids with hstep | ⟨object, hpassed, hstep⟩
  · rw [hstep]
    exact fun _ _ hfound _ => hfound
  · rw [hstep]
    intro ref found hfound htruthy
    cases ref with
    | string path =>
      rw [← hfound]
      apply getFromState_congr
      have hid : path ≠ object.id := by
        rintro rfl
        obtain ⟨current, hcurrent, habsent⟩ := hpassed.absent
        obtain rfl := Except.ok.inj (hfound.symm.trans hcurrent)
        rw [htruthy] at habsent
        cases habsent
      have hkey : path ≠ object.secondaryKey := by
        rintro rfl
        rw [RichNode.getFromState, hpassed.unique] at hfound
        obtain rfl := Except.ok.inj hfound
        cases htruthy
      rw [lookup_updateState, txnOf_object, if_neg hkey, if_neg hid]
    | _ => cases hfound

theorem asStr_of_objectOf {op : Operation} (h : RichNode.objectOf op = some object) :
    (op.get "rsType").asStr = some object.rsType ∧
    (op.get "rsVersion").asStr = some object.rsVersion := by
  simp only [RichNode.objectOf, Option.bind_eq_bind, Option.bind_eq_some_iff] at h
  obtain ⟨id, -, rsType, hrsType, rsName, -, rsVersion, hrsVersion, content, -, hobject⟩ := h
  obtain rfl := Option.some.inj hobject
  exact ⟨hrsType, hrsVersion⟩

theorem Passed.rsType_eq (h : Passed node ledger request object) :
    object.rsType = request.type.rsType := by
  obtain ⟨val, hlookup, hval⟩ := exists_lookup h.message
    (show constantField "rsType" (.string request.type.rsType) ∈
      _ by simp [RichNode.richSchemaObjectsSchema]) rfl
  obtain rfl : val = .string request.type.rsType := of_decide_eq_true hval
  have htype := (asStr_of_objectOf h.object_eq).1
  have hget : request.operation.get "rsType" = .string request.type.rsType :=
    Operation.get_of_lookup hlookup
  rw [hget, asStr_string] at htype
  exact (Option.some.inj htype).symm

/-- The references in an object stand, if it is of a type that has some. -/
def Stands (node : RichNode) (state : RichState) (object : RichObject) : Prop :=
  ∃ content, node.plenum.jsonLoads object.content = some content ∧
    (object.rsType = RichType.mapping.rsType →
      MappingStands node.python (node.getFromState state) content) ∧
    (object.rsType = RichType.credDef.rsType → CredDefStands (node.getFromState state) content)

theorem rsType_injective : Function.Injective RichType.rsType := by
  intro type type' h
  revert h
  cases type <;> cases type' <;> decide

theorem Passed.stands (h : Passed node ledger request object) :
    Stands node ledger.state object := by
  obtain ⟨content, hloads, hcontent⟩ := h.content
  refine ⟨content, hloads, ?_, ?_⟩
  · intro htype
    rw [← rsType_injective (htype.symm.trans h.rsType_eq)] at hcontent
    exact mappingStands_of_validation hcontent
  · intro htype
    rw [← rsType_injective (htype.symm.trans h.rsType_eq)] at hcontent
    exact credDefStands_of_validation hcontent

theorem Stands.mono {state' : RichState} (h : Stands node state object)
    (hkeeps : Keeps (node.getFromState state) (node.getFromState state')) :
    Stands node state' object := by
  obtain ⟨content, hloads, hmapping, hcredDef⟩ := h
  exact ⟨content, hloads, fun htype => (hmapping htype).mono hkeeps, fun htype =>
    (hcredDef htype).mono hkeeps⟩

theorem stands_step (hforbids : ForbidsEdits request.rules)
    (h : ∀ txn ∈ ledger.txns, Stands node ledger.state txn.object) :
    ∀ txn ∈ (node.step ledger request).txns,
      Stands node (node.step ledger request).state txn.object := by
  intro txn htxn
  refine Stands.mono ?_ (keeps_step hforbids)
  rcases step_cases node ledger hforbids with hstep | ⟨object, hpassed, hstep⟩
  · rw [hstep] at htxn
    exact h txn htxn
  · rw [hstep] at htxn
    rcases List.mem_append.mp htxn with hold | hnew
    · exact h txn hold
    · rw [List.mem_singleton.mp hnew]
      exact hpassed.stands

/-- As long as nobody may edit, whatever a mapping or a credential definition on the ledger refers
to is there, has the type that it must have, and the ranks of a mapping number its attributes. -/
theorem references_stand (node : RichNode) (state : RichState) (requests : List RichRequest)
    (hforbids : ∀ request ∈ requests, ForbidsEdits request.rules) (txn : RichTxn)
    (htxn : txn ∈ (node.afterRequests state requests).txns) :
    Stands node (node.afterRequests state requests).state txn.object := by
  revert txn
  refine List.foldlRecOn
    (motive := fun ledger => ∀ txn ∈ ledger.txns, Stands node ledger.state txn.object) requests
    node.step ?_ ?_
  · intro txn hnil
    cases hnil
  · intro ledger h request hrequest
    exact stands_step (hforbids request hrequest) h

end Steps

section Lookups
variable {node : RichNode} {ledger ledger' : RichLedger} {request : RichRequest}
    {requests : List RichRequest}
  {object : RichObject} {txn : RichTxn} {key : String} {text : StateText}

/-- A text that is neither read as a state value nor the text of one. -/
def PlainText (node : RichNode) (text : String) : Prop :=
  node.decodeText text = none ∧ ∀ record, node.encodeStateValue record ≠ text

/-- The ids in the requests are plain texts. -/
def PlainIds (node : RichNode) (requests : List RichRequest) : Prop :=
  ∀ request ∈ requests, ∀ object, RichNode.objectOf request.operation = some object →
    PlainText node object.id

/-- What the transactions of a ledger have written under a key. -/
def Written (txns : List RichTxn) (key : String) (text : StateText) : Prop :=
  ∃ txn ∈ txns, (key = txn.object.secondaryKey ∧ text = .id txn.object.id) ∨
    (key = txn.object.id ∧ key ≠ txn.object.secondaryKey ∧ text = .value txn.record)

/-- The state is what the transactions have written, each under keys of its own. -/
structure Indexed (node : RichNode) (ledger : RichLedger) : Prop where
  lookup_iff : ∀ key text, ledger.state.lookup key = some text ↔ Written ledger.txns key text
  plain : ∀ txn ∈ ledger.txns, PlainText node txn.object.id
  enabled : ∀ txn ∈ ledger.txns, node.enableRichSchemas = true

theorem indexed_empty : Indexed node ⟨[], ∅⟩ := by
  refine ⟨fun key text => ?_, ?_, ?_⟩
  · simp [Written]
  · simp
  · simp

/-- The id of an object that is new is no key of the state. -/
theorem lookup_id_of_passed (h : Indexed node ledger)
    (hpassed : Passed node ledger request object) :
    ledger.state.lookup object.id = none := by
  obtain ⟨current, hcurrent, habsent⟩ := hpassed.absent
  rw [RichNode.getFromState] at hcurrent
  rcases hlookup : ledger.state.lookup object.id with _ | text
  · rfl
  · exfalso
    obtain ⟨txn, htxn, ⟨hkey, rfl⟩ | ⟨hkey, -, rfl⟩⟩ := (h.lookup_iff _ _).mp hlookup
    · simp [hlookup, RichNode.decode, (h.plain txn htxn).1] at hcurrent
    · simp only [hlookup, RichNode.decode, Except.ok.injEq] at hcurrent
      rw [← hcurrent] at habsent
      cases habsent

theorem written_concat_iff {txns : List RichTxn} :
    Written (txns ++ [txn]) key text ↔ Written txns key text ∨
    (key = txn.object.secondaryKey ∧ text = .id txn.object.id) ∨
      (key = txn.object.id ∧ key ≠ txn.object.secondaryKey ∧ text = .value txn.record) := by
  simp [Written, or_and_right, exists_or]

theorem Indexed.step (h : Indexed node ledger) (hforbids : ForbidsEdits request.rules)
    (hplain : ∀ object, RichNode.objectOf request.operation = some object →
      PlainText node object.id) :
    Indexed node (node.step ledger request) := by
  rcases step_cases node ledger hforbids with hstep | ⟨object, hpassed, hstep⟩
  · rw [hstep]
    exact h
  · rw [hstep]
    refine ⟨fun key text => ?_, ?_, fun _ _ => hpassed.enabled⟩
    · rw [written_concat_iff, lookup_updateState, txnOf_object]
      split_ifs with hkey hid
      · subst hkey
        have hold : ¬ Written ledger.txns object.secondaryKey text := by
          rw [← h.lookup_iff, hpassed.unique]
          simp
        simp [hold, eq_comm]
      · subst hid
        have hold : ¬ Written ledger.txns object.id text := by
          rw [← h.lookup_iff, lookup_id_of_passed h hpassed]
          simp
        simp [hkey, hold, eq_comm]
      · simp [hkey, hid, h.lookup_iff]
    · intro txn htxn
      rcases List.mem_append.mp htxn with hold | hnew
      · exact h.plain txn hold
      · rw [List.mem_singleton.mp hnew]
        exact hplain object hpassed.object_eq

theorem indexed_afterRequests (hforbids : ∀ request ∈ requests, ForbidsEdits request.rules)
    (hplain : PlainIds node requests) : Indexed node (node.afterRequests ∅ requests) := by
  refine List.foldlRecOn (motive := Indexed node) requests node.step indexed_empty ?_
  intro ledger h request hrequest
  exact h.step (hforbids request hrequest) (hplain request hrequest)

/-- What is found under a path is what a transaction wrote there with its id, and kept its secondary
key away from. -/
theorem Indexed.lookup_eq_some_iff (h : Indexed node ledger) {path : String}
    {record : StateRecord} :
    node.lookup ledger.state path = .ok (some record) ↔
      ∃ txn ∈ ledger.txns, txn.object.id = path ∧ path ≠ txn.object.secondaryKey ∧
        txn.record = record := by
  unfold RichNode.lookup
  constructor
  · intro hfound
    rcases hlookup : ledger.state.lookup path with _ | text
    · simp [hlookup] at hfound
    · obtain ⟨txn, htxn, ⟨-, rfl⟩ | ⟨hid, hkey, rfl⟩⟩ := (h.lookup_iff _ _).mp hlookup
      · simp [hlookup, RichNode.decode, (h.plain txn htxn).1] at hfound
      · simp only [hlookup, RichNode.decode, Except.ok.injEq, Option.some.injEq] at hfound
        exact ⟨txn, htxn, hid.symm, hkey, hfound⟩
  · rintro ⟨txn, htxn, rfl, hkey, rfl⟩
    rw [(h.lookup_iff _ _).mpr ⟨txn, htxn, .inr ⟨rfl, hkey, rfl⟩⟩]
    rfl

theorem validateQueriesEnabled_of_txn (h : Indexed node ledger) (htxn : txn ∈ ledger.txns) :
    node.validateQueriesEnabled = .ok () := by
  rw [RichNode.validateQueriesEnabled, if_pos (h.enabled txn htxn)]

/-- As long as nobody may edit, an object is read by its id exactly as it was written, if its
secondary key is another text, and nothing else is read. -/
theorem found_by_id_iff (node : RichNode) (requests : List RichRequest)
    (hforbids : ∀ request ∈ requests, ForbidsEdits request.rules) (hplain : PlainIds node requests)
    (id : String) (record : StateRecord) :
    node.getRichSchemaObjectById (node.afterRequests ∅ requests).state id = .ok (some record) ↔
      ∃ txn ∈ (node.afterRequests ∅ requests).txns, txn.object.id = id ∧
        id ≠ txn.object.secondaryKey ∧
        txn.record = record := by
  have h := indexed_afterRequests hforbids hplain
  rw [RichNode.getRichSchemaObjectById, except_bind_eq_ok, h.lookup_eq_some_iff]
  constructor
  · rintro ⟨_, -, hfound⟩
    exact hfound
  · rintro ⟨txn, htxn, hfound⟩
    exact ⟨(), validateQueriesEnabled_of_txn h htxn, txn, htxn, hfound⟩

theorem Passed.colon_notMem (hfields : KeyFields node.plenum.toPlenum)
    (h : Passed node ledger request object) :
    ':' ∉ object.rsType.toList ∧ ':' ∉ object.rsVersion.toList := by
  constructor
  · rw [h.rsType_eq]
    cases request.type <;> decide
  · obtain ⟨val, hlookup, hval⟩ := exists_lookup h.message
      (show versionField node.plenum.toPlenum "rsVersion" ∈
        _ by simp [RichNode.richSchemaObjectsSchema]) rfl
    obtain ⟨version, rfl⟩ := exists_string_of_validateField hval
    have hversion := (asStr_of_objectOf h.object_eq).2
    have hget : request.operation.get "rsVersion" = .string version :=
      Operation.get_of_lookup hlookup
    rw [hget, asStr_string] at hversion
    obtain rfl := Option.some.inj hversion
    exact colon_notMem_of_version hfields (specific_of_validateField hval)

theorem colon_notMem_afterRequests (hforbids : ∀ request ∈ requests, ForbidsEdits request.rules)
    (hfields : KeyFields node.plenum.toPlenum) :
    ∀ txn ∈ (node.afterRequests ∅ requests).txns,
      ':' ∉ txn.object.rsType.toList ∧ ':' ∉ txn.object.rsVersion.toList := by
  refine List.foldlRecOn
    (motive := fun ledger : RichLedger => ∀ txn ∈ ledger.txns, ':' ∉ txn.object.rsType.toList ∧
    ':' ∉ txn.object.rsVersion.toList) requests node.step (by simp) ?_
  intro ledger h request hrequest txn htxn
  rcases step_cases node ledger (hforbids request hrequest) with hstep | ⟨object, hpassed, hstep⟩
  · rw [hstep] at htxn
    exact h txn htxn
  · rw [hstep] at htxn
    rcases List.mem_append.mp htxn with hold | hnew
    · exact h txn hold
    · rw [List.mem_singleton.mp hnew]
      exact hpassed.colon_notMem hfields

/-- A secondary key names one object, if no colon stands in the type and in the version. -/
theorem makeSecondaryKey_inj {rsType rsName rsVersion rsType' rsName' rsVersion' : String}
    (htype : ':' ∉ rsType.toList)
    (htype' : ':' ∉ rsType'.toList) (hversion : ':' ∉ rsVersion.toList)
    (hversion' : ':' ∉ rsVersion'.toList) :
    makeSecondaryKey rsType rsName rsVersion = makeSecondaryKey rsType' rsName' rsVersion' ↔
      rsType = rsType' ∧ rsName = rsName' ∧ rsVersion = rsVersion' := by
  have htext : ∀ t n v : String,
      (makeSecondaryKey t n v).toList = t.toList ++ ':' :: (n.toList ++ ':' :: v.toList) := by
    simp [makeSecondaryKey]
  rw [← String.toList_inj, htext, htext, joined_inj_of_left htype htype',
    joined_inj_of_right hversion hversion', String.toList_inj, String.toList_inj, String.toList_inj]

/-- As long as nobody may edit, an object is read by its metadata exactly as it was written, if its
id is not its secondary key, and nothing else is read. -/
theorem found_by_metadata_iff (node : RichNode) (requests : List RichRequest)
    (hforbids : ∀ request ∈ requests, ForbidsEdits request.rules) (hplain : PlainIds node requests)
    (hfields : KeyFields node.plenum.toPlenum) (rsType rsName rsVersion : String)
    (htype : ':' ∉ rsType.toList) (hversion : ':' ∉ rsVersion.toList) (record : StateRecord) :
    node.getRichSchemaObjectByMetadata
      (node.afterRequests ∅ requests).state rsType rsName rsVersion =
        .ok (some record) ↔
      ∃ txn ∈ (node.afterRequests ∅ requests).txns, txn.object.rsType = rsType ∧
        txn.object.rsName = rsName ∧
        txn.object.rsVersion = rsVersion ∧ txn.object.id ≠ txn.object.secondaryKey ∧
        txn.record = record := by
  have h := indexed_afterRequests hforbids hplain
  have hcolon := colon_notMem_afterRequests hforbids hfields
  rw [RichNode.getRichSchemaObjectByMetadata, except_bind_eq_ok]
  constructor
  · rintro ⟨_, -, hfound⟩
    rcases hkey : (node.afterRequests ∅ requests).state.lookup
      (makeSecondaryKey rsType rsName rsVersion) with _ | text
    · simp [hkey] at hfound
    · rw [hkey] at hfound
      obtain ⟨txn, htxn, ⟨hsame, rfl⟩ | ⟨-, -, rfl⟩⟩ := (h.lookup_iff _ _).mp hkey
      · obtain ⟨txn', htxn', hid', hkey', rfl⟩ := h.lookup_eq_some_iff.mp hfound
        have hvalue :=
          (h.lookup_iff txn.object.id _).mpr ⟨txn', htxn', .inr ⟨hid'.symm, hkey', rfl⟩⟩
        have hid : txn.object.id ≠ txn.object.secondaryKey := by
          intro heq
          have hown := (h.lookup_iff txn.object.id _).mpr ⟨txn, htxn, .inl ⟨heq, rfl⟩⟩
          cases hvalue.symm.trans hown
        have hown := (h.lookup_iff txn.object.id _).mpr ⟨txn, htxn, .inr ⟨rfl, hid, rfl⟩⟩
        have hrecord : txn.record = txn'.record :=
          StateText.value.inj (Option.some.inj (hown.symm.trans hvalue))
        obtain ⟨htype', hversion'⟩ := hcolon txn htxn
        obtain ⟨rfl, rfl, rfl⟩ := (makeSecondaryKey_inj htype htype' hversion hversion').mp hsame
        exact ⟨txn, htxn, rfl, rfl, rfl, hid, hrecord⟩
      · -- The text of a value is no id.
        obtain ⟨txn', htxn', hid', -⟩ := h.lookup_eq_some_iff.mp hfound
        exact absurd hid'.symm ((h.plain txn' htxn').2 _)
  · rintro ⟨txn, htxn, rfl, rfl, rfl, hid, rfl⟩
    have hkey := (h.lookup_iff txn.object.secondaryKey _).mpr ⟨txn, htxn, .inl ⟨rfl, rfl⟩⟩
    rw [RichObject.secondaryKey] at hkey
    refine ⟨(), validateQueriesEnabled_of_txn h htxn, ?_⟩
    rw [hkey]
    exact h.lookup_eq_some_iff.mpr ⟨txn, htxn, rfl, hid, rfl⟩

end Lookups

section Samples

def sampleSchemaText : String := "\x7b\"@id\":\"did:s\",\"@type\":\"rdfs:Class\"\x7d"

def sampleEncodingText : String :=
  "\x7b\"input\":\x7b\"id\":\"i\",\"type\":\"t\"\x7d,\"output\":\x7b\"id\":\"o\",\"type\":\"t\"\x7d,\"algorithm\":" ++
    "\x7b\"description\":\"d\",\"documentation\":\"u\",\"implementation\":\"u\"\x7d,\"testVectors\":\"u\"\x7d"

def sampleMappingText : String :=
  "\x7b\"@id\":\"did:m\",\"@type\":\"rdfs:Class\",\"schema\":\"did:s\",\"attributes\":\x7b\"issuer\":" ++
    "\x7b\"enc\":\"did:e\",\"rank\":2\x7d,\"issuanceDate\":[\x7b\"enc\":\"did:e\",\"rank\":1\x7d]\x7d\x7d"

/-- The contents of the sample by their texts. -/
def sampleDocuments : List (String × Json) :=
  [(sampleSchemaText, .object [("@id", .string "did:s"), ("@type", .string "rdfs:Class")]),
    (sampleEncodingText,
      .object [("algorithm", .object [("description", .string "d"), ("documentation", .string "u"),
          ("implementation", .string "u")]),
            ("input", .object [("id", .string "i"), ("type", .string "t")]),
        ("output", .object [("id", .string "o"), ("type", .string "t")]),
          ("testVectors", .string "u")]),
    (sampleMappingText,
      .object [("@id", .string "did:m"), ("@type", .string "rdfs:Class"),
        ("attributes", .object [
          ("issuanceDate",
            .array [.object [("enc", .string "did:e"), ("rank", .number (.posInt 1))]]),
          ("issuer", .object [("enc", .string "did:e"), ("rank", .number (.posInt 2))])]),
        ("schema", .string "did:s")])]

def sampleNode : RichNode where
  enableRichSchemas := true
  plenum := { sampleWritePlenum with jsonLoads := fun text => sampleDocuments.lookup text }
  python := ⟨fun c => c.isAlphanum || c = '_', fun _ => none⟩
  encodeStateValue := fun record => String.ofList record.toJson.text
  decodeText := fun _ => none

def sampleRequest (type : RichType) (id content : String) (seqNo : ℕ) : RichRequest where
  signed := .single "V4SGRU86Z58d6TV7PBUe6f"
  type := type
  operation := [("type", .string type.code), ("id", .string id), ("rsType", .string type.rsType),
    ("rsName", .string "n"), ("rsVersion", .string "1.0"), ("content", .string content)]
  payloadVersion := none
  rules := authMap
  cache := fun did => if did = "V4SGRU86Z58d6TV7PBUe6f" then some "0" else none
  seqNo := seqNo
  txnTime := 1000

def sampleTxn (type : RichType) (id content : String) (seqNo : ℕ) : RichTxn :=
  RichNode.txnOf (sampleRequest type id content seqNo) ⟨id, type.rsType, "n", "1.0", content⟩

/-- A schema, an encoding, and a mapping that refers to both. -/
def sampleRequests : List RichRequest :=
  [sampleRequest .richSchema "did:s" sampleSchemaText 1,
    sampleRequest .encoding "did:e" sampleEncodingText 2,
    sampleRequest .mapping "did:m" sampleMappingText 3]

theorem forbidsEdits_sampleRequests : ∀ request ∈ sampleRequests, ForbidsEdits request.rules := by
  have hforbids : ForbidsEdits authMap := by
    intro type
    cases type <;> rfl
  intro request hrequest
  simp only [sampleRequests, List.mem_cons, List.not_mem_nil, or_false] at hrequest
  rcases hrequest with rfl | rfl | rfl <;> exact hforbids

theorem plainIds_sampleRequests : PlainIds sampleNode sampleRequests := by
  have hplain : ∀ id : String, id.toList.head? = some 'd' → PlainText sampleNode id := by
    intro id hid
    refine ⟨rfl, ?_⟩
    rintro record rfl
    -- The text of a value begins with a brace.
    simp [sampleNode, StateRecord.toJson, Json.text] at hid
  intro request hrequest object hobject
  apply hplain
  simp only [sampleRequests, List.mem_cons, List.not_mem_nil, or_false] at hrequest
  rcases hrequest with rfl | rfl | rfl
  all_goals
    obtain rfl := Option.some.inj hobject
    rfl

set_option maxRecDepth 20000 in
theorem txns_sampleRequests : (sampleNode.afterRequests ∅ sampleRequests).txns =
    [sampleTxn .richSchema "did:s" sampleSchemaText 1,
      sampleTxn .encoding "did:e" sampleEncodingText 2,
      sampleTxn .mapping "did:m" sampleMappingText 3] := by
  rfl

theorem mem_txns_sampleRequests : sampleTxn .mapping "did:m" sampleMappingText 3 ∈
    (sampleNode.afterRequests ∅ sampleRequests).txns := by
  rw [txns_sampleRequests]
  simp

theorem references_stand_sample :
    Stands sampleNode (sampleNode.afterRequests ∅ sampleRequests).state
    (sampleTxn .mapping "did:m" sampleMappingText 3).object :=
  references_stand sampleNode ∅ sampleRequests forbidsEdits_sampleRequests _ mem_txns_sampleRequests

theorem found_by_id_iff_sample :
    sampleNode.getRichSchemaObjectById (sampleNode.afterRequests ∅ sampleRequests).state "did:m" =
      .ok (some (sampleTxn .mapping "did:m" sampleMappingText 3).record) :=
  (found_by_id_iff sampleNode sampleRequests forbidsEdits_sampleRequests plainIds_sampleRequests
    "did:m" _).mpr ⟨_, mem_txns_sampleRequests, rfl, by decide, rfl⟩

theorem found_by_metadata_iff_sample :
    sampleNode.getRichSchemaObjectByMetadata
      (sampleNode.afterRequests ∅ sampleRequests).state "map" "n" "1.0" =
      .ok (some (sampleTxn .mapping "did:m" sampleMappingText 3).record) :=
  (found_by_metadata_iff sampleNode sampleRequests forbidsEdits_sampleRequests
    plainIds_sampleRequests keyFields_standardPlenum "map" "n" "1.0" (by decide) (by decide) _).mpr
    ⟨_, mem_txns_sampleRequests, rfl, rfl, rfl, by decide, rfl⟩

end Samples

end SimpleAsset.IndyNode.RichSchema
