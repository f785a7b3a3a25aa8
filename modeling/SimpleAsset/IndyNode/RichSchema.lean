import Mathlib.Data.List.Sort
import SimpleAsset.IndyNode.AuthMap
import SimpleAsset.IndyNode.RevocRegDelta
import SimpleAsset.IndyNode.WriteRequest

/-! Rich schema objects, and what their handlers check of them
(`domain_req_handlers/rich_schema`). -/
namespace SimpleAsset.IndyNode.RichSchema
open SimpleAsset.Indy SimpleAsset.Library

/-- The handlers, one for each type of object. -/
inductive RichType
  | jsonLdContext
  | richSchema
  | encoding
  | mapping
  | credDef
  | presDef
  deriving DecidableEq, Repr

/-- The type of the transaction. -/
def RichType.code : RichType → String
  | jsonLdContext => "200"
  | richSchema => "201"
  | encoding => "202"
  | mapping => "203"
  | credDef => "204"
  | presDef => "205"

/-- The constant in the field `rsType`. -/
def RichType.rsType : RichType → String
  | jsonLdContext => "ctx"
  | richSchema => "sch"
  | encoding => "enc"
  | mapping => "map"
  | credDef => "cdf"
  | presDef => "pdf"

def RichType.isJsonLdContent : RichType → Bool
  | jsonLdContext | encoding | credDef => false
  | richSchema | mapping | presDef => true

/-- Why a request fails: a refusal with its reason, or an exception. -/
inductive RichError
  | invalidClientRequest (reason : String)
  | unauthorized (error : AuthError)
  | raised
  deriving DecidableEq

/-- What the checks take from Python: `\w` of its regular expressions, and the integer that a float
equals. -/
structure Python where
  isWord : Char → Bool
  floatInt : String → Option ℤ

section Dictionaries

/-- `dict.get(field)`, which other values than dictionaries do not have. -/
def getField (field : String) : Json → Except RichError Json
  | .object fields => .ok (Operation.get fields field)
  | _ => .error .raised

/-- `dict[field]`. -/
def getItem (field : String) : Json → Except RichError Json
  | .object fields =>
    match fields.lookup field with
    | some value => .ok value
    | none => .error .raised
  | _ => .error .raised

/-- `field in content`. -/
def isIn (field : String) : Json → Except RichError Bool
  | .object fields => .ok (Operation.has fields field)
  | .array items => .ok (decide (.string field ∈ items))
  | .string s => .ok (decide (field.toList <:+: s.toList))
  | _ => .error .raised

def quoted (field : String) : String := "'" ++ field ++ "'"

/-- The check for fields that are missing or empty. -/
def requireFields (fields : List String) (separator place : String) (dict : Json) :
    Except RichError Unit := do
  let missingFields ← fields.filterM fun field => return !truthy (← getField field dict)
  if missingFields ≠ [] then
    throw (.invalidClientRequest (separator.intercalate (missingFields.map quoted) ++ place))

end Dictionaries

section StaticValidation

variable (python : Python)

/-- `URI_REGEX`: a scheme with a location or with two names. -/
def matchesUri (uri : List Char) : Bool :=
  let hasWord (text : List Char) : Bool := text.head?.any python.isWord
  hasWord uri &&
    match uri.dropWhile python.isWord with
    | ':' :: '/' :: '/' :: c :: _ => c = '.' || python.isWord c
    | ':' :: rest =>
      hasWord rest &&
        match rest.dropWhile python.isWord with
        | ':' :: id => hasWord id
        | _ => false
    | _ => false

/-- `_bad_uri`. -/
def badUri : Json → Except RichError Bool
  | .string uri => .ok (!matchesUri python uri.toList)
  | _ => .error .raised

def checkUri (uri : Json) : Except RichError Unit := do
  if ← badUri python uri then
    throw (.invalidClientRequest ("@context URI " ++ uri.asStr.getD "" ++ " badly formed"))

/-- `_validate_context`. -/
def validateContext : Json → Except RichError Unit
  | .array items => items.forM fun item => if item.isObject then .ok () else checkUri python item
  | .object _ => .ok ()
  | .string uri => checkUri python (.string uri)
  | _ => .error (.invalidClientRequest "'@context' value must be url, array, or object")

/-- `do_static_validation_json_ld`. -/
def staticValidationJsonLd (op : Operation) (content : Json) : Except RichError Unit := do
  if !truthy (← getField "@id" content) then
    throw (.invalidClientRequest "'content' must be a valid JSON-LD and have non-empty '@id' field")
  if !truthy (← getField "@type" content) then
    throw (.invalidClientRequest
      "'content' must be a valid JSON-LD and have non-empty '@type' field")
  if (← getItem "@id" content) ≠ op.get "id" then
    throw (.invalidClientRequest
      ("content's @id must be equal to id=" ++ (op.get "id").asStr.getD ""))

/-- `JsonLdContextHandler.do_static_validation_content`. -/
def contextStaticValidation (content : Json) : Except RichError Unit := do
  if !(← isIn "@context" content) then
    throw (.invalidClientRequest "'content' must contain a @context field")
  validateContext python (← getItem "@context" content)

/-- `RichSchemaEncodingHandler.do_static_validation_content`. -/
def encodingStaticValidation (content : Json) : Except RichError Unit := do
  requireFields ["input", "output", "algorithm", "testVectors"] ", "
    " must be set in 'content'" content
  ["input", "output"].forM fun io => do
    requireFields ["id", "type"] " and " (" must be set in '" ++ io ++ "'") (← getItem io content)
  requireFields ["description", "documentation", "implementation"] ", "
    " must be set in 'algorithm'" (← getItem "algorithm" content)

/-- `RichSchemaMappingHandler.do_static_validation_content`. -/
def mappingStaticValidation (content : Json) : Except RichError Unit := do
  requireFields ["schema", "attributes"] " and " " must be set in 'content'" content
  requireFields ["issuer", "issuanceDate"] " and " " must be in content's 'attributes'"
    (← getItem "attributes" content)

/-- `RichSchemaCredDefHandler.do_static_validation_content`. -/
def credDefStaticValidation (content : Json) : Except RichError Unit :=
  requireFields ["signatureType", "mapping", "schema", "publicKey"] ", "
    " must be set in 'content'" content

/-- `do_static_validation_content` of the handler. -/
def staticValidationContent (type : RichType) (content : Json) : Except RichError Unit :=
  match type with
  | .jsonLdContext => contextStaticValidation python content
  | .encoding => encodingStaticValidation content
  | .mapping => mappingStaticValidation content
  | .credDef => credDefStaticValidation content
  | .richSchema | .presDef => .ok ()

end StaticValidation

section Leaves

/-- `is_leaf_dict`; what is no dictionary is a leaf as well. -/
def isLeafDict : Json → Bool
  | .object fields =>
    fields.all fun field =>
      match field.2 with
      | .object _ | .array _ => false
      | _ => true
  | _ => true

mutual

/-- `find_encoding_desc_dicts`: the leaves, with the last attribute above each. -/
def findEncodingDescDicts (lastAttr : Option String) : Json → List (Json × Option String)
  | .object fields =>
    if isLeafDict (.object fields) then [(.object fields, lastAttr)] else findInFields fields
  | leaf => [(leaf, lastAttr)]

def findInFields : List (String × Json) → List (Json × Option String)
  | [] => []
  | (name, .array items) :: fields => findInItems name items ++ findInFields fields
  | (name, value) :: fields => findEncodingDescDicts (some name) value ++ findInFields fields

def findInItems (name : String) : List Json → List (Json × Option String)
  | [] => []
  | item :: items => findEncodingDescDicts (some name) item ++ findInItems name items

end

/-- `not v and v != 0`. -/
def isUnset : Json → Bool
  | .bool _ | .number _ => false
  | value => !truthy value

/-- The check of one leaf for an encoding and a rank. -/
def checkDescDict : Json × Option String → Except RichError Unit
  | (.object fields, attr) =>
    let missingFields := ["enc", "rank"].filter fun field => isUnset (Operation.get fields field)
    if missingFields = [] then .ok ()
    else
      .error (.invalidClientRequest
        (" and ".intercalate missingFields ++ " must be set for the attribute '" ++
          attr.getD "None" ++ "'"))
  | (_, attr) =>
    .error (.invalidClientRequest
      ("enc and rank must be set for the attribute '" ++ attr.getD "None" ++ "'"))

/-- The integer that a number equals; booleans are numbers in Python. -/
def rankInt (python : Python) : Json → Option ℤ
  | .number (.float text) => python.floatInt text
  | rank => pyInt rank

def isNumber : Json → Bool
  | .number _ | .bool _ => true
  | _ => false

/-- `list(range(1, n + 1))`. -/
def expectedRanks (n : ℕ) : List ℤ := (List.range n).map fun i => (i : ℤ) + 1

/-- `sorted(ranks) == expected_ranks`. Ranks that have passed their check are numbers or texts,
which cannot be sorted together. -/
def ranksSequential (python : Python) (ranks : List Json) : Except RichError Bool :=
  if ranks.all isNumber then
    .ok (decide ((ranks.mapM (rankInt python)).map (·.insertionSort (· ≤ ·)) = some
      (expectedRanks ranks.length)))
  else if ranks.any isNumber then .error .raised
  else .ok false

end Leaves

section DynamicValidation

variable (python : Python) (getFromState : Json → Except RichError Json)

/-- The check that something was found under an id. -/
def checkFound (notFound : String) (object : Json) : Except RichError Unit :=
  if truthy object then .ok () else .error (.invalidClientRequest notFound)

/-- The check that what was found has the type. -/
def checkType (type : RichType) (wrongType : String) (object : Json) : Except RichError Unit := do
  if (← getField "rsType" object) ≠ .string type.rsType then throw (.invalidClientRequest wrongType)

/-- Both checks for a reference. -/
def checkReference (type : RichType) (notFound wrongType : String) (id : Json) :
    Except RichError Unit := do
  let object ← getFromState id
  checkFound notFound object
  checkType type wrongType object

/-- The reference of a leaf to its encoding. -/
def checkEncoding : Json × Option String → Except RichError Unit
  | (descDict, attr) => do
    let encodingId ← getItem "enc" descDict
    checkReference getFromState .encoding
      ("Can not find a referenced 'enc' with id=" ++ encodingId.asStr.getD "" ++ " in the '" ++
        attr.getD "None" ++ "' attribute; please make sure that it has been added to the ledger")
      ("'enc' field in the '" ++ attr.getD "None" ++
        "' attribute must reference an encoding with rsType=enc")
      encodingId

/-- The check of the ranks of all leaves. -/
def checkRanks (ranks : List Json) : Except RichError Unit := do
  if !(← ranksSequential python ranks) then
    throw (.invalidClientRequest
      ("the attribute's ranks are not sequential: expected ranks are all values from 1 to " ++
        u64ToString ranks.length))

/-- `RichSchemaMappingHandler.do_dynamic_validation_content`. -/
def mappingDynamicValidation (content : Json) : Except RichError Unit := do
  let schemaId ← getItem "schema" content
  checkReference getFromState .richSchema
    ("Can not find a schema with id=" ++ schemaId.asStr.getD "" ++
      "; please make sure that it has been added to the ledger")
    "'schema' field must reference a schema with rsType=sch" schemaId
  let encDescDicts := findEncodingDescDicts none (← getItem "attributes" content)
  encDescDicts.forM checkDescDict
  let ranks ← encDescDicts.mapM fun leaf => getItem "rank" leaf.1
  checkRanks python ranks
  encDescDicts.forM (checkEncoding getFromState)

def notFoundReason (field : String) (id : Json) : String :=
  "Can not find a referenced '" ++ field ++ "' with id=" ++ id.asStr.getD "" ++
    "; please make sure that it has been added to the ledger"

/-- `RichSchemaCredDefHandler.do_dynamic_validation_content`. -/
def credDefDynamicValidation (content : Json) : Except RichError Unit := do
  let schemaId ← getItem "schema" content
  let mappingId ← getItem "mapping" content
  let schema ← getFromState schemaId
  checkFound (notFoundReason "schema" schemaId) schema
  let mapping ← getFromState mappingId
  checkFound (notFoundReason "mapping" mappingId) mapping
  checkType .richSchema "'schema' field must reference a schema with rsType=sch" schema
  checkType .mapping "'mapping' field must reference a mapping with rsType=map" mapping

/-- `do_dynamic_validation_content` of the handler. -/
def dynamicValidationContent (type : RichType) (content : Json) : Except RichError Unit :=
  match type with
  | .mapping => mappingDynamicValidation python getFromState content
  | .credDef => credDefDynamicValidation getFromState content
  | .jsonLdContext | .richSchema | .encoding | .presDef => .ok ()

end DynamicValidation

section References

/-- There is an object of the type under the reference. -/
def Resolves (getFromState : Json → Except RichError Json) (type : RichType) (ref : Json) : Prop :=
  ∃ object, getFromState ref = .ok object ∧ truthy object = true ∧
    getField "rsType" object = .ok (.string type.rsType)

/-- The leaves of the attributes of a mapping. -/
inductive IsLeafOf : Json → Json → Prop
  | self {leaf : Json} (h : isLeafDict leaf = true) : IsLeafOf leaf leaf
  | field {fields : List (String × Json)} {name : String} {value leaf : Json}
    (hinner : isLeafDict (.object fields) = false) (hfield : (name, value) ∈ fields)
    (hvalue : ∀ items, value ≠ .array items) (h : IsLeafOf value leaf) : IsLeafOf
    (.object fields) leaf
  | item {fields : List (String × Json)} {name : String} {items : List Json} {item leaf : Json}
    (hfield : (name, .array items) ∈ fields) (hitem : item ∈ items) (h : IsLeafOf item leaf) :
    IsLeafOf (.object fields) leaf

/-- What the content of a mapping refers to is there, and its ranks count its leaves. -/
structure MappingStands (python : Python) (getFromState : Json → Except RichError Json)
    (content : Json) : Prop where
  schema : Resolves getFromState .richSchema (content.index "schema")
  encodings : ∀ leaf, IsLeafOf (content.index "attributes") leaf →
    Resolves getFromState .encoding (leaf.index "enc")
  ranks : ((findEncodingDescDicts none (content.index "attributes")).map fun leaf =>
    rankInt python (leaf.1.index "rank")).Perm
      ((expectedRanks (findEncodingDescDicts none (content.index "attributes")).length).map some)

/-- What the content of a credential definition refers to is there. -/
structure CredDefStands (getFromState : Json → Except RichError Json) (content : Json) : Prop where
  schema : Resolves getFromState .richSchema (content.index "schema")
  mapping : Resolves getFromState .mapping (content.index "mapping")

variable {python : Python} {getFromState getFromState' : Json → Except RichError Json}
    {type : RichType}
  {field notFound wrongType : String} {content ref value leaf : Json}

theorem index_of_getItem (h : getItem field content = .ok value) : content.index field = value := by
  cases content with
  | object fields =>
    unfold getItem at h
    unfold Json.index
    rcases hlookup : fields.lookup field with _ | found
    · simp [hlookup] at h
    · simpa [hlookup] using h
  | _ => cases h

theorem checkFound_eq_ok_iff {object : Json} {u : Unit} :
    checkFound notFound object = .ok u ↔ truthy object = true := by
  unfold checkFound
  split_ifs with h <;> simp [h]

theorem checkType_eq_ok_iff {object : Json} {u : Unit} :
    checkType type wrongType object = .ok u ↔
    getField "rsType" object = .ok (.string type.rsType) := by
  unfold checkType
  rcases getField "rsType" object with _ | rsType
  · simp
  · by_cases htype : rsType = .string type.rsType <;> simp [htype]

theorem checkReference_eq_ok_iff :
    checkReference getFromState type notFound wrongType ref = .ok () ↔
    Resolves getFromState type ref := by
  simp only [checkReference, except_bind_eq_ok, checkFound_eq_ok_iff, checkType_eq_ok_iff, Resolves,
    exists_const]

theorem Resolves.mono (h : Resolves getFromState type ref)
    (hkept : ∀ object, getFromState ref = .ok object → truthy object = true →
      getFromState' ref = .ok object) :
    Resolves getFromState' type ref := by
  obtain ⟨object, hobject, htruthy, htype⟩ := h
  exact ⟨object, hkept object hobject htruthy, htruthy, htype⟩

theorem isLeafDict_of_array {fields : List (String × Json)} {name : String} {items : List Json}
    (h : (name, .array items) ∈ fields) : isLeafDict (.object fields) = false := by
  rw [isLeafDict, List.all_eq_false]
  exact ⟨_, h, by simp⟩

theorem isLeafOf_iff_of_leaf {j : Json} (h : isLeafDict j = true) : IsLeafOf j leaf ↔ leaf = j := by
  constructor
  · intro hleaf
    cases hleaf with
    | self _ => rfl
    | field hinner => simp [hinner] at h
    | item hfield => simp [isLeafDict_of_array hfield] at h
  · rintro rfl
    exact .self h

/-- The leaves under some of the fields of a dictionary. -/
def IsLeafBelow (fields : List (String × Json)) (leaf : Json) : Prop :=
  (∃ name value, (name, value) ∈ fields ∧ (∀ items, value ≠ .array items) ∧ IsLeafOf value leaf) ∨
    ∃ name items item, (name, .array items) ∈ fields ∧ item ∈ items ∧ IsLeafOf item leaf

theorem isLeafOf_object_iff {fields : List (String × Json)}
    (h : isLeafDict (.object fields) = false) :
    IsLeafOf (.object fields) leaf ↔ IsLeafBelow fields leaf := by
  constructor
  · intro hleaf
    cases hleaf with
    | self hself => simp [hself] at h
    | field _ hfield hvalue hbelow => exact .inl ⟨_, _, hfield, hvalue, hbelow⟩
    | item hfield hitem hbelow => exact .inr ⟨_, _, _, hfield, hitem, hbelow⟩
  · rintro (⟨name, value, hfield, hvalue, hbelow⟩ | ⟨name, items, item, hfield, hitem, hbelow⟩)
    · exact .field h hfield hvalue hbelow
    · exact .item hfield hitem hbelow

theorem exists_mem_fields_cons {fields : List (String × Json)} {name : String}
    (hvalue : ∀ items, value ≠ .array items)
    (hbelow : (∃ a, (leaf, a) ∈ findEncodingDescDicts (some name) value) ↔ IsLeafOf value leaf)
    (hfields : (∃ a, (leaf, a) ∈ findInFields fields) ↔ IsLeafBelow fields leaf) :
    (∃ a, (leaf, a) ∈ findInFields ((name, value) :: fields)) ↔
    IsLeafBelow ((name, value) :: fields) leaf := by
  have hcons : findInFields ((name, value) :: fields) =
      findEncodingDescDicts (some name) value ++ findInFields fields := by
    rw [findInFields]
    exact hvalue
  simp only [hcons, List.mem_append, exists_or, hbelow, hfields, IsLeafBelow, List.mem_cons,
    Prod.mk.injEq]
  constructor
  · rintro (hleaf | ⟨name', value', hfield, hvalue', hleaf⟩ | ⟨name', items, item, hfield,
      hitem, hleaf⟩)
    · exact .inl ⟨name, value, .inl ⟨rfl, rfl⟩, hvalue, hleaf⟩
    · exact .inl ⟨name', value', .inr hfield, hvalue', hleaf⟩
    · exact .inr ⟨name', items, item, .inr hfield, hitem, hleaf⟩
  · rintro (⟨name', value', ⟨-, rfl⟩ | hfield, hvalue', hleaf⟩ |
      ⟨name', items, item, ⟨-, heq⟩ | hfield, hitem, hleaf⟩)
    · exact .inl hleaf
    · exact .inr (.inl ⟨name', value', hfield, hvalue', hleaf⟩)
    · exact absurd heq.symm (hvalue items)
    · exact .inr (.inr ⟨name', items, item, hfield, hitem, hleaf⟩)

mutual

/-- The traversal visits the leaves, and only them. -/
theorem exists_mem_findEncodingDescDicts (attr : Option String) : (j : Json) →
    ((∃ a, (leaf, a) ∈ findEncodingDescDicts attr j) ↔ IsLeafOf j leaf)
  | .object fields => by
    rcases hleaf : isLeafDict (.object fields) with _ | _
    · rw [findEncodingDescDicts, if_neg (by simp [hleaf]), isLeafOf_object_iff hleaf]
      exact exists_mem_findInFields fields
    · simp [findEncodingDescDicts, hleaf, isLeafOf_iff_of_leaf hleaf]
  | .array _ | .null | .bool _ | .number _ | .string _ => by
    rw [isLeafOf_iff_of_leaf rfl]
    simp [findEncodingDescDicts]

theorem exists_mem_findInFields : (fields : List (String × Json)) →
    ((∃ a, (leaf, a) ∈ findInFields fields) ↔ IsLeafBelow fields leaf)
  | [] => by simp [findInFields, IsLeafBelow]
  | (name, .array items) :: fields => by
    have hitems := exists_mem_findInItems name items
    have hfields := exists_mem_findInFields fields
    rw [findInFields]
    simp only [List.mem_append, exists_or, hitems, hfields, IsLeafBelow, List.mem_cons,
      Prod.mk.injEq]
    constructor
    · rintro (⟨item, hitem, hbelow⟩ | ⟨name', value, hfield, hvalue, hbelow⟩ |
        ⟨name', items', item, hfield, hitem, hbelow⟩)
      · exact .inr ⟨name, items, item, .inl ⟨rfl, rfl⟩, hitem, hbelow⟩
      · exact .inl ⟨name', value, .inr hfield, hvalue, hbelow⟩
      · exact .inr ⟨name', items', item, .inr hfield, hitem, hbelow⟩
    · rintro (⟨name', value, ⟨-, rfl⟩ | hfield, hvalue, hbelow⟩ |
        ⟨name', items', item, ⟨-, heq⟩ | hfield, hitem, hbelow⟩)
      · exact absurd rfl (hvalue items)
      · exact .inr (.inl ⟨name', value, hfield, hvalue, hbelow⟩)
      · obtain rfl := Json.array.inj heq
        exact .inl ⟨item, hitem, hbelow⟩
      · exact .inr (.inr ⟨name', items', item, hfield, hitem, hbelow⟩)
  | (_, .object inner) :: fields =>
    exists_mem_fields_cons (by simp) (exists_mem_findEncodingDescDicts _ (.object inner))
      (exists_mem_findInFields fields)
  | (_, .null) :: fields =>
    exists_mem_fields_cons (by simp) (exists_mem_findEncodingDescDicts _ .null)
      (exists_mem_findInFields fields)
  | (_, .bool b) :: fields =>
    exists_mem_fields_cons (by simp) (exists_mem_findEncodingDescDicts _ (.bool b))
      (exists_mem_findInFields fields)
  | (_, .number n) :: fields =>
    exists_mem_fields_cons (by simp) (exists_mem_findEncodingDescDicts _ (.number n))
      (exists_mem_findInFields fields)
  | (_, .string t) :: fields =>
    exists_mem_fields_cons (by simp) (exists_mem_findEncodingDescDicts _ (.string t))
      (exists_mem_findInFields fields)

theorem exists_mem_findInItems (name : String) : (items : List Json) →
    ((∃ a, (leaf, a) ∈ findInItems name items) ↔ ∃ item ∈ items, IsLeafOf item leaf)
  | [] => by simp [findInItems]
  | item :: items => by
    have hitem := exists_mem_findEncodingDescDicts (some name) item
    have hitems := exists_mem_findInItems name items
    rw [List.exists_mem_cons_iff, ← hitem, ← hitems, findInItems]
    simp [exists_or]

end

/-- Ranks that are sequential are the numbers from 1 on, in some order. -/
theorem perm_of_ranksSequential {ranks : List Json} (h : ranksSequential python ranks = .ok true) :
    (ranks.map (rankInt python)).Perm ((expectedRanks ranks.length).map some) := by
  unfold ranksSequential at h
  split_ifs at h
  · have hsorted := of_decide_eq_true (Except.ok.inj h)
    obtain ⟨ints, hints, hsorted⟩ := Option.map_eq_some_iff.mp hsorted
    rw [mapM_eq_some_iff.mp hints, ← hsorted]
    exact ((List.perm_insertionSort (· ≤ ·) ints).symm).map some
  · cases Except.ok.inj h

theorem mappingStands_of_validation
    (h : mappingDynamicValidation python getFromState content = .ok ()) :
    MappingStands python getFromState content := by
  simp only [mappingDynamicValidation, except_bind_eq_ok] at h
  obtain ⟨schemaId, hschema, _, hreference, attributes, hattributes, _, -, ranks, hranks, _, hcount,
      hencodings⟩ := h
  obtain rfl := index_of_getItem hattributes
  refine ⟨?_, ?_, ?_⟩
  · rw [index_of_getItem hschema]
    exact checkReference_eq_ok_iff.mp hreference
  · intro leaf hleaf
    obtain ⟨attr, hmem⟩ := (exists_mem_findEncodingDescDicts none _).mpr hleaf
    have hencoding := forM_eq_ok_iff.mp hencodings _ hmem
    simp only [checkEncoding, except_bind_eq_ok] at hencoding
    obtain ⟨encodingId, hid, hreference'⟩ := hencoding
    rw [index_of_getItem hid]
    exact checkReference_eq_ok_iff.mp hreference'
  · have hread : ranks = (findEncodingDescDicts none (content.index "attributes")).map fun leaf =>
        leaf.1.index "rank" := by
      have hforall := forall₂_of_mapM hranks
      rw [← List.forall₂_eq_eq_eq, List.forall₂_map_right_iff]
      exact (hforall.imp fun leaf rank hrank => (index_of_getItem hrank).symm).flip
    have hcounted : ranksSequential python ranks = .ok true := by
      unfold checkRanks at hcount
      rcases hdone : ranksSequential python ranks with _ | _ | _
      · simp [hdone] at hcount
      · simp [hdone] at hcount
      · rfl
    have hsequential := perm_of_ranksSequential hcounted
    rw [hread, List.map_map, List.length_map] at hsequential
    exact hsequential

theorem credDefStands_of_validation (h : credDefDynamicValidation getFromState content = .ok ()) :
    CredDefStands getFromState content := by
  simp only [credDefDynamicValidation, except_bind_eq_ok, checkFound_eq_ok_iff, checkType_eq_ok_iff]
    at h
  obtain ⟨schemaId, hschemaId, mappingId, hmappingId, schema, hschema, _, hfound, mapping, hmapping,
      _, hfound', _,
    htype, htype'⟩ := h
  obtain rfl := index_of_getItem hschemaId
  obtain rfl := index_of_getItem hmappingId
  exact ⟨⟨schema, hschema, hfound, htype⟩, ⟨mapping, hmapping, hfound', htype'⟩⟩

/-- What was found stays found. -/
def Keeps (getFromState getFromState' : Json → Except RichError Json) : Prop :=
  ∀ ref object, getFromState ref = .ok object → truthy object = true →
    getFromState' ref = .ok object

theorem MappingStands.mono (h : MappingStands python getFromState content)
    (hkeeps : Keeps getFromState getFromState') :
    MappingStands python getFromState' content :=
  ⟨h.schema.mono (hkeeps _), fun leaf hleaf => (h.encodings leaf hleaf).mono (hkeeps _), h.ranks⟩

theorem CredDefStands.mono (h : CredDefStands getFromState content)
    (hkeeps : Keeps getFromState getFromState') :
    CredDefStands getFromState' content :=
  ⟨h.schema.mono (hkeeps _), h.mapping.mono (hkeeps _)⟩

end References

end SimpleAsset.IndyNode.RichSchema
