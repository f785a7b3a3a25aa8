import Mathlib.Tactic.SplitIfs
import SimpleAsset.Library.Order
import SimpleAsset.Indy.Anoncreds.Domain

/-! The verifier's evaluation of restrictions (verifier.rs, from `_gather_filter_info` on). -/
namespace SimpleAsset.Indy.Anoncreds
open SimpleAsset.Library

/-- `str::to_lowercase`: what the code relies on of the Unicode tables. -/
structure Lowercase where
  toLowercase : String → String
  idem : ∀ s, toLowercase (toLowercase s) = toLowercase s
  space : ∀ s, ' ' ∉ s.toList → ' ' ∉ (toLowercase s).toList
  colon : ∀ s, ':' ∈ (toLowercase s).toList ↔ ':' ∈ s.toList

section Ascii

/-- Lower case of an ASCII letter; other characters stay. -/
def asciiLower (c : Char) : Char := if 65 ≤ c.toNat ∧
    c.toNat ≤ 90 then Char.ofNat (c.toNat + 32) else c

theorem toNat_asciiLower (c : Char) :
    (asciiLower c).toNat = if 65 ≤ c.toNat ∧ c.toNat ≤ 90 then c.toNat + 32 else c.toNat := by
  unfold asciiLower
  split
  · have hvalid : (c.toNat + 32).isValidChar := Or.inl (by omega)
    rw [Char.ofNat, dif_pos hvalid]
    rfl
  · rfl

theorem asciiLower_idem (c : Char) : asciiLower (asciiLower c) = asciiLower c := by
  apply Char.toNat_inj.mp
  rw [toNat_asciiLower, toNat_asciiLower]
  split_ifs <;> omega

theorem asciiLower_eq_iff {c d : Char} (hd : d.toNat < 65) : asciiLower c = d ↔ c = d := by
  rw [← Char.toNat_inj, ← Char.toNat_inj, toNat_asciiLower]
  split_ifs <;> omega

/-- `to_lowercase` as it is on ASCII text. -/
def asciiLowercase : Lowercase where
  toLowercase s := String.ofList (s.toList.map asciiLower)
  idem s := by simp [Function.comp_def, asciiLower_idem]
  space s := by simp [asciiLower_eq_iff (show (' ').toNat < 65 by decide)]
  colon s := by simp [asciiLower_eq_iff (show (':').toNat < 65 by decide)]

end Ascii

section CommonView
variable (lc : Lowercase)

/-- `attr.replace(" ", "")`. -/
def removeSpaces (s : String) : String := String.ofList (s.toList.filter (· ≠ ' '))

def attrCommonView (attr : String) : String := lc.toLowercase (removeSpaces attr)

end CommonView

section Tags

/-- The name in a tag that matches `^attr::([^:]+)::<kind>$`. -/
def attrTagName (kind tag : String) : Option String :=
  if "attr::".toList.isPrefixOf tag.toList then
    let (name, rest) := (tag.toList.drop 6).span (· ≠ ':')
    if name ≠ [] ∧ rest = "::".toList ++ kind.toList then some (String.ofList name) else none
  else none

/-- `attr_request_by_value`, `VALUE_TAG_MATCHER`. -/
def attrRequestByValue (key : String) : Option String := attrTagName "value" key

/-- `attr_request_by_marker`, `MARKER_TAG_MATCHER`. -/
def attrRequestByMarker (key : String) : Option String := attrTagName "marker" key

end Tags

structure Filter where
  schemaId : String
  schemaIssuerDid : String
  schemaName : String
  schemaVersion : String
  issuerDid : String
  credDefId : String
  deriving DecidableEq, Repr

/-- The filter of one identifier. -/
def filterOf (identifier : Identifier) : IndyResult Filter :=
  match identifier.schemaId.parts, identifier.credDefId.issuerDid with
  | none, _ =>
    .error ⟨.invalidState, "Invalid Schema ID `" ++ identifier.schemaId.value ++
      "`: wrong number of parts"⟩
  | some _, none =>
    .error ⟨.invalidState,
      "Invalid Credential Definition ID `" ++ identifier.credDefId.value ++
      "`: wrong number of parts"⟩
  | some (schemaIssuerDid, schemaName, schemaVersion), some issuerDid =>
    .ok { schemaId := identifier.schemaId.value, schemaName, schemaIssuerDid :=
      schemaIssuerDid.value, schemaVersion,
          credDefId := identifier.credDefId.value, issuerDid := issuerDid.value }

def gatherFilterInfo (referent : String) (identifiers : Table String Identifier) :
    IndyResult Filter :=
  match identifiers.lookup referent with
  | some identifier => filterOf identifier
  | none => .error ⟨.invalidState, "Identifier not found for referent: " ++ referent⟩

/-- Raw values by attribute name, in the order the hash map of this check hands them out. -/
structure ValueMap where
  values : Table String (Option String)
  order : Shuffle ((_ : String) × Option String)

def ValueMap.entries (m : ValueMap) : List ((_ : String) × Option String) :=
  m.order.order m.values.entries

section Operators
variable (lc : Lowercase) (attrValueMap : ValueMap) (filter : Filter)

def precessFiled (filed filterValue tagValue : String) : IndyResult Unit :=
  if filterValue = tagValue then .ok ()
  else .error ⟨.proofRejected, "\"" ++ filed ++
    "\" values are different: expected: \"" ++ tagValue ++ "\", actual: \"" ++ filterValue ++ "\""⟩

def isAttrWithRevealedValue (key : String) : Bool :=
  match attrRequestByValue key with
  | some name => attrValueMap.entries.any fun e => attrCommonView lc e.1 = attrCommonView lc name
  | none => false

def isAttrMarkerOperator (key : String) : Bool := (attrRequestByMarker key).isSome

def checkInternalTagRevealedValue (key tagValue : String) : IndyResult Unit :=
  match attrRequestByValue key with
  | none => .error ⟨.invalidState, "Attribute name became unparseable"⟩
  | some attrName =>
    match attrValueMap.entries.find? fun e =>
      attrCommonView lc e.1 = attrCommonView lc attrName with
    | some ⟨_, some revealedValue⟩ =>
      if revealedValue ≠ tagValue then
        .error ⟨.proofRejected, "\"" ++ key ++
          "\" values are different: expected: \"" ++ tagValue ++
          "\", actual: \"" ++ revealedValue ++ "\""⟩
      else .ok ()
    | _ => .error ⟨.proofRejected, "Revealed value hasn't been find by key: expected key: \"" ++
        key ++ "\""⟩

def processFilter (tag tagValue : String) : IndyResult Unit :=
  if tag = "schema_id" then precessFiled tag filter.schemaId tagValue
  else if tag = "schema_issuer_did" then precessFiled tag filter.schemaIssuerDid tagValue
  else if tag = "schema_name" then precessFiled tag filter.schemaName tagValue
  else if tag = "schema_version" then precessFiled tag filter.schemaVersion tagValue
  else if tag = "cred_def_id" then precessFiled tag filter.credDefId tagValue
  else if tag = "issuer_did" then precessFiled tag filter.issuerDid tagValue
  else if isAttrWithRevealedValue lc attrValueMap tag
    then checkInternalTagRevealedValue lc attrValueMap tag tagValue
  else if isAttrMarkerOperator tag then .ok ()
  else .error ⟨.invalidStructure, "Unknown Filter Type"⟩

mutual

def doProcessOperator : Query → IndyResult Unit
  | .eq tagName tagValue =>
    extendErr ("$eq operator validation failed for tag: \"" ++ tagName ++ "\", value: \"" ++
      tagValue ++ "\"") (processFilter lc attrValueMap filter tagName tagValue)
  | .neq tagName tagValue =>
    if (processFilter lc attrValueMap filter tagName tagValue).isOk then
      .error ⟨.proofRejected, "$neq operator validation failed for tag: \"" ++ tagName ++
        "\", value: \"" ++ tagValue ++ "\". Condition was passed."⟩
    else .ok ()
  | .isIn tagName tagValues =>
    if tagValues.any fun val => (processFilter lc attrValueMap filter tagName val).isOk then .ok ()
    else .error ⟨.proofRejected, "$in operator validation failed for tag: \"" ++ tagName ++ "\"."⟩
  | .and operators => extendErr "$and operator validation failed." (doProcessOperators operators)
  | .or operators =>
    if anyOperator operators then .ok ()
    else .error ⟨.proofRejected, "$or operator validation failed. All conditions were failed."⟩
  | .not operator =>
    if (doProcessOperator operator).isOk then
      .error ⟨.proofRejected, "$not operator validation failed. All conditions were passed."⟩
    else .ok ()
  | .gt .. | .gte .. | .lt .. | .lte .. | .like .. =>
    .error ⟨.proofRejected, "unsupported operator"⟩

/-- `.map(..).collect::<IndyResult<Vec<()>>>()`: stops at the first error. -/
def doProcessOperators : List Query → IndyResult Unit
  | [] => .ok ()
  | operator :: operators => do
    doProcessOperator operator
    doProcessOperators operators

def anyOperator : List Query → Bool
  | [] => false
  | operator :: operators => (doProcessOperator operator).isOk || anyOperator operators

end

end Operators

section IdTags

/-- The tags that are about the identifiers of a credential. -/
inductive IdTag
  | schemaId
  | schemaIssuerDid
  | schemaName
  | schemaVersion
  | credDefId
  | issuerDid
  deriving DecidableEq, Repr

def IdTag.name : IdTag → String
  | .schemaId => "schema_id"
  | .schemaIssuerDid => "schema_issuer_did"
  | .schemaName => "schema_name"
  | .schemaVersion => "schema_version"
  | .credDefId => "cred_def_id"
  | .issuerDid => "issuer_did"

def Filter.get (filter : Filter) : IdTag → String
  | .schemaId => filter.schemaId
  | .schemaIssuerDid => filter.schemaIssuerDid
  | .schemaName => filter.schemaName
  | .schemaVersion => filter.schemaVersion
  | .credDefId => filter.credDefId
  | .issuerDid => filter.issuerDid

theorem processFilter_idTag (lc : Lowercase) (values : ValueMap) (filter : Filter) (t : IdTag)
    (tagValue : String) :
    processFilter lc values filter t.name tagValue = .ok () ↔ filter.get t = tagValue := by
  have hfield : ∀ filed filterValue, precessFiled filed filterValue tagValue = .ok () ↔
      filterValue = tagValue := by
    intro filed filterValue
    unfold precessFiled
    split
    · rename_i h
      simp [h]
    · rename_i h
      simp [h]
  cases t <;> exact hfield _ _

end IdTags

end SimpleAsset.Indy.Anoncreds
