import SimpleAsset.Indy.Anoncreds.CredentialIdentifiers
import SimpleAsset.Indy.Anoncreds.RestrictionMeaning

/-! Proof requests made unqualified (proof_request.rs) against the verifier's evaluation of their
restrictions. -/
namespace SimpleAsset.Indy.Anoncreds
open SimpleAsset.Library

section Conversion
variable (node13 : Bool)

def convertValueToUnqualified (tagName tagValue : String) : String :=
  if tagName = "issuer_did" ∨
    tagName = "schema_issuer_did" then (DidValue.toUnqualified ⟨tagValue⟩).value
  else if tagName = "schema_id" then (SchemaId.toUnqualified ⟨tagValue⟩).value
  else if tagName = "cred_def_id"
    then (CredentialDefinitionId.toUnqualified node13 ⟨tagValue⟩).value
  else if tagName = "rev_reg_id" then (RevocationRegistryId.toUnqualified node13 ⟨tagValue⟩).value
  else tagValue

mutual

def convertQueryToUnqualified : Query → Query
  | .eq tagName tagValue => .eq tagName (convertValueToUnqualified node13 tagName tagValue)
  | .neq tagName tagValue => .neq tagName (convertValueToUnqualified node13 tagName tagValue)
  | .isIn tagName tagValues =>
    .isIn tagName (tagValues.map (convertValueToUnqualified node13 tagName))
  | .and operators => .and (convertAllToUnqualified operators)
  | .or operators => .or (convertAllToUnqualified operators)
  -- the operand takes the place of the negation
  | .not operator => convertQueryToUnqualified operator
  | .gt tagName tagValue => .gt tagName tagValue
  | .gte tagName tagValue => .gte tagName tagValue
  | .lt tagName tagValue => .lt tagName tagValue
  | .lte tagName tagValue => .lte tagName tagValue
  | .like tagName tagValue => .like tagName tagValue

def convertAllToUnqualified : List Query → List Query
  | [] => []
  | operator :: operators => convertQueryToUnqualified operator :: convertAllToUnqualified operators

end

def ProofRequestPayload.toUnqualified {Nonce : Type} (proofRequest : ProofRequestPayload Nonce) :
    ProofRequestPayload Nonce :=
  { proofRequest with
    requestedAttributes := proofRequest.requestedAttributes.mapValues fun _ requestedAttribute =>
      { requestedAttribute with restrictions :=
        requestedAttribute.restrictions.map (convertQueryToUnqualified node13) }
    requestedPredicates := proofRequest.requestedPredicates.mapValues fun _ requestedPredicate =>
      { requestedPredicate with restrictions :=
        requestedPredicate.restrictions.map (convertQueryToUnqualified node13) } }

end Conversion

section WithoutNot

mutual

/-- The query with every negation taken away. -/
def Query.withoutNot : Query → Query
  | .eq tagName tagValue => .eq tagName tagValue
  | .neq tagName tagValue => .neq tagName tagValue
  | .isIn tagName tagValues => .isIn tagName tagValues
  | .and operators => .and (withoutNots operators)
  | .or operators => .or (withoutNots operators)
  | .not operator => operator.withoutNot
  | .gt tagName tagValue => .gt tagName tagValue
  | .gte tagName tagValue => .gte tagName tagValue
  | .lt tagName tagValue => .lt tagName tagValue
  | .lte tagName tagValue => .lte tagName tagValue
  | .like tagName tagValue => .like tagName tagValue

def withoutNots : List Query → List Query
  | [] => []
  | operator :: operators => operator.withoutNot :: withoutNots operators

end

mutual

def Query.hasNot : Query → Bool
  | .not _ => true
  | .and operators | .or operators => anyHasNot operators
  | _ => false

def anyHasNot : List Query → Bool
  | [] => false
  | operator :: operators => operator.hasNot || anyHasNot operators

end

theorem withoutNots_eq (operators : List Query) :
    withoutNots operators = operators.map Query.withoutNot := by
  induction operators with
  | nil => rfl
  | cons q qs ih => rw [withoutNots, List.map_cons, ih]

theorem anyHasNot_eq (operators : List Query) :
    anyHasNot operators = operators.any Query.hasNot := by
  induction operators with
  | nil => rfl
  | cons q qs ih => rw [anyHasNot, List.any_cons, ih]

theorem convertAllToUnqualified_eq (node13 : Bool) (operators : List Query) :
    convertAllToUnqualified node13 operators = operators.map
      (convertQueryToUnqualified node13) := by
  induction operators with
  | nil => rfl
  | cons q qs ih => rw [convertAllToUnqualified, List.map_cons, ih]

theorem Query.withoutNot_eq_self {q : Query} (h : q.hasNot = false) : q.withoutNot = q := by
  induction q using Query.induction with
  | eq tagName tagValue => rfl
  | neq tagName tagValue => rfl
  | isIn tagName tagValues => rfl
  | and operators ih =>
    rw [Query.hasNot, anyHasNot_eq, List.any_eq_false] at h
    rw [Query.withoutNot, withoutNots_eq, List.map_congr_left fun q hq =>
      ih q hq (by simpa using h q hq), List.map_id']
  | or operators ih =>
    rw [Query.hasNot, anyHasNot_eq, List.any_eq_false] at h
    rw [Query.withoutNot, withoutNots_eq, List.map_congr_left fun q hq =>
      ih q hq (by simpa using h q hq), List.map_id']
  | not operator ih => cases h
  | ordering q hq => cases q <;> first | rfl | cases hq

/-- Where the values are compared alike, the converted query says what the query without its
negations says. -/
theorem meaning_convertQueryToUnqualified {node13 : Bool}
    {compare compare' : String → String → Bool} {q : Query} (h : ∀ c ∈ q.comparisons,
      compare' c.1 (convertValueToUnqualified node13 c.1 c.2) = compare c.1 c.2) :
    (convertQueryToUnqualified node13 q).meaning compare' = q.withoutNot.meaning compare := by
  induction q using Query.induction with
  | eq tagName tagValue =>
    rw [convertQueryToUnqualified, Query.meaning, Query.withoutNot, Query.meaning]
    exact h (tagName, tagValue) (by simp [Query.comparisons])
  | neq tagName tagValue =>
    rw [convertQueryToUnqualified, Query.meaning, Query.withoutNot, Query.meaning]
    exact congrArg (! ·) (h (tagName, tagValue) (by simp [Query.comparisons]))
  | isIn tagName tagValues =>
    rw [convertQueryToUnqualified, Query.meaning, Query.withoutNot, Query.meaning, List.any_map]
    refine any_congr_of_mem fun v hv => h (tagName, v) ?_
    exact List.mem_map_of_mem hv
  | and operators ih =>
    rw [convertQueryToUnqualified, Query.meaning, Query.withoutNot, Query.meaning,
      convertAllToUnqualified_eq,
      withoutNots_eq, meaningAll_eq, meaningAll_eq, List.all_map, List.all_map]
    exact all_congr_of_mem fun q hq => ih q hq fun c hc => h c (mem_allComparisons.mpr ⟨q, hq, hc⟩)
  | or operators ih =>
    rw [convertQueryToUnqualified, Query.meaning, Query.withoutNot, Query.meaning,
      convertAllToUnqualified_eq,
      withoutNots_eq, meaningAny_eq, meaningAny_eq, List.any_map, List.any_map]
    exact any_congr_of_mem fun q hq => ih q hq fun c hc => h c (mem_allComparisons.mpr ⟨q, hq, hc⟩)
  | not operator ih => exact ih h
  | ordering q hq => cases q <;> first | rfl | cases hq

end WithoutNot

section OneMethod
variable (method : MethodName)

def SchemaRef.AtMethod : SchemaRef → Prop
  | .seqNo _ => True
  | .full issuer _ _ => issuer.method = some method

def CredDefParts.AtMethod (p : CredDefParts) : Prop :=
  p.did.method = some method ∧ p.schema.AtMethod method

/-- Identifiers that are qualified with the method. -/
structure CredentialIds.AtMethod (ids : CredentialIds) : Prop where
  schemaIssuer : ids.schemaIssuer.method = some method
  credDef : ids.credDef.AtMethod method

/-- A value that is qualified with the method, where its tag is about an identifier. -/
def QualifiedValue : IdTag → String → Prop
  | .schemaId, value => ∃ (did : Did) (name version : Component), did.method = some method ∧
      did.Simple ∧
      version.text ≠ "" ∧ value = (SchemaId.new did.value name.text version.text).value
  | .schemaIssuerDid, value | .issuerDid, value => ∃ did : Did, did.method = some method ∧
      value = did.value.value
  | .credDefId, value => ∃ p : CredDefParts, p.AtMethod method ∧ p.Regular ∧ value = p.id.value
  | .schemaName, _ | .schemaVersion, _ => True

/-- All values that the query compares with the identifiers of a credential are qualified with the
method. -/
def Query.ComparesQualified (q : Query) : Prop :=
  ∀ (t : IdTag) (value : String), (t.name, value) ∈ q.comparisons → QualifiedValue method t value

variable {method}

theorem Did.value_eq_of_main {did did' : Did} (h : did.method = some method)
    (h' : did'.method = some method) (hmain : did.main = did'.main) : did.value = did'.value := by
  unfold Did.value
  rw [h, h', hmain]

theorem SchemaRef.id_eq_of_unqualified {schema schema' : SchemaRef} (h : schema.AtMethod method)
    (h' : schema'.AtMethod method) (hs : schema.Simple) (hs' : schema'.Simple)
    (hv : schema.Versioned)
    (hv' : schema'.Versioned) (heq : (schema.unqualified hs).id = (schema'.unqualified hs').id) :
    schema.id = schema'.id := by
  cases schema with
  | seqNo number =>
    cases schema' with
    | seqNo number' => exact heq
    | full issuer' name' version' =>
      have hparts := (schemaId_parts_iff (issuer'.unqualified hs') name' version').mpr ⟨hs', hv'⟩
      rw [show SchemaId.new _ _ _ = (SchemaRef.unqualified (.full issuer' name' version') hs').id
        from rfl, ← heq] at hparts
      exact absurd hparts
        (by rw [show SchemaRef.unqualified _ hs = .seqNo number from rfl, parts_seqNo]; simp)
  | full issuer name version =>
    have hparts := (schemaId_parts_iff (issuer.unqualified hs) name version).mpr ⟨hs, hv⟩
    rw [show SchemaId.new _ _ _ = (SchemaRef.unqualified (.full issuer name version) hs).id
      from rfl, heq] at hparts
    cases schema' with
    | seqNo number' =>
      exact absurd hparts
        (by rw [show SchemaRef.unqualified _ hs' = .seqNo number' from rfl, parts_seqNo]; simp)
    | full issuer' name' version' =>
      have hparts' := (schemaId_parts_iff (issuer'.unqualified hs') name' version').mpr ⟨hs', hv'⟩
      have hsame := hparts'.symm.trans hparts
      simp only [Option.some.injEq, Prod.mk.injEq] at hsame
      obtain ⟨hdid, hname, hversion⟩ := hsame
      have hmain : issuer'.main = issuer.main := congrArg DidValue.value hdid
      unfold SchemaRef.id
      dsimp only
      rw [Did.value_eq_of_main h h' hmain.symm, hname, hversion]

variable {ids : CredentialIds}

theorem CredentialIds.get_unqualified (ids : CredentialIds) (t : IdTag) :
    ids.unqualified.filter.get t = convertValueToUnqualified false t.name (ids.filter.get t) := by
  cases t with
  | schemaId => exact congrArg SchemaId.value ids.toUnqualified_schemaId.symm
  | schemaIssuerDid => exact congrArg DidValue.value ids.schemaIssuer.toUnqualified_value.symm
  | schemaName => rfl
  | schemaVersion => rfl
  | credDefId => exact congrArg CredentialDefinitionId.value ids.toUnqualified_credDef.symm
  | issuerDid => exact congrArg DidValue.value ids.credDef.did.toUnqualified_value.symm

theorem qualifiedValue_filter (h : ids.AtMethod method) (t : IdTag) :
    QualifiedValue method t (ids.filter.get t) := by
  cases t with
  | schemaId => exact ⟨_, _, _, h.schemaIssuer, ids.schemaSimple, ids.versioned, rfl⟩
  | schemaIssuerDid => exact ⟨_, h.schemaIssuer, rfl⟩
  | schemaName => trivial
  | schemaVersion => trivial
  | credDefId => exact ⟨_, h.credDef, ids.regular, rfl⟩
  | issuerDid => exact ⟨_, h.credDef.1, rfl⟩

/-- Different DIDs of one method stay different. -/
theorem Did.value_eq_of_unqualified {did did' : Did} (h : did.method = some method)
    (h' : did'.method = some method)
    (heq : did.value.toUnqualified.value = did'.value.toUnqualified.value) :
    did.value = did'.value := by
  rw [did.toUnqualified_value, did'.toUnqualified_value] at heq
  exact Did.value_eq_of_main h h' heq

theorem SchemaRef.id_eq_of_toUnqualified {schema schema' : SchemaRef} (h : schema.AtMethod method)
    (h' : schema'.AtMethod method) (hs : schema.Simple) (hs' : schema'.Simple)
    (hv : schema.Versioned)
    (hv' : schema'.Versioned) (heq : schema.id.toUnqualified = schema'.id.toUnqualified) :
    schema.id = schema'.id := by
  rw [SchemaRef.toUnqualified_id hs hv, SchemaRef.toUnqualified_id hs' hv'] at heq
  exact SchemaRef.id_eq_of_unqualified h h' hs hs' hv hv' heq

theorem CredDefParts.id_eq_of_toUnqualified {p p' : CredDefParts} (h : p.AtMethod method)
    (h' : p'.AtMethod method) (hregular : p.Regular) (hregular' : p'.Regular)
    (heq : p.id.toUnqualified false = p'.id.toUnqualified false) :
    p.id = p'.id := by
  rw [hregular.toUnqualified, hregular'.toUnqualified] at heq
  have hsame := hregular.unqualified.parts.symm.trans
    ((congrArg CredentialDefinitionId.parts heq).trans hregular'.unqualified.parts)
  simp only [Option.some.injEq, Prod.mk.injEq] at hsame
  obtain ⟨hdidEq, hsignature, hschema, htag⟩ := hsame
  have hmain : p.did.main = p'.did.main := congrArg DidValue.value hdidEq
  have href := SchemaRef.id_eq_of_unqualified h.2 h'.2 hregular.refSimple hregular'.refSimple
    hregular.refVersioned hregular'.refVersioned hschema
  change p.signatureType.text = p'.signatureType.text at hsignature
  change p.tag.text = p'.tag.text at htag
  unfold CredDefParts.id
  rw [Did.value_eq_of_main h.1 h'.1 hmain, hsignature, href, htag]

/-- Different values of one method stay different. -/
theorem convertValueToUnqualified_inj {t : IdTag} {v w : String} (hv : QualifiedValue method t v)
    (hw : QualifiedValue method t w)
    (heq : convertValueToUnqualified false t.name v = convertValueToUnqualified false t.name w) :
    v = w := by
  cases t with
  | schemaId =>
    obtain ⟨did, name, version, hmethod, hsimple, hversion, rfl⟩ := hv
    obtain ⟨did', name', version', hmethod', hsimple', hversion', rfl⟩ := hw
    have hid : (SchemaRef.full did name version).id = (SchemaRef.full did' name' version').id :=
      SchemaRef.id_eq_of_toUnqualified hmethod hmethod' hsimple hsimple' hversion hversion'
        (SchemaId.ext heq)
    exact congrArg SchemaId.value hid
  | schemaName => exact heq
  | schemaVersion => exact heq
  | credDefId =>
    obtain ⟨p, hp, hregular, rfl⟩ := hv
    obtain ⟨p', hp', hregular', rfl⟩ := hw
    exact congrArg _ (CredDefParts.id_eq_of_toUnqualified hp hp' hregular hregular'
      (CredentialDefinitionId.ext heq))
  | schemaIssuerDid | issuerDid =>
    obtain ⟨did, hmethod, rfl⟩ := hv
    obtain ⟨did', hmethod', rfl⟩ := hw
    exact congrArg DidValue.value (Did.value_eq_of_unqualified hmethod hmethod' heq)

end OneMethod

section Verdict

/-- What a restriction belongs to. -/
inductive RequestedItem
  | ofAttribute (referent : String)
  | ofPredicate (referent : String)

def ProofRequestPayload.restriction {Nonce : Type} (proofRequest : ProofRequestPayload Nonce) :
    RequestedItem → Option Query
  | .ofAttribute referent =>
    (proofRequest.requestedAttributes.lookup referent).bind (·.restrictions)
  | .ofPredicate referent =>
    (proofRequest.requestedPredicates.lookup referent).bind (·.restrictions)

theorem restriction_toUnqualified {Nonce : Type} (node13 : Bool)
    (proofRequest : ProofRequestPayload Nonce)
    (item : RequestedItem) : (proofRequest.toUnqualified node13).restriction item =
      (proofRequest.restriction item).map (convertQueryToUnqualified node13) := by
  cases item with
  | ofAttribute referent =>
    unfold ProofRequestPayload.restriction ProofRequestPayload.toUnqualified
    dsimp only
    rw [Table.lookup_mapValues]
    cases proofRequest.requestedAttributes.lookup referent <;> rfl
  | ofPredicate referent =>
    unfold ProofRequestPayload.restriction ProofRequestPayload.toUnqualified
    dsimp only
    rw [Table.lookup_mapValues]
    cases proofRequest.requestedPredicates.lookup referent <;> rfl

variable (lc : Lowercase) (values : ValueMap)

/-- The verifier finds the restriction met by a credential with these identifiers. -/
def AcceptsRestriction (identifier : Identifier) (q : Query) : Prop :=
  ∃ filter, filterOf identifier = .ok filter ∧ doProcessOperator lc values filter q = .ok ()

theorem acceptsRestriction_iff {identifier : Identifier} {filter : Filter}
    (h : filterOf identifier = .ok filter) (q : Query) : AcceptsRestriction lc values identifier q ↔
      q.meaning (filterCompare lc values filter) = true := by
  rw [← isOk_doProcessOperator]
  unfold AcceptsRestriction
  rw [h]
  constructor
  · rintro ⟨filter', hfilter, hop⟩
    rw [Except.ok.inj hfilter, hop]
    rfl
  · intro hok
    refine ⟨filter, rfl, ?_⟩
    cases hop : doProcessOperator lc values filter q with
    | error e =>
      rw [hop] at hok
      cases hok
    | ok u => rfl

theorem processFilter_of_notIdTag {tagName : String} (h : ∀ t : IdTag, t.name ≠ tagName)
    (filter filter' : Filter)
    (tagValue : String) : processFilter lc values filter tagName tagValue =
      processFilter lc values filter' tagName tagValue := by
  have hschemaId : tagName ≠ "schema_id" := (h .schemaId).symm
  have hschemaIssuer : tagName ≠ "schema_issuer_did" := (h .schemaIssuerDid).symm
  have hschemaName : tagName ≠ "schema_name" := (h .schemaName).symm
  have hschemaVersion : tagName ≠ "schema_version" := (h .schemaVersion).symm
  have hcredDefId : tagName ≠ "cred_def_id" := (h .credDefId).symm
  have hissuerDid : tagName ≠ "issuer_did" := (h .issuerDid).symm
  simp only [processFilter, if_neg hschemaId, if_neg hschemaIssuer, if_neg hschemaName,
    if_neg hschemaVersion, if_neg hcredDefId, if_neg hissuerDid]

/-- Revocation registry ids are not compared at all. -/
theorem filterCompare_revRegId (filter : Filter) (tagValue : String) :
    filterCompare lc values filter "rev_reg_id" tagValue = false := by
  have hvalue : attrRequestByValue "rev_reg_id" = none := by decide
  have hmarker : attrRequestByMarker "rev_reg_id" = none := by decide
  unfold filterCompare processFilter
  simp [isAttrWithRevealedValue, isAttrMarkerOperator, hvalue, hmarker]
  rfl

theorem filterCompare_idTag (filter : Filter) (t : IdTag) (tagValue : String) :
    filterCompare lc values filter t.name tagValue = decide (filter.get t = tagValue) := by
  have h := processFilter_idTag lc values filter t tagValue
  unfold filterCompare
  cases hp : processFilter lc values filter t.name tagValue with
  | error e =>
    have hne : filter.get t ≠ tagValue := fun heq => by simp [hp] at h; exact h heq
    simp [hne, Except.isOk, Except.toBool]
  | ok u =>
    have heq : filter.get t = tagValue := h.mp hp
    simp [heq, Except.isOk, Except.toBool]

variable {lc values} {method : MethodName} {ids : CredentialIds}

/-- A converted value is compared with the unqualified identifiers as the value was with the
qualified ones. -/
theorem filterCompare_unqualified (hids : ids.AtMethod method) {q : Query}
    (hq : q.ComparesQualified method) {c : String × String} (hc : c ∈ q.comparisons) :
    filterCompare lc values ids.unqualified.filter c.1 (convertValueToUnqualified false c.1 c.2) =
      filterCompare lc values ids.filter c.1 c.2 := by
  obtain ⟨tagName, tagValue⟩ := c
  by_cases hid : ∃ t : IdTag, t.name = tagName
  · obtain ⟨t, rfl⟩ := hid
    rw [filterCompare_idTag, filterCompare_idTag, ids.get_unqualified]
    have hinj : convertValueToUnqualified false t.name
        (ids.filter.get t) = convertValueToUnqualified false t.name tagValue ↔
        ids.filter.get t = tagValue :=
      ⟨convertValueToUnqualified_inj (qualifiedValue_filter hids t) (hq t tagValue hc),
        fun h => by rw [h]⟩
    exact decide_eq_decide.mpr hinj
  · have hne : ∀ t : IdTag, t.name ≠ tagName := fun t h => hid ⟨t, h⟩
    by_cases hrev : tagName = "rev_reg_id"
    · subst hrev
      rw [filterCompare_revRegId, filterCompare_revRegId]
    · have hsame : convertValueToUnqualified false tagName tagValue = tagValue := by
        have hdid : ¬(tagName = "issuer_did" ∨ tagName = "schema_issuer_did") := fun h =>
          h.elim (hne .issuerDid).symm (hne .schemaIssuerDid).symm
        have hschemaId : tagName ≠ "schema_id" := (hne .schemaId).symm
        have hcredDefId : tagName ≠ "cred_def_id" := (hne .credDefId).symm
        rw [convertValueToUnqualified, if_neg hdid, if_neg hschemaId, if_neg hcredDefId,
          if_neg hrev]
      rw [hsame]
      unfold filterCompare
      rw [processFilter_of_notIdTag lc values hne]

/-- When the converted request has the verdict that the request has: exactly when the restriction
says the same without its negations, as it does when it has none. -/
theorem toUnqualified_same_verdict_iff {Nonce : Type} (lc : Lowercase) (values : ValueMap)
    (proofRequest : ProofRequestPayload Nonce) (item : RequestedItem) {q : Query}
    (hq : proofRequest.restriction item = some q) (hids : ids.AtMethod method)
    (hvalues : q.ComparesQualified method)
    (credential : Identifier) (hschema : credential.schemaId = ids.schemaId)
    (hcredDef : credential.credDefId = ids.credDef.id) :
    ((∃ q', (proofRequest.toUnqualified false).restriction item = some q' ∧
        (AcceptsRestriction lc values (credential.unqualified false) q' ↔
          AcceptsRestriction lc values credential q)) ↔
      q.withoutNot.meaning (filterCompare lc values ids.filter) = q.meaning
        (filterCompare lc values ids.filter)) ∧
    (q.hasNot = false → q.withoutNot = q) := by
  refine ⟨?_, Query.withoutNot_eq_self⟩
  have hfilter := ids.filterOf_eq hschema hcredDef
  have hfilter' := ids.filterOf_unqualified hschema hcredDef
  have hmeaning := meaning_convertQueryToUnqualified (q := q) fun c hc =>
    @filterCompare_unqualified lc values method ids hids q hvalues c hc
  rw [restriction_toUnqualified, hq]
  simp only [Option.map_some, Option.some.injEq, exists_eq_left',
    acceptsRestriction_iff lc values hfilter, acceptsRestriction_iff lc values hfilter', hmeaning]
  exact Bool.coe_iff_coe

end Verdict

section Negation

def sovrinIssuer : Did := ⟨some sovrin, "NcYxiDXkpYi6ov5FcYDi1e", sampleMain_oneLine, sovrin_plain⟩

def sovrinIds : CredentialIds where
  schemaIssuer := sovrinIssuer
  schemaName := ⟨"gvt", sampleName_noDelimiter⟩
  schemaVersion := ⟨"1.0", sampleVersion_noDelimiter⟩
  credDef :=
    ⟨sovrinIssuer, .seqNo 1, ⟨"CL", sampleSignature_noDelimiter⟩, ⟨"tag", sampleTag_noDelimiter⟩⟩
  like := rfl
  schemaSimple := sampleMain_simple
  versioned := sampleVersion_ne_empty
  regular := ⟨trivial, sampleMain_simple, trivial, trivial, by decide⟩

def sovrinCredential : Identifier := ⟨sovrinIds.schemaId, sovrinIds.credDef.id, none, none⟩

theorem sovrinIds_atMethod : sovrinIds.AtMethod sovrin := ⟨rfl, rfl, trivial⟩

/-- Not from this issuer. -/
def anotherIssuer : Query := .not (.eq "issuer_did" sovrinIssuer.value.value)

def anotherIssuerRequest : ProofRequestPayload Unit where
  nonce := ()
  requestedAttributes :=
    AList.singleton "attr1_referent" ⟨some "name", none, some anotherIssuer, none⟩
  requestedPredicates := ∅
  nonRevoked := none

theorem comparesQualified_anotherIssuer : anotherIssuer.ComparesQualified sovrin := by
  intro t value hmem
  obtain ⟨ht, rfl⟩ : t.name = "issuer_did" ∧ value = sovrinIssuer.value.value := by
    simpa [anotherIssuer, Query.comparisons] using hmem
  cases t <;> first | exact ⟨sovrinIssuer, rfl, rfl⟩ | simp [IdTag.name] at ht

theorem restriction_anotherIssuer :
    anotherIssuerRequest.restriction (.ofAttribute "attr1_referent") = some anotherIssuer := by
  have hlookup : anotherIssuerRequest.requestedAttributes.lookup "attr1_referent" =
      some ⟨some "name", none, some anotherIssuer, none⟩ :=
      Table.lookup_singleton_iff.mpr ⟨rfl, rfl⟩
  simp only [ProofRequestPayload.restriction, hlookup]
  rfl

theorem toUnqualified_same_verdict_iff_anotherIssuer :
    ((∃ q', (anotherIssuerRequest.toUnqualified false).restriction
      (.ofAttribute "attr1_referent") = some q' ∧
        (AcceptsRestriction asciiLowercase ⟨∅, .id⟩ (sovrinCredential.unqualified false) q' ↔
          AcceptsRestriction asciiLowercase ⟨∅, .id⟩ sovrinCredential anotherIssuer)) ↔
      anotherIssuer.withoutNot.meaning (filterCompare asciiLowercase ⟨∅, .id⟩ sovrinIds.filter) =
        anotherIssuer.meaning (filterCompare asciiLowercase ⟨∅, .id⟩ sovrinIds.filter)) ∧
    (anotherIssuer.hasNot = false → anotherIssuer.withoutNot = anotherIssuer) :=
  toUnqualified_same_verdict_iff asciiLowercase ⟨∅, .id⟩ anotherIssuerRequest
    (.ofAttribute "attr1_referent")
    restriction_anotherIssuer sovrinIds_atMethod comparesQualified_anotherIssuer
    sovrinCredential rfl rfl

/-- A credential of the excluded issuer is accepted after the conversion. -/
theorem excluded_issuer_accepted : sovrinIds.AtMethod sovrin ∧
    anotherIssuer.ComparesQualified sovrin ∧
    ¬ AcceptsRestriction asciiLowercase ⟨∅, .id⟩ sovrinCredential anotherIssuer ∧
    ∃ q', (anotherIssuerRequest.toUnqualified false).restriction
      (.ofAttribute "attr1_referent") = some q' ∧
      AcceptsRestriction asciiLowercase ⟨∅, .id⟩ (sovrinCredential.unqualified false) q' := by
  have hfilter := @CredentialIds.filterOf_eq sovrinIds sovrinCredential rfl rfl
  have hfilter' := @CredentialIds.filterOf_unqualified sovrinIds sovrinCredential rfl rfl
  have hissuer : ∀ filter v,
      filterCompare asciiLowercase ⟨∅, .id⟩ filter "issuer_did" v = decide (filter.issuerDid = v) :=
    fun filter v => filterCompare_idTag asciiLowercase ⟨∅, .id⟩ filter .issuerDid v
  refine ⟨sovrinIds_atMethod, comparesQualified_anotherIssuer, ?_,
    convertQueryToUnqualified false anotherIssuer, ?_, ?_⟩
  · rw [acceptsRestriction_iff _ _ hfilter, anotherIssuer, Query.meaning, Query.meaning, hissuer]
    simp [CredentialIds.filter, sovrinIds]
  · rw [restriction_toUnqualified, restriction_anotherIssuer]
    rfl
  · rw [acceptsRestriction_iff _ _ hfilter', anotherIssuer, convertQueryToUnqualified,
      convertQueryToUnqualified, Query.meaning, hissuer, decide_eq_true_eq]
    exact congrArg DidValue.value sovrinIssuer.toUnqualified_value.symm

end Negation

end SimpleAsset.Indy.Anoncreds
