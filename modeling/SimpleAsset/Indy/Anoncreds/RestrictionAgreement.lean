import SimpleAsset.Indy.Anoncreds.Acceptance
import SimpleAsset.Indy.Anoncreds.CredentialQuery

/-! The wallet query of the prover and the restriction check of the verifier decide alike. -/
namespace SimpleAsset.Indy.Anoncreds
open SimpleAsset.Library

section TagNames

theorem colon_notMem_of_attrCommonView {lc : Lowercase} {s : String}
    (h : ':' ∉ (attrCommonView lc s).toList) :
    ':' ∉ s.toList := by
  rw [attrCommonView, lc.colon, removeSpaces, String.toList_ofList] at h
  intro hs
  exact h (List.mem_filter.mpr ⟨hs, by decide⟩)

theorem attrCommonView_colon {lc : Lowercase} {s : String} (h : ':' ∉ s.toList) :
    ':' ∉ (attrCommonView lc s).toList := by
  rw [attrCommonView, lc.colon, removeSpaces, String.toList_ofList]
  intro hs
  exact h (List.mem_filter.mp hs).1

theorem span_colon {name rest : List Char} (h : ':' ∉ name) :
    (name ++ ':' :: rest).span (· ≠ ':') = (name, ':' :: rest) := by
  induction name with
  | nil => simp [List.span_eq_takeWhile_dropWhile]
  | cons c name ih =>
    have hc : c ≠ ':' := fun hc => h (by simp [hc])
    rw [List.span_eq_takeWhile_dropWhile, Prod.mk.injEq] at ih ⊢
    have hih := ih fun hmem => h (List.mem_cons_of_mem _ hmem)
    simp only [List.cons_append, List.takeWhile_cons, List.dropWhile_cons]
    simpa [hc] using hih

/-- The name is read off a tag that is about an attribute. -/
theorem attrTagName_append {kind kind' b : String} (hb : ':' ∉ b.toList) :
    attrTagName kind ("attr::" ++ b ++ ("::" ++ kind')) = if b ≠ "" ∧
    kind' = kind then some b else none := by
  have hlist : ("attr::" ++ b ++ ("::" ++ kind')).toList =
      "attr::".toList ++ (b.toList ++ ':' :: ':' :: kind'.toList) := by
    simp
  have hdrop : ("attr::".toList ++ (b.toList ++ ':' :: ':' :: kind'.toList)).drop 6 =
      b.toList ++ ':' :: ':' :: kind'.toList := rfl
  unfold attrTagName
  rw [hlist, if_pos (List.isPrefixOf_iff_prefix.mpr (List.prefix_append _ _)), hdrop, span_colon hb]
  simp [String.toList_inj]

theorem attrTagName_idTag (kind : String) (t : IdTag) : attrTagName kind t.name = none := by
  cases t <;> rfl

theorem attrTag_inj {x y kind : String} : "attr::" ++ x ++ kind = "attr::" ++ y ++
    kind ↔ x = y := by
  simp

theorem valueTag_ne_markerTag (x y : String) :
    "attr::" ++ x ++ "::value" ≠ "attr::" ++ y ++ "::marker" := by
  intro h
  have hlist : ("attr::" ++ x).toList ++ "::value".toList = ("attr::" ++ y).toList ++
      "::marker".toList := by
    rw [← String.toList_append, ← String.toList_append, h]
  have hlast := congrArg List.getLast? hlist
  rw [List.getLast?_append_of_ne_nil _ (by decide), List.getLast?_append_of_ne_nil _ (by decide)]
    at hlast
  exact absurd hlast (by decide)

/-- A tag about an attribute begins with an `a`. -/
def IsAttrTag (tag : String) : Prop := tag.toList.head? = some 'a'

theorem isAttrTag_append (x kind : String) : IsAttrTag ("attr::" ++ x ++ kind) := by
  simp [IsAttrTag]

theorem not_isAttrTag_idTag (t : IdTag) : ¬ IsAttrTag t.name := by
  cases t <;> simp [IsAttrTag, IdTag.name]

theorem attrTag_ne_idTag (x kind : String) (t : IdTag) : "attr::" ++ x ++ kind ≠ t.name := by
  intro h
  have hattr : IsAttrTag t.name := by
    rw [← h]
    exact isAttrTag_append x kind
  exact not_isAttrTag_idTag t hattr

theorem attrRequestByValue_valueTag {b : String} (hb : ':' ∉ b.toList) (hne : b ≠ "") :
    attrRequestByValue ("attr::" ++ b ++ "::value") = some b := by
  have h := @attrTagName_append "value" "value" b hb
  rw [if_pos ⟨hne, rfl⟩] at h
  exact h

theorem attrRequestByValue_markerTag {b : String} (hb : ':' ∉ b.toList) :
    attrRequestByValue ("attr::" ++ b ++ "::marker") = none := by
  have h := @attrTagName_append "value" "marker" b hb
  rw [if_neg (by simp)] at h
  exact h

theorem attrRequestByMarker_markerTag {b : String} (hb : ':' ∉ b.toList) (hne : b ≠ "") :
    attrRequestByMarker ("attr::" ++ b ++ "::marker") = some b := by
  have h := @attrTagName_append "marker" "marker" b hb
  rw [if_pos ⟨hne, rfl⟩] at h
  exact h

/-- The tags about attributes are told from those about identifiers. -/
theorem processFilter_attrTag {lc : Lowercase} {m : ValueMap} {filter : Filter}
    (x kind v : String) :
    processFilter lc m filter ("attr::" ++ x ++ kind) v =
      if isAttrWithRevealedValue lc m ("attr::" ++ x ++ kind) then
        checkInternalTagRevealedValue lc m ("attr::" ++ x ++ kind) v
      else if isAttrMarkerOperator ("attr::" ++ x ++ kind) then .ok ()
      else .error ⟨.invalidStructure, "Unknown Filter Type"⟩ := by
  have hschemaId : "attr::" ++ x ++ kind ≠ "schema_id" := attrTag_ne_idTag x kind .schemaId
  have hschemaIssuer : "attr::" ++ x ++ kind ≠ "schema_issuer_did" :=
    attrTag_ne_idTag x kind .schemaIssuerDid
  have hschemaName : "attr::" ++ x ++ kind ≠ "schema_name" := attrTag_ne_idTag x kind .schemaName
  have hschemaVersion : "attr::" ++ x ++ kind ≠ "schema_version" :=
    attrTag_ne_idTag x kind .schemaVersion
  have hcredDefId : "attr::" ++ x ++ kind ≠ "cred_def_id" := attrTag_ne_idTag x kind .credDefId
  have hissuerDid : "attr::" ++ x ++ kind ≠ "issuer_did" := attrTag_ne_idTag x kind .issuerDid
  unfold processFilter
  rw [if_neg hschemaId, if_neg hschemaIssuer, if_neg hschemaName, if_neg hschemaVersion,
    if_neg hcredDefId, if_neg hissuerDid]

end TagNames

section Tags
variable {Signature : Type} {lc : Lowercase} {node13 : Bool} {c : Credential Signature}
    {tags : Table String String}

/-- The identifiers of a credential as a proof names them. -/
def Credential.identifier (c : Credential Signature) (timestamp : Option ℕ) : Identifier :=
  ⟨c.schemaId, c.credDefId, c.revRegId, timestamp⟩

theorem not_isAttrTag_identifierTags {did issuerDid : DidValue} {name version : String}
    {w : String × String}
    (h : w ∈ identifierTags node13 c did name version issuerDid) : ¬ IsAttrTag w.1 := by
  unfold identifierTags at h
  rcases List.mem_append.mp h with h | h
  · simp only [List.mem_cons, List.not_mem_nil, or_false] at h
    rcases h with rfl | rfl | rfl | rfl | rfl | rfl | rfl <;> simp [IsAttrTag]
  · split at h
    · simp only [List.mem_cons, List.not_mem_nil, or_false] at h
      rcases h with rfl | rfl | rfl | rfl | rfl <;> simp [IsAttrTag, addExtraTagSuffix]
    · cases h

theorem mem_attrTags {attr : String} {values : AttributeValue} {w : String × String} :
    w ∈ attrTags lc none attr values ↔
      w = (buildAttrMarkerTag lc attr, attributeExistenceMarker) ∨
      w = (buildAttrValueTag lc attr, values.raw) := by
  simp [attrTags]

/-- A tagged credential has well-formed identifiers, and these are its tags. -/
structure TagsOf (lc : Lowercase) (node13 : Bool) (c : Credential Signature)
    (tags : Table String String) (filter : Filter) : Prop where
  parsed : ∀ timestamp, filterOf (c.identifier timestamp) = .ok filter
  written : ∃ writes, tags = Table.insertAll
    (writes ++ c.values.entries.flatMap fun e => attrTags lc none e.1 e.2) ∅ ∧
    (∀ w ∈ writes, ¬ IsAttrTag w.1) ∧ ∀ t : IdTag, (t.name, filter.get t) ∈ writes ∧
      ∀ v, (t.name, v) ∈ writes → v = filter.get t

theorem exists_tagsOf (h : buildCredentialTags lc node13 c none = .ok tags) :
    ∃ filter, TagsOf lc node13 c tags filter := by
  unfold buildCredentialTags at h
  split at h
  · cases h
  · cases h
  · rename_i did name version issuerDid hparts hissuer
    refine ⟨⟨c.schemaId.value, did.value, name, version, issuerDid.value, c.credDefId.value⟩, ?_,
      identifierTags node13 c did name version issuerDid, (Except.ok.inj h).symm,
      fun w hw => not_isAttrTag_identifierTags hw, ?_⟩
    · intro timestamp
      unfold filterOf Credential.identifier
      dsimp only
      rw [hparts, hissuer]
    · intro t
      refine ⟨?_, ?_⟩
      · cases t <;> simp [IdTag.name, Filter.get, identifierTags]
      · intro v hv
        unfold identifierTags at hv
        by_cases hq : c.credDefId.isFullyQualified
        · cases t <;> simpa [IdTag.name, Filter.get, hq, addExtraTagSuffix] using hv
        · cases t <;> simpa [IdTag.name, Filter.get, hq] using hv

variable {filter : Filter}

theorem TagsOf.lookup_idTag (h : TagsOf lc node13 c tags filter) (t : IdTag) :
    tags.lookup t.name = some (filter.get t) := by
  obtain ⟨writes, rfl, -, hid⟩ := h.written
  apply Table.lookup_insertAll
  · exact List.mem_append_left _ (hid t).1
  · intro v hv
    rcases List.mem_append.mp hv with hv | hv
    · exact (hid t).2 v hv
    · obtain ⟨e, -, he⟩ := List.mem_flatMap.mp hv
      rcases mem_attrTags.mp he with he | he
      · exact absurd (congrArg Prod.fst he).symm (attrTag_ne_idTag _ _ t)
      · exact absurd (congrArg Prod.fst he).symm (attrTag_ne_idTag _ _ t)

theorem TagsOf.lookup_markerTag (h : TagsOf lc node13 c tags filter) {name : String}
    {values : AttributeValue} (hname : c.values.lookup name = some values) :
    tags.lookup (buildAttrMarkerTag lc name) = some attributeExistenceMarker := by
  obtain ⟨writes, rfl, hwrites, -⟩ := h.written
  apply Table.lookup_insertAll
  · refine List.mem_append_right _
      (List.mem_flatMap.mpr ⟨⟨name, values⟩, Table.mem_entries_iff.mpr hname, ?_⟩)
    exact mem_attrTags.mpr (Or.inl rfl)
  · intro v hv
    rcases List.mem_append.mp hv with hv | hv
    · exact absurd (isAttrTag_append _ _) (hwrites _ hv)
    · obtain ⟨e, -, he⟩ := List.mem_flatMap.mp hv
      rcases mem_attrTags.mp he with he | he
      · exact congrArg Prod.snd he
      · exact absurd (congrArg Prod.fst he).symm (valueTag_ne_markerTag _ _)

/-- Attribute names stay apart in common view. -/
def Credential.NamesApart (lc : Lowercase) (c : Credential Signature) : Prop :=
  ∀ name name' values values', c.values.lookup name = some values →
    c.values.lookup name' = some values' →
    attrCommonView lc name = attrCommonView lc name' → name = name'

theorem TagsOf.lookup_valueTag (h : TagsOf lc node13 c tags filter) (hapart : c.NamesApart lc)
    {name : String} {values : AttributeValue} (hname : c.values.lookup name = some values) :
    tags.lookup (buildAttrValueTag lc name) = some values.raw := by
  obtain ⟨writes, rfl, hwrites, -⟩ := h.written
  apply Table.lookup_insertAll
  · refine List.mem_append_right _
      (List.mem_flatMap.mpr ⟨⟨name, values⟩, Table.mem_entries_iff.mpr hname, ?_⟩)
    exact mem_attrTags.mpr (Or.inr rfl)
  · intro v hv
    rcases List.mem_append.mp hv with hv | hv
    · exact absurd (isAttrTag_append _ _) (hwrites _ hv)
    · obtain ⟨⟨name', values'⟩, hmem, he⟩ := List.mem_flatMap.mp hv
      have hname' := Table.mem_entries_iff.mp hmem
      rcases mem_attrTags.mp he with he | he
      · exact absurd (congrArg Prod.fst he) (valueTag_ne_markerTag _ _)
      · have hview : attrCommonView lc name = attrCommonView lc name' :=
          attrTag_inj.mp (congrArg Prod.fst he)
        obtain rfl := hapart name name' values values' hname hname' hview
        obtain rfl : values = values' := Option.some.inj (hname.symm.trans hname')
        exact congrArg Prod.snd he

end Tags

section Grammar

/-- `b` is a spelling of the attribute name `a`: with any case and spaces, and not empty. -/
def Spells (lc : Lowercase) (a b : String) : Prop :=
  attrCommonView lc b = attrCommonView lc a ∧ b ≠ ""

/-- The tags that restrictions on the attribute `a` are about, and what each may be compared
with. -/
inductive TagOver (lc : Lowercase) (a : String) : String → (String → Prop) → Prop
  | id (t : IdTag) : TagOver lc a t.name fun _ => True
  | value {b : String} (h : Spells lc a b) : TagOver lc a ("attr::" ++ b ++ "::value") fun _ => True
  | marker {b : String} (h : Spells lc a b) : TagOver lc a ("attr::" ++ b ++ "::marker") (· = "1")

/-- Queries with `Eq`, `Neq`, `In`, `And`, `Or` and `Not` over the tags of `T`. -/
inductive Query.Over (T : String → (String → Prop) → Prop) : Query → Prop
  | eq {tag v : String} {allowed : String → Prop} (h : T tag allowed) (hv : allowed v) :
      Over T (.eq tag v)
  | neq {tag v : String} {allowed : String → Prop} (h : T tag allowed) (hv : allowed v) : Over T
      (.neq tag v)
  | isIn {tag : String} {vs : List String} {allowed : String → Prop} (h : T tag allowed)
      (hv : ∀ v ∈ vs, allowed v) :
      Over T (.isIn tag vs)
  | and {operators : List Query} (h : ∀ q ∈ operators, Over T q) : Over T (.and operators)
  | or {operators : List Query} (h : ∀ q ∈ operators, Over T q) : Over T (.or operators)
  | not {operator : Query} (h : Over T operator) : Over T (.not operator)

end Grammar

section Agreement
variable {Signature : Type} {lc : Lowercase} {node13 : Bool} {c : Credential Signature}
    {tags : Table String String}
  {filter : Filter} {a name : String} {values : AttributeValue}
  {order : Shuffle ((_ : String) × Option String)}

/-- The value map of `_process_operator`: one attribute with its revealed value. -/
def singleValue (attr : String) (revealedValue : Option String)
    (order : Shuffle ((_ : String) × Option String)) :
    ValueMap := ⟨AList.singleton attr revealedValue, order⟩

theorem entries_singleValue (attr : String) (revealedValue : Option String) :
    (singleValue attr revealedValue order).entries = [⟨attr, revealedValue⟩] :=
  List.perm_singleton.mp (order.perm _)

theorem isOk_iff {r : IndyResult Unit} : r.isOk = true ↔ r = .ok () := by
  cases r with
  | error e => simp [Except.isOk, Except.toBool]
  | ok u => simp [Except.isOk, Except.toBool]

/-- What both sides make of one tag: the credential is tagged with a value, and the verifier
compares with it. -/
def LeafAgrees (lc : Lowercase) (tags : Table String String) (m : ValueMap) (filter : Filter)
    (T : String → (String → Prop) → Prop) : Prop :=
  ∀ tag allowed, T tag allowed → ∃ w, tags.lookup (caseInsensitiveTag lc tag) = some w ∧
    ∀ v, allowed v → (processFilter lc m filter tag v = .ok () ↔ w = v)

theorem caseInsensitiveTag_idTag (t : IdTag) : caseInsensitiveTag lc t.name = t.name := by
  simp [caseInsensitiveTag, attrRequestByValue, attrRequestByMarker, attrTagName_idTag]

theorem TagsOf.leafAgrees (h : TagsOf lc node13 c tags filter) (hapart : c.NamesApart lc)
    (hname : c.values.lookup name = some values) (hcolon : ':' ∉ name.toList)
    (hview : attrCommonView lc name = attrCommonView lc a)
    (order : Shuffle ((_ : String) × Option String)) :
    LeafAgrees lc tags (singleValue a (some values.raw) order) filter (TagOver lc a) := by
  intro tag allowed ht
  have hspell : ∀ {b}, Spells lc a b → ':' ∉ b.toList := by
    intro b hb
    apply @colon_notMem_of_attrCommonView lc
    rw [hb.1, ← hview]
    exact attrCommonView_colon hcolon
  cases ht with
  | id t =>
    refine ⟨filter.get t, ?_, fun v _ => processFilter_idTag _ _ _ t v⟩
    rw [caseInsensitiveTag_idTag]
    exact h.lookup_idTag t
  | @value b hb =>
    have hbyValue := attrRequestByValue_valueTag (hspell hb) hb.2
    have htag : caseInsensitiveTag lc ("attr::" ++ b ++ "::value") = buildAttrValueTag lc name := by
      simp [caseInsensitiveTag, hbyValue, buildAttrValueTag, hb.1, hview]
    refine ⟨values.raw, ?_, ?_⟩
    · rw [htag]
      exact h.lookup_valueTag hapart hname
    · intro v _
      rw [processFilter_attrTag]
      simp [isAttrWithRevealedValue, checkInternalTagRevealedValue, hbyValue,
        entries_singleValue, hb.1]
  | @marker b hb =>
    have hbyValue := attrRequestByValue_markerTag (hspell hb)
    have hbyMarker := attrRequestByMarker_markerTag (hspell hb) hb.2
    have htag : caseInsensitiveTag lc ("attr::" ++ b ++ "::marker") =
        buildAttrMarkerTag lc name := by
      simp [caseInsensitiveTag, hbyValue, hbyMarker, buildAttrMarkerTag, hb.1, hview]
    refine ⟨attributeExistenceMarker, ?_, ?_⟩
    · rw [htag]
      exact h.lookup_markerTag hname
    · intro v hv
      rw [processFilter_attrTag]
      simp [isAttrWithRevealedValue, isAttrMarkerOperator, hbyValue, hbyMarker,
        attributeExistenceMarker, hv]

/-- Both sides decide a query alike. -/
def Agrees (lc : Lowercase) (tags : Table String String) (m : ValueMap) (filter : Filter)
    (q : Query) : Prop :=
  ∃ q', makeRestrictionsByInternalTagsCaseInsensitive lc q = .ok q' ∧
    (q'.holdsOf tags = true ↔ doProcessOperator lc m filter q = .ok ())

/-- Lists of queries follow their members, under both connectives. -/
theorem agrees_list {m : ValueMap} {qs : List Query} (h : ∀ q ∈ qs, Agrees lc tags m filter q) :
    ∃ qs', makeAllCaseInsensitive lc qs = .ok qs' ∧
      (allHoldOf tags qs' = true ↔ doProcessOperators lc m filter qs = .ok ()) ∧
      (anyHoldsOf tags qs' = true ↔ anyOperator lc m filter qs = true) := by
  induction qs with
  | nil =>
    exact ⟨[], rfl, by simp [allHoldOf, doProcessOperators], by simp [anyHoldsOf, anyOperator]⟩
  | cons q qs ih =>
    obtain ⟨q', hq', hholds⟩ := h q (by simp)
    obtain ⟨qs', hqs', hall, hany⟩ := ih fun q hq => h q (by simp [hq])
    refine ⟨q' :: qs', by simp [makeAllCaseInsensitive, hq', hqs'], ?_, ?_⟩
    · rw [allHoldOf, Bool.and_eq_true, hholds, hall, doProcessOperators, except_bind_eq_ok]
      exact ⟨fun ⟨h₁, h₂⟩ => ⟨(), h₁, h₂⟩, fun ⟨⟨⟩, h₁, h₂⟩ => ⟨h₁, h₂⟩⟩
    · rw [anyHoldsOf, Bool.or_eq_true, hholds, hany, anyOperator, Bool.or_eq_true, isOk_iff]

/-- If both sides agree on the tags they agree on the queries. -/
theorem Query.Over.agrees {T : String → (String → Prop) → Prop} {m : ValueMap} {q : Query}
    (hq : q.Over T) (hleaf : LeafAgrees lc tags m filter T) : Agrees lc tags m filter q := by
  induction hq with
  | eq ht hv =>
    obtain ⟨w, hlookup, hcompare⟩ := hleaf _ _ ht
    refine ⟨_, rfl, ?_⟩
    rw [doProcessOperator, extendErr_eq_ok_iff, hcompare _ hv]
    simp [Query.holdsOf, hlookup]
  | neq ht hv =>
    obtain ⟨w, hlookup, hcompare⟩ := hleaf _ _ ht
    refine ⟨_, rfl, ?_⟩
    rw [doProcessOperator]
    simp [Query.holdsOf, hlookup, isOk_iff, hcompare _ hv]
  | @isIn tag vs allowed ht hv =>
    obtain ⟨w, hlookup, hcompare⟩ := hleaf _ _ ht
    refine ⟨_, rfl, ?_⟩
    have hany : (vs.any fun val => (processFilter lc m filter tag val).isOk) = true ↔ w ∈ vs := by
      rw [List.any_eq_true]
      constructor
      · rintro ⟨v, hmem, hok⟩
        obtain rfl := (hcompare v (hv v hmem)).mp (isOk_iff.mp hok)
        exact hmem
      · intro hmem
        exact ⟨w, hmem, isOk_iff.mpr ((hcompare w (hv w hmem)).mpr rfl)⟩
    rw [doProcessOperator]
    simp [Query.holdsOf, hlookup, hany]
  | and _ ih =>
    obtain ⟨qs', hqs', hall, -⟩ := agrees_list ih
    refine ⟨.and qs', by simp [makeRestrictionsByInternalTagsCaseInsensitive, hqs'], ?_⟩
    rw [Query.holdsOf, doProcessOperator, extendErr_eq_ok_iff, hall]
  | or _ ih =>
    obtain ⟨qs', hqs', -, hany⟩ := agrees_list ih
    refine ⟨.or qs', by simp [makeRestrictionsByInternalTagsCaseInsensitive, hqs'], ?_⟩
    rw [Query.holdsOf, doProcessOperator, hany]
    simp
  | not _ ih =>
    obtain ⟨q', hq', hholds⟩ := ih
    refine ⟨.not q', by simp [makeRestrictionsByInternalTagsCaseInsensitive, hq'], ?_⟩
    rw [Query.holdsOf, doProcessOperator, Bool.not_eq_true', ← Bool.not_eq_true, hholds, ← isOk_iff]
    simp

theorem exists_name_of_values {credentialAttrs : Table String AttributeValue}
    (h : getCredentialValuesForAttribute lc credentialAttrs a = some values) :
    ∃ name, credentialAttrs.lookup name = some values ∧
      attrCommonView lc name = attrCommonView lc a := by
  obtain ⟨⟨name, values'⟩, hfind, rfl⟩ := Option.map_eq_some_iff.mp h
  have hview := List.find?_some hfind
  exact ⟨name, Table.mem_entries_iff.mp (List.mem_of_find?_eq_some hfind), by simpa using hview⟩

/-- A credential is found by its tags exactly when the verifier will accept it. -/
theorem prover_verifier_agree (referent : String) (timestamp : Option ℕ)
    (order : Shuffle ((_ : String) × Option String))
    (htags : buildCredentialTags lc node13 c none = .ok tags) (hapart : c.NamesApart lc)
    (hcolon : ∀ name values, c.values.lookup name = some values → ':' ∉ name.toList)
    (ha : getCredentialValuesForAttribute lc c.values a = some values) {q : Query}
    (hq : q.Over (TagOver lc a)) :
    ∃ query filter,
      processProofRequestRestrictions lc .v2 (some a) none referent (some q) none = .ok query ∧
      filterOf (c.identifier timestamp) = .ok filter ∧
      (query.holdsOf tags = true ↔
        doProcessOperator lc (singleValue a (some values.raw) order) filter q = .ok ()) := by
  obtain ⟨filter, htagsOf⟩ := exists_tagsOf htags
  obtain ⟨name, hname, hview⟩ := exists_name_of_values ha
  obtain ⟨q', hq', hholds⟩ := 
    hq.agrees (htagsOf.leafAgrees hapart hname (hcolon name values hname) hview order)
  have hmarker : tags.lookup (buildAttrMarkerTag lc a) = some attributeExistenceMarker := by
    rw [buildAttrMarkerTag, ← hview]
    exact htagsOf.lookup_markerTag hname
  refine ⟨.and [q', .eq (buildAttrMarkerTag lc a) attributeExistenceMarker], filter, ?_,
    htagsOf.parsed timestamp, ?_⟩
  · simp [processProofRequestRestrictions, versionRestrictions, hq', Except.map]
  · simp [Query.holdsOf, allHoldOf, hmarker, hholds]

end Agreement

section Spelling

/-- A credential with these attributes. -/
def sampleCredential (values : Table String AttributeValue) : Credential Unit :=
  ⟨⟨"NcYxiDXkpYi6ov5FcYDi1e:2:gvt:1.0"⟩, ⟨"NcYxiDXkpYi6ov5FcYDi1e:3:CL:1:tag"⟩, none, values, ()⟩

theorem exists_tags_sampleCredential (values : Table String AttributeValue) :
    ∃ tags, buildCredentialTags asciiLowercase false (sampleCredential values) none = .ok tags := by
  have hparts : (sampleCredential values).schemaId.parts = some
      (⟨"NcYxiDXkpYi6ov5FcYDi1e"⟩, "gvt", "1.0") := by
    change SchemaId.parts ⟨"NcYxiDXkpYi6ov5FcYDi1e:2:gvt:1.0"⟩ = _
    decide
  have hissuer : (sampleCredential values).credDefId.issuerDid = some
      ⟨"NcYxiDXkpYi6ov5FcYDi1e"⟩ := by
    change CredentialDefinitionId.issuerDid ⟨"NcYxiDXkpYi6ov5FcYDi1e:3:CL:1:tag"⟩ = _
    decide
  unfold buildCredentialTags
  rw [hparts, hissuer]
  exact ⟨_, rfl⟩

/-- A credential with a first and a last name. -/
def namedCredential : Credential Unit :=
  sampleCredential
    ((AList.singleton "Last Name" ⟨"Smith", "7"⟩ : Table String AttributeValue).insert
    "First Name" ⟨"Alex", "42"⟩)

theorem name_of_lookup_namedCredential {name : String} {values : AttributeValue}
    (h : namedCredential.values.lookup name = some values) :
    name = "First Name" ∨ name = "Last Name" := by
  by_cases hfirst : name = "First Name"
  · exact .inl hfirst
  · rw [namedCredential, sampleCredential, AList.lookup_insert_ne hfirst] at h
    exact .inr (Table.lookup_singleton_iff.mp h).1

theorem namesApart_namedCredential : namedCredential.NamesApart asciiLowercase := by
  intro name₁ name₂ values₁ values₂ h₁ h₂ hview
  rcases name_of_lookup_namedCredential h₁ with rfl | rfl <;>
    rcases name_of_lookup_namedCredential h₂ with rfl | rfl
  · rfl
  · exact absurd hview (by decide)
  · exact absurd hview (by decide)
  · rfl

theorem prover_verifier_agree_firstName : ∃ tags query filter,
    buildCredentialTags asciiLowercase false namedCredential none = .ok tags ∧
      processProofRequestRestrictions asciiLowercase .v2 (some "First Name") none "attr1_referent"
        (some (.not (.eq "attr::FIRSTNAME::value" "Alex"))) none = .ok query ∧
      filterOf (namedCredential.identifier none) = .ok filter ∧
      (query.holdsOf tags = true ↔
        doProcessOperator asciiLowercase (singleValue "First Name" (some "Alex") .id) filter
          (.not (.eq "attr::FIRSTNAME::value" "Alex")) = .ok ()) := by
  obtain ⟨tags, htags⟩ := exists_tags_sampleCredential namedCredential.values
  have hcolon : ∀ name values, namedCredential.values.lookup name = some values →
      ':' ∉ name.toList := by
    intro name values h
    rcases name_of_lookup_namedCredential h with rfl | rfl <;> decide
  have hvalues : getCredentialValuesForAttribute asciiLowercase namedCredential.values
      "First Name" = some ⟨"Alex", "42"⟩ := by
    decide
  have hspell : Spells asciiLowercase "First Name" "FIRSTNAME" := by
    unfold Spells
    decide
  obtain ⟨query, filter, h⟩ :=
    prover_verifier_agree (c := namedCredential) "attr1_referent" none .id htags
    namesApart_namedCredential hcolon hvalues (.not (.eq (.value hspell) trivial))
  exact ⟨tags, query, filter, htags, h⟩

/-- A credential with one attribute, whose name is a space. -/
def blankCredential : Credential Unit := sampleCredential (AList.singleton " " ⟨"Alex", "42"⟩)

theorem namesApart_blankCredential : blankCredential.NamesApart asciiLowercase := by
  intro name₁ name₂ values₁ values₂ h₁ h₂ _
  exact (Table.lookup_singleton_iff.mp h₁).1.trans (Table.lookup_singleton_iff.mp h₂).1.symm

/-- An attribute name of spaces only can be spelled by nothing at all; the verifier does not take
that for a name. -/
theorem empty_spelling_disagrees :
    attrCommonView asciiLowercase "" = attrCommonView asciiLowercase " " ∧
    ∃ tags query filter,
      buildCredentialTags asciiLowercase false blankCredential none = .ok tags ∧
      processProofRequestRestrictions asciiLowercase .v2 (some " ") none "attr1_referent"
        (some (.eq ("attr::" ++ "" ++ "::value") "Alex")) none = .ok query ∧
      filterOf (blankCredential.identifier none) = .ok filter ∧ query.holdsOf tags = true ∧
      doProcessOperator asciiLowercase (singleValue " " (some "Alex") .id) filter
        (.eq ("attr::" ++ "" ++ "::value") "Alex") ≠ .ok () := by
  obtain ⟨tags, htags⟩ := exists_tags_sampleCredential blankCredential.values
  obtain ⟨filter, htagsOf⟩ := exists_tagsOf htags
  have hname : blankCredential.values.lookup " " = some ⟨"Alex", "42"⟩ :=
    Table.lookup_singleton_iff.mpr ⟨rfl, rfl⟩
  have hvalueTag : buildAttrValueTag asciiLowercase " " = "attr::::value" := by decide
  have hvalue := htagsOf.lookup_valueTag (namesApart_blankCredential) hname
  have hmarker := htagsOf.lookup_markerTag hname
  rw [hvalueTag] at hvalue
  have hplain : caseInsensitiveTag asciiLowercase "attr::::value" = "attr::::value" := by decide
  refine ⟨by decide, tags, .and [.eq ("attr::" ++ "" ++ "::value") "Alex",
    .eq (buildAttrMarkerTag asciiLowercase " ") attributeExistenceMarker], filter, htags, ?_,
      htagsOf.parsed none, ?_, ?_⟩
  · simp [processProofRequestRestrictions, versionRestrictions,
      makeRestrictionsByInternalTagsCaseInsensitive, hplain, Except.map]
  · simp [Query.holdsOf, allHoldOf, hvalue, hmarker]
  · rw [doProcessOperator, ne_eq, extendErr_eq_ok_iff, processFilter_attrTag]
    simp [isAttrWithRevealedValue, isAttrMarkerOperator, attrRequestByValue, attrRequestByMarker,
      attrTagName]

end Spelling

end SimpleAsset.Indy.Anoncreds
