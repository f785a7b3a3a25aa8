import SimpleAsset.Indy.Anoncreds.Prover
import SimpleAsset.Indy.Anoncreds.RestrictionAgreement
import SimpleAsset.Indy.Anoncreds.UnqualifiedRequest

/-! Which credentials a request of the first version finds, against those that the verifier
accepts. -/
namespace SimpleAsset.Indy.Anoncreds
open SimpleAsset.Library

section Tags
variable {Signature : Type} {lc : Lowercase} {c : Credential Signature} {tags : Table String String}
  {catpol : Option (Finset String)} {ids : CredentialIds}

/-- The identifiers of the credential are made of these parts. -/
structure Credential.HasIds (c : Credential Signature) (ids : CredentialIds) : Prop where
  schemaId : c.schemaId = ids.schemaId
  credDefId : c.credDefId = ids.credDef.id

theorem isAttrTag_of_mem_attrTags {attr : String} {values : AttributeValue} {w : String × String}
    (h : w ∈ attrTags lc catpol attr values) : IsAttrTag w.1 := by
  unfold attrTags at h
  split at h
  · simp only [List.mem_cons, List.not_mem_nil, or_false] at h
    rcases h with rfl | rfl
    · exact isAttrTag_append _ _
    · exact isAttrTag_append _ _
  · cases h

def plainWrites (c : Credential Signature) (ids : CredentialIds) : List (String × String) :=
  [("schema_id", ids.filter.schemaId), ("schema_issuer_did", ids.filter.schemaIssuerDid),
   ("schema_name", ids.filter.schemaName), ("schema_version", ids.filter.schemaVersion),
   ("issuer_did", ids.filter.issuerDid), ("cred_def_id", ids.filter.credDefId),
   ("rev_reg_id", (c.revRegId.map (·.value)).getD "None")]

def shortWrites (c : Credential Signature) (ids : CredentialIds) : List (String × String) :=
  [("schema_id_short", ids.unqualified.filter.schemaId),
    ("schema_issuer_did_short", ids.unqualified.filter.schemaIssuerDid),
   ("issuer_did_short", ids.unqualified.filter.issuerDid),
   ("cred_def_id_short", ids.unqualified.filter.credDefId), ("rev_reg_id_short",
     (c.revRegId.map fun revRegId => (revRegId.toUnqualified false).value).getD "None")]

/-- The tags about the identifiers that a credential with these parts gets. -/
def idWrites (c : Credential Signature) (ids : CredentialIds) : List (String × String) :=
  plainWrites c ids ++ if ids.credDef.id.isFullyQualified then shortWrites c ids else []

theorem identifierTags_eq (hc : c.HasIds ids) :
    identifierTags false c ids.schemaIssuer.value ids.schemaName.text
    ids.schemaVersion.text ids.credDef.did.value = idWrites c ids := by
  unfold identifierTags idWrites
  rw [hc.schemaId, hc.credDefId, ids.toUnqualified_schemaId, ids.toUnqualified_credDef,
    ids.schemaIssuer.toUnqualified_eq ids.schemaSimple,
    ids.credDef.did.toUnqualified_eq ids.regular.didSimple]
  rfl

theorem buildCredentialTags_eq (hc : c.HasIds ids) :
    buildCredentialTags lc false c catpol = .ok (Table.insertAll
    (idWrites c ids ++ c.values.entries.flatMap fun e => attrTags lc catpol e.1 e.2) ∅) := by
  rw [← identifierTags_eq hc]
  unfold buildCredentialTags
  rw [hc.schemaId, hc.credDefId, ids.parts_schemaId, ids.issuerDid_credDef]

/-- A tag has a short form when identifiers of its kind can be qualified. -/
def IdTag.qualifiable : IdTag → Bool
  | .schemaName | .schemaVersion => false
  | _ => true

theorem mem_qualifiableTags_iff (t : IdTag) : t.name ∈ qualifiableTags ↔ t.qualifiable = true := by
  cases t <;> decide

theorem mem_idWrites_plain (c : Credential Signature) (ids : CredentialIds) (t : IdTag)
    (v : String) :
    (t.name, v) ∈ idWrites c ids ↔ v = ids.filter.get t := by
  unfold idWrites
  split
  · cases t <;> simp [plainWrites, shortWrites, IdTag.name, Filter.get]
  · cases t <;> simp [plainWrites, IdTag.name, Filter.get]

theorem mem_idWrites_short (c : Credential Signature) (ids : CredentialIds) {t : IdTag}
    (ht : t.qualifiable = true) (v : String) : (addExtraTagSuffix t.name, v) ∈ idWrites c ids ↔
      ids.credDef.id.isFullyQualified = true ∧ v = ids.unqualified.filter.get t := by
  unfold idWrites
  split
  · rename_i hq
    cases t <;> first
      | exact absurd ht (by decide)
      | simp [plainWrites, shortWrites, IdTag.name, addExtraTagSuffix, Filter.get, hq]
  · rename_i hq
    cases t <;> simp [plainWrites, IdTag.name, addExtraTagSuffix, hq]

variable (htags : buildCredentialTags lc false c catpol = .ok tags) (hc : c.HasIds ids)
include htags hc

theorem lookup_idWrite {k v : String} (hk : ¬ IsAttrTag k) (hmem : (k, v) ∈ idWrites c ids)
    (hunique : ∀ v', (k, v') ∈ idWrites c ids → v' = v) : tags.lookup k = some v := by
  rw [buildCredentialTags_eq hc] at htags
  rw [← Except.ok.inj htags]
  refine Table.lookup_insertAll (List.mem_append_left _ hmem) (fun v' hv' => ?_) ∅
  rcases List.mem_append.mp hv' with hv' | hv'
  · exact hunique v' hv'
  · obtain ⟨e, -, he⟩ := List.mem_flatMap.mp hv'
    exact absurd (isAttrTag_of_mem_attrTags he) hk

theorem lookup_no_idWrite {k : String} (hk : ¬ IsAttrTag k) (hno : ∀ w ∈ idWrites c ids, w.1 ≠ k) :
    tags.lookup k = none := by
  rw [buildCredentialTags_eq hc] at htags
  rw [← Except.ok.inj htags, Table.lookup_insertAll_of_notMem]
  · exact AList.lookup_empty k
  · rintro w hw rfl
    rcases List.mem_append.mp hw with hw | hw
    · exact hno w hw rfl
    · obtain ⟨e, -, he⟩ := List.mem_flatMap.mp hw
      exact hk (isAttrTag_of_mem_attrTags he)

theorem lookup_plainTag (t : IdTag) : tags.lookup t.name = some (ids.filter.get t) :=
  lookup_idWrite htags hc (not_isAttrTag_idTag t) ((mem_idWrites_plain c ids t _).mpr rfl)
    fun v hv => (mem_idWrites_plain c ids t v).mp hv

/-- The short form of an identifier is there when the credential definition id counts as fully
qualified. -/
theorem lookup_shortTag {t : IdTag} (ht : t.qualifiable = true) :
    tags.lookup (addExtraTagSuffix t.name) =
    if ids.credDef.id.isFullyQualified then some (ids.unqualified.filter.get t) else none := by
  have hattr : ¬ IsAttrTag (addExtraTagSuffix t.name) := by
    cases t <;> simp [IsAttrTag, addExtraTagSuffix, IdTag.name]
  have hmem := mem_idWrites_short c ids ht
  split
  · rename_i hq
    exact lookup_idWrite htags hc hattr ((hmem _).mpr ⟨hq, rfl⟩) fun v hv => ((hmem v).mp hv).2
  · rename_i hq
    refine lookup_no_idWrite htags hc hattr fun w hw hname => hq ?_
    exact ((hmem w.2).mp (hname ▸ hw)).1

end Tags

section Reading

def IdTag.qualifier : IdTag → String
  | .schemaId => "schema"
  | .credDefId => "creddef"
  | _ => "did"

/-- Not of the form `<prefix>:<method>:..` of the identifiers that the tag is about. -/
def UnqualifiedValue (t : IdTag) (value : String) : Prop :=
  t.qualifiable = true → ∀ (method : MethodName) (rest : String),
    value ≠ qualify rest t.qualifier method.name

theorem unqualifiedValue_of_noDelimiter {t : IdTag} {value : String} (h : ':' ∉ value.toList) :
    UnqualifiedValue t value := by
  rintro - method rest rfl
  exact h (by simp [qualify])

/-- The tags about identifiers, with unqualified values. -/
inductive UnqualifiedOver : String → (String → Prop) → Prop
  | idTag (t : IdTag) : UnqualifiedOver t.name (UnqualifiedValue t)

mutual

/-- The restriction as the doubled tags read it, for a credential that has the short tags or has
not, and whose identifiers are plain or are not: some comparisons are never met. -/
def Query.foundBy (short plain : Bool) : Query → Query
  | .eq tagName tagValue =>
    if tagName ∈ qualifiableTags ∧ (short || plain) = false then .or [] else .eq tagName tagValue
  | .neq tagName tagValue => if tagName ∈ qualifiableTags ∧
      short = false then .or [] else .neq tagName tagValue
  | .isIn tagName tagValues =>
    if tagName ∈ qualifiableTags ∧ (short || plain) = false then .or [] else .isIn tagName tagValues
  | .and operators => .and (foundByAll short plain operators)
  | .or operators => .or (foundByAll short plain operators)
  | .not operator => .not (operator.foundBy short plain)
  | .gt tagName tagValue => .gt tagName tagValue
  | .gte tagName tagValue => .gte tagName tagValue
  | .lt tagName tagValue => .lt tagName tagValue
  | .lte tagName tagValue => .lte tagName tagValue
  | .like tagName tagValue => .like tagName tagValue

def foundByAll (short plain : Bool) : List Query → List Query
  | [] => []
  | operator :: operators => operator.foundBy short plain :: foundByAll short plain operators

end

theorem foundByAll_eq (short plain : Bool) (operators : List Query) :
    foundByAll short plain operators = operators.map (Query.foundBy short plain) := by
  induction operators with
  | nil => rfl
  | cons q qs ih => rw [foundByAll, List.map_cons, ih]

/-- With the short tags nothing is missed. -/
theorem Query.foundBy_short (plain : Bool) (q : Query) : q.foundBy true plain = q := by
  induction q using Query.induction with
  | eq tagName tagValue => simp [Query.foundBy]
  | neq tagName tagValue => simp [Query.foundBy]
  | isIn tagName tagValues => simp [Query.foundBy]
  | and operators ih => rw [Query.foundBy, foundByAll_eq, List.map_congr_left ih, List.map_id']
  | or operators ih => rw [Query.foundBy, foundByAll_eq, List.map_congr_left ih, List.map_id']
  | not operator ih => rw [Query.foundBy, ih]
  | ordering q hq => cases q <;> first | rfl | cases hq

end Reading

section Found
variable {Signature : Type} {lc : Lowercase} {c : Credential Signature} {tags : Table String String}
  {catpol : Option (Finset String)} {ids : CredentialIds} {values : ValueMap}

def CredentialIds.plain (ids : CredentialIds) : Bool := ids.credDef.did.method.isNone

theorem get_plain_eq (h : ids.plain = true) (t : IdTag) :
    ids.filter.get t = ids.unqualified.filter.get t := by
  rw [ids.unqualified_eq_self (Option.isNone_iff_eq_none.mp h)]

theorem get_eq_of_not_qualifiable {t : IdTag} (h : t.qualifiable = false) :
    ids.filter.get t = ids.unqualified.filter.get t := by
  cases t <;> first | exact absurd h (by decide) | rfl

theorem exists_qualify_get (h : ids.plain = false) {t : IdTag} (ht : t.qualifiable = true) :
    ∃ (method : MethodName) (rest : String),
      ids.filter.get t = qualify rest t.qualifier method.name := by
  have hdid : ids.credDef.did.method.isSome = true := by
    simpa [CredentialIds.plain, ← Option.not_isSome] using h
  obtain ⟨method, hmethod⟩ := Option.isSome_iff_exists.mp hdid
  obtain ⟨issuerMethod, hissuer⟩ := Option.isSome_iff_exists.mp (ids.like.trans hdid)
  have hvalue : ∀ {did : Did} {m : MethodName}, did.method = some m →
      did.value.value = qualify did.main "did" m.name := by
    intro did m hm
    unfold Did.value
    rw [hm]
    rfl
  cases t with
  | schemaId =>
    refine ⟨issuerMethod,
      delimiter.intercalate [ids.schemaIssuer.value.value, SchemaId.marker, ids.schemaName.text,
      ids.schemaVersion.text], ?_⟩
    unfold CredentialIds.filter CredentialIds.schemaId SchemaId.new Filter.get
    dsimp only
    rw [ids.schemaIssuer.getMethod_value, hissuer]
    rfl
  | schemaIssuerDid => exact ⟨issuerMethod, _, hvalue hissuer⟩
  | schemaName => exact absurd ht (by decide)
  | schemaVersion => exact absurd ht (by decide)
  | credDefId =>
    unfold CredentialIds.filter CredDefParts.id CredentialDefinitionId.new Filter.get
    dsimp only
    rw [ids.credDef.did.getMethod_value, hmethod]
    exact ⟨method, _, rfl⟩
  | issuerDid => exact ⟨method, _, hvalue hmethod⟩

/-- The code's own test whether the short tags are written. -/
theorem isFullyQualified_of_qualified (h : ids.plain = false)
    (hline : '\n' ∉ ids.credDef.id.value.toList) :
    ids.credDef.id.isFullyQualified = true := by
  obtain ⟨method, rest, hget⟩ :=
    exists_qualify_get h (show IdTag.credDefId.qualifiable = true from rfl)
  have hvalue : ids.credDef.id.value = qualify rest "creddef" method.name := hget
  have hrest : '\n' ∉ rest.toList := by
    intro hmem
    rw [hvalue] at hline
    exact hline (by simp [qualify, hmem])
  have hcaptures :=
    qualifierCaptures_qualify "creddef" method (by decide) (List.all_eq_true.mp (by decide)) hrest
  have hstart : (qualify rest "creddef" method.name).startsWith "creddef" = true := by
    simp [qualify]
  rw [CredentialDefinitionId.isFullyQualified, hvalue, hstart, hcaptures]
  rfl

/-- A value is not the identifier itself, unless the credential has plain identifiers. -/
theorem get_ne_of_unqualified (h : ids.plain = false) {t : IdTag} (ht : t.qualifiable = true)
    {v : String} (hv : UnqualifiedValue t v) : ids.filter.get t ≠ v := by
  obtain ⟨method, rest, hget⟩ := exists_qualify_get h ht
  exact fun heq => hv ht method rest (heq ▸ hget)

theorem holdsOf_doubled_eq (htags : buildCredentialTags lc false c catpol = .ok tags)
    (hc : c.HasIds ids) {t : IdTag}
    (ht : t.qualifiable = true) {v : String} (hv : UnqualifiedValue t v) :
    (Query.or [.eq t.name v, .eq (addExtraTagSuffix t.name) v]).holdsOf tags =
      ((ids.credDef.id.isFullyQualified || ids.plain) &&
        decide (ids.unqualified.filter.get t = v)) := by
  simp only [Query.holdsOf, anyHoldsOf, lookup_plainTag htags hc t, lookup_shortTag htags hc ht,
    Bool.or_false, Option.any_some]
  cases hplain : ids.plain with
  | true =>
    rw [get_plain_eq hplain]
    split
    · simp
    · simp
  | false =>
    have hne := get_ne_of_unqualified hplain ht hv
    split
    · rename_i hshort
      simp [hne, hshort]
    · rename_i hshort
      simp [hne, hshort]

theorem holdsOf_doubledNeq_eq (htags : buildCredentialTags lc false c catpol = .ok tags)
    (hc : c.HasIds ids) {t : IdTag}
    (ht : t.qualifiable = true) {v : String} (hv : UnqualifiedValue t v) :
    (Query.and [.neq t.name v, .neq (addExtraTagSuffix t.name) v]).holdsOf tags =
      (ids.credDef.id.isFullyQualified && !decide (ids.unqualified.filter.get t = v)) := by
  simp only [Query.holdsOf, allHoldOf, lookup_plainTag htags hc t, lookup_shortTag htags hc ht,
    Bool.and_true, Option.any_some]
  split
  · rename_i hshort
    cases hplain : ids.plain with
    | true =>
      rw [get_plain_eq hplain]
      simp [hshort]
    | false => simp [get_ne_of_unqualified hplain ht hv, hshort]
  · rename_i hshort
    simp [hshort]

theorem holdsOf_doubledIn_eq (htags : buildCredentialTags lc false c catpol = .ok tags)
    (hc : c.HasIds ids) {t : IdTag}
    (ht : t.qualifiable = true) {vs : List String} (hvs : ∀ v ∈ vs, UnqualifiedValue t v) :
    (Query.or [.isIn t.name vs, .isIn (addExtraTagSuffix t.name) vs]).holdsOf tags =
      ((ids.credDef.id.isFullyQualified || ids.plain) &&
        decide (ids.unqualified.filter.get t ∈ vs)) := by
  simp only [Query.holdsOf, anyHoldsOf, lookup_plainTag htags hc t, lookup_shortTag htags hc ht,
    Bool.or_false, Option.any_some]
  cases hplain : ids.plain with
  | true =>
    rw [get_plain_eq hplain]
    split
    · simp
    · simp
  | false =>
    have hnot : ids.filter.get t ∉ vs :=
      fun hmem => get_ne_of_unqualified hplain ht (hvs _ hmem) rfl
    split
    · rename_i hshort
      simp [hnot, hshort]
    · rename_i hshort
      simp [hnot, hshort]

theorem any_filterCompare (filter : Filter) (t : IdTag) (vs : List String) :
    vs.any (filterCompare lc values filter t.name) = decide (filter.get t ∈ vs) := by
  have hcompare : filterCompare lc values filter t.name = fun v => decide (filter.get t = v) :=
    funext fun v => filterCompare_idTag lc values filter t v
  rw [hcompare, Bool.eq_iff_iff, List.any_eq_true, decide_eq_true_iff]
  simp

variable (lc values ids) in
/-- The doubled restriction finds the credential, and this is what it reads. -/
def FindsAsRead (tags : Table String String) (q : Query) : Prop :=
  ∃ q', doubleRestrictions q = .ok q' ∧ q'.holdsOf tags =
    (q.foundBy ids.credDef.id.isFullyQualified ids.plain).meaning
    (filterCompare lc values ids.unqualified.filter)

theorem findsAsRead_list {qs : List Query} (h : ∀ q ∈ qs, FindsAsRead lc ids values tags q) :
    ∃ qs', doubleAll qs = .ok qs' ∧
      allHoldOf tags qs' = meaningAll (filterCompare lc values ids.unqualified.filter)
        (foundByAll ids.credDef.id.isFullyQualified ids.plain qs) ∧
      anyHoldsOf tags qs' = meaningAny (filterCompare lc values ids.unqualified.filter)
        (foundByAll ids.credDef.id.isFullyQualified ids.plain qs) := by
  induction qs with
  | nil => exact ⟨[], rfl, rfl, rfl⟩
  | cons q qs ih =>
    obtain ⟨q', hq', hholds⟩ := h q (by simp)
    obtain ⟨qs', hqs', hall, hany⟩ := ih fun q hq => h q (by simp [hq])
    refine ⟨q' :: qs', by simp [doubleAll, hq', hqs'], ?_, ?_⟩
    · rw [allHoldOf, foundByAll, meaningAll, hholds, hall]
    · rw [anyHoldsOf, foundByAll, meaningAny, hholds, hany]

/-- A comparison that is missed where it is doubled and `found` is false. -/
theorem findsAsRead_comparison {q doubled : Query} {t : IdTag} {found : Bool}
    (hdouble : doubleRestrictions q = .ok (if t.name ∈ qualifiableTags then doubled else q))
    (hfound : q.foundBy ids.credDef.id.isFullyQualified ids.plain =
      if t.name ∈ qualifiableTags ∧ found = false then .or [] else q)
    (hdoubled : t.qualifiable = true →
      doubled.holdsOf tags = (found && q.meaning (filterCompare lc values ids.unqualified.filter)))
    (hkept : t.qualifiable = false →
      q.holdsOf tags = q.meaning (filterCompare lc values ids.unqualified.filter)) :
    FindsAsRead lc ids values tags q := by
  refine ⟨_, hdouble, ?_⟩
  rw [hfound]
  by_cases hmem : t.name ∈ qualifiableTags
  · rw [if_pos hmem, hdoubled ((mem_qualifiableTags_iff t).mp hmem)]
    cases found
    · rw [if_pos ⟨hmem, rfl⟩, Query.meaning, meaningAny, Bool.false_and]
    · rw [if_neg (by simp), Bool.true_and]
  · have hqual : t.qualifiable = false :=
      Bool.eq_false_iff.mpr fun h => hmem ((mem_qualifiableTags_iff t).mpr h)
    rw [if_neg hmem, if_neg fun h => hmem h.1, hkept hqual]

theorem findsAsRead (htags : buildCredentialTags lc false c catpol = .ok tags)
    (hc : c.HasIds ids) {q : Query}
    (hq : q.Over UnqualifiedOver) : FindsAsRead lc ids values tags q := by
  induction hq with
  | @eq tag v allowed ht hv =>
    obtain ⟨t⟩ := ht
    refine findsAsRead_comparison (by rw [doubleRestrictions, apply_ite Except.ok])
      (by rw [Query.foundBy]) (fun hqual => ?_) fun hqual => ?_
    · rw [holdsOf_doubled_eq htags hc hqual hv, Query.meaning, filterCompare_idTag]
    · rw [Query.meaning, filterCompare_idTag, Query.holdsOf, lookup_plainTag htags hc,
        get_eq_of_not_qualifiable hqual, Option.any_some]
  | @neq tag v allowed ht hv =>
    obtain ⟨t⟩ := ht
    refine findsAsRead_comparison (by rw [doubleRestrictions, apply_ite Except.ok])
      (by rw [Query.foundBy]) (fun hqual => ?_) fun hqual => ?_
    · rw [holdsOf_doubledNeq_eq htags hc hqual hv, Query.meaning, filterCompare_idTag]
    · rw [Query.meaning, filterCompare_idTag, Query.holdsOf, lookup_plainTag htags hc,
        get_eq_of_not_qualifiable hqual, Option.any_some]
      simp
  | @isIn tag vs allowed ht hvs =>
    obtain ⟨t⟩ := ht
    refine findsAsRead_comparison (by rw [doubleRestrictions, apply_ite Except.ok])
      (by rw [Query.foundBy]) (fun hqual => ?_) fun hqual => ?_
    · rw [holdsOf_doubledIn_eq htags hc hqual hvs, Query.meaning, any_filterCompare]
    · rw [Query.meaning, any_filterCompare, Query.holdsOf, lookup_plainTag htags hc,
        get_eq_of_not_qualifiable hqual, Option.any_some]
      simp
  | and _ ih =>
    obtain ⟨qs', hqs', hall, -⟩ := findsAsRead_list ih
    refine ⟨.and qs', by simp [doubleRestrictions, hqs'], ?_⟩
    rw [Query.holdsOf, Query.foundBy, Query.meaning, hall]
  | or _ ih =>
    obtain ⟨qs', hqs', -, hany⟩ := findsAsRead_list ih
    refine ⟨.or qs', by simp [doubleRestrictions, hqs'], ?_⟩
    rw [Query.holdsOf, Query.foundBy, Query.meaning, hany]
  | not _ ih =>
    obtain ⟨q', hq', hholds⟩ := ih
    refine ⟨.not q', by simp [doubleRestrictions, hq'], ?_⟩
    rw [Query.holdsOf, Query.foundBy, Query.meaning, hholds]

/-- When a credential is found exactly if the verifier accepts it: when what the doubled tags read
of the restriction says what the restriction says, as it does for a credential with qualified
identifiers. -/
theorem doubled_finds_accepted_iff (timestamp : Option ℕ)
    (htags : buildCredentialTags lc false c catpol = .ok tags)
    (hc : c.HasIds ids) {q : Query} (hq : q.Over UnqualifiedOver) :
    ((∃ q', doubleRestrictions q = .ok q' ∧ (q'.holdsOf tags = true ↔
        AcceptsRestriction lc values (proofIdentifier false .v1 c timestamp) q)) ↔
      (q.foundBy ids.credDef.id.isFullyQualified ids.plain).meaning
        (filterCompare lc values ids.unqualified.filter) =
        q.meaning (filterCompare lc values ids.unqualified.filter)) ∧
    (ids.plain = false → '\n' ∉ ids.credDef.id.value.toList →
      q.foundBy ids.credDef.id.isFullyQualified ids.plain = q) := by
  refine ⟨?_,
    fun hplain hline => by rw [isFullyQualified_of_qualified hplain hline, Query.foundBy_short]⟩
  obtain ⟨q', hq', hholds⟩ : FindsAsRead lc ids values tags q := findsAsRead htags hc hq
  have hfilter : filterOf (proofIdentifier false .v1 c timestamp) = .ok ids.unqualified.filter :=
    @CredentialIds.filterOf_unqualified ids
      ⟨c.schemaId, c.credDefId, c.revRegId, timestamp⟩ hc.schemaId hc.credDefId
  rw [hq']
  simp only [Except.ok.injEq, exists_eq_left', acceptsRestriction_iff lc values hfilter, hholds]
  exact Bool.coe_iff_coe

end Found

section PlainCredential

def plainIssuer : Did := ⟨none, "NcYxiDXkpYi6ov5FcYDi1e", sampleMain_oneLine, sampleMain_plain⟩

def plainIds : CredentialIds where
  schemaIssuer := plainIssuer
  schemaName := ⟨"gvt", sampleName_noDelimiter⟩
  schemaVersion := ⟨"1.0", sampleVersion_noDelimiter⟩
  credDef :=
    ⟨plainIssuer, .seqNo 1, ⟨"CL", sampleSignature_noDelimiter⟩, ⟨"tag", sampleTag_noDelimiter⟩⟩
  like := rfl
  schemaSimple := sampleMain_simple
  versioned := sampleVersion_ne_empty
  regular := ⟨trivial, sampleMain_simple, trivial, trivial, by decide⟩

def plainCredential : Credential Unit := ⟨plainIds.schemaId, plainIds.credDef.id, none, ∅, ()⟩

theorem plainCredential_hasIds : plainCredential.HasIds plainIds := ⟨rfl, rfl⟩

def otherIssuerOnly : Query := .neq "issuer_did" "VsKV7grR1BUE29mG2Fm2kX"

theorem unqualifiedValue_other : UnqualifiedValue .issuerDid "VsKV7grR1BUE29mG2Fm2kX" :=
  unqualifiedValue_of_noDelimiter (by decide)

theorem over_otherIssuerOnly : otherIssuerOnly.Over UnqualifiedOver :=
  .neq (.idTag .issuerDid) unqualifiedValue_other

theorem doubled_finds_accepted_iff_plain : ∃ tags,
    buildCredentialTags asciiLowercase false plainCredential none = .ok tags ∧
    ((∃ q', doubleRestrictions otherIssuerOnly = .ok q' ∧ (q'.holdsOf tags = true ↔
        AcceptsRestriction asciiLowercase ⟨∅, .id⟩
          (proofIdentifier false .v1 plainCredential none) otherIssuerOnly)) ↔
      (otherIssuerOnly.foundBy plainIds.credDef.id.isFullyQualified plainIds.plain).meaning
          (filterCompare asciiLowercase ⟨∅, .id⟩ plainIds.unqualified.filter) =
        otherIssuerOnly.meaning
          (filterCompare asciiLowercase ⟨∅, .id⟩ plainIds.unqualified.filter)) ∧
    (plainIds.plain = false → '\n' ∉ plainIds.credDef.id.value.toList →
      otherIssuerOnly.foundBy plainIds.credDef.id.isFullyQualified plainIds.plain =
        otherIssuerOnly) :=
  ⟨_, buildCredentialTags_eq plainCredential_hasIds, doubled_finds_accepted_iff none
    (buildCredentialTags_eq plainCredential_hasIds) plainCredential_hasIds over_otherIssuerOnly⟩

/-- A credential with plain identifiers is not found for another issuer excluded, and the verifier
would accept it. -/
theorem plain_credential_not_found : plainCredential.HasIds plainIds ∧
    otherIssuerOnly.Over UnqualifiedOver ∧
    AcceptsRestriction asciiLowercase ⟨∅, .id⟩
      (proofIdentifier false .v1 plainCredential none) otherIssuerOnly ∧
    ∃ tags q', buildCredentialTags asciiLowercase false plainCredential none = .ok tags ∧
      doubleRestrictions otherIssuerOnly = .ok q' ∧ q'.holdsOf tags = false := by
  have htags : buildCredentialTags asciiLowercase false plainCredential none = .ok _ :=
    buildCredentialTags_eq plainCredential_hasIds
  have hfilter : filterOf (proofIdentifier false .v1 plainCredential none) =
      .ok plainIds.unqualified.filter :=
    @CredentialIds.filterOf_unqualified plainIds
      ⟨plainIds.schemaId, plainIds.credDef.id, none, none⟩ rfl rfl
  refine ⟨plainCredential_hasIds, over_otherIssuerOnly, ?_, _, _, htags, rfl, ?_⟩
  · rw [acceptsRestriction_iff _ _ hfilter, otherIssuerOnly, Query.meaning,
      show "issuer_did" = IdTag.issuerDid.name from rfl, filterCompare_idTag]
    decide
  · have hshort : plainIds.credDef.id.isFullyQualified = false := by
      rw [CredentialDefinitionId.isFullyQualified, Bool.and_eq_false_iff,
        String.startsWith_string_eq_false_iff]
      left
      decide
    have h := holdsOf_doubledNeq_eq htags plainCredential_hasIds
      (show IdTag.issuerDid.qualifiable = true from rfl) unqualifiedValue_other
    rw [hshort, Bool.false_and] at h
    exact h

end PlainCredential

end SimpleAsset.Indy.Anoncreds
