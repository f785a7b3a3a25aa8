import SimpleAsset.Indy.Anoncreds.Acceptance

/-! Restrictions are checked on one credential and values are taken from another. -/
namespace SimpleAsset.Indy.Anoncreds
open SimpleAsset.Library

section Definitions
variable {U : Ursa}

/-- The attribute has restrictions; an empty list of them stands for none. -/
def AttributeInfo.Restricted (info : AttributeInfo) (query : Query) : Prop :=
  info.restrictions = some query ∧ query.isEmptyList = false

/-- The restrictions of a referent hold of the identifier of sub-proof `i`. -/
def RestrictionsMet (lc : Lowercase) (orders : ValueOrders) (proof : Proof U) (r : String)
    (info : AttributeInfo) (query : Query) (i : ℕ) : Prop :=
  ∃ identifier filter values, proof.identifiers[i]? = some identifier ∧
    filterOf identifier = .ok filter ∧
    nameValueMap proof r info = .ok values ∧
    doProcessOperator lc ⟨values, orders.ofAttribute r⟩ filter query = .ok ()

/-- Every restricted value comes from a credential that meets the restrictions. -/
def RestrictionsHold (lc : Lowercase) (orders : ValueOrders)
    (proofReq : ProofRequestPayload U.Nonce) (proof : Proof U) : Prop :=
  ∀ r info query, proofReq.requestedAttributes.lookup r = some info → info.Restricted query →
    ∀ i, proof.requestedProof.TakenFrom r i → RestrictionsMet lc orders proof r info query i

/-- Two sub-proofs with one schema and one credential definition. -/
def SameCredential (proof : Proof U) (i j : ℕ) : Prop :=
  ∃ a b, proof.identifiers[i]? = some a ∧ proof.identifiers[j]? = some b ∧ a.schemaId = b.schemaId ∧
    a.credDefId = b.credDefId

/-- No other map of the proof hides the sub-proof that a restricted value comes from behind another
one. -/
def CheckedWhereTaken (proofReq : ProofRequestPayload U.Nonce) (proof : Proof U) : Prop :=
  ∀ r info query, proofReq.requestedAttributes.lookup r = some info → info.Restricted query →
    ∀ i j, proof.requestedProof.TakenFrom r i → proof.requestedProof.checkedIndex r = some j →
      SameCredential proof i j

/-- The same attribute with other restrictions in place of those it has. -/
def AttributeInfo.restrictedBy (f : Query → Query) (info : AttributeInfo) : AttributeInfo :=
  match info.restrictions with
  | some query => if query.isEmptyList then info else { info with restrictions := some (f query) }
  | none => info

/-- The same request, asking for other restrictions. -/
def ProofRequestPayload.restrictedBy {Nonce : Type} (proofReq : ProofRequestPayload Nonce)
    (f : String → Query → Query) : ProofRequestPayload Nonce :=
  { proofReq with requestedAttributes :=
    proofReq.requestedAttributes.mapValues fun r => AttributeInfo.restrictedBy (f r) }

/-- Restrictions stay restrictions. -/
def KeepsRestricting (f : String → Query → Query) : Prop :=
  ∀ r query, query.isEmptyList = false → (f r query).isEmptyList = false

end Definitions

variable {U : Ursa} {lc : Lowercase} {orders : ValueOrders} {proofReq : ProofRequestPayload U.Nonce}
    {proof : Proof U}
  {ledger : LedgerObjects U} {recv : Received} {added : List U.AddedSubProof} {r : String}
  {info : AttributeInfo} {query : Query}

section Soundness

theorem isSelfAttested_of_restricted (h : info.Restricted query) (selfAttested : Finset String) :
    isSelfAttested r info selfAttested = false := by
  simp [isSelfAttested, h.1, h.2]

/-- The restrictions of an accepted attribute hold of the sub-proof they were checked on. -/
theorem Accepted.restrictionsMet (h : Accepted lc orders proofReq proof ledger recv added)
    (hr : proofReq.requestedAttributes.lookup r = some info) (hq : info.Restricted query) :
    ∃ j, proof.requestedProof.checkedIndex r = some j ∧
      RestrictionsMet lc orders proof r info query j := by
  have hmem : (⟨r, info⟩ : (_ : String) × AttributeInfo) ∈
      requestedAttrs proofReq recv.selfAttested := by
    rw [requestedAttrs, List.mem_filter]
    exact ⟨Table.mem_entries_iff.mpr hr, by simp [isSelfAttested_of_restricted hq]⟩
  have hchecked := h.attributes _ hmem
  unfold verifyAttributeRestrictions at hchecked
  rw [hq.1] at hchecked
  simp only [except_bind_eq_ok, extendErr_eq_ok_iff] at hchecked
  obtain ⟨filter, hfilter, values, hvalues, hop⟩ := hchecked
  have hlookup := (Received.of_received h.received).checked r
  unfold gatherFilterInfo at hfilter
  rw [hlookup] at hfilter
  cases hj : proof.requestedProof.checkedIndex r with
  | none => simp [hj] at hfilter
  | some j =>
    cases hid : proof.identifiers[j]? with
    | none => simp [hj, hid] at hfilter
    | some identifier =>
      have hfilter' : filterOf identifier = .ok filter := by simpa [hj, hid] using hfilter
      exact ⟨j, rfl, identifier, filter, values, hid, hfilter', hvalues, hop⟩

/-- The check of one attribute, from its parts; `info'` is the attribute with other restrictions. -/
theorem Accepted.verifyAttributeRestrictions_eq_ok
    (h : Accepted lc orders proofReq proof ledger recv added)
    {info' : AttributeInfo} {q : Query} {j : ℕ} {identifier : Identifier} {filter : Filter}
    {values : Table String (Option String)} (hinfo : info' = { info with restrictions := some q })
    (hj : proof.requestedProof.checkedIndex r = some j)
    (hid : proof.identifiers[j]? = some identifier)
    (hfilter : filterOf identifier = .ok filter) (hvalues : nameValueMap proof r info = .ok values)
    (hop : doProcessOperator lc ⟨values, orders.ofAttribute r⟩ filter q = .ok ()) :
    verifyAttributeRestrictions lc orders proof (proofAttrIdentifiers recv) r info' = .ok () := by
  subst hinfo
  have hgather : gatherFilterInfo r (proofAttrIdentifiers recv) = .ok filter := by
    unfold gatherFilterInfo
    rw [(Received.of_received h.received).checked r, hj, Option.bind_some, hid]
    exact hfilter
  have hvalues' : nameValueMap proof r { info with restrictions := some q } = .ok values := hvalues
  unfold verifyAttributeRestrictions
  simp [hgather, hvalues', hop]

theorem filterOf_congr {a b : Identifier} (hs : a.schemaId = b.schemaId)
    (hc : a.credDefId = b.credDefId) :
    filterOf a = filterOf b := by
  unfold filterOf
  rw [hs, hc]

theorem SameCredential.restrictionsMet {i j : ℕ} (h : SameCredential proof i j)
    (hj : RestrictionsMet lc orders proof r info query j) :
    RestrictionsMet lc orders proof r info query i := by
  obtain ⟨a, b, ha, hb, hs, hc⟩ := h
  obtain ⟨identifier, filter, values, hid, hfilter, hvalues, hop⟩ := hj
  obtain rfl : b = identifier := Option.some.inj (hb.symm.trans hid)
  exact ⟨a, filter, values, ha, (filterOf_congr hs hc).trans hfilter, hvalues, hop⟩

theorem CheckedWhereTaken.restrictionsHold (hc : CheckedWhereTaken proofReq proof)
    (h : Accepted lc orders proofReq proof ledger recv added) :
    RestrictionsHold lc orders proofReq proof := by
  intro r info query hr hq i hi
  obtain ⟨j, hj, hmet⟩ := h.restrictionsMet hr hq
  exact (hc r info query hr hq i j hi hj).restrictionsMet hmet

end Soundness

section Replacement
variable (f : String → Query → Query)

@[simp] theorem restrictedBy_name (g : Query → Query) (info : AttributeInfo) :
    (info.restrictedBy g).name = info.name := by
  unfold AttributeInfo.restrictedBy
  split
  · split <;> rfl
  · rfl

@[simp] theorem restrictedBy_names (g : Query → Query) (info : AttributeInfo) :
    (info.restrictedBy g).names = info.names := by
  unfold AttributeInfo.restrictedBy
  split
  · split <;> rfl
  · rfl

@[simp] theorem restrictedBy_nonRevoked (g : Query → Query) (info : AttributeInfo) :
    (info.restrictedBy g).nonRevoked = info.nonRevoked := by
  unfold AttributeInfo.restrictedBy
  split
  · split <;> rfl
  · rfl

theorem restrictedBy_of_restricted (g : Query → Query) (h : info.Restricted query) :
    info.restrictedBy g = { info with restrictions := some (g query) } := by
  unfold AttributeInfo.restrictedBy
  rw [h.1]
  simp [h.2]

theorem restricted_of_restrictedBy {g : Query → Query}
    (h : (info.restrictedBy g).Restricted query) :
    ∃ query', info.Restricted query' ∧ query = g query' := by
  obtain ⟨hq, hne⟩ := h
  unfold AttributeInfo.restrictedBy at hq
  split at hq
  · rename_i q hinfo
    split at hq
    · rename_i hempty
      obtain rfl : q = query := Option.some.inj (hinfo.symm.trans hq)
      rw [hempty] at hne
      cases hne
    · rename_i hempty
      exact ⟨q, ⟨hinfo, by simpa using hempty⟩, (Option.some.inj hq).symm⟩
  · rename_i hinfo
    rw [hinfo] at hq
    cases hq

@[simp] theorem lookup_restrictedBy (r : String) :
    (proofReq.restrictedBy f).requestedAttributes.lookup r =
      (proofReq.requestedAttributes.lookup r).map (AttributeInfo.restrictedBy (f r)) := by
  simp [ProofRequestPayload.restrictedBy]

theorem isSelfAttested_restrictedBy (hf : KeepsRestricting f) (r : String) (info : AttributeInfo)
    (selfAttested : Finset String) :
    isSelfAttested r (info.restrictedBy (f r)) selfAttested =
      isSelfAttested r info selfAttested := by
  unfold AttributeInfo.restrictedBy
  split
  · rename_i query hq
    split
    · rfl
    · rename_i hne
      have hne : query.isEmptyList = false := by simpa using hne
      simp [isSelfAttested, hq, hne, hf r query hne]
  · rfl

theorem requestedAttrs_restrictedBy (hf : KeepsRestricting f) (selfAttested : Finset String) :
    requestedAttrs (proofReq.restrictedBy f) selfAttested =
      (requestedAttrs proofReq selfAttested).map fun e => ⟨e.1, e.2.restrictedBy (f e.1)⟩ := by
  unfold requestedAttrs ProofRequestPayload.restrictedBy
  rw [Table.entries_mapValues, List.filter_map]
  congr 1
  apply List.filter_congr
  intro e _
  simp [isSelfAttested_restrictedBy f hf]

theorem compareAttr_restrictedBy : compareAttrFromProofAndRequest (proofReq.restrictedBy f) recv =
    compareAttrFromProofAndRequest proofReq recv := by
  have hkeys : (proofReq.restrictedBy f).requestedAttributes.keys =
      proofReq.requestedAttributes.keys :=
    Table.keys_mapValues _ _
  unfold compareAttrFromProofAndRequest
  rw [hkeys]
  rfl

theorem requestedName_restrictedBy {α : Type} {part : AttributeInfo → Option α}
    (hpart : ∀ g info, part (AttributeInfo.restrictedBy g info) = part info) (r : String) :
    requestedName (proofReq.restrictedBy f) part r = requestedName proofReq part r := by
  unfold requestedName
  rw [lookup_restrictedBy]
  cases proofReq.requestedAttributes.lookup r with
  | none => rfl
  | some info => simp [hpart]

theorem values_restrictedBy : verifyRevealedAttributeValues lc (proofReq.restrictedBy f) proof =
    verifyRevealedAttributeValues lc proofReq proof := by
  unfold verifyRevealedAttributeValues
  simp [requestedName_restrictedBy]

theorem timestamps_restrictedBy :
    compareTimestampsFromProofAndRequest (proofReq.restrictedBy f) recv =
    compareTimestampsFromProofAndRequest proofReq recv := by
  unfold compareTimestampsFromProofAndRequest ProofRequestPayload.restrictedBy
  simp [List.forM_map]

theorem addRevealedValue_restrictedBy (hf : KeepsRestricting f)
    (selfAttested : Finset String) (i : ℕ) :
    addRevealedValue (proofReq.restrictedBy f) selfAttested i =
      addRevealedValue proofReq selfAttested i := by
  funext map e
  unfold addRevealedValue
  have hfound : ((requestedAttrs proofReq selfAttested).map fun e' : (_ : String) × AttributeInfo =>
        (⟨e'.1, e'.2.restrictedBy (f e'.1)⟩ : (_ : String) × AttributeInfo)).find?
          (fun e' => e'.1 = e.1) =
      ((requestedAttrs proofReq selfAttested).find? fun e' => e'.1 = e.1).map fun e' =>
        ⟨e'.1, e'.2.restrictedBy (f e'.1)⟩ := List.find?_map
  rw [requestedAttrs_restrictedBy f hf, hfound]
  cases hfind : (requestedAttrs proofReq selfAttested).find? fun e' => e'.1 = e.1 with
  | none => simp
  | some e' => simp

theorem attrValueMap_restrictedBy (hf : KeepsRestricting f) (selfAttested : Finset String)
    (name : String) (i : ℕ) :
    attrValueMap (proofReq.restrictedBy f) proof selfAttested name i =
      attrValueMap proofReq proof selfAttested name i := by
  unfold attrValueMap
  rw [addRevealedValue_restrictedBy f hf]

theorem predicates_restrictedBy (hf : KeepsRestricting f) (r : String) (predicate : PredicateInfo) :
    verifyPredicateRestrictions lc orders (proofReq.restrictedBy f) proof recv r predicate =
      verifyPredicateRestrictions lc orders proofReq proof recv r predicate := by
  unfold verifyPredicateRestrictions
  simp only [attrValueMap_restrictedBy f hf]

theorem buildSubProofRequest_restrictedBy {attrs attrs' : List AttributeInfo}
    (predicates : List PredicateInfo)
    (h : attrs.map AttributeInfo.allNames = attrs'.map AttributeInfo.allNames) :
    buildSubProofRequest lc attrs predicates = buildSubProofRequest lc attrs' predicates := by
  have hmapM : ∀ l : List AttributeInfo, (l.mapM fun attr => namesToReveal attr.allNames) =
      (l.map AttributeInfo.allNames).mapM namesToReveal := by
    intro l
    rw [List.mapM_map]
    rfl
  unfold buildSubProofRequest
  rw [hmapM, hmapM, h]

theorem allNames_restrictedBy (g : Query → Query) (info : AttributeInfo) :
    (info.restrictedBy g).allNames = info.allNames := by
  simp [AttributeInfo.allNames]

theorem rebuilt_restrictedBy (i : ℕ) : rebuiltSubProofRequest lc (proofReq.restrictedBy f) proof i =
    rebuiltSubProofRequest lc proofReq proof i := by
  have hlookup : ∀ r,
      ((proofReq.restrictedBy f).requestedAttributes.lookup r).map AttributeInfo.allNames =
      (proofReq.requestedAttributes.lookup r).map AttributeInfo.allNames := by
    intro r
    rw [lookup_restrictedBy, Option.map_map]
    cases proofReq.requestedAttributes.lookup r with
    | none => rfl
    | some info => simp [allNames_restrictedBy]
  unfold rebuiltSubProofRequest
  apply buildSubProofRequest_restrictedBy
  unfold getRevealedAttributesForCredential
  simp only [List.map_append, List.map_filterMap,
    apply_ite (Option.map AttributeInfo.allNames), hlookup]

theorem addSubProof_restrictedBy (i : ℕ) (identifier : Identifier) :
    addSubProof lc (proofReq.restrictedBy f) proof ledger i identifier =
      addSubProof lc proofReq proof ledger i identifier := by
  unfold addSubProof subProofParts
  rw [rebuilt_restrictedBy]

/-- Other restrictions that hold as well are accepted as well. -/
theorem Accepted.restrictedBy (h : Accepted lc orders proofReq proof ledger recv added)
    (hf : KeepsRestricting f)
    (hmet : ∀ r info query, proofReq.requestedAttributes.lookup r = some info →
      info.Restricted query →
      verifyAttributeRestrictions lc orders proof (proofAttrIdentifiers recv) r
      (info.restrictedBy (f r)) = .ok ()) :
    Accepted lc orders (proofReq.restrictedBy f) proof ledger recv added := by
  refine ⟨h.received, ?_, ?_, ?_, ?_, ?_, ?_, h.verified⟩
  · rw [compareAttr_restrictedBy]
    exact h.compared
  · rw [values_restrictedBy]
    exact h.values
  · intro e' he'
    rw [requestedAttrs_restrictedBy f hf] at he'
    obtain ⟨⟨r, info⟩, he, rfl⟩ := List.mem_map.mp he'
    have hr : proofReq.requestedAttributes.lookup r = some info :=
      Table.mem_entries_iff.mp (List.mem_filter.mp he).1
    by_cases hq : ∃ query, info.Restricted query
    · obtain ⟨query, hq⟩ := hq
      exact hmet r info query hr hq
    · have hsame : info.restrictedBy (f r) = info := by
        unfold AttributeInfo.restrictedBy
        split
        · rename_i query hinfo
          split
          · rfl
          · rename_i hne
            exact absurd ⟨query, hinfo, by simpa using hne⟩ hq
        · rfl
      have hchecked := h.attributes _ he
      rw [← hsame] at hchecked
      exact hchecked
  · intro e he
    rw [predicates_restrictedBy f hf]
    exact h.predicates e he
  · rw [timestamps_restrictedBy]
    exact h.timestamps
  · simp only [addSubProof_restrictedBy]
    exact h.handed

end Replacement

section Exactly

/-- Restrictions that name the schema and the credential definition of an identifier. -/
def idQuery (identifier : Identifier) : Query :=
  .and [.eq "schema_id" identifier.schemaId.value, .eq "cred_def_id" identifier.credDefId.value]

theorem filterOf_ids {identifier : Identifier} {filter : Filter}
    (h : filterOf identifier = .ok filter) :
    filter.schemaId = identifier.schemaId.value ∧
    filter.credDefId = identifier.credDefId.value := by
  unfold filterOf at h
  split at h
  · cases h
  · cases h
  · obtain rfl := Except.ok.inj h
    exact ⟨rfl, rfl⟩

theorem doProcessOperator_idQuery (lc : Lowercase) (values : ValueMap) (filter : Filter)
    (identifier : Identifier) :
    doProcessOperator lc values filter (idQuery identifier) = .ok () ↔
      filter.schemaId = identifier.schemaId.value ∧
      filter.credDefId = identifier.credDefId.value := by
  have hschema := processFilter_idTag lc values filter .schemaId identifier.schemaId.value
  have hcred := processFilter_idTag lc values filter .credDefId identifier.credDefId.value
  simp only [IdTag.name, Filter.get] at hschema hcred
  unfold idQuery
  simp only [doProcessOperator, doProcessOperators, extendErr_eq_ok_iff, except_bind_eq_ok]
  constructor
  · rintro ⟨⟨⟩, hs, ⟨⟩, hc, -⟩
    exact ⟨hschema.mp hs, hcred.mp hc⟩
  · rintro ⟨hs, hc⟩
    exact ⟨(), hschema.mpr hs, (), hcred.mpr hc, trivial⟩

/-- An accepted proof meets every set of restrictions it is accepted with exactly when no sub-proof
is hidden. -/
theorem accepted_restrictions_hold_iff (h : verify lc orders proofReq proof ledger = .ok true) :
    (∀ f, KeepsRestricting f → verify lc orders (proofReq.restrictedBy f) proof ledger = .ok true →
      RestrictionsHold lc orders (proofReq.restrictedBy f) proof) ↔
        CheckedWhereTaken proofReq proof := by
  obtain ⟨recv, added, hacc⟩ := verify_eq_true_iff.mp h
  constructor
  · intro hall r info query hr hq i j hi hj
    obtain ⟨j', hj', b, filter, values, hb, hfilter, hvalues, -⟩ := hacc.restrictionsMet hr hq
    obtain rfl : j = j' := Option.some.inj (hj.symm.trans hj')
    -- the request that restricts this attribute to the credential the restrictions are checked on
    let f : String → Query → Query := fun r' q => if r' = r then idQuery b else q
    have hf : KeepsRestricting f := by
      intro r' q hne
      by_cases hr' : r' = r
      · simp [f, hr', idQuery, Query.isEmptyList]
      · simp [f, hr', hne]
    have haccept : verify lc orders (proofReq.restrictedBy f) proof ledger = .ok true := by
      refine verify_eq_true_iff.mpr ⟨recv, added, hacc.restrictedBy f hf ?_⟩
      intro r' info' query' hr' hq'
      obtain ⟨k, hk, id', filter', values', hid', hfilter', hvalues', hop'⟩ :=
        hacc.restrictionsMet hr' hq'
      refine hacc.verifyAttributeRestrictions_eq_ok
        (restrictedBy_of_restricted (f r') hq') hk hid' hfilter' hvalues' ?_
      by_cases hrr : r' = r
      · subst hrr
        obtain rfl : j = k := Option.some.inj (hj.symm.trans hk)
        obtain rfl : b = id' := Option.some.inj (hb.symm.trans hid')
        simpa [f] using (doProcessOperator_idQuery lc _ filter' b).mpr (filterOf_ids hfilter')
      · simpa [f, hrr] using hop'
    have hrestricted : (info.restrictedBy (f r)).Restricted (idQuery b) := by
      rw [restrictedBy_of_restricted (f r) hq]
      exact ⟨by simp [f], rfl⟩
    obtain ⟨a, filterA, valuesA, ha, hfilterA, -, hopA⟩ :=
      hall f hf haccept r _ _ (by simp [hr]) hrestricted i hi
    obtain ⟨hs, hc⟩ := (doProcessOperator_idQuery lc _ filterA b).mp hopA
    obtain ⟨hsa, hca⟩ := filterOf_ids hfilterA
    refine ⟨a, b, ha, hb, ?_, ?_⟩
    · exact SchemaId.ext (hsa.symm.trans hs)
    · exact CredentialDefinitionId.ext (hca.symm.trans hc)
  · intro hc f hf hver
    obtain ⟨recv', added', hacc'⟩ := verify_eq_true_iff.mp hver
    refine CheckedWhereTaken.restrictionsHold ?_ hacc'
    intro r info query hr hq i j hi hj
    rw [lookup_restrictedBy] at hr
    obtain ⟨info', hr', rfl⟩ := Option.map_eq_some_iff.mp hr
    obtain ⟨query', hq', -⟩ := restricted_of_restrictedBy hq
    exact hc r info' query' hr' hq' i j hi hj

end Exactly

section Hidden

/-- Asks for a name from a credential of one issuer. -/
def issuerAttribute : AttributeInfo :=
  ⟨some "name", none, some (.eq "issuer_did" "NcYxiDXkpYi6ov5FcYDi1e"), none⟩

def issuerRequest : ProofRequestPayload Unit :=
  ⟨(), AList.singleton "attr1_referent" issuerAttribute, ∅, none⟩

def foreignIdentifier : Identifier :=
  ⟨⟨"VsKV7grR1BUE29mG2Fm2kX:2:gvt:1.0"⟩, ⟨"VsKV7grR1BUE29mG2Fm2kX:3:CL:1:tag"⟩, none, none⟩

def issuerIdentifier : Identifier :=
  ⟨⟨"NcYxiDXkpYi6ov5FcYDi1e:2:gvt:1.0"⟩, ⟨"NcYxiDXkpYi6ov5FcYDi1e:3:CL:1:tag"⟩, none, none⟩

def issuerLedger : LedgerObjects sampleUrsa where
  schemas := (AList.singleton foreignIdentifier.schemaId ⟨{"name"}⟩).insert
    issuerIdentifier.schemaId ⟨{"name"}⟩
  credDefs := (AList.singleton foreignIdentifier.credDefId ⟨(), none⟩).insert
    issuerIdentifier.credDefId ⟨(), none⟩
  revRegDefs := ∅
  revRegs := ∅

def revealedName : RevealedAttributeInfo := ⟨0, "Alex", "1139481716457488690172217916278103335"⟩

/-- The sub-proof that reveals the name. -/
def nameSubProof : Table String String := AList.singleton "name" revealedName.encoded

/-- The name is revealed from a credential of the issuer. -/
def honestProof : Proof sampleUrsa :=
  ⟨⟨[nameSubProof], ()⟩, { revealedAttrs := AList.singleton "attr1_referent" revealedName },
    [issuerIdentifier]⟩

/-- The name is revealed from a credential of somebody else; the referent is listed as unrevealed as
well. -/
def hiddenProof : Proof sampleUrsa :=
  ⟨⟨[nameSubProof, (∅ : Table String String)], ()⟩,
    { revealedAttrs := AList.singleton "attr1_referent" revealedName
      unrevealedAttrs := AList.singleton "attr1_referent" ⟨1⟩ },
        [foreignIdentifier, issuerIdentifier]⟩

theorem honestProof_checked : CheckedWhereTaken issuerRequest honestProof := by
  intro r info query hr hq i j hi hj
  obtain ⟨rfl, -⟩ : r = "attr1_referent" ∧ _ := Table.lookup_singleton_iff.mp hr
  have hzero : ∀ k, honestProof.requestedProof.TakenFrom "attr1_referent" k → k = 0 := by
    intro k hk
    cases hk with
    | revealed h => 
      obtain ⟨-, rfl⟩ := Table.lookup_singleton_iff.mp h
      rfl
    | group h => cases h
  obtain rfl := hzero i hi
  obtain rfl : 0 = j := Option.some.inj hj
  exact ⟨issuerIdentifier, issuerIdentifier, rfl, rfl, rfl, rfl⟩

theorem accepted_restrictions_hold_honest :
    verify asciiLowercase sampleOrders issuerRequest honestProof issuerLedger = .ok true ∧
      ∀ f, KeepsRestricting f →
        verify asciiLowercase sampleOrders (issuerRequest.restrictedBy f) honestProof
          issuerLedger = .ok true →
        RestrictionsHold asciiLowercase sampleOrders
          (issuerRequest.restrictedBy f) honestProof := by
  have haccepted : verify asciiLowercase sampleOrders issuerRequest honestProof issuerLedger =
      .ok true := by
    decide
  exact ⟨haccepted, (accepted_restrictions_hold_iff haccepted).mpr honestProof_checked⟩

theorem hidden_credential_accepted :
    verify asciiLowercase sampleOrders issuerRequest hiddenProof issuerLedger = .ok true ∧
      ¬ RestrictionsHold asciiLowercase sampleOrders issuerRequest hiddenProof := by
  refine ⟨by decide, ?_⟩
  intro h
  have hr : issuerRequest.requestedAttributes.lookup "attr1_referent" = some issuerAttribute :=
    Table.lookup_singleton_iff.mpr ⟨rfl, rfl⟩
  have htaken : hiddenProof.requestedProof.TakenFrom "attr1_referent" revealedName.subProofIndex :=
    .revealed (Table.lookup_singleton_iff.mpr ⟨rfl, rfl⟩)
  obtain ⟨identifier, filter, values, hid, hfilter, -, hop⟩ := h _ _ _ hr ⟨rfl, rfl⟩ _ htaken
  obtain rfl : foreignIdentifier = identifier := Option.some.inj hid
  obtain rfl : _ = filter := Except.ok.inj hfilter
  rw [doProcessOperator, extendErr_eq_ok_iff] at hop
  have hsame := (processFilter_idTag _ _ _ .issuerDid _).mp hop
  revert hsame
  decide

end Hidden

end SimpleAsset.Indy.Anoncreds
