import Mathlib.Data.Finset.Card
import SimpleAsset.Indy.Anoncreds.NonRevocation
import SimpleAsset.Indy.Anoncreds.ProofContent
import SimpleAsset.Indy.Anoncreds.RestrictionAgreement

/-! Honest provers: credentials that fit what is asked, and their values. -/
namespace SimpleAsset.Indy.Anoncreds
open SimpleAsset.Library

section Restrictions

/-- The tags that are about identifiers. -/
inductive IdTagOver : String → (String → Prop) → Prop
  | id (t : IdTag) : IdTagOver t.name fun _ => True

/-- The identifiers of a filter as tags. -/
def Filter.tags (filter : Filter) : Table String String :=
  Table.insertAll [("schema_id", filter.schemaId), ("schema_issuer_did", filter.schemaIssuerDid),
    ("schema_name", filter.schemaName), ("schema_version", filter.schemaVersion),
    ("cred_def_id", filter.credDefId), ("issuer_did", filter.issuerDid)] ∅

theorem Filter.lookup_tags (filter : Filter) (t : IdTag) :
    filter.tags.lookup t.name = some (filter.get t) := by
  apply Table.lookup_insertAll
  · cases t <;> simp [IdTag.name, Filter.get]
  · intro v hv
    cases t <;> simpa [IdTag.name, Filter.get] using hv

/-- Restrictions over identifiers hold of an identifier. -/
def Identifier.Satisfies (identifier : Identifier) (restrictions : Option Query) : Prop :=
  ∀ q, restrictions = some q → q.Over IdTagOver ∧ ∃ filter, filterOf identifier = .ok filter ∧
    q.holdsOf filter.tags = true

theorem makeAllCaseInsensitive_id {lc : Lowercase} {qs : List Query}
    (h : ∀ q ∈ qs, makeRestrictionsByInternalTagsCaseInsensitive lc q = .ok q) :
    makeAllCaseInsensitive lc qs = .ok qs := by
  induction qs with
  | nil => rfl
  | cons q qs ih =>
    have hq := h q (by simp)
    have hqs := ih fun q hq => h q (by simp [hq])
    simp [makeAllCaseInsensitive, hq, hqs]

/-- Nothing is renamed in restrictions over identifiers. -/
theorem make_of_idTags {lc : Lowercase} {q : Query} (h : q.Over IdTagOver) :
    makeRestrictionsByInternalTagsCaseInsensitive lc q = .ok q := by
  induction h with
  | eq ht _ =>
    obtain ⟨t⟩ := ht
    rw [makeRestrictionsByInternalTagsCaseInsensitive, caseInsensitiveTag_idTag]
  | neq ht _ =>
    obtain ⟨t⟩ := ht
    rw [makeRestrictionsByInternalTagsCaseInsensitive, caseInsensitiveTag_idTag]
  | isIn ht _ =>
    obtain ⟨t⟩ := ht
    rw [makeRestrictionsByInternalTagsCaseInsensitive, caseInsensitiveTag_idTag]
  | and _ ih => simp [makeRestrictionsByInternalTagsCaseInsensitive, makeAllCaseInsensitive_id ih]
  | or _ ih => simp [makeRestrictionsByInternalTagsCaseInsensitive, makeAllCaseInsensitive_id ih]
  | not _ ih => simp [makeRestrictionsByInternalTagsCaseInsensitive, ih]

/-- Whatever is revealed, the verifier accepts restrictions over identifiers that hold. -/
theorem doProcessOperator_of_satisfies (lc : Lowercase) {q : Query} {filter : Filter}
    (hq : q.Over IdTagOver) (h : q.holdsOf filter.tags = true) (m : ValueMap) :
    doProcessOperator lc m filter q = .ok () := by
  have hleaf : LeafAgrees lc filter.tags m filter IdTagOver := by
    rintro tag allowed ⟨t⟩
    refine ⟨filter.get t, ?_, fun v _ => processFilter_idTag _ _ _ t v⟩
    rw [caseInsensitiveTag_idTag]
    exact filter.lookup_tags t
  obtain ⟨q', hq', hholds⟩ := hq.agrees hleaf
  obtain rfl : q = q' := Except.ok.inj ((make_of_idTags hq).symm.trans hq')
  exact hholds.mp h

end Restrictions

section Values
variable {lc : Lowercase} {U : Ursa} {Signature : Type} {c : Credential Signature}
    {names : List String}

/-- The value that ends up in the signature for a name: of several attributes with one common view,
the last. -/
def lastCredentialValue (lc : Lowercase) (credentialAttrs : Table String AttributeValue)
    (attr : String) :
    Option AttributeValue :=
  (credentialAttrs.entries.reverse.find? fun e =>
    attrCommonView lc e.1 = attrCommonView lc attr).map (·.2)

theorem lookup_foldlM_values {l : List ((_ : String) × AttributeValue)}
    {built built' : Table String ℤ} (h : l.foldlM (fun built e => do
      let number ← U.fromDec e.2.encoded
      pure (built.insert (attrCommonView lc e.1) number)) built = .ok built') (x : String) :
    match l.reverse.find? fun e => attrCommonView lc e.1 = x with
    | some e => ∃ number, U.fromDec e.2.encoded = .ok number ∧ built'.lookup x = some number
    | none => built'.lookup x = built.lookup x := by
  induction l generalizing built with
  | nil =>
    obtain rfl := Except.ok.inj h
    rfl
  | cons e l ih =>
    rw [List.foldlM_cons, except_bind_eq_ok] at h
    obtain ⟨built₁, h₁, h⟩ := h
    obtain ⟨number, hnumber, h₁⟩ := except_bind_eq_ok.mp h₁
    obtain rfl := Except.ok.inj h₁
    have hrest := ih h
    rw [List.reverse_cons, List.find?_append]
    cases hfind : l.reverse.find? fun e => attrCommonView lc e.1 = x with
    | some e' => simpa [hfind] using hrest
    | none =>
      rw [hfind] at hrest
      dsimp only at hrest
      by_cases hx : attrCommonView lc e.1 = x
      · subst hx
        rw [AList.lookup_insert] at hrest
        simpa [hnumber] using hrest
      · rw [AList.lookup_insert_ne (fun h => hx h.symm)] at hrest
        simpa [hx] using hrest

/-- The number that ursa gets for a name. -/
theorem lookup_buildCredentialValues {values : Table String AttributeValue} {built : Table String ℤ}
    {attr : String} {v : AttributeValue} (h : buildCredentialValues lc U values = .ok built)
    (hv : lastCredentialValue lc values attr = some v) :
    ∃ number, U.fromDec v.encoded = .ok number ∧
      built.lookup (attrCommonView lc attr) = some number := by
  obtain ⟨e, hfind, rfl⟩ := Option.map_eq_some_iff.mp hv
  have hlookup := lookup_foldlM_values h (attrCommonView lc attr)
  rw [hfind] at hlookup
  exact hlookup

theorem exists_lastCredentialValue {values : Table String AttributeValue} {attr : String}
    {v : AttributeValue} (h : getCredentialValuesForAttribute lc values attr = some v) :
    ∃ v', lastCredentialValue lc values attr = some v' := by
  obtain ⟨e, hfind, -⟩ := Option.map_eq_some_iff.mp h
  cases hlast : values.entries.reverse.find? fun e =>
    attrCommonView lc e.1 = attrCommonView lc attr with
  | some e' => exact ⟨e'.2, by rw [lastCredentialValue, hlast]; rfl⟩
  | none =>
    rw [List.find?_eq_none] at hlast
    exact absurd (List.find?_some hfind) (hlast e (by simpa using List.mem_of_find?_eq_some hfind))

/-- The values of a group: one for each of its names, as found in the credential. -/
theorem lookup_groupValues {values : Table String AttributeValue}
    (h : groupValues lc c names = .ok values) (n : String) :
    values.lookup n = if n ∈ names then getCredentialValuesForAttribute lc c.values n
      else none := by
  have hgeneral : ∀ {l : List String} {start t : Table String AttributeValue},
      (l.foldlM (fun valueMap name => do
      let attrValue ← notFound ("Credential value not found for attribute " ++ name)
        (getCredentialValuesForAttribute lc c.values name)
      pure (valueMap.insert name attrValue)) start : IndyResult _) = .ok t →
      t.lookup n = if n ∈ l then getCredentialValuesForAttribute lc c.values n
        else start.lookup n := by
    intro l
    induction l with
    | nil =>
      intro start t h
      obtain rfl := Except.ok.inj h
      simp
    | cons name l ih =>
      intro start t h
      rw [List.foldlM_cons, except_bind_eq_ok] at h
      obtain ⟨t₁, h₁, h⟩ := h
      obtain ⟨v, hv, h₁⟩ := except_bind_eq_ok.mp h₁
      rw [notFound_eq_ok_iff] at hv
      obtain rfl := Except.ok.inj h₁
      rw [ih h]
      by_cases hn : n ∈ l
      · simp [hn]
      · by_cases hname : n = name
        · subst hname
          simp [hn, hv]
        · simp [hn, hname]
  exact hgeneral h

theorem exists_groupValues
    (h : ∀ n ∈ names, (getCredentialValuesForAttribute lc c.values n).isSome) :
    ∃ values, groupValues lc c names = .ok values := by
  refine exists_foldlM ?_ ∅
  intro map n hn
  obtain ⟨v, hv⟩ := Option.isSome_iff_exists.mp (h n hn)
  exact ⟨map.insert n v, by rw [hv]; rfl⟩

/-- A group with a repeated name has fewer values than names. -/
theorem length_groupValues {values : Table String AttributeValue}
    (h : groupValues lc c names = .ok values)
    (hall : ∀ n ∈ names, (getCredentialValuesForAttribute lc c.values n).isSome) :
    values.entries.length = names.length ↔ names.Nodup := by
  have hkeys : values.keys.toFinset = names.toFinset := by
    ext n
    rw [List.mem_toFinset, List.mem_toFinset, Table.mem_keys_iff, lookup_groupValues h]
    constructor
    · rintro ⟨v, hv⟩
      split_ifs at hv with hn
      exact hn
    · intro hn
      rw [if_pos hn]
      exact Option.isSome_iff_exists.mp (hall n hn)
  have hcard : values.entries.length = names.toFinset.card := by
    rw [← hkeys, List.toFinset_card_of_nodup values.keys_nodup, AList.keys, List.keys,
      List.length_map]
  rw [hcard]
  exact Multiset.toFinset_card_eq_card_iff_nodup

end Values

section Honest
variable {U : Ursa} {P : UrsaProver U}

/-- Ursa reveals what it was asked to reveal: the signed values of the revealed names, in
decimal. -/
def UrsaProver.RevealsRequested (P : UrsaProver U) : Prop :=
  ∀ masterSecret inputs nonce crypto, P.finalize masterSecret inputs nonce = .ok crypto →
    ∀ (i : ℕ) (input : P.Input), inputs[i]? = some input →
      ∃ subProof revealed, crypto.proofs[i]? = some subProof ∧
        U.revealedAttrs subProof = .ok revealed ∧
        (∀ n, n ∈ revealed.keys ↔ n ∈ input.subProofRequest.revealedAttrs) ∧
        ∀ n v number, revealed.lookup n = some v → input.values.lookup n = some number →
          U.fromDec v = .ok number

/-- The credential of an answer has the names, and its identifiers meet what is asked of them. -/
structure Fits (lc : Lowercase) (node13 : Bool) (version : ProofRequestsVersion)
    (proofReq : ProofRequestPayload U.Nonce)
    (objects : ProverObjects P) (key : ProvingCredentialKey) (names : List String)
    (nonRevoked : Option NonRevocedInterval) (restrictions : Option Query) : Prop where
  credential : ∃ c, objects.credentials.lookup key.credId = some c ∧
    (∀ n ∈ names, (getCredentialValuesForAttribute lc c.values n).isSome) ∧
    (proofIdentifier node13 version c key.timestamp).Satisfies restrictions
  timestamp : AsksNonRevocation proofReq nonRevoked → key.timestamp.isSome

/-- Every referent of the request has one answer: a credential that fits, or a value of the prover's
own where nothing is asked of a credential. -/
structure Honest (lc : Lowercase) (node13 : Bool) (version : ProofRequestsVersion)
    (proofReq : ProofRequestPayload U.Nonce) (rc : RequestedCredentials)
    (objects : ProverObjects P) : Prop where
  attributes : ∀ r info, proofReq.requestedAttributes.lookup r = some info →
    (∃ ra names, rc.requestedAttributes.lookup r = some ra ∧
      rc.selfAttestedAttributes.lookup r = none ∧
      info.allNames = some names ∧
      Fits lc node13 version proofReq objects ra.key names info.nonRevoked info.restrictions) ∨
    (rc.requestedAttributes.lookup r = none ∧ (∃ v, rc.selfAttestedAttributes.lookup r = some v) ∧
      ∀ q, info.restrictions = some q → q.isEmptyList = true)
  selfAttested : ∀ r v, rc.selfAttestedAttributes.lookup r = some v →
    ∃ info, proofReq.requestedAttributes.lookup r = some info
  predicates : ∀ r info, proofReq.requestedPredicates.lookup r = some info →
    ∃ key, rc.requestedPredicates.lookup r = some key ∧
      Fits lc node13 version proofReq objects key [info.name] info.nonRevoked info.restrictions

/-- The verifier knows what an identifier names. -/
structure LedgerObjects.Has (ledger : LedgerObjects U) (identifier : Identifier) : Prop where
  schema : ∃ schema, ledger.schemas.lookup identifier.schemaId = some schema
  credDef : ∃ credDef, ledger.credDefs.lookup identifier.credDefId = some credDef
  registry : ∀ timestamp, identifier.timestamp = some timestamp →
    ∃ revRegId key registries registry,
    identifier.revRegId = some revRegId ∧ ledger.revRegDefs.lookup revRegId = some key ∧
      ledger.revRegs.lookup revRegId = some registries ∧ registries.lookup timestamp = some registry

/-- The first and the last attribute of a credential with the common view of a name have one encoded
value. -/
def OneValue (lc : Lowercase) (U : Ursa) {Signature : Type} (c : Credential Signature)
    (n : String) : Prop :=
  ∀ v v', getCredentialValuesForAttribute lc c.values n = some v →
    lastCredentialValue lc c.values n = some v' →
    U.fromDec v.encoded = U.fromDec v'.encoded

/-- What an honest prover still has to keep away from. -/
structure Passable (lc : Lowercase) (proofReq : ProofRequestPayload U.Nonce)
    (rc : RequestedCredentials) (objects : ProverObjects P) : Prop where
  /-- A group of names that is not revealed has no restrictions. -/
  hiddenGroup : ∀ r ra info, rc.requestedAttributes.lookup r = some ra → ra.revealed = false →
    proofReq.requestedAttributes.lookup r = some info → info.name = none → info.restrictions = none
  /-- A group of names that is revealed names each once. -/
  namesOnce : ∀ r ra info names, rc.requestedAttributes.lookup r = some ra → ra.revealed = true →
    proofReq.requestedAttributes.lookup r = some info → info.name = none →
    info.names = some names → names.Nodup
  /-- A credential has one value for a revealed name. -/
  oneValue : ∀ r ra info names c n, rc.requestedAttributes.lookup r = some ra → ra.revealed = true →
    proofReq.requestedAttributes.lookup r = some info → info.allNames = some names → n ∈ names →
    objects.credentials.lookup ra.credId = some c → OneValue lc U c n

end Honest

end SimpleAsset.Indy.Anoncreds
