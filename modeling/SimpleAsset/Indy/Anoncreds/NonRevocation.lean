import SimpleAsset.Indy.Anoncreds.Acceptance

/-! Answers that have to come with a proof of non-revocation. -/
namespace SimpleAsset.Indy.Anoncreds
open SimpleAsset.Library

section Definitions
variable {U : Ursa}

/-- Sub-proof `i` answers the attribute: it reveals it, or it is named as holding it. -/
inductive RequestedProof.AnsweredFrom (rp : RequestedProof) (r : String) : ℕ → Prop
  | taken {i : ℕ} (h : rp.TakenFrom r i) : AnsweredFrom rp r i
  | unrevealed {i : ℕ} (h : rp.unrevealedIndex r = some i) : AnsweredFrom rp r i

/-- In how many of its four maps the proof answers an attribute. -/
def RequestedProof.answers (rp : RequestedProof) (r : String) : ℕ :=
  (rp.revealedAttrs.lookup r).toList.length + (rp.revealedAttrGroups.lookup r).toList.length +
    (rp.unrevealedAttrs.lookup r).toList.length + (rp.selfAttestedAttrs.lookup r).toList.length

/-- The request asks for non-revocation of what answers it. -/
def AsksNonRevocation (proofReq : ProofRequestPayload U.Nonce)
    (localInterval : Option NonRevocedInterval) : Prop :=
  (getNonRevocInterval proofReq.nonRevoked localInterval).isSome

def Timestamped (proof : Proof U) (i : ℕ) : Prop :=
  ∃ identifier, proof.identifiers[i]? = some identifier ∧ identifier.timestamp.isSome

/-- Sub-proof `i` has a timestamp and was handed to the proof verifier together with a revocation
registry. -/
def VerifiedWithRegistry (lc : Lowercase) (proofReq : ProofRequestPayload U.Nonce) (proof : Proof U)
    (ledger : LedgerObjects U) (i : ℕ) : Prop :=
  Timestamped proof i ∧ ∃ added a,
    (proof.identifiers.zipIdx.mapM fun e =>
      addSubProof lc proofReq proof ledger e.2 e.1) = .ok added ∧
      added[i]? = some a ∧ a.revKeyPub.isSome ∧ a.revReg.isSome

/-- No answer that has to be unrevoked goes without the registry. -/
structure NonRevocationHolds (lc : Lowercase) (proofReq : ProofRequestPayload U.Nonce)
    (proof : Proof U) (ledger : LedgerObjects U) : Prop where
  attributes : ∀ r info, proofReq.requestedAttributes.lookup r = some info →
    AsksNonRevocation proofReq info.nonRevoked →
    ∀ i, proof.requestedProof.AnsweredFrom r i → VerifiedWithRegistry lc proofReq proof ledger i
  predicates : ∀ r info, proofReq.requestedPredicates.lookup r = some info →
    AsksNonRevocation proofReq info.nonRevoked →
    ∀ i, proof.requestedProof.predicateIndex r = some i →
      VerifiedWithRegistry lc proofReq proof ledger i

/-- An attribute that is answered in two maps, and has to be unrevoked, has timestamps in both. -/
def RepeatsTimestamped (proofReq : ProofRequestPayload U.Nonce) (proof : Proof U) : Prop :=
  ∀ r info, proofReq.requestedAttributes.lookup r = some info →
    AsksNonRevocation proofReq info.nonRevoked →
    1 < proof.requestedProof.answers r → ∀ i, proof.requestedProof.AnsweredFrom r i →
      Timestamped proof i

end Definitions

variable {U : Ursa} {lc : Lowercase} {orders : ValueOrders} {proofReq : ProofRequestPayload U.Nonce}
    {proof : Proof U}
  {ledger : LedgerObjects U} {recv : Received} {added : List U.AddedSubProof} {r : String} {i : ℕ}

section Registry

theorem registryOf_isSome {identifier : Identifier} {key : Option U.RevocationKeyPublic}
    {registry : Option U.RevocationRegistry}
    (h : registryOf ledger identifier = .ok (key, registry))
    (ht : identifier.timestamp.isSome) : key.isSome ∧ registry.isSome := by
  obtain ⟨timestamp, htimestamp⟩ := Option.isSome_iff_exists.mp ht
  unfold registryOf at h
  rw [htimestamp] at h
  simp only [except_bind_eq_ok] at h
  obtain ⟨revRegId, -, revRegDef, -, revRegs, -, revReg, -, h⟩ := h
  obtain ⟨rfl, rfl⟩ := Prod.mk.inj (Except.ok.inj h)
  exact ⟨rfl, rfl⟩

theorem addSubProof_registry {identifier : Identifier} {a : U.AddedSubProof}
    (h : addSubProof lc proofReq proof ledger i identifier = .ok a) :
    registryOf ledger identifier = .ok (a.revKeyPub, a.revReg) := by
  unfold addSubProof subProofParts at h
  simp only [except_bind_eq_ok] at h
  obtain ⟨parts, ⟨schema, -, credDef, -, registry, hregistry, spr, -, hparts⟩, pubKey, -,
      -, -, h⟩ := h
  obtain rfl := Except.ok.inj hparts
  obtain rfl := Except.ok.inj h
  exact hregistry

/-- A timestamp leads to a registry. -/
theorem Accepted.verifiedWithRegistry (h : Accepted lc orders proofReq proof ledger recv added)
    (ht : Timestamped proof i) : VerifiedWithRegistry lc proofReq proof ledger i := by
  refine ⟨ht, added, ?_⟩
  obtain ⟨identifier, hid, htime⟩ := ht
  have hplace : proof.identifiers.zipIdx[i]? = some (identifier, i) := by simp [hid]
  obtain ⟨a, ha, hadded⟩ := getElem?_of_mapM h.handed hplace
  obtain ⟨hkey, hreg⟩ := registryOf_isSome (addSubProof_registry ha) htime
  exact ⟨a, h.handed, hadded, hkey, hreg⟩

end Registry

section Timestamps

theorem validateTimestamp_eq_ok_iff {t : Table String Identifier} {info : Option NonRevocedInterval}
    (h : AsksNonRevocation proofReq info) :
    validateTimestamp t r proofReq.nonRevoked info = .ok () ↔
      ∃ identifier, t.lookup r = some identifier ∧ identifier.timestamp.isSome := by
  have hsome : (getNonRevocInterval proofReq.nonRevoked info).isNone = false := by
    rw [← Option.not_isSome, h]
    rfl
  unfold validateTimestamp
  cases t.lookup r with
  | none => simp [hsome]
  | some identifier => simp [hsome, Option.isSome_iff_ne_none]

/-- What the check of timestamps leaves to an attribute. -/
theorem Accepted.attribute_timestamp (h : Accepted lc orders proofReq proof ledger recv added)
    {info : AttributeInfo} (hr : proofReq.requestedAttributes.lookup r = some info)
    (hask : AsksNonRevocation proofReq info.nonRevoked) :
    (∃ i, proof.requestedProof.revealedIndex r = some i ∧ Timestamped proof i) ∨
      (∃ i, proof.requestedProof.unrevealedIndex r = some i ∧ Timestamped proof i) ∨
      ∃ value, proof.requestedProof.selfAttestedAttrs.lookup r = some value := by
  have hof := Received.of_received h.received
  have htimes := h.timestamps
  unfold compareTimestampsFromProofAndRequest at htimes
  rw [except_bind_eq_ok] at htimes
  obtain ⟨⟨⟩, hattrs, -⟩ := htimes
  have hattr := forM_eq_ok_iff.mp hattrs ⟨r, info⟩ (Table.mem_entries_iff.mpr hr)
  have hread : ∀ {t : Table String Identifier} {index : Option ℕ},
      t.lookup r = index.bind (proof.identifiers[·]?) →
      validateTimestamp t r proofReq.nonRevoked info.nonRevoked = .ok () → ∃ i, index = some i ∧
        Timestamped proof i := by
    intro t index hlookup hok
    obtain ⟨identifier, hid, htime⟩ := (validateTimestamp_eq_ok_iff hask).mp hok
    rw [hlookup] at hid
    obtain ⟨i, hi, hget⟩ := Option.bind_eq_some_iff.mp hid
    exact ⟨i, hi, identifier, hget, htime⟩
  dsimp only at hattr
  split at hattr
  · rename_i hok
    exact Or.inl (hread (hof.revealed r) hok)
  · split at hattr
    · rename_i hok
      exact Or.inr (Or.inl (hread (hof.unrevealed r) hok))
    · split at hattr
      · rename_i hself
        rw [hof.selfAttested, receivedSelfAttestedAttrs, List.mem_toFinset, Table.mem_keys_iff]
          at hself
        exact Or.inr (Or.inr hself)
      · cases hattr

theorem Accepted.predicate_timestamp (h : Accepted lc orders proofReq proof ledger recv added)
    {info : PredicateInfo} (hr : proofReq.requestedPredicates.lookup r = some info)
    (hask : AsksNonRevocation proofReq info.nonRevoked)
    (hi : proof.requestedProof.predicateIndex r = some i) : Timestamped proof i := by
  have htimes := h.timestamps
  unfold compareTimestampsFromProofAndRequest at htimes
  rw [except_bind_eq_ok] at htimes
  obtain ⟨⟨⟩, -, hpreds⟩ := htimes
  have hpred := forM_eq_ok_iff.mp hpreds ⟨r, info⟩ (Table.mem_entries_iff.mpr hr)
  obtain ⟨identifier, hid, htime⟩ := (validateTimestamp_eq_ok_iff hask).mp hpred
  rw [(Received.of_received h.received).predicates r, hi, Option.bind_some] at hid
  exact ⟨identifier, hid, htime⟩

theorem eq_none_of_toList_length {α : Type} {o : Option α} (h : o.toList.length = 0) :
    o = none := by
  cases o with
  | none => rfl
  | some a => simp at h

/-- An attribute with a single answer has it from the place that was checked. -/
theorem Accepted.timestamped_of_single (h : Accepted lc orders proofReq proof ledger recv added)
    {info : AttributeInfo} (hr : proofReq.requestedAttributes.lookup r = some info)
    (hask : AsksNonRevocation proofReq info.nonRevoked)
    (hone : proof.requestedProof.answers r ≤ 1) (hi : proof.requestedProof.AnsweredFrom r i) :
    Timestamped proof i := by
  have hplace := h.attribute_timestamp hr hask
  unfold RequestedProof.revealedIndex RequestedProof.unrevealedIndex at hplace
  unfold RequestedProof.answers at hone
  cases hi with
  | taken htaken =>
    cases htaken with
    | revealed hrevealed =>
      rw [hrevealed] at hone
      simp only [Option.toList_some, List.length_singleton] at hone
      have hgroup :=
        @eq_none_of_toList_length _ (proof.requestedProof.revealedAttrGroups.lookup r) (by omega)
      have hunrevealed :=
        @eq_none_of_toList_length _ (proof.requestedProof.unrevealedAttrs.lookup r) (by omega)
      have hself :=
        @eq_none_of_toList_length _ (proof.requestedProof.selfAttestedAttrs.lookup r) (by omega)
      simpa [hrevealed, hgroup, hunrevealed, hself] using hplace
    | group hgroup =>
      rw [hgroup] at hone
      simp only [Option.toList_some, List.length_singleton] at hone
      have hunrevealed :=
        @eq_none_of_toList_length _ (proof.requestedProof.unrevealedAttrs.lookup r) (by omega)
      have hself :=
        @eq_none_of_toList_length _ (proof.requestedProof.selfAttestedAttrs.lookup r) (by omega)
      simpa [hgroup, hunrevealed, hself] using hplace
  | unrevealed hindex =>
    obtain ⟨referent, hunrevealed, rfl⟩ := Option.map_eq_some_iff.mp hindex
    rw [hunrevealed] at hone
    simp only [Option.toList_some, List.length_singleton] at hone
    have hrevealed :=
      @eq_none_of_toList_length _ (proof.requestedProof.revealedAttrs.lookup r) (by omega)
    have hgroup :=
      @eq_none_of_toList_length _ (proof.requestedProof.revealedAttrGroups.lookup r) (by omega)
    have hself :=
      @eq_none_of_toList_length _ (proof.requestedProof.selfAttestedAttrs.lookup r) (by omega)
    simpa [hrevealed, hgroup, hunrevealed, hself] using hplace

/-- Non-revocation is never skipped exactly when repeated answers do not skip it. -/
theorem non_revocation_holds_iff (h : verify lc orders proofReq proof ledger = .ok true) :
    NonRevocationHolds lc proofReq proof ledger ↔ RepeatsTimestamped proofReq proof := by
  obtain ⟨recv, added, hacc⟩ := verify_eq_true_iff.mp h
  constructor
  · intro hholds r info hr hask _ i hi
    exact (hholds.attributes r info hr hask i hi).1
  · intro hrepeats
    refine ⟨?_, ?_⟩
    · intro r info hr hask i hi
      apply hacc.verifiedWithRegistry
      rcases Nat.lt_or_ge 1 (proof.requestedProof.answers r) with htwice | hone
      · exact hrepeats r info hr hask htwice i hi
      · exact hacc.timestamped_of_single hr hask hone hi
    · intro r info hr hask i hi
      exact hacc.verifiedWithRegistry (hacc.predicate_timestamp hr hask hi)

end Timestamps

section Skipped

/-- Asks for a name that is not revoked by a given time. -/
def unrevokedRequest : ProofRequestPayload Unit :=
  ⟨(), AList.singleton "attr1_referent" ⟨some "name", none, none, none⟩, ∅, some ⟨none, some 1000⟩⟩

def unrevokedIdentifier (timestamp : Option ℕ) : Identifier :=
  ⟨⟨"NcYxiDXkpYi6ov5FcYDi1e:2:gvt:1.0"⟩, ⟨"NcYxiDXkpYi6ov5FcYDi1e:3:CL:1:tag"⟩,
    some ⟨"rev_reg"⟩, timestamp⟩

def registryLedger : LedgerObjects sampleUrsa where
  schemas := AList.singleton (unrevokedIdentifier none).schemaId ⟨{"name"}⟩
  credDefs := AList.singleton (unrevokedIdentifier none).credDefId ⟨(), some ()⟩
  revRegDefs := AList.singleton ⟨"rev_reg"⟩ ()
  revRegs := AList.singleton ⟨"rev_reg"⟩ (AList.singleton 1000 ())

/-- Reveals the name, and lists its referent with the attributes in `selfAttested`. -/
def nameProof (timestamp : Option ℕ) (selfAttested : Table String String) : Proof sampleUrsa :=
  ⟨⟨[(AList.singleton "name" "42" : Table String String)], ()⟩,
    { revealedAttrs := AList.singleton "attr1_referent" ⟨0, "Alex", "42"⟩
      selfAttestedAttrs := selfAttested }, [unrevokedIdentifier timestamp]⟩

theorem non_revocation_holds_timestamp :
    verify asciiLowercase sampleOrders unrevokedRequest
      (nameProof (some 1000) ∅) registryLedger = .ok true ∧
      NonRevocationHolds asciiLowercase unrevokedRequest
        (nameProof (some 1000) ∅) registryLedger := by
  have haccepted : verify asciiLowercase sampleOrders unrevokedRequest
      (nameProof (some 1000) ∅) registryLedger = .ok true := by
    decide
  refine ⟨haccepted, (non_revocation_holds_iff haccepted).mpr ?_⟩
  intro r info hr _ htwice
  obtain ⟨rfl, -⟩ := Table.lookup_singleton_iff.mp hr
  have hone : (nameProof (some 1000) ∅).requestedProof.answers "attr1_referent" = 1 := by decide
  omega

/-- A revoked credential passes when its attribute is listed as self-attested as well. -/
theorem non_revocation_skipped :
    verify asciiLowercase sampleOrders unrevokedRequest
      (nameProof none (AList.singleton "attr1_referent" "Alex"))
        registryLedger = .ok true ∧
      ¬ NonRevocationHolds asciiLowercase unrevokedRequest
        (nameProof none (AList.singleton "attr1_referent" "Alex"))
        registryLedger := by
  refine ⟨by decide, ?_⟩
  intro h
  have htaken : (nameProof none
      (AList.singleton "attr1_referent" "Alex")).requestedProof.AnsweredFrom "attr1_referent"
      (RevealedAttributeInfo.subProofIndex ⟨0, "Alex", "42"⟩) :=
    .taken (.revealed (Table.lookup_singleton_iff.mpr ⟨rfl, rfl⟩))
  obtain ⟨⟨identifier, hid, htime⟩, -⟩ :=
    h.attributes _ _ (Table.lookup_singleton_iff.mpr ⟨rfl, rfl⟩) rfl _ htaken
  obtain rfl : unrevokedIdentifier none = identifier := Option.some.inj hid
  cases htime

end Skipped

end SimpleAsset.Indy.Anoncreds
