import SimpleAsset.Indy.Anoncreds.Acceptance

/-! Where the verifier's own code can panic. -/
namespace SimpleAsset.Indy.Anoncreds
open SimpleAsset.Library

section Definitions
variable {U : Ursa}

/-- In the sub-proof of a restricted predicate the proof reveals an attribute that it lists with the
self-attested ones too, and that may be self-attested. -/
def Overlaps (proofReq : ProofRequestPayload U.Nonce) (proof : Proof U)
    (referent : String) : Prop :=
  ∃ info query predicate r value attr, proofReq.requestedPredicates.lookup referent = some info ∧
    info.restrictions = some query ∧
    proof.requestedProof.predicates.lookup referent = some predicate ∧
    proof.requestedProof.revealedAttrs.lookup r = some value ∧
    predicate.subProofIndex = value.subProofIndex ∧
    proofReq.requestedAttributes.lookup r = some attr ∧
    isSelfAttested r attr (receivedSelfAttestedAttrs proof) = true

/-- No check before that of a predicate's restrictions fails; `before` are the predicates that are
checked before it. -/
structure ReachesPredicate (lc : Lowercase) (orders : ValueOrders)
    (proofReq : ProofRequestPayload U.Nonce)
    (proof : Proof U) (before : List ((_ : String) × PredicateInfo)) (referent : String)
    (recv : Received) : Prop where
  received : received proof = .ok recv
  compared : compareAttrFromProofAndRequest proofReq recv = .ok ()
  values : verifyRevealedAttributeValues lc proofReq proof = .ok ()
  attributes : ∀ e ∈ requestedAttrs proofReq recv.selfAttested,
    verifyAttributeRestrictions lc orders proof (proofAttrIdentifiers recv) e.1 e.2 = .ok ()
  earlier : ∀ e ∈ before, verifyPredicateRestrictions lc orders proofReq proof recv e.1 e.2 = .ok ()
  identified : ∃ filter, gatherFilterInfo referent recv.predicates = .ok filter

end Definitions

variable {U : Ursa} {lc : Lowercase} {orders : ValueOrders} {proofReq : ProofRequestPayload U.Nonce}
    {proof : Proof U}
  {ledger : LedgerObjects U} {recv : Received} {r : String} {p : Panic}

section Compared

theorem ofIndyResult_ne_panic {α : Type} (x : IndyResult α) (p : Panic) :
    ofIndyResult x ≠ .error (.panic p) := by
  cases x with
  | error e => simp [ofIndyResult]
  | ok a => simp [ofIndyResult]

theorem compareAttrFromProofAndRequest_eq_ok
    (h : compareAttrFromProofAndRequest proofReq recv = .ok ()) :
    proofReq.requestedAttributes.keys.toFinset =
        recv.revealed.keys.toFinset ∪ recv.unrevealed.keys.toFinset ∪ recv.selfAttested ∧
      proofReq.requestedPredicates.keys.toFinset = recv.predicates.keys.toFinset := by
  unfold compareAttrFromProofAndRequest at h
  split at h
  · cases h
  · rename_i hattrs
    split at h
    · cases h
    · rename_i hpredicates
      exact ⟨not_not.mp hattrs, not_not.mp hpredicates⟩

theorem takenFrom_of_revealedIndex {rp : RequestedProof} {i : ℕ} (h : rp.revealedIndex r = some i) :
    rp.TakenFrom r i := by
  rcases Option.or_eq_some_iff.mp h with hgroup | ⟨-, hsingle⟩
  · obtain ⟨infos, hinfos, rfl⟩ := Option.map_eq_some_iff.mp hgroup
    exact .group hinfos
  · obtain ⟨info, hinfo, rfl⟩ := Option.map_eq_some_iff.mp hsingle
    exact .revealed hinfo

/-- What is revealed was asked for. -/
theorem exists_requested_of_revealed (hrecv : Received.Of proof recv)
    (h : compareAttrFromProofAndRequest proofReq recv = .ok ()) {value : RevealedAttributeInfo}
    (hvalue : proof.requestedProof.revealedAttrs.lookup r = some value) :
    ∃ attr, proofReq.requestedAttributes.lookup r = some attr := by
  have hrevealed : ∃ identifier, recv.revealed.lookup r = some identifier := by
    rw [hrecv.revealed r]
    cases hindex : proof.requestedProof.revealedIndex r with
    | none => simp [RequestedProof.revealedIndex, hvalue] at hindex
    | some i =>
      rw [Option.bind_some]
      exact hrecv.takenIn r i (takenFrom_of_revealedIndex hindex)
  have hmem : r ∈ proofReq.requestedAttributes.keys.toFinset := by
    rw [(compareAttrFromProofAndRequest_eq_ok h).1]
    simp [Table.mem_keys_iff, hrevealed]
  exact Table.mem_keys_iff.mp (List.mem_toFinset.mp hmem)

/-- What a requested predicate is proved from is there. -/
theorem exists_predicate_of_requested (hrecv : Received.Of proof recv)
    (h : compareAttrFromProofAndRequest proofReq recv = .ok ()) {info : PredicateInfo}
    (hinfo : proofReq.requestedPredicates.lookup r = some info) :
    ∃ predicate, proof.requestedProof.predicates.lookup r = some predicate := by
  have hmem : r ∈ proofReq.requestedPredicates.keys.toFinset :=
    List.mem_toFinset.mpr (Table.mem_keys_iff.mpr ⟨info, hinfo⟩)
  rw [(compareAttrFromProofAndRequest_eq_ok h).2] at hmem
  obtain ⟨identifier, hid⟩ := Table.mem_keys_iff.mp (List.mem_toFinset.mp hmem)
  rw [hrecv.predicates r, RequestedProof.predicateIndex] at hid
  cases hpredicate : proof.requestedProof.predicates.lookup r with
  | none => simp [hpredicate] at hid
  | some predicate => exact ⟨predicate, rfl⟩

end Compared

section Unwraps

/-- `requested_attrs` does not have the referent. -/
def FilteredOut (proofReq : ProofRequestPayload U.Nonce) (selfAttested : Finset String)
    (r : String) : Prop :=
  ∀ attr, proofReq.requestedAttributes.lookup r = some attr →
    isSelfAttested r attr selfAttested = true

variable {selfAttested : Finset String} {i : ℕ} {name : String}

theorem find?_requestedAttrs_eq_none_iff :
    (requestedAttrs proofReq selfAttested).find? (fun e => e.1 = r) = none ↔
    FilteredOut proofReq selfAttested r := by
  rw [List.find?_eq_none]
  constructor
  · intro h attr hattr
    by_contra hnot
    refine h ⟨r, attr⟩ ?_ (by simp)
    exact List.mem_filter.mpr ⟨Table.mem_entries_iff.mpr hattr, by simpa using hnot⟩
  · rintro h ⟨r', attr⟩ hmem heq
    obtain ⟨hentry, hkept⟩ := List.mem_filter.mp hmem
    obtain rfl : r' = r := by simpa using heq
    simp [h attr (Table.mem_entries_iff.mp hentry)] at hkept

theorem addRevealedValue_panics (map : Table String (Option String))
    {e : (_ : String) × RevealedAttributeInfo}
    (h : i = e.2.subProofIndex ∧ FilteredOut proofReq selfAttested e.1) :
    addRevealedValue proofReq selfAttested i map e = .error (.panic .unwrapNone) := by
  unfold addRevealedValue
  rw [if_pos h.1, find?_requestedAttrs_eq_none_iff.mpr h.2]

theorem exists_addRevealedValue (map : Table String (Option String))
    {e : (_ : String) × RevealedAttributeInfo}
    (h : ¬ (i = e.2.subProofIndex ∧ FilteredOut proofReq selfAttested e.1)) :
    ∃ map', addRevealedValue proofReq selfAttested i map e = .ok map' := by
  unfold addRevealedValue
  split
  · rename_i hindex
    split
    · rename_i hnone
      exact absurd ⟨hindex, find?_requestedAttrs_eq_none_iff.mp hnone⟩ h
    · split
      · exact ⟨_, rfl⟩
      · exact ⟨_, rfl⟩
  · exact ⟨_, rfl⟩

/-- The lookup fails for a revealed attribute of the sub-proof that was filtered out. -/
theorem attrValueMap_panics_iff :
    attrValueMap proofReq proof selfAttested name i = .error (.panic p) ↔
    p = .unwrapNone ∧ ∃ r value, proof.requestedProof.revealedAttrs.lookup r = some value ∧
      i = value.subProofIndex ∧
      FilteredOut proofReq selfAttested r := by
  unfold attrValueMap
  rw [except_bind_eq_error, foldlM_eq_error_iff (fun map e => addRevealedValue_panics map)
    (fun map e => exists_addRevealedValue map)]
  constructor
  · rintro (⟨hp, ⟨r, value⟩, hmem, hindex, hout⟩ | ⟨map, -, h⟩)
    · exact ⟨Fault.panic.inj hp, r, value, Table.mem_entries_iff.mp hmem, hindex, hout⟩
    · cases h
  · rintro ⟨rfl, r, value, hvalue, hindex, hout⟩
    exact .inl ⟨rfl, ⟨r, value⟩, Table.mem_entries_iff.mpr hvalue, hindex, hout⟩

end Unwraps

section Reached

theorem verifyPredicateRestrictions_panics_iff (hrecv : received proof = .ok recv)
    (hcompared : compareAttrFromProofAndRequest proofReq recv = .ok ()) {info : PredicateInfo}
    (hinfo : proofReq.requestedPredicates.lookup r = some info) :
    verifyPredicateRestrictions lc orders proofReq proof recv r info = .error (.panic p) ↔
      p = .unwrapNone ∧ (∃ filter, gatherFilterInfo r recv.predicates = .ok filter) ∧
      Overlaps proofReq proof r := by
  have hof := Received.of_received hrecv
  obtain ⟨predicate, hpredicate⟩ := exists_predicate_of_requested hof hcompared hinfo
  unfold verifyPredicateRestrictions
  cases hq : info.restrictions with
  | none =>
    have hno : ¬ Overlaps proofReq proof r := by
      rintro ⟨info', query, -, -, -, -, hinfo', hquery, -⟩
      obtain rfl : info = info' := Option.some.inj (hinfo.symm.trans hinfo')
      cases hq.symm.trans hquery
    simp [hno]
  | some query =>
    simp only [except_bind_eq_error, ofIndyResult_ne_panic, false_or,
      ofIndyResult_eq_ok_iff, hpredicate,
      and_false, exists_false, or_false, attrValueMap_panics_iff, hof.selfAttested]
    constructor
    · rintro ⟨filter, hfilter, rfl, r', value, hvalue, hindex, hout⟩
      obtain ⟨attr, hattr⟩ := exists_requested_of_revealed hof hcompared hvalue
      exact ⟨rfl, ⟨filter, hfilter⟩, info, query, predicate, r', value, attr, hinfo, hq, hpredicate,
        hvalue, hindex, hattr, hout attr hattr⟩
    · rintro ⟨rfl, ⟨filter, hfilter⟩, info', query', predicate', r', value, attr, hinfo', hquery,
        hpredicate', hvalue, hindex, hattr, hself⟩
      obtain rfl : predicate = predicate' := Option.some.inj (hpredicate.symm.trans hpredicate')
      refine ⟨filter, hfilter, rfl, r', value, hvalue, hindex, fun attr' hattr' => ?_⟩
      obtain rfl : attr = attr' := Option.some.inj (hattr.symm.trans hattr')
      exact hself

theorem verifyRequestedRestrictions_panics_iff :
    verifyRequestedRestrictions lc orders proofReq proof recv =
      .error (.panic p) ↔
    (∀ e ∈ requestedAttrs proofReq recv.selfAttested,
      verifyAttributeRestrictions lc orders proof (proofAttrIdentifiers recv) e.1 e.2 = .ok ()) ∧
    ∃ before e after, proofReq.requestedPredicates.entries = before ++ e :: after ∧
      (∀ e' ∈ before,
        verifyPredicateRestrictions lc orders proofReq proof recv e'.1 e'.2 = .ok ()) ∧
      verifyPredicateRestrictions lc orders proofReq proof recv e.1 e.2 = .error (.panic p) := by
  unfold verifyRequestedRestrictions
  rw [except_bind_eq_error, forM_eq_error_iff, forM_eq_error_iff]
  simp only [ofIndyResult_ne_panic, and_false, exists_false, false_or, forM_eq_ok_iff,
    ofIndyResult_eq_ok_iff]
  constructor
  · rintro ⟨⟨⟩, hattrs, hpredicates⟩
    exact ⟨hattrs, hpredicates⟩
  · rintro ⟨hattrs, hpredicates⟩
    exact ⟨(), hattrs, hpredicates⟩

/-- Nothing after the restrictions can panic, and nothing before them. -/
theorem verify_panics_iff_restrictions :
    verify lc orders proofReq proof ledger = .error (.panic p) ↔
    ∃ recv, received proof = .ok recv ∧ compareAttrFromProofAndRequest proofReq recv = .ok () ∧
      verifyRevealedAttributeValues lc proofReq proof = .ok () ∧
      verifyRequestedRestrictions lc orders proofReq proof recv = .error (.panic p) := by
  unfold verify structuralChecks
  simp only [except_bind_eq_error, ofIndyResult_ne_panic, and_false, exists_false,
    or_false, false_or, ofIndyResult_eq_ok_iff]
  constructor
  · rintro ⟨recv, hrecv, ⟨⟩, hcompared, ⟨⟩, hvalues, hpanic⟩
    exact ⟨recv, hrecv, hcompared, hvalues, hpanic⟩
  · rintro ⟨recv, hrecv, hcompared, hvalues, hpanic⟩
    exact ⟨recv, hrecv, (), hcompared, (), hvalues, hpanic⟩

/-- Where the verifier panics: at the restrictions of an overlapping predicate, when it gets
there. -/
theorem verify_panics_iff : verify lc orders proofReq proof ledger = .error (.panic p) ↔
    p = .unwrapNone ∧ ∃ before r info after recv, proofReq.requestedPredicates.entries = before ++
      ⟨r, info⟩ :: after ∧
      ReachesPredicate lc orders proofReq proof before r recv ∧ Overlaps proofReq proof r := by
  have hlookup : ∀ {before r info after}, proofReq.requestedPredicates.entries = before ++
      ⟨r, info⟩ :: after →
      proofReq.requestedPredicates.lookup r = some info := by
    intro before r info after hentries
    exact Table.mem_entries_iff.mp (by simp [hentries])
  rw [verify_panics_iff_restrictions]
  simp only [verifyRequestedRestrictions_panics_iff]
  constructor
  · rintro ⟨recv, hrecv, hcompared, hvalues, hattrs, before, ⟨r, info⟩, after, hentries,
      hbefore, hpanic⟩
    obtain ⟨hp, hid, hoverlap⟩ :=
      (verifyPredicateRestrictions_panics_iff hrecv hcompared (hlookup hentries)).mp hpanic
    exact ⟨hp, before, r, info, after, recv, hentries,
      ⟨hrecv, hcompared, hvalues, hattrs, hbefore, hid⟩, hoverlap⟩
  · rintro ⟨hp, before, r, info, after, recv, hentries, h, hoverlap⟩
    exact ⟨recv, h.received, h.compared, h.values, h.attributes, before, ⟨r, info⟩, after,
      hentries, h.earlier,
      (verifyPredicateRestrictions_panics_iff h.received h.compared (hlookup hentries)).mpr
      ⟨hp, h.identified, hoverlap⟩⟩

/-- When the verifier does not panic: no overlapping predicate is reached, as when there is none. -/
theorem verify_no_panic_iff (lc : Lowercase) (orders : ValueOrders)
    (proofReq : ProofRequestPayload U.Nonce) (proof : Proof U) (ledger : LedgerObjects U) :
    ((∀ p, verify lc orders proofReq proof ledger ≠ .error (.panic p)) ↔
      ¬ ∃ before r info after recv, proofReq.requestedPredicates.entries = before ++
        ⟨r, info⟩ :: after ∧
        ReachesPredicate lc orders proofReq proof before r recv ∧ Overlaps proofReq proof r) ∧
    ((∀ r, ¬ Overlaps proofReq proof r) →
      ∀ p, verify lc orders proofReq proof ledger ≠ .error (.panic p)) := by
  refine ⟨?_, ?_⟩
  · constructor
    · intro h hreached
      exact h .unwrapNone (verify_panics_iff.mpr ⟨rfl, hreached⟩)
    · intro h p hpanic
      exact h (verify_panics_iff.mp hpanic).2
  · intro h p hpanic
    obtain ⟨-, before, r, info, after, recv, -, -, hoverlap⟩ := verify_panics_iff.mp hpanic
    exact h r hoverlap

end Reached

section Crash

/-- Asks for a name, and for an age from one issuer. -/
def adultRequest : ProofRequestPayload Unit where
  nonce := ()
  requestedAttributes := AList.singleton "attr1_referent" ⟨some "name", none, none, none⟩
  requestedPredicates := AList.singleton "predicate1_referent"
    ⟨"age", .ge, 18, some (.eq "issuer_did" "NcYxiDXkpYi6ov5FcYDi1e"), none⟩
  nonRevoked := none

/-- Reveals the name and attests it too. -/
def doublyAttested : Proof sampleUrsa :=
  ⟨⟨[(AList.singleton "name" "42" : Table String String)], ()⟩,
    { revealedAttrs := AList.singleton "attr1_referent" ⟨0, "Alex", "42"⟩
      selfAttestedAttrs := AList.singleton "attr1_referent" "Alex"
      predicates := AList.singleton "predicate1_referent" ⟨0⟩ },
    [⟨⟨"NcYxiDXkpYi6ov5FcYDi1e:2:gvt:1.0"⟩, ⟨"NcYxiDXkpYi6ov5FcYDi1e:3:CL:1:tag"⟩, none, none⟩]⟩

theorem verifier_panics :
    verify asciiLowercase sampleOrders adultRequest doublyAttested ⟨∅, ∅, ∅, ∅⟩ = .error
      (.panic .unwrapNone) := by
  decide

end Crash

end SimpleAsset.Indy.Anoncreds
