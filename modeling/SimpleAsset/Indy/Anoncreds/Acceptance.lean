import SimpleAsset.Indy.Anoncreds.Verifier

/-! What an accepted proof has passed, check by check. -/
namespace SimpleAsset.Indy.Anoncreds
open SimpleAsset.Library

@[simp] theorem ofIndyResult_eq_ok_iff {α : Type} {r : IndyResult α} {a : α} :
    ofIndyResult r = .ok a ↔ r = .ok a := by
  cases r with
  | error e => simp [ofIndyResult]
  | ok b => simp [ofIndyResult]

@[simp] theorem extendErr_eq_ok_iff {α : Type} {message : String} {r : IndyResult α} {a : α} :
    extendErr message r = .ok a ↔ r = .ok a := by
  cases r with
  | error e => simp [extendErr]
  | ok b => simp [extendErr]

@[simp] theorem notFound_eq_ok_iff {α : Type} {message : String} {o : Option α} {a : α} :
    notFound message o = .ok a ↔ o = some a := by
  cases o with
  | none => simp [notFound]
  | some b => simp [notFound]

section Answers

/-- The sub-proof of a revealed attribute; a group entry comes first. -/
def RequestedProof.revealedIndex (rp : RequestedProof) (r : String) : Option ℕ :=
  ((rp.revealedAttrGroups.lookup r).map (·.subProofIndex)).or
    ((rp.revealedAttrs.lookup r).map (·.subProofIndex))

def RequestedProof.unrevealedIndex (rp : RequestedProof) (r : String) : Option ℕ :=
  (rp.unrevealedAttrs.lookup r).map (·.subProofIndex)

def RequestedProof.predicateIndex (rp : RequestedProof) (r : String) : Option ℕ :=
  (rp.predicates.lookup r).map (·.subProofIndex)

/-- The sub-proof whose identifier the restrictions of an attribute are checked on. -/
def RequestedProof.checkedIndex (rp : RequestedProof) (r : String) : Option ℕ :=
  (rp.unrevealedIndex r).or (rp.revealedIndex r)

/-- The raw value (or values) of the referent come from sub-proof `i`. -/
inductive RequestedProof.TakenFrom (rp : RequestedProof) (r : String) : ℕ → Prop
  | revealed {info : RevealedAttributeInfo} (h : rp.revealedAttrs.lookup r = some info) :
      TakenFrom rp r info.subProofIndex
  | group {infos : RevealedAttributeGroupInfo} (h : rp.revealedAttrGroups.lookup r = some infos) :
      TakenFrom rp r infos.subProofIndex

end Answers

variable {U : Ursa} {lc : Lowercase} {orders : ValueOrders} {proofReq : ProofRequestPayload U.Nonce}
    {proof : Proof U}
  {ledger : LedgerObjects U} {recv : Received} {r : String} {i : ℕ}

theorem getProofIdentifier_eq_ok_iff {identifier : Identifier} :
    getProofIdentifier proof i = .ok identifier ↔ proof.identifiers[i]? = some identifier := by
  unfold getProofIdentifier
  split
  · rename_i id hid
    rw [hid]
    simp
  · rename_i hid
    rw [hid]
    simp

/-- The identifiers that the checks look up, read off the proof. -/
structure Received.Of (proof : Proof U) (recv : Received) : Prop where
  revealed : ∀ r, recv.revealed.lookup r = (proof.requestedProof.revealedIndex r).bind
    (proof.identifiers[·]?)
  unrevealed : ∀ r, recv.unrevealed.lookup r = (proof.requestedProof.unrevealedIndex r).bind
    (proof.identifiers[·]?)
  predicates : ∀ r, recv.predicates.lookup r = (proof.requestedProof.predicateIndex r).bind
    (proof.identifiers[·]?)
  selfAttested : recv.selfAttested = receivedSelfAttestedAttrs proof
  /-- Every sub-proof that the proof points to has an identifier. -/
  takenIn : ∀ r i, proof.requestedProof.TakenFrom r i →
    ∃ identifier, proof.identifiers[i]? = some identifier
  unrevealedIn : ∀ r i, proof.requestedProof.unrevealedIndex r = some i →
    ∃ identifier, proof.identifiers[i]? = some identifier
  predicatesIn : ∀ r i, proof.requestedProof.predicateIndex r = some i →
    ∃ identifier, proof.identifiers[i]? = some identifier

/-- One pass over a map of the proof, into a table that has `acc` already. -/
theorem lookup_received {β : Type} {index : β → ℕ} {t : Table String β}
    {acc t' : Table String Identifier}
    (h : Table.insertAllM (fun b => getProofIdentifier proof (index b)) t acc = .ok t')
    (r : String) :
    t'.lookup r = match t.lookup r with
      | some b => proof.identifiers[index b]?
      | none => acc.lookup r := by
  cases hr : t.lookup r with
  | none => exact Table.lookup_insertAllM_of_none h hr
  | some b =>
    obtain ⟨identifier, hid, hlookup⟩ := Table.lookup_insertAllM h hr
    rw [hlookup]
    exact (getProofIdentifier_eq_ok_iff.mp hid).symm

theorem exists_identifier_of_received {β : Type} {index : β → ℕ} {t : Table String β}
    {acc t' : Table String Identifier}
    (h : Table.insertAllM (fun b => getProofIdentifier proof (index b)) t acc = .ok t') {b : β}
    (hr : t.lookup r = some b) : ∃ identifier, proof.identifiers[index b]? = some identifier := by
  obtain ⟨identifier, hid, -⟩ := Table.lookup_insertAllM h hr
  exact ⟨identifier, getProofIdentifier_eq_ok_iff.mp hid⟩

theorem Received.of_received (h : received proof = .ok recv) : Received.Of proof recv := by
  unfold received at h
  obtain ⟨revealed, hrevealed, h⟩ := except_bind_eq_ok.mp h
  obtain ⟨unrevealed, hunrevealed, h⟩ := except_bind_eq_ok.mp h
  obtain ⟨predicates, hpredicates, h⟩ := except_bind_eq_ok.mp h
  obtain rfl : (⟨revealed, unrevealed, predicates, receivedSelfAttestedAttrs proof⟩ :
      Received) = recv :=
    Except.ok.inj h
  unfold receivedRevealedAttrs at hrevealed
  obtain ⟨single, hsingle, hgroups⟩ := except_bind_eq_ok.mp hrevealed
  refine ⟨?_, ?_, ?_, rfl, ?_, ?_, ?_⟩
  · intro r
    rw [lookup_received hgroups r, lookup_received hsingle r]
    unfold RequestedProof.revealedIndex
    cases proof.requestedProof.revealedAttrGroups.lookup r with
    | some infos => rfl
    | none => cases proof.requestedProof.revealedAttrs.lookup r <;> rfl
  · intro r
    rw [lookup_received hunrevealed r]
    unfold RequestedProof.unrevealedIndex
    cases proof.requestedProof.unrevealedAttrs.lookup r <;> rfl
  · intro r
    rw [lookup_received hpredicates r]
    unfold RequestedProof.predicateIndex
    cases proof.requestedProof.predicates.lookup r <;> rfl
  · intro r i htaken
    cases htaken with
    | revealed h => exact exists_identifier_of_received hsingle h
    | group h => exact exists_identifier_of_received hgroups h
  · intro r i hi
    obtain ⟨info, hinfo, rfl⟩ := Option.map_eq_some_iff.mp hi
    exact exists_identifier_of_received hunrevealed hinfo
  · intro r i hi
    obtain ⟨info, hinfo, rfl⟩ := Option.map_eq_some_iff.mp hi
    exact exists_identifier_of_received hpredicates hinfo

theorem Received.Of.checked (h : Received.Of proof recv) (r : String) :
    (proofAttrIdentifiers recv).lookup r =
      (proof.requestedProof.checkedIndex r).bind (proof.identifiers[·]?) := by
  rw [proofAttrIdentifiers, Table.lookup_union, h.unrevealed, h.revealed,
    RequestedProof.checkedIndex]
  cases hun : proof.requestedProof.unrevealedIndex r with
  | none => simp
  | some i =>
    obtain ⟨identifier, hid⟩ := h.unrevealedIn r i hun
    simp [hid]

/-- The checks that a proof has passed, and what was handed to the proof verifier for it. -/
structure Accepted (lc : Lowercase) (orders : ValueOrders) (proofReq : ProofRequestPayload U.Nonce)
    (proof : Proof U)
    (ledger : LedgerObjects U) (recv : Received) (added : List U.AddedSubProof) : Prop where
  received : received proof = .ok recv
  compared : compareAttrFromProofAndRequest proofReq recv = .ok ()
  values : verifyRevealedAttributeValues lc proofReq proof = .ok ()
  attributes : ∀ e ∈ requestedAttrs proofReq recv.selfAttested,
    verifyAttributeRestrictions lc orders proof (proofAttrIdentifiers recv) e.1 e.2 = .ok ()
  predicates : ∀ e ∈ proofReq.requestedPredicates.entries,
    verifyPredicateRestrictions lc orders proofReq proof recv e.1 e.2 = .ok ()
  timestamps : compareTimestampsFromProofAndRequest proofReq recv = .ok ()
  handed : (proof.identifiers.zipIdx.mapM fun e =>
    addSubProof lc proofReq proof ledger e.2 e.1) = .ok added
  verified : U.verify proof.proof.proofs proof.proof.aggregatedProof added proofReq.nonce = .ok true

theorem structuralChecks_eq_ok_iff {u : Unit} : structuralChecks lc orders proofReq proof = .ok u ↔
    ∃ recv, received proof = .ok recv ∧ compareAttrFromProofAndRequest proofReq recv = .ok () ∧
      verifyRevealedAttributeValues lc proofReq proof = .ok () ∧
      (∀ e ∈ requestedAttrs proofReq recv.selfAttested,
        verifyAttributeRestrictions lc orders proof (proofAttrIdentifiers recv) e.1 e.2 = .ok ()) ∧
      (∀ e ∈ proofReq.requestedPredicates.entries,
        verifyPredicateRestrictions lc orders proofReq proof recv e.1 e.2 = .ok ()) ∧
      compareTimestampsFromProofAndRequest proofReq recv = .ok () := by
  unfold structuralChecks verifyRequestedRestrictions
  simp only [except_bind_eq_ok, ofIndyResult_eq_ok_iff, forM_eq_ok_iff]
  constructor
  · rintro ⟨recv, hrecv, ⟨⟩, hcompared, ⟨⟩, hvalues, ⟨⟩, ⟨⟨⟩, hattrs, hpreds⟩, htimes⟩
    exact ⟨recv, hrecv, hcompared, hvalues, hattrs, hpreds, htimes⟩
  · rintro ⟨recv, hrecv, hcompared, hvalues, hattrs, hpreds, htimes⟩
    exact ⟨recv, hrecv, (), hcompared, (), hvalues, (), ⟨(), hattrs, hpreds⟩, htimes⟩

theorem verify_eq_true_iff : verify lc orders proofReq proof ledger = .ok true ↔
    ∃ recv added, Accepted lc orders proofReq proof ledger recv added := by
  unfold verify
  simp only [except_bind_eq_ok, ofIndyResult_eq_ok_iff, structuralChecks_eq_ok_iff]
  constructor
  · rintro ⟨⟨⟩, ⟨recv, hrecv, hcompared, hvalues, hattrs, hpreds, htimes⟩, added, hadded, hverified⟩
    exact ⟨recv, added, hrecv, hcompared, hvalues, hattrs, hpreds, htimes, hadded, hverified⟩
  · rintro ⟨recv, added, h⟩
    exact ⟨(), ⟨recv, h.received, h.compared, h.values, h.attributes, h.predicates, h.timestamps⟩,
      added, h.handed, h.verified⟩

end SimpleAsset.Indy.Anoncreds
