import SimpleAsset.Indy.Anoncreds.Honest

/-! Proofs of an honest prover before the checks of the verifier. -/
namespace SimpleAsset.Indy.Anoncreds
open SimpleAsset.Library

section Checks
variable {U : Ursa} {P : UrsaProver U} {lc : Lowercase} {node13 : Bool}
    {version : ProofRequestsVersion}
  {proofReq : ProofRequestPayload U.Nonce} {rc : RequestedCredentials}
  {masterSecret : P.MasterSecret}
  {objects : ProverObjects P} {rounds : List ((_ : ProvingCredentialKey) × ForCredential)}
  {inputs : List P.Input} {proof : Proof U} {r : String} {ra : RequestedAttribute} {i : ℕ}
  {c : Credential P.CredentialSignature} {info : AttributeInfo} {names : List String}
  (h : Made lc node13 version proofReq rc masterSecret objects rounds inputs proof)
  (hon : Honest lc node13 version proofReq rc objects)
include h hon

omit h in
/-- An assigned attribute has names, which its credential has. -/
theorem Honest.assigned_names (ha : Assigned proofReq rc objects rounds r ra i c info) :
    ∃ names, info.allNames = some names ∧
      (∀ n ∈ names, (getCredentialValuesForAttribute lc c.values n).isSome) ∧
      (proofIdentifier node13 version c ra.timestamp).Satisfies info.restrictions ∧
      (AsksNonRevocation proofReq info.nonRevoked → ra.timestamp.isSome) ∧
      rc.selfAttestedAttributes.lookup r = none := by
  rcases hon.attributes r info ha.requested with ⟨ra', names, hr, hself, hnames, hfits⟩ | ⟨hr, -⟩
  · obtain rfl : ra = ra' := Option.some.inj (ha.assigned.symm.trans hr)
    obtain ⟨c', hc', hall, hsat⟩ := hfits.credential
    obtain rfl : c = c' := Option.some.inj (ha.place.2.symm.trans hc')
    exact ⟨names, hnames, hall, hsat, hfits.timestamp, hself⟩
  · rw [ha.assigned] at hr
    cases hr

theorem Made.revealedIndex_iff : proof.requestedProof.revealedIndex r = some i ↔
    ∃ ra c info, Assigned proofReq rc objects rounds r ra i c info ∧ ra.revealed = true := by
  unfold RequestedProof.revealedIndex
  constructor
  · intro hi
    rw [Option.or_eq_some_iff] at hi
    rcases hi with hi | ⟨-, hi⟩
    · obtain ⟨entry, hentry, rfl⟩ := Option.map_eq_some_iff.mp hi
      obtain ⟨ra, i, c, info, ha, hrev, -, names, values, -, -, rfl⟩ := h.groups_iff.mp hentry
      exact ⟨ra, c, info, ha, hrev⟩
    · obtain ⟨entry, hentry, rfl⟩ := Option.map_eq_some_iff.mp hi
      obtain ⟨ra, i, c, info, ha, hrev, name, values, -, -, rfl⟩ := h.revealed_iff.mp hentry
      exact ⟨ra, c, info, ha, hrev⟩
  · rintro ⟨ra, c, info, ha, hrev⟩
    obtain ⟨names, hnames, hall, -⟩ := hon.assigned_names ha
    cases hname : info.name with
    | some name =>
      have hgroup : proof.requestedProof.revealedAttrGroups.lookup r = none := by
        rw [Option.eq_none_iff_forall_ne_some]
        intro entry hentry
        obtain ⟨ra', i', c', info', ha', -, hnone, -⟩ := h.groups_iff.mp hentry
        obtain ⟨-, -, -, rfl⟩ := h.assigned_unique ha ha'
        rw [hname] at hnone
        cases hnone
      obtain rfl : [name] = names := by simpa [AttributeInfo.allNames, hname] using hnames
      obtain ⟨values, hvalues⟩ := Option.isSome_iff_exists.mp (hall name (by simp))
      have hrevealed :=
        h.revealed_iff.mpr ⟨ra, i, c, info, ha, hrev, name, values, hname, hvalues, rfl⟩
      rw [hgroup, hrevealed]
      rfl
    | none =>
      obtain hnames' : info.names = some names := by
        simpa [AttributeInfo.allNames, hname] using hnames
      obtain ⟨values, hvalues⟩ := exists_groupValues hall
      have hgroup :=
        h.groups_iff.mpr ⟨ra, i, c, info, ha, hrev, hname, names, values, hnames', hvalues, rfl⟩
      rw [hgroup]
      rfl

omit hon in
theorem Made.unrevealedIndex_iff : proof.requestedProof.unrevealedIndex r = some i ↔
    ∃ ra c info, Assigned proofReq rc objects rounds r ra i c info ∧ ra.revealed = false := by
  unfold RequestedProof.unrevealedIndex
  rw [Option.map_eq_some_iff]
  constructor
  · rintro ⟨entry, hentry, rfl⟩
    obtain ⟨ra, i, c, info, ha, hrev, rfl⟩ := h.unrevealed_iff.mp hentry
    exact ⟨ra, c, info, ha, hrev⟩
  · rintro ⟨ra, c, info, ha, hrev⟩
    exact ⟨⟨i⟩, h.unrevealed_iff.mpr ⟨ra, i, c, info, ha, hrev, rfl⟩, rfl⟩

omit hon in
theorem Made.predicateIndex_iff : proof.requestedProof.predicateIndex r = some i ↔
    ∃ key c, rc.requestedPredicates.lookup r = some key ∧ MadeFrom objects rounds i key c := by
  unfold RequestedProof.predicateIndex
  rw [Option.map_eq_some_iff]
  constructor
  · rintro ⟨entry, hentry, rfl⟩
    exact h.predicates_iff.mp hentry
  · rintro ⟨key, c, hr, hplace⟩
    exact ⟨⟨i⟩, h.predicates_iff.mpr ⟨key, c, hr, hplace⟩, rfl⟩

/-- Restrictions are checked where the attribute is answered. -/
theorem Made.checkedIndex_iff : proof.requestedProof.checkedIndex r = some i ↔
    ∃ ra c info, Assigned proofReq rc objects rounds r ra i c info := by
  unfold RequestedProof.checkedIndex
  rw [Option.or_eq_some_iff, h.unrevealedIndex_iff, h.revealedIndex_iff hon]
  constructor
  · rintro (⟨ra, c, info, ha, -⟩ | ⟨-, ra, c, info, ha, -⟩)
    · exact ⟨ra, c, info, ha⟩
    · exact ⟨ra, c, info, ha⟩
  · rintro ⟨ra, c, info, ha⟩
    cases hrev : ra.revealed with
    | false => exact Or.inl ⟨ra, c, info, ha, hrev⟩
    | true =>
      refine Or.inr ⟨?_, ra, c, info, ha, hrev⟩
      rw [Option.eq_none_iff_forall_ne_some]
      intro j hj
      obtain ⟨ra', c', info', ha', hrev'⟩ := h.unrevealedIndex_iff.mp hj
      obtain ⟨rfl, -⟩ := h.assigned_unique ha ha'
      rw [hrev] at hrev'
      cases hrev'

omit hon in
theorem Made.exists_identifier {key : ProvingCredentialKey}
    (hplace : MadeFrom objects rounds i key c) :
    getProofIdentifier proof i = .ok (proofIdentifier node13 version c key.timestamp) :=
  getProofIdentifier_eq_ok_iff.mpr (h.round hplace).1

omit hon in
theorem Made.exists_received : ∃ recv, received proof = .ok recv := by
  obtain ⟨single, hsingle⟩ := Table.exists_insertAllM (t := proof.requestedProof.revealedAttrs)
    (f := fun (info : RevealedAttributeInfo) => getProofIdentifier proof info.subProofIndex) (by
      intro r entry hentry
      obtain ⟨ra, i, c, info, ha, -, name, values, -, -, rfl⟩ := h.revealed_iff.mp hentry
      exact ⟨_, h.exists_identifier ha.place⟩) ∅
  obtain ⟨revealed, hrevealed⟩ :=
    Table.exists_insertAllM (t := proof.requestedProof.revealedAttrGroups)
    (f := fun (infos : RevealedAttributeGroupInfo) => getProofIdentifier proof infos.subProofIndex)
    (by
      intro r entry hentry
      obtain ⟨ra, i, c, info, ha, -, -, names, values, -, -, rfl⟩ := h.groups_iff.mp hentry
      exact ⟨_, h.exists_identifier ha.place⟩) single
  obtain ⟨unrevealed, hunrevealed⟩ :=
    Table.exists_insertAllM (t := proof.requestedProof.unrevealedAttrs)
    (f := fun (info : SubProofReferent) => getProofIdentifier proof info.subProofIndex) (by
      intro r entry hentry
      obtain ⟨ra, i, c, info, ha, -, rfl⟩ := h.unrevealed_iff.mp hentry
      exact ⟨_, h.exists_identifier ha.place⟩) ∅
  obtain ⟨predicates, hpredicates⟩ := Table.exists_insertAllM (t := proof.requestedProof.predicates)
    (f := fun (info : SubProofReferent) => getProofIdentifier proof info.subProofIndex) (by
      intro r entry hentry
      obtain ⟨key, c, -, hplace⟩ := h.predicates_iff.mp hentry
      exact ⟨_, h.exists_identifier hplace⟩) ∅
  have hall : receivedRevealedAttrs proof = .ok revealed := by
    unfold receivedRevealedAttrs
    rw [hsingle]
    exact hrevealed
  refine ⟨⟨revealed, unrevealed, predicates, receivedSelfAttestedAttrs proof⟩, ?_⟩
  unfold received receivedUnrevealedAttrs receivedPredicates
  rw [hall, hunrevealed, hpredicates]
  rfl

omit h hon in
theorem mem_keys_received_iff {t : Table String Identifier} {index : Option ℕ}
    (hlookup : t.lookup r = index.bind (proof.identifiers[·]?))
    (hin : ∀ i, index = some i → ∃ identifier, proof.identifiers[i]? = some identifier) :
    r ∈ t.keys ↔ ∃ i, index = some i := by
  rw [Table.mem_keys_iff, hlookup]
  constructor
  · rintro ⟨identifier, hid⟩
    obtain ⟨i, hi, -⟩ := Option.bind_eq_some_iff.mp hid
    exact ⟨i, hi⟩
  · rintro ⟨i, hi⟩
    obtain ⟨identifier, hid⟩ := hin i hi
    exact ⟨identifier, by rw [hi]; exact hid⟩

theorem Made.compared {recv : Received} (hrecv : received proof = .ok recv) :
    compareAttrFromProofAndRequest proofReq recv = .ok () := by
  have hof := Received.of_received hrecv
  have hbound : ∀ {i key c}, MadeFrom objects rounds i key c →
      ∃ identifier, proof.identifiers[i]? = some identifier :=
    fun hplace => ⟨_, (h.round hplace).1⟩
  have hattrs : proofReq.requestedAttributes.keys.toFinset =
      recv.revealed.keys.toFinset ∪ recv.unrevealed.keys.toFinset ∪ recv.selfAttested := by
    ext r
    have hrevealed : r ∈ recv.revealed.keys ↔
        ∃ i, proof.requestedProof.revealedIndex r = some i := by
      refine mem_keys_received_iff (hof.revealed r) fun i hi => ?_
      obtain ⟨ra, c, info, ha, -⟩ := (h.revealedIndex_iff hon).mp hi
      exact hbound ha.place
    have hunrevealed : r ∈ recv.unrevealed.keys ↔
        ∃ i, proof.requestedProof.unrevealedIndex r = some i := by
      refine mem_keys_received_iff (hof.unrevealed r) fun i hi => ?_
      obtain ⟨ra, c, info, ha, -⟩ := h.unrevealedIndex_iff.mp hi
      exact hbound ha.place
    have hself : r ∈ recv.selfAttested ↔ ∃ v, rc.selfAttestedAttributes.lookup r = some v := by
      obtain ⟨cells, preds, hwrote, -⟩ := h.proved.wrote
      rw [hof.selfAttested, receivedSelfAttestedAttrs, List.mem_toFinset, Table.mem_keys_iff,
        ← hwrote.selfAttested]
    rw [Finset.mem_union, Finset.mem_union, List.mem_toFinset, List.mem_toFinset,
      List.mem_toFinset, hrevealed, hunrevealed, hself, Table.mem_keys_iff]
    constructor
    · rintro ⟨info, hinfo⟩
      rcases hon.attributes r info hinfo with ⟨ra, names, hr, -⟩ | ⟨-, hself, -⟩
      · obtain ⟨i, c, info, ha⟩ := h.exists_assigned hr
        cases hrev : ra.revealed with
        | true => exact Or.inl (Or.inl ⟨i, (h.revealedIndex_iff hon).mpr ⟨ra, c, info, ha, hrev⟩⟩)
        | false => exact Or.inl (Or.inr ⟨i, h.unrevealedIndex_iff.mpr ⟨ra, c, info, ha, hrev⟩⟩)
      · exact Or.inr hself
    · rintro ((⟨i, hi⟩ | ⟨i, hi⟩) | ⟨v, hv⟩)
      · obtain ⟨ra, c, info, ha, -⟩ := (h.revealedIndex_iff hon).mp hi
        exact ⟨info, ha.requested⟩
      · obtain ⟨ra, c, info, ha, -⟩ := h.unrevealedIndex_iff.mp hi
        exact ⟨info, ha.requested⟩
      · exact hon.selfAttested r v hv
  have hpreds : proofReq.requestedPredicates.keys.toFinset = recv.predicates.keys.toFinset := by
    ext r
    have hindex : r ∈ recv.predicates.keys ↔
        ∃ i, proof.requestedProof.predicateIndex r = some i := by
      refine mem_keys_received_iff (hof.predicates r) fun i hi => ?_
      obtain ⟨key, c, -, hplace⟩ := h.predicateIndex_iff.mp hi
      exact hbound hplace
    rw [List.mem_toFinset, List.mem_toFinset, hindex, Table.mem_keys_iff]
    constructor
    · rintro ⟨info, hinfo⟩
      obtain ⟨key, hkey, -⟩ := hon.predicates r info hinfo
      obtain ⟨i, c, hplace⟩ := h.predicate_place hkey
      exact ⟨i, h.predicateIndex_iff.mpr ⟨key, c, hkey, hplace⟩⟩
    · rintro ⟨i, hi⟩
      obtain ⟨key, c, hkey, -⟩ := h.predicateIndex_iff.mp hi
      exact h.exists_predicate hkey
  unfold compareAttrFromProofAndRequest
  rw [if_neg (not_not.mpr hattrs), if_neg (not_not.mpr hpreds)]

theorem Made.timestamps {recv : Received} (hrecv : received proof = .ok recv) :
    compareTimestampsFromProofAndRequest proofReq recv = .ok () := by
  have hof := Received.of_received hrecv
  have hvalid : ∀ interval {t : Table String Identifier} {r identifier},
      t.lookup r = some identifier →
      (AsksNonRevocation proofReq interval → identifier.timestamp.isSome) →
      validateTimestamp t r proofReq.nonRevoked interval = .ok () := by
    intro interval t r identifier hlookup htime
    by_cases hask : AsksNonRevocation proofReq interval
    · exact (validateTimestamp_eq_ok_iff hask).mpr ⟨identifier, hlookup, htime hask⟩
    · unfold validateTimestamp
      rw [if_pos (by simpa [AsksNonRevocation] using hask)]
  have hstamp : ∀ (c : Credential P.CredentialSignature) timestamp,
      (proofIdentifier node13 version c timestamp).timestamp = timestamp := by
    intro c timestamp
    cases version <;> rfl
  unfold compareTimestampsFromProofAndRequest
  rw [except_bind_eq_ok]
  refine ⟨(), forM_eq_ok_iff.mpr ?_, forM_eq_ok_iff.mpr ?_⟩
  · rintro ⟨r, info⟩ hmem
    have hinfo := Table.mem_entries_iff.mp hmem
    rcases hon.attributes r info hinfo with ⟨ra, names, hr, -⟩ | ⟨-, ⟨v, hv⟩, -⟩
    · obtain ⟨i, c, info', ha⟩ := h.exists_assigned hr
      obtain rfl : info' = info := Option.some.inj (ha.requested.symm.trans hinfo)
      obtain ⟨-, -, -, -, htime, -⟩ := hon.assigned_names ha
      have hid := (h.round ha.place).1
      cases hrev : ra.revealed with
      | true =>
        have hlookup := hof.revealed r
        rw [(h.revealedIndex_iff hon).mpr ⟨ra, c, info', ha, hrev⟩, Option.bind_some, hid]
          at hlookup
        have hok := hvalid info'.nonRevoked hlookup (by rwa [hstamp])
        simp [hok]
      | false =>
        have hlookup := hof.unrevealed r
        rw [h.unrevealedIndex_iff.mpr ⟨ra, c, info', ha, hrev⟩, Option.bind_some, hid] at hlookup
        have hok := hvalid info'.nonRevoked hlookup (by rwa [hstamp])
        dsimp only
        rw [hok]
        split <;> rfl
    · obtain ⟨cells, preds, hwrote, -⟩ := h.proved.wrote
      have hself : r ∈ recv.selfAttested := by
        rw [hof.selfAttested, receivedSelfAttestedAttrs, List.mem_toFinset, Table.mem_keys_iff]
        exact ⟨v, hwrote.selfAttested ▸ hv⟩
      dsimp only
      rw [if_pos hself]
      split
      · rfl
      · split <;> rfl
  · rintro ⟨r, info⟩ hmem
    have hinfo := Table.mem_entries_iff.mp hmem
    obtain ⟨key, hkey, hfits⟩ := hon.predicates r info hinfo
    obtain ⟨i, c, hplace⟩ := h.predicate_place hkey
    have hlookup := hof.predicates r
    rw [h.predicateIndex_iff.mpr ⟨key, c, hkey, hplace⟩, Option.bind_some, (h.round hplace).1]
      at hlookup
    exact hvalid info.nonRevoked hlookup (by rw [hstamp]; exact hfits.timestamp)

section Restricted
variable {orders : ValueOrders} {recv : Received} (hrecv : received proof = .ok recv)
include hrecv

omit hon in
theorem Made.mem_selfAttested_iff : r ∈ recv.selfAttested ↔
    ∃ v, rc.selfAttestedAttributes.lookup r = some v := by
  obtain ⟨cells, preds, hwrote, -⟩ := h.proved.wrote
  rw [(Received.of_received hrecv).selfAttested, receivedSelfAttestedAttrs, List.mem_toFinset,
    Table.mem_keys_iff, ← hwrote.selfAttested]

/-- The attributes that are not left to the prover are the assigned ones. -/
theorem Made.mem_requestedAttrs_iff : ⟨r, info⟩ ∈ requestedAttrs proofReq recv.selfAttested ↔
    ∃ ra i c, Assigned proofReq rc objects rounds r ra i c info := by
  rw [requestedAttrs, List.mem_filter, Table.mem_entries_iff]
  constructor
  · rintro ⟨hinfo, hself⟩
    rcases hon.attributes r info hinfo with ⟨ra, names, hr, -⟩ | ⟨-, hv, hempty⟩
    · obtain ⟨i, c, info', ha⟩ := h.exists_assigned hr
      obtain rfl : info' = info := Option.some.inj (ha.requested.symm.trans hinfo)
      exact ⟨ra, i, c, ha⟩
    · have hmem := (h.mem_selfAttested_iff hrecv).mpr hv
      have hattested : isSelfAttested r info recv.selfAttested = true := by
        unfold isSelfAttested
        cases hq : info.restrictions with
        | none => simpa using hmem
        | some q => simp [hempty q hq, hmem]
      simp [hattested] at hself
  · rintro ⟨ra, i, c, ha⟩
    obtain ⟨-, -, -, -, -, hnone⟩ := hon.assigned_names ha
    have hmem : r ∉ recv.selfAttested := by
      rw [h.mem_selfAttested_iff hrecv, hnone]
      simp
    refine ⟨ha.requested, ?_⟩
    unfold isSelfAttested
    cases info.restrictions <;> simp [hmem]

/-- The restrictions of an attribute pass unless it is a group that is not revealed. -/
theorem Made.attribute_passes_iff (ha : Assigned proofReq rc objects rounds r ra i c info) :
    verifyAttributeRestrictions lc orders proof (proofAttrIdentifiers recv) r info = .ok () ↔
      (ra.revealed = false → info.name = none → info.restrictions = none) := by
  obtain ⟨names, hnames, hall, hsat, -⟩ := hon.assigned_names ha
  unfold verifyAttributeRestrictions
  cases hq : info.restrictions with
  | none => simp
  | some q =>
    obtain ⟨hover, filter, hfilter, hholds⟩ := hsat q hq
    have hgather : gatherFilterInfo r (proofAttrIdentifiers recv) = .ok filter := by
      unfold gatherFilterInfo
      rw [(Received.of_received hrecv).checked r, (h.checkedIndex_iff hon).mpr ⟨ra, c, info, ha⟩,
        Option.bind_some, (h.round ha.place).1]
      exact hfilter
    have hop := fun values =>
      doProcessOperator_of_satisfies lc hover hholds ⟨values, orders.ofAttribute r⟩
    simp only [except_bind_eq_ok, extendErr_eq_ok_iff]
    constructor
    · rintro ⟨filter', -, values, hvalues, -⟩ hrev hname
      have hnames' : info.names = some names := by
        simpa [AttributeInfo.allNames, hname] using hnames
      have hnone : proof.requestedProof.revealedAttrGroups.lookup r = none := by
        rw [Option.eq_none_iff_forall_ne_some]
        intro entry hentry
        obtain ⟨ra', i', c', info', ha', hrev', -⟩ := h.groups_iff.mp hentry
        obtain ⟨rfl, -⟩ := h.assigned_unique ha ha'
        rw [hrev] at hrev'
        cases hrev'
      simp [nameValueMap, hname, hnames', hnone] at hvalues
    · intro hcond
      obtain ⟨values, hvalues⟩ : ∃ values, nameValueMap proof r info = .ok values := by
        unfold nameValueMap
        cases hname : info.name with
        | some name => exact ⟨_, rfl⟩
        | none =>
          have hnames' : info.names = some names := by
            simpa [AttributeInfo.allNames, hname] using hnames
          cases hrev : ra.revealed with
          | false => cases hcond hrev hname
          | true =>
            obtain ⟨group, hgroup⟩ := exists_groupValues hall
            rw [hnames', h.groups_iff.mpr
              ⟨ra, i, c, info, ha, hrev, hname, names, group, hnames', hgroup, rfl⟩]
            exact ⟨_, rfl⟩
      exact ⟨filter, hgather, values, hvalues, hop values⟩

/-- The values for a predicate are collected without a panic. -/
theorem Made.exists_attrValueMap (name : String) (j : ℕ) :
    ∃ values, attrValueMap proofReq proof recv.selfAttested name j = .ok values := by
  have hfound : ∀ e ∈ proof.requestedProof.revealedAttrs.entries, ∃ e',
      (requestedAttrs proofReq recv.selfAttested).find? (fun e' => e'.1 = e.1) = some e' := by
    rintro ⟨r, entry⟩ he
    obtain ⟨ra, i, c, info, ha, -⟩ := h.revealed_iff.mp (Table.mem_entries_iff.mp he)
    have hmem := (h.mem_requestedAttrs_iff hon hrecv).mpr ⟨ra, i, c, ha⟩
    rw [← Option.isSome_iff_exists, List.find?_isSome]
    exact ⟨_, hmem, by simp⟩
  have hstep : ∀ map, ∀ e ∈ proof.requestedProof.revealedAttrs.entries,
      ∃ map', addRevealedValue proofReq recv.selfAttested j map e = .ok map' := by
    intro map e he
    obtain ⟨e', he'⟩ := hfound e he
    unfold addRevealedValue
    rw [he']
    split
    · dsimp only
      split
      · exact ⟨_, rfl⟩
      · exact ⟨_, rfl⟩
    · exact ⟨_, rfl⟩
  obtain ⟨map, hmap⟩ := exists_foldlM hstep (AList.singleton name none)
  unfold attrValueMap
  exact ⟨_, by rw [hmap]; rfl⟩

theorem Made.predicate_passes {predicate : PredicateInfo}
    (hr : proofReq.requestedPredicates.lookup r = some predicate) :
    verifyPredicateRestrictions lc orders proofReq proof recv r predicate = .ok () := by
  obtain ⟨key, hkey, hfits⟩ := hon.predicates r predicate hr
  obtain ⟨i, c, hplace⟩ := h.predicate_place hkey
  obtain ⟨c', hc', -, hsat⟩ := hfits.credential
  obtain rfl : c = c' := Option.some.inj (hplace.2.symm.trans hc')
  unfold verifyPredicateRestrictions
  cases hq : predicate.restrictions with
  | none => rfl
  | some q =>
    obtain ⟨hover, filter, hfilter, hholds⟩ := hsat q hq
    have hentry : proof.requestedProof.predicates.lookup r = some ⟨i⟩ :=
      h.predicates_iff.mpr ⟨key, c, hkey, hplace⟩
    have hgather : gatherFilterInfo r recv.predicates = .ok filter := by
      unfold gatherFilterInfo
      rw [(Received.of_received hrecv).predicates r,
        h.predicateIndex_iff.mpr ⟨key, c, hkey, hplace⟩, Option.bind_some, (h.round hplace).1]
      exact hfilter
    obtain ⟨values, hvalues⟩ := h.exists_attrValueMap hon hrecv predicate.name i
    have hop := doProcessOperator_of_satisfies lc hover hholds ⟨values, orders.ofPredicate r⟩
    simp [hgather, hentry, hvalues, hop, ofIndyResult, extendErr]

end Restricted

section Rebuilt

/-- The attributes that the verifier asks a sub-proof for are the revealed ones assigned to it. -/
theorem Made.mem_getRevealed_iff : info ∈ getRevealedAttributesForCredential proofReq proof i ↔
    ∃ r ra c, Assigned proofReq rc objects rounds r ra i c info ∧ ra.revealed = true := by
  rw [getRevealedAttributesForCredential, List.mem_append, List.mem_filterMap, List.mem_filterMap]
  constructor
  · rintro (⟨⟨r, entry⟩, hmem, hsome⟩ | ⟨⟨r, entry⟩, hmem, hsome⟩)
    · obtain ⟨ra, j, c, info', ha, hrev, name, values, -, -, rfl⟩ :=
        h.revealed_iff.mp (Table.mem_entries_iff.mp hmem)
      split_ifs at hsome with hi
      obtain rfl : i = j := hi
      obtain rfl : info' = info := Option.some.inj (ha.requested.symm.trans hsome)
      exact ⟨r, ra, c, ha, hrev⟩
    · obtain ⟨ra, j, c, info', ha, hrev, -, names, values, -, -, rfl⟩ :=
        h.groups_iff.mp (Table.mem_entries_iff.mp hmem)
      split_ifs at hsome with hi
      obtain rfl : i = j := hi
      obtain rfl : info' = info := Option.some.inj (ha.requested.symm.trans hsome)
      exact ⟨r, ra, c, ha, hrev⟩
  · rintro ⟨r, ra, c, ha, hrev⟩
    have hindex := (h.revealedIndex_iff hon).mpr ⟨ra, c, info, ha, hrev⟩
    unfold RequestedProof.revealedIndex at hindex
    rw [Option.or_eq_some_iff] at hindex
    rcases hindex with hindex | ⟨-, hindex⟩
    · obtain ⟨entry, hentry, hi⟩ := Option.map_eq_some_iff.mp hindex
      exact Or.inr
        ⟨⟨r, entry⟩, Table.mem_entries_iff.mpr hentry, by rw [if_pos hi.symm]; exact ha.requested⟩
    · obtain ⟨entry, hentry, hi⟩ := Option.map_eq_some_iff.mp hindex
      exact Or.inl
        ⟨⟨r, entry⟩, Table.mem_entries_iff.mpr hentry, by rw [if_pos hi.symm]; exact ha.requested⟩

omit hon in
theorem Made.mem_getPredicates_iff {predicate : PredicateInfo} :
    predicate ∈ getPredicatesForCredential proofReq proof i ↔
      ∃ r key c, rc.requestedPredicates.lookup r = some key ∧ MadeFrom objects rounds i key c ∧
        proofReq.requestedPredicates.lookup r = some predicate := by
  rw [getPredicatesForCredential, List.mem_filterMap]
  constructor
  · rintro ⟨⟨r, entry⟩, hmem, hsome⟩
    obtain ⟨key, c, hkey, hplace⟩ := h.predicates_iff.mp (Table.mem_entries_iff.mp hmem)
    split_ifs at hsome with hi
    exact ⟨r, key, c, hkey, hi ▸ hplace, hsome⟩
  · rintro ⟨r, key, c, hkey, hplace, hpredicate⟩
    have hentry : proof.requestedProof.predicates.lookup r = some ⟨i⟩ :=
      h.predicates_iff.mpr ⟨key, c, hkey, hplace⟩
    exact ⟨⟨r, ⟨i⟩⟩, Table.mem_entries_iff.mpr hentry, by rw [if_pos rfl]; exact hpredicate⟩

omit hon in
/-- The attributes that the prover handles in a round are those assigned to it. -/
theorem Made.mem_round_iff {e : (_ : ProvingCredentialKey) × ForCredential}
    (hi : rounds[i]? = some e) {attr : RequestedAttributeInfo} : attr ∈ e.2.1 ↔
      ∃ ra c, Assigned proofReq rc objects rounds attr.attrReferent ra i c attr.attrInfo ∧
        attr.revealed = ra.revealed := by
  obtain ⟨credential, input, hcred, -⟩ := h.proved.round i e hi
  constructor
  · intro hattr
    obtain ⟨ra, hr, hplace, hinfo, hrev⟩ :=
      (h.mem_cells_iff ⟨i, credential, attr⟩).mp ⟨e, hi, hcred, hattr⟩
    exact ⟨ra, credential, ⟨hr, hplace, hinfo⟩, hrev⟩
  · rintro ⟨ra, c, ha, hrev⟩
    obtain ⟨e', hi', -, hattr⟩ := (h.mem_cells_iff ⟨i, c, attr⟩).mpr
      ⟨ra, ha.assigned, ha.place, ha.requested, hrev⟩
    obtain rfl : e = e' := Option.some.inj (hi.symm.trans hi')
    exact hattr

/-- The verifier rebuilds the request that the prover made. -/
theorem Made.rebuilt {e : (_ : ProvingCredentialKey) × ForCredential} (hi : rounds[i]? = some e) :
    rebuiltSubProofRequest lc proofReq proof i = .ok (proverSubProofRequest lc e.2) := by
  have hnames : ∀ info ∈ getRevealedAttributesForCredential proofReq proof i,
      namesToReveal info.allNames = .ok (info.allNames.getD []) := by
    intro info hinfo
    obtain ⟨r, ra, c, ha, -⟩ := (h.mem_getRevealed_iff hon).mp hinfo
    obtain ⟨names, hnames, -⟩ := hon.assigned_names ha
    rw [hnames]
    rfl
  unfold rebuiltSubProofRequest buildSubProofRequest
  rw [mapM_eq_ok_map hnames, except_ok_bind, except_pure]
  congr 1
  rw [proverSubProofRequest, SubProofRequest.mk.injEq]
  refine ⟨?_, ?_⟩
  · ext x
    simp only [List.mem_toFinset, List.mem_map, List.mem_flatten, List.mem_flatMap, List.mem_filter]
    constructor
    · rintro ⟨n, ⟨names, ⟨info, hinfo, rfl⟩, hn⟩, rfl⟩
      obtain ⟨r, ra, c, ha, hrev⟩ := (h.mem_getRevealed_iff hon).mp hinfo
      exact ⟨⟨r, info, ra.revealed⟩, ⟨(h.mem_round_iff hi).mpr ⟨ra, c, ha, rfl⟩, hrev⟩, n, hn, rfl⟩
    · rintro ⟨⟨r, info, revealed⟩, ⟨hattr, hrev⟩, n, hn, rfl⟩
      obtain ⟨ra, c, ha, hra⟩ := (h.mem_round_iff hi).mp hattr
      exact ⟨n,
        ⟨_, ⟨info, (h.mem_getRevealed_iff hon).mpr ⟨r, ra, c, ha, hra ▸ hrev⟩, rfl⟩, hn⟩, rfl⟩
  · ext x
    simp only [List.mem_toFinset, List.mem_map]
    obtain ⟨credential, input, hcred, -⟩ := h.proved.round i e hi
    obtain ⟨key, fc⟩ := e
    have hfc := h.forCredential hi
    constructor
    · rintro ⟨predicate, hpredicate, rfl⟩
      obtain ⟨r, key', c, hkey', hplace, hinfo⟩ := h.mem_getPredicates_iff.mp hpredicate
      obtain rfl : key = key' := by
        have hplace₁ := hplace.1
        rw [hi] at hplace₁
        exact Option.some.inj hplace₁
      refine ⟨⟨r, predicate⟩, ?_, rfl⟩
      rw [hfc]
      exact List.mem_filterMap.mpr ⟨⟨r, key⟩, Table.mem_entries_iff.mpr hkey', by simp [hinfo]⟩
    · rintro ⟨⟨r, predicate⟩, hmem, rfl⟩
      rw [hfc] at hmem
      obtain ⟨⟨r', key'⟩, hentry, hsome⟩ := List.mem_filterMap.mp hmem
      split_ifs at hsome with hkey
      obtain ⟨predicate', hinfo, hsame⟩ := Option.map_eq_some_iff.mp hsome
      obtain ⟨rfl, rfl⟩ := (RequestedPredicateInfo.mk.injEq ..).mp hsame
      obtain rfl : key' = key := hkey
      refine ⟨predicate', h.mem_getPredicates_iff.mpr
        ⟨r', key', credential, Table.mem_entries_iff.mp hentry, ?_, hinfo⟩, rfl⟩
      exact ⟨by rw [hi]; rfl, hcred⟩

end Rebuilt

section Revealed
variable (hursa : P.RevealsRequested)
include hursa

omit h hon hursa in
theorem attrCommonView_idem (n : String) :
    attrCommonView lc (attrCommonView lc n) = attrCommonView lc n := by
  have hspace : ' ' ∉ (attrCommonView lc n).toList := lc.space _ (by simp [removeSpaces])
  have hkeep : removeSpaces (attrCommonView lc n) = attrCommonView lc n := by
    unfold removeSpaces
    rw [List.filter_eq_self.mpr, String.ofList_toList]
    intro c hc
    have hne : c ≠ ' ' := fun hc' => hspace (hc' ▸ hc)
    simpa using hne
  rw [attrCommonView, hkeep]
  exact lc.idem _

omit h hon hursa in
theorem provingInput_spec {key : ProvingCredentialKey} {fc : ForCredential} {input : P.Input}
    (hinput : provingInput lc masterSecret objects key fc c = .ok input) :
    input.subProofRequest = proverSubProofRequest lc fc ∧
    buildCredentialValues lc U c.values = .ok input.values := by
  unfold provingInput at hinput
  simp only [except_bind_eq_ok] at hinput
  obtain ⟨schema, -, credDef, -, revState, -, pubKey, -, values, hvalues, -, -, hinput⟩ := hinput
  obtain rfl := Except.ok.inj hinput
  exact ⟨rfl, hvalues⟩

omit hon in
/-- What ursa reveals for a name is the last value that the credential has for it. -/
theorem Made.exists_revealed (ha : Assigned proofReq rc objects rounds r ra i c info)
    (hrev : ra.revealed = true)
    (hnames : info.allNames = some names) {n : String} (hn : n ∈ names) {v' : AttributeValue}
    (hv' : lastCredentialValue lc c.values n = some v') :
    ∃ subProof revealed e number, proof.proof.proofs[i]? = some subProof ∧
      U.revealedAttrs subProof = .ok revealed ∧
      (revealed.entries.find? fun e => attrCommonView lc n = attrCommonView lc e.1) = some e ∧
      U.fromDec e.2 = .ok number ∧ U.fromDec v'.encoded = .ok number := by
  obtain ⟨-, fc, input, hround, hinput, hin⟩ := h.round ha.place
  obtain ⟨hrequest, hvalues⟩ := provingInput_spec hinput
  obtain ⟨subProof, revealed, hsub, hrevealed, hkeys, hnumbers⟩ :=
    hursa _ _ _ _ h.finalized i input hin
  -- the keys of what is revealed are common views, so the entry that is found is the one of this
  -- name
  have hview : ∀ k ∈ revealed.keys, attrCommonView lc k = k := by
    intro k hk
    rw [hkeys, hrequest, proverSubProofRequest, List.mem_toFinset, List.mem_flatMap] at hk
    obtain ⟨attr, -, hk⟩ := hk
    obtain ⟨name, -, rfl⟩ := List.mem_map.mp hk
    exact attrCommonView_idem name
  have hasked : attrCommonView lc n ∈ revealed.keys := by
    rw [hkeys, hrequest, proverSubProofRequest, List.mem_toFinset, List.mem_flatMap]
    have hattr : ⟨r, info, ra.revealed⟩ ∈ fc.1 := (h.mem_round_iff hround).mpr ⟨ra, c, ha, rfl⟩
    exact ⟨⟨r, info, ra.revealed⟩, List.mem_filter.mpr ⟨hattr, hrev⟩,
      by simpa [hnames] using ⟨n, hn, rfl⟩⟩
  obtain ⟨value, hvalue⟩ := Table.mem_keys_iff.mp hasked
  obtain ⟨e, hfind⟩ : ∃ e,
      (revealed.entries.find? fun e => attrCommonView lc n = attrCommonView lc e.1) = some e := by
    rw [← Option.isSome_iff_exists, List.find?_isSome]
    exact ⟨⟨_, value⟩, Table.mem_entries_iff.mpr hvalue, by simp [attrCommonView_idem]⟩
  have hmem : e ∈ revealed.entries := List.mem_of_find?_eq_some hfind
  have hname : e.1 = attrCommonView lc n := by
    have hsame : attrCommonView lc n = attrCommonView lc e.1 := by simpa using List.find?_some hfind
    rw [hsame]
    exact (hview e.1 (List.mem_map_of_mem hmem)).symm
  obtain ⟨number, hnumber, hlookup⟩ := lookup_buildCredentialValues hvalues hv'
  have he : revealed.lookup (attrCommonView lc n) = some e.2 := by
    rw [← hname]
    exact Table.mem_entries_iff.mp hmem
  exact ⟨subProof, revealed, e, number, hsub, hrevealed, hfind, hnumbers _ _ _ he hlookup, hnumber⟩

omit hon in
/-- A revealed value passes when it is the number that was signed. -/
theorem Made.revealedValue_passes_iff (ha : Assigned proofReq rc objects rounds r ra i c info)
    (hrev : ra.revealed = true) (hnames : info.allNames = some names) {n : String} (hn : n ∈ names)
    {v : AttributeValue} (hv : getCredentialValuesForAttribute lc c.values n = some v) :
    verifyRevealedAttributeValue lc proof n ⟨i, v.raw, v.encoded⟩ = .ok () ↔ OneValue lc U c n := by
  obtain ⟨v', hv'⟩ := exists_lastCredentialValue hv
  obtain ⟨subProof, revealed, e, number, hsub, hrevealed, hfind, hnumber, hnumber'⟩ :=
    h.exists_revealed hursa ha hrev hnames hn hv'
  have hone : OneValue lc U c n ↔ U.fromDec v.encoded = U.fromDec v'.encoded := by
    constructor
    · intro hone
      exact hone v v' hv hv'
    · rintro hsame w w' hw hw'
      obtain rfl : v = w := Option.some.inj (hv.symm.trans hw)
      obtain rfl : v' = w' := Option.some.inj (hv'.symm.trans hw')
      exact hsame
  rw [hone]
  unfold verifyRevealedAttributeValue
  simp only [hsub, hrevealed, hfind, except_ok_bind, hnumber, hnumber']
  cases hdec : U.fromDec v.encoded with
  | error err => simp
  | ok number₁ =>
    by_cases hsame : number₁ = number
    · simp [hsame]
    · simp [hsame]

omit hon in
/-- A revealed group passes when it names each name once and its values are the signed ones. -/
theorem Made.group_passes_iff (ha : Assigned proofReq rc objects rounds r ra i c info)
    (hrev : ra.revealed = true) (hnames : info.allNames = some names)
    (hfound : ∀ n ∈ names, (getCredentialValuesForAttribute lc c.values n).isSome)
    {values : Table String AttributeValue} (hvalues : groupValues lc c names = .ok values) :
    verifyRevealedAttributeGroup lc proof names ⟨i, values⟩ = .ok () ↔ names.Nodup ∧
    ∀ n ∈ names, OneValue lc U c n := by
  unfold verifyRevealedAttributeGroup
  rw [← length_groupValues hvalues hfound]
  dsimp only
  by_cases hlength : values.entries.length = names.length
  · rw [if_neg (not_not.mpr hlength), forM_eq_ok_iff, and_iff_right hlength]
    apply forall₂_congr
    intro n hn
    obtain ⟨v, hv⟩ := Option.isSome_iff_exists.mp (hfound n hn)
    rw [lookup_groupValues hvalues, if_pos hn, hv]
    exact h.revealedValue_passes_iff hursa ha hrev hnames hn hv
  · rw [if_pos hlength]
    simp [hlength]

/-- The revealed values pass when every revealed attribute or group does. -/
theorem Made.values_pass_iff : verifyRevealedAttributeValues lc proofReq proof = .ok () ↔
    ∀ r ra i c info names, Assigned proofReq rc objects rounds r ra i c info → ra.revealed = true →
      info.allNames = some names → (info.name = none → names.Nodup) ∧
      ∀ n ∈ names, OneValue lc U c n := by
  unfold verifyRevealedAttributeValues
  rw [except_bind_eq_ok]
  simp only [forM_eq_ok_iff, exists_const]
  constructor
  · rintro ⟨hsingle, hgroups⟩ r ra i c info names ha hrev hnames
    obtain ⟨names', hnames', hfound, -⟩ := hon.assigned_names ha
    obtain rfl : names = names' := Option.some.inj (hnames.symm.trans hnames')
    cases hname : info.name with
    | some name =>
      obtain rfl : [name] = names := by simpa [AttributeInfo.allNames, hname] using hnames
      obtain ⟨v, hv⟩ := Option.isSome_iff_exists.mp (hfound name (by simp))
      have hentry := h.revealed_iff.mpr ⟨ra, i, c, info, ha, hrev, name, v, hname, hv, rfl⟩
      have hpass := hsingle _ (Table.mem_entries_iff.mpr hentry)
      simp only [requestedName, ha.requested, Option.bind_some, hname, except_ok_bind] at hpass
      have hone := (h.revealedValue_passes_iff hursa ha hrev hnames (by simp) hv).mp hpass
      simpa using hone
    | none =>
      have hgroup : info.names = some names := by simpa [AttributeInfo.allNames, hname] using hnames
      obtain ⟨values, hvalues⟩ := exists_groupValues hfound
      have hentry :=
        h.groups_iff.mpr ⟨ra, i, c, info, ha, hrev, hname, names, values, hgroup, hvalues, rfl⟩
      have hpass := hgroups _ (Table.mem_entries_iff.mpr hentry)
      simp only [requestedName, ha.requested, Option.bind_some, hgroup, except_ok_bind] at hpass
      obtain ⟨hnodup, hone⟩ := (h.group_passes_iff hursa ha hrev hnames hfound hvalues).mp hpass
      exact ⟨fun _ => hnodup, hone⟩
  · intro hall
    refine ⟨?_, ?_⟩
    · rintro ⟨r, entry⟩ hmem
      obtain ⟨ra, i, c, info, ha, hrev, name, v, hname, hv, rfl⟩ :=
        h.revealed_iff.mp (Table.mem_entries_iff.mp hmem)
      have hnames : info.allNames = some [name] := by simp [AttributeInfo.allNames, hname]
      have hone := (hall r ra i c info [name] ha hrev hnames).2 name (by simp)
      simp only [requestedName, ha.requested, Option.bind_some, hname, except_ok_bind]
      exact (h.revealedValue_passes_iff hursa ha hrev hnames (by simp) hv).mpr hone
    · rintro ⟨r, entry⟩ hmem
      obtain ⟨ra, i, c, info, ha, hrev, hname, names, values, hgroup, hvalues, rfl⟩ :=
        h.groups_iff.mp (Table.mem_entries_iff.mp hmem)
      have hnames : info.allNames = some names := by
        simpa [AttributeInfo.allNames, hname] using hgroup
      obtain ⟨names', hnames', hfound, -⟩ := hon.assigned_names ha
      obtain rfl : names = names' := Option.some.inj (hnames.symm.trans hnames')
      obtain ⟨honce, hone⟩ := hall r ra i c info names ha hrev hnames
      simp only [requestedName, ha.requested, Option.bind_some, hgroup, except_ok_bind]
      exact (h.group_passes_iff hursa ha hrev hnames hfound hvalues).mpr ⟨honce hname, hone⟩

end Revealed

end Checks

section Passing
variable {U : Ursa} {P : UrsaProver U} {lc : Lowercase} {node13 : Bool}
  {order : Shuffle ((_ : ProvingCredentialKey) × ForCredential)} {version : ProofRequestsVersion}
  {proofReq : ProofRequestPayload U.Nonce} {rc : RequestedCredentials}
  {masterSecret : P.MasterSecret}
  {objects : ProverObjects P} {rounds : List ((_ : ProvingCredentialKey) × ForCredential)}
  {inputs : List P.Input} {proof : Proof U} {orders : ValueOrders} {ledger : LedgerObjects U}

/-- The proof passes what the verifier checks without ursa, and for every sub-proof the verifier
asks ursa for what the prover asked for. -/
structure PassesChecks (lc : Lowercase) (orders : ValueOrders)
    (order : Shuffle ((_ : ProvingCredentialKey) × ForCredential))
    (proofReq : ProofRequestPayload U.Nonce) (rc : RequestedCredentials) (ledger : LedgerObjects U)
    (proof : Proof U) :
    Prop where
  structural : structuralChecks lc orders proofReq proof = .ok ()
  subProofs : ∃ rounds, credentialsForProving order proofReq rc = .ok rounds ∧
    ∀ (i : ℕ) identifier, proof.identifiers[i]? = some identifier → ∃ e parts, rounds[i]? = some e ∧
      subProofParts lc proofReq proof ledger i identifier = .ok parts ∧
      parts.2.2.2 = proverSubProofRequest lc e.2

theorem LedgerObjects.Has.exists_registry {identifier : Identifier} (h : ledger.Has identifier) :
    ∃ registry, registryOf ledger identifier = .ok registry := by
  unfold registryOf
  cases htime : identifier.timestamp with
  | none => exact ⟨_, rfl⟩
  | some timestamp =>
    obtain ⟨revRegId, key, registries, registry, hid, hkey, hregistries, hregistry⟩ :=
      h.registry timestamp htime
    refine ⟨(some key, some registry), ?_⟩
    simp [hid, hkey, hregistries, hregistry, notFound]

theorem LedgerObjects.Has.exists_parts {identifier : Identifier} {i : ℕ} {request : SubProofRequest}
    (h : ledger.Has identifier)
    (hrequest : rebuiltSubProofRequest lc proofReq proof i = .ok request) :
    ∃ parts, subProofParts lc proofReq proof ledger i identifier = .ok parts ∧
      parts.2.2.2 = request := by
  obtain ⟨schema, hschema⟩ := h.schema
  obtain ⟨credDef, hcredDef⟩ := h.credDef
  obtain ⟨registry, hregistry⟩ := h.exists_registry
  refine ⟨(schema, credDef, registry, request), ?_, rfl⟩
  unfold subProofParts
  simp [hschema, hcredDef, hregistry, hrequest, notFound]

theorem Made.exists_round_of_identifier
    (h : Made lc node13 version proofReq rc masterSecret objects rounds inputs proof) {i : ℕ}
    {identifier : Identifier}
    (hi : proof.identifiers[i]? = some identifier) : ∃ e, rounds[i]? = some e := by
  obtain ⟨hlt, -⟩ := List.getElem?_eq_some_iff.mp hi
  have hlength := h.proved.identifiersLength
  exact ⟨_, List.getElem?_eq_getElem (hlength ▸ hlt)⟩

/-- The values and the restrictions pass when the prover kept away from what does not pass. -/
theorem Made.checks_pass_iff
    (h : Made lc node13 version proofReq rc masterSecret objects rounds inputs proof)
    (hon : Honest lc node13 version proofReq rc objects) (hursa : P.RevealsRequested)
    {recv : Received} (hrecv : received proof = .ok recv) :
    (verifyRevealedAttributeValues lc proofReq proof = .ok () ∧
      ∀ e ∈ requestedAttrs proofReq recv.selfAttested,
        verifyAttributeRestrictions lc orders proof (proofAttrIdentifiers recv) e.1 e.2 = .ok ()) ↔
    Passable lc proofReq rc objects := by
  rw [h.values_pass_iff hon hursa]
  constructor
  · rintro ⟨hvalues, hattrs⟩
    refine ⟨?_, ?_, ?_⟩
    · intro r ra info hr hrev hinfo hname
      obtain ⟨i, c, info', ha⟩ := h.exists_assigned hr
      obtain rfl : info' = info := Option.some.inj (ha.requested.symm.trans hinfo)
      have hpass := hattrs _ ((h.mem_requestedAttrs_iff hon hrecv).mpr ⟨ra, i, c, ha⟩)
      exact (h.attribute_passes_iff hon hrecv ha).mp hpass hrev hname
    · intro r ra info names hr hrev hinfo hname hnames
      obtain ⟨i, c, info', ha⟩ := h.exists_assigned hr
      obtain rfl : info' = info := Option.some.inj (ha.requested.symm.trans hinfo)
      have hall : info'.allNames = some names := by
        simpa [AttributeInfo.allNames, hname] using hnames
      exact (hvalues r ra i c info' names ha hrev hall).1 hname
    · intro r ra info names c n hr hrev hinfo hall hn hc
      obtain ⟨i, c', info', ha⟩ := h.exists_assigned hr
      obtain rfl : info' = info := Option.some.inj (ha.requested.symm.trans hinfo)
      obtain rfl : c' = c := Option.some.inj (ha.place.2.symm.trans hc)
      exact (hvalues r ra i c' info' names ha hrev hall).2 n hn
  · intro hpass
    refine ⟨?_, ?_⟩
    · intro r ra i c info names ha hrev hall
      refine ⟨?_, fun n hn =>
        hpass.oneValue r ra info names c n ha.assigned hrev ha.requested hall hn ha.place.2⟩
      intro hname
      have hnames : info.names = some names := by simpa [AttributeInfo.allNames, hname] using hall
      exact hpass.namesOnce r ra info names ha.assigned hrev ha.requested hname hnames
    · rintro ⟨r, info⟩ hmem
      obtain ⟨ra, i, c, ha⟩ := (h.mem_requestedAttrs_iff hon hrecv).mp hmem
      exact (h.attribute_passes_iff hon hrecv ha).mpr fun hrev hname =>
        hpass.hiddenGroup r ra info ha.assigned hrev ha.requested hname

/-- The proof of an honest prover passes exactly when no group with restrictions stays unrevealed,
no revealed group repeats a name, and the credentials have one value for each revealed name. -/
theorem honest_proof_passes_iff (hon : Honest lc node13 version proofReq rc objects)
    (hursa : P.RevealsRequested)
    (hproof : createProof lc node13 order version proofReq rc masterSecret objects = .ok proof)
    (hledger : ∀ identifier ∈ proof.identifiers, ledger.Has identifier) :
    PassesChecks lc orders order proofReq rc ledger proof ↔ Passable lc proofReq rc objects := by
  obtain ⟨rounds, inputs, hrounds, h⟩ := exists_made hproof
  obtain ⟨recv, hrecv⟩ := h.exists_received
  rw [← @Made.checks_pass_iff _ _ _ _ _ _ _ _ _ _ _ _ orders h hon hursa recv hrecv]
  constructor
  · intro hpass
    obtain ⟨recv', hrecv', -, hvalues, hattrs, -⟩ := structuralChecks_eq_ok_iff.mp hpass.structural
    obtain rfl : recv = recv' := Except.ok.inj (hrecv.symm.trans hrecv')
    exact ⟨hvalues, hattrs⟩
  · rintro ⟨hvalues, hattrs⟩
    refine ⟨structuralChecks_eq_ok_iff.mpr ⟨recv, hrecv, h.compared hon hrecv, hvalues, hattrs, ?_,
      h.timestamps hon hrecv⟩, rounds, hrounds, ?_⟩
    · rintro ⟨r, predicate⟩ hmem
      exact h.predicate_passes hon hrecv (Table.mem_entries_iff.mp hmem)
    · intro i identifier hi
      obtain ⟨e, he⟩ := h.exists_round_of_identifier hi
      obtain ⟨parts, hparts, hsame⟩ :=
        (hledger identifier (List.mem_of_getElem? hi)).exists_parts (h.rebuilt hon he)
      exact ⟨e, parts, he, hparts, hsame⟩

end Passing

section Sample

/-- What ursa reveals of the signed values, in decimal. -/
def revealedOf (values : Table String ℤ) (names : Finset String) : Table String String :=
  Table.mapValues (fun _ number => toString number)
    (values.filter fun name _ => decide (name ∈ names))

/-- A sub-proof of `sampleUrsa`; names without a signed value are refused. -/
def sampleSubProof (input : ProvingInput sampleUrsa Unit Unit) : IndyResult sampleUrsa.SubProof :=
  let revealed := revealedOf input.values input.subProofRequest.revealedAttrs
  if input.subProofRequest.revealedAttrs ⊆ input.values.keys.toFinset ∧
      ∀ e ∈ input.values.entries, sampleUrsa.fromDec (toString e.2) = .ok e.2 then .ok revealed
  else .error ⟨.invalidStructure, "Value by key not found in cred_values"⟩

/-- The prover's side of `sampleUrsa`. -/
def sampleProver : UrsaProver sampleUrsa where
  CredentialSignature := Unit
  MasterSecret := Unit
  RevocationState := Unit
  addSubProofRequest _ _ := .ok ()
  finalize _ inputs _ := do
    let proofs ← inputs.mapM sampleSubProof
    pure ⟨proofs, ()⟩

theorem sampleProver_revealsRequested : sampleProver.RevealsRequested := by
  intro masterSecret inputs nonce crypto hok i input hi
  obtain ⟨proofs, hproofs, hok⟩ := except_bind_eq_ok.mp hok
  obtain rfl := Except.ok.inj hok
  obtain ⟨subProof, hsub, hat⟩ := getElem?_of_mapM hproofs hi
  unfold sampleSubProof at hsub
  dsimp only at hsub
  split_ifs at hsub with hcheck
  obtain rfl := Except.ok.inj hsub
  refine ⟨_, _, hat, rfl, ?_, ?_⟩
  · intro n
    rw [revealedOf, Table.keys_mapValues]
    constructor
    · intro hn
      obtain ⟨e, he, rfl⟩ := List.mem_map.mp hn
      simpa using (List.mem_filter.mp he).2
    · intro hn
      have hkey := hcheck.1 hn
      rw [List.mem_toFinset] at hkey
      obtain ⟨e, he, rfl⟩ := List.mem_map.mp hkey
      exact List.mem_map.mpr ⟨e, List.mem_filter.mpr ⟨he, by simpa using hn⟩, rfl⟩
  · intro n v number hv hnumber
    rw [revealedOf, Table.lookup_mapValues] at hv
    obtain ⟨m, hm, rfl⟩ := Option.map_eq_some_iff.mp hv
    have hmem := (List.mem_filter.mp (Table.mem_entries_iff.mpr hm)).1
    obtain rfl : m = number := Option.some.inj ((Table.mem_entries_iff.mp hmem).symm.trans hnumber)
    exact hcheck.2 _ hmem

def memberCredential : Credential Unit :=
  ⟨⟨"NcYxiDXkpYi6ov5FcYDi1e:2:gvt:1.0"⟩, ⟨"NcYxiDXkpYi6ov5FcYDi1e:3:CL:1:tag"⟩, none,
    (AList.singleton "Full Name" ⟨"Alex", "42"⟩).insert "age" ⟨"28", "28"⟩, ()⟩

/-- What restrictions are checked on for the credential. -/
def memberFilter : Filter where
  schemaId := "NcYxiDXkpYi6ov5FcYDi1e:2:gvt:1.0"
  schemaIssuerDid := "NcYxiDXkpYi6ov5FcYDi1e"
  schemaName := "gvt"
  schemaVersion := "1.0"
  credDefId := "NcYxiDXkpYi6ov5FcYDi1e:3:CL:1:tag"
  issuerDid := "NcYxiDXkpYi6ov5FcYDi1e"

theorem filterOf_memberCredential :
    filterOf (proofIdentifier false .v2 memberCredential none) = .ok memberFilter := by
  decide

def memberObjects : ProverObjects sampleProver where
  credentials := AList.singleton "cred" memberCredential
  schemas := AList.singleton memberCredential.schemaId ⟨{"Full Name", "age"}⟩
  credDefs := AList.singleton memberCredential.credDefId ⟨(), none⟩
  revStates := ∅

def memberLedger : LedgerObjects sampleUrsa where
  schemas := AList.singleton memberCredential.schemaId ⟨{"Full Name", "age"}⟩
  credDefs := AList.singleton memberCredential.credDefId ⟨(), none⟩
  revRegDefs := ∅
  revRegs := ∅

/-- Name and age as a group, from a credential of one issuer, and that the holder is of age. -/
def memberRequest : ProofRequestPayload sampleUrsa.Nonce where
  nonce := ()
  requestedAttributes := AList.singleton "group" ⟨none, some ["fullname", "age"],
    some (.eq "issuer_did" "NcYxiDXkpYi6ov5FcYDi1e"), none⟩
  requestedPredicates :=
    AList.singleton "adult" ⟨"age", .ge, 18, some (.eq "schema_name" "gvt"), none⟩
  nonRevoked := none

def memberAnswer (revealed : Bool) : RequestedCredentials :=
  ⟨∅, AList.singleton "group" ⟨"cred", none, revealed⟩, AList.singleton "adult" ⟨"cred", none⟩⟩

def memberProof (revealed : Bool) : Outcome (Proof sampleUrsa) :=
  createProof asciiLowercase false .id .v2 memberRequest (memberAnswer revealed) () memberObjects

theorem memberAnswer_honest (revealed : Bool) :
    Honest asciiLowercase false .v2 memberRequest (memberAnswer revealed) memberObjects := by
  refine ⟨?_, ?_, ?_⟩
  · intro r info hr
    obtain ⟨rfl, rfl⟩ := Table.lookup_singleton_iff.mp hr
    refine Or.inl ⟨_, _, Table.lookup_singleton_iff.mpr ⟨rfl, rfl⟩, rfl, rfl,
      ⟨memberCredential, ?_, ?_, ?_⟩, ?_⟩
    · exact Table.lookup_singleton_iff.mpr ⟨rfl, rfl⟩
    · decide
    · intro q hq
      obtain rfl := Option.some.inj hq
      exact ⟨.eq (.id .issuerDid) trivial, memberFilter, filterOf_memberCredential, by decide⟩
    · intro hask
      cases hask
  · intro r v hv
    cases hv
  · intro r info hr
    obtain ⟨rfl, rfl⟩ := Table.lookup_singleton_iff.mp hr
    refine ⟨_, Table.lookup_singleton_iff.mpr ⟨rfl, rfl⟩, ⟨memberCredential, ?_, ?_, ?_⟩, ?_⟩
    · exact Table.lookup_singleton_iff.mpr ⟨rfl, rfl⟩
    · decide
    · intro q hq
      obtain rfl := Option.some.inj hq
      exact ⟨.eq (.id .schemaName) trivial, memberFilter, filterOf_memberCredential, by decide⟩
    · intro hask
      cases hask

/-- The proof exists, and the ledger has what it names. -/
theorem exists_memberProof (revealed : Bool) : ∃ proof, memberProof revealed = .ok proof ∧
    ∀ identifier ∈ proof.identifiers, memberLedger.Has identifier := by
  have hids : (memberProof revealed).map (·.identifiers) =
      .ok [proofIdentifier false .v2 memberCredential none] := by
    cases revealed <;> decide
  cases hproof : memberProof revealed with
  | error e =>
    rw [hproof] at hids
    cases hids
  | ok proof =>
    rw [hproof] at hids
    have hlist : proof.identifiers = [proofIdentifier false .v2 memberCredential none] :=
      Except.ok.inj hids
    refine ⟨proof, rfl, ?_⟩
    rw [hlist]
    intro identifier hidentifier
    obtain rfl := List.mem_singleton.mp hidentifier
    exact ⟨⟨_, Table.lookup_singleton_iff.mpr ⟨rfl, rfl⟩⟩,
      ⟨_, Table.lookup_singleton_iff.mpr ⟨rfl, rfl⟩⟩, by
      intro timestamp htime
      cases htime⟩

theorem honest_proof_passes_member : ∃ proof, memberProof true = .ok proof ∧
    PassesChecks asciiLowercase sampleOrders .id memberRequest
      (memberAnswer true) memberLedger proof := by
  obtain ⟨proof, hproof, hledger⟩ := exists_memberProof true
  refine ⟨proof, hproof,
    (honest_proof_passes_iff (memberAnswer_honest true) sampleProver_revealsRequested hproof
    hledger).mpr ⟨?_, ?_, ?_⟩⟩
  · intro r ra info hr hrev
    obtain ⟨-, rfl⟩ := Table.lookup_singleton_iff.mp hr
    cases hrev
  · intro r ra info names hr hrev hinfo hname hnames
    obtain ⟨-, rfl⟩ := Table.lookup_singleton_iff.mp hinfo
    obtain rfl := Option.some.inj hnames
    decide
  · intro r ra info names c n hr hrev hinfo hnames hn hc v v' hv hv'
    obtain ⟨-, rfl⟩ := Table.lookup_singleton_iff.mp hinfo
    obtain ⟨-, rfl⟩ := Table.lookup_singleton_iff.mp hr
    obtain ⟨-, rfl⟩ := Table.lookup_singleton_iff.mp hc
    obtain rfl := Option.some.inj hnames
    have hsame : ∀ n ∈ ["fullname", "age"],
        getCredentialValuesForAttribute asciiLowercase memberCredential.values n =
        lastCredentialValue asciiLowercase memberCredential.values n := by decide
    rw [hsame n hn] at hv
    rw [Option.some.inj (hv.symm.trans hv')]

/-- A group with a restriction that its credential meets is refused when it is not revealed. -/
theorem hidden_group_refused : ∃ proof, memberProof false = .ok proof ∧
    Honest asciiLowercase false .v2 memberRequest (memberAnswer false) memberObjects ∧
    sampleProver.RevealsRequested ∧
    (∀ identifier ∈ proof.identifiers, memberLedger.Has identifier) ∧
    structuralChecks asciiLowercase sampleOrders memberRequest proof =
      errMsg .invalidStructure "Proof does not have referent from proof request" ∧
    ¬ PassesChecks asciiLowercase sampleOrders .id memberRequest
      (memberAnswer false) memberLedger proof := by
  obtain ⟨proof, hproof, hledger⟩ := exists_memberProof false
  have hrefused : (memberProof false >>=
      fun proof => structuralChecks asciiLowercase sampleOrders memberRequest proof) =
      errMsg .invalidStructure "Proof does not have referent from proof request" := by
    decide
  rw [hproof, except_ok_bind] at hrefused
  refine ⟨proof, hproof, memberAnswer_honest false, sampleProver_revealsRequested, hledger,
    hrefused, ?_⟩
  intro hpass
  cases hrefused.symm.trans hpass.structural

end Sample
end SimpleAsset.Indy.Anoncreds
