import SimpleAsset.Indy.Anoncreds.Acceptance
import SimpleAsset.Indy.Anoncreds.Prover

/-! What `create_proof` writes into a proof. -/
namespace SimpleAsset.Indy.Anoncreds
open SimpleAsset.Library

section Prepared
variable {Nonce : Type} (proofReq : ProofRequestPayload Nonce)

/-- The attributes among `l` that are to be answered from one credential. -/
def attrsFor (key : ProvingCredentialKey) (l : List ((_ : String) × RequestedAttribute)) :
    List RequestedAttributeInfo :=
  l.filterMap fun e => if e.2.key = key then
    (proofReq.requestedAttributes.lookup e.1).map fun info => ⟨e.1, info, e.2.revealed⟩ else none

def predicatesFor (key : ProvingCredentialKey) (l : List ((_ : String) × ProvingCredentialKey)) :
    List RequestedPredicateInfo :=
  l.filterMap fun e => if e.2 = key then
    (proofReq.requestedPredicates.lookup e.1).map fun info => ⟨e.1, info⟩ else none

/-- A table with the referents of `attrs` and `preds`, by credential. -/
structure Prepared (attrs : List ((_ : String) × RequestedAttribute))
    (preds : List ((_ : String) × ProvingCredentialKey))
    (t : Table ProvingCredentialKey ForCredential) : Prop where
  forKey : ∀ key, forKey t key = (attrsFor proofReq key attrs, predicatesFor proofReq key preds)
  attrsFound : ∀ e ∈ attrs, ∃ info, proofReq.requestedAttributes.lookup e.1 = some info
  predsFound : ∀ e ∈ preds, ∃ info, proofReq.requestedPredicates.lookup e.1 = some info

variable {proofReq} {attrs : List ((_ : String) × RequestedAttribute)}
  {preds : List ((_ : String) × ProvingCredentialKey)}
  {t t' : Table ProvingCredentialKey ForCredential}

theorem forKey_insert (t : Table ProvingCredentialKey ForCredential)
    (key key' : ProvingCredentialKey) (v : ForCredential) :
    forKey (t.insert key' v) key = if key' = key then v else forKey t key := by
  unfold forKey
  by_cases hk : key' = key
  · subst hk
    rw [AList.lookup_insert, if_pos rfl, Option.getD_some]
  · rw [AList.lookup_insert_ne (fun h => hk h.symm), if_neg hk]

theorem Prepared.addAttribute (h : Prepared proofReq attrs preds t)
    {e : (_ : String) × RequestedAttribute}
    (hok : addAttribute proofReq t e = .ok t') : Prepared proofReq (attrs ++ [e]) preds t' := by
  unfold Anoncreds.addAttribute at hok
  obtain ⟨info, hinfo, hok⟩ := except_bind_eq_ok.mp hok
  rw [notFound_eq_ok_iff] at hinfo
  obtain rfl := Except.ok.inj hok
  refine ⟨?_, ?_, h.predsFound⟩
  · intro key
    rw [forKey_insert, h.forKey, h.forKey]
    by_cases hk : e.2.key = key
    · subst hk
      simp [attrsFor, hinfo]
    · simp [attrsFor, hk]
  · intro e' he'
    rcases List.mem_append.mp he' with he' | he'
    · exact h.attrsFound e' he'
    · obtain rfl := List.mem_singleton.mp he'
      exact ⟨info, hinfo⟩

theorem Prepared.addPredicate (h : Prepared proofReq attrs preds t)
    {e : (_ : String) × ProvingCredentialKey}
    (hok : addPredicate proofReq t e = .ok t') : Prepared proofReq attrs (preds ++ [e]) t' := by
  unfold Anoncreds.addPredicate at hok
  obtain ⟨info, hinfo, hok⟩ := except_bind_eq_ok.mp hok
  rw [notFound_eq_ok_iff] at hinfo
  obtain rfl := Except.ok.inj hok
  refine ⟨?_, h.attrsFound, ?_⟩
  · intro key
    rw [forKey_insert, h.forKey, h.forKey]
    by_cases hk : e.2 = key
    · subst hk
      simp [predicatesFor, hinfo]
    · simp [predicatesFor, hk]
  · intro e' he'
    rcases List.mem_append.mp he' with he' | he'
    · exact h.predsFound e' he'
    · obtain rfl := List.mem_singleton.mp he'
      exact ⟨info, hinfo⟩

theorem Prepared.addAttributes (h : Prepared proofReq attrs preds t)
    {l : List ((_ : String) × RequestedAttribute)}
    (hok : l.foldlM (Anoncreds.addAttribute proofReq) t = .ok t') :
    Prepared proofReq (attrs ++ l) preds t' := by
  induction l generalizing attrs t with
  | nil =>
    obtain rfl := Except.ok.inj hok
    simpa using h
  | cons e l ih =>
    rw [List.foldlM_cons, except_bind_eq_ok] at hok
    obtain ⟨t₁, h₁, hok⟩ := hok
    simpa using ih (h.addAttribute h₁) hok

theorem Prepared.addPredicates (h : Prepared proofReq attrs preds t)
    {l : List ((_ : String) × ProvingCredentialKey)}
    (hok : l.foldlM (Anoncreds.addPredicate proofReq) t = .ok t') :
    Prepared proofReq attrs (preds ++ l) t' := by
  induction l generalizing preds t with
  | nil =>
    obtain rfl := Except.ok.inj hok
    simpa using h
  | cons e l ih =>
    rw [List.foldlM_cons, except_bind_eq_ok] at hok
    obtain ⟨t₁, h₁, hok⟩ := hok
    simpa using ih (h.addPredicate h₁) hok

theorem prepared_of_prepare {rc : RequestedCredentials}
    (h : prepareCredentialsForProving proofReq rc = .ok t) :
    Prepared proofReq rc.requestedAttributes.entries rc.requestedPredicates.entries t := by
  unfold prepareCredentialsForProving at h
  obtain ⟨t₁, h₁, h⟩ := except_bind_eq_ok.mp h
  have hstart : Prepared proofReq [] [] ∅ := ⟨fun _ => rfl, by simp, by simp⟩
  exact (hstart.addAttributes h₁).addPredicates h

end Prepared

section Written
variable {Signature Nonce : Type} (lc : Lowercase) (proofReq : ProofRequestPayload Nonce)

/-- An attribute to be answered from a credential, which is that of sub-proof `index`. -/
structure Cell (Signature : Type) where
  index : ℕ
  credential : Credential Signature
  attr : RequestedAttributeInfo

/-- The entry of `revealed_attrs` for a cell. -/
def Cell.Reveals (cell : Cell Signature) (info : RevealedAttributeInfo) : Prop :=
  cell.attr.revealed = true ∧ ∃ requested name values,
    proofReq.requestedAttributes.lookup cell.attr.attrReferent = some requested ∧
    requested.name = some name ∧
      getCredentialValuesForAttribute lc cell.credential.values name = some values ∧
      info = ⟨cell.index, values.raw, values.encoded⟩

/-- The entry of `revealed_attr_groups` for a cell. -/
def Cell.RevealsGroup (cell : Cell Signature) (infos : RevealedAttributeGroupInfo) : Prop :=
  cell.attr.revealed = true ∧ ∃ requested names values,
    proofReq.requestedAttributes.lookup cell.attr.attrReferent = some requested ∧
    requested.name = none ∧
      requested.names = some names ∧ groupValues lc cell.credential names = .ok values ∧
      infos = ⟨cell.index, values⟩

/-- The entry of `unrevealed_attrs` for a cell. -/
def Cell.Hides (cell : Cell Signature) (referent : SubProofReferent) : Prop :=
  cell.attr.revealed = false ∧ referent = ⟨cell.index⟩

/-- The requested proof after the attributes `cells` and the predicates `preds` (each with its
sub-proof). -/
structure Wrote (attested : Table String String) (cells : List (Cell Signature))
    (preds : List (ℕ × RequestedPredicateInfo)) (rp : RequestedProof) : Prop where
  selfAttested : rp.selfAttestedAttrs = attested
  revealed : Table.Records rp.revealedAttrs fun r info =>
    ∃ cell ∈ cells, cell.attr.attrReferent = r ∧ cell.Reveals lc proofReq info
  groups : Table.Records rp.revealedAttrGroups fun r infos =>
    ∃ cell ∈ cells, cell.attr.attrReferent = r ∧ cell.RevealsGroup lc proofReq infos
  hidden : Table.Records rp.unrevealedAttrs fun r referent =>
    ∃ cell ∈ cells, cell.attr.attrReferent = r ∧ cell.Hides referent
  predicates : Table.Records rp.predicates fun r referent =>
    ∃ p ∈ preds, p.2.predicateReferent = r ∧ referent = ⟨p.1⟩

variable {lc proofReq} {attested : Table String String} {cells : List (Cell Signature)}
    {preds : List (ℕ × RequestedPredicateInfo)}
  {rp rp' : RequestedProof} {credential : Credential Signature} {i : ℕ}

/-- A new cell that has no entry of this kind leaves the records as they are. -/
theorem records_concat_of_not {β : Type} {t : Table String β} {S : Cell Signature → β → Prop}
    {cell : Cell Signature}
    (h : Table.Records t fun r v => ∃ c ∈ cells, c.attr.attrReferent = r ∧ S c v)
    (hno : ∀ v, ¬ S cell v) :
    Table.Records t fun r v => ∃ c ∈ cells ++ [cell], c.attr.attrReferent = r ∧ S c v := by
  refine h.congr fun r v => ⟨?_, ?_⟩
  · rintro ⟨c, hc, hr, hS⟩
    exact ⟨c, List.mem_append_left _ hc, hr, hS⟩
  · rintro ⟨c, hc, hr, hS⟩
    rcases List.mem_append.mp hc with hc | hc
    · exact ⟨c, hc, hr, hS⟩
    · obtain rfl := List.mem_singleton.mp hc
      exact absurd hS (hno v)

/-- A new cell with the entry that is written. -/
theorem records_concat_insert {β : Type} {t : Table String β} {S : Cell Signature → β → Prop}
    {cell : Cell Signature}
    {v : β} (h : Table.Records t fun r v => ∃ c ∈ cells, c.attr.attrReferent = r ∧ S c v)
    (hone : ∀ v', S cell v' ↔ v' = v) :
    Table.Records (t.insert cell.attr.attrReferent v) fun r v =>
      ∃ c ∈ cells ++ [cell], c.attr.attrReferent = r ∧ S c v := by
  refine (h.insert cell.attr.attrReferent v).congr fun r v' => ⟨?_, ?_⟩
  · rintro (⟨c, hc, hr, hS⟩ | ⟨rfl, rfl⟩)
    · exact ⟨c, List.mem_append_left _ hc, hr, hS⟩
    · exact ⟨cell, by simp, rfl, (hone _).mpr rfl⟩
  · rintro ⟨c, hc, hr, hS⟩
    rcases List.mem_append.mp hc with hc | hc
    · exact Or.inl ⟨c, hc, hr, hS⟩
    · obtain rfl := List.mem_singleton.mp hc
      exact Or.inr ⟨hr.symm, (hone _).mp hS⟩

theorem Wrote.updateAttribute (h : Wrote lc proofReq attested cells preds rp)
    {attr : RequestedAttributeInfo}
    (hok : updateAttribute lc proofReq credential i rp attr = .ok rp') :
    Wrote lc proofReq attested (cells ++ [⟨i, credential, attr⟩]) preds rp' := by
  unfold Anoncreds.updateAttribute at hok
  cases hrev : attr.revealed with
  | false =>
    rw [hrev] at hok
    obtain rfl := Except.ok.inj hok
    have hrevealed : ∀ info, ¬ Cell.Reveals lc proofReq ⟨i, credential, attr⟩ info := by
      simp [Cell.Reveals, hrev]
    have hgroup : ∀ infos, ¬ Cell.RevealsGroup lc proofReq ⟨i, credential, attr⟩ infos := by
      simp [Cell.RevealsGroup, hrev]
    have hhides : ∀ referent, Cell.Hides ⟨i, credential, attr⟩ referent ↔ referent = ⟨i⟩ := by
      simp [Cell.Hides, hrev]
    exact ⟨h.selfAttested, records_concat_of_not h.revealed hrevealed,
      records_concat_of_not h.groups hgroup, records_concat_insert h.hidden hhides, h.predicates⟩
  | true =>
    rw [hrev, if_pos rfl] at hok
    have hhides : ∀ referent, ¬ Cell.Hides ⟨i, credential, attr⟩ referent := by
      simp [Cell.Hides, hrev]
    cases hreq : proofReq.requestedAttributes.lookup attr.attrReferent with
    | none =>
      rw [hreq] at hok
      cases hok
    | some requested =>
      rw [hreq] at hok
      dsimp only at hok
      rw [ofIndyResult_eq_ok_iff] at hok
      cases hname : requested.name with
      | some name =>
        rw [hname] at hok
        obtain ⟨values, hvalues, hok⟩ := except_bind_eq_ok.mp hok
        rw [notFound_eq_ok_iff] at hvalues
        obtain rfl := Except.ok.inj hok
        have hgroup : ∀ infos, ¬ Cell.RevealsGroup lc proofReq ⟨i, credential, attr⟩ infos := by
          simp [Cell.RevealsGroup, hrev, hreq, hname]
        have hrevealed : ∀ info, Cell.Reveals lc proofReq ⟨i, credential, attr⟩ info ↔
            info = ⟨i, values.raw, values.encoded⟩ := by
          simp [Cell.Reveals, hrev, hreq, hname, hvalues]
        exact ⟨h.selfAttested, records_concat_insert h.revealed hrevealed,
          records_concat_of_not h.groups hgroup,
          records_concat_of_not h.hidden hhides, h.predicates⟩
      | none =>
        rw [hname] at hok
        have hrevealed : ∀ info, ¬ Cell.Reveals lc proofReq ⟨i, credential, attr⟩ info := by
          simp [Cell.Reveals, hrev, hreq, hname]
        cases hnames : requested.names with
        | some names =>
          rw [hnames] at hok
          obtain ⟨values, hvalues, hok⟩ := except_bind_eq_ok.mp hok
          obtain rfl := Except.ok.inj hok
          have hgroup : ∀ infos, Cell.RevealsGroup lc proofReq ⟨i, credential, attr⟩ infos ↔
              infos = ⟨i, values⟩ := by
            simp [Cell.RevealsGroup, hrev, hreq, hname, hnames, hvalues]
          exact ⟨h.selfAttested, records_concat_of_not h.revealed hrevealed,
            records_concat_insert h.groups hgroup,
            records_concat_of_not h.hidden hhides, h.predicates⟩
        | none =>
          rw [hnames] at hok
          obtain rfl := Except.ok.inj hok
          have hgroup : ∀ infos, ¬ Cell.RevealsGroup lc proofReq ⟨i, credential, attr⟩ infos := by
            simp [Cell.RevealsGroup, hrev, hreq, hname, hnames]
          exact ⟨h.selfAttested, records_concat_of_not h.revealed hrevealed,
            records_concat_of_not h.groups hgroup,
            records_concat_of_not h.hidden hhides, h.predicates⟩

theorem Wrote.updateAttributes (h : Wrote lc proofReq attested cells preds rp)
    {attrs : List RequestedAttributeInfo}
    (hok : attrs.foldlM (Anoncreds.updateAttribute lc proofReq credential i) rp = .ok rp') :
    Wrote lc proofReq attested (cells ++ attrs.map fun attr => ⟨i, credential, attr⟩)
      preds rp' := by
  induction attrs generalizing cells rp with
  | nil =>
    obtain rfl := Except.ok.inj hok
    simpa using h
  | cons attr attrs ih =>
    rw [List.foldlM_cons, except_bind_eq_ok] at hok
    obtain ⟨rp₁, h₁, hok⟩ := hok
    simpa using ih (h.updateAttribute h₁) hok

theorem Wrote.updatePredicates (h : Wrote lc proofReq attested cells preds rp)
    (ps : List RequestedPredicateInfo) :
    Wrote lc proofReq attested cells (preds ++ ps.map fun p => (i, p))
      (ps.foldl (updatePredicate i) rp) := by
  induction ps generalizing preds rp with
  | nil => simpa using h
  | cons p ps ih =>
    have hstep : Wrote lc proofReq attested cells (preds ++ [(i, p)]) (updatePredicate i rp p) := by
      refine ⟨h.selfAttested, h.revealed, h.groups, h.hidden, ?_⟩
      refine (h.predicates.insert p.predicateReferent ⟨i⟩).congr fun r referent => ⟨?_, ?_⟩
      · rintro (⟨q, hq, hr⟩ | ⟨rfl, rfl⟩)
        · exact ⟨q, List.mem_append_left _ hq, hr⟩
        · exact ⟨(i, p), by simp, rfl, rfl⟩
      · rintro ⟨q, hq, hr⟩
        rcases List.mem_append.mp hq with hq | hq
        · exact Or.inl ⟨q, hq, hr⟩
        · obtain rfl := List.mem_singleton.mp hq
          exact Or.inr ⟨hr.1.symm, hr.2⟩
    simpa using ih hstep

theorem Wrote.updateRequestedProof (h : Wrote lc proofReq attested cells preds rp)
    {forCredential : ForCredential}
    (hok : updateRequestedProof lc proofReq credential i forCredential rp = .ok rp') :
    Wrote lc proofReq attested (cells ++ forCredential.1.map fun attr => ⟨i, credential, attr⟩)
      (preds ++ forCredential.2.map fun p => (i, p)) rp' := by
  unfold Anoncreds.updateRequestedProof at hok
  obtain ⟨rp₁, h₁, hok⟩ := except_bind_eq_ok.mp hok
  obtain rfl := Except.ok.inj hok
  exact (h.updateAttributes h₁).updatePredicates forCredential.2

end Written

section Rounds
variable {U : Ursa} {P : UrsaProver U} (lc : Lowercase) (node13 : Bool)
    (version : ProofRequestsVersion)
  (proofReq : ProofRequestPayload U.Nonce) (masterSecret : P.MasterSecret)
  (objects : ProverObjects P) (attested : Table String String)

/-- The state after the rounds `past`: what was handed to ursa and what was written for each of
them. -/
structure Proved (past : List ((_ : ProvingCredentialKey) × ForCredential))
    (s : Proving P) : Prop where
  inputsLength : s.inputs.length = past.length
  identifiersLength : s.identifiers.length = past.length
  round : ∀ (i : ℕ) (e : (_ : ProvingCredentialKey) × ForCredential), past[i]? = some e →
    ∃ credential input, objects.credentials.lookup e.1.credId = some credential ∧
    provingInput lc masterSecret objects e.1 e.2 credential = .ok input ∧
    s.inputs[i]? = some input ∧
      s.identifiers[i]? = some (proofIdentifier node13 version credential e.1.timestamp)
  wrote : ∃ cells preds, Wrote lc proofReq attested cells preds s.requestedProof ∧
    (∀ cell, cell ∈ cells ↔ ∃ e : (_ : ProvingCredentialKey) × ForCredential,
      past[cell.index]? = some e ∧
      objects.credentials.lookup e.1.credId = some cell.credential ∧ cell.attr ∈ e.2.1) ∧
    ∀ p, p ∈ preds ↔ ∃ e : (_ : ProvingCredentialKey) × ForCredential,
      past[p.1]? = some e ∧ p.2 ∈ e.2.2

variable {lc node13 version proofReq masterSecret objects attested}
  {past : List ((_ : ProvingCredentialKey) × ForCredential)} {s s' : Proving P}

theorem Proved.proveCredential
    (h : Proved lc node13 version proofReq masterSecret objects attested past s)
    {e : (_ : ProvingCredentialKey) × ForCredential}
    (hok : proveCredential lc node13 version proofReq masterSecret objects s e = .ok s') :
    Proved lc node13 version proofReq masterSecret objects attested (past ++ [e]) s' := by
  unfold Anoncreds.proveCredential at hok
  simp only [except_bind_eq_ok, ofIndyResult_eq_ok_iff, notFound_eq_ok_iff] at hok
  obtain ⟨credential, hcred, input, hinput, rp, hrp, hok⟩ := hok
  obtain rfl := Except.ok.inj hok
  rw [h.identifiersLength] at hrp
  have hplace : ∀ {i : ℕ} {e'}, (past ++ [e])[i]? = some e' ↔ past[i]? = some e' ∨
      (i = past.length ∧ e' = e) := by
    intro i e'
    rw [List.getElem?_append]
    split
    · rename_i hi
      exact ⟨Or.inl, fun h => h.resolve_right fun h => absurd h.1 (by omega)⟩
    · rename_i hi
      rw [List.getElem?_singleton, List.getElem?_eq_none (by omega)]
      split
      · rename_i h0
        simp [eq_comm, show i = past.length by omega]
      · rename_i h0
        simp [show i ≠ past.length by omega]
  refine ⟨by simp [h.inputsLength], by simp [h.identifiersLength], ?_, ?_⟩
  · intro i e' he'
    rcases hplace.mp he' with he' | ⟨rfl, rfl⟩
    · obtain ⟨credential', input', hcred', hinput', hin, hid⟩ := h.round i e' he'
      exact ⟨credential', input', hcred', hinput',
        List.getElem?_append_left (List.getElem?_eq_some_iff.mp hin).1 ▸ hin,
        List.getElem?_append_left (List.getElem?_eq_some_iff.mp hid).1 ▸ hid⟩
    · exact ⟨credential, input, hcred, hinput,
        by simp [← h.inputsLength], by simp [← h.identifiersLength]⟩
  · obtain ⟨cells, preds, hwrote, hcells, hpreds⟩ := h.wrote
    refine ⟨_, _, hwrote.updateRequestedProof hrp, ?_, ?_⟩
    · intro cell
      rw [List.mem_append, hcells, List.mem_map]
      constructor
      · rintro (⟨e', he', hcred', hattr⟩ | ⟨attr, hattr, rfl⟩)
        · exact ⟨e', hplace.mpr (Or.inl he'), hcred', hattr⟩
        · exact ⟨e, hplace.mpr (Or.inr ⟨rfl, rfl⟩), hcred, hattr⟩
      · rintro ⟨e', he', hcred', hattr⟩
        rcases hplace.mp he' with he' | ⟨hi, rfl⟩
        · exact Or.inl ⟨e', he', hcred', hattr⟩
        · obtain ⟨index, credential', attr⟩ := cell
          obtain rfl : index = past.length := hi
          obtain rfl : credential = credential' := Option.some.inj (hcred.symm.trans hcred')
          exact Or.inr ⟨attr, hattr, rfl⟩
    · intro p
      rw [List.mem_append, hpreds, List.mem_map]
      constructor
      · rintro (⟨e', he', hp⟩ | ⟨q, hq, rfl⟩)
        · exact ⟨e', hplace.mpr (Or.inl he'), hp⟩
        · exact ⟨e, hplace.mpr (Or.inr ⟨rfl, rfl⟩), hq⟩
      · rintro ⟨e', he', hp⟩
        rcases hplace.mp he' with he' | ⟨hi, rfl⟩
        · exact Or.inl ⟨e', he', hp⟩
        · obtain ⟨index, q⟩ := p
          obtain rfl : index = past.length := hi
          exact Or.inr ⟨q, hp, rfl⟩

theorem Proved.rounds (h : Proved lc node13 version proofReq masterSecret objects attested past s)
    {rounds : List ((_ : ProvingCredentialKey) × ForCredential)}
    (hok : rounds.foldlM (Anoncreds.proveCredential lc node13 version proofReq masterSecret objects)
      s = .ok s') :
    Proved lc node13 version proofReq masterSecret objects attested (past ++ rounds) s' := by
  induction rounds generalizing past s with
  | nil =>
    obtain rfl := Except.ok.inj hok
    simpa using h
  | cons e rounds ih =>
    rw [List.foldlM_cons, except_bind_eq_ok] at hok
    obtain ⟨s₁, h₁, hok⟩ := hok
    simpa using ih (h.proveCredential h₁) hok

end Rounds

section Made
variable {U : Ursa} {P : UrsaProver U} (lc : Lowercase) (node13 : Bool)
    (version : ProofRequestsVersion)
  (proofReq : ProofRequestPayload U.Nonce) (rc : RequestedCredentials)
  (masterSecret : P.MasterSecret) (objects : ProverObjects P)

/-- A proof that `create_proof` made from `rounds`, with what it handed to ursa. -/
structure Made (rounds : List ((_ : ProvingCredentialKey) × ForCredential)) (inputs : List P.Input)
    (proof : Proof U) :
    Prop where
  prepared : ∃ t,
    Prepared proofReq rc.requestedAttributes.entries rc.requestedPredicates.entries t ∧
    rounds.Perm t.entries
  proved : Proved lc node13 version proofReq masterSecret objects rc.selfAttestedAttributes rounds
    ⟨inputs, proof.identifiers, proof.requestedProof⟩
  finalized : P.finalize masterSecret inputs proofReq.nonce = .ok proof.proof

/-- Sub-proof `i` is made from the credential of `key`. -/
def MadeFrom (rounds : List ((_ : ProvingCredentialKey) × ForCredential)) (i : ℕ)
    (key : ProvingCredentialKey) (credential : Credential P.CredentialSignature) : Prop :=
  (rounds[i]?).map Sigma.fst = some key ∧ objects.credentials.lookup key.credId = some credential

variable {lc node13 version proofReq rc masterSecret objects}
    {order : Shuffle ((_ : ProvingCredentialKey) × ForCredential)}
  {rounds : List ((_ : ProvingCredentialKey) × ForCredential)} {inputs : List P.Input}
  {proof : Proof U}

theorem exists_made
    (h : createProof lc node13 order version proofReq rc masterSecret objects = .ok proof) :
    ∃ rounds inputs, credentialsForProving order proofReq rc = .ok rounds ∧
      Made lc node13 version proofReq rc masterSecret objects rounds inputs proof := by
  unfold createProof at h
  simp only [except_bind_eq_ok, ofIndyResult_eq_ok_iff] at h
  obtain ⟨rounds, hrounds, proving, hproving, crypto, hcrypto, h⟩ := h
  obtain rfl := Except.ok.inj h
  refine ⟨rounds, proving.inputs, hrounds, ?_, ?_, hcrypto⟩
  · unfold credentialsForProving at hrounds
    obtain ⟨t, ht, hrounds⟩ := except_bind_eq_ok.mp hrounds
    obtain rfl := Except.ok.inj hrounds
    exact ⟨t, prepared_of_prepare ht, order.perm _⟩
  · have hnone : ∀ {β : Type} {R : String → β → Prop}, (∀ r v, ¬ R r v) →
        Table.Records (∅ : Table String β) R := by
      intro β R hR
      refine ⟨?_, fun k v hk => absurd hk (hR k v)⟩
      intro k v hk
      cases hk
    have hstart : Proved lc node13 version proofReq masterSecret objects
        rc.selfAttestedAttributes []
        ⟨[], [], { selfAttestedAttrs := rc.selfAttestedAttributes }⟩ := by
      refine ⟨rfl, rfl,
        by simp, [], [], ⟨rfl, hnone (by simp), hnone (by simp), hnone (by simp), hnone (by simp)⟩,
        by simp, by simp⟩
    simpa using hstart.rounds hproving

section Places
variable (h : Made lc node13 version proofReq rc masterSecret objects rounds inputs proof)
include h

theorem Made.nodup_keys : (rounds.map Sigma.fst).Nodup := by
  obtain ⟨t, -, hperm⟩ := h.prepared
  exact (hperm.map Sigma.fst).nodup_iff.mpr t.nodupKeys

theorem Made.forCredential {i : ℕ} {key : ProvingCredentialKey} {fc : ForCredential}
    (hi : rounds[i]? = some ⟨key, fc⟩) :
    fc = (attrsFor proofReq key rc.requestedAttributes.entries,
      predicatesFor proofReq key rc.requestedPredicates.entries) := by
  obtain ⟨t, ht, hperm⟩ := h.prepared
  have hmem : ⟨key, fc⟩ ∈ t.entries := hperm.mem_iff.mp (List.mem_of_getElem? hi)
  rw [← ht.forKey, forKey, Table.mem_entries_iff.mp hmem, Option.getD_some]

/-- A credential that has something to answer has a round. -/
theorem Made.exists_round {key : ProvingCredentialKey}
    (hne : attrsFor proofReq key rc.requestedAttributes.entries ≠ [] ∨
      predicatesFor proofReq key rc.requestedPredicates.entries ≠ []) :
    ∃ i credential, MadeFrom objects rounds i key credential := by
  obtain ⟨t, ht, hperm⟩ := h.prepared
  have hforKey := ht.forKey key
  cases hlookup : t.lookup key with
  | none =>
    rw [forKey, hlookup, Option.getD_none, Prod.mk.injEq] at hforKey
    rcases hne with hne | hne
    · exact absurd hforKey.1.symm hne
    · exact absurd hforKey.2.symm hne
  | some fc =>
    have hmem : ⟨key, fc⟩ ∈ rounds := hperm.mem_iff.mpr (Table.mem_entries_iff.mpr hlookup)
    obtain ⟨i, hi⟩ := List.mem_iff_getElem?.mp hmem
    obtain ⟨credential, input, hcred, -⟩ := h.proved.round i _ hi
    exact ⟨i, credential, by rw [hi]; rfl, hcred⟩

theorem Made.exists_attribute {r : String} {ra : RequestedAttribute}
    (hr : rc.requestedAttributes.lookup r = some ra) :
    ∃ info, proofReq.requestedAttributes.lookup r = some info := by
  obtain ⟨t, ht, -⟩ := h.prepared
  exact ht.attrsFound ⟨r, ra⟩ (Table.mem_entries_iff.mpr hr)

theorem Made.exists_predicate {r : String} {key : ProvingCredentialKey}
    (hr : rc.requestedPredicates.lookup r = some key) :
    ∃ info, proofReq.requestedPredicates.lookup r = some info := by
  obtain ⟨t, ht, -⟩ := h.prepared
  exact ht.predsFound ⟨r, key⟩ (Table.mem_entries_iff.mpr hr)

theorem Made.attribute_place {r : String} {ra : RequestedAttribute}
    (hr : rc.requestedAttributes.lookup r = some ra) :
    ∃ i credential, MadeFrom objects rounds i ra.key credential := by
  obtain ⟨info, hinfo⟩ := h.exists_attribute hr
  refine h.exists_round (Or.inl (@List.ne_nil_of_mem _ ⟨r, info, ra.revealed⟩ _ ?_))
  exact List.mem_filterMap.mpr ⟨⟨r, ra⟩, Table.mem_entries_iff.mpr hr, by simp [hinfo]⟩

theorem Made.predicate_place {r : String} {key : ProvingCredentialKey}
    (hr : rc.requestedPredicates.lookup r = some key) :
    ∃ i credential, MadeFrom objects rounds i key credential := by
  obtain ⟨info, hinfo⟩ := h.exists_predicate hr
  refine h.exists_round (Or.inr (@List.ne_nil_of_mem _ ⟨r, info⟩ _ ?_))
  exact List.mem_filterMap.mpr ⟨⟨r, key⟩, Table.mem_entries_iff.mpr hr, by simp [hinfo]⟩

theorem Made.place_unique {i j : ℕ} {key : ProvingCredentialKey}
    {c c' : Credential P.CredentialSignature}
    (hi : MadeFrom objects rounds i key c) (hj : MadeFrom objects rounds j key c') :
    i = j ∧ c = c' := by
  refine ⟨?_, Option.some.inj (hi.2.symm.trans hj.2)⟩
  have hi' : (rounds.map Sigma.fst)[i]? = some key := by rw [List.getElem?_map, hi.1]
  have hj' : (rounds.map Sigma.fst)[j]? = some key := by rw [List.getElem?_map, hj.1]
  obtain ⟨hlt, hget⟩ := List.getElem?_eq_some_iff.mp hi'
  obtain ⟨hlt', hget'⟩ := List.getElem?_eq_some_iff.mp hj'
  exact (h.nodup_keys.getElem_inj_iff).mp (hget.trans hget'.symm)

/-- The cells are the assigned attributes, each at the place of its credential. -/
theorem Made.mem_cells_iff (cell : Cell P.CredentialSignature) :
    (∃ e : (_ : ProvingCredentialKey) × ForCredential, rounds[cell.index]? = some e ∧
      objects.credentials.lookup e.1.credId = some cell.credential ∧ cell.attr ∈ e.2.1) ↔
    ∃ ra, rc.requestedAttributes.lookup cell.attr.attrReferent = some ra ∧
      MadeFrom objects rounds cell.index ra.key cell.credential ∧
      proofReq.requestedAttributes.lookup cell.attr.attrReferent = some cell.attr.attrInfo ∧
      cell.attr.revealed = ra.revealed := by
  constructor
  · rintro ⟨⟨key, fc⟩, hi, hcred, hattr⟩
    rw [h.forCredential hi] at hattr
    obtain ⟨⟨r, ra⟩, hmem, hsome⟩ := List.mem_filterMap.mp hattr
    split_ifs at hsome with hkey
    obtain ⟨info, hinfo, hcell⟩ := Option.map_eq_some_iff.mp hsome
    obtain rfl : ra.key = key := hkey
    rw [← hcell]
    exact ⟨ra, Table.mem_entries_iff.mp hmem, ⟨by rw [hi]; rfl, hcred⟩, hinfo, rfl⟩
  · rintro ⟨ra, hr, ⟨hi, hcred⟩, hinfo, hrev⟩
    obtain ⟨⟨key, fc⟩, he, hkey⟩ := Option.map_eq_some_iff.mp hi
    obtain rfl : key = ra.key := hkey
    refine ⟨⟨ra.key, fc⟩, he, hcred, ?_⟩
    rw [h.forCredential he]
    refine List.mem_filterMap.mpr ⟨⟨cell.attr.attrReferent, ra⟩, Table.mem_entries_iff.mpr hr, ?_⟩
    rw [if_pos rfl, hinfo, Option.map_some, ← hrev]

end Places

section Entries

/-- The attribute `r` is requested as `info` and answered from sub-proof `i`. -/
structure Assigned (proofReq : ProofRequestPayload U.Nonce) (rc : RequestedCredentials)
    (objects : ProverObjects P)
    (rounds : List ((_ : ProvingCredentialKey) × ForCredential)) (r : String)
    (ra : RequestedAttribute) (i : ℕ)
    (credential : Credential P.CredentialSignature) (info : AttributeInfo) : Prop where
  assigned : rc.requestedAttributes.lookup r = some ra
  place : MadeFrom objects rounds i ra.key credential
  requested : proofReq.requestedAttributes.lookup r = some info

variable {r : String} {ra ra' : RequestedAttribute} {i j : ℕ}
    {c c' : Credential P.CredentialSignature}
  {info info' : AttributeInfo}

theorem Made.assigned_unique
    (h : Made lc node13 version proofReq rc masterSecret objects rounds inputs proof)
    (ha : Assigned proofReq rc objects rounds r ra i c info)
    (ha' : Assigned proofReq rc objects rounds r ra' j c' info') :
    ra = ra' ∧ i = j ∧ c = c' ∧ info = info' := by
  obtain rfl : ra = ra' := Option.some.inj (ha.assigned.symm.trans ha'.assigned)
  obtain ⟨rfl, rfl⟩ := h.place_unique ha.place ha'.place
  exact ⟨rfl, rfl, rfl, Option.some.inj (ha.requested.symm.trans ha'.requested)⟩

theorem Made.exists_assigned
    (h : Made lc node13 version proofReq rc masterSecret objects rounds inputs proof)
    (hr : rc.requestedAttributes.lookup r = some ra) :
    ∃ i c info, Assigned proofReq rc objects rounds r ra i c info := by
  obtain ⟨i, c, hplace⟩ := h.attribute_place hr
  obtain ⟨info, hinfo⟩ := h.exists_attribute hr
  exact ⟨i, c, info, hr, hplace, hinfo⟩

/-- What holds of a cell of the proof holds of an assigned attribute. -/
theorem Made.exists_cell_iff
    (h : Made lc node13 version proofReq rc masterSecret objects rounds inputs proof)
    {S : Cell P.CredentialSignature → Prop} :
    (∃ cell : Cell P.CredentialSignature, (∃ e : (_ : ProvingCredentialKey) × ForCredential,
      rounds[cell.index]? = some e ∧ objects.credentials.lookup e.1.credId = some cell.credential ∧
        cell.attr ∈ e.2.1) ∧ cell.attr.attrReferent = r ∧ S cell) ↔
    ∃ ra i c info, Assigned proofReq rc objects rounds r ra i c info ∧
      S ⟨i, c, r, info, ra.revealed⟩ := by
  constructor
  · rintro ⟨⟨i, c, r', info, revealed⟩, hcell, rfl, hS⟩
    obtain ⟨ra, hr, hplace, hinfo, rfl⟩ := (h.mem_cells_iff _).mp hcell
    exact ⟨ra, i, c, info, ⟨hr, hplace, hinfo⟩, hS⟩
  · rintro ⟨ra, i, c, info, ha, hS⟩
    exact ⟨⟨i, c, r, info, ra.revealed⟩,
      (h.mem_cells_iff _).mpr ⟨ra, ha.assigned, ha.place, ha.requested, rfl⟩, rfl, hS⟩

theorem Made.revealed_iff
    (h : Made lc node13 version proofReq rc masterSecret objects rounds inputs proof)
    {entry : RevealedAttributeInfo} :
    proof.requestedProof.revealedAttrs.lookup r = some entry ↔
      ∃ ra i c info, Assigned proofReq rc objects rounds r ra i c info ∧ ra.revealed = true ∧
        ∃ name values, info.name = some name ∧
          getCredentialValuesForAttribute lc c.values name = some values ∧
          entry = ⟨i, values.raw, values.encoded⟩ := by
  obtain ⟨cells, preds, hwrote, hcells, -⟩ := h.proved.wrote
  have hrecords :=
    hwrote.revealed.congr fun r entry => by simp only [hcells]; exact h.exists_cell_iff
  rw [hrecords.lookup_iff]
  · refine exists_congr fun ra => exists_congr fun i => exists_congr fun c =>
      exists_congr fun info =>
      and_congr_right fun ha => ?_
    simp [Cell.Reveals, ha.requested]
  · rintro r' e e' ⟨ra, i, c, info, ha, -, req, name, values, hreq, hname, hvalues, rfl⟩
      ⟨ra', i', c', info', ha', -, req', name', values', hreq', hname', hvalues', rfl⟩
    obtain ⟨rfl, rfl, rfl, rfl⟩ := h.assigned_unique ha ha'
    obtain rfl : req = req' := Option.some.inj (hreq.symm.trans hreq')
    obtain rfl : name = name' := Option.some.inj (hname.symm.trans hname')
    obtain rfl : values = values' := Option.some.inj (hvalues.symm.trans hvalues')
    rfl

theorem Made.groups_iff
    (h : Made lc node13 version proofReq rc masterSecret objects rounds inputs proof)
    {entry : RevealedAttributeGroupInfo} :
    proof.requestedProof.revealedAttrGroups.lookup r = some entry ↔
      ∃ ra i c info, Assigned proofReq rc objects rounds r ra i c info ∧ ra.revealed = true ∧
        info.name = none ∧
        ∃ names values, info.names = some names ∧ groupValues lc c names = .ok values ∧
          entry = ⟨i, values⟩ := by
  obtain ⟨cells, preds, hwrote, hcells, -⟩ := h.proved.wrote
  have hrecords := hwrote.groups.congr fun r entry => by simp only [hcells]; exact h.exists_cell_iff
  rw [hrecords.lookup_iff]
  · refine exists_congr fun ra => exists_congr fun i => exists_congr fun c =>
      exists_congr fun info =>
      and_congr_right fun ha => ?_
    simp [Cell.RevealsGroup, ha.requested]
  · rintro r' e e' ⟨ra, i, c, info, ha, -, req, names, values, hreq, -, hnames, hvalues, rfl⟩
      ⟨ra', i', c', info', ha', -, req', names', values', hreq', -, hnames', hvalues', rfl⟩
    obtain ⟨rfl, rfl, rfl, rfl⟩ := h.assigned_unique ha ha'
    obtain rfl : req = req' := Option.some.inj (hreq.symm.trans hreq')
    obtain rfl : names = names' := Option.some.inj (hnames.symm.trans hnames')
    obtain rfl : values = values' := Except.ok.inj (hvalues.symm.trans hvalues')
    rfl

theorem Made.unrevealed_iff
    (h : Made lc node13 version proofReq rc masterSecret objects rounds inputs proof)
    {entry : SubProofReferent} :
    proof.requestedProof.unrevealedAttrs.lookup r = some entry ↔
      ∃ ra i c info, Assigned proofReq rc objects rounds r ra i c info ∧ ra.revealed = false ∧
        entry = ⟨i⟩ := by
  obtain ⟨cells, preds, hwrote, hcells, -⟩ := h.proved.wrote
  have hrecords := hwrote.hidden.congr fun r entry => by simp only [hcells]; exact h.exists_cell_iff
  rw [hrecords.lookup_iff]
  · rfl
  · rintro r' e e' ⟨ra, i, c, info, ha, -, rfl⟩ ⟨ra', i', c', info', ha', -, rfl⟩
    obtain ⟨-, rfl, -, -⟩ := h.assigned_unique ha ha'
    rfl

theorem Made.predicates_iff
    (h : Made lc node13 version proofReq rc masterSecret objects rounds inputs proof)
    {entry : SubProofReferent} :
    proof.requestedProof.predicates.lookup r = some entry ↔
      ∃ key c, rc.requestedPredicates.lookup r = some key ∧
        MadeFrom objects rounds entry.subProofIndex key c := by
  obtain ⟨cells, preds, hwrote, -, hpreds⟩ := h.proved.wrote
  have hrecords : Table.Records proof.requestedProof.predicates fun r entry =>
      ∃ key c, rc.requestedPredicates.lookup r = some key ∧
        MadeFrom objects rounds entry.subProofIndex key c := by
    refine hwrote.predicates.congr fun r entry => ⟨?_, ?_⟩
    · rintro ⟨⟨i, p⟩, hp, rfl, rfl⟩
      obtain ⟨⟨key, fc⟩, hi, hmem⟩ := (hpreds _).mp hp
      obtain ⟨credential, input, hcred, -⟩ := h.proved.round i _ hi
      rw [h.forCredential hi] at hmem
      obtain ⟨⟨r, key'⟩, hentry, hsome⟩ := List.mem_filterMap.mp hmem
      split_ifs at hsome with hkey
      obtain ⟨info, -, hcell⟩ := Option.map_eq_some_iff.mp hsome
      obtain rfl : key' = key := hkey
      rw [← hcell]
      exact ⟨key', credential, Table.mem_entries_iff.mp hentry, by rw [hi]; rfl, hcred⟩
    · rintro ⟨key, c, hr, hi, -⟩
      obtain ⟨⟨key', fc⟩, he, hkey⟩ := Option.map_eq_some_iff.mp hi
      obtain rfl : key' = key := hkey
      obtain ⟨info, hinfo⟩ := h.exists_predicate hr
      refine ⟨(entry.subProofIndex, ⟨r, info⟩), (hpreds _).mpr ⟨_, he, ?_⟩, rfl, rfl⟩
      rw [h.forCredential he]
      exact List.mem_filterMap.mpr ⟨⟨r, key'⟩, Table.mem_entries_iff.mpr hr, by simp [hinfo]⟩
  refine hrecords.lookup_iff ?_
  rintro r' ⟨i⟩ ⟨j⟩ ⟨key, c, hr, hi⟩ ⟨key', c', hr', hj⟩
  obtain rfl : key = key' := Option.some.inj (hr.symm.trans hr')
  obtain ⟨rfl, -⟩ := h.place_unique hi hj
  rfl

/-- The identifier and the input of a sub-proof are those of its credential. -/
theorem Made.round (h : Made lc node13 version proofReq rc masterSecret objects rounds inputs proof)
    {key : ProvingCredentialKey} (hplace : MadeFrom objects rounds i key c) :
    proof.identifiers[i]? = some (proofIdentifier node13 version c key.timestamp) ∧
      ∃ fc input, rounds[i]? = some ⟨key, fc⟩ ∧
        provingInput lc masterSecret objects key fc c = .ok input ∧
        inputs[i]? = some input := by
  obtain ⟨⟨key', fc⟩, he, hkey⟩ := Option.map_eq_some_iff.mp hplace.1
  obtain rfl : key' = key := hkey
  obtain ⟨credential, input, hcred, hinput, hin, hid⟩ := h.proved.round i _ he
  obtain rfl : credential = c := Option.some.inj (hcred.symm.trans hplace.2)
  exact ⟨hid, fc, input, he, hinput, hin⟩

end Entries

end Made

end SimpleAsset.Indy.Anoncreds
