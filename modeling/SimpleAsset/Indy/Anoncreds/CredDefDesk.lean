import SimpleAsset.Indy.Anoncreds.CredDefCommands

/-! The credential definitions of an issuer over the records of its wallet, and what one event does
to them. -/
namespace SimpleAsset.Indy.IssuerCommandExecutor
open SimpleAsset.Library Wallet Wallet.WalletService
open Anoncreds (SchemaId CredentialDefinitionId)
open NonSecretsCommandExecutor (confined_execute isReserved_addPrefix sameOutside_refl)

section Desk
variable (K : ClKeys)

/-- What an issuer has for a credential definition. -/
structure Definition where
  credDef : CredentialDefinitionV1 K
  privateKey : CredentialDefinitionPrivateKey K
  correctnessProof : CredentialDefinitionCorrectnessProof K
  schemaId : String
  /-- The rotation that is prepared. -/
  next : Option (TemporaryCredentialDefinition K)

/-- The definitions of an issuer by their ids. -/
abbrev Desk := String → Option (Definition K)

variable {K}

def Definition.keys (d : Definition K) : GeneratedKeys K :=
  ⟨d.credDef.value, d.privateKey.value, d.correctnessProof.value⟩

def TemporaryCredentialDefinition.keys (t : TemporaryCredentialDefinition K) : GeneratedKeys K :=
  ⟨t.credDef.value, t.credDefPrivKey.value, t.credDefCorrectnessProof.value⟩

/-- The definition when a rotation is applied. -/
def Definition.rotated (d : Definition K) (t : TemporaryCredentialDefinition K) : Definition K :=
  ⟨t.credDef, t.credDefPrivKey, t.credDefCorrectnessProof, d.schemaId, none⟩

/-- What a credential definition is besides its keys. -/
def CredentialDefinitionV1.identity (credDef : CredentialDefinitionV1 K) :
    CredentialDefinitionId × SchemaId × SignatureType × String :=
  (credDef.id, credDef.schemaId, credDef.signatureType, credDef.tag)

def PendingRotation.identity (p : PendingRotation) :
    CredentialDefinitionId × SchemaId × SignatureType × String :=
  (p.credDefId, p.schemaId, p.signatureType, p.tag)

/-- A definition has its id and keys that belong together, and so has the rotation that is
prepared. -/
structure Definition.Valid (G : GeneratedKeys K → Prop) (name : String)
    (d : Definition K) : Prop where
  id : d.credDef.id.value = name
  keys : G d.keys
  next : ∀ t, d.next = some t → t.credDef.identity = d.credDef.identity ∧ G t.keys

/-- The kinds of records of an issuer. -/
inductive Part
  | schema
  | credDef
  | privateKey
  | correctnessProof
  | schemaId
  | temporary
  deriving DecidableEq

def Part.typeName : Part → String
  | .schema => "Schema"
  | .credDef => "CredentialDefinition"
  | .privateKey => "CredentialDefinitionPrivateKey"
  | .correctnessProof => "CredentialDefinitionCorrectnessProof"
  | .schemaId => "SchemaId"
  | .temporary => "TemporaryCredentialDefinition"

def partKey (part : Part) (name : String) : String × String := (addPrefix part.typeName, name)

variable (J : IssuerSerde K)

/-- The wallet has the records of a definition, or none. -/
structure Stores (m : RecordMap) (name : String) (d : Option (Definition K)) : Prop where
  credDef : m.lookup (partKey .credDef name) = d.map fun d => entryOf J.credDefType d.credDef
  privateKey : m.lookup (partKey .privateKey name) = d.map fun d =>
    entryOf J.privateKeyType d.privateKey
  correctnessProof : m.lookup (partKey .correctnessProof name) =
    d.map fun d => entryOf J.correctnessProofType d.correctnessProof
  schemaId : m.lookup (partKey .schemaId name) = d.map fun d => ⟨d.schemaId, ∅⟩
  temporary : m.lookup (partKey .temporary name) = (d.bind (·.next)).map fun t =>
    entryOf J.temporaryType t

variable {J} {m m' : RecordMap} {name name' : String} {a b : Part} {d : Option (Definition K)}

theorem partKey_inj : partKey a name = partKey b name' ↔ a = b ∧ name = name' := by
  rw [partKey, partKey, Prod.mk.injEq, addPrefix_inj]
  have hname : a.typeName = b.typeName ↔ a = b := by
    constructor
    · cases a <;> cases b <;> decide
    · exact congrArg Part.typeName
  rw [hname]

theorem isReserved_partKey (part : Part) (name : String) :
    NonSecretsCommandExecutor.isReserved (partKey part name).1 = true := isReserved_addPrefix _

theorem partKey_ne (h : a ≠ b) : partKey a name ≠ partKey b name' :=
  fun heq => h (partKey_inj.mp heq).1

theorem lookup_insert_part (h : a ≠ b) (entry : Wallet.Entry) :
    (m.insert (partKey b name') entry).lookup (partKey a name) = m.lookup (partKey a name) :=
  Finmap.lookup_insert_of_ne m (partKey_ne h)

theorem lookup_erase_part (h : a ≠ b) :
    (m.erase (partKey b name')).lookup (partKey a name) = m.lookup (partKey a name) :=
  Finmap.lookup_erase_ne (partKey_ne h)

theorem notMem_insert_part (h : a ≠ b) {entry : Wallet.Entry} (hm : partKey a name ∉ m) :
    partKey a name ∉ m.insert (partKey b name') entry := by
  rw [Finmap.mem_insert]
  exact fun hor => hor.elim (partKey_ne h) hm

/-- Only schemas and the records of one definition differ. -/
def OnlyAt (name : String) (m m' : RecordMap) : Prop :=
  ∀ part name', part ≠ .schema → name' ≠ name →
    m'.lookup (partKey part name') = m.lookup (partKey part name')

theorem onlyAt_refl (m : RecordMap) : OnlyAt name m m := fun _ _ _ _ => rfl

theorem OnlyAt.insert (h : OnlyAt name m m') (part : Part) (entry : Wallet.Entry) :
    OnlyAt name m (m'.insert (partKey part name) entry) := by
  intro part' name' hpart hname
  rw [Finmap.lookup_insert_of_ne _ fun heq =>
    hname (partKey_inj.mp heq).2, h part' name' hpart hname]

theorem OnlyAt.erase (h : OnlyAt name m m') (part : Part) :
    OnlyAt name m (m'.erase (partKey part name)) := by
  intro part' name' hpart hname
  rw [Finmap.lookup_erase_ne fun heq => hname (partKey_inj.mp heq).2, h part' name' hpart hname]

theorem Stores.congr (h : Stores J m name d)
    (hsame : ∀ part, part ≠ .schema →
      m'.lookup (partKey part name) = m.lookup (partKey part name)) :
    Stores J m' name d where
  credDef := (hsame .credDef (by decide)).trans h.credDef
  privateKey := (hsame .privateKey (by decide)).trans h.privateKey
  correctnessProof := (hsame .correctnessProof (by decide)).trans h.correctnessProof
  schemaId := (hsame .schemaId (by decide)).trans h.schemaId
  temporary := (hsame .temporary (by decide)).trans h.temporary

end Desk

section Specs
variable {K : ClKeys} {J : IssuerSerde K} {m : RecordMap} {id : CredentialDefinitionId}
    {d : Definition K}
  {t : TemporaryCredentialDefinition K}

/-- The definition that keys are generated for. -/
def PendingCreation.definition (p : PendingCreation) (keys : GeneratedKeys K) : Definition K where
  credDef := ⟨p.credDefId, p.schemaId, p.signatureType, p.tag, keys.data⟩
  privateKey := ⟨keys.privateKey⟩
  correctnessProof := ⟨keys.correctnessProof⟩
  schemaId := p.schema.id.value
  next := none

/-- The schema is added or it is there. -/
theorem runOn_addSchema (J : IssuerSerde K) (id : String) (schema : SchemaV1)
    (m : RecordMap) : ∃ r m',
    (Stateful.attempt (addIndyObject J.schemaType id schema)).runOn m = (.ok r, m') ∧
      ∀ part name, part ≠ .schema →
        m'.lookup (partKey part name) = m.lookup (partKey part name) := by
  by_cases hmem : keyOf J.schemaType id ∈ m
  · refine ⟨.error (alreadyExists J.schemaType id), m, ?_, fun _ _ _ => rfl⟩
    rw [Stateful.runOn_attempt, runOn_addIndyObject_of_mem hmem]
  · refine ⟨.ok (J.schemaType.toJson schema),
      m.insert (partKey .schema id) (entryOf J.schemaType schema), ?_, ?_⟩
    · rw [Stateful.runOn_attempt, runOn_addIndyObject hmem]
      rfl
    · exact fun part name hpart => lookup_insert_part hpart _

/-- The record of a schema id is added. -/
theorem runOn_addSchemaId {name : String} (h : partKey .schemaId name ∉ m) (value : String) :
    (WalletService.addRecord (addPrefix "SchemaId") name value ∅).runOn m =
      (.ok (), m.insert (partKey .schemaId name) ⟨value, ∅⟩) := by
  have hnew : (addPrefix "SchemaId", name) ∉ m := h
  rw [WalletService.addRecord, exec, Stateful.runOn_mapError, Stateful.runOn_step, RecordMap.add,
    if_neg hnew]
  rfl

/-- All records of a new definition are added. -/
theorem runOn_completeCreation (p : PendingCreation) (keys : GeneratedKeys K)
    (h : Stores J m p.credDefId.value none) : ∃ m',
    (completeCreation J p keys).runOn m = (.ok (J.credDef.toJson (p.definition keys).credDef), m') ∧
      Stores J m' p.credDefId.value (some (p.definition keys)) ∧ OnlyAt p.credDefId.value m m' := by
  let name := p.credDefId.value
  let credDef : CredentialDefinitionV1 K :=
    ⟨p.credDefId, p.schemaId, p.signatureType, p.tag, keys.data⟩
  let m₁ := m.insert (partKey .credDef name) (entryOf J.credDefType credDef)
  let m₂ := m₁.insert (partKey .privateKey name) (entryOf J.privateKeyType ⟨keys.privateKey⟩)
  let m₃ := m₂.insert (partKey .correctnessProof name)
    (entryOf J.correctnessProofType ⟨keys.correctnessProof⟩)
  obtain ⟨r, m₄, hschema, hsame⟩ := runOn_addSchema J p.schemaId.value p.schema m₃
  have hnone : ∀ {key}, m.lookup key = none → key ∉ m := Finmap.lookup_eq_none.mp
  have hprivateKeyNew : partKey .privateKey name ∉ m₁ :=
    notMem_insert_part (by decide) (hnone h.privateKey)
  have hproofNew : partKey .correctnessProof name ∉ m₂ :=
    notMem_insert_part (by decide) (notMem_insert_part (by decide) (hnone h.correctnessProof))
  have hlookup₄ : ∀ part, part ≠ .credDef → part ≠ .privateKey → part ≠ .correctnessProof →
      part ≠ .schema →
      m₄.lookup (partKey part name) = m.lookup (partKey part name) := by
    intro part h₁ h₂ h₃ h₄
    rw [hsame part name h₄, lookup_insert_part h₃, lookup_insert_part h₂, lookup_insert_part h₁]
  have hschemaIdNew : partKey .schemaId name ∉ m₄ := by
    rw [← Finmap.lookup_eq_none, hlookup₄ .schemaId (by decide) (by decide) (by decide) (by decide)]
    exact h.schemaId
  have hcredDef : (addIndyObject J.credDefType p.credDefId.value
      ⟨p.credDefId, p.schemaId, p.signatureType, p.tag, keys.data⟩).runOn m =
        (.ok (J.credDef.toJson credDef), m₁) :=
    runOn_addIndyObject (T := J.credDefType) (hnone h.credDef) _
  have hprivateKey : (addIndyObject J.privateKeyType p.credDefId.value ⟨keys.privateKey⟩).runOn m₁ =
      (.ok _, m₂) :=
    runOn_addIndyObject hprivateKeyNew _
  have hproof :
      (addIndyObject J.correctnessProofType p.credDefId.value ⟨keys.correctnessProof⟩).runOn m₂ =
      (.ok _, m₃) := runOn_addIndyObject hproofNew _
  refine ⟨m₄.insert (partKey .schemaId name) ⟨p.schema.id.value, ∅⟩, ?_, ?_, ?_⟩
  · rw [completeCreation, Stateful.runOn_bind_ok hcredDef, Stateful.runOn_bind_ok hprivateKey,
      Stateful.runOn_bind_ok hproof, Stateful.runOn_bind_ok hschema,
      Stateful.runOn_bind_ok (runOn_addSchemaId hschemaIdNew _)]
    rfl
  · constructor
    · rw [lookup_insert_part (by decide), hsame _ _ (by decide), lookup_insert_part (by decide),
        lookup_insert_part (by decide)]
      exact Finmap.lookup_insert m
    · rw [lookup_insert_part (by decide), hsame _ _ (by decide), lookup_insert_part (by decide)]
      exact Finmap.lookup_insert m₁
    · rw [lookup_insert_part (by decide), hsame _ _ (by decide)]
      exact Finmap.lookup_insert m₂
    · exact Finmap.lookup_insert m₄
    · rw [lookup_insert_part (by decide),
        hlookup₄ .temporary (by decide) (by decide) (by decide) (by decide)]
      exact h.temporary
  · apply OnlyAt.insert
    intro part name' hpart hname
    rw [hsame part name' hpart]
    exact ((((onlyAt_refl m).insert .credDef _).insert .privateKey _).insert .correctnessProof _)
      part name' hpart hname

/-- Nothing is added for a definition that is there. -/
theorem runOn_completeCreation_of_some (p : PendingCreation) (keys : GeneratedKeys K)
    (h : Stores J m p.credDefId.value (some d)) :
    (completeCreation J p keys).runOn m =
      (.error (alreadyExists J.credDefType p.credDefId.value), m) := by
  have hmem : keyOf J.credDefType p.credDefId.value ∈ m := Finmap.mem_iff.mpr ⟨_, h.credDef⟩
  exact Stateful.runOn_bind_error (runOn_addIndyObject_of_mem hmem _)

theorem object_credDef (h : Stores J m id.value (some d)) :
    object J.credDefType m id.value = some d.credDef :=
  object_of_lookup h.credDef rfl

theorem object_temporary (h : Stores J m id.value (some d)) (ht : d.next = some t) :
    object J.temporaryType m id.value = some t := by
  have hlookup := h.temporary
  rw [Option.bind_some, ht] at hlookup
  exact object_of_lookup hlookup rfl

/-- The rotation that keys are generated for. -/
def PendingRotation.temporary (p : PendingRotation) (keys : GeneratedKeys K) :
    TemporaryCredentialDefinition K where
  credDef := ⟨p.credDefId, p.schemaId, p.signatureType, p.tag, keys.data⟩
  credDefPrivKey := ⟨keys.privateKey⟩
  credDefCorrectnessProof := ⟨keys.correctnessProof⟩

theorem runOn_completeRotation (p : PendingRotation) (keys : GeneratedKeys K)
    (h : Stores J m p.credDefId.value (some d)) (hnext : d.next = none) : ∃ m',
    (completeRotation J p keys).runOn m = (.ok (J.credDef.toJson (p.temporary keys).credDef), m') ∧
      Stores J m' p.credDefId.value (some { d with next := some (p.temporary keys) }) ∧
      OnlyAt p.credDefId.value m m' := by
  have hnew : keyOf J.temporaryType p.credDefId.value ∉ m := by
    rw [← Finmap.lookup_eq_none]
    refine h.temporary.trans ?_
    rw [Option.bind_some, hnext]
    rfl
  refine ⟨m.insert (partKey .temporary p.credDefId.value)
    (entryOf J.temporaryType (p.temporary keys)), ?_, ?_, ?_⟩
  · rw [completeRotation, Stateful.runOn_bind_ok (runOn_addIndyObject hnew _)]
    rfl
  · constructor
    · exact (lookup_insert_part (by decide) _).trans h.credDef
    · exact (lookup_insert_part (by decide) _).trans h.privateKey
    · exact (lookup_insert_part (by decide) _).trans h.correctnessProof
    · exact (lookup_insert_part (by decide) _).trans h.schemaId
    · exact Finmap.lookup_insert m
  · exact (onlyAt_refl m).insert .temporary _

/-- One of two rotations of a definition that were started at the same time fails. -/
theorem runOn_completeRotation_of_some (p : PendingRotation) (keys : GeneratedKeys K)
    (h : Stores J m p.credDefId.value (some d)) (hnext : d.next = some t) :
    (completeRotation J p keys).runOn m =
      (.error (alreadyExists J.temporaryType p.credDefId.value), m) := by
  have hmem : keyOf J.temporaryType p.credDefId.value ∈ m :=
    mem_of_object (object_temporary h hnext)
  exact Stateful.runOn_bind_error (runOn_addIndyObject_of_mem hmem _)

/-- The records of the definition are those that were prepared. -/
theorem runOn_applyRotation (h : Stores J m id.value (some d)) (hnext : d.next = some t) : ∃ m',
    (applyRotation J id).runOn m = (.ok (), m') ∧ Stores J m' id.value (some (d.rotated t)) ∧
    OnlyAt id.value m m' := by
  let m₁ := m.insert (partKey .credDef id.value) (entryOf J.credDefType t.credDef)
  let m₂ := m₁.insert (partKey .privateKey id.value) (entryOf J.privateKeyType t.credDefPrivKey)
  let m₃ := m₂.insert (partKey .correctnessProof id.value)
    (entryOf J.correctnessProofType t.credDefCorrectnessProof)
  have hcredDef : (updateIndyObject J.credDefType id.value t.credDef).runOn m = (.ok _, m₁) :=
    runOn_updateIndyObject (T := J.credDefType) h.credDef _
  have hprivateKey : (updateIndyObject J.privateKeyType id.value t.credDefPrivKey).runOn m₁ =
      (.ok _, m₂) :=
    runOn_updateIndyObject (T := J.privateKeyType)
      ((lookup_insert_part (b := .credDef) (by decide) _).trans h.privateKey) _
  have hproof : (updateIndyObject J.correctnessProofType id.value t.credDefCorrectnessProof).runOn
      m₂ = (.ok _, m₃) :=
    runOn_updateIndyObject (T := J.correctnessProofType)
      ((lookup_insert_part (b := .privateKey) (by decide) _).trans
      ((lookup_insert_part (b := .credDef) (by decide) _).trans h.correctnessProof)) _
  have htemporary : keyOf J.temporaryType id.value ∈ m₃ := by
    have hmem : keyOf J.temporaryType id.value ∈ m := mem_of_object (object_temporary h hnext)
    exact Finmap.mem_insert.mpr
      (Or.inr (Finmap.mem_insert.mpr (Or.inr (Finmap.mem_insert.mpr (Or.inr hmem)))))
  refine ⟨m₃.erase (partKey .temporary id.value), ?_, ?_, ?_⟩
  · rw [applyRotation, Stateful.runOn_bind_ok (runOn_getIndyObject (object_credDef h)),
      Stateful.runOn_bind_ok (runOn_getIndyObject (object_temporary h hnext)),
      Stateful.runOn_bind_ok hcredDef, Stateful.runOn_bind_ok hprivateKey,
      Stateful.runOn_bind_ok hproof]
    exact runOn_deleteIndyRecord htemporary
  · constructor
    · rw [lookup_erase_part (by decide), lookup_insert_part (by decide),
        lookup_insert_part (by decide)]
      exact Finmap.lookup_insert m
    · rw [lookup_erase_part (by decide), lookup_insert_part (by decide)]
      exact Finmap.lookup_insert m₁
    · rw [lookup_erase_part (by decide)]
      exact Finmap.lookup_insert m₂
    · rw [lookup_erase_part (by decide), lookup_insert_part (by decide),
        lookup_insert_part (by decide), lookup_insert_part (by decide)]
      exact h.schemaId
    · exact Finmap.lookup_erase _ m₃
  · exact ((((onlyAt_refl m).insert .credDef _).insert .privateKey _).insert .correctnessProof
      _).erase .temporary

theorem runOn_getCredDef_of_none (h : Stores J m id.value none) :
    (getIndyObject J.credDefType id.value).runOn m = (.error (.err itemNotFound), m) :=
  runOn_getIndyObject_of_none h.credDef

theorem runOn_getTemporary_of_none (h : Stores J m id.value (some d)) (hnext : d.next = none) :
    (getIndyObject J.temporaryType id.value).runOn m = (.error (.err itemNotFound), m) := by
  apply runOn_getIndyObject_of_none
  refine h.temporary.trans ?_
  rw [Option.bind_some, hnext]
  rfl

theorem runOn_startRotation_of_none (h : Stores J m id.value none)
    (config : Option CredentialDefinitionConfig) (cb : ℕ) :
    (startRotation J id config cb).runOn m = (.error (.err itemNotFound), m) :=
  Stateful.runOn_bind_error (runOn_getCredDef_of_none h)

theorem runOn_startRotation_of_next (h : Stores J m id.value (some d)) (hnext : d.next = some t)
    (config : Option CredentialDefinitionConfig) (cb : ℕ) :
    (startRotation J id config cb).runOn m = (.ok (.inl (J.credDef.toJson t.credDef)), m) := by
  rw [startRotation, Stateful.runOn_bind_ok (runOn_getIndyObject (object_credDef h)),
    Stateful.runOn_bind_ok (Stateful.runOn_attempt _ m),
    runOn_getIndyObject (object_temporary h hnext)]
  rfl

/-- Nothing is prepared yet: new keys are asked for. -/
theorem runOn_startRotation (h : Stores J m id.value (some d)) (hnext : d.next = none)
    (config : Option CredentialDefinitionConfig) (cb : ℕ) :
    (∃ fault, (startRotation J id config cb).runOn m = (.error fault, m)) ∨
      ∃ p : PendingRotation, (startRotation J id config cb).runOn m = (.ok (.inr p), m) ∧
        p.identity = d.credDef.identity := by
  rw [startRotation, Stateful.runOn_bind_ok (runOn_getIndyObject (object_credDef h)),
    Stateful.runOn_bind_ok (Stateful.runOn_attempt _ m), runOn_getTemporary_of_none h hnext]
  have hsnd : ((getIndyObject J.schemaType d.credDef.schemaId.value).runOn m).2 = m :=
    snd_getIndyObject
  rcases hschema : (getIndyObject J.schemaType d.credDef.schemaId.value).runOn m
    with ⟨fault | schema, m'⟩
  · rw [hschema] at hsnd
    obtain rfl : m' = m := hsnd
    exact Or.inl ⟨fault, Stateful.runOn_bind_error hschema⟩
  · rw [hschema] at hsnd
    obtain rfl : m' = m := hsnd
    exact Or.inr ⟨_, Stateful.runOn_bind_ok hschema, rfl⟩

/-- Nothing is applied that was not prepared. -/
theorem runOn_applyRotation_of_none (h : Stores J m id.value none) :
    (applyRotation J id).runOn m = (.error (.err itemNotFound), m) :=
  Stateful.runOn_bind_error (runOn_getCredDef_of_none h)

theorem runOn_applyRotation_of_next (h : Stores J m id.value (some d)) (hnext : d.next = none) :
    (applyRotation J id).runOn m = (.error (.err itemNotFound), m) := by
  rw [applyRotation, Stateful.runOn_bind_ok (runOn_getIndyObject (object_credDef h))]
  exact Stateful.runOn_bind_error (runOn_getTemporary_of_none h hnext)

theorem runOn_walletGetSchemaId (h : Stores J m id.value (some d)) :
    (walletGetSchemaId id.value).runOn m = (.ok ⟨d.schemaId⟩, m) := by
  have hget : (getRecord (addPrefix "SchemaId") id.value RecordOptions.idValue).runOn m =
      (.ok (RecordMap.viewOf id.value (addPrefix "SchemaId") ⟨d.schemaId, ∅⟩ false true false),
        m) := by
    have hlookup : m.lookup (addPrefix "SchemaId", id.value) = some ⟨d.schemaId, ∅⟩ := h.schemaId
    rw [getRecord, walletGet, Stateful.runOn_mapError, Stateful.runOn_reads, RecordMap.get, hlookup]
    rfl
  rw [walletGetSchemaId, Stateful.runOn_bind_ok hget]
  rfl

theorem runOn_createCredentialOffer_of_none (h : Stores J m id.value none)
    (nonce : IndyResult String) :
    (createCredentialOffer J id nonce).runOn m = (.error (.err itemNotFound), m) :=
  Stateful.runOn_bind_error (runOn_getIndyObject_of_none h.correctnessProof)

theorem runOn_createCredentialOffer (h : Stores J m id.value (some d)) (nonce : IndyResult String) :
    (createCredentialOffer J id nonce).runOn m = ((nonce.mapError Fault.err).map fun nonce =>
      ⟨⟨d.schemaId⟩, id, d.correctnessProof.value, nonce, none⟩, m) := by
  have hproof : object J.correctnessProofType m id.value = some d.correctnessProof :=
    object_of_lookup h.correctnessProof rfl
  rw [createCredentialOffer, Stateful.runOn_bind_ok (runOn_getIndyObject hproof)]
  cases nonce with
  | error e => rfl
  | ok nonce =>
    rw [ofUrsa, pure_bind, Stateful.runOn_bind_ok (runOn_walletGetSchemaId h)]
    rfl

end Specs

section Runs
variable {K : ClKeys}

/-- What callbacks are told of one event, and what it does to the definitions. -/
inductive Change (J : IssuerSerde K) (desk : Desk K) : Desk K → List (Told K) → Prop
  | nothing : Change J desk desk []
  | failed (e : IndyError) : Change J desk desk [.failed e]
  | found (id : CredentialDefinitionId) (d : Definition K) (h : desk id.value = some d) :
    Change J desk desk [.created id (J.credDef.toJson d.credDef)]
  | created (id : CredentialDefinitionId) (d : Definition K) (h : desk id.value = none)
      (hnext : d.next = none) :
    Change J desk (Function.update desk id.value (some d))
    [.created id (J.credDef.toJson d.credDef)]
  | offered (id : CredentialDefinitionId) (d : Definition K) (h : desk id.value = some d)
      (nonce : String) :
    Change J desk desk [.offered ⟨⟨d.schemaId⟩, id, d.correctnessProof.value, nonce, none⟩]
  | told (id : CredentialDefinitionId) (d : Definition K) (t : TemporaryCredentialDefinition K)
    (h : desk id.value = some d) (hnext : d.next = some t) :
    Change J desk desk [.rotationStarted id (J.credDef.toJson t.credDef)]
  | prepared (id : CredentialDefinitionId) (d : Definition K) (t : TemporaryCredentialDefinition K)
    (h : desk id.value = some d) (hnext : d.next = none) :
    Change J desk (Function.update desk id.value (some { d with next := some t }))
      [.rotationStarted id (J.credDef.toJson t.credDef)]
  | applied (id : CredentialDefinitionId) (d : Definition K) (t : TemporaryCredentialDefinition K)
    (h : desk id.value = some d) (hnext : d.next = some t) :
    Change J desk (Function.update desk id.value (some (d.rotated t))) [.rotationApplied id]

/-- The wallet has the definitions of the desk, and what waits for keys is about them. -/
structure Orderly (G : GeneratedKeys K → Prop) (J : IssuerSerde K) (desk : Desk K)
    (s : Executor K) : Prop where
  stores : ∀ name, Stores J s.wallet name (desk name)
  valid : ∀ name d, desk name = some d → d.Valid G name
  rotations : ∀ cbId p, s.rotations.lookup cbId = some p →
    ∃ d, desk p.credDefId.value = some d ∧ p.identity = d.credDef.identity

/-- Generated keys are good ones. -/
def GoodKeys (G : GeneratedKeys K → Prop) : IssuerEvent K → Prop
  | .createCredDefContinue _ (.ok keys) | .rotateStartComplete _ (.ok keys) => G keys
  | _ => True

variable {G : GeneratedKeys K → Prop} {J : IssuerSerde K} {desk : Desk K} {s s' : Executor K}
    {m : RecordMap}

variable (G J) in
/-- What an event may do: it changes the definitions in one of these ways and tells of it. -/
def Advances (desk : Desk K) (s s' : Executor K) : Prop :=
  ∃ desk' told, Change J desk desk' (told.map Prod.snd) ∧ s'.told = s.told ++ told ∧
    Orderly G J desk' s'

theorem Orderly.tell (h : Orderly G J desk s) (cb : ℕ) (told : Told K) :
    Orderly G J desk (s.tell cb told) :=
  ⟨h.stores, h.valid, h.rotations⟩

theorem Orderly.dead (h : Orderly G J desk s) : Orderly G J desk { s with dead := true } :=
  ⟨h.stores, h.valid, h.rotations⟩

theorem Orderly.eraseRotation (h : Orderly G J desk s) (cbId : CommandHandle) :
    Orderly G J desk { s with rotations := s.rotations.erase cbId } :=
  ⟨h.stores, h.valid, Table.forall_lookup_erase h.rotations⟩

theorem advances_silent (h : Orderly G J desk s') (htold : s'.told = s.told) :
    Advances G J desk s s' :=
  ⟨desk, [], .nothing, by rw [htold, List.append_nil], h⟩

/-- A callback is told of the definitions as they are. -/
theorem advances_tell (h : Orderly G J desk s') (htold : s'.told = s.told) (cb : ℕ) {told : Told K}
    (hchange : Change J desk desk [told]) : Advances G J desk s (s'.tell cb told) :=
  ⟨desk, [(cb, told)], hchange, by rw [Executor.tell, htold], h.tell cb told⟩

theorem advances_fail (h : Orderly G J desk s') (htold : s'.told = s.told) (cb : ℕ)
    (fault : Fault) :
    Advances G J desk s (s'.fail cb fault) := by
  cases fault with
  | err e => exact advances_tell h htold cb (.failed e)
  | panic | outOfFuel => exact advances_silent h.dead htold

/-- The records of one definition change, and what waits for keys is still about it. -/
theorem Orderly.update (h : Orderly G J desk s) {name : String} {d : Definition K}
    (hstores : Stores J m name (some d)) (honly : OnlyAt name s.wallet m) (hvalid : d.Valid G name)
    (hidentity : ∀ d', desk name = some d' → d.credDef.identity = d'.credDef.identity) :
    Orderly G J (Function.update desk name (some d)) { s with wallet := m } := by
  refine ⟨?_, ?_, ?_⟩
  · intro name'
    by_cases hname : name' = name
    · rw [hname, Function.update_self]
      exact hstores
    · rw [Function.update_of_ne hname]
      exact (h.stores name').congr fun part hpart => honly part name' hpart hname
  · intro name' d' hd'
    by_cases hname : name' = name
    · rw [hname, Function.update_self] at hd'
      rw [hname, ← Option.some.inj hd']
      exact hvalid
    · rw [Function.update_of_ne hname] at hd'
      exact h.valid name' d' hd'
  · intro cbId p hp
    obtain ⟨d', hd', hp'⟩ := h.rotations cbId p hp
    by_cases hname : p.credDefId.value = name
    · rw [hname] at hd' ⊢
      exact ⟨d, Function.update_self _ _ _, hp'.trans (hidentity d' hd').symm⟩
    · exact ⟨d', (Function.update_of_ne hname _ _).trans hd', hp'⟩

/-- What is told of a change that the wallet has made. -/
theorem advances_update (h : Orderly G J desk s') (htold : s'.told = s.told) (cb : ℕ)
    {name : String} {d : Definition K}
    {told : Told K} (hstores : Stores J m name (some d)) (honly : OnlyAt name s'.wallet m)
    (hvalid : d.Valid G name)
    (hidentity : ∀ d', desk name = some d' → d.credDef.identity = d'.credDef.identity)
    (hchange : Change J desk (Function.update desk name (some d)) [told]) :
    Advances G J desk s ({ s' with wallet := m }.tell cb told) := by
  refine ⟨_, [(cb, told)], hchange, ?_, (h.update hstores honly hvalid hidentity).tell cb told⟩
  rw [Executor.tell, htold]

theorem advances_createCredDef (h : Orderly G J desk s) (node13 : Bool)
    (issuerDid : Anoncreds.DidValue) (schema : SchemaV1) (tag : String) (type : Option String)
    (config : Option CredentialDefinitionConfig) (cb : ℕ) :
    Advances G J desk s (s.createCredDef J node13 issuerDid schema tag type config cb) := by
  rw [Executor.createCredDef]
  rcases prepareCreation J node13 issuerDid schema tag type config cb with e | p
  · exact advances_tell h rfl cb (.failed e)
  · have hstores := h.stores p.credDefId.value
    rcases hdesk : desk p.credDefId.value with _ | d
    · rw [hdesk] at hstores
      have hget :=
        runOn_getIndyRecordValue_of_none (T := J.credDefType) hstores.credDef RecordOptions.idValue
      dsimp only
      rw [hget]
      exact advances_silent ⟨h.stores, h.valid, h.rotations⟩ rfl
    · rw [hdesk] at hstores
      have hget := runOn_getIndyRecordValue (T := J.credDefType) hstores.credDef
      dsimp only
      rw [hget]
      exact advances_tell h rfl cb (.found p.credDefId d hdesk)

theorem advances_createCredDefContinue (h : Orderly G J desk s) (cbId : CommandHandle)
    (result : IndyResult (GeneratedKeys K))
    (hgood : GoodKeys G (.createCredDefContinue cbId result)) :
    Advances G J desk s (s.createCredDefContinue J cbId result) := by
  rw [Executor.createCredDefContinue]
  rcases s.creations.lookup cbId with _ | p
  · exact advances_silent h.dead rfl
  · have herased : Orderly G J desk { s with creations := s.creations.erase cbId } :=
      ⟨h.stores, h.valid, h.rotations⟩
    rcases result with e | keys
    · exact advances_tell herased rfl p.cb (.failed e)
    · have hstores := h.stores p.credDefId.value
      dsimp only
      rcases hdesk : desk p.credDefId.value with _ | d
      · rw [hdesk] at hstores
        obtain ⟨m', hrun, hstores', honly⟩ := runOn_completeCreation p keys hstores
        rw [Executor.onWallet, hrun]
        refine advances_update herased rfl p.cb hstores' honly
          ⟨rfl, hgood, fun t ht => by cases ht⟩ ?_ ?_
        · intro d' hd'
          rw [hdesk] at hd'
          cases hd'
        · exact .created p.credDefId (p.definition keys) hdesk rfl
      · rw [hdesk] at hstores
        rw [Executor.onWallet, runOn_completeCreation_of_some p keys hstores]
        exact advances_fail herased rfl p.cb _

theorem advances_rotateStart (h : Orderly G J desk s) (id : CredentialDefinitionId)
    (config : Option CredentialDefinitionConfig) (cb : ℕ) :
    Advances G J desk s (s.rotateStart J id config cb) := by
  have hstores := h.stores id.value
  rw [Executor.rotateStart, Executor.onWallet]
  rcases hdesk : desk id.value with _ | d
  · rw [hdesk] at hstores
    rw [runOn_startRotation_of_none hstores]
    exact advances_fail h rfl cb _
  · rw [hdesk] at hstores
    rcases hnext : d.next with _ | t
    · rcases runOn_startRotation hstores hnext config cb with ⟨fault, hrun⟩ | ⟨p, hrun, hp⟩
      · rw [hrun]
        exact advances_fail h rfl cb fault
      · rw [hrun]
        refine advances_silent ⟨h.stores, h.valid, Table.forall_lookup_insert ?_ h.rotations⟩ rfl
        have hid : p.credDefId = d.credDef.id := congrArg Prod.fst hp
        rw [hid, (h.valid id.value d hdesk).id]
        exact ⟨d, hdesk, hp⟩
    · rw [runOn_startRotation_of_next hstores hnext]
      exact advances_tell h rfl cb (.told id d t hdesk hnext)

theorem advances_rotateStartComplete (h : Orderly G J desk s) (cbId : CommandHandle)
    (result : IndyResult (GeneratedKeys K))
    (hgood : GoodKeys G (.rotateStartComplete cbId result)) :
    Advances G J desk s (s.rotateStartComplete J cbId result) := by
  rw [Executor.rotateStartComplete]
  rcases hp : s.rotations.lookup cbId with _ | p
  · exact advances_silent h.dead rfl
  · have herased := h.eraseRotation cbId
    rcases result with e | keys
    · exact advances_tell herased rfl p.cb (.failed e)
    · obtain ⟨d, hdesk, hidentity⟩ := h.rotations cbId p hp
      have hstores := h.stores p.credDefId.value
      rw [hdesk] at hstores
      have hvalid := h.valid p.credDefId.value d hdesk
      dsimp only
      rw [Executor.onWallet]
      rcases hnext : d.next with _ | t
      · obtain ⟨m', hrun, hstores', honly⟩ := runOn_completeRotation p keys hstores hnext
        rw [hrun]
        refine advances_update herased rfl p.cb hstores' honly ⟨hvalid.id, hvalid.keys, ?_⟩ ?_ ?_
        · intro t ht
          obtain rfl := Option.some.inj ht
          exact ⟨hidentity, hgood⟩
        · intro d' hd'
          rw [hdesk, Option.some.injEq] at hd'
          rw [← hd']
        · exact .prepared p.credDefId d (p.temporary keys) hdesk hnext
      · rw [runOn_completeRotation_of_some p keys hstores hnext]
        exact advances_fail herased rfl p.cb _

theorem advances_rotateApply (h : Orderly G J desk s) (id : CredentialDefinitionId) (cb : ℕ) :
    Advances G J desk s
      (s.onWallet cb (applyRotation J id) fun s _ => s.tell cb (.rotationApplied id)) := by
  have hstores := h.stores id.value
  rw [Executor.onWallet]
  rcases hdesk : desk id.value with _ | d
  · rw [hdesk] at hstores
    rw [runOn_applyRotation_of_none hstores]
    exact advances_fail h rfl cb _
  · rw [hdesk] at hstores
    rcases hnext : d.next with _ | t
    · rw [runOn_applyRotation_of_next hstores hnext]
      exact advances_fail h rfl cb _
    · have hvalid := h.valid id.value d hdesk
      obtain ⟨hidentity, hkeys⟩ := hvalid.next t hnext
      obtain ⟨m', hrun, hstores', honly⟩ := runOn_applyRotation hstores hnext
      rw [hrun]
      refine advances_update h rfl cb hstores' honly ⟨?_, hkeys, fun t ht => by cases ht⟩ ?_ ?_
      · have hid : t.credDef.id = d.credDef.id := congrArg Prod.fst hidentity
        exact (congrArg CredentialDefinitionId.value hid).trans hvalid.id
      · intro d' hd'
        rw [hdesk, Option.some.injEq] at hd'
        rw [← hd']
        exact hidentity
      · exact .applied id d t hdesk hnext

theorem advances_createCredentialOffer (h : Orderly G J desk s) (id : CredentialDefinitionId)
    (nonce : IndyResult String) (cb : ℕ) : Advances G J desk s
      (s.onWallet cb (createCredentialOffer J id nonce) fun s offer =>
        s.tell cb (.offered offer)) := by
  have hstores := h.stores id.value
  rw [Executor.onWallet]
  rcases hdesk : desk id.value with _ | d
  · rw [hdesk] at hstores
    rw [runOn_createCredentialOffer_of_none hstores]
    exact advances_fail h rfl cb _
  · rw [hdesk] at hstores
    rw [runOn_createCredentialOffer hstores]
    cases nonce with
    | error e => exact advances_fail h rfl cb (.err e)
    | ok nonce => exact advances_tell h rfl cb (.offered id d hdesk nonce)

/-- Every event does one of the changes. -/
theorem advances_step (like : String → String → Bool) (h : Orderly G J desk s) (e : IssuerEvent K)
    (hgood : GoodKeys G e) : Advances G J desk s (s.step J like e) := by
  rw [Executor.step]
  split_ifs
  · exact advances_silent h rfl
  · cases e with
    | createCredDef node13 issuerDid schema tag type config cb =>
      exact advances_createCredDef h node13 issuerDid schema tag type config cb
    | createCredDefContinue cbId result => exact advances_createCredDefContinue h cbId result hgood
    | rotateStart id config cb => exact advances_rotateStart h id config cb
    | rotateStartComplete cbId result => exact advances_rotateStartComplete h cbId result hgood
    | rotateApply id cb => exact advances_rotateApply h id cb
    | createCredentialOffer id nonce cb => exact advances_createCredentialOffer h id nonce cb
    | wallet command =>
      refine advances_silent ⟨?_, h.valid, h.rotations⟩ rfl
      intro name
      have hinside := (confined_execute like (sameOutside_refl s.wallet) command).inside
      exact (h.stores name).congr fun part _ => hinside _ (isReserved_partKey part name)

end Runs

end SimpleAsset.Indy.IssuerCommandExecutor
