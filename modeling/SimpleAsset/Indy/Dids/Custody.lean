import SimpleAsset.Indy.Crypto.UnpackAgreement
import SimpleAsset.Indy.Dids.DidCommands

/-! The keys of the DIDs in a wallet are in the wallet: whatever is done, every DID can sign. -/
namespace SimpleAsset.Indy.Dids
open SimpleAsset.Library Crypto Wallet Wallet.WalletService
open Anoncreds (DidValue)
open NonSecretsCommandExecutor (confined_execute isReserved_addPrefix sameOutside_refl)

variable {S : Sodium} {T : Crypto.Codecs} {D : SeedCodecs} {J : DidSerde}
    {like : String → String → Bool}

section Invariant
variable (S T J)

/-- Both halves of a verkey are in the wallet. -/
def HasKey (m : RecordMap) (verkey : String) : Prop :=
  ∃ key, object J.keyType m verkey = some key ∧ key.verkey = verkey ∧ IsPair S T key

/-- DIDs and the ones that wait for new keys are under their names and have their keys; so are the
keys. -/
structure Custody (m : RecordMap) : Prop where
  did : ∀ name did, object J.didType m name = some did → did.did.value = name ∧
    HasKey S T J m did.verkey
  temporaryDid : ∀ name did, object J.temporaryDidType m name = some did →
    did.did.value = name ∧ HasKey S T J m did.verkey
  key : ∀ name, keyOf J.keyType name ∈ m → HasKey S T J m name

/-- The three types of records that the invariant is about. -/
def IsCustodial (type : String) : Prop :=
  type = addPrefix J.didType.name ∨ type = addPrefix J.temporaryDidType.name ∨
    type = addPrefix J.keyType.name

end Invariant

section Frames
variable {m m' : RecordMap} {name verkey : String} {entry : Wallet.Entry} {key : String × String}

theorem HasKey.congr (h : HasKey S T J m verkey)
    (hsame : ∀ name, m'.lookup (keyOf J.keyType name) = m.lookup (keyOf J.keyType name)) :
    HasKey S T J m' verkey := by
  obtain ⟨k, hk, hverkey, hpair⟩ := h
  refine ⟨k, ?_, hverkey, hpair⟩
  rw [object, hsame]
  exact hk

/-- What does not touch these records keeps the invariant. -/
theorem Custody.congr (h : Custody S T J m)
    (hsame : ∀ key : String × String, IsCustodial J key.1 → m'.lookup key = m.lookup key) :
    Custody S T J m' := by
  have hkeys : ∀ name, m'.lookup (keyOf J.keyType name) = m.lookup (keyOf J.keyType name) :=
    fun name => hsame _ (Or.inr (Or.inr rfl))
  constructor
  · intro name did hdid
    rw [object, hsame _ (Or.inl rfl)] at hdid
    obtain ⟨hname, hkey⟩ := h.did name did hdid
    exact ⟨hname, hkey.congr hkeys⟩
  · intro name did hdid
    rw [object, hsame _ (Or.inr (Or.inl rfl))] at hdid
    obtain ⟨hname, hkey⟩ := h.temporaryDid name did hdid
    exact ⟨hname, hkey.congr hkeys⟩
  · intro name hmem
    rw [← Finmap.lookup_isSome, hkeys, Finmap.lookup_isSome] at hmem
    exact (h.key name hmem).congr hkeys

theorem Custody.insert_other (h : Custody S T J m) (hkey : ¬ IsCustodial J key.1)
    (entry : Wallet.Entry) :
    Custody S T J (m.insert key entry) := by
  apply h.congr
  intro key' hkey'
  apply Finmap.lookup_insert_of_ne
  rintro rfl
  exact hkey hkey'

theorem keyOf_key_ne_did {name name' : String} : keyOf J.keyType name ≠ keyOf J.didType name' := by
  intro h
  have hname : "Key" = "Did" := (keyOf_inj.mp h).1
  exact absurd hname (by decide)

theorem keyOf_key_ne_temporaryDid {name name' : String} :
    keyOf J.keyType name ≠ keyOf J.temporaryDidType name' := by
  intro h
  have hname : "Key" = "TemporaryDid" := (keyOf_inj.mp h).1
  exact absurd hname (by decide)

theorem keyOf_did_ne_temporaryDid {name name' : String} :
    keyOf J.didType name ≠ keyOf J.temporaryDidType name' := by
  intro h
  have hname : "Did" = "TemporaryDid" := (keyOf_inj.mp h).1
  exact absurd hname (by decide)

theorem HasKey.insert_of_ne (h : HasKey S T J m verkey) (hkey : ∀ name, keyOf J.keyType name ≠ key)
    (entry : Wallet.Entry) : HasKey S T J (m.insert key entry) verkey :=
  h.congr fun name => Finmap.lookup_insert_of_ne m (hkey name)

theorem HasKey.erase_of_ne (h : HasKey S T J m verkey) (hkey : ∀ name, keyOf J.keyType name ≠ key) :
    HasKey S T J (m.erase key) verkey :=
  h.congr fun name => Finmap.lookup_erase_ne (hkey name)

/-- A key that is added is no key that was there. -/
theorem HasKey.insert_key (h : HasKey S T J m verkey) (hnew : keyOf J.keyType name ∉ m)
    (entry : Wallet.Entry) :
    HasKey S T J (m.insert (keyOf J.keyType name) entry) verkey := by
  obtain ⟨k, hk, hverkey, hpair⟩ := h
  refine ⟨k, ?_, hverkey, hpair⟩
  rw [object_insert_of_ne _ entry]
  · exact hk
  · intro hsame
    rw [← hsame] at hnew
    exact hnew (mem_of_object hk)

theorem hasKey_insert_key {k : Crypto.Key} (hpair : IsPair S T k) (m : RecordMap) :
    HasKey S T J (m.insert (keyOf J.keyType k.verkey) (entryOf J.keyType k)) k.verkey :=
  ⟨k, object_insert_self _ rfl, rfl, hpair⟩

/-- No key goes, and what is new has its key. -/
theorem Custody.grow (h : Custody S T J m)
    (hkeys : ∀ verkey, HasKey S T J m verkey → HasKey S T J m' verkey)
    (hdid : ∀ name did, object J.didType m' name = some did →
      object J.didType m name = some did ∨ did.did.value = name ∧ HasKey S T J m' did.verkey)
    (htemporary : ∀ name did, object J.temporaryDidType m' name = some did →
      object J.temporaryDidType m name = some did ∨ did.did.value = name ∧
        HasKey S T J m' did.verkey)
    (hkey : ∀ name, keyOf J.keyType name ∈ m' → keyOf J.keyType name ∈ m ∨ HasKey S T J m' name) :
    Custody S T J m' := by
  constructor
  · intro name did hfound
    rcases hdid name did hfound with hbefore | hnew
    · exact ⟨(h.did name did hbefore).1, hkeys _ (h.did name did hbefore).2⟩
    · exact hnew
  · intro name did hfound
    rcases htemporary name did hfound with hbefore | hnew
    · exact ⟨(h.temporaryDid name did hbefore).1, hkeys _ (h.temporaryDid name did hbefore).2⟩
    · exact hnew
  · intro name hmem
    rcases hkey name hmem with hbefore | hnew
    · exact hkeys _ (h.key name hbefore)
    · exact hnew

theorem eq_of_entry {α : Type} {type : ObjectType α} {a a' : α}
    (hentry : entry.value = type.toJson a)
    (h : (type.fromJson entry.value).toOption = some a') : a = a' := by
  rw [hentry, type.fromJson_toJson] at h
  exact Option.some.inj h

theorem Custody.insert_did (h : Custody S T J m) (did : Did) (hkey : HasKey S T J m did.verkey)
    (hentry : entry.value = J.didType.toJson did) :
    Custody S T J (m.insert (keyOf J.didType did.did.value) entry) := by
  have hkeys : ∀ verkey, HasKey S T J m verkey →
      HasKey S T J (m.insert (keyOf J.didType did.did.value) entry) verkey :=
    fun _ hverkey => hverkey.insert_of_ne (fun _ => keyOf_key_ne_did) entry
  apply h.grow hkeys
  · intro name did' hfound
    rcases object_insert_cases hfound with ⟨hname, hvalue⟩ | hbefore
    · obtain rfl := eq_of_entry hentry hvalue
      exact Or.inr ⟨(keyOf_inj.mp hname).2.symm, hkeys _ hkey⟩
    · exact Or.inl hbefore
  · intro name did' hfound
    exact Or.inl ((object_insert_cases hfound).resolve_left fun hsame =>
      keyOf_did_ne_temporaryDid hsame.1.symm)
  · intro name hmem
    exact Or.inl ((Finmap.mem_insert.mp hmem).resolve_left keyOf_key_ne_did)

theorem Custody.insert_temporaryDid (h : Custody S T J m) (did : TemporaryDid)
    (hkey : HasKey S T J m did.verkey) (hentry : entry.value = J.temporaryDidType.toJson did) :
    Custody S T J (m.insert (keyOf J.temporaryDidType did.did.value) entry) := by
  have hkeys : ∀ verkey, HasKey S T J m verkey →
      HasKey S T J (m.insert (keyOf J.temporaryDidType did.did.value) entry) verkey :=
    fun _ hverkey => hverkey.insert_of_ne (fun _ => keyOf_key_ne_temporaryDid) entry
  apply h.grow hkeys
  · intro name did' hfound
    exact Or.inl
      ((object_insert_cases hfound).resolve_left fun hsame => keyOf_did_ne_temporaryDid hsame.1)
  · intro name did' hfound
    rcases object_insert_cases hfound with ⟨hname, hvalue⟩ | hbefore
    · obtain rfl := eq_of_entry hentry hvalue
      exact Or.inr ⟨(keyOf_inj.mp hname).2.symm, hkeys _ hkey⟩
    · exact Or.inl hbefore
  · intro name hmem
    exact Or.inl ((Finmap.mem_insert.mp hmem).resolve_left keyOf_key_ne_temporaryDid)

theorem Custody.insert_key (h : Custody S T J m) {k : Crypto.Key} (hpair : IsPair S T k)
    (hnew : keyOf J.keyType k.verkey ∉ m) :
    Custody S T J (m.insert (keyOf J.keyType k.verkey) (entryOf J.keyType k)) := by
  apply h.grow fun _ hverkey => hverkey.insert_key hnew _
  · intro name did hfound
    exact Or.inl
      ((object_insert_cases hfound).resolve_left fun hsame => keyOf_key_ne_did hsame.1.symm)
  · intro name did hfound
    exact Or.inl ((object_insert_cases hfound).resolve_left fun hsame =>
      keyOf_key_ne_temporaryDid hsame.1.symm)
  · intro name hmem
    rcases Finmap.mem_insert.mp hmem with hsame | hbefore
    · obtain rfl : name = k.verkey := (keyOf_inj.mp hsame).2
      exact Or.inr (hasKey_insert_key hpair m)
    · exact Or.inl hbefore

/-- Records other than keys may be deleted. -/
theorem Custody.erase (h : Custody S T J m) (hkey : ∀ name, keyOf J.keyType name ≠ key) :
    Custody S T J (m.erase key) := by
  apply h.grow fun _ hverkey => hverkey.erase_of_ne hkey
  · exact fun _ _ hfound => Or.inl (object_of_erase hfound)
  · exact fun _ _ hfound => Or.inl (object_of_erase hfound)
  · exact fun _ hmem => Or.inl (Finmap.mem_erase.mp hmem).2

end Frames

section Commands
variable {α : Type} {P : RecordMap → Prop} {random : BytesOf 32}

theorem lift_eq_ok_iff {x : IndyResult α} {m m' : RecordMap} {a : α} :
    (lift x).runOn m = (.ok a, m') ↔ x = .ok a ∧ m' = m := by
  cases x with
  | ok b =>
    rw [lift, Stateful.runOn_pure, Prod.mk.injEq, Except.ok.injEq, Except.ok.injEq,
      eq_comm (a := m)]
  | error e => simp [lift]

theorem keeps_lift (x : IndyResult α) : Stateful.Keeps P (lift x) := by
  cases x with
  | ok a => exact Stateful.keeps_pure a
  | error e => exact Stateful.keeps_throw _

def isOther (name : String) : Bool := decide (name ∉ ["Did", "TemporaryDid", "Key"])

theorem not_isCustodial {type : ObjectType α} {name : String} (h : isOther type.name = true) :
    ¬ IsCustodial J (keyOf type name).1 := by
  have hother : type.name ∉ ["Did", "TemporaryDid", "Key"] := of_decide_eq_true h
  rintro (hdid | htemporary | hkey)
  · exact hother (List.mem_of_getElem? (i := 0) (congrArg some (addPrefix_inj.mp hdid).symm))
  · exact hother (List.mem_of_getElem? (i := 1) (congrArg some (addPrefix_inj.mp htemporary).symm))
  · exact hother (List.mem_of_getElem? (i := 2) (congrArg some (addPrefix_inj.mp hkey).symm))

theorem writable_other {type : ObjectType α} {name : String} {a : α}
    (h : isOther type.name = true) :
    Writable (Custody S T J) type name a :=
  fun _ entry hm _ => hm.insert_other (not_isCustodial h) entry

theorem custody_addIndyObject {type : ObjectType α} {name : String} {a : α}
    (h : isOther type.name = true) :
    Stateful.Keeps (Custody S T J) (addIndyObject type name a) :=
  keeps_addIndyObject fun _ hm _ => hm.insert_other (not_isCustodial h) _

/-- A DID and its key are added together. -/
theorem custody_addDidAndKey {did : Did} {k : Crypto.Key} (hverkey : did.verkey = k.verkey)
    (hpair : IsPair S T k) :
    Stateful.Keeps (Custody S T J) (do
      let _ ← addIndyObject J.didType did.did.value did
      let _ ← Stateful.attempt (addIndyObject J.keyType k.verkey k)
      pure (Except.ok (did.did.value, did.verkey) : Except DidAlreadyExists
        (String × String))) := by
  intro m hm
  by_cases hdid : keyOf J.didType did.did.value ∈ m
  · rw [Stateful.runOn_bind_error (runOn_addIndyObject_of_mem hdid did)]
    exact hm
  · rw [Stateful.runOn_bind_ok (runOn_addIndyObject hdid did),
      Stateful.runOn_bind_ok (Stateful.runOn_attempt _ _)]
    by_cases hkey : keyOf J.keyType k.verkey ∈ m.insert (keyOf J.didType did.did.value)
      (entryOf J.didType did)
    · rw [runOn_addIndyObject_of_mem hkey]
      have hbefore := (Finmap.mem_insert.mp hkey).resolve_left keyOf_key_ne_did
      refine hm.insert_did did ?_ rfl
      rw [hverkey]
      exact hm.key _ hbefore
    · rw [runOn_addIndyObject hkey, Stateful.runOn_pure,
        Finmap.insert_insert_of_ne _ keyOf_key_ne_did.symm]
      have hnew : keyOf J.keyType k.verkey ∉ m :=
        fun hmem => hkey (Finmap.mem_insert.mpr (Or.inr hmem))
      refine (hm.insert_key hpair hnew).insert_did did ?_ rfl
      rw [hverkey]
      exact hasKey_insert_key hpair m

theorem custody_createAndStoreMyDid (info : MyDidInfo) :
    Stateful.Keeps (Custody S T J) (createAndStoreMyDid S T D J random info) := by
  refine Stateful.Keeps.bind_of (keeps_lift _) ?_
  rintro m ⟨did, k⟩ m' hm hrun
  obtain ⟨hcreate, rfl⟩ := lift_eq_ok_iff.mp hrun
  obtain ⟨hverkey, hpair⟩ := isPair_createMyDid hcreate
  refine Stateful.Keeps.bind (Stateful.Keeps.attempt keeps_getIndyObject) ?_ m' hm
  intro found
  cases found with
  | ok currentDid =>
    dsimp only
    split_ifs
    · exact Stateful.keeps_pure _
    · exact Stateful.keeps_pure _
  | error fault => exact custody_addDidAndKey hverkey hpair

theorem custody_replaceKeysStart (keyInfo : KeyInfo) (myDid : DidValue) :
    Stateful.Keeps (Custody S T J) (replaceKeysStart S T D J random keyInfo myDid) := by
  refine Stateful.Keeps.bind keeps_getIndyObject ?_
  intro did
  refine Stateful.Keeps.bind_of (keeps_lift _) ?_
  intro m k m' hm hrun
  obtain ⟨hcreate, rfl⟩ := lift_eq_ok_iff.mp hrun
  have hpair := isPair_createKeyOf hcreate
  by_cases hkey : keyOf J.keyType k.verkey ∈ m'
  · rw [Stateful.runOn_bind_error (runOn_addIndyObject_of_mem hkey k)]
    exact hm
  · rw [Stateful.runOn_bind_ok (runOn_addIndyObject hkey k)]
    have hadded := hm.insert_key hpair hkey
    by_cases htemporary : keyOf J.temporaryDidType did.did.value ∈
        m'.insert (keyOf J.keyType k.verkey) (entryOf J.keyType k)
    · rw [Stateful.runOn_bind_error (runOn_addIndyObject_of_mem htemporary _)]
      exact hadded
    · rw [Stateful.runOn_bind_ok (runOn_addIndyObject htemporary _)]
      exact hadded.insert_temporaryDid ⟨did.did, k.verkey⟩ (hasKey_insert_key hpair m') rfl

theorem custody_replaceKeysApply (myDid : DidValue) :
    Stateful.Keeps (Custody S T J) (replaceKeysApply J myDid) := by
  refine Stateful.Keeps.bind keeps_getIndyObject ?_
  intro did
  refine Stateful.Keeps.bind_of keeps_getIndyObject ?_
  intro m temporaryDid m' hm hrun
  obtain ⟨hfound, rfl⟩ := getIndyObject_eq_ok_iff.mp hrun
  -- The key that is taken into use is the one that the temporary DID has.
  have hkey : HasKey S T J m' (Did.ofTemporary temporaryDid).verkey :=
    (hm.temporaryDid _ _ hfound).2
  change Custody S T J
    ((updateIndyObject J.didType temporaryDid.did.value (Did.ofTemporary temporaryDid) >>= fun _ =>
    deleteIndyRecord J.temporaryDidType temporaryDid.did.value).runOn m').2
  rcases hlookup : m'.lookup (keyOf J.didType temporaryDid.did.value) with _ | entry
  · rw [Stateful.runOn_bind_error (runOn_updateIndyObject_of_none hlookup _)]
    exact hm
  · rw [Stateful.runOn_bind_ok (runOn_updateIndyObject hlookup _)]
    refine keeps_deleteIndyRecord (fun m hm => hm.erase fun _ => keyOf_key_ne_temporaryDid) _ ?_
    exact hm.insert_did (Did.ofTemporary temporaryDid) hkey rfl

theorem custody_moveTemporaryDid (did newDid : DidValue) :
    Stateful.Keeps (Custody S T J) (moveTemporaryDid J did newDid) := by
  refine Stateful.Keeps.bind_of (Stateful.Keeps.attempt keeps_getIndyObject) ?_
  intro m found m' hm hrun
  rw [Stateful.runOn_attempt, Prod.mk.injEq, Except.ok.injEq, snd_getIndyObject] at hrun
  obtain ⟨hfound, rfl⟩ := hrun
  cases found with
  | error fault => exact hm
  | ok tempDid =>
    have hobject := (getIndyObject_eq_ok_iff.mp (Prod.ext hfound snd_getIndyObject)).1
    have hkey := (hm.temporaryDid _ _ hobject).2
    have hdeleted : Stateful.Keeps (fun m => Custody S T J m ∧ HasKey S T J m tempDid.verkey)
        (deleteIndyRecord J.temporaryDidType did.value) := by
      refine keeps_deleteIndyRecord ?_
      rintro m ⟨hm, hkey⟩
      exact ⟨hm.erase fun _ => keyOf_key_ne_temporaryDid, hkey.erase_of_ne fun _ =>
        keyOf_key_ne_temporaryDid⟩
    have hadded : Stateful.Keeps (fun m => Custody S T J m ∧ HasKey S T J m tempDid.verkey)
        (addIndyObject J.temporaryDidType newDid.value { tempDid with did := newDid }) := by
      refine keeps_addIndyObject ?_
      rintro m ⟨hm, hkey⟩ -
      exact ⟨hm.insert_temporaryDid ⟨newDid, tempDid.verkey⟩ hkey rfl,
        hkey.insert_of_ne (fun _ => keyOf_key_ne_temporaryDid) _⟩
    exact (hdeleted.bind (fun _ => hadded.bind fun _ => Stateful.keeps_pure _) _ ⟨hm, hkey⟩).1

theorem custody_updateDependentEntityReference {type : ObjectType α} (id newId : String)
    (h : isOther type.name = true) :
    Stateful.Keeps (Custody S T J) (updateDependentEntityReference type id newId) := by
  refine Stateful.Keeps.bind (Stateful.Keeps.attempt (keeps_getIndyRecordValue _)) ?_
  intro found
  cases found with
  | error fault => exact Stateful.keeps_pure _
  | ok record =>
    have hkey : ∀ name, keyOf J.keyType name ≠ keyOf type id := by
      intro name hsame
      exact not_isCustodial h (Or.inr (Or.inr (congrArg Prod.fst hsame).symm))
    refine Stateful.Keeps.bind (keeps_deleteIndyRecord fun m hm => hm.erase hkey) fun _ => ?_
    exact keeps_addRecord fun m entry hm => hm.insert_other (not_isCustodial h) entry

theorem custody_movePairwise (did newDid : DidValue) (names : List String) :
    Stateful.Keeps (Custody S T J) (movePairwise J did newDid names) := by
  induction names with
  | nil => exact Stateful.keeps_pure _
  | cons name names ih =>
    refine Stateful.Keeps.bind keeps_getIndyObject ?_
    intro pairwise
    split_ifs
    · exact Stateful.Keeps.bind (keeps_updateIndyObject (writable_other rfl)) fun _ => ih
    · exact ih

theorem custody_qualifyDid (did : DidValue) (method : String) :
    Stateful.Keeps (Custody S T J) (qualifyDid J did method) := by
  refine Stateful.Keeps.bind_of keeps_getIndyObject ?_
  intro m currDid m' hm hrun
  obtain ⟨hfound, rfl⟩ := getIndyObject_eq_ok_iff.mp hrun
  have hkey := (hm.did _ _ hfound).2
  have hdeleted : Stateful.Keeps (fun m => Custody S T J m ∧ HasKey S T J m currDid.verkey)
      (deleteIndyRecord J.didType did.value) := by
    refine keeps_deleteIndyRecord ?_
    rintro m ⟨hm, hkey⟩
    exact ⟨hm.erase fun _ => keyOf_key_ne_did, hkey.erase_of_ne fun _ => keyOf_key_ne_did⟩
  have hadded : ∀ newDid : DidValue,
      Stateful.Keeps (fun m => Custody S T J m ∧ HasKey S T J m currDid.verkey)
      (addIndyObject J.didType newDid.value ⟨newDid, currDid.verkey⟩) := by
    intro newDid
    refine keeps_addIndyObject ?_
    rintro m ⟨hm, hkey⟩ -
    exact ⟨hm.insert_did ⟨newDid, currDid.verkey⟩ hkey rfl,
      hkey.insert_of_ne (fun _ => keyOf_key_ne_did) _⟩
  have hmoved : ∀ newDid : DidValue, Stateful.Keeps (Custody S T J) (do
      moveTemporaryDid J did newDid
      updateDependentEntityReference J.didMetadataType did.value newDid.value
      updateDependentEntityReference J.endpointType did.value newDid.value
      let pairwise ← searchIndyRecords J.pairwiseType
      movePairwise J did newDid pairwise
      pure newDid.value) := by
    intro newDid
    refine (custody_moveTemporaryDid did newDid).bind fun _ => ?_
    refine (custody_updateDependentEntityReference _ _ rfl).bind fun _ => ?_
    refine (custody_updateDependentEntityReference _ _ rfl).bind fun _ => ?_
    refine (Stateful.keeps_reads _).bind fun pairwise => ?_
    exact (custody_movePairwise did newDid pairwise).bind fun _ => Stateful.keeps_pure _
  refine hdeleted.bind_weaken (fun _ h => h.1) ?_ ⟨hm, hkey⟩
  intro _ m hm
  refine (hadded _).bind_weaken (fun _ h => h.1) ?_ hm
  intro _ m hm
  exact hmoved _ m hm.1

theorem custody_handle (event : WalletEvent) {m : RecordMap} (hm : Custody S T J m) :
    Custody S T J (handle S T D J like m event) := by
  cases event with
  | createAndStoreMyDid random info => exact custody_createAndStoreMyDid info m hm
  | replaceKeysStart random keyInfo myDid => exact custody_replaceKeysStart keyInfo myDid m hm
  | replaceKeysApply myDid => exact custody_replaceKeysApply myDid m hm
  | storeTheirDid info =>
    refine Stateful.Keeps.bind (keeps_lift _) (fun theirDid => ?_) m hm
    exact (keeps_upsertIndyObject (writable_other rfl)).bind fun _ => Stateful.keeps_pure _
  | setEndpointForDid did endpoint =>
    refine Stateful.Keeps.bind (keeps_lift _) (fun _ => ?_) m hm
    exact (keeps_upsertIndyObject (writable_other rfl)).bind fun _ => Stateful.keeps_pure _
  | setDidMetadata did metadata =>
    exact Stateful.Keeps.bind (keeps_upsertIndyObject (writable_other rfl))
      (fun _ => Stateful.keeps_pure _) m hm
  | qualifyDid did method => exact custody_qualifyDid did method m hm
  | getNymAck did result =>
    refine Stateful.Keeps.bind (keeps_lift _) (fun reply => ?_) m hm
    refine Stateful.Keeps.bind (keeps_lift _) fun info => ?_
    refine Stateful.Keeps.bind (keeps_lift _) fun theirDid => ?_
    exact (custody_addIndyObject rfl).bind fun _ => Stateful.keeps_pure _
  | getAttribAck result =>
    refine Stateful.Keeps.bind (keeps_lift _) (fun reply => ?_) m hm
    exact (custody_addIndyObject rfl).bind fun _ => Stateful.keeps_pure _
  | createKey random keyInfo =>
    refine Stateful.Keeps.bind_of (keeps_lift _) ?_ m hm
    intro m k m' hm hrun
    obtain ⟨hcreate, rfl⟩ := lift_eq_ok_iff.mp hrun
    refine (keeps_addIndyObject ?_).bind (fun _ => Stateful.keeps_pure _) m' hm
    exact fun m hm hnew => hm.insert_key (isPair_createKeyOf hcreate) hnew
  | setKeyMetadata verkey metadata =>
    refine Stateful.Keeps.bind (keeps_lift _) (fun _ => ?_) m hm
    exact (keeps_upsertIndyObject (writable_other rfl)).bind fun _ => Stateful.keeps_pure _
  | createPairwise theirDid myDid metadata =>
    refine Stateful.Keeps.bind ((Stateful.keeps_reads _).mapError _) (fun _ => ?_) m hm
    refine Stateful.Keeps.bind ((Stateful.keeps_reads _).mapError _) fun _ => ?_
    exact (custody_addIndyObject rfl).bind fun _ => Stateful.keeps_pure _
  | setPairwiseMetadata theirDid metadata =>
    refine Stateful.Keeps.bind keeps_getIndyObject (fun pairwise => ?_) m hm
    exact (keeps_updateIndyObject (writable_other rfl)).bind fun _ => Stateful.keeps_pure _
  | nonSecrets command =>
    -- What is reserved for the library is out of reach of an application.
    have hinside := (confined_execute like (sameOutside_refl m) command).inside
    apply hm.congr
    intro key hkey
    apply hinside
    rcases hkey with hkey | hkey | hkey
    · rw [hkey, isReserved_addPrefix]
    · rw [hkey, isReserved_addPrefix]
    · rw [hkey, isReserved_addPrefix]

/-- Whatever happened to a wallet since it was new, the DIDs in it have their keys. -/
theorem custody_walletAfterEvents (events : List WalletEvent) :
    Custody S T J (walletAfterEvents S T D J like events) := by
  have hempty : Custody S T J ∅ := by
    constructor
    · intro name did hdid
      exact absurd (mem_of_object hdid) Finmap.notMem_empty
    · intro name did hdid
      exact absurd (mem_of_object hdid) Finmap.notMem_empty
    · exact fun name hmem => absurd hmem Finmap.notMem_empty
  exact List.foldlRecOn (motive := Custody S T J) events _ hempty fun _ hm event _ =>
    custody_handle event hm

end Commands

section Signing
variable {E : Ed25519 S} {m m' : RecordMap} {did : DidValue} {info : DidWithMeta}

theorem validateKey_of_isPair (htilde : ∀ bytes, '~' ∉ (T.toBase58 bytes).toList) {key : Crypto.Key}
    (hkey : IsPair S T key) : validateKey T key.verkey = .ok () := by
  obtain ⟨seed, rfl⟩ := hkey
  have hsplit := splitVerkey_of_notMem (T.colon_notMem (S.keypairFromSeed seed).1.1)
  have hdefault : isCryptoType defaultCryptoType = true := by decide
  simp only [validateKey, hsplit, hdefault]
  rw [Bool.not_true, if_neg Bool.false_ne_true]
  split
  · rename_i abbreviated hlist
    have hmem := htilde (S.keypairFromSeed seed).1.1
    rw [hlist] at hmem
    exact absurd List.mem_cons_self hmem
  · rw [ofBase58_toBase58, except_ok_bind, fromSlice_val, except_ok_bind]
    rfl

/-- A verkey with a key in the wallet makes signatures that it verifies. -/
theorem HasKey.cryptoSign (htilde : ∀ bytes, '~' ∉ (T.toBase58 bytes).toList) {verkey : String}
    (h : HasKey S T J m verkey) (msg : Bytes) :
    ∃ signature, (cryptoSign T J E verkey msg).runOn m = (.ok signature, m) ∧
      verify E T verkey msg signature = .ok true := by
  obtain ⟨key, hfound, rfl, hpair⟩ := h
  obtain ⟨signature, hsign, hverify⟩ := verify_sign (E := E) hpair msg
  refine ⟨signature, ?_, hverify⟩
  unfold Dids.cryptoSign
  rw [validateKey_of_isPair htilde hpair, lift, Stateful.runOn_bind_ok (Stateful.runOn_pure () m),
    Stateful.runOn_bind_ok (runOn_getIndyObject hfound), hsign]
  rfl

theorem getIndyOptObject_eq_ok {α : Type} {type : ObjectType α} {name : String} {found : Option α}
    (h : (getIndyOptObject type name).runOn m = (.ok found, m')) :
    m' = m ∧ ∀ a, found = some a → object type m name = some a := by
  obtain ⟨result, m₁, hattempt, hrest⟩ := Stateful.runOn_bind_eq_ok.mp h
  rw [Stateful.runOn_attempt, Prod.mk.injEq, Except.ok.injEq, snd_getIndyObject] at hattempt
  obtain ⟨hresult, rfl⟩ := hattempt
  cases result with
  | ok b =>
    obtain ⟨hfound, rfl⟩ := Prod.mk.inj hrest
    refine ⟨rfl, ?_⟩
    rintro a rfl
    obtain rfl := Option.some.inj (Except.ok.inj hfound)
    exact (getIndyObject_eq_ok_iff.mp (Prod.ext hresult snd_getIndyObject)).1
  | error fault =>
    dsimp only at hrest
    split_ifs at hrest
    · obtain ⟨hfound, rfl⟩ := Prod.mk.inj hrest
      refine ⟨rfl, ?_⟩
      rintro a rfl
      cases Except.ok.inj hfound
    · cases hrest

/-- What the wallet tells about a DID is what is stored of it. -/
theorem objects_of_getMyDidWithMeta (hm : Custody S T J m)
    (h : (getMyDidWithMeta J did).runOn m = (.ok info, m')) :
    m' = m ∧ info.did = did ∧ object J.didType m did.value = some ⟨did, info.verkey⟩ ∧
      ∀ verkey, info.tempVerkey = some verkey →
        object J.temporaryDidType m did.value = some ⟨did, verkey⟩ := by
  obtain ⟨⟨stored, verkey⟩, m₁, hstored, hrest⟩ := Stateful.runOn_bind_eq_ok.mp h
  obtain ⟨hobject, rfl⟩ := getIndyObject_eq_ok_iff.mp hstored
  obtain ⟨metadata, m₂, hmetadata, hwaits⟩ := Stateful.runOn_bind_eq_ok.mp hrest
  obtain ⟨rfl, -⟩ := getIndyOptObject_eq_ok hmetadata
  obtain ⟨temporary, m₃, hopt, hanswer⟩ := Stateful.runOn_bind_eq_ok.mp hwaits
  obtain ⟨rfl, htemporary⟩ := getIndyOptObject_eq_ok hopt
  obtain ⟨hinfo, rfl⟩ := Prod.mk.inj hanswer
  obtain rfl := Except.ok.inj hinfo
  obtain rfl : stored = did := congrArg DidValue.mk (hm.did _ _ hobject).1
  refine ⟨rfl, rfl, hobject, ?_⟩
  intro verkey' hverkey
  obtain ⟨⟨waiting, _⟩, hwaiting, rfl⟩ := Option.map_eq_some_iff.mp hverkey
  have hobject' := htemporary _ hwaiting
  obtain rfl : waiting = stored := congrArg DidValue.mk (hm.temporaryDid _ _ hobject').1
  exact hobject'

/-- Whatever happened to a wallet, a DID in it signs with its key and with the one that is to
replace it. -/
theorem did_signs (S : Sodium) (T : Crypto.Codecs) (D : SeedCodecs) (J : DidSerde) (E : Ed25519 S)
    (like : String → String → Bool) (htilde : ∀ bytes, '~' ∉ (T.toBase58 bytes).toList)
    (events : List WalletEvent) (did : DidValue) (info : DidWithMeta) (m : RecordMap)
    (h : (getMyDidWithMeta J did).runOn (walletAfterEvents S T D J like events) = (.ok info, m)) :
    info.did = did ∧ (keyForLocalDid J did).runOn m = (.ok info.verkey, m) ∧
      ∀ verkey, (verkey = info.verkey ∨ info.tempVerkey = some verkey) → ∀ msg, ∃ signature,
        (cryptoSign T J E verkey msg).runOn m = (.ok signature, m) ∧
        verify E T verkey msg signature = .ok true := by
  have hm : Custody S T J (walletAfterEvents S T D J like events) :=
    custody_walletAfterEvents events
  obtain ⟨rfl, hname, hobject, htemporary⟩ := objects_of_getMyDidWithMeta hm h
  refine ⟨hname, ?_, ?_⟩
  · unfold keyForLocalDid
    rw [Stateful.runOn_bind_ok (Stateful.runOn_attempt _ _)]
    unfold walletGetMyDid
    rw [runOn_getIndyObject hobject]
    rfl
  · intro verkey hverkey msg
    have hkey : HasKey S T J (walletAfterEvents S T D J like events) verkey := by
      rcases hverkey with rfl | hwaiting
      · exact (hm.did _ _ hobject).2
      · exact (hm.temporaryDid _ _ (htemporary verkey hwaiting)).2
    exact hkey.cryptoSign htilde msg

end Signing

section Samples

/-- Two texts in one: the characters of the first are marked. -/
def joinTexts (first second : String) : String :=
  String.ofList ((first.toList.flatMap fun c => ['-', c]) ++ ' ' :: second.toList)

def splitTexts : List Char → List Char × List Char
  | '-' :: c :: cs => (c :: (splitTexts cs).1, (splitTexts cs).2)
  | _ :: cs => ([], cs)
  | [] => ([], [])

theorem splitTexts_marked (first second : List Char) :
    splitTexts ((first.flatMap fun c => ['-', c]) ++ ' ' :: second) = (first, second) := by
  induction first with
  | nil => simp [splitTexts]
  | cons c cs ih => simp [splitTexts, ih]

def serdeOfTexts {α : Type} (mk : String → String → α) (first second : α → String)
    (h : ∀ a, mk (first a) (second a) = a) : Serde α where
  toJson a := joinTexts (first a) (second a)
  fromJson text :=
    .ok (mk (String.ofList (splitTexts text.toList).1) (String.ofList (splitTexts text.toList).2))
  fromJson_toJson a := by
    rw [joinTexts, String.toList_ofList, splitTexts_marked, String.ofList_toList,
      String.ofList_toList, h]

def textOf : Option String → String
  | some s => "+" ++ s
  | none => ""

def ofText (text : String) : Option String :=
  match text.toList with
  | _ :: cs => some (String.ofList cs)
  | [] => none

theorem ofText_textOf (text : Option String) : ofText (textOf text) = text := by
  cases text with
  | none => rfl
  | some s => simp [ofText, textOf]

def sampleSerde : DidSerde where
  did := serdeOfTexts (fun did verkey => ⟨⟨did⟩, verkey⟩) (·.did.value) (·.verkey) fun _ => rfl
  temporaryDid :=
    serdeOfTexts (fun did verkey => ⟨⟨did⟩, verkey⟩) (·.did.value) (·.verkey) fun _ => rfl
  theirDid := serdeOfTexts (fun did verkey => ⟨⟨did⟩, verkey⟩) (·.did.value) (·.verkey) fun _ => rfl
  didMetadata := serdeOfTexts (fun value _ => ⟨value⟩) (·.value) (fun _ => "") fun _ => rfl
  key := serdeOfTexts (fun verkey signkey => ⟨verkey, signkey⟩) (·.verkey) (·.signkey) fun _ => rfl
  keyMetadata := serdeOfTexts (fun value _ => ⟨value⟩) (·.value) (fun _ => "") fun _ => rfl
  endpoint :=
    serdeOfTexts (fun ha verkey => ⟨ha, ofText verkey⟩) (·.ha) (fun e => textOf e.verkey) fun e =>
    congrArg (Endpoint.mk e.ha) (ofText_textOf e.verkey)
  pairwise := serdeOfTexts
    (fun dids metadata =>
      ⟨⟨String.ofList (splitTexts dids.toList).1⟩, ⟨String.ofList (splitTexts dids.toList).2⟩,
      ofText metadata⟩)
    (fun p => joinTexts p.myDid.value p.theirDid.value) (fun p => textOf p.metadata) fun p => by
      simp only [joinTexts, String.toList_ofList, splitTexts_marked, String.ofList_toList,
        ofText_textOf]

/-- Whoever has a key pair of `openSodium` could sign anything. -/
def openEd25519 : Ed25519 openSodium where
  sign _ _ := ⟨List.replicate 64 0, rfl⟩
  verify _ _ _ := true
  verify_sign _ _ := rfl

def noSeeds : SeedCodecs := ⟨fun _ => .error "", fun _ => .error ""⟩

theorem tilde_notMem_letters (bytes : Bytes) : '~' ∉ (letterCodecs.toBase58 bytes).toList := by
  intro h
  change '~' ∈ (letters bytes).toList at h
  rw [letters, String.toList_ofList, List.mem_map] at h
  obtain ⟨c, -, hc⟩ := h
  have hnat := letter_toNat c
  rw [hc] at hnat
  have htilde : '~'.toNat = 126 := rfl
  omega

/-- A DID whose key is about to be replaced. -/
def rotatingEvents : List WalletEvent :=
  [.createAndStoreMyDid (seedOf 0) ⟨some ⟨"d"⟩, none, none, none, none⟩,
    .replaceKeysStart ⟨List.replicate 32 1, rfl⟩ ⟨none, none⟩ ⟨"d"⟩]

def rotatingWallet : RecordMap :=
  walletAfterEvents openSodium letterCodecs noSeeds sampleSerde maxSqlite.like rotatingEvents

theorem did_signs_rotating : ∃ info m signature,
    (getMyDidWithMeta sampleSerde ⟨"d"⟩).runOn rotatingWallet = (.ok info, m) ∧
    info.tempVerkey = some (letters (List.replicate 32 1)) ∧
    (cryptoSign letterCodecs sampleSerde openEd25519 (letters (List.replicate 32 1)) [1]).runOn m =
      (.ok signature, m) := by
  obtain ⟨info, hinfo⟩ := exists_ok_of_isOk
    (show ((getMyDidWithMeta sampleSerde ⟨"d"⟩).runOn rotatingWallet).1.isOk = true by decide)
  have htold : ((getMyDidWithMeta sampleSerde ⟨"d"⟩).runOn rotatingWallet).1.map (·.tempVerkey) =
      .ok (some (letters (List.replicate 32 1))) := by rfl
  have htemporary : info.tempVerkey = some (letters (List.replicate 32 1)) := by
    rw [hinfo] at htold
    exact Except.ok.inj htold
  have hrun : (getMyDidWithMeta sampleSerde ⟨"d"⟩).runOn rotatingWallet =
      (.ok info, ((getMyDidWithMeta sampleSerde ⟨"d"⟩).runOn rotatingWallet).2) :=
      Prod.ext hinfo rfl
  obtain ⟨-, -, hsigns⟩ :=
    did_signs openSodium letterCodecs noSeeds sampleSerde openEd25519 maxSqlite.like
    tilde_notMem_letters rotatingEvents ⟨"d"⟩ info _ hrun
  obtain ⟨signature, hsignature, -⟩ := hsigns _ (Or.inr htemporary) [1]
  exact ⟨info, _, signature, hrun, htemporary, hsignature⟩

end Samples

end SimpleAsset.Indy.Dids
