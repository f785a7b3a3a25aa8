import SimpleAsset.IndyNode.Nym
import SimpleAsset.IndyNode.Request

/-! The identity cache and the domain state agree on every DID. -/
namespace SimpleAsset.IndyNode
open SimpleAsset.Indy

variable {sha256 : Bytes → Bytes} {stores : NymStores} {txn : NymTxn} {txns : List NymTxn}
    {did : String}

/-- The value in the cache that belongs to a record. -/
def NymRecord.packed (record : NymRecord) : PackedIdr :=
  IdrCache.packIdrValue record.seqNo record.txnTime record.identifier record.role record.verkey

/-- The cache holds exactly the records of the state. -/
def Cached (sha256 : Bytes → Bytes) (stores : NymStores) : Prop :=
  ∀ did, stores.cache did = (stores.state (makeStatePathForNym sha256 did)).map NymRecord.packed

theorem makeStatePathForNym_inj (hsha : Function.Injective sha256) {a b : String} :
    makeStatePathForNym sha256 a = makeStatePathForNym sha256 b ↔ a = b := by
  rw [makeStatePathForNym, makeStatePathForNym, hsha.eq_iff, asBytes_inj]

theorem state_applyNym_self :
    (applyNym sha256 stores txn).state (makeStatePathForNym sha256 txn.operation.dest) =
      some (mergedRecord (stores.state (makeStatePathForNym sha256 txn.operation.dest)) txn) :=
  Function.update_self ..

theorem state_applyNym_of_ne (hsha : Function.Injective sha256) (h : did ≠ txn.operation.dest) :
    (applyNym sha256 stores txn).state (makeStatePathForNym sha256 did) =
      stores.state (makeStatePathForNym sha256 did) := by
  apply Function.update_of_ne
  rwa [ne_eq, makeStatePathForNym_inj hsha]

theorem Cached.applyNym (hsha : Function.Injective sha256) (h : Cached sha256 stores) :
    Cached sha256 (applyNym sha256 stores txn) := by
  intro did
  by_cases hdid : did = txn.operation.dest
  · subst hdid
    rw [state_applyNym_self]
    exact Function.update_self ..
  · rw [state_applyNym_of_ne hsha hdid, ← h did]
    exact Function.update_of_ne hdid ..

theorem Cached.foldl (hsha : Function.Injective sha256) (h : Cached sha256 stores)
    (txns : List NymTxn) :
    Cached sha256 (txns.foldl (IndyNode.applyNym sha256) stores) := by
  induction txns generalizing stores with
  | nil => exact h
  | cons txn txns ih => exact ih (h.applyNym hsha)

/-- What a missing, null or empty text stands for. -/
def denote (value : Option String) : Option String := value.filter (· ≠ "")

/-- The owner of a DID by its record. -/
def NymRecord.owner (record : NymRecord) (did : String) : Option String :=
  if denote record.verkey = none then denote record.identifier else some did

/-- The answers of the cache say what the record says. -/
structure Answers (cache : IdrCache) (did : String) (record : NymRecord) : Prop where
  nym : ∃ data, cache.getNym did none = some data ∧ data.role = denote record.role ∧
    data.verkey = denote record.verkey ∧ data.identifier = denote record.identifier
  role : ∃ role, cache.getRole did = some role ∧ denote (some role) = denote record.role
  verkey : ∃ verkey, cache.getVerkey did = some verkey ∧ denote verkey = denote record.verkey
  owner : cache.getOwnerFor did = record.owner did

/-- The cache has no entry for a DID that is not in the state. -/
structure Silent (cache : IdrCache) (did : String) : Prop where
  nym : cache.getNym did none = none
  role : cache.getRole did = none
  verkey : cache.getVerkey did = none
  owner : cache.getOwnerFor did = none

theorem orNone_getD (value : Option String) : IdrCache.orNone (value.getD "") = denote value := by
  rcases value with _ | value
  · rfl
  · by_cases h : value = "" <;> simp [IdrCache.orNone, denote, Option.filter_some, h]

theorem bind_orNone (value : Option String) : value.bind IdrCache.orNone = denote value := by
  rcases value with _ | value
  · rfl
  · exact orNone_getD (some value)

theorem decodeVerkey_encodeVerkey {verkey : Option String} (h : verkey ≠ some "-") :
    IdrCache.decodeVerkey (IdrCache.encodeVerkey verkey) = verkey := by
  rcases verkey with _ | verkey
  · rfl
  · have hne : verkey ≠ "-" := by simpa using h
    simp [IdrCache.decodeVerkey, IdrCache.encodeVerkey, IdrCache.unsetVerkey, hne]

theorem get_packed {cache : IdrCache} {record : NymRecord} (h : cache did = some record.packed) :
    cache.get did = some
      ⟨record.seqNo, record.txnTime, record.identifier.getD "", record.role.getD "",
      IdrCache.decodeVerkey (IdrCache.encodeVerkey record.verkey)⟩ := by
  rw [IdrCache.get, h, Option.bind_some, NymRecord.packed, IdrCache.unpack_pack]

/-- A record that is packed is read back, unless its verkey is the mark for none. -/
theorem answers_of_packed {cache : IdrCache} {record : NymRecord}
    (h : cache did = some record.packed)
    (hverkey : record.verkey ≠ some "-") : Answers cache did record := by
  have hget := get_packed h
  rw [decodeVerkey_encodeVerkey hverkey] at hget
  have hnym : cache.getNym did none = some
      ⟨denote record.role, denote record.verkey, denote record.identifier,
      if record.seqNo = 0 then none else some record.seqNo, record.txnTime.filter (· ≠ 0)⟩ := by
    simp only [IdrCache.getNym, hget, Option.any_none, Bool.false_eq_true, if_false, orNone_getD,
      bind_orNone]
  constructor
  · exact ⟨_, hnym, rfl, rfl, rfl⟩
  · refine ⟨record.role.getD "", by simp [IdrCache.getRole, hget], ?_⟩
    rw [← bind_orNone, Option.bind_some, orNone_getD]
  · exact ⟨record.verkey, by simp [IdrCache.getVerkey, hget], rfl⟩
  · rw [IdrCache.getOwnerFor, hnym, NymRecord.owner]

theorem silent_of_none {cache : IdrCache} (h : cache did = none) : Silent cache did := by
  have hget : cache.get did = none := by
    rw [IdrCache.get, h, Option.bind_none]
  have hnym : cache.getNym did none = none := by
    rw [IdrCache.getNym, hget]
  refine ⟨hnym, ?_, ?_, ?_⟩
  · rw [IdrCache.getRole, hget, Option.map_none]
  · rw [IdrCache.getVerkey, hget, Option.map_none]
  · rw [IdrCache.getOwnerFor, hnym]

/-- No record has the mark for a missing verkey as its verkey. -/
def NoMark (stores : NymStores) : Prop := ∀ key record, stores.state key = some record →
    record.verkey ≠ some "-"

theorem NoMark.applyNym (h : NoMark stores) (htxn : txn.operation.verkey ≠ some (some "-")) :
    NoMark (applyNym sha256 stores txn) := by
  intro key record hrecord
  by_cases hkey : key = makeStatePathForNym sha256 txn.operation.dest
  · rw [hkey, state_applyNym_self, Option.some.injEq] at hrecord
    rw [← hrecord]
    rcases hverkey : txn.operation.verkey with _ | verkey
    · -- The verkey is that of the record before, or none.
      rcases hexisting : stores.state (makeStatePathForNym sha256 txn.operation.dest)
        with _ | existing
      · simp [mergedRecord, hverkey]
      · simpa [mergedRecord, hverkey] using h _ existing hexisting
    · rw [hverkey] at htxn
      simpa [mergedRecord, hverkey] using htxn
  · apply h key record
    rw [← hrecord]
    exact (Function.update_of_ne hkey ..).symm

theorem NoMark.foldl (h : NoMark stores)
    (htxns : ∀ txn ∈ txns, txn.operation.verkey ≠ some (some "-")) :
    NoMark (txns.foldl (IndyNode.applyNym sha256) stores) := by
  induction txns generalizing stores with
  | nil => exact h
  | cons txn txns ih =>
    apply ih (h.applyNym (htxns txn (by simp)))
    intro txn' hmem
    exact htxns txn' (by simp [hmem])

def emptyStores : NymStores := ⟨fun _ => none, fun _ => none⟩

/-- After any committed transactions the cache answers for every DID as the state does.
`verkeyField` is plenum's check of a verkey. -/
theorem cache_answers_as_state (hsha : Function.Injective sha256) {verkeyField : String → Bool}
    (hmark : verkeyField "-" = false)
    (hvalid : ∀ txn ∈ txns, ∀ verkey, txn.operation.verkey = some (some verkey) →
      verkeyField verkey = true)
    (did : String) :
    match (txns.foldl (applyNym sha256) emptyStores).state (makeStatePathForNym sha256 did) with
    | none => Silent (txns.foldl (applyNym sha256) emptyStores).cache did
    | some record => Answers (txns.foldl (applyNym sha256) emptyStores).cache did record := by
  have hcached : Cached sha256 (txns.foldl (applyNym sha256) emptyStores) :=
    Cached.foldl hsha (fun _ => rfl) txns
  have hnoMark : NoMark (txns.foldl (applyNym sha256) emptyStores) := by
    apply NoMark.foldl
    · intro key record h
      cases h
    · intro txn hmem heq
      have := hvalid txn hmem "-" heq
      rw [hmark] at this
      cases this
  have hdid := hcached did
  split
  · rename_i hnone
    rw [hnone] at hdid
    exact silent_of_none hdid
  · rename_i record hsome
    rw [hsome] at hdid
    exact answers_of_packed hdid (hnoMark _ record hsome)

/-- A hash without collisions that is SHA-256 on the DID of the sample. -/
def sampleNymSha256 (bytes : Bytes) : Bytes :=
  if bytes = asBytes "V4SGRU86Z58d6TV7PBUe6f" then
    [89, 189, 237, 47, 218, 203, 9, 163, 97, 104, 187, 158, 33, 55, 233, 1, 115, 151, 184, 242, 152,
      223, 26, 109, 179, 178, 5, 59, 103, 255, 220, 130]
  else 0 :: bytes

theorem sampleNymSha256_injective : Function.Injective sampleNymSha256 := by
  intro a b h
  unfold sampleNymSha256 at h
  split at h <;> split at h <;> simp_all

/-- `VerkeyField`: 32 bytes, or 16 after a tilde. -/
def standardVerkeyField (verkey : String) : Bool :=
  match verkey.toList with
  | '~' :: rest => base58Length (String.ofList rest) = some 16
  | _ => base58Length verkey = some 32

/-- A DID is created without a verkey and later given one. -/
def sampleNymTxns : List NymTxn :=
  [⟨some "Th7MpTaRZVRYnPiabds81Y", ⟨"V4SGRU86Z58d6TV7PBUe6f", some (some "101"), none⟩,
    5, some 1000⟩, ⟨some "Th7MpTaRZVRYnPiabds81Y",
      ⟨"V4SGRU86Z58d6TV7PBUe6f", none, some (some "~CoRER63DVYnWZtK8uAzNbx")⟩, 6, some 1001⟩]

theorem cache_answers_as_state_two :
    Answers (sampleNymTxns.foldl (applyNym sampleNymSha256) emptyStores).cache
      "V4SGRU86Z58d6TV7PBUe6f"
      ⟨some "Th7MpTaRZVRYnPiabds81Y", some "101", some "~CoRER63DVYnWZtK8uAzNbx", 6,
        some 1001⟩ := by
  have hvalid : ∀ txn ∈ sampleNymTxns, ∀ verkey, txn.operation.verkey = some (some verkey) →
      standardVerkeyField verkey = true := by
    intro txn hmem verkey hverkey
    rw [sampleNymTxns, List.mem_cons, List.mem_singleton] at hmem
    rcases hmem with rfl | rfl
    · cases hverkey
    · obtain rfl : "~CoRER63DVYnWZtK8uAzNbx" = verkey := Option.some.inj (Option.some.inj hverkey)
      decide
  exact cache_answers_as_state sampleNymSha256_injective (by decide) hvalid "V4SGRU86Z58d6TV7PBUe6f"

end SimpleAsset.IndyNode
