import SimpleAsset.Indy.Primitive
import SimpleAsset.Indy.StateProof.ProofValue
import SimpleAsset.Vcx.Messages

/-! The check of a received proof (libvcx, proof.rs), with mocks disabled. -/
namespace SimpleAsset.Vcx.ProofValidation
open SimpleAsset.Library
open Indy (Bytes Json asBytes parseU64 u64ToString u64ToString_inj)

/-- What the check uses of other libraries and of the ledger. -/
structure Calls where
  /-- `serde_json::from_str`, or the `Display` of its error. -/
  fromStr : String → Except String Json
  sha256 : Bytes → Bytes
  getCredDefJson (credDefId : String) : VcxResult (String × String)
  getSchemaJson (schemaId : String) : VcxResult (String × String)
  getRevRegDefJson (revRegId : String) : VcxResult (String × String)
  getRevReg (revRegId : String) (timestamp : ℕ) : VcxResult (String × String × ℕ)
  /-- `libindy_verifier_verify_proof`; the maps are given to it as text. -/
  verifyProof (proofReqJson proofJson : String) (schemas credentialDefs revRegDefs revRegs : Json) :
    VcxResult Bool

section Errors

def invalidProofCredentialData : VcxErrorKind :=
  .other "The Proof received does not have valid credentials listed."
def invalidSchema : VcxErrorKind := .other "Schema was invalid or corrupt"
def invalidRevocationDetails : VcxErrorKind := .other "Invalid Revocation Details"
def invalidRevocationTimestamp : VcxErrorKind := .other "Invalid Credential Revocation timestamp"

/-- `or(Err(..))`. -/
def orElse {ε α : Type} (e : VcxError) : Except ε α → VcxResult α
  | .ok a => .ok a
  | .error _ => .error e

/-- `ok_or`. -/
def okOr {α : Type} (e : VcxError) : Option α → VcxResult α
  | some a => .ok a
  | none => .error e

end Errors

variable (calls : Calls)

section Encoding

/-- A number from its bytes, the most significant one first. -/
def BigNum.fromSlice (bytes : Bytes) : ℕ := bytes.foldl (fun n b => 256 * n + b.toNat) 0

/-- `encode` of utils/openssl.rs. -/
def encode (s : String) : String :=
  match (parseU64 s).filter (· < 2 ^ 32) with
  | some val => u64ToString val
  | none => u64ToString (BigNum.fromSlice (calls.sha256 (asBytes s)))

end Encoding

section Values

/-- The fields of an object, and none of anything else. -/
def fieldsOf : Json → List (String × Json)
  | .object fields => fields
  | _ => []

def deserializeProof (proofJson : String) : VcxResult Json :=
  match calls.fromStr proofJson with
  | .ok proof => .ok proof
  | .error err => .error (.fromMsg .invalidJson ("Cannot deserialize libndy proof: " ++ err))

/-- One round over the revealed attributes. -/
def validateRevealedAttribute (revealed : String × Json) : VcxResult Unit :=
  match (revealed.2.index "raw").asStr, (revealed.2.index "encoded").asStr with
  | none, _ =>
    .error (.fromMsg .invalidProof ("Cannot get raw value for \"" ++ revealed.1 ++ "\" attribute"))
  | some _, none => .error
      (.fromMsg .invalidProof ("Cannot get encoded value for \"" ++ revealed.1 ++ "\" attribute"))
  | some raw, some encoded =>
    let expectedEncoded := encode calls raw
    if expectedEncoded ≠ encoded then
      .error (.fromMsg .invalidProof
        ("Encoded values are different. Expected: " ++ expectedEncoded ++
        ". From Proof: " ++ encoded))
    else .ok ()

def validateProofRevealedAttributes (proofJson : String) : VcxResult Unit := do
  let proof ← deserializeProof calls proofJson
  (fieldsOf ((proof.index "requested_proof").index "revealed_attrs")).forM
    (validateRevealedAttribute calls)

end Values

section Maps

structure CredInfo where
  schemaId : String
  credDefId : String
  revRegId : Option String
  timestamp : Option ℕ
  deriving DecidableEq, Repr

/-- One round over the identifiers. -/
def credInfoOf (identifier : Json) : VcxResult CredInfo :=
  match (identifier.index "schema_id").asStr, (identifier.index "cred_def_id").asStr with
  | some schemaId, some credDefId =>
    .ok ⟨schemaId, credDefId, (identifier.index "rev_reg_id").asStr,
      (identifier.index "timestamp").asU64⟩
  | _, _ => .error (.fromMsg invalidProofCredentialData "Cannot get identifiers")

def getCredentialInfo (proofJson : String) : VcxResult (List CredInfo) := do
  let credentials ← deserializeProof calls proofJson
  match credentials.index "identifiers" with
  | .array identifiers => identifiers.mapM credInfoOf
  | _ => .ok []

/-- The loop that fills a map: what is there under the id of a credential already is not read
again. -/
def buildJson (idOf : CredInfo → VcxResult String)
    (read : CredInfo → String → VcxResult (String × Json)) :
    List CredInfo → List (String × Json) → VcxResult Json
  | [], map => .ok (.object map)
  | credInfo :: credentialData, map => do
    let id ← idOf credInfo
    if (map.lookup id).isNone then do
      let (id, json) ← read credInfo id
      buildJson idOf read credentialData (Json.insertField id json map)
    else buildJson idOf read credentialData map

def readCredDef (_ : CredInfo) (id : String) : VcxResult (String × Json) := do
  let (id, credentialDef) ← calls.getCredDefJson id
  match calls.fromStr credentialDef with
  | .ok credentialDef => .ok (id, credentialDef)
  | .error err =>
    .error (.fromMsg invalidProofCredentialData
      ("Cannot deserialize credential definition: " ++ err))

def buildCredentialDefsJson (credentialData : List CredInfo) : VcxResult Json :=
  buildJson (fun credInfo => .ok credInfo.credDefId) (readCredDef calls) credentialData []

def readSchema (_ : CredInfo) (id : String) : VcxResult (String × Json) := do
  let (id, schemaJson) ← orElse (.fromMsg invalidSchema "Cannot get schema")
      (calls.getSchemaJson id)
  match calls.fromStr schemaJson with
  | .ok schema => .ok (id, schema)
  | .error err => .error (.fromMsg invalidSchema ("Cannot deserialize schema: " ++ err))

def buildSchemasJson (credentialData : List CredInfo) : VcxResult Json :=
  buildJson (fun credInfo => .ok credInfo.schemaId) (readSchema calls) credentialData []

def revocationDetails : VcxError := .fromMsg invalidRevocationDetails "Invalid Revocation Details"

def readRevRegDef (_ : CredInfo) (id : String) : VcxResult (String × Json) := do
  let (id, json) ← orElse revocationDetails (calls.getRevRegDefJson id)
  let revRegDef ← orElse (.fromMsg invalidSchema "Schema was invalid or corrupt")
      (calls.fromStr json)
  return (id, revRegDef)

def buildRevRegDefsJson (credentialData : List CredInfo) : VcxResult Json :=
  buildJson (fun credInfo => okOr revocationDetails credInfo.revRegId)
    (readRevRegDef calls) credentialData []

def timestampOf (credInfo : CredInfo) : VcxResult ℕ :=
  okOr (.fromMsg invalidRevocationTimestamp "Invalid Credential Revocation timestamp")
    credInfo.timestamp

def revRegIdOf (credInfo : CredInfo) : VcxResult String := do
  let revRegId ← okOr revocationDetails credInfo.revRegId
  let _ ← timestampOf credInfo
  return revRegId

/-- A registry is kept under the time that it is of. -/
def readRevReg (credInfo : CredInfo) (id : String) : VcxResult (String × Json) := do
  let timestamp ← timestampOf credInfo
  let (id, json, timestamp) ← orElse revocationDetails (calls.getRevReg id timestamp)
  let revReg ← orElse (.fromMsg .invalidJson "Invalid JSON string") (calls.fromStr json)
  return (id, .object [(u64ToString timestamp, revReg)])

def buildRevRegJson (credentialData : List CredInfo) : VcxResult Json :=
  buildJson revRegIdOf (readRevReg calls) credentialData []

/-- `unwrap_or(json!({}).to_string())`. -/
def orEmpty : VcxResult Json → Json
  | .ok json => json
  | .error _ => .object []

/-- What the verifier is given besides the proof and its request. -/
structure VerifierMaps where
  schemas : Json
  credentialDefs : Json
  revRegDefs : Json
  revRegs : Json

def buildMaps (credentialData : List CredInfo) : VerifierMaps where
  schemas := orEmpty (buildSchemasJson calls credentialData)
  credentialDefs := orEmpty (buildCredentialDefsJson calls credentialData)
  revRegDefs := orEmpty (buildRevRegDefsJson calls credentialData)
  revRegs := orEmpty (buildRevRegJson calls credentialData)

def validateIndyProof (proofJson proofReqJson : String) : VcxResult Bool := do
  validateProofRevealedAttributes calls proofJson
  let credentialData ← getCredentialInfo calls proofJson
  let maps := buildMaps calls credentialData
  calls.verifyProof proofReqJson proofJson maps.schemas maps.credentialDefs maps.revRegDefs
    maps.revRegs

end Maps

section RawValues
variable {calls} {proofJson proofReqJson : String}

/-- The values under `revealed_attrs`. -/
def revealedValues (proof : Json) : List Json :=
  (fieldsOf ((proof.index "requested_proof").index "revealed_attrs")).map Prod.snd

/-- The values inside the entries under `revealed_attr_groups`. -/
def revealedGroupValues (proof : Json) : List Json :=
  (fieldsOf ((proof.index "requested_proof").index "revealed_attr_groups")).flatMap fun group =>
    (fieldsOf (group.2.index "values")).map Prod.snd

variable (calls) in
/-- A raw value goes with its encoding. -/
def IsEncoded (value : Json) : Prop :=
  ∀ raw, (value.index "raw").asStr = some raw →
    (value.index "encoded").asStr = some (encode calls raw)

theorem isEncoded_of_validate {revealed : String × Json}
    (h : validateRevealedAttribute calls revealed = .ok ()) :
    IsEncoded calls revealed.2 := by
  intro raw hraw
  unfold validateRevealedAttribute at h
  rw [hraw] at h
  cases hencoded : (revealed.2.index "encoded").asStr with
  | none =>
    rw [hencoded] at h
    cases h
  | some encoded =>
    rw [hencoded] at h
    dsimp only at h
    split_ifs at h with hne
    rw [not_not.mp hne]

/-- What is revealed under `revealed_attrs` has been checked. -/
theorem isEncoded_revealedValues (h : validateProofRevealedAttributes calls proofJson = .ok ())
    {proof : Json} (hproof : calls.fromStr proofJson = .ok proof) :
    ∀ value ∈ revealedValues proof, IsEncoded calls value := by
  unfold validateProofRevealedAttributes deserializeProof at h
  rw [hproof, except_ok_bind] at h
  intro value hvalue
  obtain ⟨revealed, hrevealed, rfl⟩ := List.mem_map.mp hvalue
  exact isEncoded_of_validate (forM_eq_ok_iff.mp h revealed hrevealed)

/-- In an accepted proof every raw value goes with its encoding exactly if those inside of groups
do. -/
theorem accepted_raw_iff (hvalid : validateIndyProof calls proofJson proofReqJson = .ok true)
    {proof : Json} (hproof : calls.fromStr proofJson = .ok proof) :
    (∀ value ∈ revealedValues proof ++ revealedGroupValues proof, IsEncoded calls value) ↔
      ∀ value ∈ revealedGroupValues proof, IsEncoded calls value := by
  obtain ⟨u, hattrs, -⟩ := except_bind_eq_ok.mp hvalid
  have hrevealed := isEncoded_revealedValues hattrs hproof
  constructor
  · intro h value hvalue
    exact h value (List.mem_append_right _ hvalue)
  · intro h value hvalue
    rcases List.mem_append.mp hvalue with hvalue | hvalue
    · exact hrevealed value hvalue
    · exact h value hvalue

/-- The only credential has the age 1, and the entry of the group `g` shows `raw`. -/
def shownProof (raw : String) : Json := .object [
  ("identifiers", .array [.object [("cred_def_id", .string "c"), ("schema_id", .string "s")]]),
  ("proof", .object [("proofs", .array [.object [("primary_proof", .object [("eq_proof",
    .object [("revealed_attrs", .object [("age", .string "1")])])])]])]),
  ("requested_proof", .object [
    ("revealed_attr_groups",
      .object [("g", .object [("sub_proof_index", .number (.posInt 0)), ("values",
      .object [("age", .object [("encoded", .string "1"), ("raw", .string raw)])])])]),
    ("revealed_attrs", .object [])])]

/-- The encoded values of the groups are those of the first credential. -/
def encodedAreSigned (proof : Json) : Bool :=
  match (proof.index "proof").index "proofs" with
  | .array (credential :: _) =>
    let signed := ((credential.index "primary_proof").index "eq_proof").index "revealed_attrs"
    (fieldsOf ((proof.index "requested_proof").index "revealed_attr_groups")).all fun group =>
      (fieldsOf (group.2.index "values")).all fun value =>
        (value.2.index "encoded").asStr = (signed.index value.1).asStr
  | _ => false

/-- libindy accepts the signed encoded values. -/
def shownCalls (raw : String) : Calls where
  fromStr _ := .ok (shownProof raw)
  sha256 _ := []
  getCredDefJson id := .ok (id, "\x7b\x7d")
  getSchemaJson id := .ok (id, "\x7b\x7d")
  getRevRegDefJson id := .ok (id, "\x7b\x7d")
  getRevReg id timestamp := .ok (id, "\x7b\x7d", timestamp)
  verifyProof _ _ _ _ _ _ := .ok (encodedAreSigned (shownProof raw))

theorem accepted_raw_same :
    (∀ value ∈ revealedValues (shownProof "1") ++ revealedGroupValues (shownProof "1"),
      IsEncoded (shownCalls "1") value) ↔
      ∀ value ∈ revealedGroupValues (shownProof "1"), IsEncoded (shownCalls "1") value :=
  accepted_raw_iff
    (show validateIndyProof (shownCalls "1") "proof" "request" = .ok true from rfl) rfl

theorem accepted_raw_shown : ¬ (validateIndyProof (shownCalls "2") "proof" "request" = .ok true →
    ∀ proof, (shownCalls "2").fromStr "proof" = .ok proof →
      ∀ value ∈ revealedValues proof ++ revealedGroupValues proof,
        IsEncoded (shownCalls "2") value) := by
  intro h
  have hvalid : validateIndyProof (shownCalls "2") "proof" "request" = .ok true := rfl
  have hvalue := h hvalid (shownProof "2") rfl
    (.object [("encoded", .string "1"), ("raw", .string "2")]) (by decide) "2" rfl
  revert hvalue
  decide

end RawValues

section Completeness
variable {calls} {idOf : CredInfo → VcxResult String}
    {read : CredInfo → String → VcxResult (String × Json)}

/-- `Value::get`. -/
def get (map : Json) (id : String) : Option Json := (fieldsOf map).lookup id

/-- The map has under each id what was read for the first credential with it. -/
theorem buildJson_ok (id : CredInfo → String) (value : CredInfo → Json)
    {credentialData : List CredInfo}
    (hid : ∀ credInfo ∈ credentialData, idOf credInfo = .ok (id credInfo))
    (hread : ∀ credInfo ∈ credentialData,
      read credInfo (id credInfo) = .ok (id credInfo, value credInfo))
    (map : List (String × Json)) : ∃ json, buildJson idOf read credentialData map = .ok json ∧
      ∀ k, get json k = (map.lookup k).or
        ((credentialData.find? fun credInfo => id credInfo = k).map value) := by
  induction credentialData generalizing map with
  | nil => exact ⟨_, rfl, fun k => (Option.or_none).symm⟩
  | cons credInfo credentialData ih =>
    obtain ⟨hidFirst, hid⟩ := List.forall_mem_cons.mp hid
    obtain ⟨hreadFirst, hread⟩ := List.forall_mem_cons.mp hread
    have ih := ih hid hread
    rw [buildJson, hidFirst, except_ok_bind]
    cases hlookup : map.lookup (id credInfo) with
    | none =>
      obtain ⟨json, hbuild, hget⟩ := ih (Json.insertField (id credInfo) (value credInfo) map)
      refine ⟨json, ?_, ?_⟩
      · rw [if_pos (by rfl), hreadFirst, except_ok_bind]
        exact hbuild
      · intro k
        rw [hget, List.find?_cons]
        by_cases hk : id credInfo = k
        · subst hk
          rw [Json.lookup_insertField, hlookup]
          simp
        · rw [Json.lookup_insertField_of_ne _ _ (Ne.symm hk)]
          simp [hk]
    | some there =>
      obtain ⟨json, hbuild, hget⟩ := ih map
      refine ⟨json, ?_, ?_⟩
      · rw [if_neg (by simp)]
        exact hbuild
      · intro k
        rw [hget, List.find?_cons]
        by_cases hk : id credInfo = k
        · subst hk
          simp [hlookup]
        · simp [hk]

/-- One credential without an id spoils the whole map. -/
theorem buildJson_error {credInfo : CredInfo} {e : VcxError} (h : idOf credInfo = .error e)
    {credentialData : List CredInfo} (hmem : credInfo ∈ credentialData)
    (map : List (String × Json)) :
    ∃ e, buildJson idOf read credentialData map = .error e := by
  induction credentialData generalizing map with
  | nil => exact absurd hmem List.not_mem_nil
  | cons first credentialData ih =>
    rw [buildJson]
    cases hid : idOf first with
    | error e => exact ⟨e, rfl⟩
    | ok id =>
      have hrest : credInfo ∈ credentialData := by
        rcases List.mem_cons.mp hmem with rfl | hrest
        · rw [hid] at h
          cases h
        · exact hrest
      rw [except_ok_bind]
      split_ifs
      · cases read first id with
        | error e => exact ⟨e, rfl⟩
        | ok found => exact ih hrest _
      · exact ih hrest map

/-- What the ledger has, by what is asked for. -/
structure Ledger where
  schema : String → Json
  credDef : String → Json
  revRegDef : String → Json
  revReg : String → ℕ → Json

variable (calls) in
/-- Every read succeeds, with the id and the time that were asked for. -/
structure Reads (ledger : Ledger) : Prop where
  schema : ∀ id, ∃ text, calls.getSchemaJson id = .ok (id, text) ∧
    calls.fromStr text = .ok (ledger.schema id)
  credDef : ∀ id, ∃ text, calls.getCredDefJson id = .ok (id, text) ∧
    calls.fromStr text = .ok (ledger.credDef id)
  revRegDef : ∀ id, ∃ text, calls.getRevRegDefJson id = .ok (id, text) ∧
    calls.fromStr text = .ok (ledger.revRegDef id)
  revReg : ∀ id timestamp, ∃ text, calls.getRevReg id timestamp = .ok (id, text, timestamp) ∧
    calls.fromStr text = .ok (ledger.revReg id timestamp)

/-- The verifier has everything for a credential. -/
structure HasAllOf (ledger : Ledger) (maps : VerifierMaps) (credInfo : CredInfo) : Prop where
  schema : get maps.schemas credInfo.schemaId = some (ledger.schema credInfo.schemaId)
  credDef : get maps.credentialDefs credInfo.credDefId = some (ledger.credDef credInfo.credDefId)
  revocation : ∀ revRegId timestamp, credInfo.revRegId = some revRegId →
    credInfo.timestamp = some timestamp →
    get maps.revRegDefs revRegId = some (ledger.revRegDef revRegId) ∧
    (get maps.revRegs revRegId).bind (get · (u64ToString timestamp)) = some
    (ledger.revReg revRegId timestamp)

/-- A credential has a registry and a time. -/
def CredInfo.revocable (credInfo : CredInfo) : Bool :=
  credInfo.revRegId.isSome && credInfo.timestamp.isSome

/-- All credentials have a registry and a time, or none has both; and a registry has one time. -/
structure UniformRevocation (credentialData : List CredInfo) : Prop where
  all : (∃ credInfo ∈ credentialData, credInfo.revocable) →
    ∀ credInfo ∈ credentialData, credInfo.revocable
  oneTime : ∀ credInfo ∈ credentialData, ∀ credInfo' ∈ credentialData, credInfo.revocable →
    credInfo'.revocable →
    credInfo.revRegId = credInfo'.revRegId → credInfo.timestamp = credInfo'.timestamp

variable {ledger : Ledger} {credentialData : List CredInfo}

/-- What is found first under the id of a credential is what belongs to the id. -/
theorem find_map_of_mem {id : CredInfo → String} (value : String → Json) {credInfo : CredInfo}
    (h : credInfo ∈ credentialData) :
    (credentialData.find? fun c => id c = id credInfo).map (fun c => value (id c)) = some
      (value (id credInfo)) := by
  cases hfind : credentialData.find? fun c => id c = id credInfo with
  | none =>
    have hno := List.find?_eq_none.mp hfind credInfo h
    simp at hno
  | some found =>
    have hid : id found = id credInfo := by simpa using List.find?_some hfind
    rw [Option.map_some, hid]

/-- A map that is filled from the ledger has everything. -/
theorem get_buildJson (id : CredInfo → String) (value : String → Json)
    (hid : ∀ credInfo ∈ credentialData, idOf credInfo = .ok (id credInfo))
    (hread : ∀ credInfo ∈ credentialData,
      read credInfo (id credInfo) = .ok (id credInfo, value (id credInfo)))
    {credInfo : CredInfo} (hmem : credInfo ∈ credentialData) :
    get (orEmpty (buildJson idOf read credentialData [])) (id credInfo) = some
      (value (id credInfo)) := by
  obtain ⟨json, hbuild, hget⟩ := buildJson_ok id (fun c => value (id c)) hid hread []
  rw [hbuild, orEmpty, hget]
  exact find_map_of_mem value hmem

theorem schemas_complete (h : Reads calls ledger) {credInfo : CredInfo}
    (hmem : credInfo ∈ credentialData) :
    get (buildMaps calls credentialData).schemas credInfo.schemaId = some
      (ledger.schema credInfo.schemaId) := by
  refine get_buildJson CredInfo.schemaId ledger.schema (fun c _ => rfl) (fun c _ => ?_) hmem
  obtain ⟨text, hget, hparse⟩ := h.schema c.schemaId
  rw [readSchema, hget, orElse, except_ok_bind]
  simp only [hparse]

theorem credentialDefs_complete (h : Reads calls ledger) {credInfo : CredInfo}
    (hmem : credInfo ∈ credentialData) :
    get (buildMaps calls credentialData).credentialDefs credInfo.credDefId =
      some (ledger.credDef credInfo.credDefId) := by
  refine get_buildJson CredInfo.credDefId ledger.credDef (fun c _ => rfl) (fun c _ => ?_) hmem
  obtain ⟨text, hget, hparse⟩ := h.credDef c.credDefId
  rw [readCredDef, hget, except_ok_bind]
  simp only [hparse]

theorem CredInfo.revocable_iff {credInfo : CredInfo} : credInfo.revocable ↔
    ∃ revRegId timestamp, credInfo.revRegId = some revRegId ∧
      credInfo.timestamp = some timestamp := by
  rw [CredInfo.revocable, Bool.and_eq_true, Option.isSome_iff_exists, Option.isSome_iff_exists]
  constructor
  · rintro ⟨⟨revRegId, hid⟩, timestamp, htime⟩
    exact ⟨revRegId, timestamp, hid, htime⟩
  · rintro ⟨revRegId, timestamp, hid, htime⟩
    exact ⟨⟨revRegId, hid⟩, timestamp, htime⟩

theorem revRegDefs_complete (h : Reads calls ledger)
    (hall : ∀ credInfo ∈ credentialData, credInfo.revocable)
    {credInfo : CredInfo} (hmem : credInfo ∈ credentialData) {revRegId : String}
    (hid : credInfo.revRegId = some revRegId) :
    get (buildMaps calls credentialData).revRegDefs revRegId = some
      (ledger.revRegDef revRegId) := by
  have hids : ∀ c ∈ credentialData,
      okOr revocationDetails c.revRegId = .ok (c.revRegId.getD "") := by
    intro c hc
    obtain ⟨revRegId, -, hc, -⟩ := CredInfo.revocable_iff.mp (hall c hc)
    rw [hc]
    rfl
  have hreads : ∀ c ∈ credentialData, readRevRegDef calls c (c.revRegId.getD "") =
      .ok (c.revRegId.getD "", ledger.revRegDef (c.revRegId.getD "")) := by
    intro c _
    obtain ⟨text, hget, hparse⟩ := h.revRegDef (c.revRegId.getD "")
    rw [readRevRegDef, hget, orElse, except_ok_bind]
    simp only [hparse, orElse, except_ok_bind]
    rfl
  have hget := get_buildJson (fun c => c.revRegId.getD "") ledger.revRegDef hids hreads hmem
  rwa [hid] at hget

/-- The registry that is kept for a credential. -/
def keptRevReg (ledger : Ledger) (credInfo : CredInfo) : Json :=
  .object [(u64ToString (credInfo.timestamp.getD 0),
    ledger.revReg (credInfo.revRegId.getD "") (credInfo.timestamp.getD 0))]

theorem revRegIdOf_of_revocable {credInfo : CredInfo} (h : credInfo.revocable) :
    revRegIdOf credInfo = .ok (credInfo.revRegId.getD "") := by
  obtain ⟨revRegId, timestamp, hid, htime⟩ := CredInfo.revocable_iff.mp h
  rw [revRegIdOf, timestampOf, hid, htime]
  rfl

theorem readRevReg_of_revocable (h : Reads calls ledger) {credInfo : CredInfo}
    (hcred : credInfo.revocable) :
    readRevReg calls credInfo (credInfo.revRegId.getD "") =
      .ok (credInfo.revRegId.getD "", keptRevReg ledger credInfo) := by
  obtain ⟨revRegId, timestamp, hid, htime⟩ := CredInfo.revocable_iff.mp hcred
  obtain ⟨text, hget, hparse⟩ := h.revReg revRegId timestamp
  rw [readRevReg, timestampOf, keptRevReg, hid, htime]
  simp only [okOr, except_ok_bind, Option.getD_some, hget, orElse, hparse]
  rfl

/-- Of the credentials with a registry, the first says the time that the registry is kept of. -/
theorem revRegs_first (h : Reads calls ledger)
    (hall : ∀ credInfo ∈ credentialData, credInfo.revocable)
    {credInfo : CredInfo} (hmem : credInfo ∈ credentialData) : ∃ first ∈ credentialData,
      first.revRegId = credInfo.revRegId ∧
      get (buildMaps calls credentialData).revRegs (credInfo.revRegId.getD "") = some
        (keptRevReg ledger first) := by
  obtain ⟨json, hbuild, hget⟩ := buildJson_ok (fun c => c.revRegId.getD "") (keptRevReg ledger)
    (fun c hc => revRegIdOf_of_revocable (hall c hc))
    (fun c hc => readRevReg_of_revocable h (hall c hc)) []
  cases hfind : credentialData.find? fun c => c.revRegId.getD "" = credInfo.revRegId.getD "" with
  | none =>
    have hno := List.find?_eq_none.mp hfind credInfo hmem
    simp at hno
  | some first =>
    have hfirst := List.mem_of_find?_eq_some hfind
    have hsame : first.revRegId.getD "" = credInfo.revRegId.getD "" := by
      simpa using List.find?_some hfind
    obtain ⟨firstId, -, hfirstId, -⟩ := CredInfo.revocable_iff.mp (hall first hfirst)
    obtain ⟨revRegId, -, hid, -⟩ := CredInfo.revocable_iff.mp (hall credInfo hmem)
    refine ⟨first, hfirst, ?_, ?_⟩
    · rw [hfirstId, hid] at hsame
      rw [hfirstId, hid]
      exact congrArg some hsame
    · change get (orEmpty (buildRevRegJson calls credentialData)) _ = _
      rw [buildRevRegJson, hbuild, orEmpty, hget, hfind]
      rfl

/-- A credential finds its registry if the first one with the registry has the same time. -/
theorem get_keptRevReg_iff (ledger : Ledger) {first : CredInfo} (hfirst : first.revocable)
    {revRegId : String} (hid : first.revRegId = some revRegId) (timestamp : ℕ) :
    get (keptRevReg ledger first) (u64ToString timestamp) = some
      (ledger.revReg revRegId timestamp) ↔
      first.timestamp = some timestamp := by
  obtain ⟨-, firstTime, -, htime⟩ := CredInfo.revocable_iff.mp hfirst
  rw [keptRevReg, get, fieldsOf, hid, htime, Option.getD_some, Option.getD_some, List.lookup_cons]
  by_cases h : timestamp = firstTime
  · subst h
    simp
  · have hne : u64ToString timestamp ≠ u64ToString firstTime := fun heq => h (u64ToString_inj heq)
    rw [beq_eq_false_iff_ne.mpr hne]
    simp [Ne.symm h]

/-- One credential without a registry or a time leaves the verifier without registries. -/
theorem get_revRegs_of_not_revocable {credInfo : CredInfo} (hmem : credInfo ∈ credentialData)
    (h : ¬ credInfo.revocable) (id : String) :
    get (buildMaps calls credentialData).revRegs id = none := by
  have herror : ∃ e, revRegIdOf credInfo = .error e := by
    rw [CredInfo.revocable, Bool.and_eq_true, not_and_or] at h
    unfold revRegIdOf timestampOf
    cases hid : credInfo.revRegId with
    | none => exact ⟨_, rfl⟩
    | some revRegId =>
      cases htime : credInfo.timestamp with
      | none => exact ⟨_, rfl⟩
      | some timestamp => simp [hid, htime] at h
  obtain ⟨e, herror⟩ := herror
  obtain ⟨e, hbuild⟩ : ∃ e, buildJson revRegIdOf (readRevReg calls) credentialData [] = .error e :=
    buildJson_error herror hmem []
  change get (orEmpty (buildRevRegJson calls credentialData)) id = _
  rw [buildRevRegJson, hbuild]
  rfl

theorem uniform_of_hasAll (h : Reads calls ledger)
    (hall : ∀ credInfo ∈ credentialData,
      HasAllOf ledger (buildMaps calls credentialData) credInfo) :
    UniformRevocation credentialData := by
  have hrevocable : (∃ credInfo ∈ credentialData, credInfo.revocable) →
      ∀ credInfo ∈ credentialData, credInfo.revocable := by
    rintro ⟨credInfo, hmem, hrevocable⟩ other hother
    by_contra hno
    obtain ⟨revRegId, timestamp, hid, htime⟩ := CredInfo.revocable_iff.mp hrevocable
    have hrevReg := ((hall credInfo hmem).revocation revRegId timestamp hid htime).2
    rw [get_revRegs_of_not_revocable hother hno] at hrevReg
    cases hrevReg
  refine ⟨hrevocable, ?_⟩
  intro credInfo hmem credInfo' hmem' hyes hyes' hsame
  have hyesAll := hrevocable ⟨credInfo, hmem, hyes⟩
  obtain ⟨first, hfirst, hfirstId, hget⟩ := revRegs_first h hyesAll hmem
  -- both have the time that the registry is kept of
  have htimeOf : ∀ c ∈ credentialData, c.revRegId = credInfo.revRegId →
      first.timestamp = c.timestamp := by
    intro c hc hcid
    obtain ⟨revRegId, timestamp, hid, htime⟩ := CredInfo.revocable_iff.mp (hyesAll c hc)
    have hrevReg := ((hall c hc).revocation revRegId timestamp hid htime).2
    have hid' : credInfo.revRegId = some revRegId := hcid.symm.trans hid
    rw [hid', Option.getD_some] at hget
    rw [hget, Option.bind_some] at hrevReg
    rw [htime]
    exact (get_keptRevReg_iff ledger (hyesAll first hfirst) (hfirstId.trans hid') timestamp).mp
      hrevReg
  exact (htimeOf credInfo hmem rfl).symm.trans (htimeOf credInfo' hmem' hsame.symm)

theorem hasAll_of_uniform (h : Reads calls ledger) (huniform : UniformRevocation credentialData)
    {credInfo : CredInfo} (hmem : credInfo ∈ credentialData) :
    HasAllOf ledger (buildMaps calls credentialData) credInfo where
  schema := schemas_complete h hmem
  credDef := credentialDefs_complete h hmem
  revocation := by
    intro revRegId timestamp hid htime
    have hyes : credInfo.revocable := CredInfo.revocable_iff.mpr ⟨revRegId, timestamp, hid, htime⟩
    have hyesAll := huniform.all ⟨credInfo, hmem, hyes⟩
    refine ⟨revRegDefs_complete h hyesAll hmem hid, ?_⟩
    obtain ⟨first, hfirst, hfirstId, hget⟩ := revRegs_first h hyesAll hmem
    rw [hid, Option.getD_some] at hget
    rw [hget, Option.bind_some,
      get_keptRevReg_iff ledger (hyesAll first hfirst) (hfirstId.trans hid),
      huniform.oneTime first hfirst credInfo hmem (hyesAll first hfirst) hyes hfirstId, htime]

/-- The verifier is given the maps, and they are complete exactly if the credentials are alike in
revocation. -/
theorem verifier_given_iff (h : Reads calls ledger) {proofJson : String} (proofReqJson : String)
    (hattrs : validateProofRevealedAttributes calls proofJson = .ok ())
    (hinfo : getCredentialInfo calls proofJson = .ok credentialData) :
    (∀ verify, validateIndyProof { calls with verifyProof := verify } proofJson proofReqJson =
      verify proofReqJson proofJson (buildMaps calls credentialData).schemas
        (buildMaps calls credentialData).credentialDefs (buildMaps calls credentialData).revRegDefs
        (buildMaps calls credentialData).revRegs) ∧
    ((∀ credInfo ∈ credentialData, HasAllOf ledger (buildMaps calls credentialData) credInfo) ↔
      UniformRevocation credentialData) := by
  refine ⟨fun verify => ?_, uniform_of_hasAll h, fun huniform credInfo hmem => ?_⟩
  · change (do
      validateProofRevealedAttributes calls proofJson
      let credentialData ← getCredentialInfo calls proofJson
      _) = _
    rw [hattrs, except_ok_bind, hinfo, except_ok_bind]
    rfl
  · exact hasAll_of_uniform h huniform hmem

/-- A ledger on which everything is empty. -/
def emptyLedger : Ledger where
  schema _ := .object []
  credDef _ := .object []
  revRegDef _ := .object []
  revReg _ _ := .object []

/-- A proof of a credential of each of the registries at each of the times. -/
def proofAt (entries : List (String × ℕ)) : Json := .object [
  ("identifiers", .array (entries.map fun entry => .object [("cred_def_id", .string "c"),
    ("rev_reg_id", .string entry.1), ("schema_id", .string "s"),
    ("timestamp", .number (.posInt entry.2))])),
  ("requested_proof", .object [("revealed_attrs", .object [])])]

def callsAt (entries : List (String × ℕ)) : Calls where
  fromStr text := .ok (if text = "proof" then proofAt entries else .object [])
  sha256 _ := []
  getCredDefJson id := .ok (id, "\x7b\x7d")
  getSchemaJson id := .ok (id, "\x7b\x7d")
  getRevRegDefJson id := .ok (id, "\x7b\x7d")
  getRevReg id timestamp := .ok (id, "\x7b\x7d", timestamp)
  verifyProof _ _ _ _ _ _ := .ok true

theorem reads_callsAt (entries : List (String × ℕ)) : Reads (callsAt entries) emptyLedger where
  schema _ := ⟨"\x7b\x7d", rfl, rfl⟩
  credDef _ := ⟨"\x7b\x7d", rfl, rfl⟩
  revRegDef _ := ⟨"\x7b\x7d", rfl, rfl⟩
  revReg _ _ := ⟨"\x7b\x7d", rfl, rfl⟩

/-- Two credentials of the registry `r` at one time and one of the registry `q` at another. -/
def threeEntries : List (String × ℕ) := [("r", 5), ("q", 7), ("r", 5)]

def threeInfos : List CredInfo :=
  [⟨"s", "c", some "r", some 5⟩, ⟨"s", "c", some "q", some 7⟩, ⟨"s", "c", some "r", some 5⟩]

theorem verifier_given_three :
    (∀ verify, validateIndyProof { callsAt threeEntries with verifyProof := verify } "proof"
        "request" =
      verify "request" "proof" (buildMaps (callsAt threeEntries) threeInfos).schemas
        (buildMaps (callsAt threeEntries) threeInfos).credentialDefs
        (buildMaps (callsAt threeEntries) threeInfos).revRegDefs
        (buildMaps (callsAt threeEntries) threeInfos).revRegs) ∧
    ((∀ credInfo ∈ threeInfos,
        HasAllOf emptyLedger (buildMaps (callsAt threeEntries) threeInfos) credInfo) ↔
      UniformRevocation threeInfos) :=
  verifier_given_iff (reads_callsAt threeEntries) "request" rfl rfl

/-- Of a registry at two times the verifier gets the first only. -/
theorem not_verifier_given_twice : Reads (callsAt [("r", 5), ("r", 6)]) emptyLedger ∧
    getCredentialInfo (callsAt [("r", 5), ("r", 6)]) "proof" =
      .ok [⟨"s", "c", some "r", some 5⟩, ⟨"s", "c", some "r", some 6⟩] ∧
    ¬ ∀ credInfo ∈ [⟨"s", "c", some "r", some 5⟩, ⟨"s", "c", some "r", some 6⟩],
      HasAllOf emptyLedger (buildMaps (callsAt [("r", 5), ("r", 6)])
        [⟨"s", "c", some "r", some 5⟩, ⟨"s", "c", some "r", some 6⟩]) credInfo := by
  refine ⟨reads_callsAt [("r", 5), ("r", 6)], rfl, fun h => ?_⟩
  have hrevReg := ((h ⟨"s", "c", some "r", some 6⟩ (by decide)).revocation "r" 6 rfl rfl).2
  revert hrevReg
  decide

end Completeness

end SimpleAsset.Vcx.ProofValidation
