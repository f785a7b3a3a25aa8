import SimpleAsset.Indy.StateProof.RequestKey

/-! The value that the answer to a request claims to be in the state trie (`state_proof/mod.rs`). -/
namespace SimpleAsset.Indy

namespace Json

/-- `value[name] = new` on an object. -/
def set (j : Json) (name : String) (new : Json) : Json :=
  match j with
  | object fields => object (insertField name new fields)
  | _ => j

theorem lookup_insertField (name : String) (value : Json) (fields : List (String × Json)) :
    (insertField name value fields).lookup name = some value := by
  induction fields with
  | nil => simp [insertField]
  | cons field fields ih =>
    unfold insertField
    split
    · simp
    · split
      · simp
      · rename_i hne
        rw [List.lookup_cons, beq_false_of_ne hne]
        exact ih

theorem lookup_insertField_of_ne {name other : String} (value : Json)
    (fields : List (String × Json))
    (h : other ≠ name) : (insertField name value fields).lookup other = fields.lookup other := by
  induction fields with
  | nil => simp [insertField, h]
  | cons field fields ih =>
    unfold insertField
    split
    · rw [List.lookup_cons, beq_false_of_ne h]
    · split
      · rename_i heq
        rw [List.lookup_cons, List.lookup_cons, beq_false_of_ne h, ← heq, beq_false_of_ne h]
      · rw [List.lookup_cons, List.lookup_cons, ih]

end Json

variable (sha256 : Bytes → Bytes)

/-- What the state keeps of the text of an attribute. -/
def attribDigest (text : String) : Json :=
  .string (if text = "" then "" else hexEncode (sha256 (asBytes text)))

/-- Attribute transactions are stored without the attribute itself. -/
def adjustAttrib (value : Json) : Json :=
  let data := (value.index "txn").index "data"
  if ((value.index "txn").index "type").asStr = some "100" then
    match (data.index "raw").asStr, (data.index "enc").asStr with
    | some raw, _ => value.modify "txn" (Json.modify "data" (·.set "raw" (attribDigest sha256 raw)))
    | none, some enc =>
      value.modify "txn" (Json.modify "data" (·.set "enc" (attribDigest sha256 enc)))
    | none, none => value
  else value

/-- `_is_full_taa_state_value_expected`. -/
def isFullTaaStateValueExpected (spKey : Bytes) : Bool := (asBytes "2:d:").isPrefixOf spKey

/-- `_calculate_taa_digest`. -/
def calculateTaaDigest (text version : String) : Bytes := sha256 (asBytes (version ++ text))

/-- The numbers of a record, under the names they have there. -/
def proofValueStart (type : ReadType) (spKey : Bytes) (seqNo time : Json) : Json :=
  let value := Json.object []
  match type with
  | .getNym => (value.set "seqNo" seqNo).set "txnTime" time
  | .getAuthRule => value
  | .getTxnAuthrAgrmt =>
    if isFullTaaStateValueExpected spKey then (value.set "lsn" seqNo).set "lut" time else value
  | _ => (value.set "lsn" seqNo).set "lut" time

/-- `_parse_reply_for_proof_value`; the caller gets the text of the value. `none` says that nothing
is stored. -/
def parseReplyForProofValue (jsonMsg : Json) (data : Option String) (parsedData : Json)
    (type : ReadType) (spKey : Bytes) : Except String (Option Json) :=
  match data with
  | none => .ok none
  | some data =>
    let value := proofValueStart type spKey (jsonMsg.index "seqNo") (jsonMsg.index "txnTime")
    match type with
    | .getTxn =>
      let names := ["txn", "txnMetadata", "ver", "reqSignature"].filter fun name =>
        !(parsedData.index name).isNull
      if names = [] then .ok none
      else
        let value :=
          names.foldl (fun value name => value.set name (parsedData.index name)) (Json.object [])
        .ok (some (adjustAttrib sha256 value))
    | .getNym =>
      let value := value.set "identifier" (parsedData.index "identifier")
      let value := value.set "role" (parsedData.index "role")
      .ok (some (value.set "verkey" (parsedData.index "verkey")))
    | .getAttr => .ok (some (value.set "val" (.string (hexEncode (sha256 (asBytes data))))))
    | .getCredDef => .ok (some (value.set "val" parsedData))
    | .getRevocRegDef => .ok (some (value.set "val" parsedData))
    | .getRevocReg => .ok (some (value.set "val" parsedData))
    | .getTxnAuthrAgrmtAml => .ok (some (value.set "val" parsedData))
    | .getAuthRule =>
      match parsedData with
      | .array (authRule :: _) => .ok (some (authRule.index "constraint"))
      | _ => .ok none
    | .getSchema =>
      match parsedData with
      | .object fields =>
        match (Json.object fields).remove "name" |>.remove "version" with
        | .object [] => .ok none
        | map => .ok (some (value.set "val" map))
      | _ => .error "Invalid data for GET_SCHEMA"
    | .getRevocRegDelta =>
      let accumTo := (parsedData.index "value").index "accum_to"
      if accumTo.isNull then .ok none else .ok (some (value.set "val" accumTo))
    | .getTxnAuthrAgrmt =>
      if isFullTaaStateValueExpected spKey then .ok (some (value.set "val" parsedData))
      else
        let text := (parsedData.index "text").asStr.getD ""
        let version := (parsedData.index "version").asStr.getD ""
        .ok (some (.string (hexEncode (calculateTaaDigest sha256 text version))))

end SimpleAsset.Indy
