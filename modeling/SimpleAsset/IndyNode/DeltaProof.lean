import SimpleAsset.IndyNode.RevocRegDelta
import SimpleAsset.IndyNode.StateKey

/-! The record that the answer to a delta request proves, and the one the client checks. -/
namespace SimpleAsset.IndyNode
open SimpleAsset.Indy

variable {env : KeyEnv} {store : TsStore} {op : Operation} {reply : DeltaReply} {doc : Json}

/-- A value that counts as true was read from a record. -/
theorem getByTimestamp_of_truthy {ts : ℤ} {path : Bytes}
    (h : truthy (getByTimestamp store ts path).value = true) :
    ∃ root record, store.getEqualOrPrev ts = some root ∧ root path = some record ∧
      getByTimestamp store ts path =
        ⟨some root, record.value, jsonNat record.seqNo, jsonNat record.txnTime,
          some ⟨root, path⟩⟩ := by
  unfold getByTimestamp at h ⊢
  rcases hroot : store.getEqualOrPrev ts with _ | root
  · simp [hroot, StateValue.empty, truthy] at h
  · rcases hrecord : root path with _ | record
    · simp [hroot, hrecord, truthy] at h
    · exact ⟨root, record, rfl, hrecord, by simp [hrecord]⟩

/-- An entry is found for the time "from" of the request. -/
def fromFound (store : TsStore) (op : Operation) (id : String) : Bool :=
  truthy (op.get "from") &&
    (pyInt (op.get "from")).any fun ts =>
      truthy (getByTimestamp store ts (makeStatePathForRevocRegEntry id)).value

/-- The accumulator's record or the entry. -/
def recordPath (accum : Bool) (id : String) : Bytes :=
  if accum then makeStatePathForRevocRegEntryAccum id else makeStatePathForRevocRegEntry id

theorem recordPath_inj {a b : Bool} {id : String} : recordPath a id = recordPath b id ↔ a = b := by
  cases a <;> cases b <;> simp [recordPath, makeStatePathForRevocRegEntryAccum,
    makeStatePathForRevocRegEntry, asBytes_inj]

theorem accum_to_deltaData {id : String} {records : DeltaRecords} {revocRegDef data : Json}
    (h : deltaData id (op.get "from") records revocRegDef = some data) :
    (data.index "value").index "accum_to" =
      if truthy records.entryFrom.value then records.accumTo.value else records.entryTo.value := by
  simp only [deltaData, Option.bind_eq_bind, Option.bind_eq_some_iff, Option.pure_def,
    Option.some.injEq] at h
  obtain ⟨strategy, -, listsTo, -, listsFrom, -, rfl⟩ := h
  cases truthy (op.get "from") <;> rfl

theorem fromFound_recordsFrom {id : String} {record : StateRecord}
    {entryFrom accumFrom : StateValue}
    (h : recordsFrom store (op.get "from") (some record) id = some (entryFrom, accumFrom)) :
    truthy entryFrom.value = fromFound store op id := by
  rcases htrue : truthy (op.get "from") with _ | _
  · have hfrom : entryFrom = .empty := by
      simp [recordsFrom, htrue] at h
      exact h.1.symm
    rw [hfrom, fromFound, htrue]
    rfl
  · simp only [recordsFrom, htrue, Option.isSome_some, Bool.and_self, if_true,
      Option.map_eq_some_iff, Prod.mk.injEq] at h
    obtain ⟨ts, hts, rfl, -⟩ := h
    rw [fromFound, htrue, hts]
    rfl

/-- The record behind an answer with an accumulator: that of the accumulator when an entry is found
for "from", else the entry. -/
theorem record_of_result (hresult : getRevocRegDeltaResult store op = some reply)
    (hdata : (reply.data.index "value").index "accum_to" ≠ .null) :
    ∃ id ts root record, (op.get "revocRegDefId").asStr = some id ∧ pyInt (op.get "to") = some ts ∧
      store.getEqualOrPrev ts = some root ∧
      root (recordPath (fromFound store op id) id) = some record ∧
      reply.proof = some ⟨root, recordPath (fromFound store op id) id⟩ ∧
      reply.seqNo = jsonNat record.seqNo ∧ reply.txnTime = jsonNat record.txnTime ∧
      (reply.data.index "value").index "accum_to" = record.value := by
  simp only [getRevocRegDeltaResult, Option.bind_eq_bind, Option.bind_eq_some_iff] at hresult
  obtain ⟨ts, hts, id, hid, ⟨entryFrom, accumFrom⟩, hfrom, hresult⟩ := hresult
  split at hresult
  · rename_i record hdef
    simp only [Option.bind_eq_some_iff, Option.pure_def, Option.some.injEq] at hresult
    obtain ⟨data, hdelta, rfl⟩ := hresult
    rw [hdef] at hfrom
    rw [Option.ite_none_right_eq_some, Bool.and_eq_true] at hdef
    obtain ⟨⟨haccum, hentry⟩, -⟩ := hdef
    rw [fromFound_recordsFrom hfrom]
    simp only [accum_to_deltaData hdelta, fromFound_recordsFrom hfrom]
    rcases hfound : fromFound store op id with _ | _
    · obtain ⟨root, record, hroot, hrecord, heq⟩ := getByTimestamp_of_truthy hentry
      refine ⟨id, ts, root, record, hid, hts, hroot, ?_, ?_⟩
      · rw [hfound]
        exact hrecord
      · rw [hfound]
        simp [heq, recordPath]
    · obtain ⟨root, record, hroot, hrecord, heq⟩ := getByTimestamp_of_truthy haccum
      refine ⟨id, ts, root, record, hid, hts, hroot, ?_, ?_⟩
      · rw [hfound]
        exact hrecord
      · rw [hfound]
        simp [heq, recordPath]
  · -- Without the definition the answer has no accumulator.
    simp only [Option.bind_eq_some_iff, Option.pure_def, Option.some.injEq] at hresult
    obtain ⟨⟨data, stateProofFrom⟩, hmissing, rfl⟩ := hresult
    exfalso
    apply hdata
    unfold missingData at hmissing
    split at hmissing
    · rw [← congrArg Prod.fst (Option.some.inj hmissing)]
      rfl
    · obtain ⟨ts, -, heq⟩ := Option.map_eq_some_iff.mp hmissing
      rw [← congrArg Prod.fst heq]
      rfl

/-- The client goes by whether the request has a time "from". -/
theorem parseKey_getRevocRegDelta {id : String} (hversion : env.protocolVersion = 2)
    (hop : doc.index "operation" = .object op)
    (htype : op.get "type" = .string ReadType.getRevocRegDelta.code)
    (hid : (op.get "revocRegDefId").asStr = some id) :
    parseKeyFromRequestForBuiltinSp env doc.serde = some
      (recordPath (!(op.get "from").isNull) id) := by
  have hlookup : op.lookup "type" = some (.string ReadType.getRevocRegDelta.code) := by
    rcases h : op.lookup "type" with _ | val
    · simp [Operation.get, h] at htype
    · rw [← htype, Operation.get_of_lookup h]
  rw [parseKey_of_type hop hlookup]
  simp only [keySuffix, keyPrefix, Json.index_serde, Json.asStr_serde, Json.isNull_serde,
    index_object, hid,
    marker_two hversion, Option.bind_eq_bind, Option.bind_some, Option.pure_def, Option.map_some,
    List.nil_append]
  cases (op.get "from").isNull <;> rfl

/-- The client rebuilds the record, with its numbers as it reads them. -/
theorem parseReplyForProofValue_delta {record : StateRecord} (text : String) (spKey : Bytes)
    (hseqNo : reply.seqNo = jsonNat record.seqNo)
    (htxnTime : reply.txnTime = jsonNat record.txnTime)
    (haccum : (reply.data.index "value").index "accum_to" = record.value)
    (hvalue : record.value ≠ .null) :
    parseReplyForProofValue env.sha256 (reply.message op).serde
      (some text) reply.data.serde .getRevocRegDelta spKey = .ok (some record.toJson.serde) := by
  have hnull : record.value.isNull = false := by
    cases h : record.value <;> simp_all [Json.isNull]
  have hs : (reply.message op).index "seqNo" = reply.seqNo := by
    simp [DeltaReply.message, Json.set, Json.index, Json.lookup_insertField,
      Json.lookup_insertField_of_ne]
  have ht : (reply.message op).index "txnTime" = reply.txnTime := by
    simp [DeltaReply.message, Json.set, Json.index, Json.lookup_insertField]
  simp only [parseReplyForProofValue, proofValueStart, Json.index_serde, hs, ht, haccum,
    hseqNo, htxnTime, Json.isNull_serde, hnull, Bool.false_eq_true, if_false]
  have hlut : ¬ "lut" < "lsn" := by decide
  have hval : ¬ "val" < "lsn" := by decide
  have hval' : ¬ "val" < "lut" := by decide
  simp only [Json.set, Json.insertField, StateRecord.toJson, Json.serde, Json.serdeFields,
    if_neg hlut, if_neg hval, if_neg hval', String.reduceEq, if_false]

/-- When the proof is of the record the client checks: the request has no time "from", or an entry
is found for that time, and the numbers of the record fit into 64 bits. -/
structure DeltaAgrees (store : TsStore) (op : Operation) : Prop where
  found : ∀ id, (op.get "revocRegDefId").asStr = some id → op.get "from" = .null ∨
    fromFound store op id = true
  fits : ∀ id ts root record, (op.get "revocRegDefId").asStr = some id →
    pyInt (op.get "to") = some ts →
    store.getEqualOrPrev ts = some root →
    root (recordPath (fromFound store op id) id) = some record →
      record.toJson.serde = record.toJson

theorem fromFound_eq_iff {id : String} :
    (!(op.get "from").isNull) = fromFound store op id ↔ op.get "from" = .null ∨
    fromFound store op id = true := by
  by_cases hnull : op.get "from" = .null
  · simp [hnull, Json.isNull, fromFound, truthy]
  · have hfalse : (op.get "from").isNull = false := by
      cases h : op.get "from" <;> simp_all [Json.isNull]
    simp only [hnull, hfalse, Bool.not_false, false_or]
    exact eq_comm

theorem delta_proof_agrees_iff (hversion : env.protocolVersion = 2)
    (hop : doc.index "operation" = .object op)
    (htype : op.get "type" = .string ReadType.getRevocRegDelta.code)
    (hresult : getRevocRegDeltaResult store op = some reply)
    (hdata : (reply.data.index "value").index "accum_to" ≠ .null) (text : String) :
    (∃ proof record, reply.proof = some proof ∧
        parseKeyFromRequestForBuiltinSp env doc.serde = some proof.path ∧
        proof.root proof.path = some record ∧
        parseReplyForProofValue env.sha256 (reply.message op).serde
          (some text) reply.data.serde .getRevocRegDelta proof.path = .ok (some record.toJson)) ↔
      DeltaAgrees store op := by
  obtain ⟨id, ts, root, record, hid, hts, hroot, hrecord, hproof, hseqNo, htxnTime, haccum⟩ :=
    record_of_result hresult hdata
  have hvalue : record.value ≠ .null := haccum ▸ hdata
  rw [parseKey_getRevocRegDelta hversion hop htype hid]
  constructor
  · rintro ⟨proof, record', hproof', hkey, hrecord', hrebuilt⟩
    obtain rfl : _ = proof := Option.some.inj (hproof.symm.trans hproof')
    rw [parseReplyForProofValue_delta text _ hseqNo htxnTime haccum hvalue] at hrebuilt
    constructor
    · intro id' hid'
      obtain rfl : id = id' := Option.some.inj (hid.symm.trans hid')
      exact fromFound_eq_iff.mp (recordPath_inj.mp (Option.some.inj hkey))
    · intro id' ts' root' record'' hid' hts' hroot' hrecord''
      obtain rfl : id = id' := Option.some.inj (hid.symm.trans hid')
      obtain rfl : ts = ts' := Option.some.inj (hts.symm.trans hts')
      obtain rfl : root = root' := Option.some.inj (hroot.symm.trans hroot')
      obtain rfl : record = record'' := Option.some.inj (hrecord.symm.trans hrecord'')
      obtain rfl : record = record' := Option.some.inj (hrecord.symm.trans hrecord')
      exact Option.some.inj (Except.ok.inj hrebuilt)
  · intro h
    have hkey := fromFound_eq_iff.mpr (h.found id hid)
    refine ⟨_, record, hproof, by rw [hkey], hrecord, ?_⟩
    rw [parseReplyForProofValue_delta text _ hseqNo htxnTime haccum hvalue,
      h.fits id ts root record hid hts hroot hrecord]

def sampleRegId : String :=
  "V4SGRU86Z58d6TV7PBUe6f:4:V4SGRU86Z58d6TV7PBUe6f:3:CL:15:TAG1:CL_ACCUM:TAG1"

def sampleRevocRegDef : StateRecord :=
  ⟨.object [("revocDefType", .string "CL_ACCUM"),
    ("value", .object [("issuanceType", .string "ISSUANCE_BY_DEFAULT")])], 16, 900⟩

def sampleEntry (seqNo txnTime : ℕ) (value : Json) : StateRecord :=
  ⟨.object [("revocDefType", .string "CL_ACCUM"), ("revocRegDefId", .string sampleRegId),
    ("seqNo", jsonNat seqNo), ("txnTime", jsonNat txnTime), ("value", value)], seqNo, txnTime⟩

def sampleDefined : DomainState := fun path =>
  if path = asBytes sampleRegId then some sampleRevocRegDef else none

def sampleStarted : DomainState := fun path =>
  if path = makeStatePathForRevocRegEntry sampleRegId then
    some (sampleEntry 17 1000 (.object [("accum", .string "a1"), ("revoked", .array [jsonNat 3])]))
  else if path = makeStatePathForRevocRegEntryAccum sampleRegId then
    some (sampleEntry 17 1000 (.object [("accum", .string "a1")]))
  else sampleDefined path

/-- The registry is defined at 900 and has its first entry at 1000. -/
def sampleStore : TsStore where
  getEqualOrPrev timestamp :=
    if 1000 ≤ timestamp then some sampleStarted else if 900 ≤ timestamp
      then some sampleDefined else none

def sampleDeltaOperation (tsFrom tsTo : ℕ) : Operation :=
  [("from", jsonNat tsFrom), ("revocRegDefId", .string sampleRegId), ("to", jsonNat tsTo),
    ("type", .string "117")]

theorem deltaAgrees_sample : DeltaAgrees sampleStore (sampleDeltaOperation 1000 1500) := by
  constructor
  · intro id hid
    obtain rfl : sampleRegId = id := Option.some.inj hid
    exact Or.inr (by decide)
  · intro id ts root record hid hts hroot hrecord
    obtain rfl : sampleRegId = id := Option.some.inj hid
    obtain rfl : 1500 = ts := Option.some.inj hts
    have hfound : fromFound sampleStore (sampleDeltaOperation 1000 1500) sampleRegId = true := by
      decide
    rw [hfound] at hrecord
    rw [← Option.some.inj hroot] at hrecord
    rw [← Option.some.inj hrecord]
    decide

theorem delta_proof_agrees_thousand : ∃ reply proof record,
    getRevocRegDeltaResult sampleStore (sampleDeltaOperation 1000 1500) = some reply ∧
    reply.proof = some proof ∧
      parseKeyFromRequestForBuiltinSp ⟨fun _ => [], 2⟩
        (Json.object [("operation", .object (sampleDeltaOperation 1000 1500))]).serde =
          some proof.path ∧
      proof.root proof.path = some record ∧
      parseReplyForProofValue (fun _ => [])
        (reply.message (sampleDeltaOperation 1000 1500)).serde (some "")
        reply.data.serde .getRevocRegDelta proof.path = .ok (some record.toJson) := by
  obtain ⟨reply, hresult⟩ : ∃ reply,
      getRevocRegDeltaResult sampleStore (sampleDeltaOperation 1000 1500) = some reply := ⟨_, rfl⟩
  have hdata : (reply.data.index "value").index "accum_to" ≠ .null := by
    rw [← Option.some.inj hresult]
    decide
  have hversion : (⟨fun _ => [], 2⟩ : KeyEnv).protocolVersion = 2 := rfl
  have hop : (Json.object [("operation", .object (sampleDeltaOperation 1000 1500))]).index
      "operation" = .object (sampleDeltaOperation 1000 1500) := rfl
  obtain ⟨proof, record, h⟩ :=
    (delta_proof_agrees_iff hversion hop rfl hresult hdata "").mpr deltaAgrees_sample
  exact ⟨reply, proof, record, hresult, h⟩

/-- Nothing was issued or revoked before 950: the node proves the entry, the client looks for the
accumulator. -/
theorem delta_proof_before_first_entry : ∃ reply proof,
    getRevocRegDeltaResult sampleStore (sampleDeltaOperation 950 1500) = some reply ∧
      (reply.data.index "value").index "accum_to" ≠ .null ∧ reply.proof = some proof ∧
      parseKeyFromRequestForBuiltinSp ⟨fun _ => [], 2⟩
        (Json.object [("operation", .object (sampleDeltaOperation 950 1500))]).serde ≠
          some proof.path := by
  refine ⟨_, _, rfl, ?_, rfl, ?_⟩
  · decide
  · decide

end SimpleAsset.IndyNode
