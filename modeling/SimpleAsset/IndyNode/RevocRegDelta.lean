import SimpleAsset.Indy.StateProof.ProofValue
import SimpleAsset.IndyNode.ReadRequest
import SimpleAsset.IndyNode.Revocation

/-! Changes of a revocation registry between two times (`get_revoc_reg_delta_handler.py`), and the
record its answer proves. -/
namespace SimpleAsset.IndyNode
open SimpleAsset.Indy

/-- A record as `encode_state_value` stores it. -/
structure StateRecord where
  value : Json
  seqNo : ℕ
  txnTime : ℕ

def jsonNat (n : ℕ) : Json := .number (.posInt n)

def StateRecord.toJson (record : StateRecord) : Json :=
  .object [("lsn", jsonNat record.seqNo), ("lut", jsonNat record.txnTime), ("val", record.value)]

/-- The domain state under one root. -/
abbrev DomainState := Bytes → Option StateRecord

/-- The `ts_store` of plenum: the state that was committed last at a time, or before it. -/
structure TsStore where
  getEqualOrPrev : ℤ → Option DomainState

/-- A proof of what is stored under a path, be it nothing. -/
structure StateProof where
  root : DomainState
  path : Bytes

/-- `StateValue`; `None` is null. -/
structure StateValue where
  root : Option DomainState
  value : Json
  seqNo : Json
  updateTime : Json
  proof : Option StateProof

def StateValue.empty : StateValue := ⟨none, .null, .null, .null, none⟩

/-- Truth value of a Python object. -/
def truthy : Json → Bool
  | .null => false
  | .bool b => b
  | .number (.posInt n) => n ≠ 0
  | .number (.negInt n) => n ≠ 0
  | .number (.float text) => (text.toList.takeWhile fun c => c ≠ 'e' && c ≠ 'E').any fun c =>
      c.isDigit && c ≠ '0'
  | .string s => s ≠ ""
  | .array items => items ≠ []
  | .object fields => fields ≠ []

/-- A Python integer, booleans among them. -/
def pyInt : Json → Option ℤ
  | .number (.posInt n) => some n
  | .number (.negInt n) => some n
  | .bool b => some (if b then 1 else 0)
  | _ => none

def jsonInt (n : ℤ) : Json := .number (if 0 ≤ n then .posInt n.toNat else .negInt n)

/-- `_get_reg_entry_by_timestamp`, also `_get_reg_entry_accum_by_timestamp`. -/
def getByTimestamp (store : TsStore) (timestamp : ℤ) (path : Bytes) : StateValue :=
  match store.getEqualOrPrev timestamp with
  | none => .empty
  | some pastRoot =>
    match pastRoot path with
    | none => ⟨some pastRoot, .null, .null, .null, some ⟨pastRoot, path⟩⟩
    | some record =>
      ⟨some pastRoot, record.value, jsonNat record.seqNo, jsonNat record.txnTime,
        some ⟨pastRoot, path⟩⟩

/-- The indices in `entry[VALUE].get(name, [])`. -/
def indicesOf (entry : Json) (name : String) : Option (List ℤ) :=
  match (entry.index "value").index name with
  | .null => some []
  | .array items => items.mapM pyInt
  | _ => none

/-- `get_revocation_strategy`. -/
def strategyOf (issuanceType : Json) : Option Strategy :=
  if issuanceType = .string "ISSUANCE_BY_DEFAULT"
    then some (getRevocationStrategy .issuanceByDefault)
  else if issuanceType = .string "ISSUANCE_ON_DEMAND"
    then some (getRevocationStrategy .issuanceOnDemand)
  else none

/-- The lists of an entry, as `get_delta` is given them. -/
def entryLists (entry : Json) : Option (EntryValue ℤ) := do
  let issued ← indicesOf entry "issued"
  let revoked ← indicesOf entry "revoked"
  return ⟨none, "", some issued, some revoked⟩

/-- What the handler returns; `stateProofFrom` stands in the data on the wire. -/
structure DeltaReply where
  data : Json
  stateProofFrom : Option StateProof
  seqNo : Json
  txnTime : Json
  proof : Option StateProof

/-- The four records that are read. -/
structure DeltaRecords where
  entryTo : StateValue
  accumTo : StateValue
  entryFrom : StateValue
  accumFrom : StateValue

/-- The entry the delta starts from, when both records for "from" are there. -/
def deltaListsFrom (reqTsFrom : Json) (records : DeltaRecords) : Option (Option (EntryValue ℤ)) :=
  if truthy reqTsFrom && truthy records.entryFrom.value && truthy records.accumFrom.value then
    (entryLists records.entryFrom.value).map some
  else some none

/-- `reply` when both records for "to" and the definition are there. -/
def deltaData (id : String) (reqTsFrom : Json) (records : DeltaRecords) (revocRegDef : Json) :
    Option Json := do
  let strategy ← strategyOf ((revocRegDef.index "value").index "issuanceType")
  let listsTo ← entryLists records.entryTo.value
  let listsFrom ← deltaListsFrom reqTsFrom records
  let delta := strategy.getDelta listsTo listsFrom
  let accumTo := if truthy records.entryFrom.value then records.accumTo.value
    else records.entryTo.value
  let accumFrom := if truthy reqTsFrom then [("accum_from", records.accumFrom.value)] else []
  return .object [("revocDefType", revocRegDef.index "revocDefType"), ("revocRegDefId", .string id),
    ("value",
      .object (accumFrom ++ [("accum_to", accumTo), ("issued", .array (delta.1.map jsonInt)),
      ("revoked", .array (delta.2.map jsonInt))]))]

/-- The records for "from", which are read only when the definition is there. -/
def recordsFrom (store : TsStore) (reqTsFrom : Json) (revocRegDef : Option StateRecord)
    (id : String) :
    Option (StateValue × StateValue) :=
  if truthy reqTsFrom && revocRegDef.isSome then
    (pyInt reqTsFrom).map fun ts => (getByTimestamp store ts (makeStatePathForRevocRegEntry id),
      getByTimestamp store ts (makeStatePathForRevocRegEntryAccum id))
  else some (.empty, .empty)

/-- `data` when the registry or its entry is not there. -/
def missingData (store : TsStore) (reqTsFrom : Json) (id : String) :
    Option (Json × Option StateProof) :=
  if reqTsFrom = .null then some (.null, none)
  else (pyInt reqTsFrom).map fun ts =>
    let accumFrom := getByTimestamp store ts (makeStatePathForRevocRegEntryAccum id)
    (.object [("value", .object [("accum_from", accumFrom.value), ("accum_to", .null)])],
      accumFrom.proof)

/-- `GetRevocRegDeltaHandler.get_result`; `none` when it raises. -/
def getRevocRegDeltaResult (store : TsStore) (op : Operation) : Option DeltaReply := do
  let reqTsFrom := op.get "from"
  let reqTsTo ← pyInt (op.get "to")
  let id ← (op.get "revocRegDefId").asStr
  let entryTo := getByTimestamp store reqTsTo (makeStatePathForRevocRegEntry id)
  let accumTo := getByTimestamp store reqTsTo (makeStatePathForRevocRegEntryAccum id)
  let revocRegDef := if truthy accumTo.value && truthy entryTo.value then
    entryTo.root.bind fun root => root (asBytes id) else none
  let (entryFrom, accumFrom) ← recordsFrom store reqTsFrom revocRegDef id
  let records : DeltaRecords := ⟨entryTo, accumTo, entryFrom, accumFrom⟩
  let main := if truthy entryFrom.value then accumTo else entryTo
  match revocRegDef with
  | some record =>
    let data ← deltaData id reqTsFrom records record.value
    return ⟨data, if truthy reqTsFrom then accumFrom.proof else none, main.seqNo,
      main.updateTime, main.proof⟩
  | none =>
    let (data, stateProofFrom) ← missingData store reqTsFrom id
    return ⟨data, stateProofFrom, main.seqNo, main.updateTime, main.proof⟩

/-- `make_result`, as far as the client reads it. -/
def DeltaReply.message (op : Operation) (reply : DeltaReply) : Json :=
  (((Json.object op).set "data" reply.data).set "seqNo" reply.seqNo).set "txnTime" reply.txnTime

end SimpleAsset.IndyNode
