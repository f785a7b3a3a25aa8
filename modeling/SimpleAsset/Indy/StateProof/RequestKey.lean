import SimpleAsset.Indy.Primitive
import SimpleAsset.Indy.Pool.Json

/-! The key in the state trie that the answer to a request is checked against
(`state_proof/mod.rs`). -/
namespace SimpleAsset.Indy

/-- Read requests whose answers carry a proof. -/
inductive ReadType
  | getTxn
  | getTxnAuthrAgrmt
  | getTxnAuthrAgrmtAml
  | getAttr
  | getNym
  | getSchema
  | getCredDef
  | getRevocRegDef
  | getRevocReg
  | getRevocRegDelta
  | getAuthRule
  deriving DecidableEq, Repr

/-- Codes of the types (`domain/ledger/constants.rs`), the same on both sides. -/
def ReadType.code : ReadType → String
  | getTxn => "3"
  | getTxnAuthrAgrmt => "6"
  | getTxnAuthrAgrmtAml => "7"
  | getAttr => "104"
  | getNym => "105"
  | getSchema => "107"
  | getCredDef => "108"
  | getRevocRegDef => "115"
  | getRevocReg => "116"
  | getRevocRegDelta => "117"
  | getAuthRule => "121"

def ReadType.all : List ReadType :=
  [getTxn, getTxnAuthrAgrmt, getTxnAuthrAgrmtAml, getAttr, getNym, getSchema, getCredDef,
    getRevocRegDef, getRevocReg, getRevocRegDelta, getAuthRule]

def ReadType.ofCode (code : String) : Option ReadType :=
  ReadType.all.find? fun type => type.code = code

@[simp] theorem ReadType.ofCode_code (type : ReadType) : ReadType.ofCode type.code = some type := by
  cases type <;> rfl

/-- What the key depends on beside the request: the hash, and the protocol version that was set. -/
structure KeyEnv where
  sha256 : Bytes → Bytes
  protocolVersion : ℕ

/-- `ProtocolVersion::is_node_1_3`. -/
def KeyEnv.isNode13 (env : KeyEnv) : Bool := env.protocolVersion = 1

variable (env : KeyEnv)

/-- The marker of a record, a control character for old nodes. -/
def KeyEnv.marker (old new : String) : String := if env.isNode13 then old else new

/-- `key_suffix` of `parse_key_from_request_for_builtin_sp`. -/
def keySuffix (type : ReadType) (op : Json) : Option String :=
  match type with
  | .getAttr => do
    let attrName ← (op.index "raw").asStr <|> (op.index "enc").asStr <|> (op.index "hash").asStr
    return ":" ++ env.marker "\x01" "1" ++ ":" ++ hexEncode (env.sha256 (asBytes attrName))
  | .getCredDef => do
    let signType ← (op.index "signature_type").asStr
    let schSeqNo ← (op.index "ref").asU64
    let tag := if env.isNode13 then none else (op.index "tag").asStr
    let tag := (tag.map fun t => ":" ++ t).getD ""
    return ":" ++ env.marker "\x03" "3" ++ ":" ++ signType ++ ":" ++ u64ToString schSeqNo ++ tag
  | .getNym => some ""
  | .getRevocRegDef => some ""
  | .getSchema => do
    let name ← ((op.index "data").index "name").asStr
    let ver ← ((op.index "data").index "version").asStr
    return ":" ++ env.marker "\x02" "2" ++ ":" ++ name ++ ":" ++ ver
  | .getRevocReg => do
    let revocRegDefId ← (op.index "revocRegDefId").asStr
    return env.marker "\x06" "6" ++ ":" ++ revocRegDefId
  | .getAuthRule => do
    let authType ← (op.index "auth_type").asStr
    let authAction ← (op.index "auth_action").asStr
    let field ← (op.index "field").asStr
    let defaultOldValue := if authAction = "ADD" then "*" else ""
    return "1:" ++ authType ++ "--" ++ authAction ++ "--" ++ field ++ "--" ++
      (op.index "old_value").asStr.getD defaultOldValue ++ "--" ++
      (op.index "new_value").asStr.getD ""
  | .getRevocRegDelta => do
    let revocRegDefId ← (op.index "revocRegDefId").asStr
    let marker := if (op.index "from").isNull then env.marker "\x05" "5" else env.marker "\x06" "6"
    return marker ++ ":" ++ revocRegDefId
  | .getTxnAuthrAgrmt =>
    match (op.index "version").asStr, (op.index "digest").asStr, (op.index "timestamp").asU64 with
    | none, none, _ => some "2:latest"
    | none, some digest, none => some ("2:d:" ++ digest)
    | some version, none, none => some ("2:v:" ++ version)
    | _, _, _ => none
  | .getTxnAuthrAgrmtAml =>
    match (op.index "version").asStr with
    | some version => some ("3:v:" ++ version)
    | none => some "3:latest"
  | .getTxn => do
    let seqNo ← (op.index "data").asU64
    return u64ToString seqNo

/-- `key_prefix` of `parse_key_from_request_for_builtin_sp`. -/
def keyPrefix (type : ReadType) (op : Json) : Option Bytes :=
  let dest := (op.index "dest").asStr <|> (op.index "origin").asStr
  match type with
  | .getNym => dest.map fun dest => env.sha256 (asBytes dest)
  | .getRevocReg => some []
  | .getRevocRegDelta => some []
  | .getTxnAuthrAgrmt => some []
  | .getTxnAuthrAgrmtAml => some []
  | .getAuthRule => some []
  | .getRevocRegDef => (op.index "id").asStr.map asBytes
  | .getTxn => some []
  | _ => dest.map asBytes

def parseKeyFromRequestForBuiltinSp (jsonMsg : Json) : Option Bytes := do
  let op := jsonMsg.index "operation"
  let type ← (op.index "type").asStr
  let type ← ReadType.ofCode type
  let suffix ← keySuffix env type op
  let start ← keyPrefix env type op
  return start ++ asBytes suffix

end SimpleAsset.Indy
