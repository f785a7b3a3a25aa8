import SimpleAsset.Indy.Wallet.SqlSelection
import SimpleAsset.Indy.Wql.JsonText

/-! The query that a plugged storage is given: written by language.rs, and read by the PostgreSQL
plugin. -/
namespace SimpleAsset.Indy.Wallet
open SimpleAsset.Library

/-- Standard base64. -/
structure Base64 where
  encode : Bytes → String
  decode : String → Option Bytes
  decode_encode : ∀ b, decode (encode b) = some b
  alphabet : ∀ b,
    ((encode b).toList.all fun c => c.isAlphanum || c = '+' || c = '/' || c = '=') = true

section Writing
variable (B : Base64)

def quoted (s : String) : String := "\"" ++ s ++ "\""

def TagName.toText : TagName → String
  | .ofEncrypted v => quoted (B.encode v)
  | .ofPlain v => quoted ("~" ++ B.encode v)

def TargetValue.toText : TargetValue → String
  | .unencrypted s => quoted s
  | .encrypted v => quoted (B.encode v)

/-- The key of a comparison in a query; equality has none. -/
def CompareOp.key : CompareOp → String
  | .eq => ""
  | .neq => "$neq"
  | .gt => "$gt"
  | .gte => "$gte"
  | .lt => "$lt"
  | .lte => "$lte"
  | .like => "$like"

/-- A text between braces. -/
def braced (s : String) : String := "\x7b" ++ s ++ "\x7d"

namespace Operator

mutual

/-- `Operator::to_string`. -/
def toText : Operator → String
  | test .eq name value => braced (name.toText B ++ ":" ++ value.toText B)
  | test op name value =>
    braced (name.toText B ++ ":" ++ braced (quoted op.key ++ ":" ++ value.toText B))
  | isIn name values =>
    braced (name.toText B ++ ":" ++
      braced ("\"$in\":[" ++ ",".intercalate (values.map (TargetValue.toText B)) ++ "]"))
  | and operators =>
    if operators.isEmpty then "\x7b\x7d"
      else braced ("\"$and\":[" ++ ",".intercalate (toTexts operators) ++ "]")
  | or operators =>
    if operators.isEmpty then "\x7b\x7d"
      else braced ("\"$or\":[" ++ ",".intercalate (toTexts operators) ++ "]")
  | not stmt => braced ("\"$not\":" ++ toText stmt)

def toTexts : List Operator → List String
  | [] => []
  | operator :: operators => toText operator :: toTexts operators

end

end Operator

/-- `CString::new` in `PluggedStorage::search`. -/
def cString (s : String) : IndyResult String :=
  if '\x00' ∈ s.toList then .error ⟨.invalidState, "Null symbols in payments strings"⟩ else .ok s

/-- The query that the handler of the storage is called with. -/
def searchQuery (query : Operator) : IndyResult String := cString (query.toText B)

end Writing

namespace Plugin

inductive WalletQueryError
  | parsingErr (message : String)
  | structureErr (message : String)
  | valueErr (message : String)
  deriving DecidableEq, Repr

inductive Fault
  | err (e : WalletQueryError)
  | panic
  deriving DecidableEq, Repr

abbrev Result := Except Fault

def structureErr {α : Type} (message : String) : Result α := .error (.err (.structureErr message))

def valueErr {α : Type} (message : String) : Result α := .error (.err (.valueErr message))

/-- `serde_json::from_str::<Value>`: compact documents are read up to a depth of 127. -/
structure JsonReader where
  fromStr : String → Except String Json
  fromStr_text : ∀ value : Json, value.isTextual = true → value.nesting < 128 →
    fromStr (String.ofList value.text) = .ok value
  fromStr_deep : ∀ value : Json, value.isTextual = true → 128 ≤ value.nesting →
    ∃ e, fromStr (String.ofList value.text) = .error e

section Reading
variable (B : Base64) (encrypted : Bool)

/-- `base64::decode(..).unwrap()`. -/
def decodeUnwrap (s : String) : Result Bytes :=
  match B.decode s with
  | some b => .ok b
  | none => .error .panic

/-- `_build_target_name`. -/
def buildTargetName (key : String) : Result TagName :=
  if !encrypted then
    -- `TagName::from(..).unwrap()`
    if key = "" ∨ key = "~" then .error .panic
    else .ok (if isPlain key then .ofPlain ((asBytes key).drop 1) else .ofEncrypted (asBytes key))
  else match key.toList with
    | '~' :: rest => do
      let name ← decodeUnwrap B (String.ofList rest)
      pure (.ofPlain name)
    | _ => do
      let name ← decodeUnwrap B key
      pure (.ofEncrypted name)

/-- `_build_target_value`. -/
def buildTargetValue (targetName : TagName) (value : String) : Result TargetValue :=
  match encrypted, targetName with
  | true, .ofEncrypted _ => do
    let value ← decodeUnwrap B value
    pure (.encrypted value)
  | _, _ => .ok (.unencrypted value)

/-- The comparison with a key. -/
def compareOpOf (operatorName : String) : Option CompareOp :=
  [.neq, .gt, .gte, .lt, .lte, .like].find? fun op => op.key = operatorName

/-- The arms of `parse_single_operator` for a comparison; all but `$neq` are refused for encrypted
tags. -/
def parseComparison (op : CompareOp) (key : String) : Json → Result Operator
  | .string s => do
    let targetName ← buildTargetName B encrypted key
    if targetName.compares op then do
      let targetValue ← buildTargetValue B encrypted targetName s
      pure (.test op targetName targetValue)
    else structureErr (op.key ++ " must be used only for nonencrypted tag")
  | _ => valueErr (op.key ++ " must be used with string")

def targetValueOf (targetName : TagName) : Json → Result TargetValue
  | .string s => buildTargetValue B encrypted targetName s
  | _ => valueErr "$in must be used with array of strings"

def parseIn (key : String) : Json → Result Operator
  | .array values => do
    let targetName ← buildTargetName B encrypted key
    let targetValues ← values.mapM (targetValueOf B encrypted targetName)
    pure (.isIn targetName targetValues)
  | _ => valueErr "$in must be used with array of strings"

def parseSingleOperator (operatorName key : String) (value : Json) : Result Operator :=
  match compareOpOf operatorName with
  | some op => parseComparison B encrypted op key value
  | none => if operatorName = "$in" then parseIn B encrypted key value
      else valueErr ("Bad operator: " ++ operatorName)

/-- `Operator::optimise`, of the outermost operator only. -/
def optimise : Operator → Operator
  | .not (.not nested) => nested
  | .and [operator] => operator
  | .or [operator] => operator
  | .isIn key [target] => .test .eq key target
  | operator => operator

/-- The value of a tag. -/
def parseTag (key : String) : Json → Result Operator
  | .string value => do
    let targetName ← buildTargetName B encrypted key
    let targetValue ← buildTargetValue B encrypted targetName value
    pure (.test .eq targetName targetValue)
  | .object [(operatorName, value)] => parseSingleOperator B encrypted operatorName key value
  | .object _ => structureErr (key ++ " value must be JSON object of length 1")
  | _ => structureErr ("Unsupported value for key: " ++ key)

mutual

/-- The operators that `parse` collects. -/
def parseFields : List (String × Json) → Result (List Operator)
  | [] => .ok []
  | (key, value) :: fields => do
    let suboperator ← parseOperator key value
    let operators ← parseFields fields
    pure (suboperator :: operators)

def parseOperator (key : String) : Json → Result Operator
  | .array values =>
    if key = "$and" then do
      let operators ← parseList "$and must be array of JSON objects" values
      pure (.and operators)
    else if key = "$or" then do
      let operators ← parseList "$or must be array of JSON objects" values
      pure (.or operators)
    else if key = "$not" then structureErr "$not must be JSON object"
    else parseTag B encrypted key (.array values)
  | .object fields =>
    if key = "$and" then structureErr "$and must be array of JSON objects"
    else if key = "$or" then structureErr "$or must be array of JSON objects"
    else if key = "$not" then do
      let operators ← parseFields fields
      pure (.not (optimise (.and operators)))
    else parseTag B encrypted key (.object fields)
  | value =>
    if key = "$and" then structureErr "$and must be array of JSON objects"
    else if key = "$or" then structureErr "$or must be array of JSON objects"
    else if key = "$not" then structureErr "$not must be JSON object"
    else parseTag B encrypted key value

/-- The queries in the array of `$and` or `$or`. -/
def parseList (message : String) : List Json → Result (List Operator)
  | [] => .ok []
  | .object fields :: values => do
    let operators ← parseFields fields
    let suboperators ← parseList message values
    pure (optimise (.and operators) :: suboperators)
  | _ :: _ => structureErr message

end

def parse (map : List (String × Json)) : Result Operator := do
  let operators ← parseFields B encrypted map
  pure (optimise (.and operators))

/-- `parse_from_json_iternal`. -/
def parseFromJsonInternal (R : JsonReader) (json : String) : Result Operator :=
  match R.fromStr json with
  | .ok (.object map) => parse B encrypted map
  | .ok _ => structureErr "Query must be JSON object"
  | .error e => .error (.err (.parsingErr e))

/-- `parse_from_json_encrypted`. -/
def parseFromJsonEncrypted (R : JsonReader) (json : String) : Result Operator :=
  parseFromJsonInternal B true R json

end Reading

end Plugin

end SimpleAsset.Indy.Wallet
