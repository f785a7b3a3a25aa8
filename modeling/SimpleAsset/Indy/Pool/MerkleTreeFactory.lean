import SimpleAsset.Indy.Merkle.Append
import SimpleAsset.Indy.Pool.Types
import SimpleAsset.Library.LittleEndian

/-! The files of a pool and the ledger tree that is read from them
(`pool/merkle_tree_factory.rs`). -/
namespace SimpleAsset.Indy
open SimpleAsset.Library

/-- The genesis transactions and the cached ones, and the name of the pool as error texts have it
(`{:?}`). -/
structure PoolFiles where
  name : String
  genesis : Option Bytes
  stored : Option Bytes
  deriving DecidableEq, Repr

/-- The bytes up to each newline, with it, and those after the last one. -/
def rawLines (line : Bytes) : Bytes → List Bytes
  | [] => if line = [] then [] else [line.reverse]
  | b :: rest => if b = 10 then (b :: line).reverse :: rawLines [] rest
      else rawLines (b :: line) rest

/-- A line without the newline and the carriage return before it. -/
def withoutNewline (line : String) : String :=
  match line.toList.reverse with
  | '\n' :: '\r' :: cs => String.ofList cs.reverse
  | '\n' :: cs => String.ofList cs.reverse
  | _ => line

/-- `BufRead::lines`, `none` for one that is not UTF-8. -/
def lines (content : Bytes) : List (Option String) :=
  (rawLines [] content).map fun line => (fromUtf8 line).map withoutNewline

/-- `str::trim`. -/
def trim (s : String) : String :=
  String.ofList (((s.toList.dropWhile isWhitespace).reverse.dropWhile isWhitespace).reverse)

variable (env : Env)

/-- `_parse_txn_from_json`. -/
def parseTxnFromJson (txn : String) : IndyResult Bytes :=
  let txn := trim txn
  if txn = "" then .ok []
  else
    match env.parseJson txn with
    | none => .error ⟨.invalidStructure, "Genesis txn is mailformed json"⟩
    | some txn =>
      match env.toVecNamed txn with
      | none => .error ⟨.invalidState, "Can't encode genesis txn as message pack"⟩
      | some bytes => .ok bytes

/-- The `?` on a line. -/
def readLine (line : Option String) : IndyResult String :=
  match line with
  | none => .error ⟨.ioError, "Can't read from genesis txn file"⟩
  | some line => .ok line

/-- One round of the loop of `_from_genesis`. -/
def appendLine (mt : MerkleTree) (line : Option String) : Outcome MerkleTree := do
  let line ← ofIndyResult (readLine line)
  if trim line = "" then return mt
  else mt.append env.hash (← ofIndyResult (parseTxnFromJson env line))

/-- `_from_genesis`. -/
def fromGenesis (genesis : Bytes) : Outcome MerkleTree := do
  (lines genesis).foldlM (appendLine env) (← MerkleTree.fromVec env.hash [])

/-- `_genesis_to_binary`. -/
def genesisToBinary (genesis : Bytes) : IndyResult (List Bytes) :=
  (lines genesis).mapM fun line => do
    parseTxnFromJson env (← readLine line)

/-- What `_dump_vec_to_file` writes. -/
def dumpVecToFile (v : List Bytes) : Bytes := v.flatMap fun line => toLe 8 line.length ++ line

/-- The loop of `_from_cache`. -/
def readRecords (H : Hash) (mt : MerkleTree) (content : Bytes) : Outcome MerkleTree :=
  -- The end of the file is not told from one within the length.
  if content.length < 8 then .ok mt
  else
    let bytes := ofLe (content.take 8)
    if isizeMax < bytes then .error (.panic .capacityOverflow)
    else if (content.drop 8).length < bytes
      then errMsg .invalidState "Malformed pool ledger cache file"
    else do
      let mt ← mt.append H ((content.drop 8).take bytes)
      readRecords H mt (content.drop (8 + bytes))
termination_by content.length
decreasing_by
  rw [List.length_drop]
  omega

/-- `_from_cache`. -/
def fromCache (H : Hash) (content : Bytes) : Outcome MerkleTree := do
  readRecords H (← MerkleTree.fromVec H []) content

variable (files : PoolFiles)

def notCreated {α : Type} : IndyResult α :=
  .error ⟨.poolNotCreated, "Pool is not created for name: " ++ files.name⟩

/-- `create`. -/
def create : Outcome MerkleTree :=
  match files.stored with
  | none =>
    match files.genesis with
    | none => ofIndyResult (notCreated files)
    | some genesis => fromGenesis env genesis
  | some stored => fromCache env.hash stored

/-- `_dump_genesis_to_stored`; the file is there before the genesis transactions are read. -/
def dumpGenesisToStored : IndyResult Unit × PoolFiles :=
  match files.genesis with
  | none => (notCreated files, files)
  | some genesis =>
    match genesisToBinary env genesis with
    | .error e => (.error e, { files with stored := some [] })
    | .ok v => (.ok (), { files with stored := some (dumpVecToFile v) })

/-- What `dump_new_txns` adds to the file. -/
def appendToStored (txns : List Bytes) : IndyResult Unit × PoolFiles :=
  match files.stored with
  | none => (.error ⟨.ioError, "Can't open pool ledger cache file"⟩, files)
  | some stored => (.ok (), { files with stored := some (stored ++ dumpVecToFile txns) })

/-- `dump_new_txns`. -/
def dumpNewTxns (txns : List Bytes) : IndyResult Unit × PoolFiles :=
  match files.stored with
  | some _ => appendToStored files txns
  | none =>
    match dumpGenesisToStored env files with
    | (.error e, files) => (.error e, files)
    | (.ok _, files) => appendToStored files txns

end SimpleAsset.Indy
