import SimpleAsset.Library.Trie
import SimpleAsset.Indy.Primitive

/-! Lookup in the Patricia trie of a state proof (`state_proof/node.rs`) and `_verify_proof`. -/
namespace SimpleAsset.Indy
open SimpleAsset.Library

abbrev Nibble := Fin 16

inductive Node
  | leaf (path value : Bytes)
  | extension (path : Bytes) (next : Node)
  | full (nodes : Nibble → Option Node) (value : Option Bytes)
  | hash (hash : Bytes)
  | blank

/-- Nodes of a proof under their hashes. -/
abbrev TrieDB := Bytes → Option Node

/-- What the `rlp` and `sha3` crates compute. -/
structure Rlp where
  /-- `UntrustedRlp::as_list` at `Node` -/
  nodes : Bytes → Option (List Node)
  /-- `UntrustedRlp::as_list` at `Vec<u8>` -/
  list : Bytes → Option (List Bytes)
  /-- `Node::get_hash`, the SHA3-256 of the encoding -/
  getHash : Node → Bytes

namespace Node

def highNibble (s : UInt8) : Nibble := ⟨s.toNat / 16, by have := s.toNat_lt; omega⟩

def lowNibble (s : UInt8) : Nibble := ⟨s.toNat % 16, by omega⟩

def pathToNibbles : Bytes → List Nibble
  | [] => []
  | s :: path => highNibble s :: lowNibble s :: pathToNibbles path

/-- `parse_path`: the leaf flag and the nibbles of a packed path. -/
def parsePath : Bytes → Outcome (Bool × List Nibble)
  | [] => .error (.panic .outOfBounds)
  | flags :: path =>
    let isLeaf := flags &&& 0x20 == 0x20
    let isOdd := flags &&& 0x10 == 0x10
    .ok (isLeaf, if isOdd then lowNibble flags :: pathToNibbles path else pathToNibbles path)

/-- `_get_node`, shared by prefix search and lookup; `seen` is the path walked so far. -/
def getNode (db : TrieDB) : ℕ → Node → List Nibble → List Nibble →
    Outcome (Option (Node × List Nibble))
  | 0, _, _, _ => .error .outOfFuel
  | _ + 1, full nodes value, [], seen => .ok (some (full nodes value, seen))
  | fuel + 1, full nodes _, x :: path, seen =>
    match nodes x with
    | some next => getNode db fuel next path (seen ++ [x])
    | none => .ok none
  | fuel + 1, hash h, path, seen =>
    -- `NodeHash::from_slice` takes 32 bytes
    if h.length ≠ 32 then .error (.panic .assertionFailed)
    else match db h with
      | some next => getNode db fuel next path seen
      | none => errMsg .invalidStructure
          "Incomplete key-value DB for Patricia Merkle Trie to get value by the key"
  | _ + 1, leaf pairPath value, path, seen => do
    let (isLeaf, nibbles) ← parsePath pairPath
    if !isLeaf then
      errMsg .invalidState
        "Incorrect Patricia Merkle Trie: node marked as leaf but path contains extension flag"
    else if path <+: nibbles then return some (leaf pairPath value, seen)
    else return none
  | fuel + 1, extension pairPath next, path, seen => do
    let (isLeaf, nibbles) ← parsePath pairPath
    if isLeaf then
      errMsg .invalidState
        "Incorrect Patricia Merkle Trie: node marked as extension but path contains leaf flag"
    else if nibbles <+: path then getNode db fuel next (path.drop nibbles.length) (seen ++ nibbles)
    else if path <+: nibbles then return some (extension pairPath next, seen)
    else return none
  | _ + 1, blank, _, _ => .ok none

/-- What `_get_value` takes from the node it found. -/
def foundValue : Option (Node × List Nibble) → Outcome (Option Bytes)
  | some (full _ value, _) => .ok value
  | some (leaf pairPath value, _) => do
    let (isLeaf, _) ← parsePath pairPath
    if !isLeaf then
      errMsg .invalidState
        "Incorrect Patricia Merkle Trie: node marked as leaf but path contains extension flag"
    else return some value
  | _ => .ok none

/-- `_get_value`. -/
def rawValue (db : TrieDB) (fuel : ℕ) (node : Node) (path : List Nibble) :
    Outcome (Option Bytes) := do
  foundValue (← getNode db fuel node path [])

/-- End of `get_value`: the stored bytes are the RLP of a list of one item. -/
def unpackValue (R : Rlp) : Option Bytes → Outcome (Option Bytes)
  | none => .ok none
  | some raw =>
    match (R.list raw).getD [] with
    | [value] => .ok (some value)
    | _ => errMsg .invalidStructure "Unexpected data format of value in Patricia Merkle Trie"

def getValue (R : Rlp) (db : TrieDB) (fuel : ℕ) (node : Node) (path : Bytes) :
    Outcome (Option Bytes) := do
  unpackValue R (← rawValue db fuel node (pathToNibbles path))

/-- End of `get_str_value`. -/
def strValue : Option Bytes → Outcome (Option String)
  | none => .ok none
  | some value =>
    match fromUtf8 value with
    | some str => .ok (some str)
    | none => errMsg .invalidStructure "Patricia Merkle Trie contains malformed utf8 string"

def getStrValue (R : Rlp) (db : TrieDB) (fuel : ℕ) (node : Node) (path : Bytes) :
    Outcome (Option String) := do
  strValue (← getValue R db fuel node path)

/-- The map `_verify_proof` fills; a later node takes the place of an earlier one with its hash. -/
def trieDB (R : Rlp) (nodes : List Node) : TrieDB := fun h =>
  nodes.reverse.find? fun node => R.getHash node = h

end Node

/-- End of `_verify_proof`: an `IndyError` counts as a refusal. -/
def matchesExpected (expected : Option String) : Outcome (Option String) → Outcome Bool
  | .ok value => .ok (decide (value = expected))
  | .error (.err _) => .ok false
  | .error fault => .error fault

/-- `_verify_proof`. -/
def verifyProof (R : Rlp) (fuel : ℕ) (proof rootHash key : Bytes) (expected : Option String) :
    Outcome Bool :=
  let db := Node.trieDB R ((R.nodes proof).getD [])
  match db rootHash with
  | none => .ok false
  | some root => matchesExpected expected (root.getStrValue R db fuel key)

end SimpleAsset.Indy
