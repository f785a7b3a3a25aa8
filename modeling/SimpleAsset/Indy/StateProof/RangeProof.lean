import Mathlib.Data.List.FinRange
import SimpleAsset.Indy.StateProof.Node

/-! All values under a prefix (`get_all_values`) and `_verify_proof_range`. -/
namespace SimpleAsset.Indy
open SimpleAsset.Library

namespace Node

/-- A stored value: the RLP of a list of one item, as text. -/
def textOf (R : Rlp) (raw : Bytes) : Option (Outcome String) :=
  match (R.list raw).getD [] with
  | [val] =>
    match fromUtf8 val with
    | some str => some (.ok str)
    | none => some (errMsg .invalidStructure "Patricia Merkle Trie contains malformed utf8 string")
  | _ => none

/-- What a full node's own value adds; one that is not a list of one item is left out. -/
def ownValue (R : Rlp) (seen : List Nibble) : Option Bytes → Outcome (List (List Nibble × String))
  | none => .ok []
  | some raw =>
    match textOf R raw with
    | none => .ok []
    | some text => do return [(seen, ← text)]

/-- What a leaf adds. -/
def leafValue (R : Rlp) (path : List Nibble) (raw : Bytes) :
    Outcome (List (List Nibble × String)) :=
  match textOf R raw with
  | none => errMsg .invalidStructure "Unexpected data format of value in Patricia Merkle Trie"
  | some text => do return [(path, ← text)]

/-- `_get_all_values`. -/
def allValues (R : Rlp) (db : TrieDB) : ℕ → Node → List Nibble →
    Outcome (List (List Nibble × String))
  | 0, _, _ => .error .outOfFuel
  | fuel + 1, full nodes value, seen => do
    let res ← (List.finRange 16).mapM fun nibble =>
      match nodes nibble with
      | some next => allValues R db fuel next (seen ++ [nibble])
      | none => .ok []
    return res.flatten ++ (← ownValue R seen value)
  | fuel + 1, hash h, seen =>
    if h.length ≠ 32 then .error (.panic .assertionFailed)
    else match db h with
      | some next => allValues R db fuel next seen
      | none => errMsg .invalidState
          "Incorrect Patricia Merkle Trie: empty hash node when it should not be empty"
  | _ + 1, leaf pairPath value, seen => do
    let (isLeaf, nibbles) ← parsePath pairPath
    if !isLeaf then
      errMsg .invalidState
        "Incorrect Patricia Merkle Trie: node marked as leaf but path contains extension flag"
    else leafValue R (seen ++ nibbles) value
  | fuel + 1, extension pairPath next, seen => do
    let (isLeaf, nibbles) ← parsePath pairPath
    if isLeaf then
      errMsg .invalidState
        "Incorrect Patricia Merkle Trie: node marked as extension but path contains leaf flag"
    else allValues R db fuel next (seen ++ nibbles)
  | _ + 1, blank, _ => .ok []

/-- The bytes of `_nibbles_to_str`. -/
def nibblesToBytes : List Nibble → Outcome Bytes
  | [] => .ok []
  | [_] => .error (.panic .outOfBounds)
  | h :: l :: nibbles => do return UInt8.ofNat (16 * h.val + l.val) :: (← nibblesToBytes nibbles)

/-- `_nibbles_to_str`. -/
def nibblesToStr (nibbles : List Nibble) : Outcome String := do
  match fromUtf8 (← nibblesToBytes nibbles) with
  | some str => return str
  | none => errMsg .invalidStructure "Patricia Merkle Trie contains malformed utf8 string"

/-- The values under the node that was found for a prefix. -/
def valuesUnder (R : Rlp) (db : TrieDB) (fuel : ℕ) :
    Option (Node × List Nibble) → Outcome (List (List Nibble × String))
  | some (node, seen) => allValues R db fuel node seen
  | none => .ok []

/-- The loop of `get_all_values`. -/
def keyed (vals : List (List Nibble × String)) : Outcome (List (String × String)) :=
  vals.mapM fun entry => do return (← nibblesToStr entry.1, entry.2)

/-- `get_all_values` with a prefix. -/
def getAllValues (R : Rlp) (db : TrieDB) (fuel : ℕ) (node : Node) (path : Bytes) :
    Outcome (List (String × String)) := do
  keyed (← valuesUnder R db fuel (← getNode db fuel node (pathToNibbles path) []))

end Node

/-- `replacen` of one occurrence by nothing. -/
def removeFirst (pattern : List Char) : List Char → List Char
  | [] => []
  | c :: cs => if pattern <+: c :: cs then (c :: cs).drop pattern.length
      else c :: removeFirst pattern cs

/-- A value under its number, with the key. -/
abbrev Numbered := ℕ × String × Option String

/-- `binary_search_by_key` on numbers in ascending order: where the number is, or where it would be.
Of several equal numbers it finds the first, where the source may find any of them. -/
def binarySearch (number : ℕ) (vals : List Numbered) : Except ℕ ℕ :=
  let idx := (vals.takeWhile fun val => val.1 < number).length
  if vals[idx]?.any fun val => val.1 = number then .ok idx else .error idx

/-- The number in a key. -/
def numberOf (pre : String) (key : String) : Option ℕ :=
  parseU64 (String.ofList (removeFirst pre.toList key.toList))

/-- From the number `fromSeqno` on. -/
def valsFrom (fromSeqno : Option ℕ) (vals : List Numbered) : List Numbered :=
  match fromSeqno with
  | none => vals
  | some number =>
    match binarySearch number vals with
    | .ok idx => vals.drop idx
    | .error idx => vals.drop idx

/-- Up to `nextSeqno`, which is itself among the numbers. -/
def valsUpTo (nextSeqno : Option ℕ) (vals : List Numbered) : Option (List Numbered) :=
  match nextSeqno with
  | none => some vals
  | some number =>
    match binarySearch number vals with
    | .ok idx => some (vals.take idx)
    | .error _ => none

/-- What `_verify_proof_range` checks of the values. -/
def matchesRange (pre : String) (fromSeqno nextSeqno : Option ℕ)
    (kvs : List (String × Option String)) (vals : List (String × String)) : Bool :=
  let valsForSortCheck := (vals.filter fun val => pre.toList <+: val.1.toList).map fun val =>
    (numberOf pre val.1).map fun number => (number, val.1, some val.2)
  if valsForSortCheck.all Option.isSome then
    let valsForSort := (valsForSortCheck.filterMap id).mergeSort fun val val' => val.1 ≤ val'.1
    match valsUpTo nextSeqno (valsFrom fromSeqno valsForSort) with
    | some valsSlice => valsSlice.map Prod.snd = kvs
    | none => false
  else false

/-- End of `_verify_proof_range`: an `IndyError` counts as a refusal. -/
def rangeVerdict (pre : String) (fromSeqno nextSeqno : Option ℕ)
    (kvs : List (String × Option String)) :
    Outcome (List (String × String)) → Outcome Bool
  | .ok vals => .ok (matchesRange pre fromSeqno nextSeqno kvs vals)
  | .error (.err _) => .ok false
  | .error fault => .error fault

/-- `_verify_proof_range`. -/
def verifyProofRange (R : Rlp) (fuel : ℕ) (proof rootHash : Bytes) (pre : String)
    (fromSeqno nextSeqno : Option ℕ) (kvs : List (String × Option String)) : Outcome Bool :=
  let db := Node.trieDB R ((R.nodes proof).getD [])
  match db rootHash with
  | none => .ok false
  | some root =>
    rangeVerdict pre fromSeqno nextSeqno kvs (root.getAllValues R db fuel (asBytes pre))

end SimpleAsset.Indy
