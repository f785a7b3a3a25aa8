import SimpleAsset.Indy.Primitive
import SimpleAsset.IndyNode.Authorizer

/-! The identity cache (`indy_node/persistence/idr_cache.py`). -/
namespace SimpleAsset.IndyNode
open SimpleAsset.Indy SimpleAsset.Library

/-- What `rlp` encodes for an identifier: the texts of five byte strings. -/
structure PackedIdr where
  seqNo : String
  txnTime : String
  ta : String
  role : String
  verkey : String
  deriving DecidableEq, Repr

/-- What `unpackIdrValue` returns. -/
structure IdrValue where
  seqNo : ℕ
  txnTime : Option ℕ
  ta : String
  role : String
  verkey : Option String
  deriving DecidableEq, Repr

/-- The cache, by identifier. -/
abbrev IdrCache := String → Option PackedIdr

namespace IdrCache

def unsetVerkey : String := "-"

def encodeVerkey (verkey : Option String) : String := verkey.getD unsetVerkey

def decodeVerkey (verkey : String) : Option String :=
  if verkey ≠ unsetVerkey then some verkey else none

def packIdrValue (seqNo : ℕ) (txnTime : Option ℕ) (ta role verkey : Option String) : PackedIdr :=
  ⟨u64ToString seqNo, (txnTime.map u64ToString).getD "", ta.getD "", role.getD "",
    encodeVerkey verkey⟩

/-- `int(text)` for a text of digits. -/
def pyIntOfText (text : String) : Option ℕ := readNat asciiDigit text.toList

/-- `unpackIdrValue`; `int` raises on a text that is no number. -/
def unpackIdrValue (value : PackedIdr) : Option IdrValue := do
  let seqNo ← pyIntOfText value.seqNo
  let txnTime ← if value.txnTime = "" then some none else (pyIntOfText value.txnTime).map some
  return ⟨seqNo, txnTime, value.ta, value.role, decodeVerkey value.verkey⟩

theorem pyIntOfText_u64ToString (n : ℕ) : pyIntOfText (u64ToString n) = some n := by
  rw [pyIntOfText, u64ToString, String.toList_ofList]
  exact readNat_toDigits readsAscii_asciiDigit n

theorem u64ToString_ne_empty (n : ℕ) : u64ToString n ≠ "" := by
  intro h
  obtain ⟨c, cs, hcs, -⟩ := exists_cons_toDigits n
  have hlist := congrArg String.toList h
  rw [u64ToString, String.toList_ofList, hcs] at hlist
  cases hlist

/-- What is packed comes back, with `None` as an empty text where it is not a verkey. -/
theorem unpack_pack (seqNo : ℕ) (txnTime : Option ℕ) (ta role verkey : Option String) :
    unpackIdrValue (packIdrValue seqNo txnTime ta role verkey) =
      some ⟨seqNo, txnTime, ta.getD "", role.getD "", decodeVerkey (encodeVerkey verkey)⟩ := by
  rcases txnTime with _ | txnTime
  · simp [unpackIdrValue, packIdrValue, pyIntOfText_u64ToString]
  · simp [unpackIdrValue, packIdrValue, pyIntOfText_u64ToString, u64ToString_ne_empty]

variable (cache : IdrCache)

/-- `get`, `none` for a `KeyError`; packed values can be unpacked (`unpack_pack`). -/
def get (idr : String) : Option IdrValue := (cache idr).bind unpackIdrValue

def set (idr : String) (value : PackedIdr) : IdrCache := Function.update cache idr (some value)

def getVerkey (idr : String) : Option (Option String) := (cache.get idr).map (·.verkey)

def getRole (idr : String) : Option String := (cache.get idr).map (·.role)

/-- `value or None` on a text. -/
def orNone (text : String) : Option String := if text = "" then none else some text

/-- The record that `getNym` answers with. -/
structure NymData where
  role : Option String
  verkey : Option String
  identifier : Option String
  seqNo : Option ℕ
  txnTime : Option ℕ
  deriving DecidableEq, Repr

/-- `getNym`, of a given role if there is one. -/
def getNym (nym : String) (role : Option String) : Option NymData :=
  match cache.get nym with
  | none => none
  | some value =>
    if role.any fun r => r ≠ "" && r ≠ value.role then none
    else some ⟨orNone value.role, value.verkey.bind orNone, orNone value.ta,
      if value.seqNo = 0 then none else some value.seqNo, value.txnTime.filter (· ≠ 0)⟩

/-- `getOwnerFor`: the DID itself once it has a verkey, else who created it. -/
def getOwnerFor (nym : String) : Option String :=
  match cache.getNym nym none with
  | none => none
  | some nymData => if nymData.verkey = none then nymData.identifier else some nym

end IdrCache

end SimpleAsset.IndyNode
