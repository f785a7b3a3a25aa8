import SimpleAsset.Indy.Primitive

/-! Keys of the records in the state (`indy_common/state/domain.py`,
`indy_common/state/config.py`). -/
namespace SimpleAsset.IndyNode
open SimpleAsset.Indy

variable (sha256 : Bytes → Bytes)

/-- `sha256(text.encode()).hexdigest()`. -/
def hexdigest (text : String) : String := hexEncode (sha256 (asBytes text))

def makeStatePathForNym (did : String) : Bytes := sha256 (asBytes did)

def makeStatePathForAttr (did attrName : String) (attrIsHash : Bool) : Bytes :=
  let nameHash := if attrIsHash then attrName else hexdigest sha256 attrName
  asBytes (did ++ ":1:" ++ nameHash)

def makeStatePathForSchema (authorsDid schemaName schemaVersion : String) : Bytes :=
  asBytes (authorsDid ++ ":2:" ++ schemaName ++ ":" ++ schemaVersion)

def makeStatePathForClaimDef (authorsDid schemaSeqNo signatureType tag : String) : Bytes :=
  asBytes (authorsDid ++ ":3:" ++ signatureType ++ ":" ++ schemaSeqNo ++ ":" ++ tag)

def makeStatePathForRevocDef (authorsDid credDefId revocDefType revocDefTag : String) : Bytes :=
  asBytes (authorsDid ++ ":4:" ++ credDefId ++ ":" ++ revocDefType ++ ":" ++ revocDefTag)

def makeStatePathForRevocRegEntry (revocRegDefId : String) : Bytes :=
  asBytes ("5:" ++ revocRegDefId)

def makeStatePathForRevocRegEntryAccum (revocRegDefId : String) : Bytes :=
  asBytes ("6:" ++ revocRegDefId)

def makeStatePathForAuthRule (actionId : String) : Bytes := asBytes ("1:" ++ actionId)

end SimpleAsset.IndyNode
