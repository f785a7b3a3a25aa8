import SimpleAsset.Library.Table
import SimpleAsset.Indy.Primitive

/-! Encryption of records and tags (encryption.rs, wallet.rs). -/
namespace SimpleAsset.Indy.Wallet
open SimpleAsset.Library

/-- A key of `chacha20poly1305_ietf` or of `hmacsha256`. -/
abbrev Key := {b : Bytes // b.length = 32}

abbrev Nonce := {b : Bytes // b.length = 12}

/-- `chacha20poly1305_ietf` and `hmacsha256`. -/
structure Cipher where
  encrypt : Bytes → Key → Nonce → Bytes
  decrypt : Bytes → Key → Nonce → IndyResult Bytes
  authenticate : Bytes → Key → Bytes
  decrypt_encrypt : ∀ data key nonce, decrypt (encrypt data key nonce) key nonce = .ok data
  length_authenticate : ∀ data key, (authenticate data key).length = 32

structure Keys where
  typeKey : Key
  nameKey : Key
  valueKey : Key
  itemHmacKey : Key
  tagNameKey : Key
  tagValueKey : Key
  tagsHmacKey : Key

section Searchable
variable (C : Cipher)

/-- The nonce is a digest of the data, so that equal data have equal encryptions. -/
def searchableNonce (data : Bytes) (hmacKey : Key) : Nonce :=
  ⟨(C.authenticate data hmacKey).take 12, by simp [C.length_authenticate]⟩

def encryptAsSearchable (data : Bytes) (key hmacKey : Key) : Bytes :=
  let nonce := searchableNonce C data hmacKey
  nonce.1 ++ C.encrypt data key nonce

/-- `encrypt_as_not_searchable` with the nonce that was drawn. -/
def encryptAsNotSearchable (data : Bytes) (key : Key) (nonce : Nonce) : Bytes :=
  nonce.1 ++ C.encrypt data key nonce

/-- `decrypt_merged`; slicing off the nonce panics where there is none. -/
def decryptMerged (joinedData : Bytes) (key : Key) : Outcome Bytes :=
  if h : 12 ≤ joinedData.length then
    ofIndyResult (C.decrypt (joinedData.drop 12) key ⟨joinedData.take 12, by simp [h]⟩)
  else .error (.panic .outOfBounds)

@[simp] theorem decryptMerged_encryptAsNotSearchable (data : Bytes) (key : Key) (nonce : Nonce) :
    decryptMerged C (encryptAsNotSearchable C data key nonce) key = .ok data := by
  obtain ⟨b, hb⟩ := nonce
  unfold decryptMerged encryptAsNotSearchable
  have hlength : 12 ≤ (b ++ C.encrypt data key ⟨b, hb⟩).length := by simp [hb]
  rw [dif_pos hlength]
  simp only [List.take_left' hb, List.drop_left' hb, C.decrypt_encrypt]
  rfl

@[simp] theorem decryptMerged_encryptAsSearchable (data : Bytes) (key hmacKey : Key) :
    decryptMerged C (encryptAsSearchable C data key hmacKey) key = .ok data :=
  decryptMerged_encryptAsNotSearchable C data key (searchableNonce C data hmacKey)

theorem encryptAsSearchable_inj {data data' : Bytes} {key hmacKey : Key} :
    encryptAsSearchable C data key hmacKey = encryptAsSearchable C data' key hmacKey ↔
    data = data' := by
  constructor
  · intro h
    have hdata := decryptMerged_encryptAsSearchable C data key hmacKey
    rw [h, decryptMerged_encryptAsSearchable] at hdata
    exact (Except.ok.inj hdata).symm
  · intro h
    rw [h]

end Searchable

section Values
variable (C : Cipher)

structure EncryptedValue where
  data : Bytes
  key : Bytes
  deriving DecidableEq, Repr

/-- What `EncryptedValue::encrypt` draws. -/
structure ValueRandom where
  valueKey : Key
  dataNonce : Nonce
  keyNonce : Nonce

def EncryptedValue.encrypt (data : String) (key : Key) (random : ValueRandom) : EncryptedValue :=
  ⟨encryptAsNotSearchable C (asBytes data) random.valueKey random.dataNonce,
    encryptAsNotSearchable C random.valueKey.1 key random.keyNonce⟩

/-- `Key::from_slice`. -/
def keyFromSlice (bytes : Bytes) : IndyResult Key :=
  if h : bytes.length = 32 then .ok ⟨bytes, h⟩ else .error ⟨.invalidStructure, "Invalid value key"⟩

/-- `from_utf8` with the error that the caller has for it. -/
def utf8OrElse (error : IndyError) (bytes : Bytes) : Outcome String :=
  match fromUtf8 bytes with
  | some s => .ok s
  | none => .error (.err error)

def EncryptedValue.decrypt (value : EncryptedValue) (key : Key) : Outcome String := do
  let valueKeyBytes ← decryptMerged C value.key key
  let valueKey ← ofIndyResult (keyFromSlice valueKeyBytes)
  let data ← decryptMerged C value.data valueKey
  utf8OrElse ⟨.invalidState, "Invalid UTF8 string inside of value"⟩ data

@[simp] theorem utf8OrElse_asBytes (error : IndyError) (s : String) :
    utf8OrElse error (asBytes s) = .ok s := by
  rw [utf8OrElse, fromUtf8_asBytes]

@[simp] theorem decrypt_encrypt_value (data : String) (key : Key) (random : ValueRandom) :
    (EncryptedValue.encrypt C data key random).decrypt C key = .ok data := by
  have hkey : keyFromSlice random.valueKey.1 = .ok random.valueKey := dif_pos random.valueKey.2
  simp [EncryptedValue.encrypt, EncryptedValue.decrypt, hkey, ofIndyResult]

end Values

section Tags
variable (C : Cipher) (keys : Keys)

/-- `storage::Tag`. -/
inductive Tag
  | encrypted (name value : Bytes)
  | plainText (name : Bytes) (value : String)
  deriving DecidableEq, Repr

/-- `storage::TagName`, also `language::TagName`. -/
inductive TagName
  | ofEncrypted (name : Bytes)
  | ofPlain (name : Bytes)
  deriving DecidableEq, Repr

def Tag.name : Tag → TagName
  | .encrypted name _ => .ofEncrypted name
  | .plainText name _ => .ofPlain name

/-- Tags whose name starts with `~` keep their value readable. -/
def isPlain (tagName : String) : Bool := decide (tagName.toList.head? = some '~')

def encryptTagName (tagName : String) : TagName :=
  if isPlain tagName then
    .ofPlain (encryptAsSearchable C ((asBytes tagName).drop 1) keys.tagNameKey keys.tagsHmacKey)
  else .ofEncrypted (encryptAsSearchable C (asBytes tagName) keys.tagNameKey keys.tagsHmacKey)

def encryptTagNames (tagNames : List String) : List TagName := tagNames.map (encryptTagName C keys)

def encryptTag (tagName tagValue : String) : Tag :=
  if isPlain tagName then
    .plainText
      (encryptAsSearchable C ((asBytes tagName).drop 1) keys.tagNameKey keys.tagsHmacKey) tagValue
  else
    .encrypted (encryptAsSearchable C (asBytes tagName) keys.tagNameKey keys.tagsHmacKey)
      (encryptAsSearchable C (asBytes tagValue) keys.tagValueKey keys.tagsHmacKey)

def encryptTags (tags : Table String String) : List Tag :=
  tags.entries.map fun e => encryptTag C keys e.1 e.2

def decryptTag : Tag → Outcome (String × String)
  | .plainText ename value => do
    let name ← match decryptMerged C ename keys.tagNameKey with
      | .ok name => Except.ok name
      | .error (.err _) =>
        Except.error (.err ⟨.walletEncryptionError, "Unable to decrypt tag name"⟩)
      | .error fault => Except.error fault
    let name ← utf8OrElse ⟨.walletEncryptionError, "Plaintext Tag name is invalid utf8"⟩ name
    pure ("~" ++ name, value)
  | .encrypted ename evalue => do
    let name ← decryptMerged C ename keys.tagNameKey
    let name ← utf8OrElse ⟨.walletEncryptionError, "Tag name is invalid utf8"⟩ name
    let value ← decryptMerged C evalue keys.tagValueKey
    let value ← utf8OrElse ⟨.walletEncryptionError, "Tag value is invalid utf8"⟩ value
    pure (name, value)

def decryptTagList (etags : List Tag) : Outcome (Table String String) :=
  etags.foldlM (fun tags etag => do
    let (name, value) ← decryptTag C keys etag
    pure (tags.insert name value)) ∅

def decryptTags : Option (List Tag) → Outcome (Option (Table String String))
  | none => .ok none
  | some etags => do
    let tags ← decryptTagList C keys etags
    pure (some tags)

theorem exists_of_isPlain {tagName : String} (h : isPlain tagName = true) :
    ∃ rest, tagName = "~" ++ rest ∧ (asBytes tagName).drop 1 = asBytes rest := by
  have hhead : tagName.toList.head? = some '~' := of_decide_eq_true h
  obtain ⟨cs, hcs⟩ := List.head?_eq_some_iff.mp hhead
  have hname : tagName = "~" ++ String.ofList cs := by
    apply String.toList_inj.mp
    simp [hcs]
  refine ⟨String.ofList cs, hname, ?_⟩
  rw [hname, asBytes_append]
  rfl

@[simp] theorem encryptTag_name (tagName tagValue : String) :
    (encryptTag C keys tagName tagValue).name = encryptTagName C keys tagName := by
  unfold encryptTag encryptTagName
  split <;> rfl

theorem decryptTag_encryptTag (tagName tagValue : String) :
    decryptTag C keys (encryptTag C keys tagName tagValue) = .ok (tagName, tagValue) := by
  unfold encryptTag
  split
  · rename_i hplain
    obtain ⟨rest, hname, hbytes⟩ := exists_of_isPlain hplain
    rw [hbytes]
    simp [decryptTag, hname]
  · simp [decryptTag]

theorem eq_of_encryptTag_eq {tagName tagValue tagName' tagValue' : String}
    (h : encryptTag C keys tagName tagValue = encryptTag C keys tagName' tagValue') :
    tagName = tagName' ∧ tagValue = tagValue' := by
  have hpair := decryptTag_encryptTag C keys tagName tagValue
  rw [h, decryptTag_encryptTag, Except.ok.injEq, Prod.mk.injEq] at hpair
  exact ⟨hpair.1.symm, hpair.2.symm⟩

theorem encryptTagName_inj {tagName tagName' : String} :
    encryptTagName C keys tagName = encryptTagName C keys tagName' ↔ tagName = tagName' := by
  constructor
  · unfold encryptTagName
    intro h
    split_ifs at h with hplain hplain' hplain'
    · obtain ⟨rest, hname, hbytes⟩ := exists_of_isPlain hplain
      obtain ⟨rest', hname', hbytes'⟩ := exists_of_isPlain hplain'
      rw [TagName.ofPlain.injEq, encryptAsSearchable_inj, hbytes, hbytes', asBytes_inj] at h
      rw [hname, hname', h]
    · rw [TagName.ofEncrypted.injEq, encryptAsSearchable_inj, asBytes_inj] at h
      exact h
  · intro h
    rw [h]

end Tags

end SimpleAsset.Indy.Wallet
