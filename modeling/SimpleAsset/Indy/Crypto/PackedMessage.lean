import SimpleAsset.Indy.Crypto.CryptoService
import SimpleAsset.Indy.Wql.RoundTrip

/-! Packed messages: the headers around an encrypted message (pack.rs), and packing and unpacking
(crypto.rs). -/
namespace SimpleAsset.Indy.Crypto
open SimpleAsset.Library
open Wql (SerdeJson)

section Documents

structure Header where
  kid : String
  iv : Option String
  sender : Option String
  deriving DecidableEq, Repr

structure Recipient where
  encryptedKey : String
  header : Header
  deriving DecidableEq, Repr

structure Protected where
  enc : String
  typ : String
  alg : String
  recipients : List Recipient
  deriving DecidableEq, Repr

structure Jwe where
  protected_ : String
  iv : String
  ciphertext : String
  tag : String
  deriving DecidableEq, Repr

structure UnpackMessage where
  message : String
  recipientVerkey : String
  senderVerkey : Option String
  deriving DecidableEq, Repr

/-- `skip_serializing_if = "Option::is_none"`. -/
def optionField (name : String) : Option String → List (String × Json)
  | some s => [(name, .string s)]
  | none => []

def Header.toValue (h : Header) : Json :=
  .object (("kid", .string h.kid) :: (optionField "iv" h.iv ++ optionField "sender" h.sender))

def Recipient.toValue (r : Recipient) : Json :=
  .object [("encrypted_key", .string r.encryptedKey), ("header", r.header.toValue)]

def Protected.toValue (p : Protected) : Json :=
  .object [("enc", .string p.enc), ("typ", .string p.typ), ("alg", .string p.alg),
    ("recipients", .array (p.recipients.map Recipient.toValue))]

def Jwe.toValue (j : Jwe) : Json :=
  .object [("protected", .string j.protected_), ("iv", .string j.iv),
    ("ciphertext", .string j.ciphertext), ("tag", .string j.tag)]

def UnpackMessage.toValue (m : UnpackMessage) : Json :=
  .object (("message", .string m.message) :: ("recipient_verkey", .string m.recipientVerkey) ::
    optionField "sender_verkey" m.senderVerkey)

/-- The fields of a struct in a document: by their names, each at most once, or in their order. -/
def fieldsOf (names : List String) : Json → Except String (String → Option Json)
  | .object fields =>
    match names.find? fun name => 1 < (fields.map Prod.fst).count name with
    | some name => .error ("duplicate field `" ++ name ++ "`")
    | none => .ok fun name => fields.lookup name
  | .array items =>
    if names.length < items.length then .error "trailing characters" else .ok fun name =>
      (names.zip items).lookup name
  | _ => .error "invalid type"

def required (fields : String → Option Json) (name : String) : Except String Json :=
  match fields name with
  | some value => .ok value
  | none => .error ("missing field `" ++ name ++ "`")

def ofString : Json → Except String String
  | .string s => .ok s
  | _ => .error "invalid type"

/-- `#[serde(default)]`. -/
def optional (fields : String → Option Json) (name : String) : Except String (Option String) :=
  match fields name with
  | none => .ok none
  | some .null => .ok none
  | some value => do
    let s ← ofString value
    pure (some s)

def Header.ofValue (value : Json) : Except String Header := do
  let fields ← fieldsOf ["kid", "iv", "sender"] value
  let kid ← ofString (← required fields "kid")
  let iv ← optional fields "iv"
  let sender ← optional fields "sender"
  pure ⟨kid, iv, sender⟩

def Recipient.ofValue (value : Json) : Except String Recipient := do
  let fields ← fieldsOf ["encrypted_key", "header"] value
  let encryptedKey ← ofString (← required fields "encrypted_key")
  let header ← Header.ofValue (← required fields "header")
  pure ⟨encryptedKey, header⟩

def ofItems : Json → Except String (List Json)
  | .array items => .ok items
  | _ => .error "invalid type"

def Protected.ofValue (value : Json) : Except String Protected := do
  let fields ← fieldsOf ["enc", "typ", "alg", "recipients"] value
  let enc ← ofString (← required fields "enc")
  let typ ← ofString (← required fields "typ")
  let alg ← ofString (← required fields "alg")
  let recipients ← (← ofItems (← required fields "recipients")).mapM Recipient.ofValue
  pure ⟨enc, typ, alg, recipients⟩

def Jwe.ofValue (value : Json) : Except String Jwe := do
  let fields ← fieldsOf ["protected", "iv", "ciphertext", "tag"] value
  let protected_ ← ofString (← required fields "protected")
  let iv ← ofString (← required fields "iv")
  let ciphertext ← ofString (← required fields "ciphertext")
  let tag ← ofString (← required fields "tag")
  pure ⟨protected_, iv, ciphertext, tag⟩

theorem header_ofValue_toValue (h : Header) : Header.ofValue h.toValue = .ok h := by
  obtain ⟨kid, _ | iv, _ | sender⟩ := h <;> rfl

theorem recipient_ofValue_toValue (r : Recipient) : Recipient.ofValue r.toValue = .ok r := by
  change (Header.ofValue r.header.toValue >>=
    fun header => pure ⟨r.encryptedKey, header⟩) = Except.ok r
  rw [header_ofValue_toValue]
  rfl

theorem protected_ofValue_toValue (p : Protected) : Protected.ofValue p.toValue = .ok p := by
  have hrecipients : (p.recipients.map Recipient.toValue).mapM Recipient.ofValue =
      .ok p.recipients := by
    have hmap :=
      mapM_eq_ok_map (l := p.recipients) (f := Recipient.ofValue ∘ Recipient.toValue) (g := id)
      fun r _ => recipient_ofValue_toValue r
    rw [List.mapM_map, hmap, List.map_id]
  change ((p.recipients.map Recipient.toValue).mapM Recipient.ofValue >>=
    fun recipients => pure ⟨p.enc, p.typ, p.alg, recipients⟩) = Except.ok p
  rw [hrecipients]
  rfl

theorem jwe_ofValue_toValue (j : Jwe) : Jwe.ofValue j.toValue = .ok j := rfl

end Documents

section Texts

/-- Documents written and read, with the fields in the order in which they stand; deeper ones than
`from_str` reads are not promised. -/
structure SerdeDocuments where
  write : Json → String
  read : String → Except String Json
  read_write : ∀ value : Json, value.isDocument = true → value.nesting < 128 →
    read (write value) = .ok value

variable (D : SerdeDocuments)

/-- `serde_json::from_str::<Protected>`. -/
def Protected.fromText (text : String) : Except String Protected := do
  let value ← D.read text
  Protected.ofValue value

/-- `serde_json::from_slice::<JWE>`. -/
def Jwe.fromSlice (bytes : Bytes) : Except String Jwe :=
  match fromUtf8 bytes with
  | some text => do
    let value ← D.read text
    Jwe.ofValue value
  | none => .error "invalid unicode code point"

theorem isDocument_optionField (fields : List (String × Json)) (name : String) (s : Option String) :
    Json.fieldsDocuments (optionField name s ++ fields) = Json.fieldsDocuments fields := by
  cases s <;> simp [optionField, Json.fieldsDocuments, Json.isDocument]

theorem nesting_optionField (fields : List (String × Json)) (name : String) (s : Option String) :
    Json.fieldsNesting (optionField name s ++ fields) = Json.fieldsNesting fields := by
  cases s <;> simp [optionField, Json.fieldsNesting, Json.nesting]

theorem header_isDocument (h : Header) : h.toValue.isDocument = true := by
  have hsender := isDocument_optionField [] "sender" h.sender
  rw [List.append_nil] at hsender
  rw [Header.toValue, Json.isDocument, Json.fieldsDocuments, isDocument_optionField, hsender]
  rfl

theorem header_nesting (h : Header) : h.toValue.nesting = 1 := by
  have hsender := nesting_optionField [] "sender" h.sender
  rw [List.append_nil] at hsender
  rw [Header.toValue, Json.nesting, Json.fieldsNesting, nesting_optionField, hsender]
  rfl

theorem recipient_isDocument (r : Recipient) : r.toValue.isDocument = true := by
  simp [Recipient.toValue, Json.isDocument, Json.fieldsDocuments, header_isDocument]

theorem recipient_nesting (r : Recipient) : r.toValue.nesting = 2 := by
  simp [Recipient.toValue, Json.nesting, Json.fieldsNesting, header_nesting]

theorem protected_fromText_write (p : Protected) :
    Protected.fromText D (D.write p.toValue) = .ok p := by
  have hdocument : p.toValue.isDocument = true := by
    have hrecipients : Json.itemsDocuments (p.recipients.map Recipient.toValue) = true := by
      rw [Json.itemsDocuments_iff, List.forall_mem_map]
      exact fun r _ => recipient_isDocument r
    simp [Protected.toValue, Json.isDocument, Json.fieldsDocuments, hrecipients]
  have hnesting : p.toValue.nesting < 128 := by
    have hrecipients : Json.itemsNesting (p.recipients.map Recipient.toValue) ≤ 2 := by
      rw [Json.itemsNesting_le_iff, List.forall_mem_map]
      exact fun r _ => Nat.le_of_eq (recipient_nesting r)
    simp [Protected.toValue, Json.nesting, Json.fieldsNesting]
    omega
  rw [Protected.fromText, D.read_write _ hdocument hnesting, except_ok_bind,
    protected_ofValue_toValue]

theorem jwe_fromSlice_write (j : Jwe) : Jwe.fromSlice D (asBytes (D.write j.toValue)) = .ok j := by
  have hdocument : j.toValue.isDocument = true := by
    simp [Jwe.toValue, Json.isDocument, Json.fieldsDocuments]
  have hnesting : j.toValue.nesting < 128 := by
    simp [Jwe.toValue, Json.nesting, Json.fieldsNesting]
  rw [Jwe.fromSlice, fromUtf8_asBytes]
  dsimp only
  rw [D.read_write _ hdocument hnesting, except_ok_bind, jwe_ofValue_toValue]

end Texts

section Packing
variable (S : Sodium) (T : Codecs) (D : SerdeDocuments)

def protectedHeaderEnc : String := "xchacha20poly1305_ietf"
def protectedHeaderTyp : String := "JWM/1.0"
def protectedHeaderAlgAuth : String := "Authcrypt"
def protectedHeaderAlgAnon : String := "Anoncrypt"

structure RecipientRandom where
  boxNonce : BoxNonce
  /-- For the sealed box of the key or of the sender. -/
  sealing : BytesOf 32

structure PackRandom where
  cek : Cek
  nonce : Nonce
  recipients : ℕ → RecipientRandom

def base64EncodeProtected (recipients : List Recipient) (algIsAuthcrypt : Bool) : String :=
  let alg := if algIsAuthcrypt then protectedHeaderAlgAuth else protectedHeaderAlgAnon
  T.encodeBase64 (asBytes
    (D.write (Protected.toValue ⟨protectedHeaderEnc, protectedHeaderTyp, alg, recipients⟩)))

/-- The loop of `_prepare_protected_anoncrypt` for one receiver. -/
def anoncryptRecipient (random : RecipientRandom) (cek : Cek) (theirVk : String) :
    IndyResult Recipient := do
  let encCek ← cryptoBoxSeal S T random.sealing theirVk cek.1
  pure ⟨T.encodeBase64 encCek, theirVk, none, none⟩

def prepareProtectedAnoncrypt (random : PackRandom) (receiverList : List String) :
    IndyResult String := do
  let recipients ← receiverList.zipIdx.mapM fun vk =>
      anoncryptRecipient S T (random.recipients vk.2) random.cek vk.1
  pure (base64EncodeProtected T D recipients false)

/-- The loop of `_prepare_protected_authcrypt`. -/
def authcryptRecipient (random : RecipientRandom) (cek : Cek) (myKey : Key)
    (senderVk theirVk : String) :
    IndyResult Recipient := do
  let (encCek, iv) ← cryptoBox S T random.boxNonce myKey theirVk cek.1
  let encSender ← cryptoBoxSeal S T random.sealing theirVk (asBytes senderVk)
  pure ⟨T.encodeBase64 encCek, theirVk, some (T.encodeBase64 iv), some (T.encodeBase64 encSender)⟩

/-- The keys of a wallet: `get_indy_object` by their names. -/
abbrev GetKey := String → IndyResult Key

def prepareProtectedAuthcrypt (getKey : GetKey) (random : PackRandom) (receiverList : List String)
    (senderVk : String) :
    IndyResult String := do
  let myKey ← getKey senderVk
  let recipients ← receiverList.zipIdx.mapM fun vk =>
    authcryptRecipient S T (random.recipients vk.2) random.cek myKey senderVk vk.1
  pure (base64EncodeProtected T D recipients true)

def formatPackMessage (base64Protected ciphertext iv tag : String) : Bytes :=
  asBytes (D.write (Jwe.toValue ⟨base64Protected, iv, ciphertext, tag⟩))

def prepareProtected (getKey : GetKey) (random : PackRandom) (receiverList : List String) :
    Option String → IndyResult String
  | some senderVk => do
    validateKey T senderVk
    prepareProtectedAuthcrypt S T D getKey random receiverList senderVk
  | none => prepareProtectedAnoncrypt S T D random receiverList

def packMsg (getKey : GetKey) (random : PackRandom) (message : Bytes) (receiverList : List String)
    (senderVk : Option String) : IndyResult Bytes :=
  if receiverList.isEmpty then .error ⟨.invalidStructure, "No receiver keys found"⟩
  else do
    let base64Protected ← prepareProtected S T D getKey random receiverList senderVk
    let (ciphertext, iv, tag) :=
      encryptPlaintext S T random.nonce message base64Protected random.cek
    pure (formatPackMessage D base64Protected ciphertext iv tag)

end Packing

section Unpacking
variable (S : Sodium) (T : Codecs) (D : SerdeDocuments) (getKey : GetKey)

def findCorrectRecipient : List Recipient → IndyResult (Recipient × Bool)
  | [] => .error ⟨.walletItemNotFound, ""⟩
  | recipient :: recipients =>
    match getKey recipient.header.kid with
    | .ok _ => .ok (recipient, recipient.header.sender.isSome)
    | .error _ => findCorrectRecipient recipients

/-- `unwrap` of an option. -/
def unwrapOption {α : Type} : Option α → Outcome α
  | some a => .ok a
  | none => .error (.panic .unwrapNone)

def cekOfVec (cekAsVec : Bytes) : IndyResult Cek :=
  mapErr .invalidStructure "Failed to decrypt cek " (fromSlice "Key" 32 cekAsVec)

def unpackCekAuthcrypt (recipient : Recipient) : Outcome (Option String × Cek) := do
  let encryptedKeyVec ← ofIndyResult (T.decodeUrlsafe recipient.encryptedKey)
  let iv ← ofIndyResult (T.decodeUrlsafe (← unwrapOption recipient.header.iv))
  let encSenderVk ← ofIndyResult (T.decodeUrlsafe (← unwrapOption recipient.header.sender))
  let myKey ← ofIndyResult (getKey recipient.header.kid)
  let senderVkVec ← ofIndyResult (cryptoBoxSealOpen S T myKey encSenderVk)
  match fromUtf8 senderVkVec with
  | none =>
    errMsg .invalidStructure ("Failed to utf-8 encode sender_vk " ++ T.utf8Error senderVkVec)
  | some senderVk => do
    let cekAsVec ← ofIndyResult (cryptoBoxOpen S T myKey senderVk encryptedKeyVec iv)
    let cek ← ofIndyResult (cekOfVec cekAsVec)
    pure (some senderVk, cek)

def unpackCekAnoncrypt (recipient : Recipient) : IndyResult (Option String × Cek) := do
  let encryptedKeyVec ← T.decodeUrlsafe recipient.encryptedKey
  let myKey ← getKey recipient.header.kid
  let cekAsVec ← cryptoBoxSealOpen S T myKey encryptedKeyVec
  let cek ← cekOfVec cekAsVec
  pure (none, cek)

def unpackCek (isAuthRecipient : Bool) (recipient : Recipient) : Outcome (Option String × Cek) :=
  if isAuthRecipient then unpackCekAuthcrypt S T getKey recipient
  else ofIndyResult (unpackCekAnoncrypt S T getKey recipient)

def protectedOfJwe (jwe : Jwe) : IndyResult Protected := do
  let protectedDecodedVec ← T.decodeUrlsafe jwe.protected_
  match fromUtf8 protectedDecodedVec with
  | none =>
    .error ⟨.invalidStructure, "Failed to utf8 encode data " ++ T.utf8Error protectedDecodedVec⟩
  | some protectedDecodedStr =>
    match Protected.fromText D protectedDecodedStr with
    | .ok protectedStruct => .ok protectedStruct
    | .error e => .error ⟨.invalidStructure, "Failed to deserialize protected data " ++ e⟩

def unpackMsg (jwe : Jwe) : Outcome Bytes := do
  let protectedStruct ← ofIndyResult (protectedOfJwe T D jwe)
  let (recipient, isAuthRecipient) ← ofIndyResult
      (findCorrectRecipient getKey protectedStruct.recipients)
  let (senderVerkey, cek) ← unpackCek S T getKey isAuthRecipient recipient
  let message ← ofIndyResult
      (decryptCiphertext S T jwe.ciphertext jwe.protected_ jwe.iv jwe.tag cek)
  pure (asBytes (D.write (UnpackMessage.toValue ⟨message, recipient.header.kid, senderVerkey⟩)))

end Unpacking

end SimpleAsset.Indy.Crypto
