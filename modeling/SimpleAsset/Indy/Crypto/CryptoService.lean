import SimpleAsset.Indy.Primitive
import SimpleAsset.Indy.Result
import SimpleAsset.Library.Fallible
import Mathlib.Data.List.TakeWhile

/-! `CryptoService`: boxes for the holders of keys, and the encryption of the messages
themselves. -/
namespace SimpleAsset.Indy.Crypto
open SimpleAsset.Library

section Sodium

abbrev BytesOf (n : ℕ) := {b : Bytes // b.length = n}

abbrev PublicKey := BytesOf 32
abbrev SecretKey := BytesOf 64
abbrev BoxKey := BytesOf 32
abbrev BoxNonce := BytesOf 24
abbrev Cek := BytesOf 32
abbrev Nonce := BytesOf 12
abbrev Tag := BytesOf 16

/-- The functions of libsodium. What is closed for a pair of keys opens with it. -/
structure Sodium where
  keypairFromSeed : BytesOf 32 → PublicKey × SecretKey
  vkToCurve25519 : PublicKey → BoxKey
  skToCurve25519 : SecretKey → BoxKey
  boxSeal (doc : Bytes) (nonce : BoxNonce) (pk sk : BoxKey) : Bytes
  boxOpen (doc : Bytes) (nonce : BoxNonce) (pk sk : BoxKey) : Option Bytes
  /-- With the seed of the ephemeral keys. -/
  sealedSeal (random : BytesOf 32) (doc : Bytes) (pk : BoxKey) : Bytes
  sealedOpen (doc : Bytes) (pk sk : BoxKey) : Option Bytes
  sealDetached (data ad : Bytes) (nonce : Nonce) (key : Cek) : Bytes × Tag
  openDetached (data ad : Bytes) (tag : Tag) (nonce : Nonce) (key : Cek) : Option Bytes
  boxOpen_boxSeal : ∀ doc nonce seed seed',
    boxOpen (boxSeal doc nonce (vkToCurve25519 (keypairFromSeed seed').1)
      (skToCurve25519 (keypairFromSeed seed).2)) nonce (vkToCurve25519 (keypairFromSeed seed).1)
      (skToCurve25519 (keypairFromSeed seed').2) = some doc
  sealedOpen_sealedSeal : ∀ random doc seed,
    sealedOpen (sealedSeal random doc (vkToCurve25519 (keypairFromSeed seed).1))
    (vkToCurve25519 (keypairFromSeed seed).1)
      (skToCurve25519 (keypairFromSeed seed).2) = some doc
  openDetached_sealDetached : ∀ data ad nonce key,
    openDetached (sealDetached data ad nonce key).1 ad
    (sealDetached data ad nonce key).2 nonce key = some data

/-- Base58 and base64 (URL safe), and the text of an error of `from_utf8`. -/
structure Codecs where
  toBase58 : Bytes → String
  fromBase58 : String → Option Bytes
  encodeBase64 : Bytes → String
  decodeBase64 : String → Except String Bytes
  utf8Error : Bytes → String
  fromBase58_toBase58 : ∀ b, fromBase58 (toBase58 b) = some b
  colon_notMem : ∀ b, ':' ∉ (toBase58 b).toList
  decodeBase64_encodeBase64 : ∀ b, decodeBase64 (encodeBase64 b) = .ok b

/-- `from_slice` of a type for `n` bytes. -/
def fromSlice (newtype : String) (n : ℕ) (bs : Bytes) : IndyResult (BytesOf n) :=
  if h : bs.length = n then .ok ⟨bs, h⟩
    else .error ⟨.invalidStructure, "Invalid bytes for \"" ++ newtype ++ "\""⟩

theorem fromSlice_val (newtype : String) {n : ℕ} (b : BytesOf n) :
    fromSlice newtype n b.1 = .ok b := by
  rw [fromSlice, dif_pos b.2]

end Sodium

section Verkeys

def defaultCryptoType : String := "ed25519"

/-- The part after the colon, if there is one. -/
def cryptonameOf : List Char → String
  | _ :: c :: cs => String.ofList (c :: cs)
  | _ => defaultCryptoType

def splitVerkey (verkey : String) : String × String :=
  let (v, rest) := verkey.toList.span (· ≠ ':')
  (String.ofList v, cryptonameOf rest)

def verkeyGetCryptoname (verkey : String) : String :=
  cryptonameOf (verkey.toList.dropWhile (· ≠ ':'))

theorem verkeyGetCryptoname_eq (verkey : String) :
    verkeyGetCryptoname verkey = (splitVerkey verkey).2 := by
  rw [verkeyGetCryptoname, splitVerkey, List.span_eq_takeWhile_dropWhile]

theorem splitVerkey_of_notMem {verkey : String} (h : ':' ∉ verkey.toList) :
    splitVerkey verkey = (verkey, defaultCryptoType) := by
  have hall : ∀ c ∈ verkey.toList, (c ≠ ':') := fun c hc heq => h (heq ▸ hc)
  rw [splitVerkey, List.span_eq_takeWhile_dropWhile,
    List.takeWhile_eq_self_iff.mpr (by simpa using hall),
    List.dropWhile_eq_nil_iff.mpr (by simpa using hall)]
  simp [cryptonameOf]

end Verkeys

section Service
variable (S : Sodium) (T : Codecs)

structure Key where
  verkey : String
  signkey : String

/-- `from_base58()?`. -/
def Codecs.ofBase58 (s : String) : IndyResult Bytes :=
  match T.fromBase58 s with
  | some b => .ok b
  | none => .error
      ⟨.invalidStructure, "The base58 input contained a character not part of the base58 alphabet"⟩

/-- `decode_urlsafe`. -/
def Codecs.decodeUrlsafe (doc : String) : IndyResult Bytes :=
  match T.decodeBase64 doc with
  | .ok b => .ok b
  | .error e => .error ⟨.invalidStructure, "Invalid base64URL_SAFE sequence\n  Caused by: " ++ e⟩

def unknownCrypto {α : Type} (message : String) : IndyResult α := .error ⟨.unknownCrypto, message⟩

/-- `crypto_types.contains_key`. -/
def isCryptoType (name : String) : Bool := name = defaultCryptoType

/-- `create_key`, from the seed on. -/
def createKey (cryptoType : Option String) (seed : BytesOf 32) : IndyResult Key :=
  let cryptoTypeName := cryptoType.getD defaultCryptoType
  if !isCryptoType cryptoTypeName
    then unknownCrypto ("KeyInfo contains unknown crypto: " ++ cryptoTypeName)
  else
    let (vk, sk) := S.keypairFromSeed seed
    let vk := T.toBase58 vk.1
    .ok ⟨if cryptoTypeName ≠ defaultCryptoType then vk ++ ":" ++
      cryptoTypeName else vk, T.toBase58 sk.1⟩

def validateKey (vk : String) : IndyResult Unit := do
  let (vk, cryptoTypeName) := splitVerkey vk
  if !isCryptoType cryptoTypeName
    then unknownCrypto ("Trying to use key with unknown crypto: " ++ cryptoTypeName)
  else match vk.toList with
    | '~' :: abbreviated => do
      let _ ← T.ofBase58 (String.ofList abbreviated)
      pure ()
    | _ => do
      let bytes ← T.ofBase58 vk
      let _ ← fromSlice "PublicKey" 32 bytes
      pure ()

def incompatibleTypes {α : Type} (mine theirs : String) : IndyResult α :=
  unknownCrypto ("My key crypto type is incompatible with their key crypto type: " ++ mine ++
    " " ++ theirs)

def cryptoBox (nonce : BoxNonce) (myKey : Key) (theirVk : String) (doc : Bytes) :
    IndyResult (Bytes × Bytes) :=
  let cryptoTypeName := verkeyGetCryptoname myKey.verkey
  let (theirVk, theirCryptoTypeName) := splitVerkey theirVk
  if !isCryptoType cryptoTypeName then
    unknownCrypto ("Trying to crypto_box message with unknown crypto: " ++ cryptoTypeName)
  else if cryptoTypeName ≠ theirCryptoTypeName
    then incompatibleTypes cryptoTypeName theirCryptoTypeName
  else do
    let mySk ← fromSlice "SecretKey" 64 (← T.ofBase58 myKey.signkey)
    let theirVk ← fromSlice "PublicKey" 32 (← T.ofBase58 theirVk)
    pure (S.boxSeal doc nonce (S.vkToCurve25519 theirVk) (S.skToCurve25519 mySk), nonce.1)

def cryptoBoxOpen (myKey : Key) (theirVk : String) (doc nonce : Bytes) : IndyResult Bytes :=
  let cryptoTypeName := verkeyGetCryptoname myKey.verkey
  let (theirVk, theirCryptoTypeName) := splitVerkey theirVk
  if !isCryptoType cryptoTypeName then
    unknownCrypto ("Trying to crypto_box_open message with unknown crypto: " ++ cryptoTypeName)
  else if cryptoTypeName ≠ theirCryptoTypeName
    then incompatibleTypes cryptoTypeName theirCryptoTypeName
  else do
    let mySk ← fromSlice "SecretKey" 64 (← T.ofBase58 myKey.signkey)
    let theirVk ← fromSlice "PublicKey" 32 (← T.ofBase58 theirVk)
    let nonce ← fromSlice "Nonce" 24 nonce
    match S.boxOpen doc nonce (S.vkToCurve25519 theirVk) (S.skToCurve25519 mySk) with
    | some doc => .ok doc
    | none => .error ⟨.invalidStructure, "Unable to open sodium _box"⟩

def cryptoBoxSeal (random : BytesOf 32) (theirVk : String) (doc : Bytes) : IndyResult Bytes :=
  let (theirVk, cryptoTypeName) := splitVerkey theirVk
  if !isCryptoType cryptoTypeName then
    unknownCrypto ("Trying to encrypt sealed message with unknown crypto: " ++ cryptoTypeName)
  else do
    let theirVk ← fromSlice "PublicKey" 32 (← T.ofBase58 theirVk)
    pure (S.sealedSeal random doc (S.vkToCurve25519 theirVk))

def cryptoBoxSealOpen (myKey : Key) (doc : Bytes) : IndyResult Bytes :=
  let (myVk, cryptoTypeName) := splitVerkey myKey.verkey
  if !isCryptoType cryptoTypeName then
    unknownCrypto ("Trying to crypto_box_open sealed message with unknown crypto: " ++
      cryptoTypeName)
  else do
    let myVk ← fromSlice "PublicKey" 32 (← T.ofBase58 myVk)
    let mySk ← fromSlice "SecretKey" 64 (← T.ofBase58 myKey.signkey)
    match S.sealedOpen doc (S.vkToCurve25519 myVk) (S.skToCurve25519 mySk) with
    | some doc => .ok doc
    | none => .error ⟨.invalidStructure, "Unable to open sodium sealedbox"⟩

/-- Ciphertext, nonce and tag. -/
def encryptPlaintext (nonce : Nonce) (plaintext : Bytes) (aad : String) (cek : Cek) :
    String × String × String :=
  let (ciphertext, tag) := S.sealDetached plaintext (asBytes aad) nonce cek
  (T.encodeBase64 ciphertext, T.encodeBase64 nonce.1, T.encodeBase64 tag.1)

/-- `map_err` to an error of this kind, with the text of the first one behind the message. -/
def mapErr {α : Type} (kind : IndyErrorKind) (message : String) : IndyResult α → IndyResult α
  | .ok a => .ok a
  | .error e => .error ⟨kind, message ++ e.display⟩

/-- The message has to be text. -/
def messageOf (plaintext : Bytes) : IndyResult String :=
  match fromUtf8 plaintext with
  | some message => .ok message
  | none =>
    .error ⟨.invalidStructure, "Failed to convert message to UTF-8 " ++ T.utf8Error plaintext⟩

def decryptCiphertext (ciphertext aad iv tag : String) (cek : Cek) : IndyResult String := do
  let ciphertext ← mapErr .invalidStructure "Failed to decode ciphertext "
      (T.decodeUrlsafe ciphertext)
  let nonce ← mapErr .invalidStructure "Failed to decode IV " (T.decodeUrlsafe iv)
  let nonce ← mapErr .invalidStructure "Failed to convert IV to Nonce type "
      (fromSlice "Nonce" 12 nonce)
  let tag ← mapErr .invalidStructure "Failed to decode tag " (T.decodeUrlsafe tag)
  let tag ← mapErr .invalidStructure "Failed to convert tag to Tag type " (fromSlice "Tag" 16 tag)
  let plaintext ← mapErr .unknownCrypto "Failed to decrypt ciphertext "
    (match S.openDetached ciphertext (asBytes aad) tag nonce cek with
      | some plaintext => .ok plaintext
      | none => .error ⟨.invalidStructure, "Unable to decrypt data: \x7b:?\x7d"⟩)
  messageOf T plaintext

end Service

end SimpleAsset.Indy.Crypto
