import SimpleAsset.Indy.Anoncreds.Domain
import SimpleAsset.Indy.Crypto.CryptoService

/-! DIDs and their keys (domain/crypto/did.rs, services/crypto/mod.rs,
utils/crypto/verkey_builder.rs). -/
namespace SimpleAsset.Indy.Dids
open SimpleAsset.Library Crypto
open Anoncreds (DidValue qualifierCaptures)

structure KeyInfo where
  seed : Option String
  cryptoType : Option String

structure MyDidInfo where
  did : Option DidValue
  seed : Option String
  cryptoType : Option String
  cid : Option Bool
  methodName : Option String

structure TheirDidInfo where
  did : DidValue
  verkey : Option String

structure Did where
  did : DidValue
  verkey : String
  deriving DecidableEq, Repr

structure TheirDid where
  did : DidValue
  verkey : String
  deriving DecidableEq, Repr

structure TemporaryDid where
  did : DidValue
  verkey : String
  deriving DecidableEq, Repr

/-- `From<TemporaryDid>`. -/
def Did.ofTemporary (t : TemporaryDid) : Did := ⟨t.did, t.verkey⟩

/-- `DidValue::new`. -/
def newDidValue (did : String) : Option String → DidValue
  | some method => (DidValue.mk did).qualify method
  | none => ⟨did⟩

/-- `ShortDidValue::qualify`. -/
def qualifyShort (did : String) (method : Option String) : DidValue := newDidValue did method

section Seeds

/-- `base64::decode` and `Vec::from_hex`, with the texts of their errors. -/
structure SeedCodecs where
  decodeBase64 : String → Except String Bytes
  fromHex : String → Except String Bytes

variable (D : SeedCodecs)

/-- `convert_seed` of a seed that is given. -/
def convertGivenSeed (seed : String) : IndyResult (BytesOf 32) := do
  let bytes ←
    if (asBytes seed).length = 32 then .ok (asBytes seed)
    else if seed.toList.getLast? = some '=' then
      match D.decodeBase64 seed with
      | .error e =>
        .error ⟨.invalidStructure, "Can't deserialize Seed from Base64 string\n  Caused by: " ++ e⟩
      | .ok decoded =>
        if decoded.length = 32 then .ok decoded
        else .error ⟨.invalidStructure,
          "Trying to use invalid base64 encoded `seed`. The number of bytes must be 32 "⟩
    else if (asBytes seed).length = 64 then
      match D.fromHex seed with
      | .error e => .error ⟨.invalidStructure, "Seed is invalid hex\n  Caused by: " ++ e⟩
      | .ok bytes => .ok bytes
    else .error ⟨.invalidStructure,
      "Trying to use invalid `seed`. It can be either 32 bytes string or base64 string or 64 bytes HEX string"⟩
  fromSlice "Seed" 32 bytes

/-- `convert_seed`, and the random seed that a key is made from without one. -/
def seedOr (random : BytesOf 32) : Option String → IndyResult (BytesOf 32)
  | none => .ok random
  | some seed => convertGivenSeed D seed

end Seeds

section Service
variable (S : Sodium) (T : Crypto.Codecs) (D : SeedCodecs)

/-- `create_key`. -/
def createKeyOf (random : BytesOf 32) (keyInfo : KeyInfo) : IndyResult Key := do
  let cryptoTypeName := keyInfo.cryptoType.getD defaultCryptoType
  if !isCryptoType cryptoTypeName
    then unknownCrypto ("KeyInfo contains unknown crypto: " ++ cryptoTypeName)
  else
    let seed ← seedOr D random keyInfo.seed
    createKey S T keyInfo.cryptoType seed

def createMyDid (random : BytesOf 32) (myDidInfo : MyDidInfo) : IndyResult (Did × Key) := do
  let cryptoTypeName := myDidInfo.cryptoType.getD defaultCryptoType
  if !isCryptoType cryptoTypeName
    then unknownCrypto ("MyDidInfo contains unknown crypto: " ++ cryptoTypeName)
  else
    let seed ← seedOr D random myDidInfo.seed
    let (vk, sk) := S.keypairFromSeed seed
    let did := match myDidInfo.did with
      | some did => did
      | none =>
        if myDidInfo.cid = some true then newDidValue (T.toBase58 vk.1) myDidInfo.methodName
        else newDidValue (T.toBase58 (vk.1.take 16)) myDidInfo.methodName
    let vk := T.toBase58 vk.1
    let sk := T.toBase58 sk.1
    let vk := if cryptoTypeName ≠ defaultCryptoType then vk ++ ":" ++ cryptoTypeName else vk
    pure (⟨did, vk⟩, ⟨vk, sk⟩)

/-- `build_full_verkey`. -/
def buildFullVerkey (dest : String) : Option String → IndyResult String
  | none => .ok dest
  | some verkey => do
    let (verkey, cryptoType) := match verkey.toList.splitOn ':' with
      | first :: second :: _ => (String.ofList first, some (String.ofList second))
      | _ => (verkey, none)
    let verkey ← match verkey.toList with
      | '~' :: abbreviated => do
        let result ← T.ofBase58 dest
        let rest ← T.ofBase58 (String.ofList abbreviated)
        pure (T.toBase58 (result ++ rest))
      | _ => .ok verkey
    match cryptoType with
    | some cryptoType => pure (verkey ++ ":" ++ cryptoType)
    | none => pure verkey

/-- `create_their_did`; `validate_did` finds nothing wrong with any DID. -/
def createTheirDid (theirDidInfo : TheirDidInfo) : IndyResult TheirDid := do
  let verkey ← buildFullVerkey T theirDidInfo.did.toUnqualified.value theirDidInfo.verkey
  validateKey T verkey
  pure ⟨theirDidInfo.did, verkey⟩

end Service

section Signatures

abbrev DetachedSignature := BytesOf 64

/-- The signatures of libsodium: the holder of a key pair can make them. -/
structure Ed25519 (S : Sodium) where
  sign : SecretKey → Bytes → DetachedSignature
  verify : PublicKey → Bytes → DetachedSignature → Bool
  verify_sign : ∀ seed doc,
    verify (S.keypairFromSeed seed).1 doc (sign (S.keypairFromSeed seed).2 doc) = true

variable {S : Sodium} (E : Ed25519 S) (T : Crypto.Codecs)

/-- `CryptoService::sign`. -/
def sign (myKey : Key) (doc : Bytes) : IndyResult Bytes :=
  let cryptoTypeName := verkeyGetCryptoname myKey.verkey
  if !isCryptoType cryptoTypeName
    then unknownCrypto ("Trying to sign message with unknown crypto: " ++ cryptoTypeName)
  else do
    let mySk ← fromSlice "SecretKey" 64 (← T.ofBase58 myKey.signkey)
    pure (E.sign mySk doc).1

/-- `CryptoService::verify`. -/
def verify (theirVk : String) (msg signature : Bytes) : IndyResult Bool :=
  let (theirVk, cryptoTypeName) := splitVerkey theirVk
  if !isCryptoType cryptoTypeName then
    unknownCrypto ("Trying to verify message with unknown crypto: " ++ cryptoTypeName)
  else do
    let theirVk ← fromSlice "PublicKey" 32 (← T.ofBase58 theirVk)
    let signature ← fromSlice "Signature" 64 signature
    pure (E.verify theirVk msg signature)

end Signatures

section KeyPairs
variable {S : Sodium} {T : Crypto.Codecs} {D : SeedCodecs} {E : Ed25519 S} {random : BytesOf 32}

/-- A key with both halves of a pair. -/
def IsPair (S : Sodium) (T : Crypto.Codecs) (key : Key) : Prop :=
  ∃ seed, key = ⟨T.toBase58 (S.keypairFromSeed seed).1.1, T.toBase58 (S.keypairFromSeed seed).2.1⟩

theorem eq_default_of_isCryptoType {name : String} (h : isCryptoType name = true) :
    name = defaultCryptoType := by
  simpa [isCryptoType] using h

/-- A key of an unknown type is refused. -/
theorem eq_default_of_ok {α : Type} {cryptoTypeName message : String} {x : IndyResult α} {a : α}
    (h : (if !isCryptoType cryptoTypeName then unknownCrypto message else x) = .ok a) :
    cryptoTypeName = defaultCryptoType ∧ x = .ok a := by
  split_ifs at h with hunknown
  · cases h
  · rw [Bool.not_eq_true', Bool.not_eq_false] at hunknown
    exact ⟨eq_default_of_isCryptoType hunknown, h⟩

theorem isPair_createKey {cryptoType : Option String} {seed : BytesOf 32} {key : Key}
    (h : createKey S T cryptoType seed = .ok key) : IsPair S T key := by
  obtain ⟨hdefault, hkey⟩ := eq_default_of_ok h
  rw [if_neg (not_not.mpr hdefault)] at hkey
  exact ⟨seed, (Except.ok.inj hkey).symm⟩

theorem isPair_createKeyOf {keyInfo : KeyInfo} {key : Key}
    (h : createKeyOf S T D random keyInfo = .ok key) :
    IsPair S T key := by
  obtain ⟨-, hcreate⟩ := eq_default_of_ok h
  obtain ⟨seed, -, hkey⟩ := except_bind_eq_ok.mp hcreate
  exact isPair_createKey hkey

/-- A new DID comes with the key pair that it names. -/
theorem isPair_createMyDid {info : MyDidInfo} {did : Did} {key : Key}
    (h : createMyDid S T D random info = .ok (did, key)) :
    did.verkey = key.verkey ∧ IsPair S T key := by
  obtain ⟨hdefault, hcreate⟩ := eq_default_of_ok h
  obtain ⟨seed, -, hdid⟩ := except_bind_eq_ok.mp hcreate
  obtain ⟨rfl, rfl⟩ := Prod.mk.inj (Except.ok.inj hdid)
  refine ⟨rfl, seed, ?_⟩
  rw [if_neg (not_not.mpr hdefault)]

theorem ofBase58_toBase58 (bs : Bytes) : T.ofBase58 (T.toBase58 bs) = .ok bs := by
  rw [Crypto.Codecs.ofBase58, T.fromBase58_toBase58]

/-- What a key signs is verified with its public half. -/
theorem verify_sign {key : Key} (hkey : IsPair S T key) (doc : Bytes) :
    ∃ signature, sign E T key doc = .ok signature ∧
      verify E T key.verkey doc signature = .ok true := by
  obtain ⟨seed, rfl⟩ := hkey
  have hsplit := splitVerkey_of_notMem (T.colon_notMem (S.keypairFromSeed seed).1.1)
  have hdefault : isCryptoType defaultCryptoType = true := by decide
  refine ⟨(E.sign (S.keypairFromSeed seed).2 doc).1, ?_, ?_⟩
  · simp only [sign, verkeyGetCryptoname_eq, hsplit, hdefault, ofBase58_toBase58]
    rw [Bool.not_true, if_neg Bool.false_ne_true, except_ok_bind, fromSlice_val, except_ok_bind]
    rfl
  · simp only [verify, hsplit, hdefault, ofBase58_toBase58]
    rw [Bool.not_true, if_neg Bool.false_ne_true, except_ok_bind, fromSlice_val, except_ok_bind,
      fromSlice_val, except_ok_bind, E.verify_sign]
    rfl

end KeyPairs

end SimpleAsset.Indy.Dids
