import SimpleAsset.Indy.Crypto.PackedMessage
import SimpleAsset.Library.Table

/-! What is packed for the keys of a wallet is unpacked there, if it is text. -/
namespace SimpleAsset.Indy.Crypto
open SimpleAsset.Library

section Wallets
variable (S : Sodium) (T : Codecs)

/-- A wallet with keys that `create_key` made, each under its verkey. -/
structure KeyWallet where
  keys : Table String Key
  created : ∀ name key, keys.lookup name = some key →
    key.verkey = name ∧ ∃ cryptoType seed, createKey S T cryptoType seed = .ok key

variable {S T}

/-- `get_indy_object` of a key. -/
def KeyWallet.getKey (w : KeyWallet S T) : GetKey := fun name =>
  match w.keys.lookup name with
  | some key => .ok key
  | none => .error ⟨.walletItemNotFound, "Item not found"⟩

def KeyWallet.empty : KeyWallet S T := ⟨∅, fun _ _ h => by cases h⟩

/-- `CryptoCommandExecutor::create_key`. -/
def KeyWallet.addKey (w : KeyWallet S T) (cryptoType : Option String) (seed : BytesOf 32) :
    IndyResult (KeyWallet S T) :=
  match h : createKey S T cryptoType seed with
  | .error e => .error e
  | .ok key =>
    if (w.keys.lookup key.verkey).isSome
      then .error ⟨.walletItemAlreadyExists, "Wallet item already exists"⟩
    else .ok ⟨w.keys.insert key.verkey key,
      Table.forall_lookup_insert ⟨rfl, cryptoType, seed, h⟩ w.created⟩

end Wallets

section Boxes
variable {S : Sodium} {T : Codecs}

/-- The texts of a pair of keys. -/
def keyOfSeed (S : Sodium) (T : Codecs) (seed : BytesOf 32) : Key :=
  ⟨T.toBase58 (S.keypairFromSeed seed).1.1, T.toBase58 (S.keypairFromSeed seed).2.1⟩

theorem createKey_eq_ok {cryptoType : Option String} {seed : BytesOf 32} {key : Key}
    (h : createKey S T cryptoType seed = .ok key) : key = keyOfSeed S T seed := by
  unfold createKey at h
  dsimp only at h
  split at h
  · cases h
  · rename_i htype
    have hdefault : cryptoType.getD defaultCryptoType = defaultCryptoType := by
      simpa [isCryptoType] using htype
    rw [hdefault, if_neg (not_not.mpr rfl)] at h
    exact (Except.ok.inj h).symm

theorem KeyWallet.exists_seed (w : KeyWallet S T) {name : String} {key : Key}
    (h : w.getKey name = .ok key) :
    ∃ seed, key = keyOfSeed S T seed ∧ name = (keyOfSeed S T seed).verkey := by
  unfold KeyWallet.getKey at h
  cases hlookup : w.keys.lookup name with
  | none =>
    rw [hlookup] at h
    cases h
  | some key' =>
    rw [hlookup] at h
    obtain rfl := Except.ok.inj h
    obtain ⟨hname, cryptoType, seed, hcreated⟩ := w.created name key' hlookup
    obtain rfl := createKey_eq_ok hcreated
    exact ⟨seed, rfl, hname.symm⟩

theorem ofBase58_toBase58 (b : Bytes) : T.ofBase58 (T.toBase58 b) = .ok b := by
  rw [Codecs.ofBase58, T.fromBase58_toBase58]

theorem decodeUrlsafe_encodeBase64 (b : Bytes) : T.decodeUrlsafe (T.encodeBase64 b) = .ok b := by
  rw [Codecs.decodeUrlsafe, T.decodeBase64_encodeBase64]

theorem splitVerkey_keyOfSeed (seed : BytesOf 32) :
    splitVerkey (keyOfSeed S T seed).verkey = ((keyOfSeed S T seed).verkey, defaultCryptoType) :=
  splitVerkey_of_notMem (T.colon_notMem _)

theorem cryptoBoxSeal_keyOfSeed (random : BytesOf 32) (seed : BytesOf 32) (doc : Bytes) :
    cryptoBoxSeal S T random (keyOfSeed S T seed).verkey doc =
      .ok (S.sealedSeal random doc (S.vkToCurve25519 (S.keypairFromSeed seed).1)) := by
  rw [cryptoBoxSeal, splitVerkey_keyOfSeed]
  simp [isCryptoType, keyOfSeed, ofBase58_toBase58, fromSlice_val]

/-- What is sealed for a key opens with it. -/
theorem cryptoBoxSealOpen_cryptoBoxSeal {random seed : BytesOf 32} {doc sealedDoc : Bytes}
    (h : cryptoBoxSeal S T random (keyOfSeed S T seed).verkey doc = .ok sealedDoc) :
    cryptoBoxSealOpen S T (keyOfSeed S T seed) sealedDoc = .ok doc := by
  rw [cryptoBoxSeal_keyOfSeed] at h
  obtain rfl := Except.ok.inj h
  rw [cryptoBoxSealOpen, splitVerkey_keyOfSeed]
  simp [isCryptoType, keyOfSeed, ofBase58_toBase58, fromSlice_val, S.sealedOpen_sealedSeal]

theorem cryptoBox_keyOfSeed (nonce : BoxNonce) (seed seed' : BytesOf 32) (doc : Bytes) :
    cryptoBox S T nonce (keyOfSeed S T seed) (keyOfSeed S T seed').verkey doc =
      .ok (S.boxSeal doc nonce (S.vkToCurve25519 (S.keypairFromSeed seed').1)
        (S.skToCurve25519 (S.keypairFromSeed seed).2), nonce.1) := by
  rw [cryptoBox, verkeyGetCryptoname_eq, splitVerkey_keyOfSeed, splitVerkey_keyOfSeed]
  simp [isCryptoType, keyOfSeed, ofBase58_toBase58, fromSlice_val]

/-- What is boxed for a key opens with it and the verkey of the sender. -/
theorem cryptoBoxOpen_cryptoBox {boxNonce : BoxNonce} {seed seed' : BytesOf 32}
    {doc boxed nonce : Bytes}
    (h : cryptoBox S T boxNonce (keyOfSeed S T seed) (keyOfSeed S T seed').verkey doc = .ok
      (boxed, nonce)) :
    cryptoBoxOpen S T (keyOfSeed S T seed') (keyOfSeed S T seed).verkey boxed nonce = .ok doc := by
  rw [cryptoBox_keyOfSeed] at h
  obtain ⟨rfl, rfl⟩ := Prod.mk.inj (Except.ok.inj h)
  rw [cryptoBoxOpen, verkeyGetCryptoname_eq, splitVerkey_keyOfSeed, splitVerkey_keyOfSeed]
  simp [isCryptoType, keyOfSeed, ofBase58_toBase58, fromSlice_val, S.boxOpen_boxSeal]

theorem decryptCiphertext_encryptPlaintext {nonce : Nonce} {plaintext : Bytes}
    {aad ciphertext iv tag : String} {cek : Cek}
    (h : encryptPlaintext S T nonce plaintext aad cek = (ciphertext, iv, tag)) :
    decryptCiphertext S T ciphertext aad iv tag cek = messageOf T plaintext := by
  obtain ⟨rfl, hrest⟩ := Prod.mk.inj h
  obtain ⟨rfl, rfl⟩ := Prod.mk.inj hrest
  unfold decryptCiphertext
  simp only [decodeUrlsafe_encodeBase64, mapErr, except_ok_bind, fromSlice_val,
    S.openDetached_sealDetached]

end Boxes

section Recipients
variable {S : Sodium} {T : Codecs} {cek : Cek}

theorem cekOfVec_val (cek : Cek) : cekOfVec cek.1 = .ok cek := by
  rw [cekOfVec, fromSlice_val, mapErr]

/-- The first recipient whose key is in the wallet. -/
theorem findCorrectRecipient_eq {getKey : GetKey} {recipients : List Recipient}
    (h : ∃ r ∈ recipients, ∃ key, getKey r.header.kid = .ok key) :
    ∃ r ∈ recipients, (∃ key, getKey r.header.kid = .ok key) ∧
      findCorrectRecipient getKey recipients = .ok (r, r.header.sender.isSome) := by
  induction recipients with
  | nil =>
    obtain ⟨r, hr, -⟩ := h
    cases hr
  | cons r recipients ih =>
    rw [findCorrectRecipient]
    cases hkey : getKey r.header.kid with
    | ok key => exact ⟨r, List.mem_cons_self, ⟨key, hkey⟩, rfl⟩
    | error e =>
      have hlater : ∃ r ∈ recipients, ∃ key, getKey r.header.kid = .ok key := by
        obtain ⟨r', hr', key, hkey'⟩ := h
        rcases List.mem_cons.mp hr' with rfl | hr'
        · rw [hkey] at hkey'
          cases hkey'
        · exact ⟨r', hr', key, hkey'⟩
      obtain ⟨r', hr', hkey', hfind⟩ := ih hlater
      exact ⟨r', List.mem_cons_of_mem r hr', hkey', hfind⟩

/-- A recipient of an anonymous message: whoever has the key gets the content encryption key. -/
theorem unpackCekAnoncrypt_eq {random : RecipientRandom} {vk : String} {r : Recipient}
    {w : KeyWallet S T}
    (hr : anoncryptRecipient S T random cek vk = .ok r) (hkey : ∃ key, w.getKey vk = .ok key) :
    r.header.sender = none ∧ unpackCekAnoncrypt S T w.getKey r = .ok (none, cek) := by
  obtain ⟨key, hkey⟩ := hkey
  obtain ⟨seed, rfl, rfl⟩ := w.exists_seed hkey
  obtain ⟨encCek, hseal, hr⟩ := except_bind_eq_ok.mp hr
  obtain rfl := Except.ok.inj hr
  refine ⟨rfl, ?_⟩
  unfold unpackCekAnoncrypt
  dsimp only
  rw [decodeUrlsafe_encodeBase64, except_ok_bind, hkey, except_ok_bind,
    cryptoBoxSealOpen_cryptoBoxSeal hseal, except_ok_bind, cekOfVec_val]
  rfl

/-- A recipient of an authenticated message gets the verkey of the sender, too. -/
theorem unpackCekAuthcrypt_eq {random : RecipientRandom} {vk senderVk : String} {myKey : Key}
    {r : Recipient} {packer w : KeyWallet S T} (hsender : packer.getKey senderVk = .ok myKey)
    (hr : authcryptRecipient S T random cek myKey senderVk vk = .ok r)
    (hkey : ∃ key, w.getKey vk = .ok key) :
    r.header.sender.isSome = true ∧
    unpackCekAuthcrypt S T w.getKey r = .ok (some senderVk, cek) := by
  obtain ⟨key, hkey⟩ := hkey
  obtain ⟨seed', rfl, rfl⟩ := w.exists_seed hkey
  obtain ⟨seed, rfl, rfl⟩ := packer.exists_seed hsender
  obtain ⟨⟨encCek, iv⟩, hbox, hr⟩ := except_bind_eq_ok.mp hr
  obtain ⟨encSender, hseal, hr⟩ := except_bind_eq_ok.mp hr
  obtain rfl := Except.ok.inj hr
  refine ⟨rfl, ?_⟩
  unfold unpackCekAuthcrypt
  simp only [unwrapOption, decodeUrlsafe_encodeBase64, ofIndyResult, except_ok_bind, hkey,
    cryptoBoxSealOpen_cryptoBoxSeal hseal, fromUtf8_asBytes, cryptoBoxOpen_cryptoBox hbox,
    cekOfVec_val]
  rfl

end Recipients

section Agreement
variable {S : Sodium} {T : Codecs} {D : SerdeDocuments} {cek : Cek}

theorem protectedOfJwe_encode (recipients : List Recipient) (algIsAuthcrypt : Bool)
    (iv ciphertext tag : String) :
    ∃ p, protectedOfJwe T D
      ⟨base64EncodeProtected T D recipients algIsAuthcrypt, iv, ciphertext, tag⟩ = .ok p ∧
      p.recipients = recipients := by
  unfold protectedOfJwe base64EncodeProtected
  rw [decodeUrlsafe_encodeBase64, except_ok_bind, fromUtf8_asBytes]
  dsimp only
  rw [protected_fromText_write]
  exact ⟨_, rfl, rfl⟩

/-- What was encrypted for the recipients is decrypted by the first of them whose key is in the
wallet. -/
theorem unpackMsg_eq {getKey : GetKey} {recipients : List Recipient} {senderVk : Option String}
    (hunpack : ∀ r ∈ recipients, (∃ key, getKey r.header.kid = .ok key) →
      unpackCek S T getKey r.header.sender.isSome r = .ok (senderVk, cek))
    (hexists : ∃ r ∈ recipients, ∃ key, getKey r.header.kid = .ok key) {algIsAuthcrypt : Bool}
    {nonce : Nonce} {message : Bytes} {ciphertext iv tag : String}
    (hencrypt : encryptPlaintext S T nonce message
      (base64EncodeProtected T D recipients algIsAuthcrypt) cek = (ciphertext, iv, tag)) :
    ∃ r ∈ recipients, (∃ key, getKey r.header.kid = .ok key) ∧
      unpackMsg S T D getKey
        ⟨base64EncodeProtected T D recipients algIsAuthcrypt, iv, ciphertext, tag⟩ =
        (ofIndyResult (messageOf T message) >>= fun text =>
          pure (asBytes (D.write (UnpackMessage.toValue ⟨text, r.header.kid, senderVk⟩)))) := by
  obtain ⟨p, hprotected, hrecipients⟩ :=
    protectedOfJwe_encode (T := T) (D := D) recipients algIsAuthcrypt iv ciphertext tag
  obtain ⟨r, hr, hkey, hfind⟩ := findCorrectRecipient_eq hexists
  refine ⟨r, hr, hkey, ?_⟩
  unfold unpackMsg
  rw [hprotected, ofIndyResult, except_ok_bind, hrecipients, hfind, ofIndyResult, except_ok_bind]
  dsimp only
  rw [hunpack r hr hkey, except_ok_bind]
  dsimp only
  rw [decryptCiphertext_encryptPlaintext hencrypt]

/-- The recipients of a message that is packed, one for each receiver. -/
structure PackedFor (S : Sodium) (T : Codecs) (getKey : GetKey) (random : PackRandom)
    (receiverList : List String)
    (senderVk : Option String) (recipients : List Recipient) : Prop where
  anoncrypt : senderVk = none →
    receiverList.zipIdx.mapM
    (fun vk => anoncryptRecipient S T (random.recipients vk.2) random.cek vk.1) = .ok recipients
  authcrypt : ∀ vk, senderVk = some vk → ∃ myKey, getKey vk = .ok myKey ∧
    receiverList.zipIdx.mapM (fun vk' =>
      authcryptRecipient S T (random.recipients vk'.2) random.cek myKey vk vk'.1) = .ok recipients

/-- What a packed message is. -/
theorem exists_packedFor {getKey : GetKey} {random : PackRandom} {message : Bytes}
    {receiverList : List String} {senderVk : Option String} {packed : Bytes}
    (hpack : packMsg S T D getKey random message receiverList senderVk = .ok packed) :
    ∃ recipients algIsAuthcrypt ciphertext iv tag,
      PackedFor S T getKey random receiverList senderVk recipients ∧
      encryptPlaintext S T random.nonce message
        (base64EncodeProtected T D recipients algIsAuthcrypt) random.cek = (ciphertext, iv, tag) ∧
      Jwe.fromSlice D packed = .ok
        ⟨base64EncodeProtected T D recipients algIsAuthcrypt, iv, ciphertext, tag⟩ := by
  unfold packMsg at hpack
  split_ifs at hpack
  obtain ⟨base64Protected, hprotected, hpacked⟩ := except_bind_eq_ok.mp hpack
  rcases hencrypt : encryptPlaintext S T random.nonce message base64Protected random.cek
    with ⟨ciphertext, iv, tag⟩
  rw [hencrypt] at hpacked
  obtain rfl := Except.ok.inj hpacked
  cases senderVk with
  | none =>
    obtain ⟨recipients, hrecipients, hencode⟩ := except_bind_eq_ok.mp hprotected
    obtain rfl := Except.ok.inj hencode
    exact ⟨recipients, false, ciphertext, iv, tag, ⟨fun _ => hrecipients, nofun⟩, hencrypt,
      jwe_fromSlice_write D _⟩
  | some vk =>
    obtain ⟨-, -, hprotected⟩ := except_bind_eq_ok.mp hprotected
    obtain ⟨myKey, hsender, hprotected⟩ := except_bind_eq_ok.mp hprotected
    obtain ⟨recipients, hrecipients, hencode⟩ := except_bind_eq_ok.mp hprotected
    obtain rfl := Except.ok.inj hencode
    refine ⟨recipients, true, ciphertext, iv, tag, ⟨nofun, ?_⟩, hencrypt, jwe_fromSlice_write D _⟩
    rintro _ ⟨⟩
    exact ⟨myKey, hsender, hrecipients⟩

theorem kid_of_anoncryptRecipient {random : RecipientRandom} {vk : String} {r : Recipient}
    (h : anoncryptRecipient S T random cek vk = .ok r) : r.header.kid = vk := by
  obtain ⟨encCek, -, hr⟩ := except_bind_eq_ok.mp h
  rw [← Except.ok.inj hr]

theorem kid_of_authcryptRecipient {random : RecipientRandom} {myKey : Key} {senderVk vk : String}
    {r : Recipient}
    (h : authcryptRecipient S T random cek myKey senderVk vk = .ok r) : r.header.kid = vk := by
  obtain ⟨⟨encCek, iv⟩, -, hr⟩ := except_bind_eq_ok.mp h
  obtain ⟨encSender, -, hr⟩ := except_bind_eq_ok.mp hr
  rw [← Except.ok.inj hr]

section Recipients
variable {packer w : KeyWallet S T} {random : PackRandom} {receiverList : List String}
    {senderVk : Option String}
  {recipients : List Recipient}

/-- The recipients bear the names of the receivers. -/
theorem PackedFor.mem_kids_iff
    (h : PackedFor S T packer.getKey random receiverList senderVk recipients) (vk : String) :
    (∃ r ∈ recipients, r.header.kid = vk) ↔ vk ∈ receiverList := by
  have hkids : ∀ f : String × ℕ → IndyResult Recipient,
      receiverList.zipIdx.mapM f = .ok recipients →
      (∀ vk i r, f (vk, i) = .ok r → r.header.kid = vk) →
      ((∃ r ∈ recipients, r.header.kid = vk) ↔ vk ∈ receiverList) := by
    intro f hf hkid
    constructor
    · rintro ⟨r, hr, rfl⟩
      obtain ⟨⟨vk, i⟩, hvk, hr'⟩ := exists_mem_of_mem_mapM hf hr
      rw [hkid vk i r hr']
      exact List.fst_mem_of_mem_zipIdx hvk
    · intro hvk
      obtain ⟨i, hi⟩ := List.getElem?_of_mem hvk
      obtain ⟨r, hr, hr'⟩ := exists_mem_mapM_of_mem hf (List.mk_mem_zipIdx_iff_getElem?.mpr hi)
      exact ⟨r, hr, hkid vk i r hr'⟩
  cases senderVk with
  | none => exact hkids _ (h.anoncrypt rfl) fun _ _ _ => kid_of_anoncryptRecipient
  | some senderVk =>
    obtain ⟨myKey, -, hmap⟩ := h.authcrypt senderVk rfl
    exact hkids _ hmap fun _ _ _ => kid_of_authcryptRecipient

/-- Whoever has the key of a recipient gets the content encryption key. -/
theorem PackedFor.unpackCek_eq
    (h : PackedFor S T packer.getKey random receiverList senderVk recipients) {r : Recipient}
    (hr : r ∈ recipients) (hkey : ∃ key, w.getKey r.header.kid = .ok key) :
    unpackCek S T w.getKey r.header.sender.isSome r = .ok (senderVk, random.cek) := by
  cases senderVk with
  | none =>
    obtain ⟨⟨vk, i⟩, -, hr'⟩ := exists_mem_of_mem_mapM (h.anoncrypt rfl) hr
    rw [kid_of_anoncryptRecipient hr'] at hkey
    obtain ⟨hsender, hcek⟩ := unpackCekAnoncrypt_eq hr' hkey
    rw [hsender, unpackCek, if_neg (by simp), hcek, ofIndyResult]
  | some senderVk =>
    obtain ⟨myKey, hmyKey, hmap⟩ := h.authcrypt senderVk rfl
    obtain ⟨⟨vk, i⟩, -, hr'⟩ := exists_mem_of_mem_mapM hmap hr
    rw [kid_of_authcryptRecipient hr'] at hkey
    obtain ⟨hsender, hcek⟩ := unpackCekAuthcrypt_eq hmyKey hr' hkey
    rw [hsender, unpackCek, if_pos rfl, hcek]

end Recipients

/-- Who unpacks a packed message. -/
theorem unpackMsg_packed {packer w : KeyWallet S T} {random : PackRandom} {message : Bytes}
    {receiverList : List String} {senderVk : Option String} {packed : Bytes}
    (hpack : packMsg S T D packer.getKey random message receiverList senderVk = .ok packed)
    (hholds : ∃ vk ∈ receiverList, ∃ key, w.getKey vk = .ok key) :
    ∃ jwe, Jwe.fromSlice D packed = .ok jwe ∧
      ∃ recipient ∈ receiverList, (∃ key, w.getKey recipient = .ok key) ∧
      unpackMsg S T D w.getKey jwe = (ofIndyResult (messageOf T message) >>= fun text =>
        pure (asBytes (D.write (UnpackMessage.toValue ⟨text, recipient, senderVk⟩)))) := by
  obtain ⟨recipients, algIsAuthcrypt, ciphertext, iv, tag, hfor, hencrypt, hjwe⟩ :=
    exists_packedFor hpack
  have hexists : ∃ r ∈ recipients, ∃ key, w.getKey r.header.kid = .ok key := by
    obtain ⟨vk, hvk, hkey⟩ := hholds
    obtain ⟨r, hr, rfl⟩ := (hfor.mem_kids_iff vk).mpr hvk
    exact ⟨r, hr, hkey⟩
  obtain ⟨r, hr, hkey, hresult⟩ := unpackMsg_eq (fun r hr => hfor.unpackCek_eq hr) hexists hencrypt
  exact ⟨_, hjwe, r.header.kid, (hfor.mem_kids_iff _).mp ⟨r, hr, rfl⟩, hkey, hresult⟩

theorem findCorrectRecipient_error {getKey : GetKey} {recipients : List Recipient}
    (h : ∀ r ∈ recipients, ∀ key, getKey r.header.kid ≠ .ok key) :
    findCorrectRecipient getKey recipients = .error ⟨.walletItemNotFound, ""⟩ := by
  induction recipients with
  | nil => rfl
  | cons r recipients ih =>
    rw [findCorrectRecipient]
    cases hkey : getKey r.header.kid with
    | ok key => exact absurd hkey (h r List.mem_cons_self key)
    | error e => exact ih fun r' hr' => h r' (List.mem_cons_of_mem r hr')

/-- A wallet is asked for the keys by the texts that the receivers were named with. -/
theorem unpackMsg_of_others {packer w : KeyWallet S T} {random : PackRandom} {message : Bytes}
    {receiverList : List String} {senderVk : Option String} {packed : Bytes}
    (hpack : packMsg S T D packer.getKey random message receiverList senderVk = .ok packed)
    (hothers : ∀ vk ∈ receiverList, ∀ key, w.getKey vk ≠ .ok key) :
    ∃ jwe, Jwe.fromSlice D packed = .ok jwe ∧
      unpackMsg S T D w.getKey jwe = errMsg .walletItemNotFound "" := by
  obtain ⟨recipients, algIsAuthcrypt, ciphertext, iv, tag, hfor, -, hjwe⟩ := exists_packedFor hpack
  obtain ⟨p, hprotected, hrecipients⟩ :=
    protectedOfJwe_encode (T := T) (D := D) recipients algIsAuthcrypt iv ciphertext tag
  refine ⟨_, hjwe, ?_⟩
  unfold unpackMsg
  rw [hprotected, ofIndyResult, except_ok_bind, hrecipients, findCorrectRecipient_error]
  · rfl
  · exact fun r hr => hothers _ ((hfor.mem_kids_iff _).mp ⟨r, hr, rfl⟩)

end Agreement

section Unpacked
variable {S : Sodium} {T : Codecs} {D : SerdeDocuments}

/-- A packed text is unpacked by every wallet with a key that is stored under the verkey of a
receiver, with the sender and such a receiver. Bytes that are no text are refused. -/
theorem packed_is_unpacked (S : Sodium) (T : Codecs) (D : SerdeDocuments) (packer w : KeyWallet S T)
    (random : PackRandom)
    (message : Bytes) (receiverList : List String) (senderVk : Option String) (packed : Bytes)
    (hpack : packMsg S T D packer.getKey random message receiverList senderVk = .ok packed)
    (hholds : ∃ vk ∈ receiverList, ∃ key, w.getKey vk = .ok key) :
    ∃ jwe, Jwe.fromSlice D packed = .ok jwe ∧
      ∃ recipient ∈ receiverList, (∃ key, w.getKey recipient = .ok key) ∧
      (∀ text, message = asBytes text → unpackMsg S T D w.getKey jwe =
        .ok (asBytes (D.write (UnpackMessage.toValue ⟨text, recipient, senderVk⟩)))) ∧
      (fromUtf8 message = none → unpackMsg S T D w.getKey jwe =
        errMsg .invalidStructure
          ("Failed to convert message to UTF-8 " ++ T.utf8Error message)) := by
  obtain ⟨jwe, hjwe, recipient, hrecipient, hkey, hunpack⟩ := unpackMsg_packed hpack hholds
  refine ⟨jwe, hjwe, recipient, hrecipient, hkey, ?_, fun hbytes => ?_⟩
  · rintro text rfl
    rw [hunpack, messageOf, fromUtf8_asBytes]
    rfl
  · rw [hunpack, messageOf, hbytes]
    rfl

end Unpacked

section Samples

/-- Boxes that only carry what is in them; a private key is the public one, twice. -/
def openSodium : Sodium where
  keypairFromSeed seed := (seed, ⟨seed.1 ++ seed.1, by rw [List.length_append, seed.2]⟩)
  vkToCurve25519 vk := vk
  skToCurve25519 sk := ⟨sk.1.take 32, by rw [List.length_take, sk.2]; rfl⟩
  boxSeal doc _ _ _ := doc
  boxOpen doc _ _ _ := some doc
  sealedSeal _ doc _ := doc
  sealedOpen doc _ _ := some doc
  sealDetached data _ _ _ := (data, ⟨List.replicate 16 0, rfl⟩)
  openDetached data _ _ _ _ := some data
  boxOpen_boxSeal _ _ _ _ := rfl
  sealedOpen_sealedSeal _ _ _ := rfl
  openDetached_sealDetached _ _ _ _ := rfl

/-- One character for each byte. -/
def letter (b : UInt8) : Char := Char.ofNat (256 + b.toNat)

theorem letter_toNat (b : UInt8) : (letter b).toNat = 256 + b.toNat := by
  have hvalid : (256 + b.toNat).isValidChar := by
    have hb := b.toNat_lt
    unfold Nat.isValidChar
    omega
  rw [letter, Char.ofNat, dif_pos hvalid]
  rfl

def letters (bs : Bytes) : String := String.ofList (bs.map letter)

def readLetters (s : String) : Bytes := s.toList.map fun c => UInt8.ofNat (c.toNat - 256)

theorem readLetters_letters (bs : Bytes) : readLetters (letters bs) = bs := by
  rw [readLetters, letters, String.toList_ofList, List.map_map]
  conv_rhs => rw [← List.map_id bs]
  refine List.map_congr_left fun b _ => ?_
  rw [Function.comp_apply, letter_toNat, Nat.add_sub_cancel_left]
  exact UInt8.ofNat_toNat

def letterCodecs : Codecs where
  toBase58 := letters
  fromBase58 s := some (readLetters s)
  encodeBase64 := letters
  decodeBase64 s := .ok (readLetters s)
  utf8Error _ := "invalid utf-8 sequence"
  fromBase58_toBase58 b := congrArg some (readLetters_letters b)
  colon_notMem b h := by
    rw [letters, String.toList_ofList, List.mem_map] at h
    obtain ⟨c, -, hc⟩ := h
    have hnat := letter_toNat c
    rw [hc] at hnat
    have hcolon : ':'.toNat = 58 := rfl
    omega
  decodeBase64_encodeBase64 b := congrArg Except.ok (readLetters_letters b)

/-- Compact documents. -/
def compactDocuments : SerdeDocuments where
  write value := String.ofList value.text
  read s :=
    match Json.readValue s.toList.length 127 s.toList with
    | .ok (value, []) => .ok value
    | .ok _ => .error "trailing characters"
    | .error e => .error e
  read_write value hdocument hnesting := by
    have hread := Json.readValue_text 127 [] hdocument le_rfl
    rw [List.append_nil, Json.readAs, if_pos (by omega)] at hread
    simp only [String.toList_ofList, hread]

def seedOf (b : UInt8) : BytesOf 32 := ⟨List.replicate 32 b, List.length_replicate⟩

def zeroPackRandom : PackRandom :=
  ⟨seedOf 0, ⟨List.replicate 12 0, rfl⟩, fun _ => ⟨⟨List.replicate 24 0, rfl⟩, seedOf 0⟩⟩

def sampleKey (b : UInt8) : Key := keyOfSeed openSodium letterCodecs (seedOf b)

/-- A wallet with one key. -/
def sampleKeys (b : UInt8) : KeyWallet openSodium letterCodecs where
  keys := (∅ : Table String Key).insert (sampleKey b).verkey (sampleKey b)
  created := Table.forall_lookup_insert ⟨rfl, none, seedOf b, rfl⟩ fun _ _ h => by cases h

theorem addKey_empty (b : UInt8) :
    KeyWallet.empty.addKey none (seedOf b) = .ok (sampleKeys b) := rfl

theorem sampleKeys_getKey (b : UInt8) :
    (sampleKeys b).getKey (sampleKey b).verkey = .ok (sampleKey b) := by
  rw [KeyWallet.getKey, sampleKeys, AList.lookup_insert]

theorem sampleKey_verkey_of_getKey {b : UInt8} {name : String} {key : Key}
    (h : (sampleKeys b).getKey name = .ok key) : name = (sampleKey b).verkey := by
  by_contra hne
  rw [KeyWallet.getKey, sampleKeys, AList.lookup_insert_ne hne] at h
  cases h

/-- Packed in one wallet for the keys of two others, and unpacked in the second of them. -/
theorem packed_is_unpacked_sample :
    ∃ (sender receiver : KeyWallet openSodium letterCodecs) (packed : Bytes) (jwe : Jwe),
    KeyWallet.empty.addKey none (seedOf 0) = .ok sender ∧
    KeyWallet.empty.addKey none (seedOf 2) = .ok receiver ∧
    packMsg openSodium letterCodecs compactDocuments sender.getKey zeroPackRandom (asBytes "hi")
      [(sampleKey 1).verkey, (sampleKey 2).verkey] (some (sampleKey 0).verkey) = .ok packed ∧
    Jwe.fromSlice compactDocuments packed = .ok jwe ∧
    unpackMsg openSodium letterCodecs compactDocuments receiver.getKey jwe =
      .ok (asBytes (compactDocuments.write
        (UnpackMessage.toValue ⟨"hi", (sampleKey 2).verkey, some (sampleKey 0).verkey⟩))) := by
  obtain ⟨packed, hpack⟩ :=
    exists_ok_of_isOk (show (packMsg openSodium letterCodecs compactDocuments
    (sampleKeys 0).getKey zeroPackRandom (asBytes "hi") [(sampleKey 1).verkey, (sampleKey 2).verkey]
    (some (sampleKey 0).verkey)).isOk = true by decide)
  obtain ⟨jwe, hjwe, recipient, -, ⟨key, hkey⟩, htext, -⟩ :=
    packed_is_unpacked openSodium letterCodecs
    compactDocuments (sampleKeys 0) (sampleKeys 2) zeroPackRandom (asBytes "hi")
    [(sampleKey 1).verkey, (sampleKey 2).verkey] (some (sampleKey 0).verkey) packed hpack
    ⟨_, List.mem_cons_of_mem _ (List.mem_singleton_self _), _, sampleKeys_getKey 2⟩
  obtain rfl := sampleKey_verkey_of_getKey hkey
  exact ⟨_, _, packed, jwe, addKey_empty 0, addKey_empty 2, hpack, hjwe, htext "hi" rfl⟩

/-- A byte that is no text is not unpacked, and neither is a text for a key of the wallet whose type
is named. -/
theorem packed_is_not_unpacked :
    (∃ packed jwe,
      packMsg openSodium letterCodecs compactDocuments (sampleKeys 0).getKey zeroPackRandom [0xFF]
        [(sampleKey 0).verkey] none = .ok packed ∧ Jwe.fromSlice compactDocuments packed = .ok jwe ∧
      ∀ result, unpackMsg openSodium letterCodecs compactDocuments
        (sampleKeys 0).getKey jwe ≠ .ok result) ∧
    splitVerkey ((sampleKey 0).verkey ++ ":ed25519") = splitVerkey (sampleKey 0).verkey ∧
    (∃ packed jwe, packMsg openSodium letterCodecs compactDocuments
      (sampleKeys 0).getKey zeroPackRandom (asBytes "hi")
        [(sampleKey 0).verkey ++ ":ed25519"] none = .ok packed ∧
        Jwe.fromSlice compactDocuments packed = .ok jwe ∧
      ∀ result, unpackMsg openSodium letterCodecs compactDocuments
        (sampleKeys 0).getKey jwe ≠ .ok result) := by
  refine ⟨?_, by decide, ?_⟩
  · obtain ⟨packed, hpack⟩ := exists_ok_of_isOk
      (show (packMsg openSodium letterCodecs compactDocuments (sampleKeys 0).getKey
      zeroPackRandom [0xFF] [(sampleKey 0).verkey] none).isOk = true by decide)
    obtain ⟨jwe, hjwe, recipient, -, -, hunpack⟩ := unpackMsg_packed (w := sampleKeys 0) hpack
      ⟨_, List.mem_singleton_self _, _, sampleKeys_getKey 0⟩
    refine ⟨packed, jwe, hpack, hjwe, fun result hresult => ?_⟩
    have hbytes : fromUtf8 [0xFF] = none := by decide
    rw [hunpack, messageOf, hbytes] at hresult
    cases hresult
  · obtain ⟨packed, hpack⟩ := exists_ok_of_isOk
      (show (packMsg openSodium letterCodecs compactDocuments (sampleKeys 0).getKey
      zeroPackRandom (asBytes "hi") [(sampleKey 0).verkey ++ ":ed25519"] none).isOk =
        true by decide)
    have hothers : ∀ vk ∈ [(sampleKey 0).verkey ++ ":ed25519"], ∀ key,
        (sampleKeys 0).getKey vk ≠ .ok key := by
      intro vk hvk key hkey
      obtain rfl := List.mem_singleton.mp hvk
      obtain ⟨seed, -, hseed⟩ := (sampleKeys 0).exists_seed hkey
      apply letterCodecs.colon_notMem (openSodium.keypairFromSeed seed).1.1
      change ':' ∈ (keyOfSeed openSodium letterCodecs seed).verkey.toList
      rw [← hseed]
      simp
    obtain ⟨jwe, hjwe, hunpack⟩ := unpackMsg_of_others hpack hothers
    refine ⟨packed, jwe, hpack, hjwe, fun result hresult => ?_⟩
    rw [hunpack] at hresult
    cases hresult

end Samples

end SimpleAsset.Indy.Crypto
