import SimpleAsset.Indy.Crypto.UnpackAgreement
import SimpleAsset.Library.Radix64

/-! What a message has to be for `unpack_msg` to come back with a result or an error. -/
namespace SimpleAsset.Indy.Crypto
open SimpleAsset.Library

section Answers
variable {α β : Type}

/-- A call comes back, with a result or with an error. -/
def Answers (o : Outcome α) : Prop := (∃ a, o = .ok a) ∨ ∃ e, o = .error (.err e)

theorem answers_ok (a : α) : Answers (.ok a) := Or.inl ⟨a, rfl⟩

theorem not_answers_panic (p : Panic) : ¬ Answers (.error (.panic p) : Outcome α) := by
  rintro (⟨a, h⟩ | ⟨e, h⟩) <;> cases h

theorem answers_errMsg (kind : IndyErrorKind) (message : String) :
    Answers (errMsg kind message : Outcome α) :=
  Or.inr ⟨_, rfl⟩

theorem answers_ofIndyResult (x : IndyResult α) : Answers (ofIndyResult x) := by
  cases x with
  | ok a => exact answers_ok a
  | error e => exact Or.inr ⟨e, rfl⟩

/-- A call that goes on comes back if both parts do. -/
theorem answers_bind_iff {x : Outcome α} {f : α → Outcome β} :
    Answers (x >>= f) ↔ Answers x ∧ ∀ a, x = .ok a → Answers (f a) := by
  cases x with
  | ok a =>
    rw [except_ok_bind]
    refine ⟨fun h => ⟨answers_ok a, fun b hb => Except.ok.inj hb ▸ h⟩, fun h => h.2 a rfl⟩
  | error fault =>
    rw [except_error_bind]
    refine ⟨fun h => ⟨?_, nofun⟩, fun h => ?_⟩
    · rcases h with ⟨b, hb⟩ | ⟨e, he⟩
      · cases hb
      · exact Or.inr ⟨e, by rw [Except.error.inj he]⟩
    · rcases h.1 with ⟨a, ha⟩ | ⟨e, he⟩
      · cases ha
      · exact Or.inr ⟨e, by rw [Except.error.inj he]⟩

theorem ofIndyResult_eq_ok_iff {x : IndyResult α} {a : α} : ofIndyResult x = .ok a ↔ x = .ok a := by
  cases x <;> simp [ofIndyResult]

theorem answers_unwrapOption_iff {o : Option α} : Answers (unwrapOption o) ↔ o.isSome = true := by
  cases o with
  | some a => exact iff_of_true (answers_ok a) rfl
  | none => exact iff_of_false (not_answers_panic _) nofun

end Answers

section Recipients
variable {S : Sodium} {T : Codecs} {D : SerdeDocuments} {getKey : GetKey}

/-- The first of the recipients whose key is in the wallet. -/
def FirstHeld (getKey : GetKey) (recipients : List Recipient) (r : Recipient) : Prop :=
  (∃ key, getKey r.header.kid = .ok key) ∧ ∃ before after, recipients = before ++ r :: after ∧
    ∀ r' ∈ before, ∀ key, getKey r'.header.kid ≠ .ok key

theorem FirstHeld.cons_of_held {r : Recipient} {recipients : List Recipient} {key : Key}
    (h : getKey r.header.kid = .ok key) {r' : Recipient} :
    FirstHeld getKey (r :: recipients) r' ↔ r' = r := by
  constructor
  · rintro ⟨-, before, after, hsplit, hbefore⟩
    cases before with
    | nil => exact (List.cons.inj hsplit).1.symm
    | cons r'' before =>
      obtain ⟨rfl, -⟩ := List.cons.inj hsplit
      exact absurd h (hbefore r List.mem_cons_self key)
  · rintro rfl
    exact ⟨⟨key, h⟩, [], recipients, rfl, nofun⟩

theorem FirstHeld.cons_of_missing {r : Recipient} {recipients : List Recipient} {e : IndyError}
    (h : getKey r.header.kid = .error e) {r' : Recipient} :
    FirstHeld getKey (r :: recipients) r' ↔ FirstHeld getKey recipients r' := by
  constructor
  · rintro ⟨⟨key, hkey⟩, before, after, hsplit, hbefore⟩
    refine ⟨⟨key, hkey⟩, ?_⟩
    cases before with
    | nil =>
      obtain ⟨rfl, -⟩ := List.cons.inj hsplit
      rw [h] at hkey
      cases hkey
    | cons r'' before =>
      exact ⟨before, after, (List.cons.inj hsplit).2, fun x hx =>
        hbefore x (List.mem_cons_of_mem r'' hx)⟩
  · rintro ⟨hkey, before, after, rfl, hbefore⟩
    refine ⟨hkey, r :: before, after, rfl, ?_⟩
    rintro x hx key hx'
    rcases List.mem_cons.mp hx with rfl | hx
    · rw [h] at hx'
      cases hx'
    · exact hbefore x hx key hx'

theorem findCorrectRecipient_eq_ok_iff {recipients : List Recipient} {r : Recipient}
    {isAuthRecipient : Bool} :
    findCorrectRecipient getKey recipients = .ok (r, isAuthRecipient) ↔
      FirstHeld getKey recipients r ∧ r.header.sender.isSome = isAuthRecipient := by
  induction recipients with
  | nil =>
    refine iff_of_false nofun ?_
    rintro ⟨⟨-, before, after, hsplit, -⟩, -⟩
    cases before <;> cases hsplit
  | cons r' recipients ih =>
    rw [findCorrectRecipient]
    cases hkey : getKey r'.header.kid with
    | ok key =>
      dsimp only
      rw [Except.ok.injEq, Prod.mk.injEq, FirstHeld.cons_of_held hkey]
      constructor <;> rintro ⟨rfl, hsender⟩ <;> exact ⟨rfl, hsender⟩
    | error e =>
      dsimp only
      rw [ih, FirstHeld.cons_of_missing hkey]

/-- A sender without the nonce that goes with it, and a key that can be decoded. -/
def LacksIv (T : Codecs) (r : Recipient) : Prop :=
  r.header.sender.isSome = true ∧ r.header.iv = none ∧
    ∃ encryptedKey, T.decodeUrlsafe r.encryptedKey = .ok encryptedKey

theorem unpackCekAuthcrypt_answers_iff {r : Recipient} (hsender : r.header.sender.isSome = true) :
    Answers (unpackCekAuthcrypt S T getKey r) ↔ ¬ LacksIv T r := by
  constructor
  · rintro h ⟨-, hiv, encryptedKey, hdecode⟩
    rw [unpackCekAuthcrypt, hdecode, ofIndyResult, except_ok_bind, hiv] at h
    exact not_answers_panic _ h
  · intro h
    refine answers_bind_iff.mpr ⟨answers_ofIndyResult _, fun encryptedKey hdecode => ?_⟩
    have hiv : r.header.iv.isSome = true := by
      rw [Option.isSome_iff_ne_none]
      exact fun hnone => h ⟨hsender, hnone, encryptedKey, ofIndyResult_eq_ok_iff.mp hdecode⟩
    refine answers_bind_iff.mpr ⟨answers_unwrapOption_iff.mpr hiv, fun iv _ => ?_⟩
    refine answers_bind_iff.mpr ⟨answers_ofIndyResult _, fun iv _ => ?_⟩
    refine answers_bind_iff.mpr ⟨answers_unwrapOption_iff.mpr hsender, fun sender _ => ?_⟩
    refine answers_bind_iff.mpr ⟨answers_ofIndyResult _, fun encSenderVk _ => ?_⟩
    refine answers_bind_iff.mpr ⟨answers_ofIndyResult _, fun myKey _ => ?_⟩
    refine answers_bind_iff.mpr ⟨answers_ofIndyResult _, fun senderVkVec _ => ?_⟩
    -- from here on every failure is an error
    cases fromUtf8 senderVkVec with
    | none => exact answers_errMsg _ _
    | some senderVk =>
      refine answers_bind_iff.mpr ⟨answers_ofIndyResult _, fun cekAsVec _ => ?_⟩
      exact answers_bind_iff.mpr ⟨answers_ofIndyResult _, fun cek _ => answers_ok _⟩

theorem unpackCek_answers_iff (r : Recipient) :
    Answers (unpackCek S T getKey r.header.sender.isSome r) ↔ ¬ LacksIv T r := by
  unfold unpackCek
  split
  · rename_i hsender
    exact unpackCekAuthcrypt_answers_iff hsender
  · rename_i hsender
    exact iff_of_true (answers_ofIndyResult _) fun h => hsender h.1

theorem LacksIv.not_answers {jwe : Jwe} {p : Protected} {r : Recipient} (h : LacksIv T r)
    (hprotected : protectedOfJwe T D jwe = .ok p) (hheld : FirstHeld getKey p.recipients r) :
    ¬ Answers (unpackMsg S T D getKey jwe) := by
  intro hanswers
  obtain ⟨-, hrecipient⟩ := answers_bind_iff.mp hanswers
  obtain ⟨-, hcek⟩ := answers_bind_iff.mp (hrecipient p (ofIndyResult_eq_ok_iff.mpr hprotected))
  have hfind := findCorrectRecipient_eq_ok_iff.mpr ⟨hheld, rfl⟩
  exact (unpackCek_answers_iff r).mp
    (answers_bind_iff.mp (hcek _ (ofIndyResult_eq_ok_iff.mpr hfind))).1 h

/-- `unpack_msg` answers exactly if the first recipient whose key is in the wallet has a nonce with
its sender, or a key that is not decoded. -/
theorem unpackMsg_answers_iff (S : Sodium) (T : Codecs) (D : SerdeDocuments) (getKey : GetKey)
    (jwe : Jwe) :
    Answers (unpackMsg S T D getKey jwe) ↔
      ∀ p r, protectedOfJwe T D jwe = .ok p → FirstHeld getKey p.recipients r → ¬ LacksIv T r := by
  constructor
  · exact fun h p r hprotected hheld hlacks => hlacks.not_answers hprotected hheld h
  · intro h
    refine answers_bind_iff.mpr ⟨answers_ofIndyResult _, fun p hprotected => ?_⟩
    refine answers_bind_iff.mpr ⟨answers_ofIndyResult _, fun recipient hfind => ?_⟩
    obtain ⟨r, isAuthRecipient⟩ := recipient
    obtain ⟨hheld, rfl⟩ := findCorrectRecipient_eq_ok_iff.mp (ofIndyResult_eq_ok_iff.mp hfind)
    have hcek := (@unpackCek_answers_iff S T getKey r).mpr
      (h p r (ofIndyResult_eq_ok_iff.mp hprotected) hheld)
    refine answers_bind_iff.mpr ⟨hcek, fun unpacked _ => ?_⟩
    obtain ⟨senderVerkey, cek⟩ := unpacked
    exact answers_bind_iff.mpr ⟨answers_ofIndyResult _, fun message _ => answers_ok _⟩

end Recipients

section Crash

/-- Base64 with padding; base58 as one letter for each byte. -/
def paddedCodecs : Codecs where
  toBase58 := letterCodecs.toBase58
  fromBase58 := letterCodecs.fromBase58
  encodeBase64 b := String.ofList (Radix64.encode b)
  decodeBase64 s :=
    match Radix64.decode s.toList with
    | some b => .ok b
    | none => .error "Encoded text cannot have a 6-bit remainder."
  utf8Error := letterCodecs.utf8Error
  fromBase58_toBase58 := letterCodecs.fromBase58_toBase58
  colon_notMem := letterCodecs.colon_notMem
  decodeBase64_encodeBase64 b := by rw [String.toList_ofList, Radix64.decode_encode]

/-- A recipient with a sender and without a nonce. -/
def bareSender : Recipient :=
  ⟨"AAAA", ⟨"FYmoFw55GeQH7SRFa37dkx1d2dZ3zUF8ckg7wmL7ofN4", none, some "AAAA"⟩⟩

/-- A wallet with its key. -/
def bareWallet : GetKey := fun name =>
  if name = bareSender.header.kid then .ok ⟨name, ""⟩
    else .error ⟨.walletItemNotFound, "Item not found"⟩

theorem bareSender_crashes :
    ¬ Answers (unpackMsg openSodium paddedCodecs compactDocuments bareWallet
      ⟨base64EncodeProtected paddedCodecs compactDocuments [bareSender] true, "", "", ""⟩) := by
  obtain ⟨p, hprotected, hrecipients⟩ :=
    protectedOfJwe_encode (T := paddedCodecs) (D := compactDocuments) [bareSender] true
    "" "" ""
  have hlacks : LacksIv paddedCodecs bareSender := ⟨rfl, rfl, [0, 0, 0], by decide⟩
  have hheld : FirstHeld bareWallet p.recipients bareSender := by
    rw [hrecipients]
    exact ⟨⟨_, if_pos rfl⟩, [], [], rfl, nofun⟩
  exact hlacks.not_answers hprotected hheld

end Crash

end SimpleAsset.Indy.Crypto
