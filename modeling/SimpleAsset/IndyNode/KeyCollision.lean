import SimpleAsset.IndyNode.CacheAgreement
import SimpleAsset.IndyNode.DomainHandler
import SimpleAsset.IndyNode.StateKey
import SimpleAsset.Library.Joined

/-! When two transactions of the domain ledger are written under one key. -/
namespace SimpleAsset.IndyNode
open SimpleAsset.Indy SimpleAsset.Library

/-- Fields of plenum, as far as keys depend on them: an identifier is the base58 text of 16 or 32
bytes, and a version is made of digits and dots. -/
structure KeyFields (plenum : Plenum) : Prop where
  identifier : ∀ s, plenum.identifierField (.string s) = true →
    base58Length s = some 16 ∨ base58Length s = some 32
  version : ∀ s, plenum.versionField (.string s) = true → ∀ c ∈ s.toList, c = '.' ∨ c.isDigit = true

namespace DomainTxn

/-- What identifies the object that a transaction is about, apart from its type. -/
def identifyingFields : DomainTxn → List String
  | nym did => [did]
  | attrib did _ attrName => [did, attrName]
  | schema authorsDid schemaName schemaVersion => [authorsDid, schemaName, schemaVersion]
  | claimDef authorsDid schemaSeqNo signatureType tag =>
    [authorsDid, signatureType, schemaSeqNo, tag]
  | revocRegDef authorsDid credDefId revocDefType revocDefTag =>
    [authorsDid, credDefId, revocDefType, revocDefTag]
  | revocRegEntry revocRegDefId => [revocRegDefId]

def SameObject (a b : DomainTxn) : Prop :=
  a.type = b.type ∧ a.identifyingFields = b.identifyingFields

end DomainTxn

/-- A text before a colon that is not taken for the marker of an entry. -/
def Plain (text : String) : Prop := ':' ∉ text.toList ∧ text ≠ "5"

/-- The parts of a key where a colon would hide a part, for the transactions that are accepted. -/
def DomainTxn.Wellformed : DomainTxn → Prop
  | nym _ => True
  | attrib did _ _ => Plain did
  | schema authorsDid _ schemaVersion => Plain authorsDid ∧ ':' ∉ schemaVersion.toList
  | claimDef authorsDid schemaSeqNo _ _ => Plain authorsDid ∧ ':' ∉ schemaSeqNo.toList
  | revocRegDef authorsDid _ _ _ => Plain authorsDid
  | revocRegEntry _ => True

section Accepted

variable {plenum : WritePlenum} {op : Operation} {txn : DomainTxn}

theorem colon_notMem_of_base58Length {s : String} {n : ℕ} (h : base58Length s = some n) :
    ':' ∉ s.toList := by
  simp only [base58Length, Option.bind_eq_bind, Option.bind_eq_some_iff] at h
  obtain ⟨digits, hdigits, -⟩ := h
  intro hmem
  have hmap := List.mem_map_of_mem (f := fun c =>
    if c ∈ "123456789ABCDEFGHJKLMNPQRSTUVWXYZabcdefghijkmnopqrstuvwxyz".toList then
      some ("123456789ABCDEFGHJKLMNPQRSTUVWXYZabcdefghijkmnopqrstuvwxyz".toList.idxOf c) else none)
        hmem
  rw [mapM_eq_some_iff.mp hdigits] at hmap
  simp at hmap

theorem string_of_asStr {val : Json} {s : String} (h : val.asStr = some s) : val = .string s := by
  cases val with
  | string s' => exact congrArg Json.string (Option.some.inj h)
  | _ => cases h

theorem specific_of_validateField {specific : Json → Bool} {val : Json}
    (h : plenum.validateField [.str] specific val = true) : specific val = true :=
  (plenum.field_passed h).2

theorem plain_of_identifier (hplenum : KeyFields plenum.toPlenum) {s : String}
    (h : plenum.identifierField (.string s) = true) : Plain s := by
  have hlength := hplenum.identifier s h
  constructor
  · rcases hlength with hlength | hlength <;> exact colon_notMem_of_base58Length hlength
  · rintro rfl
    revert hlength
    decide

theorem plain_author (hplenum : KeyFields plenum.toPlenum) {identifier : Option String}
    (h : (identifier.all fun did => plenum.identifierField (.string did)) = true) :
    Plain (identifier.getD "None") := by
  rcases identifier with _ | did
  · constructor <;> decide
  · exact plain_of_identifier hplenum (by simpa using h)

theorem colon_notMem_of_version (hplenum : KeyFields plenum.toPlenum) {s : String}
    (h : plenum.versionField (.string s) = true) : ':' ∉ s.toList := by
  intro hmem
  rcases hplenum.version s h ':' hmem with hdot | hdigit
  · cases hdot
  · cases hdigit

theorem colon_notMem_digits (n : ℕ) : ':' ∉ Nat.toDigits 10 n := by
  intro hmem
  have := Nat.isDigit_of_mem_toDigits (by decide) (by decide) hmem
  cases this

theorem colon_notMem_int (n : ℤ) : ':' ∉ (toString n).toList := by
  cases n with
  | ofNat n =>
    change ':' ∉ (Nat.repr n).toList
    rw [Nat.repr, String.toList_ofList]
    exact colon_notMem_digits n
  | negSucc n =>
    change ':' ∉ ("-" ++ Nat.repr (n + 1)).toList
    rw [Nat.repr, String.toList_append, List.mem_append, not_or]
    refine ⟨by decide, ?_⟩
    rw [String.toList_ofList]
    exact colon_notMem_digits (n + 1)

/-- An integer is formatted without colons. -/
theorem colon_notMem_of_int {val : Json} {specific : Json → Bool} {s : String}
    (h : plenum.validateField [.int] specific val = true) (hs : pyStr val = some s) :
    ':' ∉ s.toList := by
  obtain ⟨htype, -⟩ := plenum.field_passed h
  simp only [List.any_cons, List.any_nil, Bool.or_false] at htype
  cases val with
  | number n =>
    cases n with
    | posInt n =>
      obtain rfl := Option.some.inj hs
      rw [u64ToString, String.toList_ofList]
      exact colon_notMem_digits n
    | negInt n =>
      obtain rfl := Option.some.inj hs
      exact colon_notMem_int n
    | float text => cases hs
  | bool b =>
    cases b with
    | true =>
      obtain rfl := Option.some.inj hs
      decide
    | false =>
      obtain rfl := Option.some.inj hs
      decide
  | _ => simp [PyType.isInstance] at htype

theorem wellformed_attrib (hplenum : KeyFields plenum.toPlenum) {author : Option String}
    (hstatic : acceptsStatic plenum .attrib op = true)
    (htxn : prepareForState plenum .attrib author op = some txn) :
    txn.Wellformed := by
  simp only [acceptsStatic, Bool.and_eq_true] at hstatic
  simp only [prepareForState, Option.bind_eq_bind, Option.bind_eq_some_iff, Option.pure_def,
    Option.some.injEq] at htxn
  obtain ⟨did, hdid, ⟨attrType, attrName⟩, -, rfl⟩ := htxn
  obtain ⟨val, hval, hvalid⟩ := exists_lookup hstatic.1.1 (.tail _ (.head _)) rfl
  rw [identifierField] at hval hvalid
  rw [Operation.get_of_lookup hval] at hdid
  obtain rfl := string_of_asStr hdid
  have hspecific : plenum.identifierField (.string did) = true := specific_of_validateField hvalid
  exact plain_of_identifier hplenum hspecific

theorem wellformed_schema (hplenum : KeyFields plenum.toPlenum) {author : Option String}
    (hauthor : Plain (author.getD "None")) (hstatic : acceptsStatic plenum .schema op = true)
    (htxn : prepareForState plenum .schema author op = some txn) : txn.Wellformed := by
  simp only [prepareForState, Option.bind_eq_bind, Option.bind_eq_some_iff, Option.pure_def,
    Option.some.injEq] at htxn
  obtain ⟨schemaName, -, schemaVersion, hversion, rfl⟩ := htxn
  refine ⟨hauthor, ?_⟩
  obtain ⟨data, hdata, hvalid⟩ := exists_lookup hstatic (.tail _ (.head _)) rfl
  rw [messageField] at hdata
  rw [Operation.get_of_lookup hdata] at hversion
  cases data with
  | object fields =>
    have hfields : plenum.validateMessage (schemaField plenum) fields = true := hvalid
    obtain ⟨val, hval, hvalid⟩ := exists_lookup hfields (.tail _ (.head _)) rfl
    rw [versionField] at hval hvalid
    rw [index_object, Operation.get_of_lookup hval] at hversion
    obtain rfl := string_of_asStr hversion
    have hspecific : plenum.versionField (.string schemaVersion) = true :=
      specific_of_validateField hvalid
    exact colon_notMem_of_version hplenum hspecific
  | _ => cases hvalid

theorem wellformed_claimDef {author : Option String} (hauthor : Plain (author.getD "None"))
    (hstatic : acceptsStatic plenum .claimDef op = true)
    (htxn : prepareForState plenum .claimDef author op = some txn) : txn.Wellformed := by
  obtain ⟨ref, href, hvalid⟩ := exists_lookup hstatic (.tail _ (.head _)) rfl
  rw [txnSeqNoField] at href
  simp only [prepareForState, Operation.get_of_lookup href] at htxn
  split_ifs at htxn
  · cases htxn
  simp only [Option.bind_eq_bind, Option.bind_eq_some_iff, Option.pure_def, Option.some.injEq]
    at htxn
  obtain ⟨schemaSeqNo, hseqNo, signatureType, -, tag, -, rfl⟩ := htxn
  exact ⟨hauthor, colon_notMem_of_int hvalid hseqNo⟩

/-- The parts of an accepted transaction that the keys rely on have no colon. -/
theorem wellformed_of_accepted (hplenum : KeyFields plenum.toPlenum) {type : DomainType}
    {author : Option String}
    (hauthor : (author.all fun did => plenum.identifierField (.string did)) = true)
    (hstatic : acceptsStatic plenum type op = true)
    (htxn : prepareForState plenum type author op = some txn) :
    txn.Wellformed := by
  have hplain := plain_author hplenum hauthor
  cases type with
  | nym =>
    simp only [prepareForState, Option.bind_eq_bind, Option.bind_eq_some_iff, Option.pure_def,
      Option.some.injEq] at htxn
    obtain ⟨did, -, rfl⟩ := htxn
    trivial
  | attrib => exact wellformed_attrib hplenum hstatic htxn
  | schema => exact wellformed_schema hplenum hplain hstatic htxn
  | claimDef => exact wellformed_claimDef hplain hstatic htxn
  | revocRegDef =>
    simp only [prepareForState, Option.bind_eq_bind, Option.bind_eq_some_iff, Option.pure_def,
      Option.some.injEq] at htxn
    obtain ⟨authorsDid, rfl, credDefId, -, revocDefType, -, revocDefTag, -, rfl⟩ := htxn
    exact hplain
  | revocRegEntry =>
    simp only [prepareForState, Option.bind_eq_bind, Option.bind_eq_some_iff, Option.pure_def,
      Option.some.injEq] at htxn
    obtain ⟨_, -, revocRegDefId, -, rfl⟩ := htxn
    trivial

end Accepted

section Keys

variable {sha256 : Bytes → Bytes} {a b : DomainTxn}

namespace DomainTxn

/-- The text before the first colon of a key. -/
def owner : DomainTxn → String
  | nym _ => ""
  | attrib did _ _ => did
  | schema authorsDid _ _ => authorsDid
  | claimDef authorsDid _ _ _ => authorsDid
  | revocRegDef authorsDid _ _ _ => authorsDid
  | revocRegEntry _ => "5"

/-- The text after it. -/
def rest (sha256 : Bytes → Bytes) : DomainTxn → String
  | nym _ => ""
  | attrib _ attrType attrName => "1:" ++
      if attrType = .hash then attrName else hexdigest sha256 attrName
  | schema _ schemaName schemaVersion => "2:" ++ (schemaName ++ ":" ++ schemaVersion)
  | claimDef _ schemaSeqNo signatureType tag => "3:" ++
      (signatureType ++ ":" ++ (schemaSeqNo ++ ":" ++ tag))
  | revocRegDef _ credDefId revocDefType revocDefTag =>
    "4:" ++ (credDefId ++ ":" ++ (revocDefType ++ ":" ++ revocDefTag))
  | revocRegEntry revocRegDefId => revocRegDefId

theorem statePath_eq_text (h : a.type ≠ .nym) :
    a.statePath sha256 = asBytes (a.owner ++ ":" ++ a.rest sha256) := by
  cases a with
  | nym did => exact absurd rfl h
  | attrib did attrType attrName =>
    simp only [statePath, makeStatePathForAttr, owner, rest, decide_eq_true_eq, String.append_assoc]
    rfl
  | schema =>
    simp only [statePath, makeStatePathForSchema, owner, rest, String.append_assoc]
    rfl
  | claimDef =>
    simp only [statePath, makeStatePathForClaimDef, owner, rest, String.append_assoc]
    rfl
  | revocRegDef =>
    simp only [statePath, makeStatePathForRevocDef, owner, rest, String.append_assoc]
    rfl
  | revocRegEntry => rfl

end DomainTxn

theorem colon_join (s t : String) : (s ++ ":" ++ t).toList = s.toList ++ ':' :: t.toList := by
  simp

/-- The colon between `a` and `b` stands inside `a'`. -/
def ColonInside (a b a' b' : String) : Prop := EndsInside ':' a.toList b.toList a'.toList b'.toList

theorem colon_join_eq_iff {a b a' b' : String} : a ++ ":" ++ b = a' ++ ":" ++ b' ↔
    (a = a' ∧ b = b') ∨ ColonInside a b a' b' ∨ ColonInside a' b' a b := by
  rw [← String.toList_inj, colon_join, colon_join, joined_eq_iff, String.toList_inj,
    String.toList_inj]
  rfl

theorem colon_join_inj_of_left {a b a' b' : String} (ha : ':' ∉ a.toList) (ha' : ':' ∉ a'.toList) :
    a ++ ":" ++ b = a' ++ ":" ++ b' ↔ a = a' ∧ b = b' := by
  rw [← String.toList_inj, colon_join, colon_join, joined_inj_of_left ha ha', String.toList_inj,
    String.toList_inj]

theorem colon_join_inj_of_right {a b a' b' : String} (hb : ':' ∉ b.toList) (hb' : ':' ∉ b'.toList) :
    a ++ ":" ++ b = a' ++ ":" ++ b' ↔ a = a' ∧ b = b' := by
  rw [← String.toList_inj, colon_join, colon_join, joined_inj_of_right hb hb', String.toList_inj,
    String.toList_inj]

/-- The ways in which two objects share a key: a digest that spells the other key, a hash attribute
that is the digest of the other's name, and a colon inside a signature type, the id of a credential
definition or the type of a registry. -/
inductive Clash (sha256 : Bytes → Bytes) : DomainTxn → DomainTxn → Prop
  | digest {did : String} {other : DomainTxn} (htype : other.type ≠ .nym)
      (h : sha256 (asBytes did) = other.statePath sha256) : Clash sha256 (.nym did) other
  | attribHash {did hash name : String} {attrType : AttrType} (htype : attrType ≠ .hash)
      (h : hash = hexdigest sha256 name) (hne : hash ≠ name) :
      Clash sha256 (.attrib did .hash hash) (.attrib did attrType name)
  | signatureType {authorsDid ref signatureType tag ref' signatureType' tag' : String}
      (h : ColonInside signatureType (ref ++ ":" ++ tag) signatureType' (ref' ++ ":" ++ tag')) :
      Clash sha256 (.claimDef authorsDid ref signatureType tag)
      (.claimDef authorsDid ref' signatureType' tag')
  | credDefId {authorsDid id type tag id' type' tag' : String}
      (h : ColonInside id (type ++ ":" ++ tag) id' (type' ++ ":" ++ tag')) :
      Clash sha256 (.revocRegDef authorsDid id type tag) (.revocRegDef authorsDid id' type' tag')
  | revocDefType {authorsDid id type tag type' tag' : String}
      (h : ColonInside type tag type' tag') :
      Clash sha256 (.revocRegDef authorsDid id type tag) (.revocRegDef authorsDid id type' tag')

theorem ColonInside.join_eq {a b a' b' : String} (h : ColonInside a b a' b') :
    a ++ ":" ++ b = a' ++ ":" ++ b' :=
  colon_join_eq_iff.mpr (Or.inr (Or.inl h))

theorem ColonInside.ne {a b a' b' : String} (h : ColonInside a b a' b') : a ≠ a' := by
  intro heq
  exact EndsInside.ne h (congrArg String.toList heq)

theorem statePath_eq_of_text (hatype : a.type ≠ .nym) (hbtype : b.type ≠ .nym)
    (howner : a.owner = b.owner)
    (hrest : a.rest sha256 = b.rest sha256) : a.statePath sha256 = b.statePath sha256 := by
  rw [DomainTxn.statePath_eq_text hatype, DomainTxn.statePath_eq_text hbtype, howner, hrest]

/-- Objects that clash have the same key. -/
theorem Clash.statePath_eq (h : Clash sha256 a b) : a.statePath sha256 = b.statePath sha256 := by
  cases h with
  | digest htype h => exact h
  | attribHash htype h hne =>
    refine statePath_eq_of_text DomainType.noConfusion DomainType.noConfusion rfl ?_
    simp [DomainTxn.rest, htype, h]
  | signatureType h =>
    refine statePath_eq_of_text DomainType.noConfusion DomainType.noConfusion rfl ?_
    simp only [DomainTxn.rest, h.join_eq]
  | credDefId h =>
    refine statePath_eq_of_text DomainType.noConfusion DomainType.noConfusion rfl ?_
    simp only [DomainTxn.rest, h.join_eq]
  | revocDefType h =>
    refine statePath_eq_of_text DomainType.noConfusion DomainType.noConfusion rfl ?_
    simp only [DomainTxn.rest, h.join_eq]

/-- Objects that clash are different. -/
theorem Clash.not_sameObject (h : Clash sha256 a b) : ¬ a.SameObject b := by
  rintro ⟨htype, hfields⟩
  cases h with
  | digest hother => exact hother htype.symm
  | attribHash _ _ hne =>
    simp only [DomainTxn.identifyingFields, List.cons.injEq] at hfields
    exact hne hfields.2.1
  | signatureType h =>
    simp only [DomainTxn.identifyingFields, List.cons.injEq] at hfields
    exact h.ne hfields.2.1
  | credDefId h =>
    simp only [DomainTxn.identifyingFields, List.cons.injEq] at hfields
    exact h.ne hfields.2.1
  | revocDefType h =>
    simp only [DomainTxn.identifyingFields, List.cons.injEq] at hfields
    exact h.ne hfields.2.2.1

/-- Before the first colon a key has the owner, and after it a marker that tells the type. -/
theorem type_eq_of_text (ha : a.Wellformed) (hb : b.Wellformed) (hatype : a.type ≠ .nym)
    (hbtype : b.type ≠ .nym)
    (howner : a.owner = b.owner) (hrest : a.rest sha256 = b.rest sha256) : a.type = b.type := by
  have hhead := congrArg (fun s => s.toList.head?) hrest
  clear hrest
  cases a <;> cases b <;> simp_all [DomainTxn.type, DomainTxn.owner, DomainTxn.rest,
    DomainTxn.Wellformed, Plain]

theorem hexdigest_inj (hsha : Function.Injective sha256) {s t : String} :
    hexdigest sha256 s = hexdigest sha256 t ↔ s = t := by
  rw [hexdigest, hexdigest, hexEncode_inj, hsha.eq_iff, asBytes_inj]

theorem attrib_sameObject_or_clash (hsha : Function.Injective sha256) {did name name' : String}
    {attrType attrType' : AttrType}
    (h : (if attrType = .hash then name else hexdigest sha256 name) =
      if attrType' = .hash then name' else hexdigest sha256 name') :
    (DomainTxn.attrib did attrType name).SameObject (.attrib did attrType' name') ∨
      Clash sha256 (.attrib did attrType name) (.attrib did attrType' name') ∨
      Clash sha256 (.attrib did attrType' name') (.attrib did attrType name) := by
  by_cases hname : name = name'
  · subst hname
    exact Or.inl ⟨rfl, rfl⟩
  by_cases hhash : attrType = .hash <;> by_cases hhash' : attrType' = .hash
  · rw [if_pos hhash, if_pos hhash'] at h
    exact absurd h hname
  · rw [if_pos hhash, if_neg hhash'] at h
    subst hhash
    exact Or.inr (Or.inl (.attribHash hhash' h hname))
  · rw [if_neg hhash, if_pos hhash'] at h
    subst hhash'
    exact Or.inr (Or.inr (.attribHash hhash h.symm (Ne.symm hname)))
  · rw [if_neg hhash, if_neg hhash', hexdigest_inj hsha] at h
    exact absurd h hname

theorem claimDef_sameObject_or_clash {author ref type tag ref' type' tag' : String}
    (href : ':' ∉ ref.toList) (href' : ':' ∉ ref'.toList)
    (h : type ++ ":" ++ (ref ++ ":" ++ tag) = type' ++ ":" ++ (ref' ++ ":" ++ tag')) :
    (DomainTxn.claimDef author ref type tag).SameObject (.claimDef author ref' type' tag') ∨
      Clash sha256 (.claimDef author ref type tag) (.claimDef author ref' type' tag') ∨
      Clash sha256 (.claimDef author ref' type' tag') (.claimDef author ref type tag) := by
  rcases colon_join_eq_iff.mp h with ⟨rfl, hrest⟩ | hinside | hinside
  · obtain ⟨rfl, rfl⟩ := (colon_join_inj_of_left href href').mp hrest
    exact Or.inl ⟨rfl, rfl⟩
  · exact Or.inr (Or.inl (.signatureType hinside))
  · exact Or.inr (Or.inr (.signatureType hinside))

theorem revocRegDef_sameObject_or_clash {author id type tag id' type' tag' : String}
    (h : id ++ ":" ++ (type ++ ":" ++ tag) = id' ++ ":" ++ (type' ++ ":" ++ tag')) :
    (DomainTxn.revocRegDef author id type tag).SameObject (.revocRegDef author id' type' tag') ∨
      Clash sha256 (.revocRegDef author id type tag) (.revocRegDef author id' type' tag') ∨
      Clash sha256 (.revocRegDef author id' type' tag') (.revocRegDef author id type tag) := by
  rcases colon_join_eq_iff.mp h with ⟨rfl, hrest⟩ | hinside | hinside
  · rcases colon_join_eq_iff.mp hrest with ⟨rfl, rfl⟩ | hinside | hinside
    · exact Or.inl ⟨rfl, rfl⟩
    · exact Or.inr (Or.inl (.revocDefType hinside))
    · exact Or.inr (Or.inr (.revocDefType hinside))
  · exact Or.inr (Or.inl (.credDefId hinside))
  · exact Or.inr (Or.inr (.credDefId hinside))

/-- Keys of one type that have the same text. -/
theorem sameObject_or_clash_of_text (hsha : Function.Injective sha256) (ha : a.Wellformed)
    (hb : b.Wellformed)
    (htype : a.type = b.type) (hnym : a.type ≠ .nym) (howner : a.owner = b.owner)
    (hrest : a.rest sha256 = b.rest sha256) :
    a.SameObject b ∨ Clash sha256 a b ∨ Clash sha256 b a := by
  cases a with
  | nym did => exact absurd rfl hnym
  | attrib did attrType attrName =>
    cases b with
    | attrib did' attrType' attrName' =>
      obtain rfl : did = did' := howner
      exact attrib_sameObject_or_clash hsha ((String.append_right_inj _).mp hrest)
    | _ => cases htype
  | schema authorsDid schemaName schemaVersion =>
    cases b with
    | schema authorsDid' schemaName' schemaVersion' =>
      obtain rfl : authorsDid = authorsDid' := howner
      obtain ⟨rfl, rfl⟩ :=
        (colon_join_inj_of_right ha.2 hb.2).mp ((String.append_right_inj _).mp hrest)
      exact Or.inl ⟨rfl, rfl⟩
    | _ => cases htype
  | claimDef authorsDid schemaSeqNo signatureType tag =>
    cases b with
    | claimDef authorsDid' schemaSeqNo' signatureType' tag' =>
      obtain rfl : authorsDid = authorsDid' := howner
      exact claimDef_sameObject_or_clash ha.2 hb.2 ((String.append_right_inj _).mp hrest)
    | _ => cases htype
  | revocRegDef authorsDid credDefId revocDefType revocDefTag =>
    cases b with
    | revocRegDef authorsDid' credDefId' revocDefType' revocDefTag' =>
      obtain rfl : authorsDid = authorsDid' := howner
      exact revocRegDef_sameObject_or_clash ((String.append_right_inj _).mp hrest)
    | _ => cases htype
  | revocRegEntry revocRegDefId =>
    cases b with
    | revocRegEntry revocRegDefId' =>
      obtain rfl : revocRegDefId = revocRegDefId' := hrest
      exact Or.inl ⟨rfl, rfl⟩
    | _ => cases htype

theorem colon_notMem_owner (ha : a.Wellformed) : ':' ∉ a.owner.toList := by
  cases a with
  | nym =>
    change ':' ∉ "".toList
    decide
  | attrib => exact ha.1
  | schema => exact ha.1.1
  | claimDef => exact ha.1.1
  | revocRegDef => exact ha.1
  | revocRegEntry =>
    change ':' ∉ "5".toList
    decide

/-- Two objects with the same key are one, or clash. -/
theorem sameObject_or_clash (hsha : Function.Injective sha256) (ha : a.Wellformed)
    (hb : b.Wellformed) (h : a.statePath sha256 = b.statePath sha256) :
    a.SameObject b ∨ Clash sha256 a b ∨ Clash sha256 b a := by
  by_cases hanym : a.type = .nym
  · cases a with
    | nym did =>
      by_cases hbnym : b.type = .nym
      · cases b with
        | nym did' =>
          obtain rfl := (makeStatePathForNym_inj hsha).mp h
          exact Or.inl ⟨rfl, rfl⟩
        | _ => cases hbnym
      · exact Or.inr (Or.inl (.digest hbnym h))
    | _ => cases hanym
  · by_cases hbnym : b.type = .nym
    · cases b with
      | nym did' => exact Or.inr (Or.inr (.digest hanym h.symm))
      | _ => cases hbnym
    · rw [DomainTxn.statePath_eq_text hanym, DomainTxn.statePath_eq_text hbnym, asBytes_inj,
        colon_join_inj_of_left (colon_notMem_owner ha) (colon_notMem_owner hb)] at h
      have htype := type_eq_of_text ha hb hanym hbnym h.1 h.2
      exact sameObject_or_clash_of_text hsha ha hb htype hanym h.1 h.2

end Keys

section Sample

/-- Plenum, as far as credential definitions go through it. -/
def sampleWritePlenum : WritePlenum :=
  { standardPlenum with
    clientNymOperation := standardPlenum.validateMessage
      [domainTypeField .nym, identifierField standardPlenum "dest" false]
    jsonField := fun maxLength val => val.asStr.any fun s => s.length ≤ maxLength
    jsonFieldLimit := 5 * 1024
    defaultLengthLimit := 256
    isNetworkIpAddressValid := fun _ => false
    isNetworkPortValid := fun _ => false
    jsonLoads := fun _ => none }

theorem keyFields_standardPlenum : KeyFields standardPlenum := by
  constructor
  · intro s h
    rcases hlength : base58Length s with _ | length
    · simp [standardPlenum, Json.asStr, hlength] at h
    · simpa [standardPlenum, Json.asStr, hlength] using h
  · intro s h c hc
    simp only [standardPlenum, Json.asStr, Option.any_some, Bool.and_eq_true, List.all_eq_true] at h
    rcases mem_splitOn (c := '.') hc with hdot | ⟨part, hpart, hmem⟩
    · exact Or.inl hdot
    · exact Or.inr ((h.2 part hpart).2 c hmem)

def sampleClaimDef (ref : ℕ) (signatureType tag : String) : DomainRequest :=
  ⟨.single "V4SGRU86Z58d6TV7PBUe6f", .claimDef,
    [("type", .string "102"), ("ref", .number (.posInt ref)),
      ("data", .object [("primary", .object [])]),
      ("signature_type", .string signatureType), ("tag", .string tag)]⟩

/-- The trustee is on the ledger, and so are two schemas. -/
def sampleDomainNode (state : DomainState) : DomainNode where
  cache did :=
    if did = "V4SGRU86Z58d6TV7PBUe6f" then
      some (IdrCache.packIdrValue 1 none none (some "0") (some "~CoRER63DVYnWZtK8uAzNbx"))
    else none
  ledger ref := if ref = .number (.posInt 5) ∨ ref = .number (.posInt 6) then some "101" else none
  state := state
  attributeStore _ := none
  revocState := ⟨fun _ => none, fun _ => none, fun _ => none⟩

/-- The state after the first credential definition. -/
def sampleClaimDefState (key : Bytes) : Option StateRecord :=
  if key = makeStatePathForClaimDef "V4SGRU86Z58d6TV7PBUe6f" "6" "CL:5" "t" then
    some ⟨.object [("primary", .object [])], 7, 1000⟩
  else none

theorem accepts_sampleClaimDef :
    acceptsDomain sampleWritePlenum sampleNymSha256 authMap (sampleDomainNode sampleClaimDefState)
      (sampleClaimDef 5 "CL" "6:t") = true := by
  decide

end Sample

end SimpleAsset.IndyNode
