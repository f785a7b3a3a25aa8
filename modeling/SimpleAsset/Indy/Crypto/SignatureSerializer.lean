import SimpleAsset.Library.Decimal
import SimpleAsset.Indy.Primitive
import SimpleAsset.Indy.Wql.JsonText

/-! The text of a request that is signed (signature_serializer.rs), and what it tells about the
request. -/
namespace SimpleAsset.Indy.Signature
open SimpleAsset.Library
open Json (numberText)

section Serializer
variable (sha256 : Bytes → Bytes)

def attrib : String := "100"
def getAttr : String := "104"

def boolText (b : Bool) : String := if b then "True" else "False"

/-- The fields that are left out at the top level. -/
def isSkipped (key : String) : Bool := key = "signature" || key = "fees" || key = "signatures"

/-- The fields whose values are only signed by their hashes, for the types about attributes. -/
def isHashed (type : Option String) (key : String) : Bool :=
  (type = some attrib || type = some getAttr) && (key = "raw" || key = "hash" || key = "enc")

def hashText (s : String) : String := hexEncode (sha256 (asBytes s))

/-- A hashed value is a string, which is its own serialization. -/
def serializeHashed (value : Json) : IndyResult String :=
  match value.asStr with
  | some s => .ok (hashText sha256 s)
  | none => .error ⟨.invalidState, "Cannot update hash context"⟩

mutual

/-- `_serialize_signature`. -/
def serialize (isTopLevel : Bool) (type : Option String) : Json → IndyResult String
  | .bool b => .ok (boolText b)
  | .number n => .ok (String.ofList (numberText n))
  | .string s => .ok s
  | .array items => do
    let res ← serializeItems type items
    pure (",".intercalate res)
  | .object fields => serializeFields isTopLevel type fields "" false
  | .null => .ok ""

def serializeItems (type : Option String) : List Json → IndyResult (List String)
  | [] => .ok []
  | element :: items => do
    let text ← serialize false type element
    let res ← serializeItems type items
    pure (text :: res)

/-- The loop over the fields. -/
def serializeFields (isTopLevel : Bool) (type : Option String) :
    List (String × Json) → String → Bool → IndyResult String
  | [], result, _ => .ok result
  | (key, value) :: fields, result, inMiddle =>
    if isTopLevel && isSkipped key then serializeFields isTopLevel type fields result inMiddle
    else do
      let result := if inMiddle then result ++ "|" else result
      let text ← (if isHashed type key then serializeHashed sha256 value
          else serialize false type value)
      serializeFields isTopLevel type fields (result ++ key ++ ":" ++ text) true

end

/-- `v["operation"]["type"].as_str()`. -/
def typeOf (v : Json) : Option String := ((v.index "operation").index "type").asStr

def serializeSignature (v : Json) : IndyResult String := serialize sha256 true (typeOf v) v

end Serializer

section Content
variable (sha256 : Bytes → Bytes)

/-- A request without the fields that are left out. -/
def signedPart : Json → Json
  | .object fields => .object (fields.filter fun field => !isSkipped field.1)
  | j => j

def hashedValue : Json → Json
  | .string s => .string (hashText sha256 s)
  | j => j

mutual

/-- A document with hashes for the values that are signed by them. -/
def hashed (type : Option String) : Json → Json
  | .array items => .array (hashedItems type items)
  | .object fields => .object (hashedFields type fields)
  | j => j

def hashedItems (type : Option String) : List Json → List Json
  | [] => []
  | value :: items => hashed type value :: hashedItems type items

def hashedFields (type : Option String) : List (String × Json) → List (String × Json)
  | [] => []
  | (key, value) :: fields =>
    (key, if isHashed type key then hashedValue sha256 value else hashed type value) ::
      hashedFields type fields

end

/-- What a signature is about. -/
def bound (v : Json) : Json := hashed sha256 (typeOf v) (signedPart v)

/-- The texts of the names and of the values in a serialization, and what stands between them. -/
inductive Piece
  | name (text : List Char)
  | leaf (text : List Char)
  | colon
  | bar
  | comma
  deriving DecidableEq, Repr

def Piece.chars : Piece → List Char
  | name text | leaf text => text
  | colon => [':']
  | bar => ['|']
  | comma => [',']

mutual

def pieces : Json → List Piece
  | .null => [.leaf []]
  | .bool b => [.leaf (boolText b).toList]
  | .number n => [.leaf (numberText n)]
  | .string s => [.leaf s.toList]
  | .array items => itemsPieces items
  | .object fields => fieldsPieces fields

def itemsPieces : List Json → List Piece
  | [] => [.leaf []]
  | value :: items => pieces value ++ moreItemsPieces items

def moreItemsPieces : List Json → List Piece
  | [] => []
  | value :: items => .comma :: (pieces value ++ moreItemsPieces items)

def fieldsPieces : List (String × Json) → List Piece
  | [] => [.leaf []]
  | (key, value) :: fields =>
    .name key.toList :: .colon :: (pieces value ++ moreFieldsPieces fields)

def moreFieldsPieces : List (String × Json) → List Piece
  | [] => []
  | (key, value) :: fields =>
    .bar :: .name key.toList :: .colon :: (pieces value ++ moreFieldsPieces fields)

end

def flat (ps : List Piece) : List Char := ps.flatMap Piece.chars

@[simp] theorem flat_nil : flat [] = [] := rfl

@[simp] theorem flat_cons (p : Piece) (ps : List Piece) : flat (p :: ps) = p.chars ++ flat ps := rfl

@[simp] theorem flat_append (ps qs : List Piece) : flat (ps ++ qs) = flat ps ++ flat qs :=
  List.flatMap_append

def numberKind : JsonNumber → JsonNumber
  | .posInt _ => .posInt 0
  | .negInt _ => .negInt 0
  | .float _ => .float ""

mutual

/-- A document without the texts of its values: the names, the lengths of the arrays and the kinds
of the values. -/
def shape : Json → Json
  | .null => .null
  | .bool _ => .bool false
  | .number n => .number (numberKind n)
  | .string _ => .string ""
  | .array items => .array (itemsShape items)
  | .object fields => .object (fieldsShape fields)

def itemsShape : List Json → List Json
  | [] => []
  | value :: items => shape value :: itemsShape items

def fieldsShape : List (String × Json) → List (String × Json)
  | [] => []
  | (key, value) :: fields => (key, shape value) :: fieldsShape fields

end

end Content

section Serialized
variable {sha256 : Bytes → Bytes} {type : Option String}

theorem toList_serializeHashed {value : Json} {text : String}
    (h : serializeHashed sha256 value = .ok text) :
    text.toList = flat (pieces (hashedValue sha256 value)) := by
  unfold serializeHashed at h
  cases value with
  | string s =>
    rw [← Except.ok.inj h, hashedValue, pieces]
    simp [Piece.chars]
  | _ => cases h

theorem toList_intercalate {text : String} {texts : List String} :
    (",".intercalate (text :: texts)).toList = text.toList ++
    texts.flatMap fun text => ',' :: text.toList := by
  induction texts generalizing text with
  | nil => simp
  | cons text' texts ih =>
    rw [String.intercalate_cons_cons, String.toList_append, String.toList_append, ih,
      List.flatMap_cons, List.append_assoc]
    rfl

mutual

theorem toList_serialize : (v : Json) →
    ∀ {isTopLevel : Bool} {s : String}, serialize sha256 isTopLevel type v = .ok s →
    s.toList = flat (pieces (hashed sha256 type (if isTopLevel then signedPart v else v)))
  | .null, isTopLevel, s, h | .bool b, isTopLevel, s, h | .number n, isTopLevel, s, h | .string t,
      isTopLevel, s, h => by
    rw [serialize] at h
    rw [← Except.ok.inj h]
    cases isTopLevel <;> simp [signedPart, hashed, pieces, Piece.chars]
  | .array items, isTopLevel, s, h => by
    have hpart : (if isTopLevel then signedPart (.array items) else .array items) =
        .array items := by
      cases isTopLevel <;> rfl
    rw [serialize] at h
    obtain ⟨res, hres, hs⟩ := except_bind_eq_ok.mp h
    rw [← Except.ok.inj hs, hpart, hashed, pieces]
    cases items with
    | nil =>
      rw [← Except.ok.inj hres]
      rfl
    | cons element items =>
      obtain ⟨text, htext, hitems⟩ := except_bind_eq_ok.mp hres
      obtain ⟨texts, htexts, hcons⟩ := except_bind_eq_ok.mp hitems
      have hfirst := toList_serialize element htext
      rw [if_neg Bool.false_ne_true] at hfirst
      rw [← Except.ok.inj hcons, toList_intercalate, hfirst, toList_serializeItems items htexts,
        hashedItems, itemsPieces, flat_append]
  | .object fields, isTopLevel, s, h => by
    rw [serialize] at h
    rw [toList_serializeFields fields h, String.toList_empty, List.nil_append,
      if_neg Bool.false_ne_true]
    cases isTopLevel with
    | true => rfl
    | false => simp [hashed, pieces]

theorem toList_serializeItems : (items : List Json) → ∀ {res : List String},
    serializeItems sha256 type items = .ok res →
    (res.flatMap fun text => ',' :: text.toList) = flat
      (moreItemsPieces (hashedItems sha256 type items))
  | [], res, h => by
    rw [serializeItems] at h
    rw [← Except.ok.inj h]
    rfl
  | element :: items, res, h => by
    rw [serializeItems] at h
    obtain ⟨text, htext, hitems⟩ := except_bind_eq_ok.mp h
    obtain ⟨texts, htexts, hcons⟩ := except_bind_eq_ok.mp hitems
    have hfirst := toList_serialize element htext
    rw [if_neg Bool.false_ne_true] at hfirst
    rw [← Except.ok.inj hcons, List.flatMap_cons, hfirst, toList_serializeItems items htexts,
      hashedItems, moreItemsPieces, flat_cons, flat_append]
    rfl

theorem toList_serializeFields : (fields : List (String × Json)) →
    ∀ {isTopLevel : Bool} {result : String} {inMiddle : Bool} {s : String},
      serializeFields sha256 isTopLevel type fields result inMiddle = .ok s →
    s.toList = result.toList ++ flat ((if inMiddle then moreFieldsPieces else fieldsPieces)
      (hashedFields sha256 type (fields.filter fun field => !(isTopLevel && isSkipped field.1))))
  | [], isTopLevel, result, inMiddle, s, h => by
    rw [serializeFields] at h
    rw [← Except.ok.inj h]
    cases inMiddle <;> simp [hashedFields, fieldsPieces, moreFieldsPieces, Piece.chars]
  | (key, value) :: fields, isTopLevel, result, inMiddle, s, h => by
    rw [serializeFields] at h
    split at h
    · rename_i hskipped
      rw [toList_serializeFields fields h, List.filter_cons_of_neg (by simp only [hskipped]; simp)]
    · rename_i hsigned
      obtain ⟨text, htext, hfields⟩ := except_bind_eq_ok.mp h
      have hvalue : text.toList =
          flat (pieces (if isHashed type key then hashedValue sha256 value
            else hashed sha256 type value)) := by
        split at htext
        · rename_i hhashed
          rw [if_pos hhashed, toList_serializeHashed htext]
        · rename_i hplain
          rw [if_neg hplain, toList_serialize value htext, if_neg Bool.false_ne_true]
      rw [toList_serializeFields fields hfields, if_pos rfl,
        List.filter_cons_of_pos (by rw [Bool.eq_false_of_not_eq_true hsigned]; rfl), hashedFields]
      cases inMiddle <;> simp [fieldsPieces, moreFieldsPieces, Piece.chars, hvalue]

end

/-- What is signed is the text of what a signature is about. -/
theorem toList_serializeSignature {v : Json} {s : String}
    (h : serializeSignature sha256 v = .ok s) :
    s.toList = flat (pieces (bound sha256 v)) := toList_serialize v h

end Serialized

section Cut

def Piece.push (c : Char) : Piece → Piece
  | name text => name (c :: text)
  | leaf text => leaf (c :: text)
  | p => p

/-- The pieces of a text: what stands before a colon is a name. -/
def cut : List Char → List Piece
  | [] => [.leaf []]
  | c :: text =>
    if c = ':' then .name [] :: .colon :: cut text
    else if c = '|' then .leaf [] :: .bar :: cut text
    else if c = ',' then .leaf [] :: .comma :: cut text
    else (cut text).modifyHead (Piece.push c)

/-- The separators are not in the text. -/
def Unmarked (text : List Char) : Prop := ∀ c ∈ text, c ≠ ':' ∧ c ≠ '|' ∧ c ≠ ','

def Piece.Unmarked (p : Piece) : Prop :=
  match p with
  | name text | leaf text => Signature.Unmarked text
  | _ => True

/-- At the end of a value. -/
def Ends (rest : List Char) : Prop := ∀ c ∈ rest.head?, c = '|' ∨ c = ','

theorem ends_nil : Ends [] := nofun

theorem ends_bar (rest : List Char) : Ends ('|' :: rest) := by
  rintro _ ⟨⟩
  exact Or.inl rfl

theorem ends_comma (rest : List Char) : Ends (',' :: rest) := by
  rintro _ ⟨⟩
  exact Or.inr rfl

theorem cut_leaf {text rest : List Char} (htext : Unmarked text) (hrest : Ends rest) :
    cut (text ++ rest) = .leaf text :: (cut rest).tail := by
  induction text with
  | nil =>
    cases rest with
    | nil => rfl
    | cons c rest => rcases hrest c rfl with rfl | rfl <;> rfl
  | cons c text ih =>
    obtain ⟨hc, htext⟩ := List.forall_mem_cons.mp htext
    rw [List.cons_append, cut, if_neg hc.1, if_neg hc.2.1, if_neg hc.2.2, ih htext]
    rfl

theorem cut_name {text : List Char} (htext : Unmarked text) (rest : List Char) :
    cut (text ++ ':' :: rest) = .name text :: .colon :: cut rest := by
  induction text with
  | nil => rfl
  | cons c text ih =>
    obtain ⟨hc, htext⟩ := List.forall_mem_cons.mp htext
    rw [List.cons_append, cut, if_neg hc.1, if_neg hc.2.1, if_neg hc.2.2, ih htext]
    rfl

theorem ends_moreItems (items : List Json) {rest : List Char} (hrest : Ends rest) :
    Ends (flat (moreItemsPieces items) ++ rest) := by
  cases items with
  | nil => exact hrest
  | cons value items => exact ends_comma _

theorem ends_moreFields (fields : List (String × Json)) {rest : List Char} (hrest : Ends rest) :
    Ends (flat (moreFieldsPieces fields) ++ rest) := by
  cases fields with
  | nil => exact hrest
  | cons field fields => exact ends_bar _

mutual

theorem cut_pieces : (j : Json) → (∀ p ∈ pieces j, p.Unmarked) → ∀ {rest : List Char}, Ends rest →
    cut (flat (pieces j) ++ rest) = pieces j ++ (cut rest).tail
  | .null, h, rest, hrest | .bool b, h, rest, hrest | .number n, h, rest, hrest | .string s, h,
      rest, hrest => by
    rw [pieces] at h ⊢
    rw [flat_cons, flat_nil, List.append_nil]
    exact cut_leaf (h _ List.mem_cons_self) hrest
  | .array [], h, rest, hrest | .object [], h, rest, hrest => by
    have hempty : Unmarked [] := nofun
    exact cut_leaf hempty hrest
  | .array (value :: items), h, rest, hrest => by
    rw [pieces, itemsPieces, List.forall_mem_append] at h
    rw [pieces, itemsPieces, flat_append, List.append_assoc,
      cut_pieces value h.1 (ends_moreItems items hrest),
      cut_moreItems items h.2 hrest, List.append_assoc]
  | .object ((key, value) :: fields), h, rest, hrest => by
    rw [pieces, fieldsPieces] at h ⊢
    obtain ⟨hkey, -, hvalue, hfields⟩ := by
      simpa only [List.forall_mem_cons, List.forall_mem_append] using h
    simp only [flat_cons, flat_append, Piece.chars, List.append_assoc, List.cons_append,
      List.nil_append]
    rw [cut_name hkey, cut_pieces value hvalue (ends_moreFields fields hrest),
      cut_moreFields fields hfields hrest]

theorem cut_moreItems : (items : List Json) → (∀ p ∈ moreItemsPieces items, p.Unmarked) →
    ∀ {rest : List Char},
    Ends rest → (cut (flat (moreItemsPieces items) ++ rest)).tail = moreItemsPieces items ++
    (cut rest).tail
  | [], _, rest, _ => rfl
  | value :: items, h, rest, hrest => by
    rw [moreItemsPieces] at h ⊢
    obtain ⟨-, hvalue, hitems⟩ := by
      simpa only [List.forall_mem_cons, List.forall_mem_append] using h
    simp only [flat_cons, flat_append, Piece.chars, List.append_assoc, List.cons_append,
      List.nil_append]
    rw [cut, if_neg (by decide), if_neg (by decide), if_pos rfl, List.tail_cons,
      cut_pieces value hvalue (ends_moreItems items hrest), cut_moreItems items hitems hrest]

theorem cut_moreFields : (fields : List (String × Json)) →
    (∀ p ∈ moreFieldsPieces fields, p.Unmarked) →
    ∀ {rest : List Char}, Ends rest →
    (cut (flat (moreFieldsPieces fields) ++ rest)).tail = moreFieldsPieces fields ++ (cut rest).tail
  | [], _, rest, _ => rfl
  | (key, value) :: fields, h, rest, hrest => by
    rw [moreFieldsPieces] at h ⊢
    obtain ⟨-, hkey, -, hvalue, hfields⟩ := by
      simpa only [List.forall_mem_cons, List.forall_mem_append] using h
    simp only [flat_cons, flat_append, Piece.chars, List.append_assoc, List.cons_append,
      List.nil_append]
    rw [cut, if_neg (by decide), if_pos rfl, List.tail_cons, cut_name hkey,
      cut_pieces value hvalue (ends_moreFields fields hrest), cut_moreFields fields hfields hrest]

end

theorem cut_flat_pieces {j : Json} (h : ∀ p ∈ pieces j, p.Unmarked) :
    cut (flat (pieces j)) = pieces j := by
  have hcut := cut_pieces j h ends_nil
  simpa [cut] using hcut

/-- Documents without separators in their texts: the serialization is the sequence of pieces. -/
theorem flat_pieces_inj {j j' : Json} (h : ∀ p ∈ pieces j, p.Unmarked)
    (h' : ∀ p ∈ pieces j', p.Unmarked) :
    flat (pieces j) = flat (pieces j') ↔ pieces j = pieces j' := by
  constructor
  · intro heq
    rw [← cut_flat_pieces h, heq, cut_flat_pieces h']
  · exact congrArg flat

end Cut

section Shape

/-- The text is not cut by what can end a value. -/
def Unbroken (text : List Char) : Prop := ∀ c ∈ text, c ≠ '|' ∧ c ≠ ','

instance (text : List Char) : Decidable (Unbroken text) :=
  decidable_of_iff (text.all fun c => c ≠ '|' && c ≠ ',') (by simp [Unbroken])

/-- No value of the document has a separator that can end a value. -/
def UnbrokenLeaves (ps : List Piece) : Prop := ∀ text, Piece.leaf text ∈ ps → Unbroken text

def Piece.isUnbroken : Piece → Bool
  | leaf text => decide (Unbroken text)
  | _ => true

instance (ps : List Piece) : Decidable (UnbrokenLeaves ps) :=
  decidable_of_iff (ps.all Piece.isUnbroken) <| by
    rw [List.all_eq_true]
    constructor
    · exact fun h text htext => of_decide_eq_true (h _ htext)
    · rintro h (text | text | _ | _ | _) hp
      case leaf => exact decide_eq_true (h text hp)
      all_goals rfl

theorem unbrokenLeaves_append {ps qs : List Piece} (h : UnbrokenLeaves (ps ++ qs)) :
    UnbrokenLeaves ps ∧ UnbrokenLeaves qs :=
  ⟨fun text htext => h text (List.mem_append_left qs htext), fun text htext =>
    h text (List.mem_append_right ps htext)⟩

theorem unbrokenLeaves_cons {p : Piece} {ps : List Piece} (h : UnbrokenLeaves (p :: ps)) :
    UnbrokenLeaves ps :=
  fun text htext => h text (List.mem_cons_of_mem p htext)

/-- A value ends at the first separator behind it. -/
theorem leaf_inj {text text' rest rest' : List Char} (htext : Unbroken text)
    (htext' : Unbroken text') (hrest : Ends rest)
    (hrest' : Ends rest') (h : text ++ rest = text' ++ rest') : text = text' ∧ rest = rest' := by
  have htake : ∀ {text rest : List Char}, Unbroken text → Ends rest →
      (text ++ rest).takeWhile (fun c => c ≠ '|' && c ≠ ',') = text := by
    intro text rest htext hrest
    rw [List.takeWhile_append_of_pos fun c hc => by simpa using htext c hc]
    cases rest with
    | nil => simp
    | cons c rest => rcases hrest c rfl with rfl | rfl <;> simp
  have heq : text = text' := by rw [← htake htext hrest, h, htake htext' hrest']
  rw [heq] at h
  exact ⟨heq, List.append_cancel_left h⟩

theorem numberText_inj {n n' : JsonNumber} (hkind : numberKind n = numberKind n')
    (h : numberText n = numberText n') :
    n = n' := by
  cases n <;> cases n' <;> simp only [numberKind, reduceCtorEq] at hkind
  · rw [numberText, numberText, toList_repr, toList_repr] at h
    exact congrArg JsonNumber.posInt (toDigits_inj h)
  · exact congrArg JsonNumber.negInt (intText_inj h)
  · exact congrArg JsonNumber.float (String.toList_inj.mp h)

theorem boolText_inj {b b' : Bool} (h : (boolText b).toList = (boolText b').toList) : b = b' := by
  revert h
  cases b <;> cases b' <;> decide

theorem unbrokenLeaves_moreItems {items : List Json} (h : UnbrokenLeaves (itemsPieces items)) :
    UnbrokenLeaves (moreItemsPieces items) := by
  cases items with
  | nil => exact nofun
  | cons value items =>
    exact fun text htext => h text (by simpa [moreItemsPieces, itemsPieces] using htext)

theorem unbrokenLeaves_moreFields {fields : List (String × Json)}
    (h : UnbrokenLeaves (fieldsPieces fields)) :
    UnbrokenLeaves (moreFieldsPieces fields) := by
  cases fields with
  | nil => exact nofun
  | cons field fields =>
    exact fun text htext => h text (by simpa [moreFieldsPieces, fieldsPieces] using htext)

theorem flat_moreItems_eq {items items' : List Json} (hshape : itemsShape items = itemsShape items')
    {rest rest' : List Char}
    (h : flat (itemsPieces items) ++ rest = flat (itemsPieces items') ++ rest') :
    flat (moreItemsPieces items) ++ rest = flat (moreItemsPieces items') ++ rest' := by
  cases items with
  | nil =>
    cases items' with
    | nil => exact h
    | cons value' items' => cases hshape
  | cons value items =>
    cases items' with
    | nil => cases hshape
    | cons value' items' => exact congrArg (List.cons ',') h

theorem flat_moreFields_eq {fields fields' : List (String × Json)}
    (hshape : fieldsShape fields = fieldsShape fields') {rest rest' : List Char}
    (h : flat (fieldsPieces fields) ++ rest = flat (fieldsPieces fields') ++ rest') :
    flat (moreFieldsPieces fields) ++ rest = flat (moreFieldsPieces fields') ++ rest' := by
  cases fields with
  | nil =>
    cases fields' with
    | nil => exact h
    | cons field' fields' => cases hshape
  | cons field fields =>
    cases fields' with
    | nil => cases hshape
    | cons field' fields' => exact congrArg (List.cons '|') h

mutual

/-- Of two documents of one shape, the values can be told apart. -/
theorem eq_of_shape : (j j' : Json) → shape j = shape j' → UnbrokenLeaves (pieces j) →
    UnbrokenLeaves (pieces j') →
    ∀ {rest rest' : List Char}, Ends rest → Ends rest' → flat (pieces j) ++
      rest = flat (pieces j') ++ rest' →
    j = j' ∧ rest = rest'
  | .null, j', hshape, _, _, rest, rest', _, _, h => by
    cases j' <;> simp only [shape, reduceCtorEq] at hshape
    exact ⟨rfl, h⟩
  | .bool b, j', hshape, hj, hj', rest, rest', hrest, hrest', h => by
    cases j' <;> simp only [shape, reduceCtorEq] at hshape
    rename_i b'
    simp only [pieces, flat_cons, flat_nil, List.append_nil] at h hj hj'
    obtain ⟨htext, hrest⟩ :=
      leaf_inj (hj _ List.mem_cons_self) (hj' _ List.mem_cons_self) hrest hrest' h
    exact ⟨congrArg Json.bool (boolText_inj htext), hrest⟩
  | .number n, j', hshape, hj, hj', rest, rest', hrest, hrest', h => by
    cases j' <;> simp only [shape, reduceCtorEq, Json.number.injEq] at hshape
    rename_i n'
    simp only [pieces, flat_cons, flat_nil, List.append_nil] at h hj hj'
    obtain ⟨htext, hrest⟩ :=
      leaf_inj (hj _ List.mem_cons_self) (hj' _ List.mem_cons_self) hrest hrest' h
    exact ⟨congrArg Json.number (numberText_inj hshape htext), hrest⟩
  | .string s, j', hshape, hj, hj', rest, rest', hrest, hrest', h => by
    cases j' <;> simp only [shape, reduceCtorEq] at hshape
    rename_i s'
    simp only [pieces, flat_cons, flat_nil, List.append_nil] at h hj hj'
    obtain ⟨htext, hrest⟩ :=
      leaf_inj (hj _ List.mem_cons_self) (hj' _ List.mem_cons_self) hrest hrest' h
    exact ⟨congrArg Json.string (String.toList_inj.mp htext), hrest⟩
  | .array items, j', hshape, hj, hj', rest, rest', hrest, hrest', h => by
    cases j' <;> simp only [shape, reduceCtorEq, Json.array.injEq] at hshape
    rename_i items'
    obtain ⟨hitems, hrest⟩ := eq_of_itemsShape items items' hshape (unbrokenLeaves_moreItems hj)
      (unbrokenLeaves_moreItems hj') hrest hrest' (flat_moreItems_eq hshape h)
    exact ⟨congrArg Json.array hitems, hrest⟩
  | .object fields, j', hshape, hj, hj', rest, rest', hrest, hrest', h => by
    cases j' <;> simp only [shape, reduceCtorEq, Json.object.injEq] at hshape
    rename_i fields'
    obtain ⟨hfields, hrest⟩ :=
      eq_of_fieldsShape fields fields' hshape (unbrokenLeaves_moreFields hj)
      (unbrokenLeaves_moreFields hj') hrest hrest' (flat_moreFields_eq hshape h)
    exact ⟨congrArg Json.object hfields, hrest⟩

theorem eq_of_itemsShape : (items items' : List Json) → itemsShape items = itemsShape items' →
    UnbrokenLeaves (moreItemsPieces items) → UnbrokenLeaves (moreItemsPieces items') →
    ∀ {rest rest' : List Char}, Ends rest → Ends rest' →
    flat (moreItemsPieces items) ++ rest = flat (moreItemsPieces items') ++ rest' → items = items' ∧
    rest = rest'
  | [], items', hshape, _, _, rest, rest', _, _, h => by
    cases items' with
    | nil => exact ⟨rfl, h⟩
    | cons value items' => simp [itemsShape] at hshape
  | value :: items, items', hshape, hj, hj', rest, rest', hrest, hrest', h => by
    cases items' with
    | nil => simp [itemsShape] at hshape
    | cons value' items' =>
      rw [itemsShape, itemsShape, List.cons.injEq] at hshape
      rw [moreItemsPieces] at hj hj'
      obtain ⟨hvalue, hitems⟩ := unbrokenLeaves_append (unbrokenLeaves_cons hj)
      obtain ⟨hvalue', hitems'⟩ := unbrokenLeaves_append (unbrokenLeaves_cons hj')
      simp only [moreItemsPieces, flat_cons, flat_append, Piece.chars, List.append_assoc,
        List.cons_append, List.nil_append, List.cons.injEq, true_and] at h
      obtain ⟨hfirst, hmore⟩ :=
        eq_of_shape value value' hshape.1 hvalue hvalue' (ends_moreItems items hrest)
        (ends_moreItems items' hrest') h
      obtain ⟨hlast, hend⟩ :=
        eq_of_itemsShape items items' hshape.2 hitems hitems' hrest hrest' hmore
      exact ⟨by rw [hfirst, hlast], hend⟩

theorem eq_of_fieldsShape : (fields fields' : List (String × Json)) →
    fieldsShape fields = fieldsShape fields' →
    UnbrokenLeaves (moreFieldsPieces fields) → UnbrokenLeaves (moreFieldsPieces fields') →
    ∀ {rest rest' : List Char}, Ends rest → Ends rest' →
    flat (moreFieldsPieces fields) ++ rest = flat (moreFieldsPieces fields') ++ rest' →
    fields = fields' ∧ rest = rest'
  | [], fields', hshape, _, _, rest, rest', _, _, h => by
    cases fields' with
    | nil => exact ⟨rfl, h⟩
    | cons field fields' => simp [fieldsShape] at hshape
  | (key, value) :: fields, fields', hshape, hj, hj', rest, rest', hrest, hrest', h => by
    cases fields' with
    | nil => simp [fieldsShape] at hshape
    | cons field' fields' =>
      obtain ⟨key', value'⟩ := field'
      rw [fieldsShape, fieldsShape, List.cons.injEq, Prod.mk.injEq] at hshape
      obtain ⟨⟨rfl, hvalueShape⟩, hfieldsShape⟩ := hshape
      rw [moreFieldsPieces] at hj hj'
      obtain ⟨hvalue, hfields⟩ :=
        unbrokenLeaves_append (unbrokenLeaves_cons (unbrokenLeaves_cons (unbrokenLeaves_cons hj)))
      obtain ⟨hvalue', hfields'⟩ :=
        unbrokenLeaves_append (unbrokenLeaves_cons (unbrokenLeaves_cons (unbrokenLeaves_cons hj')))
      simp only [moreFieldsPieces, flat_cons, flat_append, Piece.chars, List.append_assoc,
        List.cons_append,
        List.nil_append, List.append_cancel_left_eq, List.cons.injEq, true_and] at h
      obtain ⟨hfirst, hmore⟩ :=
        eq_of_shape value value' hvalueShape hvalue hvalue' (ends_moreFields fields hrest)
        (ends_moreFields fields' hrest') h
      obtain ⟨hlast, hend⟩ :=
        eq_of_fieldsShape fields fields' hfieldsShape hfields hfields' hrest hrest' hmore
      exact ⟨by rw [hfirst, hlast], hend⟩

end

end Shape

section Hashes
variable {sha256 : Bytes → Bytes} {type : Option String}

theorem hashedValue_inj (hsha : Function.Injective sha256) {j j' : Json}
    (h : hashedValue sha256 j = hashedValue sha256 j') :
    j = j' := by
  cases j with
  | string s =>
    cases j' with
    | string s' => rw [asBytes_inj.mp (hsha (hexEncode_inj.mp (Json.string.inj h)))]
    | _ => cases h
  | _ => cases j' <;> first | exact h | cases h

mutual

theorem hashed_inj (hsha : Function.Injective sha256) :
    (j j' : Json) → hashed sha256 type j = hashed sha256 type j' →
    j = j'
  | .null, j', h | .bool _, j', h | .number _, j', h | .string _, j', h => by
    cases j' <;> first | exact h | cases h
  | .array items, j', h => by
    cases j' <;> simp only [hashed, reduceCtorEq, Json.array.injEq] at h
    rw [hashedItems_inj hsha items _ h]
  | .object fields, j', h => by
    cases j' <;> simp only [hashed, reduceCtorEq, Json.object.injEq] at h
    rw [hashedFields_inj hsha fields _ h]

theorem hashedItems_inj (hsha : Function.Injective sha256) : (items items' : List Json) →
    hashedItems sha256 type items = hashedItems sha256 type items' → items = items'
  | [], items', h => by
    cases items' with
    | nil => rfl
    | cons value' items' => cases h
  | value :: items, items', h => by
    cases items' with
    | nil => cases h
    | cons value' items' =>
      obtain ⟨hvalue, hitems⟩ := List.cons.inj h
      rw [hashed_inj hsha value value' hvalue, hashedItems_inj hsha items items' hitems]

theorem hashedFields_inj (hsha : Function.Injective sha256) :
    (fields fields' : List (String × Json)) →
    hashedFields sha256 type fields = hashedFields sha256 type fields' → fields = fields'
  | [], fields', h => by
    cases fields' with
    | nil => rfl
    | cons field' fields' => cases h
  | (key, value) :: fields, fields', h => by
    cases fields' with
    | nil => cases h
    | cons field' fields' =>
      obtain ⟨key', value'⟩ := field'
      obtain ⟨hfield, hfields⟩ := List.cons.inj h
      obtain ⟨rfl, hvalue⟩ := Prod.mk.inj hfield
      have heq : value = value' := by
        split at hvalue
        · exact hashedValue_inj hsha hvalue
        · exact hashed_inj hsha value value' hvalue
      rw [heq, hashedFields_inj hsha fields fields' hfields]

end

theorem index_hashed {name : String} (hname : isHashed type name = false) (j : Json) :
    (hashed sha256 type j).index name = hashed sha256 type (j.index name) := by
  cases j with
  | object fields =>
    have hlookup : (hashedFields sha256 type fields).lookup name = (fields.lookup name).map
        (hashed sha256 type) := by
      induction fields with
      | nil => rfl
      | cons field fields ih =>
        obtain ⟨key, value⟩ := field
        rw [hashedFields, List.lookup_cons, List.lookup_cons, ih]
        by_cases hkey : name = key
        · subst hkey
          simp [hname]
        · rw [beq_false_of_ne hkey]
    rw [hashed, Json.index, Json.index, hlookup]
    cases fields.lookup name <;> rfl
  | _ => rfl

theorem index_signedPart {name : String} (hname : isSkipped name = false) (j : Json) :
    (signedPart j).index name = j.index name := by
  cases j with
  | object fields =>
    have hlookup : (fields.filter fun field => !isSkipped field.1).lookup name =
        fields.lookup name := by
      induction fields with
      | nil => rfl
      | cons field fields ih =>
        obtain ⟨key, value⟩ := field
        by_cases hkey : name = key
        · subst hkey
          rw [List.filter_cons_of_pos (by simp [hname])]
          simp
        · rw [List.filter_cons, List.lookup_cons, beq_false_of_ne hkey]
          split
          · rw [List.lookup_cons, beq_false_of_ne hkey, ih]
          · exact ih
    rw [signedPart, Json.index, Json.index, hlookup]
  | _ => rfl

/-- The type of a request is signed as it is. -/
theorem typeOf_signedPart (v : Json) : typeOf (signedPart v) = typeOf v := by
  rw [typeOf, index_signedPart (by decide), typeOf]

theorem typeOf_bound (sha256 : Bytes → Bytes) (v : Json) : typeOf (bound sha256 v) = typeOf v := by
  have hplain : ∀ name, name = "operation" ∨ name = "type" → isHashed (typeOf v) name = false := by
    rintro name (rfl | rfl) <;> simp [isHashed]
  have hstr : ∀ j, (hashed sha256 (typeOf v) j).asStr = j.asStr := by
    intro j
    cases j <;> rfl
  rw [typeOf, bound, index_hashed (hplain _ (Or.inl rfl)),
    index_hashed (hplain _ (Or.inr rfl)), hstr, index_signedPart (by decide), typeOf]

/-- Hashes stand for what they are hashes of. -/
theorem bound_eq_iff (hsha : Function.Injective sha256) {v w : Json} :
    bound sha256 v = bound sha256 w ↔ signedPart v = signedPart w := by
  constructor
  · intro h
    have htype : typeOf v = typeOf w := by rw [← typeOf_bound sha256, h, typeOf_bound]
    rw [bound, bound, htype] at h
    exact hashed_inj hsha _ _ h
  · intro h
    rw [bound, bound, ← typeOf_signedPart v, h, typeOf_signedPart]

end Hashes

section Binding

/-- What a signature tells about a request: of two requests of one shape, whose values are not cut,
all that is signed; else, if no text holds a separator, the texts and the separators. -/
theorem signature_binds (sha256 : Bytes → Bytes) (hsha : Function.Injective sha256) (v w : Json)
    (s s' : String)
    (hv : serializeSignature sha256 v = .ok s) (hw : serializeSignature sha256 w = .ok s') :
    (shape (bound sha256 v) = shape (bound sha256 w) → UnbrokenLeaves (pieces (bound sha256 v)) →
      UnbrokenLeaves (pieces (bound sha256 w)) →
      (s = s' ↔ bound sha256 v = bound sha256 w) ∧ (s = s' ↔ signedPart v = signedPart w)) ∧
    ((∀ p ∈ pieces (bound sha256 v), p.Unmarked) → (∀ p ∈ pieces (bound sha256 w), p.Unmarked) →
      (s = s' ↔ pieces (bound sha256 v) = pieces (bound sha256 w))) := by
  have hflat : s = s' ↔ flat (pieces (bound sha256 v)) = flat (pieces (bound sha256 w)) := by
    rw [← toList_serializeSignature hv, ← toList_serializeSignature hw, String.toList_inj]
  refine ⟨fun hshape hleaves hleaves' => ?_, fun hv' hw' => hflat.trans (flat_pieces_inj hv' hw')⟩
  have hbound : s = s' ↔ bound sha256 v = bound sha256 w := by
    refine hflat.trans ⟨fun h => ?_, fun h => by rw [h]⟩
    exact (eq_of_shape _ _ hshape hleaves hleaves' ends_nil ends_nil (congrArg (· ++ []) h)).1
  exact ⟨hbound, hbound.trans (bound_eq_iff hsha)⟩

/-- A request to write an owner with the given name, and a role if there is one. -/
def nymRequest (dest : String) (role : Option String) : Json :=
  .object [("identifier", .string "V4SGRU86Z58d6TV7PBUe6f"),
    ("operation", .object (("dest", .string dest) ::
    (role.toList.map fun role => ("role", .string role)) ++ [("type", .string "1")])),
      ("reqId", .number (.posInt 1))]

theorem signature_binds_nym :
    ("identifier:V4SGRU86Z58d6TV7PBUe6f|operation:dest:a|type:1|reqId:1" =
      "identifier:V4SGRU86Z58d6TV7PBUe6f|operation:dest:b|type:1|reqId:1" ↔
      signedPart (nymRequest "a" none) = signedPart (nymRequest "b" none)) :=
  ((signature_binds (fun b => b) (fun _ _ h => h) (nymRequest "a" none) (nymRequest "b" none) _ _
    (show serializeSignature (fun b => b) (nymRequest "a" none) = .ok
      "identifier:V4SGRU86Z58d6TV7PBUe6f|operation:dest:a|type:1|reqId:1" by decide)
    (show serializeSignature (fun b => b) (nymRequest "b" none) = .ok
      "identifier:V4SGRU86Z58d6TV7PBUe6f|operation:dest:b|type:1|reqId:1" by decide)).1
    (by decide) (by decide) (by decide)).2

/-- Another owner, or the first one with a role. -/
theorem signature_covers_both :
    serializeSignature (fun b => b) (nymRequest "a|role:0" none) =
      serializeSignature (fun b => b) (nymRequest "a" (some "0")) ∧
    (serializeSignature (fun b => b) (nymRequest "a" (some "0"))).isOk = true ∧
    bound (fun b => b) (nymRequest "a|role:0" none) ≠ bound (fun b => b)
      (nymRequest "a" (some "0")) := by
  decide

end Binding

end SimpleAsset.Indy.Signature
