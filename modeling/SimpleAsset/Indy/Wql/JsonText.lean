import SimpleAsset.Indy.Pool.Json
import SimpleAsset.Library.Fallible

/-! Compact JSON documents, and a reader of them with a limit on the depth. -/
namespace SimpleAsset.Indy.Json
open SimpleAsset.Library

section Nesting

mutual

/-- How deep arrays and objects stand in one another. -/
def nesting : Json → ℕ
  | array items => itemsNesting items + 1
  | object fields => fieldsNesting fields + 1
  | _ => 0

def itemsNesting : List Json → ℕ
  | [] => 0
  | value :: items => max (nesting value) (itemsNesting items)

def fieldsNesting : List (String × Json) → ℕ
  | [] => 0
  | (_, value) :: fields => max (nesting value) (fieldsNesting fields)

end

mutual

/-- Values of strings, arrays and objects. -/
def isTextual : Json → Bool
  | string _ => true
  | array items => itemsTextual items
  | object fields => decide ((fields.map Prod.fst).Pairwise (· < ·)) && fieldsTextual fields
  | _ => false

def itemsTextual : List Json → Bool
  | [] => true
  | value :: items => isTextual value && itemsTextual items

def fieldsTextual : List (String × Json) → Bool
  | [] => true
  | (_, value) :: fields => isTextual value && fieldsTextual fields

end

mutual

/-- As they stand in a text, with the fields in any order. -/
def isDocument : Json → Bool
  | string _ => true
  | array items => itemsDocuments items
  | object fields => fieldsDocuments fields
  | _ => false

def itemsDocuments : List Json → Bool
  | [] => true
  | value :: items => isDocument value && itemsDocuments items

def fieldsDocuments : List (String × Json) → Bool
  | [] => true
  | (_, value) :: fields => isDocument value && fieldsDocuments fields

end

end Nesting

section Strings

/-- The characters that are written with one letter after a backslash. -/
def shortEscapes : List (Char × Char) :=
  [('"', '"'), ('\\', '\\'), ('\x08', 'b'), ('\t', 't'), ('\n', 'n'), ('\x0c', 'f'), ('\r', 'r')]

def hexDigits : List Char := "0123456789abcdef".toList

def hexDigit (n : ℕ) : Char := hexDigits.getD n '0'

def escape (c : Char) : List Char :=
  match shortEscapes.lookup c with
  | some letter => ['\\', letter]
  | none => if c.toNat < 32
      then ['\\', 'u', '0', '0', hexDigit (c.toNat / 16), hexDigit (c.toNat % 16)] else [c]

def stringText (s : String) : List Char := '"' :: (s.toList.flatMap escape ++ ['"'])

def hexValue (digits : List Char) : ℕ :=
  digits.foldl (fun n digit => 16 * n + hexDigits.idxOf digit) 0

/-- The character that is written with these ones after a backslash; there is none as long as some
are missing. -/
def unescape : List Char → Option Char
  | [letter] => (shortEscapes.map Prod.swap).lookup letter
  | ['u', first, second, third, fourth] =>
    some (Char.ofNat (hexValue [first, second, third, fourth]))
  | _ => none

/-- A character in front of what is read behind it. -/
def following (c : Char) (r : Option (List Char × List Char)) : Option (List Char × List Char) :=
  r.map fun p => (c :: p.1, p.2)

/-- The characters up to the closing quote; `escaped` are those that were found since a
backslash. -/
def readCharacters (escaped : Option (List Char)) : List Char → Option (List Char × List Char)
  | [] => none
  | c :: text =>
    match escaped with
    | none =>
      if c = '"' then some ([], text)
      else if c = '\\' then readCharacters (some []) text
      else following c (readCharacters none text)
    | some cs =>
      match unescape (cs ++ [c]) with
      | some found => following found (readCharacters none text)
      | none => readCharacters (some (cs ++ [c])) text

theorem shortEscapes_spec : ∀ p ∈ shortEscapes, unescape [p.2] = some p.1 := by decide

theorem hexValue_hexDigit :
    ∀ n < 32, hexValue ['0', '0', hexDigit (n / 16), hexDigit (n % 16)] = n := by decide

theorem readCharacters_escape (c : Char) (text : List Char) :
    readCharacters none (escape c ++ text) = following c (readCharacters none text) := by
  have hbackslash : ∀ text, readCharacters none ('\\' :: text) = readCharacters (some []) text :=
    fun _ => rfl
  unfold escape
  cases hshort : shortEscapes.lookup c with
  | some letter =>
    obtain ⟨before, after, hsplit, -⟩ := List.lookup_eq_some_iff.mp hshort
    have hmem : (c, letter) ∈ shortEscapes := by
      rw [hsplit]
      exact List.mem_append_right _ List.mem_cons_self
    have hletter : unescape [letter] = some c := shortEscapes_spec _ hmem
    dsimp only
    rw [List.cons_append, List.cons_append, List.nil_append, hbackslash, readCharacters]
    simp only [List.nil_append, hletter]
  | none =>
    have hplain := List.lookup_eq_none_iff.mp hshort
    have hquote : c ≠ '"' := by simpa using hplain ('"', '"') (by decide)
    have hslash : c ≠ '\\' := by simpa using hplain ('\\', '\\') (by decide)
    dsimp only
    split_ifs with hcontrol
    · have hcode : Char.ofNat
          (hexValue ['0', '0', hexDigit (c.toNat / 16), hexDigit (c.toNat % 16)]) = c := by
        rw [hexValue_hexDigit _ hcontrol, Char.ofNat_toNat]
      have hread : ∀ digit digit' text,
          readCharacters (some []) ('u' :: '0' :: '0' :: digit :: digit' :: text) =
          following (Char.ofNat (hexValue ['0', '0', digit, digit'])) (readCharacters none text) :=
          fun _ _ _ => rfl
      rw [List.cons_append, hbackslash]
      simp only [List.cons_append, List.nil_append]
      rw [hread, hcode]
    · rw [List.cons_append, List.nil_append, readCharacters]
      rw [if_neg hquote, if_neg hslash]

theorem readCharacters_stringText (cs text : List Char) :
    readCharacters none (cs.flatMap escape ++ '"' :: text) = some (cs, text) := by
  induction cs with
  | nil => rfl
  | cons c cs ih =>
    rw [List.flatMap_cons, List.append_assoc, readCharacters_escape, ih]
    rfl

end Strings

section Documents

def numberText : JsonNumber → List Char
  | .posInt n => n.repr.toList
  | .negInt n => n.repr.toList
  | .float text => text.toList

mutual

/-- The compact document of a value. -/
def text : Json → List Char
  | null => "null".toList
  | bool b => if b then "true".toList else "false".toList
  | number n => numberText n
  | string s => stringText s
  | array items => '[' :: (itemsText items ++ [']'])
  | object fields => '{' :: (fieldsText fields ++ ['}'])

def itemsText : List Json → List Char
  | [] => []
  | value :: items => text value ++ moreItemsText items

def moreItemsText : List Json → List Char
  | [] => []
  | value :: items => ',' :: (text value ++ moreItemsText items)

def fieldsText : List (String × Json) → List Char
  | [] => []
  | (name, value) :: fields => stringText name ++ ':' :: text value ++ moreFieldsText fields

def moreFieldsText : List (String × Json) → List Char
  | [] => []
  | (name, value) :: fields =>
    ',' :: (stringText name ++ ':' :: text value ++ moreFieldsText fields)

end

def fieldText (field : String × Json) : List Char := stringText field.1 ++ ':' :: text field.2

/-- Texts with commas between them. -/
def listText {α : Type} (write : α → List Char) : List α → List Char
  | [] => []
  | a :: more => write a ++ more.flatMap fun b => ',' :: write b

theorem moreItemsText_eq (items : List Json) :
    moreItemsText items = items.flatMap fun value => ',' :: text value := by
  induction items with
  | nil => rw [moreItemsText, List.flatMap_nil]
  | cons value items ih => rw [moreItemsText, ih, List.flatMap_cons, List.cons_append]

theorem moreFieldsText_eq (fields : List (String × Json)) :
    moreFieldsText fields = fields.flatMap fun field => ',' :: fieldText field := by
  induction fields with
  | nil => rw [moreFieldsText, List.flatMap_nil]
  | cons field fields ih => rw [moreFieldsText, ih, List.flatMap_cons, List.cons_append, fieldText]

theorem itemsText_eq (items : List Json) : itemsText items = listText text items := by
  cases items with
  | nil => rw [itemsText, listText]
  | cons value items => rw [itemsText, listText, moreItemsText_eq]

theorem fieldsText_eq (fields : List (String × Json)) :
    fieldsText fields = listText fieldText fields := by
  cases fields with
  | nil => rw [fieldsText, listText]
  | cons field fields => rw [fieldsText, listText, moreFieldsText_eq, fieldText]

end Documents

section Printed

/-- A character that is no control character. -/
def isPrinted (c : Char) : Bool := decide (32 ≤ c.toNat)

theorem isPrinted_of_mem_escape {c c' : Char} (h : c' ∈ escape c) : isPrinted c' = true := by
  have hshort : ∀ p ∈ shortEscapes, isPrinted p.2 = true := by decide
  have hdigit : ∀ n < 32, isPrinted (hexDigit (n / 16)) = true ∧
      isPrinted (hexDigit (n % 16)) = true := by decide
  have hbackslash : isPrinted '\\' = true := by decide
  have hu : isPrinted 'u' = true := by decide
  have hzero : isPrinted '0' = true := by decide
  unfold escape at h
  cases hlookup : shortEscapes.lookup c with
  | some letter =>
    obtain ⟨before, after, hsplit, -⟩ := List.lookup_eq_some_iff.mp hlookup
    have hletter :=
      hshort (c, letter) (by rw [hsplit]; exact List.mem_append_right _ List.mem_cons_self)
    rw [hlookup] at h
    simp only [List.mem_cons, List.not_mem_nil, or_false] at h
    rcases h with rfl | rfl
    · exact hbackslash
    · exact hletter
  | none =>
    rw [hlookup] at h
    dsimp only at h
    split_ifs at h with hcontrol
    · obtain ⟨hhigh, hlow⟩ := hdigit c.toNat hcontrol
      simp only [List.mem_cons, List.not_mem_nil, or_false] at h
      rcases h with rfl | rfl | rfl | rfl | rfl | rfl
      all_goals assumption
    · rw [List.mem_singleton] at h
      rw [h, isPrinted, decide_eq_true_iff]
      omega

theorem all_stringText (s : String) : (stringText s).all isPrinted = true := by
  have hquote : isPrinted '"' = true := by decide
  have hflat : (s.toList.flatMap escape).all isPrinted = true := by
    rw [List.all_flatMap, List.all_eq_true]
    exact fun c _ => List.all_eq_true.mpr fun c' hc' => isPrinted_of_mem_escape hc'
  simp [stringText, hquote, hflat]

theorem all_listText {α : Type} {write : α → List Char} {as : List α}
    (h : ∀ a ∈ as, (write a).all isPrinted = true) : (listText write as).all isPrinted = true := by
  have hcomma : isPrinted ',' = true := by decide
  cases as with
  | nil => rfl
  | cons a more =>
    obtain ⟨hfirst, hmore⟩ := List.forall_mem_cons.mp h
    rw [listText, List.all_append, hfirst, Bool.true_and, List.all_flatMap, List.all_eq_true]
    intro b hb
    rw [List.all_cons, hcomma, hmore b hb]
    rfl

mutual

/-- No document holds a control character. -/
theorem all_text : (value : Json) → value.isDocument = true → value.text.all isPrinted = true
  | string s, _ => by
    rw [text]
    exact all_stringText s
  | array items, h => by
    have hopen : isPrinted '[' = true := by decide
    have hclose : isPrinted ']' = true := by decide
    rw [isDocument] at h
    rw [text, itemsText_eq, List.all_cons, List.all_append, all_listText (all_itemsTexts items h),
      hopen, List.all_cons, hclose]
    rfl
  | object fields, h => by
    have hopen : isPrinted '{' = true := by decide
    have hclose : isPrinted '}' = true := by decide
    rw [isDocument] at h
    rw [text, fieldsText_eq, List.all_cons, List.all_append,
      all_listText (all_fieldsTexts fields h), hopen, List.all_cons, hclose]
    rfl
  | null, h | bool _, h | number _, h => by
    rw [isDocument] at h
    · cases h
    all_goals simp

theorem all_itemsTexts : (items : List Json) → itemsDocuments items = true →
    ∀ value ∈ items, (text value).all isPrinted = true
  | [], _ => by simp
  | value :: items, h => by
    rw [itemsDocuments, Bool.and_eq_true] at h
    exact List.forall_mem_cons.mpr ⟨all_text value h.1, all_itemsTexts items h.2⟩

theorem all_fieldsTexts : (fields : List (String × Json)) → fieldsDocuments fields = true →
    ∀ field ∈ fields, (fieldText field).all isPrinted = true
  | [], _ => by simp
  | (name, value) :: fields, h => by
    have hcolon : isPrinted ':' = true := by decide
    rw [fieldsDocuments, Bool.and_eq_true] at h
    refine List.forall_mem_cons.mpr ⟨?_, all_fieldsTexts fields h.2⟩
    rw [fieldText, List.all_append, List.all_cons, all_stringText, hcolon, all_text value h.1]
    rfl

end

end Printed

section Reader

/-- What is read is a value and the text behind it. -/
abbrev Reader (α : Type) := List Char → Except String (α × List Char)

variable {α : Type}

def readString : Reader String
  | '"' :: input =>
    match readCharacters none input with
    | some (cs, input) => .ok (String.ofList cs, input)
    | none => .error "EOF while parsing a string"
  | _ => .error "expected value"

def readField (readValue : Reader Json) : Reader (String × Json) := fun input => do
  let (name, input) ← readString input
  match input with
  | ':' :: input => do
    let (value, input) ← readValue input
    pure ((name, value), input)
  | _ => .error "expected a colon"

def readCons (readElement : Reader α) (readMore : Reader (List α)) : Reader (List α) :=
  fun input => do
  let (a, input) ← readElement input
  let (more, input) ← readMore input
  pure (a :: more, input)

/-- Elements behind commas, and the closing bracket. -/
def readMore (closing : Char) (readElement : Reader α) : ℕ → Reader (List α)
  | 0, _ => .error "EOF while parsing a list"
  | fuel + 1, input =>
    match input with
    | [] => .error "EOF while parsing a list"
    | c :: input =>
      if c = closing then .ok ([], input)
      else if c = ',' then readCons readElement (readMore closing readElement fuel) input
      else .error "expected a comma or a bracket"

def readList (closing : Char) (readElement : Reader α) (fuel : ℕ) : Reader (List α) := fun input =>
  if input.head? = some closing then .ok ([], input.tail)
  else readCons readElement (readMore closing readElement fuel) input

def recursionLimit : String := "recursion limit exceeded"

/-- What is in an array or an object, with one less that may be opened. -/
def opened (depth : ℕ) (inner : ℕ → Except String α) : Except String α :=
  match depth with
  | 0 => .error recursionLimit
  | depth + 1 => inner depth

/-- A value of strings, arrays and objects, where `depth` arrays and objects may still be opened. -/
def readValue : ℕ → ℕ → Reader Json
  | 0, _, _ => .error "EOF while parsing a value"
  | fuel + 1, depth, input =>
    if input.head? = some '[' then
      opened depth fun depth => do
        let (items, input) ← readList ']' (readValue fuel depth) fuel input.tail
        pure (array items, input)
    else if input.head? = some '{' then
      opened depth fun depth => do
        let (fields, input) ← readList '}' (readField (readValue fuel depth)) fuel input.tail
        pure (object fields, input)
    else do
      let (s, input) ← readString input
      pure (string s, input)

/-- What a reader makes of a text in front of another one. -/
def readAs (good : Prop) [Decidable good] (a : α) (rest : List Char) :
    Except String (α × List Char) :=
  if good then .ok (a, rest) else .error recursionLimit

theorem readAs_congr {good good' : Prop} [Decidable good] [Decidable good']
    (h : good ↔ good') (a : α) (rest : List Char) : readAs good a rest = readAs good' a rest := by
  unfold readAs
  by_cases hgood : good
  · rw [if_pos hgood, if_pos (h.mp hgood)]
  · rw [if_neg hgood, if_neg (mt h.mpr hgood)]

theorem readAs_map {β : Type} (good : Prop) [Decidable good] (a : α) (rest : List Char)
    (f : α → β) :
    (do
      let (a, input) ← readAs good a rest
      pure (f a, input)) = readAs good (f a) rest := by
  unfold readAs
  split_ifs <;> rfl

theorem readString_stringText (s : String) (rest : List Char) :
    readString (stringText s ++ rest) = .ok (s, rest) := by
  have hread := readCharacters_stringText s.toList rest
  rw [stringText, List.cons_append, List.append_assoc, List.singleton_append, readString, hread]
  simp only [String.ofList_toList]

theorem readField_fieldText {readValue : Reader Json} {field : String × Json} {good : Prop}
    [Decidable good]
    {rest : List Char} (h : readValue (text field.2 ++ rest) = readAs good field.2 rest) :
    readField readValue (fieldText field ++ rest) = readAs good field rest := by
  unfold readField fieldText
  rw [List.append_assoc, readString_stringText, except_ok_bind, List.cons_append]
  simp only [h]
  exact readAs_map good field.2 rest fun value => (field.1, value)

theorem readCons_readAs {readElement : Reader α} {readMore : Reader (List α)} {a : α}
    {more : List α}
    {good good' : Prop} [Decidable good] [Decidable good'] {input input' rest : List Char}
    (h : readElement input = readAs good a input')
    (hmore : readMore input' = readAs good' more rest) :
    readCons readElement readMore input = readAs (good ∧ good') (a :: more) rest := by
  unfold readCons
  rw [h]
  by_cases hgood : good
  · rw [readAs, if_pos hgood, except_ok_bind]
    dsimp only
    rw [hmore, readAs_map good' more rest fun more => a :: more]
    exact readAs_congr (and_iff_right hgood).symm _ _
  · unfold readAs
    rw [if_neg hgood, if_neg (mt And.left hgood)]
    rfl

variable {closing : Char} {readElement : Reader α} {write : α → List Char} {good : α → Prop}
    [DecidablePred good]

theorem readMore_flatMap (hclosing : closing ≠ ',') {more : List α}
    (h : ∀ a ∈ more, ∀ rest, readElement (write a ++ rest) = readAs (good a) a rest)
    (rest : List Char) :
    ∀ {fuel : ℕ}, more.length < fuel →
      readMore closing readElement fuel
        (more.flatMap (fun a => ',' :: write a) ++ closing :: rest) =
        readAs (∀ a ∈ more, good a) more rest := by
  induction more with
  | nil =>
    intro fuel hfuel
    obtain ⟨fuel, rfl⟩ := Nat.exists_eq_add_of_lt hfuel
    simp [readMore, readAs]
  | cons a more ih =>
    intro fuel hfuel
    obtain ⟨hfirst, hmore⟩ := List.forall_mem_cons.mp h
    cases fuel with
    | zero => omega
    | succ fuel =>
      rw [List.flatMap_cons, List.cons_append, List.cons_append, List.append_assoc, readMore]
      rw [if_neg hclosing.symm, if_pos rfl,
        readCons_readAs (hfirst _) (ih hmore (by simpa using hfuel))]
      exact readAs_congr List.forall_mem_cons.symm _ _

theorem length_le_length_flatMap (write : α → List Char) (more : List α) :
    more.length ≤ (more.flatMap fun a => ',' :: write a).length := by
  induction more with
  | nil => exact Nat.zero_le _
  | cons a more ih =>
    rw [List.flatMap_cons, List.length_append, List.length_cons, List.length_cons]
    omega

theorem length_le_length_listText (write : α → List Char) {a : α} {as : List α} (h : a ∈ as) :
    (write a).length ≤ (listText write as).length := by
  cases as with
  | nil => cases h
  | cons b more =>
    rw [listText, List.length_append]
    rcases List.mem_cons.mp h with rfl | hmem
    · omega
    · have hsublist :=
        List.sublist_flatten_of_mem (List.mem_map_of_mem (f := fun a => ',' :: write a) hmem)
      rw [← List.flatMap_def] at hsublist
      have hlength := hsublist.length_le
      rw [List.length_cons] at hlength
      omega

theorem readList_listText (hclosing : closing ≠ ',') {as : List α}
    (hhead : ∀ a ∈ as, ∀ rest, (write a ++ rest).head? ≠ some closing)
    (h : ∀ a ∈ as, ∀ rest, readElement (write a ++ rest) = readAs (good a) a rest) {fuel : ℕ}
    (hfuel : (listText write as).length < fuel) (rest : List Char) :
    readList closing readElement fuel (listText write as ++ closing :: rest) = readAs
      (∀ a ∈ as, good a) as rest := by
  cases as with
  | nil => simp [readList, listText, readAs]
  | cons a more =>
    obtain ⟨hfirst, hmore⟩ := List.forall_mem_cons.mp h
    have hlength := length_le_length_flatMap write more
    rw [listText, List.length_append] at hfuel
    unfold readList
    rw [listText, List.append_assoc, if_neg (hhead a List.mem_cons_self _),
      readCons_readAs (hfirst _) (readMore_flatMap hclosing hmore rest (by omega))]
    exact readAs_congr List.forall_mem_cons.symm _ _

theorem itemsNesting_le_iff {items : List Json} {depth : ℕ} :
    itemsNesting items ≤ depth ↔ ∀ value ∈ items, nesting value ≤ depth := by
  induction items with
  | nil => simp [itemsNesting]
  | cons value items ih => rw [itemsNesting, max_le_iff, ih, List.forall_mem_cons]

theorem fieldsNesting_le_iff {fields : List (String × Json)} {depth : ℕ} :
    fieldsNesting fields ≤ depth ↔ ∀ field ∈ fields, nesting field.2 ≤ depth := by
  induction fields with
  | nil => simp [fieldsNesting]
  | cons field fields ih => rw [fieldsNesting, max_le_iff, ih, List.forall_mem_cons]

theorem itemsTextual_iff {items : List Json} :
    itemsTextual items = true ↔ ∀ value ∈ items, isTextual value = true := by
  induction items with
  | nil => simp [itemsTextual]
  | cons value items ih => rw [itemsTextual, Bool.and_eq_true, ih, List.forall_mem_cons]

theorem itemsDocuments_iff {items : List Json} :
    itemsDocuments items = true ↔ ∀ value ∈ items, isDocument value = true := by
  induction items with
  | nil => simp [itemsDocuments]
  | cons value items ih => rw [itemsDocuments, Bool.and_eq_true, ih, List.forall_mem_cons]

theorem fieldsDocuments_iff {fields : List (String × Json)} :
    fieldsDocuments fields = true ↔ ∀ field ∈ fields, isDocument field.2 = true := by
  induction fields with
  | nil => simp [fieldsDocuments]
  | cons field fields ih => rw [fieldsDocuments, Bool.and_eq_true, ih, List.forall_mem_cons]

mutual

theorem isDocument_of_isTextual : (value : Json) → isTextual value = true → isDocument value = true
  | .string _, _ => by rw [isDocument]
  | .array items, h => by
    rw [isTextual] at h
    rw [isDocument]
    exact itemsDocuments_of_itemsTextual items h
  | .object fields, h => by
    rw [isTextual, Bool.and_eq_true] at h
    rw [isDocument]
    exact fieldsDocuments_of_fieldsTextual fields h.2
  | .null, h | .bool _, h | .number _, h => by
    rw [isTextual] at h
    · cases h
    all_goals simp

theorem itemsDocuments_of_itemsTextual : (items : List Json) → itemsTextual items = true →
    itemsDocuments items = true
  | [], _ => by rw [itemsDocuments]
  | value :: items, h => by
    rw [itemsTextual, Bool.and_eq_true] at h
    rw [itemsDocuments, isDocument_of_isTextual value h.1, itemsDocuments_of_itemsTextual items h.2,
      Bool.and_self]

theorem fieldsDocuments_of_fieldsTextual :
    (fields : List (String × Json)) → fieldsTextual fields = true → fieldsDocuments fields = true
  | [], _ => by rw [fieldsDocuments]
  | (_, value) :: fields, h => by
    rw [fieldsTextual, Bool.and_eq_true] at h
    rw [fieldsDocuments, isDocument_of_isTextual value h.1,
      fieldsDocuments_of_fieldsTextual fields h.2, Bool.and_self]

end

/-- A value of strings, arrays and objects begins with a quote or a bracket. -/
theorem head_text {value : Json} (h : isDocument value = true) (rest : List Char) :
    (text value ++ rest).head? = some '"' ∨ (text value ++ rest).head? = some '[' ∨
      (text value ++ rest).head? = some '{' := by
  cases value with
  | string s => exact .inl rfl
  | array items => exact .inr (.inl (by rw [text]; rfl))
  | object fields => exact .inr (.inr (by rw [text]; rfl))
  | null | bool _ | number _ =>
    rw [isDocument] at h
    · cases h
    all_goals simp

theorem head_text_ne {value : Json} (h : isDocument value = true)
    (hclosing : closing = ']' ∨ closing = '}')
    (rest : List Char) : (text value ++ rest).head? ≠ some closing := by
  rcases head_text h rest with hhead | hhead | hhead <;> rw [hhead] <;> rcases hclosing
    with rfl | rfl <;> decide

/-- Values are read back that are not nested too deep; the others are refused. -/
theorem readValue_text {fuel : ℕ} :
    ∀ {value : Json} (depth : ℕ) (rest : List Char), isDocument value = true →
    (text value).length ≤ fuel →
      readValue fuel depth (text value ++ rest) = readAs (nesting value ≤ depth) value rest := by
  induction fuel with
  | zero =>
    intro value depth rest hdocument hfuel
    have hhead := head_text hdocument []
    rw [List.eq_nil_of_length_eq_zero (Nat.le_zero.mp hfuel)] at hhead
    simp at hhead
  | succ fuel ih =>
    intro value depth rest hdocument hfuel
    cases value with
    | string s =>
      rw [text, readValue, if_neg (by rw [stringText]; simp), if_neg (by rw [stringText]; simp),
        readString_stringText]
      simp [readAs, nesting]
    | array items =>
      rw [isDocument, itemsDocuments_iff] at hdocument
      rw [text, itemsText_eq, List.length_cons, List.length_append, List.length_singleton] at hfuel
      rw [text, itemsText_eq, List.cons_append, List.append_assoc, List.singleton_append, readValue,
        if_pos List.head?_cons, List.tail_cons]
      cases depth with
      | zero => simp [opened, readAs, nesting]
      | succ depth =>
        have hlist : readList ']' (readValue fuel depth) fuel (listText text items ++ ']' :: rest) =
            readAs (∀ value ∈ items, nesting value ≤ depth) items rest := by
          apply readList_listText (by decide)
          · exact fun value hvalue => head_text_ne (hdocument value hvalue) (.inl rfl)
          · intro value hvalue rest
            have hlength := length_le_length_listText text hvalue
            exact ih depth rest (hdocument value hvalue) (by omega)
          · omega
        rw [opened, hlist, readAs_map _ items rest array]
        apply readAs_congr
        rw [nesting, Nat.add_le_add_iff_right, itemsNesting_le_iff]
    | object fields =>
      rw [isDocument, fieldsDocuments_iff] at hdocument
      rw [text, fieldsText_eq, List.length_cons, List.length_append, List.length_singleton] at hfuel
      rw [text, fieldsText_eq, List.cons_append, List.append_assoc,
        List.singleton_append, readValue, if_neg (by simp), if_pos List.head?_cons, List.tail_cons]
      cases depth with
      | zero => simp [opened, readAs, nesting]
      | succ depth =>
        have hlist : readList '}' (readField (readValue fuel depth)) fuel
            (listText fieldText fields ++ '}' :: rest) =
            readAs (∀ field ∈ fields, nesting field.2 ≤ depth) fields rest := by
          apply readList_listText (by decide)
          · intro field _ rest
            rw [fieldText, stringText]
            simp
          · intro field hfield rest
            have hlength := length_le_length_listText fieldText hfield
            rw [fieldText, List.length_append, List.length_cons] at hlength
            exact readField_fieldText (ih depth rest (hdocument field hfield) (by omega))
          · omega
        rw [opened, hlist, readAs_map _ fields rest object]
        apply readAs_congr
        rw [nesting, Nat.add_le_add_iff_right, fieldsNesting_le_iff]
    | null | bool _ | number _ =>
      rw [isDocument] at hdocument
      · cases hdocument
      all_goals simp

end Reader

end SimpleAsset.Indy.Json
