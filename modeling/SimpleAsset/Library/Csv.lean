import Mathlib.Data.List.Basic
import Mathlib.Tactic.Common
import SimpleAsset.Library.Fallible

/-! Rows of fields as text and back, in the default dialect of Python's `csv` but for the delimiter,
and the lines of a text that keep their ends. -/
namespace SimpleAsset.Library

def isLineBreak (c : Char) : Bool := c = '\n' || c = '\r'

section Write

/-- A field is put in quotes if it has a character with a meaning of its own. -/
def needsQuotes (delimiter : Char) (field : List Char) : Bool :=
  field.any fun c => c = delimiter || c = '"' || isLineBreak c

def doubleQuotes (field : List Char) : List Char :=
  field.flatMap fun c => if c = '"' then ['"', '"'] else [c]

def writeField (delimiter : Char) (field : List Char) : List Char :=
  if needsQuotes delimiter field then '"' :: doubleQuotes field ++ ['"'] else field

def joinFields (delimiter : Char) : List (List Char) → List Char
  | [] => []
  | [field] => writeField delimiter field
  | field :: fields => writeField delimiter field ++ delimiter :: joinFields delimiter fields

/-- A row of one empty field is told apart from a row without fields. -/
def rowText (delimiter : Char) (fields : List (List Char)) : List Char :=
  if fields = [[]] then ['"', '"'] else joinFields delimiter fields

def writeRow (delimiter : Char) (fields : List (List Char)) : List Char :=
  rowText delimiter fields ++ ['\r', '\n']

end Write

section Read

inductive CsvError
  | lineContainsNul
  | newLineInUnquotedField
  deriving DecidableEq, Repr

inductive ReaderState
  | startRecord
  | startField
  | inField
  | inQuotedField
  | quoteInQuotedField
  | eatCrnl
  deriving DecidableEq, Repr

/-- The fields of one line from a state on, with what there is of the field that is being read. A
line that ends within quotes ends the field. -/
def readFrom (delimiter : Char) : ReaderState → List Char → List Char →
    Except CsvError (List (List Char))
  | .startRecord, _, [] => .ok []
  | .eatCrnl, _, [] => .ok []
  | .startField, field, [] => .ok [field]
  | .inField, field, [] => .ok [field]
  | .inQuotedField, field, [] => .ok [field]
  | .quoteInQuotedField, field, [] => .ok [field]
  | state, field, c :: rest =>
    if c = '\x00' then .error .lineContainsNul
    else match state with
      | .startRecord =>
        if isLineBreak c then readFrom delimiter .eatCrnl [] rest
        else if c = '"' then readFrom delimiter .inQuotedField [] rest
        else if c = delimiter then (field :: ·) <$> readFrom delimiter .startField [] rest
        else readFrom delimiter .inField [c] rest
      | .startField =>
        if isLineBreak c then (field :: ·) <$> readFrom delimiter .eatCrnl [] rest
        else if c = '"' then readFrom delimiter .inQuotedField [] rest
        else if c = delimiter then (field :: ·) <$> readFrom delimiter .startField [] rest
        else readFrom delimiter .inField [c] rest
      | .inField =>
        if isLineBreak c then (field :: ·) <$> readFrom delimiter .eatCrnl [] rest
        else if c = delimiter then (field :: ·) <$> readFrom delimiter .startField [] rest
        else readFrom delimiter .inField (field ++ [c]) rest
      | .inQuotedField =>
        if c = '"' then readFrom delimiter .quoteInQuotedField field rest
        else readFrom delimiter .inQuotedField (field ++ [c]) rest
      | .quoteInQuotedField =>
        if c = '"' then readFrom delimiter .inQuotedField (field ++ [c]) rest
        else if c = delimiter then (field :: ·) <$> readFrom delimiter .startField [] rest
        else if isLineBreak c then (field :: ·) <$> readFrom delimiter .eatCrnl [] rest
        else readFrom delimiter .inField (field ++ [c]) rest
      | .eatCrnl => if isLineBreak c then readFrom delimiter .eatCrnl [] rest
          else .error .newLineInUnquotedField

/-- The one row of a reader over one line. -/
def readRow (delimiter : Char) (line : List Char) : Except CsvError (List (List Char)) :=
  readFrom delimiter .startRecord [] line

end Read

section Lines

/-- The lines of a text with their ends, `\n`, `\r` or `\r\n`; `line` is what there is of the first
one. -/
def linesFrom (line : List Char) : List Char → List (List Char)
  | [] => if line = [] then [] else [line]
  | '\r' :: '\n' :: rest => (line ++ ['\r', '\n']) :: linesFrom [] rest
  | '\r' :: rest => (line ++ ['\r']) :: linesFrom [] rest
  | '\n' :: rest => (line ++ ['\n']) :: linesFrom [] rest
  | c :: rest => linesFrom (line ++ [c]) rest

def textLines (text : List Char) : List (List Char) := linesFrom [] text

end Lines

section RoundTrip

variable {delimiter : Char}

/-- A delimiter is none of the characters that have another meaning. -/
structure ValidDelimiter (delimiter : Char) : Prop where
  quote : delimiter ≠ '"'
  lineBreak : isLineBreak delimiter = false
  nul : delimiter ≠ '\x00'

theorem needsQuotes_eq_false_iff (field : List Char) : needsQuotes delimiter field = false ↔
    ∀ c ∈ field, c ≠ delimiter ∧ c ≠ '"' ∧ isLineBreak c = false := by
  simp [needsQuotes, and_assoc]

theorem readFrom_inField {field : List Char} (hplain : needsQuotes delimiter field = false)
    (hnul : '\x00' ∉ field) (start rest : List Char) :
    readFrom delimiter .inField start (field ++ rest) = readFrom delimiter .inField
      (start ++ field) rest := by
  induction field generalizing start with
  | nil => simp
  | cons c field ih =>
    obtain ⟨hc, hfield⟩ := List.forall_mem_cons.mp ((needsQuotes_eq_false_iff _).mp hplain)
    rw [List.mem_cons, not_or] at hnul
    rw [List.cons_append, readFrom, if_neg (Ne.symm hnul.1)]
    simp only [hc.2.2, hc.1, if_false, Bool.false_eq_true]
    rw [ih ((needsQuotes_eq_false_iff _).mpr hfield) hnul.2]
    simp

theorem readFrom_openQuote (field rest : List Char) :
    readFrom delimiter .inQuotedField field
      ('"' :: rest) = readFrom delimiter .quoteInQuotedField field rest := by
  simp [readFrom]

theorem readFrom_secondQuote (field rest : List Char) :
    readFrom delimiter .quoteInQuotedField field ('"' :: rest) =
      readFrom delimiter .inQuotedField (field ++ ['"']) rest := by
  simp [readFrom]

/-- Within quotes everything is taken as it is, also line breaks. -/
theorem readFrom_inQuotedField {field : List Char} (hnul : '\x00' ∉ field)
    (start rest : List Char) :
    readFrom delimiter .inQuotedField start (doubleQuotes field ++ '"' :: rest) =
      readFrom delimiter .quoteInQuotedField (start ++ field) rest := by
  induction field generalizing start with
  | nil =>
    rw [List.append_nil]
    exact readFrom_openQuote start rest
  | cons c field ih =>
    rw [List.mem_cons, not_or] at hnul
    by_cases hc : c = '"'
    · subst hc
      have hdouble : doubleQuotes ('"' :: field) = '"' :: '"' :: doubleQuotes field := rfl
      rw [hdouble, List.cons_append, List.cons_append, readFrom_openQuote,
        readFrom_secondQuote, ih hnul.2, List.append_assoc, List.singleton_append]
    · have hdouble : doubleQuotes (c :: field) = c :: doubleQuotes field := by
        simp [doubleQuotes, hc]
      rw [hdouble, List.cons_append, readFrom, if_neg (Ne.symm hnul.1)]
      simp only [hc, if_false]
      rw [ih hnul.2, List.append_assoc, List.singleton_append]

/-- What follows a field: the next field or the end of the row. -/
inductive FieldEnd (delimiter : Char) : List Char → Prop
  | field (rest : List Char) : FieldEnd delimiter (delimiter :: rest)
  | row : FieldEnd delimiter ['\r', '\n']

/-- Reading on after a field. -/
def afterField (delimiter : Char) (field : List Char) :
    List Char → Except CsvError (List (List Char))
  | [] => .ok [field]
  | c :: rest =>
    if c = delimiter then (field :: ·) <$> readFrom delimiter .startField [] rest
    else (field :: ·) <$> readFrom delimiter .eatCrnl [] rest

theorem ValidDelimiter.ne_lineBreak (hd : ValidDelimiter delimiter) {c : Char}
    (hc : isLineBreak c = true) :
    c ≠ delimiter := by
  rintro rfl
  rw [hd.lineBreak] at hc
  cases hc

theorem readFrom_fieldEnd (hd : ValidDelimiter delimiter) {tail : List Char}
    (htail : FieldEnd delimiter tail) {state : ReaderState}
    (hstate : state = .inField ∨ state = .quoteInQuotedField ∨ state = .startField)
    (field : List Char) :
    readFrom delimiter state field tail = afterField delimiter field tail := by
  have hr : '\r' ≠ delimiter := hd.ne_lineBreak rfl
  have hbreak := hd.lineBreak
  have hnul := hd.nul
  have hquote := hd.quote
  cases htail with
  | field rest =>
    rcases hstate with rfl | rfl | rfl
    · simp [readFrom, afterField, hbreak, hnul]
    · simp [readFrom, afterField, hquote, hnul]
    · simp [readFrom, afterField, hquote, hbreak, hnul]
  | row =>
    have hcr : isLineBreak '\r' = true := rfl
    rcases hstate with rfl | rfl | rfl
    · simp only [readFrom, afterField, hcr, if_neg hr]
      rfl
    · simp only [readFrom, afterField, hcr, if_neg hr]
      rfl
    · simp only [readFrom, afterField, hcr, if_neg hr]
      rfl

/-- A field is read back. Only an empty field at the start of a record is taken for no field at
all. -/
theorem readFrom_writeField (hd : ValidDelimiter delimiter) {field tail : List Char}
    (hnul : '\x00' ∉ field) (htail : FieldEnd delimiter tail) {state : ReaderState}
    (hstate : state = .startField ∨ (state = .startRecord ∧ (field ≠ [] ∨ tail ≠ ['\r', '\n']))) :
    readFrom delimiter state [] (writeField delimiter field ++ tail) =
      afterField delimiter field tail := by
  unfold writeField
  split
  · -- A quote opens the field in both states.
    have hopen : readFrom delimiter state [] (('"' :: doubleQuotes field ++ ['"']) ++ tail) =
        readFrom delimiter .inQuotedField [] (doubleQuotes field ++ '"' :: tail) := by
      rcases hstate with rfl | ⟨rfl, -⟩ <;> simp [readFrom, isLineBreak]
    rw [hopen, readFrom_inQuotedField hnul, List.nil_append]
    exact readFrom_fieldEnd hd htail (Or.inr (Or.inl rfl)) field
  · rename_i hplain
    rw [Bool.not_eq_true] at hplain
    cases field with
    | nil =>
      rw [List.nil_append]
      rcases hstate with rfl | ⟨rfl, hne | hne⟩
      · exact readFrom_fieldEnd hd htail (Or.inr (Or.inr rfl)) []
      · exact absurd rfl hne
      · cases htail with
        | field rest => simp [readFrom, afterField, hd.quote, hd.lineBreak, hd.nul]
        | row => exact absurd rfl hne
    | cons c field =>
      obtain ⟨hc, hfield⟩ := List.forall_mem_cons.mp ((needsQuotes_eq_false_iff _).mp hplain)
      rw [List.mem_cons, not_or] at hnul
      have hstart : readFrom delimiter state [] (c :: field ++ tail) =
          readFrom delimiter .inField [c] (field ++ tail) := by
        rcases hstate with rfl | ⟨rfl, -⟩ <;> simp [readFrom, hc, Ne.symm hnul.1]
      rw [hstart, readFrom_inField ((needsQuotes_eq_false_iff _).mpr hfield) hnul.2]
      exact readFrom_fieldEnd hd htail (Or.inl rfl) (c :: field)

theorem readFrom_joinFields (hd : ValidDelimiter delimiter) {fields : List (List Char)}
    (hfields : fields ≠ []) (hnul : ∀ field ∈ fields, '\x00' ∉ field) {state : ReaderState}
    (hstate : state = .startField ∨ (state = .startRecord ∧ fields ≠ [[]])) :
    readFrom delimiter state [] (joinFields delimiter fields ++ ['\r', '\n']) = .ok fields := by
  have hr : '\r' ≠ delimiter := hd.ne_lineBreak rfl
  induction fields generalizing state with
  | nil => exact absurd rfl hfields
  | cons field fields ih =>
    obtain ⟨hfield, hrest⟩ := List.forall_mem_cons.mp hnul
    cases fields with
    | nil =>
      rw [joinFields, readFrom_writeField hd hfield .row]
      · simp only [afterField, if_neg hr, readFrom]
        rfl
      · rcases hstate with rfl | ⟨rfl, hne⟩
        · exact Or.inl rfl
        · exact Or.inr ⟨rfl, Or.inl fun hempty => hne (by rw [hempty])⟩
    | cons next fields =>
      have hjoin : joinFields delimiter (field :: next :: fields) ++ ['\r', '\n'] =
          writeField delimiter field ++
          delimiter :: (joinFields delimiter (next :: fields) ++ ['\r', '\n']) := by
        rw [joinFields, List.append_assoc, List.cons_append]
        simp
      rw [hjoin, readFrom_writeField hd hfield (.field _)]
      · rw [afterField, if_pos rfl, ih (by simp) hrest (Or.inl rfl)]
        rfl
      · rcases hstate with rfl | ⟨rfl, -⟩
        · exact Or.inl rfl
        · refine Or.inr ⟨rfl, Or.inr ?_⟩
          intro heq
          exact hr (List.cons.inj heq).1.symm

/-- A row is read back from what was written of it, if that stands on one line. -/
theorem readRow_writeRow (hd : ValidDelimiter delimiter) {fields : List (List Char)}
    (hfields : fields ≠ []) (hnul : ∀ field ∈ fields, '\x00' ∉ field) :
    readRow delimiter (writeRow delimiter fields) = .ok fields := by
  unfold readRow writeRow rowText
  split
  · rename_i hempty
    subst hempty
    have hr : '\r' ≠ delimiter := hd.ne_lineBreak rfl
    simp [readFrom, isLineBreak, hr]
  · rename_i hne
    exact readFrom_joinFields hd hfields hnul (Or.inr ⟨rfl, hne⟩)

/-- What is read of a line with one more character is read of the rest. -/
theorem exists_readFrom_of_cons {state : ReaderState} {field rest : List Char} {c : Char}
    {fields : List (List Char)} (h : readFrom delimiter state field (c :: rest) = .ok fields) :
    c ≠ '\x00' ∧ ∃ state' field' fields', readFrom delimiter state' field' rest = .ok fields' := by
  have hmap : ∀ {result : Except CsvError (List (List Char))} {first : List Char},
      (first :: ·) <$> result = .ok fields → ∃ fields', result = .ok fields' := by
    intro result first hresult
    cases result with
    | error e => cases hresult
    | ok fields' => exact ⟨fields', rfl⟩
  by_cases hc : c = '\x00'
  · cases state <;> simp [readFrom, hc] at h
  · refine ⟨hc, ?_⟩
    cases state <;> simp only [readFrom, if_neg hc] at h <;> split_ifs at h
    all_goals
      first
      | exact ⟨_, _, _, h⟩
      | exact ⟨_, _, hmap h⟩

/-- A line that is read has no NUL in it. -/
theorem nul_not_mem_of_readFrom {state : ReaderState} {field line : List Char}
    {fields : List (List Char)}
    (h : readFrom delimiter state field line = .ok fields) : '\x00' ∉ line := by
  induction line generalizing state field fields with
  | nil => simp
  | cons c rest ih =>
    obtain ⟨hc, state', field', fields', hrest⟩ := exists_readFrom_of_cons h
    rw [List.mem_cons, not_or]
    exact ⟨Ne.symm hc, ih hrest⟩

end RoundTrip

section Characters

variable {delimiter : Char}

theorem mem_writeField {field : List Char} {c : Char} (h : c ∈ field) :
    c ∈ writeField delimiter field := by
  unfold writeField
  split
  · have hdouble : c ∈ doubleQuotes field := by
      refine List.mem_flatMap.mpr ⟨c, h, ?_⟩
      split
      · rename_i hquote
        simp [hquote]
      · simp
    simp [hdouble]
  · exact h

theorem mem_joinFields {fields : List (List Char)} {field : List Char} {c : Char}
    (hfield : field ∈ fields) (h : c ∈ field) : c ∈ joinFields delimiter fields := by
  induction fields with
  | nil => simp at hfield
  | cons first fields ih =>
    cases fields with
    | nil =>
      rw [List.mem_singleton] at hfield
      subst hfield
      exact mem_writeField h
    | cons next fields =>
      rw [joinFields]
      · rcases List.mem_cons.mp hfield with rfl | hrest
        · exact List.mem_append_left _ (mem_writeField h)
        · exact List.mem_append_right _ (List.mem_cons_of_mem _ (ih hrest))
      · simp

/-- Every character of a field stands in the row. -/
theorem mem_rowText {fields : List (List Char)} {field : List Char} {c : Char}
    (hfield : field ∈ fields) (h : c ∈ field) : c ∈ rowText delimiter fields := by
  unfold rowText
  split
  · rename_i hempty
    rw [hempty, List.mem_singleton] at hfield
    rw [hfield] at h
    simp at h
  · exact mem_joinFields hfield h

theorem of_mem_writeField {field : List Char} {c : Char} (h : c ∈ writeField delimiter field) :
    c ∈ field ∨ c = '"' := by
  unfold writeField at h
  split at h
  · simp only [List.cons_append, List.mem_cons, List.mem_append, List.mem_nil_iff, or_false] at h
    rcases h with hquote | hdouble | hquote
    · exact Or.inr hquote
    · obtain ⟨d, hd, hc⟩ := List.mem_flatMap.mp hdouble
      split at hc
      · right
        simpa using hc
      · left
        rw [List.mem_singleton] at hc
        rwa [hc]
    · exact Or.inr hquote
  · exact Or.inl h

theorem of_mem_joinFields {fields : List (List Char)} {c : Char}
    (h : c ∈ joinFields delimiter fields) :
    (∃ field ∈ fields, c ∈ field) ∨ c = '"' ∨ c = delimiter := by
  induction fields with
  | nil => simp [joinFields] at h
  | cons first fields ih =>
    cases fields with
    | nil =>
      rcases of_mem_writeField h with hc | hc
      · exact Or.inl ⟨first, by simp, hc⟩
      · exact Or.inr (Or.inl hc)
    | cons next fields =>
      rw [joinFields] at h
      · rcases List.mem_append.mp h with hfirst | hrest
        · rcases of_mem_writeField hfirst with hc | hc
          · exact Or.inl ⟨first, by simp, hc⟩
          · exact Or.inr (Or.inl hc)
        · rcases List.mem_cons.mp hrest with hc | hmem
          · exact Or.inr (Or.inr hc)
          · rcases ih hmem with ⟨field, hfield, hc⟩ | hc
            · exact Or.inl ⟨field, List.mem_cons_of_mem _ hfield, hc⟩
            · exact Or.inr hc
      · simp

/-- The other characters of a row are quotes and delimiters. -/
theorem of_mem_rowText {fields : List (List Char)} {c : Char} (h : c ∈ rowText delimiter fields) :
    (∃ field ∈ fields, c ∈ field) ∨ c = '"' ∨ c = delimiter := by
  unfold rowText at h
  split at h
  · right
    left
    simpa using h
  · exact of_mem_joinFields h

end Characters

section TextLines

theorem linesFrom_plain {c : Char} (hc : isLineBreak c = false) (line rest : List Char) :
    linesFrom line (c :: rest) = linesFrom (line ++ [c]) rest := by
  have hr : c ≠ '\r' := by
    rintro rfl
    cases hc
  have hn : c ≠ '\n' := by
    rintro rfl
    cases hc
  rw [linesFrom.eq_5]
  · intro rest' hcr _
    exact hr hcr
  · exact hr
  · exact hn

theorem linesFrom_crlf (line rest : List Char) :
    linesFrom line ('\r' :: '\n' :: rest) = (line ++ ['\r', '\n']) :: linesFrom [] rest := rfl

theorem linesFrom_cr {rest : List Char} (hrest : ∀ rest', rest ≠ '\n' :: rest') (line : List Char) :
    linesFrom line ('\r' :: rest) = (line ++ ['\r']) :: linesFrom [] rest := by
  rw [linesFrom.eq_3]
  intro rest' heq
  exact hrest rest' heq

theorem append_ne_lf {text : List Char} (htext : ∀ rest', text ≠ '\n' :: rest')
    (rest rest' : List Char) :
    text ++ '\r' :: rest ≠ '\n' :: rest' := by
  cases text with
  | nil => simp
  | cons c text =>
    intro heq
    rw [List.cons_append, List.cons.injEq] at heq
    exact htext text (by rw [heq.1])

/-- A text up to a line end has lines of its own. -/
theorem linesFrom_append (line text rest : List Char) :
    linesFrom line (text ++ '\r' :: '\n' :: rest) = linesFrom line (text ++ ['\r', '\n']) ++
    linesFrom [] rest := by
  fun_induction linesFrom line text with
  | case1 => simp [linesFrom]
  | case2 line hne => simp [linesFrom]
  | case3 line text ih => simp [linesFrom, ih]
  | case4 line text hnot ih =>
    have hnot' : ∀ rest', text ≠ '\n' :: rest' := fun rest' heq => hnot rest' heq
    rw [List.cons_append, List.cons_append, linesFrom_cr (append_ne_lf hnot' _),
      linesFrom_cr (append_ne_lf hnot' _), ih, List.cons_append]
  | case5 line text ih => simp [linesFrom, ih]
  | case6 line c text hcrlf hcr hlf ih =>
    have hc : isLineBreak c = false := by simp_all [isLineBreak]
    rw [List.cons_append, List.cons_append, linesFrom_plain hc, linesFrom_plain hc, ih]

/-- A text without line breaks is one line with the end that follows. -/
theorem linesFrom_line {text : List Char} (htext : ∀ c ∈ text, isLineBreak c = false)
    (line : List Char) :
    linesFrom line (text ++ ['\r', '\n']) = [line ++ text ++ ['\r', '\n']] := by
  induction text generalizing line with
  | nil => simp [linesFrom]
  | cons c text ih =>
    obtain ⟨hc, hrest⟩ := List.forall_mem_cons.mp htext
    rw [List.cons_append, linesFrom_plain hc, ih hrest]
    simp

/-- The lines hold the whole text. -/
theorem flatten_linesFrom (line text : List Char) :
    (linesFrom line text).flatten = line ++ text := by
  fun_induction linesFrom line text <;> simp_all

theorem linesFrom_ne_nil (line text : List Char) : linesFrom line (text ++ ['\r', '\n']) ≠ [] := by
  intro hnil
  have hflat := flatten_linesFrom line (text ++ ['\r', '\n'])
  rw [hnil] at hflat
  simp at hflat

/-- A line break in the text ends a line of its own. -/
theorem two_le_length_linesFrom {text : List Char} (hbreak : ∃ c ∈ text, isLineBreak c = true)
    (line : List Char) :
    2 ≤ (linesFrom line (text ++ ['\r', '\n'])).length := by
  have hone : ∀ text, 1 ≤ (linesFrom [] (text ++ ['\r', '\n'])).length :=
    fun text => List.length_pos_of_ne_nil (linesFrom_ne_nil [] text)
  fun_induction linesFrom line text with
  | case1 => simp at hbreak
  | case2 line hne => simp at hbreak
  | case3 line text ih =>
    have hrest := hone text
    rw [List.cons_append, List.cons_append, linesFrom_crlf, List.length_cons]
    omega
  | case4 line text hnot ih =>
    have hrest := hone text
    rw [List.cons_append, linesFrom_cr (append_ne_lf (fun rest' heq => hnot rest' heq) _),
      List.length_cons]
    omega
  | case5 line text ih =>
    have hrest := hone text
    rw [List.cons_append, linesFrom, List.length_cons]
    omega
  | case6 line c text hcrlf hcr hlf ih =>
    have hc : isLineBreak c = false := by simp_all [isLineBreak]
    obtain ⟨d, hd, hdbreak⟩ := hbreak
    rw [List.cons_append, linesFrom_plain hc]
    rcases List.mem_cons.mp hd with rfl | hmem
    · rw [hc] at hdbreak
      cases hdbreak
    · exact ih ⟨d, hmem, hdbreak⟩

end TextLines

end SimpleAsset.Library
