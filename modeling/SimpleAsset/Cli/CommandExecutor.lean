import SimpleAsset.Indy.Primitive
import SimpleAsset.Library.Table

/-! How the command line tool reads the parameters of a command (cli, command_executor.rs). Text is
a list of characters where it is taken apart. -/
namespace SimpleAsset.Cli
open SimpleAsset.Library
open Indy (isWhitespace)

structure ParamMetadata where
  name : String
  isDeferred : Bool
  deriving DecidableEq, Repr

structure CommandMetadata where
  mainParam : Option ParamMetadata
  params : List ParamMetadata
  deriving DecidableEq, Repr

abbrev CommandParams := Table String String

section Words

/-- `str::trim_start`. -/
def trimStart (s : List Char) : List Char := s.dropWhile isWhitespace

/-- `str::trim`. -/
def trim (s : List Char) : List Char := ((trimStart s).reverse.dropWhile isWhitespace).reverse

/-- The loop of `_split_first_word`. -/
def splitWord (isQuoteEscape isWhitespaceEscape : Bool) : List Char → List Char × List Char
  | [] => ([], [])
  | ch :: rest =>
    if isWhitespace ch && !isWhitespaceEscape then ([], trimStart (ch :: rest))
    else
      let isWhitespaceEscape := if !isQuoteEscape &&
        ch = '"' then !isWhitespaceEscape else isWhitespaceEscape
      let (word, tail) := splitWord (ch = '\\') isWhitespaceEscape rest
      (ch :: word, tail)

def splitFirstWord (s : List Char) : List Char × List Char := splitWord false false (trim s)

/-- A quote alone is left as it is. -/
def trimQuotes (s : List Char) : List Char :=
  if 1 < s.length ∧ s.head? = some '"' ∧ s.getLast? = some '"' then s.tail.dropLast else s

/-- `splitn(2, '=')`. -/
def splitName (param : List Char) : String × Option (List Char) :=
  (String.ofList (param.takeWhile (· ≠ '=')),
    match param.dropWhile (· ≠ '=') with
    | [] => none
    | _ :: value => some value)

theorem length_trimStart_le (s : List Char) : (trimStart s).length ≤ s.length :=
  (List.dropWhile_suffix _).length_le

theorem length_trim_le (s : List Char) : (trim s).length ≤ s.length := by
  rw [trim, List.length_reverse]
  have hend := (List.dropWhile_suffix isWhitespace (l := (trimStart s).reverse)).length_le
  rw [List.length_reverse] at hend
  exact hend.trans (length_trimStart_le s)

/-- Whitespace ends a word. -/
theorem splitWord_of_whitespace (isQuoteEscape : Bool) {ch : Char} (h : isWhitespace ch)
    (rest : List Char) :
    splitWord isQuoteEscape false (ch :: rest) = ([], trimStart (ch :: rest)) := by
  rw [splitWord, if_pos (by simpa using h)]

/-- What is no whitespace, or is quoted, belongs to the word. -/
theorem splitWord_cons (isQuoteEscape isWhitespaceEscape : Bool) {ch : Char}
    (h : (isWhitespace ch && !isWhitespaceEscape) = false) (rest : List Char) :
    splitWord isQuoteEscape isWhitespaceEscape (ch :: rest) =
      let read := splitWord (ch = '\\')
        (if !isQuoteEscape && ch = '"' then !isWhitespaceEscape else isWhitespaceEscape) rest
      (ch :: read.1, read.2) := by
  rw [splitWord, if_neg (by simpa using h)]

theorem length_splitWord_le (isQuoteEscape isWhitespaceEscape : Bool) (s : List Char) :
    (splitWord isQuoteEscape isWhitespaceEscape s).1.length +
    (splitWord isQuoteEscape isWhitespaceEscape s).2.length ≤
      s.length := by
  induction s generalizing isQuoteEscape isWhitespaceEscape with
  | nil => exact le_rfl
  | cons ch rest ih =>
    cases h : isWhitespace ch && !isWhitespaceEscape with
    | true =>
      rw [splitWord, if_pos h, List.length_nil, Nat.zero_add]
      exact length_trimStart_le _
    | false =>
      rw [splitWord_cons _ _ h, List.length_cons, List.length_cons]
      have hrest := ih (ch = '\\')
        (if !isQuoteEscape && ch = '"' then !isWhitespaceEscape else isWhitespaceEscape)
      dsimp only
      omega

/-- A word takes something off the text. -/
theorem length_splitFirstWord_lt {s : List Char} (h : (splitFirstWord s).1 ≠ []) :
    (splitFirstWord s).2.length < s.length := by
  have hword := List.length_pos_iff.mpr h
  have hsplit := length_splitWord_le false false (trim s)
  have htrim := length_trim_le s
  unfold splitFirstWord at hword ⊢
  omega

end Words

section Params
variable (unescape : List Char → Option (List Char)) (command : CommandMetadata)

def invalidEscape (name : String) : String :=
  "Invalid escape sequence for \"" ++ name ++ "\" parameter present"

/-- The value between the quotes. -/
def readValue (name : String) (value : List Char) : Except String String :=
  match unescape (trimQuotes value) with
  | some value => .ok (String.ofList value)
  | none => .error (invalidEscape name)

/-- The main parameter, and the text after it. -/
def readMainParam (params : List Char) : Except String (CommandParams × List Char) :=
  match command.mainParam with
  | none => .ok (∅, params)
  | some param =>
    let (value, tail) := splitFirstWord params
    if value = [] then .error ("No main \"" ++ param.name ++ "\" parameter present")
    else (readValue unescape param.name value).map fun value =>
      (AList.insert param.name value ∅, tail)

/-- One round over the other parameters; the second result is the names that the user is to be asked
for. -/
def readParam (res : CommandParams) (deferred : List String) (param : List Char) :
    Except String (CommandParams × List String) :=
  let (name, value) := splitName param
  if name ∈ res then .error ("\"" ++ name ++ "\" parameter presented multiple times")
  else
    match command.params.find? fun p => p.name = name with
    | none => .error ("Unknown \"" ++ name ++ "\" parameter present")
    | some metadata =>
      match value with
      | some value => (readValue unescape name value).map fun value =>
          (res.insert metadata.name value, deferred)
      | none =>
        if metadata.isDeferred then .ok (res, deferred ++ [metadata.name])
        else .error ("No value for \"" ++ name ++ "\" parameter present")

def readParams (res : CommandParams) (deferred : List String) (params : List Char) :
    Except String (CommandParams × List String) :=
  if _ : (splitFirstWord params).1 = [] then .ok (res, deferred)
  else (readParam unescape command res deferred (splitFirstWord params).1).bind fun read =>
    readParams read.1 read.2 (splitFirstWord params).2
termination_by params.length
decreasing_by exact length_splitFirstWord_lt ‹_›

/-- Asks until something is answered. There may be no more answers. -/
def readPassword : List (Except String String) → Option (String × List (Except String String))
  | [] => none
  | .ok v :: answers => if v = "" then readPassword answers else some (v, answers)
  | .error _ :: answers => readPassword answers

def askFor (answers : List (Except String String)) (res : CommandParams) :
    List String → Option CommandParams
  | [] => some res
  | param :: deferred => do
    let (val, answers) ← readPassword answers
    askFor answers (res.insert param val) deferred

/-- `_parse_params`, and `none` if it waits for an answer without end. -/
def parseParams (params : String) (answers : List (Except String String)) :
    Option (Except String CommandParams) :=
  match readMainParam unescape command params.toList with
  | .error err => some (.error err)
  | .ok (res, tail) =>
    match readParams unescape command res [] tail with
    | .error err => some (.error err)
    | .ok (res, deferred) => (askFor answers res deferred).map .ok

end Params

end SimpleAsset.Cli
