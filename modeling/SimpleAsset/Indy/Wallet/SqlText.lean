import SimpleAsset.Indy.Primitive
import SimpleAsset.Indy.Wallet.Search

/-! The text of a search, put together from pieces while the arguments of its placeholders are
pushed (query.rs). -/
namespace SimpleAsset.Indy.Wallet
open SimpleAsset.Library

section Build

/-- A piece of the text, with the arguments so far. -/
abbrev SqlPiece := String × List SqlValue

def CompareOp.symbol : CompareOp → String
  | .eq => "="
  | .neq => "!="
  | .gt => ">"
  | .gte => ">="
  | .lt => "<"
  | .lte => "<="
  | .like => "LIKE"

/-- `eq_to_sql` and its siblings. -/
def testText (op : CompareOp) (name : TagName) (value : TargetValue) (arguments : List SqlValue) :
    Outcome SqlPiece :=
  match name, value with
  | .ofPlain queriedName, .unencrypted queriedValue =>
    .ok ("(i.id in (SELECT item_id FROM tags_plaintext WHERE name = ? AND value " ++
      op.symbol ++ " ?))", arguments ++ [.blob queriedName, .text queriedValue])
  | .ofEncrypted queriedName, .encrypted queriedValue =>
    if op = .eq ∨ op = .neq then
      .ok ("(i.id in (SELECT item_id FROM tags_encrypted WHERE name = ? AND value " ++
        op.symbol ++ " ?))", arguments ++ [.blob queriedName, .blob queriedValue])
    else errMsg .walletQueryError
      ("Invalid combination of tag name and value for " ++ op.title ++ " operator")
  | _, _ => errMsg .walletQueryError
      ("Invalid combination of tag name and value for " ++ op.title ++ " operator")

def plainTarget : TargetValue → Outcome SqlValue
  | .unencrypted target => .ok (.text target)
  | .encrypted _ => errMsg .walletQueryError "Encrypted tag value in $in for nonencrypted tag name"

def encryptedTarget : TargetValue → Outcome SqlValue
  | .encrypted target => .ok (.blob target)
  | .unencrypted _ => errMsg .walletQueryError "Unencrypted tag value in $in for encrypted tag name"

/-- The loop of `in_to_sql`, with a comma after the values at some of the indices. -/
def pushTargets (target : TargetValue → Outcome SqlValue) (comma : ℕ → Bool) :
    ℕ → List TargetValue → SqlPiece → Outcome SqlPiece
  | _, [], piece => .ok piece
  | index, value :: values, (inString, arguments) => do
    let queried ← target value
    let inString := inString ++ "?"
    let inString := if comma index then inString ++ "," else inString
    pushTargets target comma (index + 1) values (inString, arguments ++ [queried])

/-- `in_to_sql`. -/
def inText (build : Build) (name : TagName) (values : List TargetValue)
    (arguments : List SqlValue) :
    Outcome SqlPiece :=
  match name with
  | .ofPlain queriedName => do
    let (inString, arguments) ← pushTargets plainTarget
        (fun index => decide (index < values.length - 1)) 0 values
      ("(i.id in (SELECT item_id FROM tags_plaintext WHERE name = ? AND value IN (", arguments ++
        [.blob queriedName])
    pure (inString ++ ")))", arguments)
  | .ofEncrypted queriedName => do
    let indexBeforeLast ← subU64 build values.length 2
    let (inString, arguments) ← pushTargets encryptedTarget
        (fun index => decide (index ≤ indexBeforeLast)) 0 values
      ("(i.id in (SELECT item_id FROM tags_encrypted WHERE name = ? AND value IN (", arguments ++
        [.blob queriedName])
    pure (inString ++ ")))", arguments)

mutual

/-- `operator_to_sql`. -/
def operatorText (build : Build) : Operator → List SqlValue → Outcome SqlPiece
  | .test op tagName value, arguments => testText op tagName value arguments
  | .isIn tagName values, arguments => inText build tagName values arguments
  | .and operators, arguments =>
    if operators = [] then .ok ("", arguments)
    else do
      let (s, arguments) ← joinOperators build " AND " operators.length 0 operators ("(", arguments)
      pure (s ++ ")", arguments)
  | .or operators, arguments =>
    if operators = [] then .ok ("", arguments)
    else do
      let (s, arguments) ← joinOperators build " OR " operators.length 0 operators ("(", arguments)
      pure (s ++ ")", arguments)
  | .not operator, arguments => do
    let (operatorString, arguments) ← operatorText build operator arguments
    pure ("NOT (" ++ operatorString ++ ")", arguments)

/-- The loop of `join_operators`. -/
def joinOperators (build : Build) (joinStr : String) (length : ℕ) :
    ℕ → List Operator → SqlPiece → Outcome SqlPiece
  | _, [], piece => .ok piece
  | index, operator :: operators, (s, arguments) => do
    let (operatorString, arguments) ← operatorText build operator arguments
    let s := s ++ operatorString
    let s := if index < length - 1 then s ++ joinStr else s
    joinOperators build joinStr length (index + 1) operators (s, arguments)

end

def selectBase : String :=
  "SELECT i.id, i.name, i.value, i.key, i.type FROM items as i WHERE i.type = ?"

def countBase : String := "SELECT count(*) FROM items as i WHERE i.type = ?"

/-- What `wql_to_sql` and `wql_to_sql_count` have in common. -/
def statementText (base : String) (build : Build) (cls : Bytes) (op : Operator) :
    Outcome SqlPiece := do
  let (clauseString, arguments) ← operatorText build op [.blob cls]
  pure (if clauseString = "" then base else base ++ " AND " ++ clauseString, arguments)

def wqlToSql (build : Build) (cls : Bytes) (op : Operator) : Outcome SqlPiece :=
  statementText selectBase build cls op

def wqlToSqlCount (build : Build) (cls : Bytes) (op : Operator) : Outcome SqlPiece :=
  statementText countBase build cls op

end Build

section Render

/-- The tables of tags. -/
inductive TagTable
  | plaintext
  | encrypted
  deriving DecidableEq, Repr

def TagTable.name : TagTable → String
  | plaintext => "tags_plaintext"
  | encrypted => "tags_encrypted"

def TagName.table : TagName → TagTable
  | .ofPlain _ => .plaintext
  | .ofEncrypted _ => .encrypted

def TagName.bytes : TagName → Bytes
  | .ofPlain name => name
  | .ofEncrypted name => name

/-- The text of a condition on a tag up to the comparison of its value. -/
def tagHead (table : TagTable) : List Char :=
  "(i.id in (SELECT item_id FROM ".toList ++ table.name.toList ++
    " WHERE name = ? AND value ".toList

theorem tagHead_eq (table : TagTable) : tagHead table =
    "(i.id in (SELECT item_id FROM ".toList ++ table.name.toList ++
    " WHERE name = ? AND value ".toList := rfl

def testTail (op : CompareOp) : List Char := op.symbol.toList ++ " ?))".toList

theorem testTail_eq (op : CompareOp) : testTail op = op.symbol.toList ++ " ?))".toList := rfl

/-- Placeholders with commas between them. -/
def placeholders : ℕ → List Char
  | 0 => []
  | 1 => ['?']
  | n + 2 => '?' :: ',' :: placeholders (n + 1)

def inTail (targets : List Char) : List Char := "IN (".toList ++ targets ++ ")))".toList

theorem inTail_eq (targets : List Char) : inTail targets = "IN (".toList ++ targets ++
    ")))".toList := rfl

def Condition.text : Condition → List Char
  | .test op _ => testTail op
  | .isIn values trailingComma =>
    inTail (placeholders values.length ++ if trailingComma then [','] else [])

def Condition.arguments : Condition → List SqlValue
  | .test _ value => [value]
  | .isIn values _ => values

def joint (conjunction : Bool) : List Char := if conjunction then " AND ".toList else " OR ".toList

mutual

def Clause.text : Clause → List Char
  | .empty => []
  | .tag name condition => tagHead name.table ++ condition.text
  | .joined conjunction clauses => '(' :: Clause.joinedText (joint conjunction) clauses ++ [')']
  | .not clause => "NOT (".toList ++ Clause.text clause ++ [')']

def Clause.joinedText (separator : List Char) : List Clause → List Char
  | [] => []
  | clause :: clauses =>
    Clause.text clause ++ (if clauses = [] then [] else separator) ++
      Clause.joinedText separator clauses

end

namespace Clause

theorem text_empty : text .empty = [] := rfl

theorem text_tag (name : TagName) (condition : Condition) :
    (tag name condition).text = tagHead name.table ++ condition.text := rfl

theorem text_joined (conjunction : Bool) (clauses : List Clause) :
    (joined conjunction clauses).text = '(' :: joinedText (joint conjunction) clauses ++
    [')'] := rfl

theorem text_not (clause : Clause) : (not clause).text = "NOT (".toList ++ clause.text ++
    [')'] := rfl

end Clause

mutual

/-- The arguments of a clause, from left to right. -/
def Clause.arguments : Clause → List SqlValue
  | .empty => []
  | .tag name condition => .blob name.bytes :: condition.arguments
  | .joined _ clauses => Clause.allArguments clauses
  | .not clause => Clause.arguments clause

def Clause.allArguments : List Clause → List SqlValue
  | [] => []
  | clause :: clauses => Clause.arguments clause ++ Clause.allArguments clauses

end

/-- A clause as the code has it: its text, and its arguments behind those before. -/
def Clause.piece (arguments : List SqlValue) (clause : Clause) : SqlPiece :=
  (String.ofList clause.text, arguments ++ clause.arguments)

end Render

section Agreement

variable {build : Build}

/-- The pieces of the code are those of the clause it stands for. -/
def pieceOf (arguments : List SqlValue) (result : Outcome Clause) : Outcome SqlPiece := do
  let clause ← result
  pure (clause.piece arguments)

@[simp] theorem pieceOf_ok (arguments : List SqlValue) (clause : Clause) :
    pieceOf arguments (.ok clause) = .ok (clause.piece arguments) := rfl

@[simp] theorem pieceOf_error (arguments : List SqlValue) (fault : Fault) :
    pieceOf arguments (.error fault) = .error fault := rfl

theorem piece_tag {text : String} {arguments arguments' : List SqlValue} {name : TagName}
    {condition : Condition} (htext : text.toList = tagHead name.table ++ condition.text)
    (harguments : arguments' = arguments ++ .blob name.bytes :: condition.arguments) :
    (text, arguments') = (Clause.tag name condition).piece arguments := by
  rw [Clause.piece, Clause.text_tag, Clause.arguments, ← htext, String.ofList_toList, harguments]

theorem testText_eq (op : CompareOp) (name : TagName) (value : TargetValue)
    (arguments : List SqlValue) :
    testText op name value arguments = pieceOf arguments (testToSql op name value) := by
  cases name with
  | ofPlain queriedName =>
    cases value with
    | unencrypted queriedValue =>
      rw [testText, testToSql, pieceOf_ok, Except.ok.injEq]
      apply piece_tag
      · simp [Condition.text, tagHead_eq, testTail_eq, TagTable.name, TagName.table]
      · rfl
    | encrypted queriedValue => rfl
  | ofEncrypted queriedName =>
    cases value with
    | unencrypted queriedValue => rfl
    | encrypted queriedValue =>
      unfold testText testToSql
      dsimp only
      split_ifs with hop
      · rw [pieceOf_ok, Except.ok.injEq]
        apply piece_tag
        · simp [Condition.text, tagHead_eq, testTail_eq, TagTable.name, TagName.table]
        · rfl
      · rfl

/-- The placeholders of a list of values, with a comma after those at some of the indices. -/
def marks (comma : ℕ → Bool) : ℕ → ℕ → List Char
  | _, 0 => []
  | index, n + 1 => '?' :: (if comma index then [','] else []) ++ marks comma (index + 1) n

theorem pushTargets_eq (target : TargetValue → Outcome SqlValue) (comma : ℕ → Bool)
    (values : List TargetValue) (index : ℕ) (s : String) (arguments : List SqlValue) :
    pushTargets target comma index values (s, arguments) = (do
      let targets ← values.mapM target
      pure (s ++ String.ofList (marks comma index targets.length), arguments ++ targets)) := by
  induction values generalizing index s arguments with
  | nil => simp [pushTargets, marks]
  | cons value values ih =>
    rw [pushTargets, List.mapM_cons]
    cases target value with
    | error fault => rfl
    | ok queried =>
      simp only [except_ok_bind, ih]
      cases values.mapM target with
      | error fault => rfl
      | ok targets =>
        simp only [except_ok_bind, except_pure, List.length_cons, marks, Except.ok.injEq,
          Prod.mk.injEq]
        refine ⟨String.toList_inj.mp ?_, by simp⟩
        split_ifs <;> simp

/-- A comma stands after every placeholder but the last. -/
theorem marks_eq_placeholders {comma : ℕ → Bool} (length : ℕ)
    (hcomma : ∀ index < length, comma index = decide (index + 1 < length)) (n index : ℕ)
    (hn : index + n = length) :
    marks comma index n = placeholders n := by
  induction n generalizing index with
  | zero => rfl
  | succ n ih =>
    rw [marks, ih (index + 1) (by omega), hcomma index (by omega)]
    cases n with
    | zero => simp [placeholders, ← hn]
    | succ n => simp [placeholders, ← hn]

theorem length_of_mapM {α β : Type} {f : α → Outcome β} {l : List α} {l' : List β}
    (h : l.mapM f = .ok l') :
    l'.length = l.length := ((forall₂_of_mapM h).length_eq).symm

theorem inToSql_plain (queriedName : Bytes) (values : List TargetValue) :
    inToSql build (.ofPlain queriedName) values = (do
      let targets ← values.mapM plainTarget
      pure (.tag (.ofPlain queriedName) (.isIn targets false))) := rfl

theorem inToSql_encrypted (queriedName : Bytes) (values : List TargetValue) :
    inToSql build (.ofEncrypted queriedName) values =
      if build = .debug ∧ values.length < 2 then .error (.panic .overflow)
      else (do
        let targets ← values.mapM encryptedTarget
        pure (.tag (.ofEncrypted queriedName) (.isIn targets (decide (values.length = 1))))) := rfl

/-- The loop over the values between the two ends of the condition. -/
theorem pieceOf_isIn {name : TagName} {open' : String} {values : List TargetValue}
    {trailingComma : Bool}
    {target : TargetValue → Outcome SqlValue} {comma : ℕ → Bool} (arguments : List SqlValue)
    (hopen : open'.toList = tagHead name.table ++ "IN (".toList)
    (hmarks : marks comma 0 values.length = placeholders values.length ++
      if trailingComma then [','] else []) :
    (do
      let (inString, arguments) ← pushTargets target comma 0 values
        (open', arguments ++ [.blob name.bytes])
      pure (inString ++ ")))", arguments)) =
    pieceOf arguments (do
      let targets ← values.mapM target
      pure (.tag name (.isIn targets trailingComma))) := by
  rw [pushTargets_eq]
  cases htargets : values.mapM target with
  | error fault => rfl
  | ok targets =>
    rw [← length_of_mapM htargets] at hmarks
    simp only [except_ok_bind, except_pure, pieceOf_ok, Except.ok.injEq]
    apply piece_tag
    · simp [hopen, hmarks, Condition.text, inTail_eq]
    · simp [Condition.arguments]

theorem inText_eq (name : TagName) (values : List TargetValue) (arguments : List SqlValue) :
    inText build name values arguments = pieceOf arguments (inToSql build name values) := by
  cases name with
  | ofPlain queriedName =>
    rw [inToSql_plain, inText]
    refine @pieceOf_isIn (.ofPlain queriedName) _ values false plainTarget _ arguments ?_ ?_
    · simp [tagHead_eq, TagTable.name, TagName.table]
    · rw [marks_eq_placeholders values.length ?_ _ 0 (Nat.zero_add _)]
      · simp
      · intro index _
        rw [decide_eq_decide]
        omega
  | ofEncrypted queriedName =>
    have hopen :
        "(i.id in (SELECT item_id FROM tags_encrypted WHERE name = ? AND value IN (".toList =
        tagHead (TagName.ofEncrypted queriedName).table ++ "IN (".toList := by
      simp [tagHead_eq, TagTable.name, TagName.table]
    rw [inToSql_encrypted, inText]
    by_cases hlength : 2 ≤ values.length
    · rw [if_neg (by omega), subU64_of_le build hlength, except_ok_bind, decide_eq_false (by omega)]
      refine @pieceOf_isIn (.ofEncrypted queriedName) _ values false encryptedTarget _
        arguments hopen ?_
      rw [marks_eq_placeholders values.length ?_ _ 0 (Nat.zero_add _)]
      · simp
      · intro index _
        rw [decide_eq_decide]
        omega
    · cases build with
      | debug =>
        rw [if_pos ⟨rfl, by omega⟩, subU64.eq_def, if_neg hlength]
        rfl
      | release =>
        -- The index before the last one wraps around, and every value gets its comma.
        rw [if_neg (by simp), subU64.eq_def, if_neg hlength]
        refine @pieceOf_isIn (.ofEncrypted queriedName) _ values _ encryptedTarget _
          arguments hopen ?_
        rcases values with _ | ⟨value, _ | ⟨value', values⟩⟩
        · rfl
        · rfl
        · simp at hlength

theorem length_operatorsToSql {operators : List Operator} {clauses : List Clause}
    (h : operatorsToSql build operators = .ok clauses) : clauses.length = operators.length := by
  induction operators generalizing clauses with
  | nil =>
    simp only [operatorsToSql, Except.ok.injEq] at h
    rw [← h, List.length_nil, List.length_nil]
  | cons operator operators ih =>
    rw [operatorsToSql, except_bind_eq_ok] at h
    obtain ⟨clause, -, h⟩ := h
    obtain ⟨clauses', hclauses, h⟩ := except_bind_eq_ok.mp h
    rw [← Except.ok.inj h, List.length_cons, ih hclauses, List.length_cons]

/-- The ends around the joined pieces. -/
theorem pieceOf_joinClauses (conjunction : Bool) {operators : List Operator} (hne : operators ≠ [])
    (arguments : List SqlValue) :
    pieceOf arguments (do
      let clauses ← operatorsToSql build operators
      pure (joinClauses conjunction clauses)) = (do
      let clauses ← operatorsToSql build operators
      pure ("(" ++ String.ofList (Clause.joinedText (joint conjunction) clauses) ++ ")",
        arguments ++ Clause.allArguments clauses)) := by
  cases hclauses : operatorsToSql build operators with
  | error fault => rfl
  | ok clauses =>
    have hlength := length_operatorsToSql hclauses
    have hjoin : joinClauses conjunction clauses = .joined conjunction clauses := by
      unfold joinClauses
      split
      · exact absurd (List.length_eq_zero_iff.mp hlength.symm) hne
      · rfl
    simp only [except_ok_bind, except_pure, pieceOf_ok, hjoin, Clause.piece, Clause.arguments,
      Except.ok.injEq, Prod.mk.injEq, and_true]
    apply String.toList_inj.mp
    simp [Clause.text_joined]

mutual

/-- The code puts together the text of the clause and pushes its arguments from left to right. -/
theorem operatorText_eq (build : Build) : (operator : Operator) → ∀ arguments,
    operatorText build operator arguments = pieceOf arguments (operatorToSql build operator)
  | .test op tagName value, arguments => by
    rw [operatorText, operatorToSql, testText_eq]
  | .isIn tagName values, arguments => by
    rw [operatorText, operatorToSql, inText_eq]
  | .and operators, arguments => by
    rw [operatorText, operatorToSql]
    split_ifs with hempty
    · rw [hempty, operatorsToSql]
      simp [joinClauses, Clause.piece, Clause.text_empty, Clause.arguments]
    · rw [pieceOf_joinClauses true hempty,
        joinOperators_eq build _ _ operators 0 _ _ (Nat.zero_add _)]
      cases operatorsToSql build operators <;> rfl
  | .or operators, arguments => by
    rw [operatorText, operatorToSql]
    split_ifs with hempty
    · rw [hempty, operatorsToSql]
      simp [joinClauses, Clause.piece, Clause.text_empty, Clause.arguments]
    · rw [pieceOf_joinClauses false hempty,
        joinOperators_eq build _ _ operators 0 _ _ (Nat.zero_add _)]
      cases operatorsToSql build operators <;> rfl
  | .not operator, arguments => by
    rw [operatorText, operatorToSql, operatorText_eq build operator arguments]
    cases operatorToSql build operator with
    | error fault => rfl
    | ok clause =>
      simp only [pieceOf_ok, except_ok_bind, except_pure, Clause.piece, Clause.arguments,
        Except.ok.injEq, Prod.mk.injEq, and_true]
      apply String.toList_inj.mp
      simp [Clause.text_not]

theorem joinOperators_eq (build : Build) (joinStr : String) (length : ℕ) :
    (operators : List Operator) →
    ∀ index s arguments, index + operators.length = length →
      joinOperators build joinStr length index operators (s, arguments) = (do
        let clauses ← operatorsToSql build operators
        pure (s ++ String.ofList (Clause.joinedText joinStr.toList clauses), arguments ++
          Clause.allArguments clauses))
  | [], index, s, arguments, _ => by
    simp [joinOperators, operatorsToSql, Clause.joinedText, Clause.allArguments]
  | operator :: operators, index, s, arguments, hlength => by
    rw [List.length_cons] at hlength
    have ih := joinOperators_eq build joinStr length operators (index + 1)
    rw [joinOperators, operatorText_eq build operator arguments, operatorsToSql]
    cases operatorToSql build operator with
    | error fault => rfl
    | ok clause =>
      simp only [pieceOf_ok, Clause.piece, except_ok_bind, ih _ _ (by omega)]
      cases hclauses : operatorsToSql build operators with
      | error fault => rfl
      | ok clauses =>
        -- The joint stands where more clauses follow.
        have hmore : index < length - 1 ↔ clauses ≠ [] := by
          have hsame := length_operatorsToSql hclauses
          rw [Ne, ← List.length_eq_zero_iff]
          omega
        simp only [except_ok_bind, except_pure, Clause.joinedText, Clause.allArguments,
          Except.ok.injEq, Prod.mk.injEq, List.append_assoc, and_true]
        apply String.toList_inj.mp
        by_cases hclauses' : clauses = []
        · simp [hclauses', hmore, Clause.joinedText]
        · simp [hclauses', hmore]

end

end Agreement

end SimpleAsset.Indy.Wallet
