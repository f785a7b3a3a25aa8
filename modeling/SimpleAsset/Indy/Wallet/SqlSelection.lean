import SimpleAsset.Indy.Wallet.CompiledQuery

/-! What a statement selects when its arguments are bound to the placeholders from left to right. -/
namespace SimpleAsset.Indy.Wallet
open SimpleAsset.Library

section Reading

theorem tagHead_append_inj {table table' : TagTable} {r r' : List Char}
    (h : tagHead table ++ r = tagHead table' ++ r') : table = table' ∧ r = r' := by
  cases table <;> cases table'
  case plaintext.plaintext | encrypted.encrypted => exact ⟨rfl, List.append_cancel_left h⟩
  case plaintext.encrypted | encrypted.plaintext => simp [tagHead_eq, TagTable.name] at h

theorem testTail_append_inj {op op' : CompareOp} {r r' : List Char}
    (h : testTail op ++ r = testTail op' ++ r') :
    op = op' ∧ r = r' := by
  cases op <;> cases op' <;> simp_all [testTail_eq, CompareOp.symbol]

theorem testTail_append_ne_inTail (op : CompareOp) (targets r r' : List Char) :
    testTail op ++ r ≠ inTail targets ++ r' := by
  cases op <;> simp [testTail_eq, inTail_eq, CompareOp.symbol]

theorem placeholders_append_inj {more more' : ℕ} {r r' : List Char}
    (h : placeholders (more + 1) ++ ')' :: r = placeholders (more' + 1) ++ ')' :: r') :
    more = more' ∧ r = r' := by
  induction more generalizing more' with
  | zero =>
    cases more' with
    | zero => simpa [placeholders] using h
    | succ more' => simp [placeholders] at h
  | succ more ih =>
    cases more' with
    | zero => simp [placeholders] at h
    | succ more' =>
      obtain ⟨hmore, hr⟩ := ih (by simpa [placeholders] using h)
      exact ⟨congrArg Nat.succ hmore, hr⟩

theorem inTail_append_inj {more more' : ℕ} {r r' : List Char}
    (h : inTail (placeholders (more + 1)) ++ r = inTail (placeholders (more' + 1)) ++ r') :
    more = more' ∧ r = r' := by
  simp only [inTail_eq, List.append_assoc, List.append_cancel_left_eq] at h
  obtain ⟨hmore, hr⟩ := placeholders_append_inj h
  exact ⟨hmore, by simpa using hr⟩

theorem joint_append_inj {conjunction conjunction' : Bool} {r r' : List Char}
    (h : joint conjunction ++ r = joint conjunction' ++ r') :
    conjunction = conjunction' ∧ r = r' := by
  cases conjunction <;> cases conjunction' <;> simp_all [joint]

theorem close_ne_joint (conjunction : Bool) (r r' : List Char) :
    ')' :: r ≠ joint conjunction ++ r' := by
  cases conjunction <;> simp [joint]

/-- A condition in parentheses is told apart from one on a tag by its second character. -/
theorem tagHead_append_ne_group (table : TagTable) (condition : SqlCondition) (r r' : List Char) :
    tagHead table ++ r ≠ '(' :: (condition.text ++ r') := by
  intro h
  have hsecond : ∃ rest, tagHead table ++ r = '(' :: 'i' :: rest := by
    cases table
    all_goals exact ⟨_, rfl⟩
  obtain ⟨rest, hrest⟩ := hsecond
  rw [hrest, List.cons.injEq] at h
  have hframed := condition.framed
  have hhead : condition.text.head? = some 'i' := by
    rw [← List.head?_append_of_ne_nil condition.text hframed.ne_nil, ← h.2]
    rfl
  rcases hframed.first with hfirst | hfirst <;> rw [hhead] at hfirst <;> simp at hfirst

theorem not_append_ne (r r' : List Char) : "NOT (".toList ++ r ≠ '(' :: r' := by
  simp

theorem tagHead_append_ne_not (table : TagTable) (r r' : List Char) :
    tagHead table ++ r ≠ "NOT (".toList ++ r' := by
  cases table <;> simp [tagHead_eq]

namespace SqlCondition

theorem text_group (condition : SqlCondition) (r : List Char) :
    (group condition).text ++ r = '(' :: (condition.text ++ ')' :: r) := by
  simp [text_group_eq]

theorem text_joined (conjunction : Bool) (first second : SqlCondition) (rest : List SqlCondition)
    (r : List Char) :
    (joined conjunction first second rest).text ++ r =
      '(' :: (first.text ++ (Wallet.joint conjunction ++ (second.text ++
        (followText (Wallet.joint conjunction) rest ++ ')' :: r)))) := by
  simp [text_joined_eq]

mutual

/-- A text begins with one condition only. -/
theorem text_append_inj : (c c' : SqlCondition) → ∀ {r r' : List Char}, c.text ++ r = c'.text ++
    r' → c = c' ∧ r = r'
  | .test table op, c', r, r', h => by
    rw [text_test, List.append_assoc] at h
    cases c' with
    | test table' op' =>
      rw [text_test, List.append_assoc] at h
      obtain ⟨rfl, htail⟩ := tagHead_append_inj h
      obtain ⟨rfl, hr⟩ := testTail_append_inj htail
      exact ⟨rfl, hr⟩
    | isIn table' more =>
      rw [text_isIn, List.append_assoc] at h
      exact absurd (tagHead_append_inj h).2 (testTail_append_ne_inTail op _ _ _)
    | group condition =>
      rw [text_group] at h
      exact absurd h (tagHead_append_ne_group table _ _ _)
    | joined conjunction first second rest =>
      rw [text_joined] at h
      exact absurd h (tagHead_append_ne_group table _ _ _)
    | not condition =>
      rw [text_not, List.append_assoc] at h
      exact absurd h (tagHead_append_ne_not table _ _)
  | .isIn table more, c', r, r', h => by
    rw [text_isIn, List.append_assoc] at h
    cases c' with
    | test table' op' =>
      rw [text_test, List.append_assoc] at h
      exact absurd (tagHead_append_inj h).2.symm (testTail_append_ne_inTail op' _ _ _)
    | isIn table' more' =>
      rw [text_isIn, List.append_assoc] at h
      obtain ⟨rfl, htail⟩ := tagHead_append_inj h
      obtain ⟨rfl, hr⟩ := inTail_append_inj htail
      exact ⟨rfl, hr⟩
    | group condition =>
      rw [text_group] at h
      exact absurd h (tagHead_append_ne_group table _ _ _)
    | joined conjunction first second rest =>
      rw [text_joined] at h
      exact absurd h (tagHead_append_ne_group table _ _ _)
    | not condition =>
      rw [text_not, List.append_assoc] at h
      exact absurd h (tagHead_append_ne_not table _ _)
  | .group condition, c', r, r', h => by
    rw [text_group] at h
    cases c' with
    | test table' op' =>
      rw [text_test, List.append_assoc] at h
      exact absurd h.symm (tagHead_append_ne_group table' _ _ _)
    | isIn table' more' =>
      rw [text_isIn, List.append_assoc] at h
      exact absurd h.symm (tagHead_append_ne_group table' _ _ _)
    | group condition' =>
      rw [text_group] at h
      obtain ⟨rfl, hr⟩ := text_append_inj condition condition' (List.cons.inj h).2
      exact ⟨rfl, (List.cons.inj hr).2⟩
    | joined conjunction first second rest =>
      rw [text_joined] at h
      exact absurd (text_append_inj condition first (List.cons.inj h).2).2
        (close_ne_joint conjunction _ _)
    | not condition' =>
      rw [text_not, List.append_assoc] at h
      exact absurd h.symm (not_append_ne _ _)
  | .joined conjunction first second rest, c', r, r', h => by
    rw [text_joined] at h
    cases c' with
    | test table' op' =>
      rw [text_test, List.append_assoc] at h
      exact absurd h.symm (tagHead_append_ne_group table' _ _ _)
    | isIn table' more' =>
      rw [text_isIn, List.append_assoc] at h
      exact absurd h.symm (tagHead_append_ne_group table' _ _ _)
    | group condition' =>
      rw [text_group] at h
      exact absurd (text_append_inj first condition' (List.cons.inj h).2).2.symm
        (close_ne_joint conjunction _ _)
    | joined conjunction' first' second' rest' =>
      rw [text_joined] at h
      obtain ⟨rfl, hjoint⟩ := text_append_inj first first' (List.cons.inj h).2
      obtain ⟨rfl, hsecond⟩ := joint_append_inj hjoint
      obtain ⟨rfl, hrest⟩ := text_append_inj second second' hsecond
      obtain ⟨rfl, hr⟩ := followText_append_inj conjunction rest rest' hrest
      exact ⟨rfl, hr⟩
    | not condition' =>
      rw [text_not, List.append_assoc] at h
      exact absurd h.symm (not_append_ne _ _)
  | .not condition, c', r, r', h => by
    rw [text_not, List.append_assoc, List.append_assoc] at h
    cases c' with
    | test table' op' =>
      rw [text_test, List.append_assoc] at h
      exact absurd h.symm (tagHead_append_ne_not table' _ _)
    | isIn table' more' =>
      rw [text_isIn, List.append_assoc] at h
      exact absurd h.symm (tagHead_append_ne_not table' _ _)
    | group condition' =>
      rw [text_group] at h
      exact absurd h (not_append_ne _ _)
    | joined conjunction' first' second' rest' =>
      rw [text_joined] at h
      exact absurd h (not_append_ne _ _)
    | not condition' =>
      rw [text_not, List.append_assoc, List.append_assoc] at h
      obtain ⟨rfl, hr⟩ := text_append_inj condition condition' (List.append_cancel_left h)
      exact ⟨rfl, (List.cons.inj hr).2⟩

theorem followText_append_inj (conjunction : Bool) :
    (cs cs' : List SqlCondition) → ∀ {r r' : List Char}, followText (Wallet.joint conjunction) cs ++
    ')' :: r = followText (Wallet.joint conjunction) cs' ++ ')' :: r' →
      cs = cs' ∧ r = r'
  | [], cs', r, r', h => by
    rw [followText, List.nil_append] at h
    cases cs' with
    | nil =>
      rw [followText, List.nil_append] at h
      exact ⟨rfl, (List.cons.inj h).2⟩
    | cons c' cs' =>
      rw [followText, List.append_assoc, List.append_assoc] at h
      exact absurd h (close_ne_joint conjunction _ _)
  | c :: cs, cs', r, r', h => by
    rw [followText, List.append_assoc, List.append_assoc] at h
    cases cs' with
    | nil =>
      rw [followText, List.nil_append] at h
      exact absurd h.symm (close_ne_joint conjunction _ _)
    | cons c' cs' =>
      rw [followText, List.append_assoc, List.append_assoc] at h
      obtain ⟨rfl, hrest⟩ := text_append_inj c c' (List.append_cancel_left h)
      obtain ⟨rfl, hr⟩ := followText_append_inj conjunction cs cs' hrest
      exact ⟨rfl, hr⟩

end

theorem text_injective {c c' : SqlCondition} (h : c.text = c'.text) : c = c' :=
  (@text_append_inj c c' [] [] (by rw [h])).1

end SqlCondition

/-- A statement is read in one way. -/
theorem statementWith_inj {base : String} {condition condition' : Option SqlCondition}
    (h : statementWith base condition = statementWith base condition') :
    condition = condition' := by
  cases condition with
  | none =>
    cases condition' with
    | none => rfl
    | some c' => exact absurd h.symm (append_and_ne base _)
  | some c =>
    cases condition' with
    | none => exact absurd h (append_and_ne base _)
    | some c' => rw [SqlCondition.text_injective (append_and_inj.mp h)]

end Reading

section Execution

variable (S : Sqlite) (db : Db) (rowid : ℕ)

/-- What a row has under a name in a table of tags; names are blobs. -/
def TagTable.value (table : TagTable) : SqlValue → Option SqlValue
  | .blob name => match table with
    | .plaintext => (db.tagsPlaintext.lookup (name, rowid)).map .text
    | .encrypted => (db.tagsEncrypted.lookup (name, rowid)).map .blob
  | .text _ => none

def connect (conjunction : Bool) (results : List Bool) : Bool :=
  if conjunction then results.all fun b => b else results.any fun b => b

mutual

/-- Whether a condition holds of a row, with the arguments that are left for the placeholders behind
it. -/
def SqlCondition.eval : SqlCondition → List SqlValue → Bool × List SqlValue
  | .test table op, name :: value :: arguments =>
    ((table.value db rowid name).any fun stored => op.holds S stored value, arguments)
  | .test _ _, _ => (false, [])
  | .isIn table more, name :: arguments =>
    ((table.value db rowid name).any fun stored => decide (stored ∈ arguments.take (more + 1)),
      arguments.drop (more + 1))
  | .isIn _ _, [] => (false, [])
  | .group condition, arguments => SqlCondition.eval condition arguments
  | .joined conjunction first second rest, arguments =>
    let (b, arguments) := SqlCondition.eval first arguments
    let (b', arguments) := SqlCondition.eval second arguments
    let (results, arguments) := SqlCondition.evalEach rest arguments
    (connect conjunction (b :: b' :: results), arguments)
  | .not condition, arguments =>
    let (b, arguments) := SqlCondition.eval condition arguments
    (!b, arguments)

def SqlCondition.evalEach : List SqlCondition → List SqlValue → List Bool × List SqlValue
  | [], arguments => ([], arguments)
  | condition :: conditions, arguments =>
    let (b, arguments) := SqlCondition.eval condition arguments
    let (results, arguments) := SqlCondition.evalEach conditions arguments
    (b :: results, arguments)

end

/-- The rows of a statement whose first placeholder is the type. -/
def executed (condition : Option SqlCondition) : List SqlValue → List ((_ : ℕ) × Item)
  | [] => []
  | type :: arguments => db.items.entries.filter fun e =>
    decide (SqlValue.blob e.2.type = type) && condition.all fun c => (c.eval S db e.1 arguments).1

variable {S db rowid}

theorem value_tag (name : TagName) :
    name.table.value db rowid (.blob name.bytes) = (db.tag rowid name).map Tag.sqlValue := by
  cases name with
  | ofPlain name =>
    simp only [TagName.table, TagName.bytes, TagTable.value, Db.tag, Option.map_map]
    rfl
  | ofEncrypted name =>
    simp only [TagName.table, TagName.bytes, TagTable.value, Db.tag, Option.map_map]
    rfl

theorem eval_inTable {name : TagName} {condition : Condition} {c : SqlCondition}
    (h : condition.inTable name.table = some c) (rest : List SqlValue) :
    c.eval S db rowid ((Clause.tag name condition).arguments ++ rest) =
      ((Clause.tag name condition).holds S db rowid, rest) := by
  have hany : ∀ p : SqlValue → Bool, (name.table.value db rowid (.blob name.bytes)).any p =
      (db.tag rowid name).any fun found => p found.sqlValue := by
    intro p
    rw [value_tag]
    cases db.tag rowid name <;> rfl
  have hholds : (Clause.tag name condition).holds S db rowid =
      (db.tag rowid name).any fun found => condition.holds S found.sqlValue := by
    rw [Clause.holds]
    cases db.tag rowid name <;> rfl
  rw [Clause.arguments, hholds]
  rcases condition with ⟨op, value⟩ | ⟨_ | ⟨value, more⟩, trailingComma⟩
  · obtain rfl := Option.some.inj h
    rw [Condition.arguments, List.cons_append, List.singleton_append, SqlCondition.eval, hany]
    rfl
  · cases h
  · rw [Condition.inTable] at h
    split_ifs at h
    obtain rfl := Option.some.inj h
    rw [Condition.arguments, List.cons_append, SqlCondition.eval, hany, ← List.length_cons,
      List.take_left', List.drop_left']
    · rfl
    · rfl
    · rfl

theorem eval_joinConditions {conjunction : Bool} {conditions : List SqlCondition} {c : SqlCondition}
    (h : joinConditions conjunction conditions = some c) (arguments : List SqlValue) :
    c.eval S db rowid arguments =
      (connect conjunction (SqlCondition.evalEach S db rowid conditions arguments).1,
      (SqlCondition.evalEach S db rowid conditions arguments).2) := by
  rcases conditions with _ | ⟨condition, _ | ⟨second, rest⟩⟩
  · cases h
  · obtain rfl := Option.some.inj h
    cases conjunction <;> simp [SqlCondition.eval, SqlCondition.evalEach, connect]
  · obtain rfl := Option.some.inj h
    simp only [SqlCondition.eval, SqlCondition.evalEach]

theorem holds_joined (conjunction : Bool) (clauses : List Clause) :
    (Clause.joined conjunction clauses).holds S db rowid =
      connect conjunction (clauses.map fun clause => clause.holds S db rowid) := by
  cases conjunction
  · rw [Clause.holds]
    induction clauses with
    | nil => rfl
    | cons clause clauses ih =>
      rw [Clause.anyHolds, ih]
      rfl
  · rw [Clause.holds]
    induction clauses with
    | nil => rfl
    | cons clause clauses ih =>
      rw [Clause.allHold, ih]
      rfl

mutual

/-- The condition of a clause holds where the clause does, and takes just the arguments of the
clause. -/
theorem eval_condition : (clause : Clause) →
    ∀ {c : SqlCondition}, clause.condition = some c → ∀ rest,
    c.eval S db rowid (clause.arguments ++ rest) = (clause.holds S db rowid, rest)
  | .empty, c, h, rest => by
    rw [Clause.condition] at h
    cases h
  | .tag name condition, c, h, rest => by
    rw [Clause.condition] at h
    exact eval_inTable h rest
  | .joined conjunction clauses, c, h, rest => by
    rw [Clause.condition, Option.bind_eq_bind, Option.bind_eq_some_iff] at h
    obtain ⟨conditions, hconditions, hjoin⟩ := h
    rw [eval_joinConditions hjoin, Clause.arguments, evalEach_conditions clauses hconditions,
      holds_joined]
  | .not clause, c, h, rest => by
    rw [Clause.condition, Option.bind_eq_bind, Option.bind_eq_some_iff] at h
    obtain ⟨condition, hcondition, hnot⟩ := h
    obtain rfl := Option.some.inj hnot
    rw [SqlCondition.eval, Clause.arguments, eval_condition clause hcondition, Clause.holds]

theorem evalEach_conditions : (clauses : List Clause) → ∀ {conditions : List SqlCondition},
    Clause.conditions clauses = some conditions → ∀ rest,
      SqlCondition.evalEach S db rowid conditions (Clause.allArguments clauses ++ rest) =
        (clauses.map fun clause => clause.holds S db rowid, rest)
  | [], conditions, h, rest => by
    simp only [Clause.conditions, Option.some.injEq] at h
    rw [← h, SqlCondition.evalEach, Clause.allArguments]
    rfl
  | clause :: clauses, conditions, h, rest => by
    rw [Clause.conditions, Option.bind_eq_bind, Option.bind_eq_some_iff] at h
    obtain ⟨condition, hcondition, h⟩ := h
    obtain ⟨conditions', hconditions, h⟩ := Option.bind_eq_some_iff.mp h
    obtain rfl := Option.some.inj h
    rw [SqlCondition.evalEach, Clause.allArguments, List.append_assoc,
      eval_condition clause hcondition]
    dsimp only
    rw [evalEach_conditions clauses hconditions, List.map_cons]

end

end Execution

section Selection

def TargetValue.sqlValue : TargetValue → SqlValue
  | .unencrypted value => .text value
  | .encrypted value => .blob value

/-- Plain names go with unencrypted values, and encrypted ones with encrypted values. -/
def TagName.accepts : TagName → TargetValue → Bool
  | .ofPlain _, .unencrypted _ => true
  | .ofEncrypted _, .encrypted _ => true
  | _, _ => false

/-- Encrypted values have no order and no patterns. -/
def TagName.compares (name : TagName) (op : CompareOp) : Bool :=
  match name with
  | .ofPlain _ => true
  | .ofEncrypted _ => decide (op = .eq ∨ op = .neq)

namespace Operator

mutual

/-- The tags of an item satisfy an operator; the comparisons ask for the tag to be there. -/
def isSatisfied (S : Sqlite) (stored : TagName → Option Tag) : Operator → Bool
  | test op name value => (stored name).any fun tag => op.holds S tag.sqlValue value.sqlValue
  | isIn name values => (stored name).any fun tag =>
      decide (tag.sqlValue ∈ values.map TargetValue.sqlValue)
  | and operators => allSatisfied S stored operators
  | or operators => anySatisfied S stored operators
  | not operator => !isSatisfied S stored operator

def allSatisfied (S : Sqlite) (stored : TagName → Option Tag) : List Operator → Bool
  | [] => true
  | operator :: operators => isSatisfied S stored operator && allSatisfied S stored operators

def anySatisfied (S : Sqlite) (stored : TagName → Option Tag) : List Operator → Bool
  | [] => false
  | operator :: operators => isSatisfied S stored operator || anySatisfied S stored operators

end

mutual

/-- `$in` has two values or more, and the connectives have operands. -/
def isFilled : Operator → Bool
  | test _ _ _ => true
  | isIn _ values => decide (2 ≤ values.length)
  | and operators | or operators => !operators.isEmpty && allFilled operators
  | not operator => isFilled operator

def allFilled : List Operator → Bool
  | [] => true
  | operator :: operators => isFilled operator && allFilled operators

end

mutual

/-- Names go with values, and comparisons with names. -/
def isMatched : Operator → Bool
  | test op name value => name.accepts value && name.compares op
  | isIn name values => values.all name.accepts
  | and operators | or operators => allMatched operators
  | not operator => isMatched operator

def allMatched : List Operator → Bool
  | [] => true
  | operator :: operators => isMatched operator && allMatched operators

end

end Operator

variable {S : Sqlite} {build : Build}

/-- The clause of an operator holds of the rows whose tags satisfy it; an operator that is not
matched is refused. -/
structure ClauseOf (S : Sqlite) (build : Build) (operator : Operator) : Prop where
  matched : operator.isMatched = true → ∃ clause, operatorToSql build operator = .ok clause ∧
    clause.condition.isSome = true ∧
    ∀ db rowid, clause.holds S db rowid = operator.isSatisfied S (Db.tag db rowid)
  unmatched : operator.isMatched = false → ∃ e, operatorToSql build operator = .error (.err e)

structure ClausesOf (S : Sqlite) (build : Build) (operators : List Operator) : Prop where
  matched : Operator.allMatched operators = true →
    ∃ clauses, operatorsToSql build operators = .ok clauses ∧
    (Clause.conditions clauses).isSome = true ∧ ∀ db rowid,
      Clause.allHold S db rowid clauses = Operator.allSatisfied S (Db.tag db rowid) operators ∧
      Clause.anyHolds S db rowid clauses = Operator.anySatisfied S (Db.tag db rowid) operators
  unmatched : Operator.allMatched operators = false →
    ∃ e, operatorsToSql build operators = .error (.err e)

theorem clauseOf_test (op : CompareOp) (name : TagName) (value : TargetValue) :
    ClauseOf S build (.test op name value) := by
  have hholds : ∀ (queried : SqlValue) (db : Db) (rowid : ℕ), queried = value.sqlValue →
      (Clause.tag name (.test op queried)).holds S db rowid =
        (Operator.test op name value).isSatisfied S (Db.tag db rowid) := by
    rintro queried db rowid rfl
    rw [Clause.holds, Operator.isSatisfied]
    cases Db.tag db rowid name <;> rfl
  constructor
  · intro hmatched
    rw [Operator.isMatched, Bool.and_eq_true] at hmatched
    refine ⟨.tag name (.test op value.sqlValue), ?_, rfl, fun db rowid => hholds _ db rowid rfl⟩
    rw [operatorToSql]
    cases name <;> cases value <;> simp_all [TagName.accepts, TagName.compares, testToSql,
      TargetValue.sqlValue]
  · intro hunmatched
    rw [Operator.isMatched, Bool.and_eq_false_iff] at hunmatched
    rw [operatorToSql]
    cases name <;> cases value <;> simp_all [TagName.accepts, TagName.compares, testToSql, errMsg]

/-- The value that is bound for `$in`. -/
def TagName.target : TagName → TargetValue → Outcome SqlValue
  | .ofPlain _ => plainTarget
  | .ofEncrypted _ => encryptedTarget

theorem target_of_accepts {name : TagName} {value : TargetValue} (h : name.accepts value = true) :
    name.target value = .ok value.sqlValue := by
  cases name <;> cases value <;> simp_all [TagName.accepts, TagName.target, plainTarget,
    encryptedTarget, TargetValue.sqlValue]

theorem target_of_not_accepts {name : TagName} {value : TargetValue}
    (h : name.accepts value = false) :
    ∃ e, name.target value = .error (.err e) := by
  cases name <;> cases value <;> simp_all [TagName.accepts, TagName.target, plainTarget,
    encryptedTarget, errMsg]

theorem inToSql_of_two_le (name : TagName) {values : List TargetValue}
    (hlength : 2 ≤ values.length) :
    inToSql build name values = (do
      let targets ← values.mapM name.target
      pure (.tag name (.isIn targets false))) := by
  cases name with
  | ofPlain name => exact inToSql_plain name values
  | ofEncrypted name =>
    have hcomma : decide (values.length = 1) = false := decide_eq_false (by omega)
    rw [inToSql_encrypted, if_neg (by omega), hcomma]
    rfl

theorem clauseOf_isIn (name : TagName) {values : List TargetValue} (hlength : 2 ≤ values.length) :
    ClauseOf S build (.isIn name values) := by
  constructor
  · intro hmatched
    rw [Operator.isMatched, List.all_eq_true] at hmatched
    have htargets : values.mapM name.target = .ok (values.map TargetValue.sqlValue) :=
      mapM_eq_ok_map fun value hvalue => target_of_accepts (hmatched value hvalue)
    refine ⟨.tag name (.isIn (values.map TargetValue.sqlValue) false), ?_, ?_, ?_⟩
    · rw [operatorToSql, inToSql_of_two_le name hlength, htargets]
      rfl
    · rw [Clause.condition, inTable_isIn, List.length_map]
      exact ⟨by omega, rfl⟩
    · intro db rowid
      rw [Clause.holds, Operator.isSatisfied]
      cases Db.tag db rowid name <;> rfl
  · intro hunmatched
    rw [Operator.isMatched, List.all_eq_false] at hunmatched
    obtain ⟨value, hvalue, hnot⟩ := hunmatched
    rw [operatorToSql, inToSql_of_two_le name hlength]
    rcases mapM_cases values name.target with hall | ⟨before, x, after, e, hsplit, hbefore, hx⟩
    · obtain ⟨target, htarget⟩ := hall value hvalue
      obtain ⟨e, he⟩ := target_of_not_accepts (Bool.not_eq_true _ ▸ hnot)
      rw [he] at htarget
      cases htarget
    · rw [mapM_eq_error hsplit hbefore hx]
      cases haccepts : name.accepts x with
      | true =>
        rw [target_of_accepts haccepts] at hx
        cases hx
      | false =>
        obtain ⟨e', he'⟩ := target_of_not_accepts haccepts
        rw [he'] at hx
        exact ⟨e', by rw [← Except.error.inj hx]; rfl⟩

theorem clausesOf_nil : ClausesOf S build [] where
  matched _ := ⟨[], by simp only [operatorsToSql], rfl, fun db rowid => by
    simp only [Clause.allHold, Clause.anyHolds, Operator.allSatisfied,
      Operator.anySatisfied, and_self]⟩
  unmatched h := by
    rw [Operator.allMatched] at h
    cases h

theorem clausesOf_cons {operator : Operator} {operators : List Operator}
    (h : ClauseOf S build operator)
    (hall : ClausesOf S build operators) : ClausesOf S build (operator :: operators) where
  matched hmatched := by
    rw [Operator.allMatched, Bool.and_eq_true] at hmatched
    obtain ⟨clause, hclause, hcondition, hholds⟩ := h.matched hmatched.1
    obtain ⟨clauses, hclauses, hconditions, hallHold⟩ := hall.matched hmatched.2
    refine ⟨clause :: clauses, ?_, ?_, ?_⟩
    · rw [operatorsToSql, hclause, hclauses]
      rfl
    · obtain ⟨c, hc⟩ := Option.isSome_iff_exists.mp hcondition
      obtain ⟨cs, hcs⟩ := Option.isSome_iff_exists.mp hconditions
      rw [Clause.conditions, hc, hcs]
      rfl
    · intro db rowid
      obtain ⟨hand, hor⟩ := hallHold db rowid
      rw [Clause.allHold, Clause.anyHolds, Operator.allSatisfied, Operator.anySatisfied,
        hholds, hand, hor]
      exact ⟨rfl, rfl⟩
  unmatched hunmatched := by
    rw [Operator.allMatched, Bool.and_eq_false_iff] at hunmatched
    rw [operatorsToSql]
    cases hmatched : operator.isMatched with
    | false =>
      obtain ⟨e, he⟩ := h.unmatched hmatched
      exact ⟨e, by rw [he]; rfl⟩
    | true =>
      obtain ⟨clause, hclause, -⟩ := h.matched hmatched
      have hrest : Operator.allMatched operators = false := by simpa [hmatched] using hunmatched
      obtain ⟨e, he⟩ := hall.unmatched hrest
      exact ⟨e, by rw [hclause, he]; rfl⟩

/-- `and_to_sql` and `or_to_sql` differ in the word between the clauses only. -/
theorem clauseOf_joined {operators : List Operator} {operator : Operator} (conjunction : Bool)
    (hne : operators ≠ []) (hsql : operatorToSql build operator = do
      let clauses ← operatorsToSql build operators
      pure (joinClauses conjunction clauses))
    (hmatched : operator.isMatched = Operator.allMatched operators)
    (hsatisfied : ∀ stored, operator.isSatisfied S stored =
      if conjunction then Operator.allSatisfied S stored operators
        else Operator.anySatisfied S stored operators)
    (h : ClausesOf S build operators) : ClauseOf S build operator where
  matched hoperator := by
    rw [hmatched] at hoperator
    obtain ⟨clauses, hclauses, hconditions, hholds⟩ := h.matched hoperator
    obtain ⟨conditions, hconditions⟩ := Option.isSome_iff_exists.mp hconditions
    have hlength := length_operatorsToSql hclauses
    have hjoin : joinClauses conjunction clauses = .joined conjunction clauses := by
      unfold joinClauses
      split
      · exact absurd (List.length_eq_zero_iff.mp hlength.symm) hne
      · rfl
    refine ⟨.joined conjunction clauses, by rw [hsql, hclauses, ← hjoin]; rfl, ?_, ?_⟩
    · rw [Clause.condition, hconditions]
      obtain ⟨hempty, -⟩ := text_of_conditions [] _ hconditions
      rcases conditions with _ | ⟨c, _ | ⟨c', rest⟩⟩
      · have hnil := hempty.mpr rfl
        rw [hnil, List.length_nil, eq_comm, List.length_eq_zero_iff] at hlength
        exact absurd hlength hne
      · rfl
      · rfl
    · intro db rowid
      obtain ⟨hand, hor⟩ := hholds db rowid
      rw [hsatisfied]
      cases conjunction
      · rw [Clause.holds, hor]
        rfl
      · rw [Clause.holds, hand]
        rfl
  unmatched hoperator := by
    rw [hmatched] at hoperator
    obtain ⟨e, he⟩ := h.unmatched hoperator
    exact ⟨e, by rw [hsql, he]; rfl⟩

theorem clauseOf_not {operator : Operator} (h : ClauseOf S build operator) :
    ClauseOf S build (.not operator) where
  matched hmatched := by
    rw [Operator.isMatched] at hmatched
    obtain ⟨clause, hclause, hcondition, hholds⟩ := h.matched hmatched
    obtain ⟨c, hc⟩ := Option.isSome_iff_exists.mp hcondition
    refine ⟨.not clause, by rw [operatorToSql, hclause]; rfl, by rw [Clause.condition, hc]; rfl, ?_⟩
    intro db rowid
    rw [Clause.holds, Operator.isSatisfied, hholds]
  unmatched hunmatched := by
    rw [Operator.isMatched] at hunmatched
    obtain ⟨e, he⟩ := h.unmatched hunmatched
    exact ⟨e, by rw [operatorToSql, he]; rfl⟩

mutual

theorem clauseOf_operator : (operator : Operator) → operator.isFilled = true →
    ClauseOf S build operator
  | .test op name value, _ => clauseOf_test op name value
  | .isIn name values, h => by
    rw [Operator.isFilled, decide_eq_true_eq] at h
    exact clauseOf_isIn name h
  | .and operators, h => by
    rw [Operator.isFilled, Bool.and_eq_true, Bool.not_eq_true', List.isEmpty_eq_false_iff] at h
    exact clauseOf_joined true h.1 (by rw [operatorToSql]) (by rw [Operator.isMatched])
      (fun stored => by rw [Operator.isSatisfied, if_pos rfl]) (clausesOf_operators operators h.2)
  | .or operators, h => by
    rw [Operator.isFilled, Bool.and_eq_true, Bool.not_eq_true', List.isEmpty_eq_false_iff] at h
    exact clauseOf_joined false h.1 (by rw [operatorToSql]) (by rw [Operator.isMatched])
      (fun stored => by rw [Operator.isSatisfied, if_neg Bool.false_ne_true])
      (clausesOf_operators operators h.2)
  | .not operator, h => by
    rw [Operator.isFilled] at h
    exact clauseOf_not (clauseOf_operator operator h)

theorem clausesOf_operators : (operators : List Operator) → Operator.allFilled operators = true →
    ClausesOf S build operators
  | [], _ => clausesOf_nil
  | operator :: operators, h => by
    rw [Operator.allFilled, Bool.and_eq_true] at h
    exact clausesOf_cons (clauseOf_operator operator h.1) (clausesOf_operators operators h.2)

end

/-- The items of a type whose tags satisfy an operator. -/
def selected (S : Sqlite) (db : Db) (cls : Bytes) (operator : Operator) : List ((_ : ℕ) × Item) :=
  db.items.entries.filter fun e => decide (e.2.type = cls) && operator.isSatisfied S (db.tag e.1)

/-- However a statement is read, with its arguments it selects the items, and the other one counts
them. -/
structure Selects (S : Sqlite) (build : Build) (cls : Bytes) (operator : Operator)
    (text countText : String) (arguments : List SqlValue) : Prop where
  compiled : wqlToSql build cls operator = .ok (text, arguments)
  compiledCount : wqlToSqlCount build cls operator = .ok (countText, arguments)
  isStatement : IsStatement selectBase text
  isStatementCount : IsStatement countBase countText
  selects : ∀ condition db, text = statementWith selectBase condition →
    executed S db condition arguments = selected S db cls operator
  counts : ∀ condition db, countText = statementWith countBase condition →
    (executed S db condition arguments).length = (selected S db cls operator).length

/-- The statement of an operator selects the items of the type whose tags satisfy it, unless a name
is compared with a value of the other kind or in a way encrypted values are not. -/
theorem compiled_search_selects (S : Sqlite) (build : Build) (cls : Bytes) {operator : Operator}
    (hfilled : operator.isFilled = true) :
    (operator.isMatched = true → ∃ text countText arguments,
      Selects S build cls operator text countText arguments) ∧
    (operator.isMatched = false → ∃ e, wqlToSql build cls operator = .error (.err e) ∧
      wqlToSqlCount build cls operator = .error (.err e)) := by
  have hclauseOf : ClauseOf S build operator := clauseOf_operator operator hfilled
  constructor
  · intro hmatched
    obtain ⟨clause, hclause, hcondition, hholds⟩ := hclauseOf.matched hmatched
    obtain ⟨c, hc⟩ := Option.isSome_iff_exists.mp hcondition
    have hstatement : ∀ base, statementOf base clause = statementWith base (some c) := by
      intro base
      have htext := text_of_condition clause hc
      rw [statementOf, statementWith, htext, if_neg]
      rw [← htext]
      exact c.framed.ne_nil
    have hrows : ∀ db,
        executed S db (some c) (.blob cls :: clause.arguments) = selected S db cls operator := by
      intro db
      unfold executed selected
      apply List.filter_congr
      intro e _
      have heval : c.eval S db e.1 (clause.arguments ++ []) = (clause.holds S db e.1, []) :=
        eval_condition clause hc []
      rw [List.append_nil] at heval
      simp only [SqlValue.blob.injEq, Option.all_some, heval, hholds]
    have hcompiled : ∀ base, statementText base build cls operator =
        .ok (statementWith base (some c), .blob cls :: clause.arguments) := by
      intro base
      rw [statementText_eq, hclause, except_ok_bind, hstatement]
      rfl
    refine ⟨_, _, _, hcompiled selectBase, hcompiled countBase, ⟨some c, rfl⟩,
      ⟨some c, rfl⟩, ?_, ?_⟩
    · intro condition db hread
      rw [← statementWith_inj hread, hrows]
    · intro condition db hread
      rw [← statementWith_inj hread, hrows]
  · intro hunmatched
    obtain ⟨e, he⟩ := hclauseOf.unmatched hunmatched
    refine ⟨e, ?_, ?_⟩
    · rw [wqlToSql, statementText_eq, he]
      rfl
    · rw [wqlToSqlCount, statementText_eq, he]
      rfl

/-- `NOT` over a comparison of a plain tag, next to `IN` over two values of an encrypted one. -/
def sampleOperator : Operator :=
  .and [.isIn (.ofEncrypted [1]) [.encrypted [2], .encrypted [3]],
    .not (.test .gt (.ofPlain [4]) (.unencrypted "5"))]

theorem compiled_search_selects_sample : ∃ text countText arguments,
    Selects maxSqlite .debug [7] sampleOperator text countText arguments := by
  have hfilled : sampleOperator.isFilled = true := rfl
  have hmatched : sampleOperator.isMatched = true := rfl
  exact (compiled_search_selects maxSqlite .debug [7] hfilled).1 hmatched

end Selection

end SimpleAsset.Indy.Wallet
