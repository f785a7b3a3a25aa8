import SimpleAsset.Indy.Wallet.MapRefinement
import SimpleAsset.Indy.Wallet.SqlGrammar
import SimpleAsset.Indy.Wql.Parser

/-! Which queries are compiled to a statement of SQL. -/
namespace SimpleAsset.Indy.Wallet
open SimpleAsset.Library
open Anoncreds (Query)

section Statement

theorem count_tagHead (table : TagTable) : (tagHead table).count '?' = 1 := by
  cases table <;> decide

theorem count_testTail (op : CompareOp) : (testTail op).count '?' = 1 := by
  cases op <;> decide

theorem count_joint (conjunction : Bool) : (joint conjunction).count '?' = 0 := by
  cases conjunction <;> decide

theorem count_placeholders (n : ℕ) : (placeholders n).count '?' = n := by
  induction n using placeholders.induct with
  | case1 => rfl
  | case2 => rfl
  | case3 n ih =>
    rw [placeholders, List.count_cons_self, List.count_cons_of_ne (by decide), ih]

theorem count_condition (condition : Condition) :
    condition.text.count '?' = condition.arguments.length := by
  cases condition with
  | test op value => exact count_testTail op
  | isIn values trailingComma =>
    rw [Condition.text, Condition.arguments, inTail_eq, List.count_append, List.count_append,
      List.count_append, count_placeholders]
    cases trailingComma <;> simp

mutual

/-- A clause has an argument for every placeholder. -/
theorem count_text : (clause : Clause) → clause.text.count '?' = clause.arguments.length
  | .empty => by rw [Clause.text_empty, Clause.arguments]; rfl
  | .tag name condition => by
    rw [Clause.text_tag, Clause.arguments, List.count_append, count_tagHead, count_condition,
      List.length_cons]
    omega
  | .joined conjunction clauses => by
    rw [Clause.text_joined, Clause.arguments, ← count_joinedText conjunction clauses,
      List.cons_append, List.count_cons_of_ne (by decide), List.count_append]
    simp
  | .not clause => by
    rw [Clause.text_not, Clause.arguments, ← count_text clause, List.count_append,
      List.count_append]
    simp

theorem count_joinedText (conjunction : Bool) : (clauses : List Clause) →
    (Clause.joinedText (joint conjunction) clauses).count '?' = (Clause.allArguments clauses).length
  | [] => by rw [Clause.joinedText, Clause.allArguments]; rfl
  | clause :: clauses => by
    rw [Clause.joinedText, Clause.allArguments, List.length_append, ← count_text clause,
      ← count_joinedText conjunction clauses, List.count_append, List.count_append]
    split_ifs
    · simp
    · rw [count_joint, Nat.add_zero]

end

/-- The statement with a clause. -/
def statementOf (base : String) (clause : Clause) : String :=
  if clause.text = [] then base else base ++ " AND " ++ String.ofList clause.text

theorem statementText_eq (base : String) (build : Build) (cls : Bytes) (op : Operator) :
    statementText base build cls op = (do
      let clause ← operatorToSql build op
      pure (statementOf base clause, .blob cls :: clause.arguments)) := by
  rw [statementText, operatorText_eq]
  cases operatorToSql build op with
  | error fault => rfl
  | ok clause =>
    have hempty : String.ofList clause.text = "" ↔ clause.text = [] := by
      rw [← String.toList_inj, String.toList_ofList]
      exact Iff.rfl
    simp only [pieceOf_ok, except_ok_bind, except_pure, Clause.piece, statementOf, hempty,
      List.singleton_append]

/-- An error value, or a statement of SQL with an argument for every placeholder. -/
def Compiles (base : String) (result : Outcome SqlPiece) : Prop :=
  (∃ e, result = .error (.err e)) ∨
    ∃ text arguments, result = .ok (text, arguments) ∧ IsStatement base text ∧
      text.toList.count '?' = arguments.length

theorem isStatement_statementOf_iff (base : String) (clause : Clause) :
    IsStatement base (statementOf base clause) ↔ clause.text = [] ∨
    clause.condition.isSome = true := by
  unfold IsStatement statementOf
  split_ifs with hempty
  · exact iff_of_true ⟨none, rfl⟩ (Or.inl hempty)
  · rw [or_iff_right hempty, ← exists_text_eq_iff]
    constructor
    · rintro ⟨condition, hcondition⟩
      cases condition with
      | none => exact absurd hcondition (append_and_ne base _)
      | some c => exact ⟨c, (append_and_inj.mp hcondition).symm⟩
    · rintro ⟨c, hc⟩
      exact ⟨some c, by rw [statementWith, hc]⟩

theorem count_statementOf {base : String} (hbase : base.toList.count '?' = 1) (clause : Clause)
    (cls : Bytes) :
    (statementOf base clause).toList.count '?' =
      (SqlValue.blob cls :: clause.arguments).length := by
  rw [List.length_cons, ← count_text clause]
  unfold statementOf
  split_ifs with hempty
  · rw [hbase, hempty]
    rfl
  · have hand : " AND ".toList.count '?' = 0 := by decide
    rw [String.toList_append, String.toList_append, List.count_append, List.count_append,
      hbase, hand, String.toList_ofList]
    omega

theorem compiles_of_ok {base : String} (hbase : base.toList.count '?' = 1) {build : Build}
    {cls : Bytes} {op : Operator} {clause : Clause} (h : operatorToSql build op = .ok clause) :
    Compiles base (statementText base build cls op) ↔ clause.text = [] ∨
    clause.condition.isSome = true := by
  rw [statementText_eq, h, except_ok_bind, except_pure, Compiles,
    ← isStatement_statementOf_iff base]
  constructor
  · rintro (⟨e, he⟩ | ⟨text, arguments, hok, hstatement, -⟩)
    · cases he
    · obtain ⟨rfl, rfl⟩ := Prod.mk.inj (Except.ok.inj hok)
      exact hstatement
  · intro hstatement
    exact Or.inr ⟨_, _, rfl, hstatement, count_statementOf hbase clause cls⟩

theorem compiles_of_error {base : String} {build : Build} {cls : Bytes} {op : Operator}
    {fault : Fault} (h : operatorToSql build op = .error fault) :
    Compiles base (statementText base build cls op) ↔ ∃ e, fault = .err e := by
  rw [statementText_eq, h, except_error_bind, Compiles]
  constructor
  · rintro (⟨e, he⟩ | ⟨text, arguments, hok, -⟩)
    · exact ⟨e, Except.error.inj he⟩
    · cases hok
  · rintro ⟨e, rfl⟩
    exact Or.inl ⟨e, rfl⟩

theorem count_selectBase : selectBase.toList.count '?' = 1 := by
  decide

theorem count_countBase : countBase.toList.count '?' = 1 := by
  decide

end Statement

section Query

mutual

/-- What stops a query on its way to SQL: the first comparison that encrypted tags do not have or,
in a debug build, the first `$in` over fewer than two values of an encrypted tag. -/
def sqlFault (build : Build) : Query → Option Fault
  | .isIn name values =>
    if build = .debug ∧ isPlain name = false ∧
      values.length < 2 then some (.panic .overflow) else none
  | .and operators | .or operators => firstSqlFault build operators
  | .not operator => sqlFault build operator
  | query => (refusal query).map .err

def firstSqlFault (build : Build) : List Query → Option Fault
  | [] => none
  | operator :: operators => (sqlFault build operator).or (firstSqlFault build operators)

end

mutual

/-- Every `$in` has a value, and two of them for an encrypted tag, and every connective an
operand. -/
def isGapless : Query → Bool
  | .isIn name values => decide (1 ≤ values.length) && (isPlain name || decide (2 ≤ values.length))
  | .and operators | .or operators => !operators.isEmpty && allGapless operators
  | .not operator => isGapless operator
  | _ => true

def allGapless : List Query → Bool
  | [] => true
  | operator :: operators => isGapless operator && allGapless operators

end

/-- A connective without operands, which is written as nothing. -/
def isBlank : Query → Bool
  | .and operators | .or operators => operators.isEmpty
  | _ => false

variable (build : Build)

/-- The clause of an operator is that of a query: it stops where the query is stopped, is empty
where the query is blank, and is a condition where the query has no gap. -/
structure CompiledFrom (operator : Operator) (query : Query) : Prop where
  fault : ∀ f, sqlFault build query = some f → operatorToSql build operator = .error f
  clause : sqlFault build query = none → ∃ clause, operatorToSql build operator = .ok clause ∧
    (clause.text = [] ↔ isBlank query = true) ∧
    (clause.condition.isSome = true ↔ isGapless query = true)

structure AllCompiledFrom (operators : List Operator) (queries : List Query) : Prop where
  fault : ∀ f, firstSqlFault build queries = some f → operatorsToSql build operators = .error f
  clauses : firstSqlFault build queries = none →
    ∃ clauses, operatorsToSql build operators = .ok clauses ∧
    clauses.length = queries.length ∧
    ((Clause.conditions clauses).isSome = true ↔ allGapless queries = true)

variable {build} {C : Cipher} {keys : Keys}

theorem sqlFault_query (op : CompareOp) (name value : String) :
    sqlFault build (op.query name value) = (refusal (op.query name value)).map .err := by
  cases op <;> simp only [CompareOp.query, sqlFault]

theorem isBlank_query (op : CompareOp) (name value : String) :
    isBlank (op.query name value) = false := by
  cases op <;> rfl

theorem isGapless_query (op : CompareOp) (name value : String) :
    isGapless (op.query name value) = true := by
  cases op <;> simp only [CompareOp.query, isGapless]

theorem transformTest_eq_ok {op : CompareOp} {name value : String} {operator : Operator}
    (h : transformTest C keys op name value = .ok operator) :
    operator = .test op (encryptTagName C keys name) (encryptTarget C keys name value) := by
  obtain ⟨pair, hpair, htest⟩ := except_bind_eq_ok.mp h
  obtain ⟨-, -, hpair⟩ := except_bind_eq_ok.mp hpair
  rw [← Except.ok.inj hpair] at htest
  exact (Except.ok.inj htest).symm

theorem transform_isIn_eq_ok {name : String} {values : List String} {operator : Operator}
    (h : transform C keys (.isIn name values) = .ok operator) :
    operator = .isIn (encryptTagName C keys name) (values.map (encryptTarget C keys name)) := by
  rw [transform] at h
  obtain ⟨u, hname, h⟩ := except_bind_eq_ok.mp h
  obtain ⟨evalues, hvalues, h⟩ := except_bind_eq_ok.mp h
  have hmap : evalues = values.map (encryptTarget C keys name) := by
    refine Except.ok.inj (hvalues.symm.trans (mapM_eq_ok_map ?_))
    intro value _
    rw [encryptNameValue, hname]
    rfl
  rw [← hmap]
  exact (Except.ok.inj h).symm

/-- Induction on what queries are transformed into. -/
theorem transform_induction {P : Query → Operator → Prop}
    (compare : ∀ op name value,
      P (op.query name value)
      (.test op (encryptTagName C keys name) (encryptTarget C keys name value)))
    (isIn : ∀ name values,
      P (.isIn name values)
      (.isIn (encryptTagName C keys name) (values.map (encryptTarget C keys name))))
    (and : ∀ queries operators, List.Forall₂ P queries operators →
      P (.and queries) (.and operators))
    (or : ∀ queries operators, List.Forall₂ P queries operators → P (.or queries) (.or operators))
    (not : ∀ query operator, P query operator → P (.not query) (.not operator)) (query : Query) :
    ∀ operator, transform C keys query = .ok operator → P query operator := by
  have hlist : ∀ queries : List Query,
      (∀ q ∈ queries, ∀ operator, transform C keys q = .ok operator → P q operator) →
      ∀ operators, transformListOperators C keys queries = .ok operators →
        List.Forall₂ P queries operators := by
    intro queries ih
    induction queries with
    | nil =>
      intro operators h
      rw [transformListOperators] at h
      obtain rfl := Except.ok.inj h
      exact .nil
    | cons query queries hqueries =>
      intro operators h
      obtain ⟨hquery, hrest⟩ := List.forall_mem_cons.mp ih
      rw [transformListOperators] at h
      obtain ⟨operator, hoperator, h⟩ := except_bind_eq_ok.mp h
      obtain ⟨operators', hoperators, h⟩ := except_bind_eq_ok.mp h
      obtain rfl := Except.ok.inj h
      exact .cons (hquery operator hoperator) (hqueries hrest operators' hoperators)
  induction query using query_induction with
  | compare op name value =>
    intro operator h
    rw [transform_query] at h
    obtain rfl := transformTest_eq_ok h
    exact compare op name value
  | isIn name values =>
    intro operator h
    obtain rfl := transform_isIn_eq_ok h
    exact isIn name values
  | and queries ih =>
    intro operator h
    rw [transform] at h
    obtain ⟨operators, hoperators, h⟩ := except_bind_eq_ok.mp h
    obtain rfl := Except.ok.inj h
    exact and queries operators (hlist queries ih operators hoperators)
  | or queries ih =>
    intro operator h
    rw [transform] at h
    obtain ⟨operators, hoperators, h⟩ := except_bind_eq_ok.mp h
    obtain rfl := Except.ok.inj h
    exact or queries operators (hlist queries ih operators hoperators)
  | not query ih =>
    intro operator h
    rw [transform] at h
    obtain ⟨operator', hoperator, h⟩ := except_bind_eq_ok.mp h
    obtain rfl := Except.ok.inj h
    exact not query operator' (ih operator' hoperator)

/-- A comparison is a condition of its own. -/
theorem text_tag_ne_nil (name : TagName) (condition : Condition) :
    (Clause.tag name condition).text ≠ [] := by
  rw [Clause.text_tag]
  intro hnil
  have hhead := tagHead_head name.table
  rw [(List.append_eq_nil_iff.mp hnil).1] at hhead
  cases hhead

theorem compiledFrom_tag {operator : Operator} {query : Query} (name : TagName)
    (condition : Condition) (hfault : sqlFault build query = none) (hblank : isBlank query = false)
    (hsql : operatorToSql build operator = .ok (.tag name condition))
    (hgapless : (condition.inTable name.table).isSome = true ↔ isGapless query = true) :
    CompiledFrom build operator query where
  fault f hf := by
    rw [hfault] at hf
    cases hf
  clause _ := by
    refine ⟨_, hsql, ?_, ?_⟩
    · rw [hblank]
      exact iff_of_false (text_tag_ne_nil name condition) (by simp)
    · rw [Clause.condition]
      exact hgapless

theorem compiledFrom_of_fault {operator : Operator} {query : Query} {fault : Fault}
    (hfault : sqlFault build query = some fault)
    (hsql : operatorToSql build operator = .error fault) :
    CompiledFrom build operator query where
  fault f hf := by
    rw [hfault, Option.some.injEq] at hf
    rw [hsql, hf]
  clause hnone := by
    rw [hfault] at hnone
    cases hnone

theorem compiledFrom_query (op : CompareOp) (name value : String) :
    CompiledFrom build (.test op (encryptTagName C keys name) (encryptTarget C keys name value))
      (op.query name value) := by
  cases hplain : isPlain name with
  | true =>
    rw [encryptTagName_of_isPlain C keys hplain, encryptTarget_of_isPlain C keys hplain]
    apply compiledFrom_tag
    · rw [sqlFault_query, refusal_query, orderRefusal, if_pos hplain, ite_self]
      rfl
    · exact isBlank_query op name value
    · rw [operatorToSql]
      rfl
    · simp [Condition.inTable, isGapless_query]
  | false =>
    rw [encryptTagName_of_not_isPlain C keys hplain, encryptTarget_of_not_isPlain C keys hplain]
    by_cases hop : op = .eq ∨ op = .neq
    · apply compiledFrom_tag
      · rw [sqlFault_query, refusal_query, if_pos hop]
        rfl
      · exact isBlank_query op name value
      · rw [operatorToSql, testToSql, if_pos hop]
      · simp [Condition.inTable, isGapless_query]
    · apply compiledFrom_of_fault
      · rw [sqlFault_query, refusal_query, if_neg hop, orderRefusal, if_neg (by simp [hplain])]
        rfl
      · rw [operatorToSql, testToSql, if_neg hop]
        rfl

theorem inTable_isIn (table : TagTable) (values : List SqlValue) (trailingComma : Bool) :
    ((Condition.isIn values trailingComma).inTable table).isSome = true ↔ 1 ≤ values.length ∧
    trailingComma = false := by
  cases values with
  | nil => simp [Condition.inTable]
  | cons value values => cases trailingComma <;> simp [Condition.inTable]

theorem compiledFrom_isIn (name : String) (values : List String) :
    CompiledFrom build (.isIn (encryptTagName C keys name) (values.map (encryptTarget C keys name)))
      (.isIn name values) := by
  have hblank : isBlank (.isIn name values) = false := rfl
  cases hplain : isPlain name with
  | true =>
    rw [encryptTagName_of_isPlain C keys hplain, funext (encryptTarget_of_isPlain C keys hplain)]
    have htargets : (values.map .unencrypted).mapM plainTarget = .ok (values.map .text) := by
      rw [List.mapM_map]
      exact mapM_eq_ok_map fun _ _ => rfl
    refine compiledFrom_tag
      (.ofPlain (encryptAsSearchable C ((asBytes name).drop 1) keys.tagNameKey keys.tagsHmacKey))
      (.isIn (values.map .text) false) ?_ hblank ?_ ?_
    · simp [sqlFault, hplain]
    · rw [operatorToSql, inToSql_plain, htargets]
      rfl
    · simp [inTable_isIn, isGapless, hplain]
  | false =>
    rw [encryptTagName_of_not_isPlain C keys hplain,
      funext (encryptTarget_of_not_isPlain C keys hplain)]
    let evalue : String → Bytes :=
      fun value => encryptAsSearchable C (asBytes value) keys.tagValueKey keys.tagsHmacKey
    have htargets : (values.map fun value => TargetValue.encrypted (evalue value)).mapM
        encryptedTarget = .ok (values.map fun value => .blob (evalue value)) := by
      rw [List.mapM_map]
      exact mapM_eq_ok_map fun _ _ => rfl
    by_cases hpanic : build = .debug ∧ values.length < 2
    · apply compiledFrom_of_fault
      · rw [sqlFault, if_pos ⟨hpanic.1, hplain, hpanic.2⟩]
      · rw [operatorToSql, inToSql_encrypted, if_pos ⟨hpanic.1, by simpa using hpanic.2⟩]
    · refine compiledFrom_tag
        (.ofEncrypted (encryptAsSearchable C (asBytes name) keys.tagNameKey keys.tagsHmacKey))
        (.isIn (values.map fun value => .blob (evalue value)) (decide (values.length = 1))) ?_
        hblank ?_ ?_
      · rw [sqlFault, if_neg fun h => hpanic ⟨h.1, h.2.2⟩]
      · rw [operatorToSql, inToSql_encrypted, if_neg (by simpa using hpanic), htargets,
          List.length_map]
        rfl
      · simp only [inTable_isIn, isGapless, hplain, List.length_map, decide_eq_false_iff_not,
          Bool.false_or, Bool.and_eq_true, decide_eq_true_eq]
        omega

theorem AllCompiledFrom.cons {operator : Operator} {operators : List Operator} {query : Query}
    {queries : List Query}
    (h : CompiledFrom build operator query) (hall : AllCompiledFrom build operators queries) :
    AllCompiledFrom build (operator :: operators) (query :: queries) where
  fault f hf := by
    rw [firstSqlFault] at hf
    rw [operatorsToSql]
    cases hquery : sqlFault build query with
    | some f' =>
      rw [hquery, Option.some_or, Option.some.injEq] at hf
      rw [h.fault f' hquery, hf]
      rfl
    | none =>
      rw [hquery, Option.none_or] at hf
      obtain ⟨clause, hclause, -⟩ := h.clause hquery
      rw [hclause, hall.fault f hf]
      rfl
  clauses hnone := by
    rw [firstSqlFault, Option.or_eq_none_iff] at hnone
    obtain ⟨clause, hclause, -, hgapless⟩ := h.clause hnone.1
    obtain ⟨clauses, hclauses, hlength, hallGapless⟩ := hall.clauses hnone.2
    refine ⟨clause :: clauses, ?_, by rw [List.length_cons, hlength, List.length_cons], ?_⟩
    · rw [operatorsToSql, hclause, hclauses]
      rfl
    · rw [allGapless, Bool.and_eq_true, ← hgapless, ← hallGapless, Clause.conditions]
      cases clause.condition <;> cases Clause.conditions clauses <;> simp

theorem allCompiledFrom {queries : List Query} {operators : List Operator}
    (h : List.Forall₂ (fun query operator => CompiledFrom build operator query) queries operators) :
    AllCompiledFrom build operators queries := by
  induction h with
  | nil =>
    exact ⟨fun f hf => by simp [firstSqlFault] at hf,
      fun _ => ⟨[], by simp only [operatorsToSql], rfl, by simp [Clause.conditions, allGapless]⟩⟩
  | cons hquery _ ih => exact .cons hquery ih

/-- `and_to_sql` and `or_to_sql` differ in the word between the clauses only. -/
theorem AllCompiledFrom.joined {operators : List Operator} {operator : Operator}
    {queries : List Query} {query : Query}
    (h : AllCompiledFrom build operators queries) (conjunction : Bool)
    (hsql : operatorToSql build operator = do
      let clauses ← operatorsToSql build operators
      pure (joinClauses conjunction clauses))
    (hfault : sqlFault build query = firstSqlFault build queries)
    (hblank : isBlank query = queries.isEmpty)
    (hgapless : isGapless query = (!queries.isEmpty && allGapless queries)) :
    CompiledFrom build operator query where
  fault f hf := by
    rw [hfault] at hf
    rw [hsql, h.fault f hf]
    rfl
  clause hnone := by
    rw [hfault] at hnone
    obtain ⟨clauses, hclauses, hlength, hall⟩ := h.clauses hnone
    refine ⟨joinClauses conjunction clauses, by rw [hsql, hclauses]; rfl, ?_⟩
    rw [hblank, hgapless]
    cases clauses with
    | nil =>
      obtain rfl : queries = [] := List.length_eq_zero_iff.mp hlength.symm
      simp [joinClauses, Clause.text_empty, Clause.condition]
    | cons clause clauses =>
      have hne : queries.isEmpty = false := by
        cases queries with
        | nil => simp at hlength
        | cons _ _ => rfl
      rw [joinClauses, Clause.text_joined, Clause.condition, hne, Bool.not_false,
        Bool.true_and, ← hall]
      · refine ⟨by simp, ?_⟩
        cases hconditions : Clause.conditions (clause :: clauses) with
        | none => simp
        | some conditions =>
          obtain ⟨hempty, -⟩ := text_of_conditions [] _ hconditions
          rcases conditions with _ | ⟨c, _ | ⟨c', rest⟩⟩
          · simp at hempty
          · simp [joinConditions]
          · simp [joinConditions]
      · simp

theorem compiledFrom_not {operator : Operator} {query : Query}
    (h : CompiledFrom build operator query) :
    CompiledFrom build (.not operator) (.not query) where
  fault f hf := by
    rw [sqlFault] at hf
    rw [operatorToSql, h.fault f hf]
    rfl
  clause hnone := by
    rw [sqlFault] at hnone
    obtain ⟨clause, hclause, -, hgapless⟩ := h.clause hnone
    refine ⟨.not clause, by rw [operatorToSql, hclause]; rfl, ?_, ?_⟩
    · rw [Clause.text_not]
      simp [isBlank]
    · rw [isGapless, ← hgapless, Clause.condition]
      cases clause.condition <;> simp

theorem compiledFrom_transform (query : Query) (operator : Operator)
    (h : transform C keys query = .ok operator) :
    CompiledFrom build operator query := by
  refine transform_induction (P := fun query operator => CompiledFrom build operator query)
    compiledFrom_query compiledFrom_isIn ?_ ?_ ?_ query operator h
  · intro queries operators hall
    exact (allCompiledFrom hall).joined true (by rw [operatorToSql]) (by rw [sqlFault]) rfl
      (by rw [isGapless])
  · intro queries operators hall
    exact (allCompiledFrom hall).joined false (by rw [operatorToSql]) (by rw [sqlFault]) rfl
      (by rw [isGapless])
  · intro query operator hquery
    exact compiledFrom_not hquery

/-- The query is refused before anything panics, or it has no gap unless it is nothing but one. -/
def CompilesQuery (build : Build) (query : Query) : Prop :=
  (∃ e, sqlFault build query = some (.err e)) ∨
    (sqlFault build query = none ∧ (isBlank query = true ∨ isGapless query = true))

theorem compiles_transform_iff {base : String} (hbase : base.toList.count '?' = 1) {query : Query}
    {operator : Operator} (h : transform C keys query = .ok operator) (cls : Bytes) :
    Compiles base (statementText base build cls operator) ↔ CompilesQuery build query := by
  have hcompiled : CompiledFrom build operator query := compiledFrom_transform query operator h
  unfold CompilesQuery
  cases hfault : sqlFault build query with
  | some fault =>
    rw [compiles_of_error (hcompiled.fault fault hfault)]
    simp
  | none =>
    obtain ⟨clause, hclause, hblank, hgapless⟩ := hcompiled.clause hfault
    rw [compiles_of_ok hbase hclause, hblank, hgapless]
    simp

/-- What `Wallet::search` passes to the storage for the text of a query. -/
def encryptedQuery (C : Cipher) (keys : Keys) (value : Json) : IndyResult Operator := do
  let parsedQuery ← match Wql.deserialize value with
    | .ok query => .ok query
    | .error err => .error ⟨.walletQueryError, err⟩
  transform C keys (optimised parsedQuery)

variable (C keys) in
theorem exists_transform_iff (query : Query) :
    (∃ operator, transform C keys query = .ok operator) ↔ namesTags query = true := by
  have htransforms : Transforms C keys maxSqlite .release query := transforms query
  cases hnames : namesTags query with
  | false => simp [htransforms.error hnames]
  | true =>
    obtain ⟨operator, hoperator, -⟩ := htransforms.ok hnames
    exact iff_of_true ⟨operator, hoperator⟩ rfl

/-- An accepted query is compiled, or refused with an error value, if and only if what is left of it
after optimisation has no gap or is refused. -/
theorem accepted_query_compiles_iff (C : Cipher) (keys : Keys) (build : Build) (cls : Bytes)
    (value : Json) :
    (∀ operator, encryptedQuery C keys value = .ok operator →
      Compiles selectBase (wqlToSql build cls operator) ∧
      Compiles countBase (wqlToSqlCount build cls operator)) ↔
      ∀ query, Wql.deserialize value = .ok query → namesTags (optimised query) = true →
        CompilesQuery build (optimised query) := by
  unfold wqlToSql wqlToSqlCount encryptedQuery
  cases hparse : Wql.deserialize value with
  | error err => simp
  | ok query =>
    simp only [except_ok_bind, Except.ok.injEq, forall_eq']
    constructor
    · intro h hnames
      obtain ⟨operator, hoperator⟩ := (exists_transform_iff C keys _).mpr hnames
      exact (compiles_transform_iff count_selectBase hoperator cls).mp (h operator hoperator).1
    · intro h operator hoperator
      have hcompiles := h ((exists_transform_iff C keys _).mp ⟨operator, hoperator⟩)
      exact ⟨(compiles_transform_iff count_selectBase hoperator cls).mpr hcompiles,
        (compiles_transform_iff count_countBase hoperator cls).mpr hcompiles⟩

/-- `$in` over no values of an encrypted tag panics in a debug build. -/
theorem not_accepted_query_compiles :
    ¬ ∀ operator, encryptedQuery plainCipher zeroKeys
      (.object [("a", .object [("$in", .array [])])]) = .ok operator →
      Compiles selectBase (wqlToSql .debug [] operator) ∧
      Compiles countBase (wqlToSqlCount .debug [] operator) := by
  intro h
  have hencrypted : encryptedQuery plainCipher zeroKeys
      (.object [("a", .object [("$in", .array [])])]) =
      .ok (.isIn (encryptTagName plainCipher zeroKeys "a") []) := by
    rfl
  have hpanic : operatorToSql .debug (.isIn (encryptTagName plainCipher zeroKeys "a") []) =
      .error (.panic .overflow) := by
    rfl
  obtain ⟨e, he⟩ := (compiles_of_error hpanic).mp (h _ hencrypted).1
  cases he

end Query

end SimpleAsset.Indy.Wallet
