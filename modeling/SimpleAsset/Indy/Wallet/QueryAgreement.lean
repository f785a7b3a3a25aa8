import SimpleAsset.Indy.Wallet.StoredRecords

/-! The SQL of a query holds of the rows whose tags meet the query. -/
namespace SimpleAsset.Indy.Wallet
open SimpleAsset.Library
open Anoncreds (Query)

section Shape

/-- The comparison with a value as a query. -/
def CompareOp.query : CompareOp → String → String → Query
  | .eq => .eq
  | .neq => .neq
  | .gt => .gt
  | .gte => .gte
  | .lt => .lt
  | .lte => .lte
  | .like => .like

/-- Induction on queries with one case for all comparisons. -/
theorem query_induction {P : Query → Prop}
    (compare : ∀ op name value, P (CompareOp.query op name value))
    (isIn : ∀ name values, P (.isIn name values))
    (and : ∀ operators, (∀ q ∈ operators, P q) → P (.and operators))
    (or : ∀ operators, (∀ q ∈ operators, P q) → P (.or operators))
    (not : ∀ operator, P operator → P (.not operator)) (query : Query) : P query := by
  refine @Query.rec P (fun qs => ∀ q ∈ qs, P q) and or not (compare .eq) (compare .neq)
    (compare .gt) (compare .gte) (compare .lt) (compare .lte) (compare .like) isIn ?_ ?_ query
  · intro q hq
    cases hq
  · intro q qs hq hqs
    exact List.forall_mem_cons.mpr ⟨hq, hqs⟩

variable (C : Cipher) (keys : Keys) (like : String → String → Bool)

theorem transform_query (op : CompareOp) (name value : String) :
    transform C keys (op.query name value) = transformTest C keys op name value := by
  cases op <;> simp only [CompareOp.query, transform]

theorem meets_query (tags : Tags) (op : CompareOp) (name value : String) :
    meets like tags (op.query name value) = tagCompares like tags op name value := by
  cases op <;> simp only [CompareOp.query, meets]

theorem namesTags_query (op : CompareOp) (name value : String) :
    namesTags (op.query name value) = isNamed name := by
  cases op <;> simp only [CompareOp.query, namesTags]

theorem refusal_query (op : CompareOp) (name value : String) :
    refusal (op.query name value) = if op = .eq ∨
    op = .neq then none else orderRefusal op name := by
  cases op <;> simp [CompareOp.query, refusal]

mutual

/-- The SQL of a query has no gap: a conjunction or disjunction of nothing is written as nothing,
and of the values of an encrypted tag there are two or more, so that no comma is misplaced. -/
def hasSql (build : Build) : Query → Bool
  | .isIn name values =>
    isPlain name || decide (2 ≤ values.length) || decide (build = .release ∧ values.length = 0)
  | .and operators | .or operators => !operators.isEmpty && allHaveSql build operators
  | .not operator => hasSql build operator
  | _ => true

def allHaveSql (build : Build) : List Query → Bool
  | [] => true
  | operator :: operators => hasSql build operator && allHaveSql build operators

end

end Shape

section Translation
variable (C : Cipher) (keys : Keys) (S : Sqlite) (build : Build)

theorem encryptTagName_of_isPlain {name : String} (hplain : isPlain name = true) :
    encryptTagName C keys name =
    .ofPlain (encryptAsSearchable C ((asBytes name).drop 1) keys.tagNameKey keys.tagsHmacKey) :=
  if_pos hplain

theorem encryptTagName_of_not_isPlain {name : String} (hplain : isPlain name = false) :
    encryptTagName C keys name =
    .ofEncrypted (encryptAsSearchable C (asBytes name) keys.tagNameKey keys.tagsHmacKey) :=
  if_neg (by simp [hplain])

theorem encryptTarget_of_isPlain {name : String} (hplain : isPlain name = true) (value : String) :
    encryptTarget C keys name value = .unencrypted value := if_pos hplain

theorem encryptTarget_of_not_isPlain {name : String} (hplain : isPlain name = false)
    (value : String) :
    encryptTarget C keys name value =
      .encrypted (encryptAsSearchable C (asBytes value) keys.tagValueKey keys.tagsHmacKey) :=
  if_neg (by simp [hplain])

/-- The operator stands for the query. -/
structure StandsFor (operator : Operator) (query : Query) : Prop where
  refused : ∀ e, refusal query = some e → hasSql build query = true →
    operatorToSql build operator = .error (.err e)
  accepted : refusal query = none → hasSql build query = true →
    ∃ clause, operatorToSql build operator = .ok clause ∧ clause.isExpr = true ∧
      ∀ db rowid tags, TagsStored C keys (Db.tag db rowid) tags →
        clause.holds S db rowid = meets S.like tags query

/-- The operators stand for the queries, in their order. -/
structure StandForAll (operators : List Operator) (queries : List Query) : Prop where
  refused : ∀ e, firstRefusal queries = some e → allHaveSql build queries = true →
    operatorsToSql build operators = .error (.err e)
  accepted : firstRefusal queries = none → allHaveSql build queries = true →
    ∃ clauses, operatorsToSql build operators = .ok clauses ∧ Clause.areExprs clauses = true ∧
      (clauses = [] ↔ queries = []) ∧
      ∀ db rowid tags, TagsStored C keys (Db.tag db rowid) tags →
        Clause.allHold S db rowid clauses = meetsAll S.like tags queries ∧
        Clause.anyHolds S db rowid clauses = meetsAny S.like tags queries

def emptyTagName : IndyError := ⟨.walletQueryError, "Tag name must not be empty"⟩

theorem checkTagName_eq (name : String) :
    checkTagName name = if isNamed name then .ok () else .error emptyTagName := by
  unfold checkTagName isNamed emptyTagName
  by_cases h : name = "" ∨ name = "~"
  · have hname : ¬ (name ≠ "" ∧ name ≠ "~") := by tauto
    rw [if_pos h, decide_eq_false hname]
    rfl
  · have hname : name ≠ "" ∧ name ≠ "~" := by tauto
    rw [if_neg h, decide_eq_true hname]
    rfl

/-- What becomes of a query whose tags have names, and of one whose tags do not. -/
structure Transforms (query : Query) : Prop where
  error : namesTags query = false → transform C keys query = .error emptyTagName
  ok : namesTags query = true → ∃ operator, transform C keys query = .ok operator ∧
    StandsFor C keys S build operator query

variable {C keys S build} {db : Db} {rowid : ℕ} {tags : Tags}

theorem holds_tag (h : TagsStored C keys (db.tag rowid) tags) (name : String)
    (condition : Condition) :
    (Clause.tag (encryptTagName C keys name) condition).holds S db rowid =
      (tags.lookup name).any fun stored =>
        condition.holds S (encryptTag C keys name stored).sqlValue := by
  unfold Clause.holds
  rw [h.lookup]
  cases tags.lookup name <;> rfl

theorem sqlValue_of_isPlain {name : String} (hplain : isPlain name = true) (stored : String) :
    (encryptTag C keys name stored).sqlValue = .text stored := by
  rw [encryptTag, if_pos hplain]
  rfl

theorem sqlValue_of_not_isPlain {name : String} (hplain : isPlain name = false) (stored : String) :
    (encryptTag C keys name stored).sqlValue =
      .blob (encryptAsSearchable C (asBytes stored) keys.tagValueKey keys.tagsHmacKey) := by
  rw [encryptTag, if_neg (by simp [hplain])]
  rfl

theorem holds_text (op : CompareOp) (stored queried : String) :
    op.holds S (.text stored) (.text queried) = op.compares S.like stored queried := by
  cases op <;> simp [CompareOp.holds, CompareOp.compares, SqlValue.less, SqlValue.isLike]

/-- A stored value of an encrypted tag is the queried one exactly when its encryption is. -/
theorem blob_inj (stored queried : String) (key hmacKey : Key) :
    SqlValue.blob (encryptAsSearchable C (asBytes stored) key hmacKey) =
      .blob (encryptAsSearchable C (asBytes queried) key hmacKey) ↔ stored = queried := by
  rw [SqlValue.blob.injEq, encryptAsSearchable_inj, asBytes_inj]

theorem holds_blob {op : CompareOp} (hop : op = .eq ∨ op = .neq) (stored queried : String)
    (key hmacKey : Key) :
    op.holds S (.blob (encryptAsSearchable C (asBytes stored) key hmacKey))
      (.blob (encryptAsSearchable C (asBytes queried) key hmacKey)) =
        op.compares S.like stored queried := by
  rcases hop with rfl | rfl
  · simp only [CompareOp.holds, CompareOp.compares, blob_inj]
  · simp only [CompareOp.holds, CompareOp.compares, ne_eq, blob_inj]

theorem standsFor_query (op : CompareOp) (name value : String) :
    StandsFor C keys S build
      (.test op (encryptTagName C keys name) (encryptTarget C keys name value))
      (op.query name value) := by
  cases hplain : isPlain name with
  | true =>
    have hname := encryptTagName_of_isPlain C keys hplain
    have htarget := encryptTarget_of_isPlain C keys hplain value
    have hsql : operatorToSql build
        (.test op (encryptTagName C keys name) (encryptTarget C keys name value)) =
        .ok (.tag (encryptTagName C keys name) (.test op (.text value))) := by
      rw [operatorToSql, hname, htarget]
      rfl
    constructor
    · intro e he _
      rw [refusal_query, orderRefusal, if_pos hplain, ite_self] at he
      cases he
    · intro _ _
      refine ⟨_, hsql, by simp only [Clause.isExpr], ?_⟩
      intro db rowid tags htags
      simp only [holds_tag htags, meets_query, tagCompares, Condition.holds,
        sqlValue_of_isPlain hplain, holds_text]
  | false =>
    have hname := encryptTagName_of_not_isPlain C keys hplain
    have htarget := encryptTarget_of_not_isPlain C keys hplain value
    by_cases hop : op = .eq ∨ op = .neq
    · constructor
      · intro e he _
        rw [refusal_query, if_pos hop] at he
        cases he
      · intro _ _
        have hsql : operatorToSql build
            (.test op (encryptTagName C keys name) (encryptTarget C keys name value)) =
            .ok (.tag (encryptTagName C keys name)
              (.test op (.blob
                (encryptAsSearchable C (asBytes value) keys.tagValueKey keys.tagsHmacKey)))) := by
          rw [operatorToSql, hname, htarget, testToSql, if_pos hop]
        refine ⟨_, hsql, by simp only [Clause.isExpr], ?_⟩
        intro db rowid tags htags
        simp only [holds_tag htags, meets_query, tagCompares, Condition.holds,
          sqlValue_of_not_isPlain hplain, holds_blob hop]
    · have hrefusal : refusal (op.query name value) = some ⟨.walletQueryError,
          "Invalid combination of tag name and value for " ++ op.title ++ " operator"⟩ := by
        rw [refusal_query, if_neg hop, orderRefusal, if_neg (by simp [hplain])]
      constructor
      · intro e he _
        rw [hrefusal, Option.some.injEq] at he
        rw [operatorToSql, hname, htarget, testToSql, if_neg hop, errMsg, he]
      · intro hnone
        rw [hrefusal] at hnone
        cases hnone

/-- A transformation that only looks at one name. -/
theorem transforms_of_named {query : Query} {name : String} {operator : Operator}
    (hnames : namesTags query = isNamed name)
    (htransform : transform C keys query = if isNamed name then .ok operator
      else .error emptyTagName)
    (hstands : StandsFor C keys S build operator query) : Transforms C keys S build query := by
  constructor
  · intro hname
    rw [hnames] at hname
    rw [htransform, hname]
    rfl
  · intro hname
    rw [hnames] at hname
    rw [htransform, hname]
    exact ⟨operator, rfl, hstands⟩

theorem transforms_query (op : CompareOp) (name value : String) :
    Transforms C keys S build (op.query name value) := by
  refine transforms_of_named (namesTags_query op name value) ?_ (standsFor_query op name value)
  rw [transform_query, transformTest, encryptNameValue, checkTagName_eq]
  split_ifs <;> rfl

theorem standsFor_isIn (name : String) (values : List String) :
    StandsFor C keys S build
      (.isIn (encryptTagName C keys name) (values.map (encryptTarget C keys name)))
      (.isIn name values) := by
  have hrefusal : refusal (.isIn name values) = none := by simp only [refusal]
  constructor
  · intro e he
    rw [hrefusal] at he
    cases he
  · intro _ hsql
    cases hplain : isPlain name with
    | true =>
      have hname := encryptTagName_of_isPlain C keys hplain
      have htarget : encryptTarget C keys name = .unencrypted :=
        funext (encryptTarget_of_isPlain C keys hplain)
      have hclause : operatorToSql build
          (.isIn (encryptTagName C keys name) (values.map (encryptTarget C keys name))) =
          .ok (.tag (encryptTagName C keys name) (.isIn (values.map .text) false)) := by
        rw [operatorToSql, hname, htarget, inToSql, List.mapM_map]
        exact except_bind_eq_ok.mpr ⟨_, mapM_eq_ok_map fun _ _ => rfl, rfl⟩
      refine ⟨_, hclause, by simp only [Clause.isExpr, Bool.not_false], ?_⟩
      intro db rowid tags htags
      simp [holds_tag htags, meets, Condition.holds, sqlValue_of_isPlain hplain]
    | false =>
      let evalue : String → Bytes := fun value =>
        encryptAsSearchable C (asBytes value) keys.tagValueKey keys.tagsHmacKey
      have hname := encryptTagName_of_not_isPlain C keys hplain
      have htarget : encryptTarget C keys name = fun value => .encrypted (evalue value) :=
        funext (encryptTarget_of_not_isPlain C keys hplain)
      have hlength : 2 ≤ values.length ∨ build = .release ∧ values.length = 0 := by
        simpa [hasSql, hplain] using hsql
      have hclause : operatorToSql build
          (.isIn (encryptTagName C keys name) (values.map (encryptTarget C keys name))) =
          .ok (.tag (encryptTagName C keys name)
            (.isIn (values.map fun value => .blob (evalue value)) false)) := by
        have hpanic : ¬ (build = .debug ∧
            (values.map fun value => TargetValue.encrypted (evalue value)).length < 2) := by
          rw [List.length_map]
          rintro ⟨rfl, hshort⟩
          rcases hlength with hlength | ⟨hrelease, -⟩
          · omega
          · cases hrelease
        have hcomma : decide ((values.map fun value =>
            TargetValue.encrypted (evalue value)).length = 1) = false := by
          rw [List.length_map, decide_eq_false_iff_not]
          omega
        rw [operatorToSql, hname, htarget, inToSql, if_neg hpanic, hcomma, List.mapM_map]
        exact except_bind_eq_ok.mpr ⟨_, mapM_eq_ok_map fun _ _ => rfl, rfl⟩
      refine ⟨_, hclause, by simp only [Clause.isExpr, Bool.not_false], ?_⟩
      intro db rowid tags htags
      simp [holds_tag htags, meets, Condition.holds, sqlValue_of_not_isPlain hplain, evalue,
        encryptAsSearchable_inj, asBytes_inj]

theorem transforms_isIn (name : String) (values : List String) :
    Transforms C keys S build (.isIn name values) := by
  have hnames : namesTags (.isIn name values) = isNamed name := by simp only [namesTags]
  refine transforms_of_named hnames ?_ (standsFor_isIn name values)
  unfold transform
  rw [checkTagName_eq]
  split_ifs with hname
  · rw [except_ok_bind, mapM_eq_ok_map (g := encryptTarget C keys name)]
    · rfl
    · intro value _
      rw [encryptNameValue, checkTagName_eq, if_pos hname]
      rfl
  · rfl

theorem standForAll_nil : StandForAll C keys S build [] [] where
  refused e he := by simp [firstRefusal] at he
  accepted _ _ := ⟨[], by simp only [operatorsToSql], by simp only [Clause.areExprs], by simp, by
    intro db rowid tags _
    simp only [Clause.allHold, Clause.anyHolds, meetsAll, meetsAny, and_self]⟩

theorem StandsFor.cons {operator : Operator} {operators : List Operator} {query : Query}
    {queries : List Query} (h : StandsFor C keys S build operator query)
    (hall : StandForAll C keys S build operators queries) :
    StandForAll C keys S build (operator :: operators) (query :: queries) := by
  constructor
  · intro e he hsql
    rw [allHaveSql, Bool.and_eq_true] at hsql
    rw [firstRefusal] at he
    cases hquery : refusal query with
    | some e' =>
      rw [hquery, Option.some_or, Option.some.injEq] at he
      rw [operatorsToSql, h.refused e' hquery hsql.1, he]
      rfl
    | none =>
      rw [hquery, Option.none_or] at he
      obtain ⟨clause, hclause, -, -⟩ := h.accepted hquery hsql.1
      rw [operatorsToSql, hclause, hall.refused e he hsql.2]
      rfl
  · intro hnone hsql
    rw [allHaveSql, Bool.and_eq_true] at hsql
    rw [firstRefusal, Option.or_eq_none_iff] at hnone
    obtain ⟨clause, hclause, hexpr, hholds⟩ := h.accepted hnone.1 hsql.1
    obtain ⟨clauses, hclauses, hexprs, -, hall⟩ := hall.accepted hnone.2 hsql.2
    refine ⟨clause :: clauses, ?_, ?_, by simp, ?_⟩
    · rw [operatorsToSql, hclause, hclauses]
      rfl
    · rw [Clause.areExprs, hexpr, hexprs]
      rfl
    · intro db rowid tags htags
      obtain ⟨hand, hor⟩ := hall db rowid tags htags
      rw [Clause.allHold, Clause.anyHolds, meetsAll, meetsAny,
        hholds db rowid tags htags, hand, hor]
      exact ⟨rfl, rfl⟩

theorem transforms_list {queries : List Query} (h : ∀ q ∈ queries, Transforms C keys S build q) :
    (allNameTags queries = false → transformListOperators C keys queries = .error emptyTagName) ∧
    (allNameTags queries = true → ∃ operators,
      transformListOperators C keys queries = .ok operators ∧
      StandForAll C keys S build operators queries) := by
  induction queries with
  | nil =>
    constructor
    · intro hnames
      simp [allNameTags] at hnames
    · intro _
      exact ⟨[], by simp only [transformListOperators], standForAll_nil⟩
  | cons query queries ih =>
    obtain ⟨hquery, hqueries⟩ := List.forall_mem_cons.mp h
    obtain ⟨hbad, hgood⟩ := ih hqueries
    rw [allNameTags, transformListOperators]
    cases hname : namesTags query with
    | false =>
      rw [hquery.error hname]
      exact ⟨fun _ => rfl, fun hfalse => by simp at hfalse⟩
    | true =>
      obtain ⟨operator, htransform, hstands⟩ := hquery.ok hname
      rw [htransform, Bool.true_and]
      constructor
      · intro hnames
        rw [hbad hnames]
        rfl
      · intro hnames
        obtain ⟨operators, hlist, hall⟩ := hgood hnames
        rw [hlist]
        exact ⟨operator :: operators, rfl, hstands.cons hall⟩

/-- `and_to_sql` and `or_to_sql` differ in the word between the clauses only. -/
theorem StandForAll.joined {operators : List Operator} {operator : Operator} {queries : List Query}
    {query : Query} (h : StandForAll C keys S build operators queries) (conjunction : Bool)
    (hsql : operatorToSql build operator = do
      let clauses ← operatorsToSql build operators
      pure (joinClauses conjunction clauses))
    (hrefusal : refusal query = firstRefusal queries)
    (hhas : hasSql build query = (!queries.isEmpty && allHaveSql build queries))
    (hmeets : ∀ tags, meets S.like tags query =
      if conjunction then meetsAll S.like tags queries else meetsAny S.like tags queries) :
    StandsFor C keys S build operator query := by
  constructor
  · intro e he hquery
    rw [hhas, Bool.and_eq_true] at hquery
    rw [hrefusal] at he
    rw [hsql, h.refused e he hquery.2]
    rfl
  · intro hnone hquery
    rw [hhas, Bool.and_eq_true] at hquery
    rw [hrefusal] at hnone
    obtain ⟨clauses, hclauses, hexprs, hempty, hholds⟩ := h.accepted hnone hquery.2
    have hne : clauses ≠ [] := by
      rw [Ne, hempty]
      simpa using hquery.1
    have hjoin : joinClauses conjunction clauses = .joined conjunction clauses := by
      unfold joinClauses
      split
      · exact absurd rfl hne
      · rfl
    refine ⟨.joined conjunction clauses, ?_, by rw [Clause.isExpr, hexprs], ?_⟩
    · rw [hsql, hclauses, ← hjoin]
      rfl
    · intro db rowid tags htags
      obtain ⟨hall, hany⟩ := hholds db rowid tags htags
      rw [hmeets]
      cases conjunction
      · rw [Clause.holds, hany]
        rfl
      · rw [Clause.holds, hall]
        rfl

theorem standsFor_not {operator : Operator} {query : Query}
    (h : StandsFor C keys S build operator query) :
    StandsFor C keys S build (.not operator) (.not query) := by
  have hrefusal : refusal (.not query) = refusal query := by rw [refusal]
  have hhas : hasSql build (.not query) = hasSql build query := by rw [hasSql]
  constructor
  · intro e he hquery
    rw [hrefusal] at he
    rw [hhas] at hquery
    rw [operatorToSql, h.refused e he hquery]
    rfl
  · intro hnone hquery
    rw [hrefusal] at hnone
    rw [hhas] at hquery
    obtain ⟨clause, hclause, hexpr, hholds⟩ := h.accepted hnone hquery
    refine ⟨.not clause, by rw [operatorToSql, hclause]; rfl, by rw [Clause.isExpr, hexpr], ?_⟩
    intro db rowid tags htags
    rw [Clause.holds, meets, hholds db rowid tags htags]

theorem transforms_and {queries : List Query} (h : ∀ q ∈ queries, Transforms C keys S build q) :
    Transforms C keys S build (.and queries) := by
  obtain ⟨hbad, hgood⟩ := transforms_list h
  constructor
  · intro hnames
    rw [namesTags] at hnames
    rw [transform, hbad hnames]
    rfl
  · intro hnames
    rw [namesTags] at hnames
    obtain ⟨operators, hlist, hall⟩ := hgood hnames
    refine ⟨.and operators, by rw [transform, hlist]; rfl, hall.joined true ?_ ?_ ?_ ?_⟩
    · rw [operatorToSql]
    · rw [refusal]
    · rw [hasSql]
    · intro tags
      rw [meets]
      rfl

theorem transforms_or {queries : List Query} (h : ∀ q ∈ queries, Transforms C keys S build q) :
    Transforms C keys S build (.or queries) := by
  obtain ⟨hbad, hgood⟩ := transforms_list h
  constructor
  · intro hnames
    rw [namesTags] at hnames
    rw [transform, hbad hnames]
    rfl
  · intro hnames
    rw [namesTags] at hnames
    obtain ⟨operators, hlist, hall⟩ := hgood hnames
    refine ⟨.or operators, by rw [transform, hlist]; rfl, hall.joined false ?_ ?_ ?_ ?_⟩
    · rw [operatorToSql]
    · rw [refusal]
    · rw [hasSql]
    · intro tags
      rw [meets]
      rfl

theorem transforms_not {query : Query} (h : Transforms C keys S build query) :
    Transforms C keys S build (.not query) := by
  constructor
  · intro hnames
    rw [namesTags] at hnames
    rw [transform, h.error hnames]
    rfl
  · intro hnames
    rw [namesTags] at hnames
    obtain ⟨operator, htransform, hstands⟩ := h.ok hnames
    exact ⟨.not operator, by rw [transform, htransform]; rfl, standsFor_not hstands⟩

/-- Every query is transformed into an operator that stands for it, or has a tag without a name. -/
theorem transforms (query : Query) : Transforms C keys S build query := by
  induction query using query_induction with
  | compare op name value => exact transforms_query op name value
  | isIn name values => exact transforms_isIn name values
  | and operators ih => exact transforms_and ih
  | or operators ih => exact transforms_or ih
  | not operator ih => exact transforms_not ih

end Translation

end SimpleAsset.Indy.Wallet
