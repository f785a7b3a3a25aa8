import SimpleAsset.Indy.Anoncreds.Domain
import SimpleAsset.Indy.Pool.Json
import SimpleAsset.Library.Fallible

/-! WQL: queries from JSON and back (`wql.rs`). -/
namespace SimpleAsset.Indy.Wql
open SimpleAsset.Library
open Anoncreds (Query)

section Parse

/-- The arms of `parse_single_operator` for an operator with one value. -/
def stringOperator (operatorName : String) (operator : String → Query) : Json → Except String Query
  | .string value => .ok (operator value)
  | _ => .error (operatorName ++ " must be used with string")

/-- Its arm for `$in`. -/
def inOperator (key : String) : Json → Except String Query
  | .array values => do
    let targetValues ← values.mapM fun v => match v with
      | .string s => .ok s
      | _ => .error "$in must be used with array of strings"
    pure (.isIn key targetValues)
  | _ => .error "$in must be used with array of strings"

def parseSingleOperator (operatorName key : String) (value : Json) : Except String Query :=
  if operatorName = "$neq" then stringOperator "$neq" (.neq key) value
  else if operatorName = "$gt" then stringOperator "$gt" (.gt key) value
  else if operatorName = "$gte" then stringOperator "$gte" (.gte key) value
  else if operatorName = "$lt" then stringOperator "$lt" (.lt key) value
  else if operatorName = "$lte" then stringOperator "$lte" (.lte key) value
  else if operatorName = "$like" then stringOperator "$like" (.like key) value
  else if operatorName = "$in" then inOperator key value
  else .error "Unknown operator"

/-- The object of a tag has one operator. -/
def parseComparison (key : String) : List (String × Json) → Except String Query
  | [(operatorName, value)] => parseSingleOperator operatorName key value
  | _ => .error "value must be JSON object of length 1"

/-- One operator stands for itself. -/
def queryOf : List Query → Query
  | [operator] => operator
  | operators => .and operators

mutual

/-- The operators that `parse_query` collects. -/
def parseFields : List (String × Json) → Except String (List Query)
  | [] => .ok []
  | (key, value) :: fields => do
    let operator ← parseOperator key value
    let operators ← parseFields fields
    pure (operator.toList ++ operators)

/-- `parse_operator`; a query may be left out. -/
def parseOperator (key : String) : Json → Except String (Option Query)
  | .array values =>
    if key = "$and" ∨ key = "$or" then
      if values = [] then .ok none
      else do
        let operators ← parseListOperators values
        pure (some (if key = "$and" then .and operators else .or operators))
    else if key = "$not" then .error "$not must be JSON object"
    else .error "Unsupported value"
  | .object fields =>
    if key = "$and" then .error "$and must be array of JSON objects"
    else if key = "$or" then .error "$or must be array of JSON objects"
    else if key = "$not" then do
      let operators ← parseFields fields
      pure (some (.not (queryOf operators)))
    else do
      let operator ← parseComparison key fields
      pure (some operator)
  | .string value =>
    if key = "$and" then .error "$and must be array of JSON objects"
    else if key = "$or" then .error "$or must be array of JSON objects"
    else if key = "$not" then .error "$not must be JSON object"
    else .ok (some (.eq key value))
  | _ =>
    if key = "$and" then .error "$and must be array of JSON objects"
    else if key = "$or" then .error "$or must be array of JSON objects"
    else if key = "$not" then .error "$not must be JSON object"
    else .error "Unsupported value"

def parseListOperators : List Json → Except String (List Query)
  | [] => .ok []
  | .object fields :: values => do
    let operators ← parseFields fields
    let suboperators ← parseListOperators values
    pure (queryOf operators :: suboperators)
  | _ :: _ => .error "operator must be array of JSON objects"

end

/-- `parse_query`. -/
def parseQuery (fields : List (String × Json)) : Except String Query := do
  let operators ← parseFields fields
  pure (queryOf operators)

/-- The restrictions of the array form: without null fields, and not the empty ones. -/
def castRestrictions : List Json → Except String (List Json)
  | [] => .ok []
  | subQuery :: array => do
    let fields ← match subQuery with
      | .object fields => .ok (fields.filter fun field => !field.2.isNull)
      | _ => .error "Restriction is invalid"
    let res ← castRestrictions array
    pure (if fields = [] then res else .object fields :: res)

/-- `de::Error::missing_field`. -/
def missingField (err : String) : String := "missing field `" ++ err ++ "`"

/-- `Query::deserialize`. -/
def deserialize : Json → Except String Query
  | .object fields => (parseQuery fields).mapError missingField
  | .array array => do
    let res ← castRestrictions array
    parseQuery [("$or", .array res)]
  | _ => .error (missingField "Restriction must be either object or array")

end Parse

section Print

/-- `json!({name: value})`. -/
def single (name : String) (value : Json) : Json := .object [(name, value)]

mutual

def toValue : Query → Json
  | .eq tagName tagValue => single tagName (.string tagValue)
  | .neq tagName tagValue => single tagName (single "$neq" (.string tagValue))
  | .gt tagName tagValue => single tagName (single "$gt" (.string tagValue))
  | .gte tagName tagValue => single tagName (single "$gte" (.string tagValue))
  | .lt tagName tagValue => single tagName (single "$lt" (.string tagValue))
  | .lte tagName tagValue => single tagName (single "$lte" (.string tagValue))
  | .like tagName tagValue => single tagName (single "$like" (.string tagValue))
  | .isIn tagName tagValues => single tagName (single "$in" (.array (tagValues.map .string)))
  | .and operators => if operators = [] then .object []
      else single "$and" (.array (toValues operators))
  | .or operators => if operators = [] then .object []
      else single "$or" (.array (toValues operators))
  | .not stmt => single "$not" (toValue stmt)

def toValues : List Query → List Json
  | [] => []
  | q :: operators => toValue q :: toValues operators

end

end Print

section Image

/-- The names of the connectives, which no tag of a query has. -/
def reserved : List String := ["$and", "$or", "$not"]

mutual

/-- The queries the parser makes. A disjunction of nothing is not one of them: it is left out where
it stands. -/
def isParsed : Query → Bool
  | .eq name _ | .neq name _ | .gt name _ | .gte name _ | .lt name _ | .lte name _ | .like name
      _ | .isIn name _ =>
    decide (name ∉ reserved)
  | .and operators => allParsed operators
  | .or operators => !operators.isEmpty && allParsed operators
  | .not operator => isParsed operator

def allParsed : List Query → Bool
  | [] => true
  | operator :: operators => isParsed operator && allParsed operators

end

theorem allParsed_iff (operators : List Query) :
    allParsed operators = true ↔ ∀ q ∈ operators, isParsed q = true := by
  induction operators with
  | nil => simp [allParsed]
  | cons operator operators ih => rw [allParsed, Bool.and_eq_true, ih, List.forall_mem_cons]

theorem allParsed_append {operators operators' : List Query} (h : allParsed operators = true)
    (h' : allParsed operators' = true) : allParsed (operators ++ operators') = true := by
  rw [allParsed_iff] at *
  exact List.forall_mem_append.mpr ⟨h, h'⟩

theorem isParsed_queryOf {operators : List Query} (h : allParsed operators = true) :
    isParsed (queryOf operators) = true := by
  unfold queryOf
  split
  · exact (allParsed_iff _).mp h _ (by simp)
  · rwa [isParsed]

theorem exists_of_stringOperator {operatorName : String} {operator : String → Query}
    {value : Json} {q : Query}
    (h : stringOperator operatorName operator value = .ok q) : ∃ v, q = operator v := by
  cases value with
  | string v => exact ⟨v, (Except.ok.inj h).symm⟩
  | _ => cases h

theorem exists_of_inOperator {key : String} {value : Json} {q : Query}
    (h : inOperator key value = .ok q) :
    ∃ values, q = .isIn key values := by
  cases value with
  | array values =>
    obtain ⟨targetValues, -, hq⟩ := except_bind_eq_ok.mp h
    exact ⟨targetValues, (Except.ok.inj hq).symm⟩
  | _ => cases h

theorem isParsed_of_parseSingleOperator {operatorName key : String} {value : Json} {q : Query}
    (hkey : key ∉ reserved) (h : parseSingleOperator operatorName key value = .ok q) :
    isParsed q = true := by
  unfold parseSingleOperator at h
  split_ifs at h
  all_goals
    first
    | obtain ⟨v, rfl⟩ := exists_of_stringOperator h
    | obtain ⟨values, rfl⟩ := exists_of_inOperator h
    simpa only [isParsed, decide_eq_true_eq] using hkey

theorem isParsed_of_parseComparison {key : String} {fields : List (String × Json)} {q : Query}
    (hkey : key ∉ reserved) (h : parseComparison key fields = .ok q) : isParsed q = true := by
  unfold parseComparison at h
  split at h
  · exact isParsed_of_parseSingleOperator hkey h
  · cases h

theorem length_parseListOperators {values : List Json} {operators : List Query}
    (h : parseListOperators values = .ok operators) : operators.length = values.length := by
  induction values generalizing operators with
  | nil =>
    simp only [parseListOperators, Except.ok.injEq] at h
    rw [← h, List.length_nil, List.length_nil]
  | cons value values ih =>
    cases value with
    | object fields =>
      rw [parseListOperators, except_bind_eq_ok] at h
      obtain ⟨subfields, -, h⟩ := h
      obtain ⟨suboperators, hvalues, h⟩ := except_bind_eq_ok.mp h
      rw [← Except.ok.inj h, List.length_cons, ih hvalues, List.length_cons]
    | _ =>
      rw [parseListOperators] at h
      · cases h
      · simp

mutual

theorem isParsed_of_parseFields : (fields : List (String × Json)) → ∀ {operators : List Query},
    parseFields fields = .ok operators → allParsed operators = true
  | [], operators, h => by
    simp only [parseFields, Except.ok.injEq] at h
    rw [← h, allParsed]
  | (key, value) :: fields, operators, h => by
    rw [parseFields, except_bind_eq_ok] at h
    obtain ⟨operator, hoperator, h⟩ := h
    obtain ⟨operators', hoperators, h⟩ := except_bind_eq_ok.mp h
    obtain rfl := Except.ok.inj h
    refine allParsed_append ?_ (isParsed_of_parseFields fields hoperators)
    cases operator with
    | none => rfl
    | some q =>
      have hq := isParsed_of_parseOperator key value hoperator
      rw [Option.toList_some, allParsed, hq, allParsed]
      rfl

theorem isParsed_of_parseOperator (key : String) : (value : Json) → ∀ {q : Query},
    parseOperator key value = .ok (some q) → isParsed q = true
  | .array values, q, h => by
    rw [parseOperator] at h
    split_ifs at h with hconnective hempty hand
    · cases h
    · obtain ⟨operators, hoperators, hq⟩ := except_bind_eq_ok.mp h
      obtain rfl := Option.some.inj (Except.ok.inj hq)
      rw [isParsed]
      exact isParsed_of_parseListOperators values hoperators
    · obtain ⟨operators, hoperators, hq⟩ := except_bind_eq_ok.mp h
      obtain rfl := Option.some.inj (Except.ok.inj hq)
      have hlength := length_parseListOperators hoperators
      have hne : operators.isEmpty = false := by
        cases operators with
        | nil => exact absurd (List.length_eq_zero_iff.mp hlength.symm) hempty
        | cons _ _ => rfl
      rw [isParsed, hne, isParsed_of_parseListOperators values hoperators]
      rfl
  | .object fields, q, h => by
    rw [parseOperator] at h
    split_ifs at h with hand hor hnot
    · obtain ⟨operators, hoperators, hq⟩ := except_bind_eq_ok.mp h
      obtain rfl := Option.some.inj (Except.ok.inj hq)
      rw [isParsed]
      exact isParsed_queryOf (isParsed_of_parseFields fields hoperators)
    · have hkey : key ∉ reserved := by simp [reserved, hand, hor, hnot]
      obtain ⟨operator, hoperator, hq⟩ := except_bind_eq_ok.mp h
      obtain rfl := Option.some.inj (Except.ok.inj hq)
      exact isParsed_of_parseComparison hkey hoperator
  | .string value, q, h => by
    rw [parseOperator] at h
    split_ifs at h with hand hor hnot
    obtain rfl := Option.some.inj (Except.ok.inj h)
    simp [isParsed, reserved, hand, hor, hnot]
  | .null, q, h => by
    rw [parseOperator] at h
    · split_ifs at h
    all_goals simp
  | .bool _, q, h => by
    rw [parseOperator] at h
    · split_ifs at h
    all_goals simp
  | .number _, q, h => by
    rw [parseOperator] at h
    · split_ifs at h
    all_goals simp

theorem isParsed_of_parseListOperators : (values : List Json) → ∀ {operators : List Query},
    parseListOperators values = .ok operators → allParsed operators = true
  | [], operators, h => by
    simp only [parseListOperators, Except.ok.injEq] at h
    rw [← h, allParsed]
  | .object fields :: values, operators, h => by
    rw [parseListOperators, except_bind_eq_ok] at h
    obtain ⟨subfields, hfields, h⟩ := h
    obtain ⟨suboperators, hvalues, h⟩ := except_bind_eq_ok.mp h
    obtain rfl := Except.ok.inj h
    rw [allParsed, isParsed_queryOf (isParsed_of_parseFields fields hfields),
      isParsed_of_parseListOperators values hvalues]
    rfl
  | .null :: _, operators, h | .bool _ :: _, operators, h | .number _ :: _, operators,
      h | .string _ :: _, operators, h
  | .array _ :: _, operators, h => by
    rw [parseListOperators] at h
    · cases h
    · simp

end

theorem isParsed_of_parseQuery {fields : List (String × Json)} {q : Query}
    (h : parseQuery fields = .ok q) :
    isParsed q = true := by
  obtain ⟨operators, hoperators, hq⟩ := except_bind_eq_ok.mp h
  obtain rfl := Except.ok.inj hq
  exact isParsed_queryOf (isParsed_of_parseFields fields hoperators)

theorem isParsed_of_deserialize {value : Json} {q : Query} (h : deserialize value = .ok q) :
    isParsed q = true := by
  cases value with
  | object fields =>
    apply @isParsed_of_parseQuery fields
    rw [deserialize] at h
    cases hquery : parseQuery fields with
    | error e =>
      rw [hquery] at h
      cases h
    | ok q' =>
      rw [hquery] at h
      rw [Except.ok.inj h]
  | array array =>
    obtain ⟨res, -, hquery⟩ := except_bind_eq_ok.mp h
    exact isParsed_of_parseQuery hquery
  | _ => cases h

end Image

end SimpleAsset.Indy.Wql
