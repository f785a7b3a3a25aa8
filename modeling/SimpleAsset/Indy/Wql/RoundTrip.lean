import SimpleAsset.Indy.Wql.JsonText
import SimpleAsset.Indy.Wql.Parser

/-! Queries survive being written as text and parsed again, up to the depth that is read. -/
namespace SimpleAsset.Indy.Wql
open SimpleAsset.Library
open Anoncreds (Query)

section Values

/-- The value of a query is an object, and the query is what that object is parsed to. -/
def ReadsBack (q : Query) : Prop :=
  ∃ fields operators, toValue q = .object fields ∧ parseFields fields = .ok operators ∧
    queryOf operators = q

/-- A query that is written as an object with one field. -/
theorem readsBack_single {q : Query} {name : String} {value : Json}
    (hvalue : toValue q = single name value)
    (hparse : parseOperator name value = .ok (some q)) : ReadsBack q := by
  refine ⟨_, [q], hvalue, ?_, rfl⟩
  rw [parseFields, hparse, parseFields]
  rfl

theorem parseOperator_string {name : String} (hname : name ∉ reserved) (value : String) :
    parseOperator name (.string value) = .ok (some (.eq name value)) := by
  simp only [reserved, List.mem_cons, List.not_mem_nil, or_false, not_or] at hname
  rw [parseOperator, if_neg hname.1, if_neg hname.2.1, if_neg hname.2.2]

/-- The value of a tag is an object with one operator. -/
theorem parseOperator_single {name operatorName : String} (hname : name ∉ reserved)
    {value : Json} {q : Query} (h : parseSingleOperator operatorName name value = .ok q) :
    parseOperator name (single operatorName value) = .ok (some q) := by
  simp only [reserved, List.mem_cons, List.not_mem_nil, or_false, not_or] at hname
  rw [single, parseOperator, if_neg hname.1, if_neg hname.2.1, if_neg hname.2.2, parseComparison, h]
  rfl

theorem parseSingleOperator_in (name : String) (values : List String) :
    parseSingleOperator "$in" name (.array (values.map .string)) = .ok (.isIn name values) := by
  change inOperator name (.array (values.map .string)) = _
  rw [inOperator, List.mapM_map]
  refine except_bind_eq_ok.mpr ⟨values.map id, mapM_eq_ok_map fun _ _ => rfl, ?_⟩
  rw [List.map_id]
  rfl

mutual

theorem readsBack : (q : Query) → isParsed q = true → ReadsBack q
  | .eq name value, h => by
    rw [isParsed, decide_eq_true_iff] at h
    exact readsBack_single (by rw [toValue]) (parseOperator_string h value)
  | .neq name value, h => by
    rw [isParsed, decide_eq_true_iff] at h
    exact readsBack_single (by rw [toValue]) (parseOperator_single h rfl)
  | .gt name value, h => by
    rw [isParsed, decide_eq_true_iff] at h
    exact readsBack_single (by rw [toValue]) (parseOperator_single h rfl)
  | .gte name value, h => by
    rw [isParsed, decide_eq_true_iff] at h
    exact readsBack_single (by rw [toValue]) (parseOperator_single h rfl)
  | .lt name value, h => by
    rw [isParsed, decide_eq_true_iff] at h
    exact readsBack_single (by rw [toValue]) (parseOperator_single h rfl)
  | .lte name value, h => by
    rw [isParsed, decide_eq_true_iff] at h
    exact readsBack_single (by rw [toValue]) (parseOperator_single h rfl)
  | .like name value, h => by
    rw [isParsed, decide_eq_true_iff] at h
    exact readsBack_single (by rw [toValue]) (parseOperator_single h rfl)
  | .isIn name values, h => by
    rw [isParsed, decide_eq_true_iff] at h
    exact readsBack_single (by rw [toValue])
      (parseOperator_single h (parseSingleOperator_in name values))
  | .and operators, h => by
    rw [isParsed] at h
    cases operators with
    | nil => exact ⟨[], [], by rw [toValue, if_pos rfl], by rw [parseFields], rfl⟩
    | cons q operators =>
      have hlist := readsBack_list (q :: operators) h
      refine readsBack_single (by rw [toValue, if_neg (by simp)]) ?_
      rw [parseOperator, if_pos (.inl rfl), if_neg (by simp [toValues]), hlist,
        except_ok_bind, if_pos rfl]
      rfl
  | .or operators, h => by
    rw [isParsed, Bool.and_eq_true] at h
    cases operators with
    | nil => simp at h
    | cons q operators =>
      have hlist := readsBack_list (q :: operators) h.2
      refine readsBack_single (by rw [toValue, if_neg (by simp)]) ?_
      rw [parseOperator, if_pos (.inr rfl), if_neg (by simp [toValues]), hlist, except_ok_bind,
        if_neg (by decide)]
      rfl
  | .not q, h => by
    rw [isParsed] at h
    obtain ⟨fields, operators, hvalue, hparse, hq⟩ := readsBack q h
    refine readsBack_single (by rw [toValue, hvalue]) ?_
    rw [parseOperator, if_neg (by decide), if_neg (by decide), if_pos rfl, hparse,
      except_ok_bind, hq]
    rfl

theorem readsBack_list : (operators : List Query) → allParsed operators = true →
    parseListOperators (toValues operators) = .ok operators
  | [], _ => by rw [toValues, parseListOperators]
  | q :: operators, h => by
    rw [allParsed, Bool.and_eq_true] at h
    obtain ⟨fields, found, hvalue, hparse, hq⟩ := readsBack q h.1
    rw [toValues, hvalue, parseListOperators, hparse, except_ok_bind, readsBack_list operators h.2,
      except_ok_bind, hq]
    rfl

end

/-- On JSON values, writing and parsing a query has no limit. -/
theorem deserialize_toValue {q : Query} (h : isParsed q = true) :
    deserialize (toValue q) = .ok q := by
  obtain ⟨fields, operators, hvalue, hparse, hq⟩ := readsBack q h
  rw [hvalue, deserialize, parseQuery, hparse, except_ok_bind, hq]
  rfl

/-- The queries that the parser makes. -/
theorem exists_deserialize_iff (q : Query) :
    (∃ value, deserialize value = .ok q) ↔ isParsed q = true :=
  ⟨fun ⟨_, h⟩ => isParsed_of_deserialize h, fun h => ⟨toValue q, deserialize_toValue h⟩⟩

end Values

section Texts

/-- `Display` of a JSON value and `from_str`. Beyond 127 arrays and objects in one another,
`from_str` refuses the text. -/
structure SerdeJson where
  toString : Json → String
  fromStr : String → Except String Json
  fromStr_toString : ∀ value : Json, value.isTextual = true → value.nesting < 128 →
    fromStr (toString value) = .ok value
  fromStr_deep : ∀ value : Json, value.isTextual = true → 128 ≤ value.nesting →
    ∃ e, fromStr (toString value) = .error e

variable (S : SerdeJson)

/-- `Query::to_string`. -/
def queryText (q : Query) : String := S.toString (toValue q)

/-- `from_str::<Query>`. -/
def fromText (text : String) : Except String Query := do
  let value ← S.fromStr text
  deserialize value

/-- What is left of a query that is written and parsed a number of times. -/
def rewritten (q : Query) : ℕ → Except String Query
  | 0 => .ok q
  | n + 1 => do
    let q ← rewritten q n
    fromText S (queryText S q)

theorem isTextual_single (name : String) (value : Json) :
    (single name value).isTextual = value.isTextual := by
  simp [single, Json.isTextual, Json.fieldsTextual]

theorem nesting_single (name : String) (value : Json) :
    (single name value).nesting = value.nesting + 1 := by
  simp [single, Json.nesting, Json.fieldsNesting]

theorem isTextual_strings (values : List String) :
    (Json.array (values.map .string)).isTextual = true := by
  rw [Json.isTextual, Json.itemsTextual_iff]
  intro value hvalue
  obtain ⟨s, -, rfl⟩ := List.mem_map.mp hvalue
  rw [Json.isTextual]

mutual

theorem isTextual_toValue : (q : Query) → (toValue q).isTextual = true
  | .eq name value => by rw [toValue, isTextual_single, Json.isTextual]
  | .neq name value | .gt name value | .gte name value | .lt name value | .lte name value | .like
      name value => by
    rw [toValue, isTextual_single, isTextual_single, Json.isTextual]
  | .isIn name values => by rw [toValue, isTextual_single, isTextual_single, isTextual_strings]
  | .and operators => by
    rw [toValue]
    split_ifs
    · rfl
    · rw [isTextual_single, Json.isTextual, itemsTextual_toValues]
  | .or operators => by
    rw [toValue]
    split_ifs
    · rfl
    · rw [isTextual_single, Json.isTextual, itemsTextual_toValues]
  | .not q => by rw [toValue, isTextual_single, isTextual_toValue]

theorem itemsTextual_toValues : (operators : List Query) →
    Json.itemsTextual (toValues operators) = true
  | [] => by rw [toValues, Json.itemsTextual]
  | q :: operators => by
    rw [toValues, Json.itemsTextual, isTextual_toValue, itemsTextual_toValues]
    rfl

end

variable {S} {q : Query}

theorem fromText_of_nesting_lt (h : isParsed q = true) (hnesting : (toValue q).nesting < 128) :
    fromText S (queryText S q) = .ok q := by
  rw [fromText, queryText, S.fromStr_toString _ (isTextual_toValue q) hnesting, except_ok_bind,
    deserialize_toValue h]

theorem fromText_of_le_nesting (hnesting : 128 ≤ (toValue q).nesting) :
    ∃ e, fromText S (queryText S q) = .error e := by
  obtain ⟨e, he⟩ := S.fromStr_deep _ (isTextual_toValue q) hnesting
  exact ⟨e, by rw [fromText, queryText, he]; rfl⟩

theorem rewritten_of_nesting_lt (h : isParsed q = true)
    (hnesting : (toValue q).nesting < 128) (n : ℕ) :
    rewritten S q n = .ok q := by
  induction n with
  | zero => rfl
  | succ n ih => rw [rewritten, ih, except_ok_bind, fromText_of_nesting_lt h hnesting]

/-- A query from the parser is the one that its JSON value is parsed to. Its text is parsed to it,
any number of times, if and only if the value is not nested too deep. -/
theorem wql_text_round_trips (S : SerdeJson) {value : Json} {q : Query}
    (h : deserialize value = .ok q) :
    deserialize (toValue q) = .ok q ∧
    ((toValue q).nesting < 128 → ∀ n, rewritten S q n = .ok q) ∧
    (128 ≤ (toValue q).nesting → ∃ e, fromText S (queryText S q) = .error e) := by
  have hparsed := isParsed_of_deserialize h
  exact ⟨deserialize_toValue hparsed, rewritten_of_nesting_lt hparsed, fromText_of_le_nesting⟩

/-- Compact documents, read with the limit. -/
def serdeJson : SerdeJson where
  toString value := String.ofList value.text
  fromStr s :=
    match Json.readValue s.toList.length 127 s.toList with
    | .ok (value, []) => .ok value
    | .ok _ => .error "trailing characters"
    | .error e => .error e
  fromStr_toString value htextual hnesting := by
    have hread := Json.readValue_text 127 [] (Json.isDocument_of_isTextual value htextual) le_rfl
    rw [List.append_nil, Json.readAs, if_pos (by omega)] at hread
    simp only [String.toList_ofList, hread]
  fromStr_deep value htextual hnesting := by
    have hread := Json.readValue_text 127 [] (Json.isDocument_of_isTextual value htextual) le_rfl
    rw [List.append_nil, Json.readAs, if_neg (by omega)] at hread
    exact ⟨Json.recursionLimit, by simp only [String.toList_ofList, hread]⟩

/-- `{"$or":[{"a":"b"},{}],"x":{"$in":["1","\""]}}`. -/
def sampleValue : Json :=
  .object [("$or", .array [single "a" (.string "b"), .object []]),
    ("x", single "$in" (.array [.string "1", .string "\""]))]

def sampleQuery : Query := .and [.or [.eq "a" "b", .and []], .isIn "x" ["1", "\""]]

theorem wql_text_round_trips_sample : rewritten serdeJson sampleQuery 2 = .ok sampleQuery := by
  have hparse : deserialize sampleValue = .ok sampleQuery := rfl
  have hnesting : (toValue sampleQuery).nesting < 128 := by decide
  exact (wql_text_round_trips serdeJson hparse).2.1 hnesting 2

/-- Two fields on every level; the array of their conjunction makes three levels of one. -/
def grown : ℕ → Json
  | 0 => .object []
  | n + 1 => .object [("$not", grown n), ("x", .string "y")]

def grownQuery : ℕ → Query
  | 0 => .and []
  | n + 1 => .and [.not (grownQuery n), .eq "x" "y"]

theorem nesting_grown (n : ℕ) : (grown n).nesting = n + 1 := by
  induction n with
  | zero => rfl
  | succ n ih =>
    simp [grown, Json.nesting, Json.fieldsNesting, ih]

theorem nesting_grownQuery (n : ℕ) : (toValue (grownQuery n)).nesting = 3 * n + 1 := by
  induction n with
  | zero => rfl
  | succ n ih =>
    rw [grownQuery, toValue, if_neg (by simp), nesting_single, Json.nesting, toValues, toValues,
      toValues, toValue, toValue]
    simp only [Json.itemsNesting, nesting_single, ih, Json.nesting]
    omega

theorem parseFields_grown (n : ℕ) : ∃ fields operators, grown n = .object fields ∧
    parseFields fields = .ok operators ∧ queryOf operators = grownQuery n := by
  induction n with
  | zero => exact ⟨[], [], rfl, by rw [parseFields], rfl⟩
  | succ n ih =>
    obtain ⟨fields, operators, hvalue, hparse, hq⟩ := ih
    refine ⟨_, [.not (grownQuery n), .eq "x" "y"], rfl, ?_, rfl⟩
    rw [hvalue, parseFields, parseOperator, if_neg (by decide), if_neg (by decide), if_pos rfl,
      hparse, except_ok_bind, hq, parseFields, parseOperator_string (by decide), parseFields]
    rfl

/-- A query that was parsed from 44 levels is written with 130, which are not read. -/
theorem not_wql_text_round_trips : (grown 43).nesting = 44 ∧
    deserialize (grown 43) = .ok (grownQuery 43) ∧
    ¬ ∃ S : SerdeJson, fromText S (queryText S (grownQuery 43)) = .ok (grownQuery 43) := by
  refine ⟨nesting_grown 43, ?_, ?_⟩
  · obtain ⟨fields, operators, hvalue, hparse, hq⟩ := parseFields_grown 43
    rw [hvalue, deserialize, parseQuery, hparse, except_ok_bind, hq]
    rfl
  · rintro ⟨S, hread⟩
    obtain ⟨e, he⟩ :=
      fromText_of_le_nesting (S := S) (q := grownQuery 43) (by rw [nesting_grownQuery]; decide)
    rw [he] at hread
    cases hread

end Texts

end SimpleAsset.Indy.Wql
