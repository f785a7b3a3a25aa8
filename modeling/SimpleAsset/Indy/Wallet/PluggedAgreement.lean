import SimpleAsset.Indy.Wallet.PluggedDocument
import SimpleAsset.Indy.Wallet.QueryMeaning
import SimpleAsset.Library.Radix64

/-! The PostgreSQL plugin reads the query that was written for it, if the values need no escape. -/
namespace SimpleAsset.Indy.Wallet
open SimpleAsset.Library
open Json (text stringText)
open Anoncreds (Query)
open Wql (single)

section Reading
variable (B : Base64)

namespace Operator

mutual

/-- What the wallet passes: names go with values, and a disjunction has operands. -/
def isMade : Operator → Bool
  | test _ name value => name.accepts value
  | isIn name values => values.all name.accepts
  | and operators => allMade operators
  | or operators => !operators.isEmpty && allMade operators
  | not operator => isMade operator

def allMade : List Operator → Bool
  | [] => true
  | operator :: operators => isMade operator && allMade operators

end

end Operator

/-- The plugin reads the operator itself out of its document, or refuses it if it is not matched. -/
structure ReadBack (op : Operator) : Prop where
  matched : op.isMatched = true → ∃ fields operators, op.toValue B = .object fields ∧
    Plugin.parseFields B true fields = .ok operators ∧ Plugin.optimise (.and operators) = op
  unmatched : op.isMatched = false → ∃ fields e, op.toValue B = .object fields ∧
    Plugin.parseFields B true fields = .error e

structure ReadBackAll (operators : List Operator) : Prop where
  matched : Operator.allMatched operators = true → ∀ message,
    Plugin.parseList B true message (Operator.toValues B operators) = .ok operators
  unmatched : Operator.allMatched operators = false → ∀ message,
    ∃ e, Plugin.parseList B true message (Operator.toValues B operators) = .error e

variable {B}

theorem not_mem_encode {c : Char} (hc : (c.isAlphanum || c = '+' || c = '/' || c = '=') = false)
    (b : Bytes) :
    c ∉ (B.encode b).toList := by
  intro hmem
  have halphabet := List.all_eq_true.mp (B.alphabet b) c hmem
  rw [hc] at halphabet
  cases halphabet

theorem label_not_mem_reserved (name : TagName) : name.label B ∉ Wql.reserved := by
  have hdollar : '$' ∉ (name.label B).toList := by
    cases name with
    | ofEncrypted v => exact not_mem_encode (by decide) v
    | ofPlain v =>
      rw [TagName.label, String.toList_append, List.mem_append, not_or]
      exact ⟨by decide, not_mem_encode (by decide) v⟩
  have hreserved : ∀ key ∈ Wql.reserved, '$' ∈ key.toList := by decide
  exact fun hmem => hdollar (hreserved _ hmem)

theorem decodeUnwrap_encode (b : Bytes) : Plugin.decodeUnwrap B (B.encode b) = .ok b := by
  rw [Plugin.decodeUnwrap, B.decode_encode]

theorem buildTargetName_label (name : TagName) :
    Plugin.buildTargetName B true (name.label B) = .ok name := by
  rw [Plugin.buildTargetName, if_neg (by decide)]
  cases name with
  | ofEncrypted v =>
    rw [TagName.label]
    split
    · rename_i rest hlabel
      have hmem : '~' ∈ (B.encode v).toList := by simp [hlabel]
      exact absurd hmem (not_mem_encode (by decide) v)
    · rw [decodeUnwrap_encode]
      rfl
  | ofPlain v =>
    have hlabel : (TagName.label B (.ofPlain v)).toList = '~' :: (B.encode v).toList := by
      rw [TagName.label, String.toList_append]
      rfl
    rw [hlabel]
    change (do
      let name ← Plugin.decodeUnwrap B (String.ofList (B.encode v).toList)
      pure (TagName.ofPlain name)) = _
    rw [String.ofList_toList, decodeUnwrap_encode]
    rfl

theorem buildTargetValue_label {name : TagName} {value : TargetValue}
    (h : name.accepts value = true) :
    Plugin.buildTargetValue B true name (value.label B) = .ok value := by
  cases name <;> cases value
  case ofPlain.unencrypted => rfl
  case ofEncrypted.encrypted v =>
    rw [TargetValue.label, Plugin.buildTargetValue, decodeUnwrap_encode]
    rfl
  all_goals cases h

theorem parseOperator_of_not_mem {name : String} (h : name ∉ Wql.reserved) (value : Json) :
    Plugin.parseOperator B true name value = Plugin.parseTag B true name value := by
  simp only [Wql.reserved, List.mem_cons, List.not_mem_nil, or_false, not_or] at h
  cases value with
  | array | object => rw [Plugin.parseOperator, if_neg h.1, if_neg h.2.1, if_neg h.2.2]
  | _ =>
    rw [Plugin.parseOperator, if_neg h.1, if_neg h.2.1, if_neg h.2.2]
    all_goals simp

theorem parseTag_eq {name : TagName} {value : TargetValue} (h : name.accepts value = true) :
    Plugin.parseTag B true (name.label B) (.string (value.label B)) = .ok
      (.test .eq name value) := by
  rw [Plugin.parseTag, buildTargetName_label, except_ok_bind, buildTargetValue_label h]
  rfl

theorem parseTag_comparison {op : CompareOp} (hop : op ≠ .eq) {name : TagName} {value : TargetValue}
    (h : name.accepts value = true) :
    Plugin.parseTag B true (name.label B) (single op.key (.string (value.label B))) =
      if name.compares op then .ok (.test op name value)
      else Plugin.structureErr (op.key ++ " must be used only for nonencrypted tag") := by
  have hkey : Plugin.compareOpOf op.key = some op := by
    cases op with
    | eq => exact absurd rfl hop
    | _ => decide
  rw [single, Plugin.parseTag, Plugin.parseSingleOperator, hkey]
  dsimp only
  rw [Plugin.parseComparison, buildTargetName_label, except_ok_bind, buildTargetValue_label h]
  rfl

theorem parseTag_in {name : TagName} {values : List TargetValue}
    (h : values.all name.accepts = true) :
    Plugin.parseTag B true (name.label B)
      (single "$in" (.array (values.map fun value => .string (value.label B)))) = .ok
        (.isIn name values) := by
  have hkey : Plugin.compareOpOf "$in" = none := by decide
  have htargets : (values.map fun value => Json.string (value.label B)).mapM
      (Plugin.targetValueOf B true name) = .ok (values.map id) := by
    rw [List.mapM_map]
    exact mapM_eq_ok_map fun value hvalue =>
      buildTargetValue_label (List.all_eq_true.mp h value hvalue)
  rw [single, Plugin.parseTag, Plugin.parseSingleOperator, hkey]
  dsimp only
  rw [if_pos rfl, Plugin.parseIn, buildTargetName_label, except_ok_bind, htargets, List.map_id]
  rfl

/-- An operator that is written as an object with one field. -/
theorem readBack_single {op : Operator} {name : String} {value : Json}
    (hvalue : op.toValue B = single name value)
    (hmatched : op.isMatched = true → Plugin.parseOperator B true name value = .ok op)
    (hunmatched : op.isMatched = false → ∃ e, Plugin.parseOperator B true name value = .error e) :
    ReadBack B op where
  matched h := by
    refine ⟨_, [op], hvalue, ?_, rfl⟩
    rw [Plugin.parseFields, hmatched h, except_ok_bind, Plugin.parseFields]
    rfl
  unmatched h := by
    obtain ⟨e, he⟩ := hunmatched h
    refine ⟨_, e, hvalue, ?_⟩
    rw [Plugin.parseFields, he]
    rfl

theorem readBack_test {op : CompareOp} {name : TagName} {value : TargetValue}
    (h : name.accepts value = true) :
    ReadBack B (.test op name value) := by
  have hreserved := label_not_mem_reserved (B := B) name
  by_cases hop : op = .eq
  · obtain rfl := hop
    have hcompares : name.compares .eq = true := by cases name <;> rfl
    refine readBack_single (by rw [Operator.toValue]) (fun _ => ?_) fun hunmatched => ?_
    · rw [parseOperator_of_not_mem hreserved, parseTag_eq h]
    · rw [Operator.isMatched, h, hcompares] at hunmatched
      cases hunmatched
  · have hvalue : (Operator.test op name value).toValue B =
        single (name.label B) (single op.key (.string (value.label B))) := by
      rw [Operator.toValue]
      simpa using hop
    have hparse : Plugin.parseOperator B true (name.label B)
        (single op.key (.string (value.label B))) =
        if name.compares op then .ok (.test op name value)
        else Plugin.structureErr (op.key ++ " must be used only for nonencrypted tag") := by
      rw [parseOperator_of_not_mem hreserved, parseTag_comparison hop h]
    have hmatched : (Operator.test op name value).isMatched = name.compares op := by
      rw [Operator.isMatched, h, Bool.true_and]
    refine readBack_single hvalue (fun hcompares => ?_) fun hcompares => ?_
    · rw [hparse, if_pos (hmatched ▸ hcompares)]
    · rw [hparse, if_neg (by rw [← hmatched, hcompares]; simp)]
      exact ⟨_, rfl⟩

theorem ReadBack.cons {op : Operator} {operators : List Operator} (h : ReadBack B op)
    (hall : ReadBackAll B operators) : ReadBackAll B (op :: operators) where
  matched hmatched message := by
    rw [Operator.allMatched, Bool.and_eq_true] at hmatched
    obtain ⟨fields, suboperators, hvalue, hparse, hop⟩ := h.matched hmatched.1
    rw [Operator.toValues, hvalue, Plugin.parseList, hparse, except_ok_bind,
      hall.matched hmatched.2, except_ok_bind, hop]
    rfl
  unmatched hunmatched message := by
    rw [Operator.allMatched, Bool.and_eq_false_iff] at hunmatched
    cases hop : op.isMatched with
    | false =>
      obtain ⟨fields, e, hvalue, hparse⟩ := h.unmatched hop
      exact ⟨e, by rw [Operator.toValues, hvalue, Plugin.parseList, hparse]; rfl⟩
    | true =>
      obtain ⟨fields, suboperators, hvalue, hparse, -⟩ := h.matched hop
      obtain ⟨e, he⟩ := hall.unmatched (hunmatched.resolve_left (by simp [hop])) message
      exact ⟨e,
        by rw [Operator.toValues, hvalue, Plugin.parseList, hparse, except_ok_bind, he]; rfl⟩

/-- `$and` and `$or` differ in their names only. -/
theorem ReadBackAll.joined {join : List Operator → Operator} {operators : List Operator}
    (hall : ReadBackAll B operators) (name message : String)
    (hvalue : (join operators).toValue B = single name (.array (Operator.toValues B operators)))
    (hmatched : (join operators).isMatched = Operator.allMatched operators)
    (hparse : Plugin.parseOperator B true name (.array (Operator.toValues B operators)) = do
      let operators ← Plugin.parseList B true message (Operator.toValues B operators)
      pure (join operators)) : ReadBack B (join operators) := by
  refine readBack_single hvalue (fun h => ?_) fun h => ?_
  · rw [hmatched] at h
    rw [hparse, hall.matched h]
    rfl
  · rw [hmatched] at h
    obtain ⟨e, he⟩ := hall.unmatched h message
    exact ⟨e, by rw [hparse, he]; rfl⟩

mutual

theorem readBack : (op : Operator) → op.isMade = true → ReadBack B op
  | .test op name value, h => by
    rw [Operator.isMade] at h
    exact readBack_test h
  | .isIn name values, h => by
    rw [Operator.isMade] at h
    refine readBack_single (by rw [Operator.toValue]) (fun _ => ?_) fun hunmatched => ?_
    · rw [parseOperator_of_not_mem (label_not_mem_reserved name), parseTag_in h]
    · rw [Operator.isMatched, h] at hunmatched
      cases hunmatched
  | .and operators, h => by
    rw [Operator.isMade] at h
    cases operators with
    | nil =>
      refine ⟨fun _ => ⟨[], [],
        by rw [Operator.toValue, if_pos List.isEmpty_nil], by rw [Plugin.parseFields], rfl⟩, ?_⟩
      simp [Operator.isMatched, Operator.allMatched]
    | cons op operators =>
      refine (readBack_list (op :: operators) h).joined "$and"
        "$and must be array of JSON objects" ?_ ?_ ?_
      · rw [Operator.toValue, if_neg (by simp)]
      · rw [Operator.isMatched]
      · rw [Plugin.parseOperator, if_pos rfl]
  | .or operators, h => by
    rw [Operator.isMade, Bool.and_eq_true] at h
    cases operators with
    | nil => simp at h
    | cons op operators =>
      refine (readBack_list (op :: operators) h.2).joined "$or"
        "$or must be array of JSON objects" ?_ ?_ ?_
      · rw [Operator.toValue, if_neg (by simp)]
      · rw [Operator.isMatched]
      · rw [Plugin.parseOperator, if_neg (by decide), if_pos rfl]
  | .not stmt, h => by
    rw [Operator.isMade] at h
    obtain ⟨hmatched, hunmatched⟩ := readBack stmt h
    refine readBack_single (by rw [Operator.toValue]) (fun hstmt => ?_) fun hstmt => ?_
    · rw [Operator.isMatched] at hstmt
      obtain ⟨fields, operators, hvalue, hparse, hop⟩ := hmatched hstmt
      rw [hvalue, Plugin.parseOperator, if_neg (by decide), if_neg (by decide), if_pos rfl, hparse,
        except_ok_bind, hop]
      rfl
    · rw [Operator.isMatched] at hstmt
      obtain ⟨fields, e, hvalue, hparse⟩ := hunmatched hstmt
      refine ⟨e, ?_⟩
      rw [hvalue, Plugin.parseOperator, if_neg (by decide), if_neg (by decide), if_pos rfl, hparse]
      rfl

theorem readBack_list : (operators : List Operator) → Operator.allMade operators = true →
    ReadBackAll B operators
  | [], _ => by
    refine ⟨fun _ message => by rw [Operator.toValues, Plugin.parseList], ?_⟩
    simp [Operator.allMatched]
  | op :: operators, h => by
    rw [Operator.allMade, Bool.and_eq_true] at h
    exact (readBack op h.1).cons (readBack_list operators h.2)

end

end Reading

section Made
variable {C : Cipher} {keys : Keys}

theorem isParsed_collapse {join : List Query → Query} {operators : List Query} {q : Query}
    (hjoin : operators ≠ [] → Wql.isParsed (join operators) = true)
    (hparsed : Wql.allParsed operators = true)
    (h : collapse join operators = some q) : Wql.isParsed q = true := by
  match operators with
  | [] => cases h
  | [operator] =>
    obtain rfl := Option.some.inj h
    exact (Wql.allParsed_iff _).mp hparsed _ List.mem_cons_self
  | operator :: operator' :: operators =>
    rw [← Option.some.inj h]
    exact hjoin (List.cons_ne_nil _ _)

theorem allParsed_optimiseAll {operators : List Query} (hparsed : Wql.allParsed operators = true)
    (ih : ∀ operator ∈ operators, Wql.isParsed operator = true → ∀ q, optimise operator = some q →
      Wql.isParsed q = true) : Wql.allParsed (optimiseAll operators) = true := by
  rw [Wql.allParsed_iff]
  intro q hq
  obtain ⟨operator, hmem, hq⟩ := (mem_optimiseAll operators).mp hq
  exact ih operator hmem ((Wql.allParsed_iff operators).mp hparsed operator hmem) q hq

/-- Optimisation keeps to the queries that the parser makes. -/
theorem isParsed_optimise (query : Query) (hparsed : Wql.isParsed query = true) :
    ∀ q, optimise query = some q → Wql.isParsed q = true := by
  induction query using query_induction with
  | compare op name value =>
    intro q h
    rw [optimise_query] at h
    rwa [← Option.some.inj h]
  | isIn name values =>
    intro q h
    rw [Wql.isParsed] at hparsed
    rcases values with _ | ⟨value, _ | ⟨value', values⟩⟩
    all_goals
      simp only [optimise, Option.some.injEq] at h
      rw [← h, Wql.isParsed, hparsed]
  | and operators ih =>
    intro q h
    rw [Wql.isParsed] at hparsed
    rw [optimise_and] at h
    have hall := allParsed_optimiseAll hparsed ih
    exact isParsed_collapse (fun _ => by rw [Wql.isParsed, hall]) hall h
  | or operators ih =>
    intro q h
    rw [Wql.isParsed, Bool.and_eq_true] at hparsed
    rw [optimise_or] at h
    have hall := allParsed_optimiseAll hparsed.2 ih
    exact isParsed_collapse (fun hne => by simp [Wql.isParsed, hall, hne]) hall h
  | not operator ih =>
    intro q h
    cases operator with
    | not nested =>
      simp only [optimise, Option.some.injEq] at h
      rwa [Wql.isParsed, Wql.isParsed, h] at hparsed
    | _ =>
      simp only [optimise, Option.some.injEq] at h
      rwa [← h]

theorem isParsed_optimised {query : Query} (h : Wql.isParsed query = true) :
    Wql.isParsed (optimised query) = true := by
  rw [optimised]
  cases hquery : optimise query with
  | none => rfl
  | some q => exact isParsed_optimise query h q hquery

theorem accepts_encryptTarget (name value : String) :
    (encryptTagName C keys name).accepts (encryptTarget C keys name value) = true := by
  cases hplain : isPlain name with
  | true =>
    rw [encryptTagName_of_isPlain C keys hplain, encryptTarget_of_isPlain C keys hplain]
    rfl
  | false =>
    rw [encryptTagName_of_not_isPlain C keys hplain, encryptTarget_of_not_isPlain C keys hplain]
    rfl

theorem allMade_of_forall₂ {queries : List Query} {operators : List Operator}
    (h : List.Forall₂
      (fun query operator => Wql.isParsed query = true → Operator.isMade operator = true) queries
      operators) (hparsed : Wql.allParsed queries = true) :
    Operator.allMade operators = true ∧ operators.isEmpty = queries.isEmpty := by
  induction h with
  | nil => exact ⟨rfl, rfl⟩
  | cons hquery _ ih =>
    rw [Wql.allParsed, Bool.and_eq_true] at hparsed
    rw [Operator.allMade, hquery hparsed.1, (ih hparsed.2).1]
    exact ⟨rfl, rfl⟩

theorem isMade_transform {query : Query} {operator : Operator}
    (h : transform C keys query = .ok operator)
    (hparsed : Wql.isParsed query = true) : operator.isMade = true := by
  revert hparsed
  refine transform_induction
    (P := fun query operator => Wql.isParsed query = true → operator.isMade = true) ?_ ?_ ?_
    ?_ ?_ query operator h
  · intro op name value _
    rw [Operator.isMade, accepts_encryptTarget]
  · intro name values _
    rw [Operator.isMade, List.all_map, List.all_eq_true]
    exact fun value _ => accepts_encryptTarget name value
  · intro queries operators hall hparsed
    rw [Wql.isParsed] at hparsed
    rw [Operator.isMade, (allMade_of_forall₂ hall hparsed).1]
  · intro queries operators hall hparsed
    rw [Wql.isParsed, Bool.and_eq_true] at hparsed
    obtain ⟨hmade, hempty⟩ := allMade_of_forall₂ hall hparsed.2
    rw [Operator.isMade, hmade, hempty, hparsed.1]
    rfl
  · intro query operator hquery hparsed
    rw [Wql.isParsed] at hparsed
    rw [Operator.isMade, hquery hparsed]

theorem isMade_of_encryptedQuery {value : Json} {op : Operator}
    (h : encryptedQuery C keys value = .ok op) :
    op.isMade = true := by
  unfold encryptedQuery at h
  cases hvalue : Wql.deserialize value with
  | error e =>
    rw [hvalue] at h
    cases h
  | ok query =>
    rw [hvalue] at h
    have htransform : transform C keys (optimised query) = .ok op := h
    exact isMade_transform htransform (isParsed_optimised (Wql.isParsed_of_deserialize hvalue))

end Made

section Search
variable {B : Base64} {R : Plugin.JsonReader}

/-- The storage is given a text, and the plugin reads an operator out of it that is satisfied by the
same tags. -/
def IsAgreed (B : Base64) (R : Plugin.JsonReader) (op : Operator) : Prop :=
  ∃ text op', searchQuery B op = .ok text ∧ Plugin.parseFromJsonEncrypted B R text = .ok op' ∧
    ∀ S stored, op'.isSatisfied S stored = op.isSatisfied S stored

theorem searchQuery_eq {op op' : Operator} (h : (op.toText B).toList = (op'.toValue B).text) :
    searchQuery B op = .ok (String.ofList (op'.toValue B).text) := by
  have hprinted :=
    Json.all_text (op'.toValue B) (Json.isDocument_of_isTextual _ (isTextual_toValue op'))
  have hnul : '\x00' ∉ (op.toText B).toList := by
    intro hmem
    rw [h] at hmem
    exact absurd (List.all_eq_true.mp hprinted _ hmem) (by decide)
  rw [searchQuery, cString, if_neg hnul, ← h, String.ofList_toList]

/-- What the plugin makes of the document of an operator. -/
theorem parse_toValue {op : Operator} (h : op.isMade = true) :
    (op.levels < 128 → op.isMatched = true →
      Plugin.parseFromJsonEncrypted B R (String.ofList (op.toValue B).text) = .ok op) ∧
    (¬ (op.levels < 128 ∧ op.isMatched = true) →
      ∃ e, Plugin.parseFromJsonEncrypted B R (String.ofList (op.toValue B).text) = .error e) := by
  have hread := readBack (B := B) op h
  have htextual := isTextual_toValue (B := B) op
  have hnesting := nesting_toValue (B := B) op
  unfold Plugin.parseFromJsonEncrypted Plugin.parseFromJsonInternal
  by_cases hlevels : op.levels < 128
  · rw [R.fromStr_text _ htextual (by omega)]
    constructor
    · intro _ hmatched
      obtain ⟨fields, operators, hvalue, hparse, hop⟩ := hread.matched hmatched
      rw [hvalue]
      dsimp only
      rw [Plugin.parse, hparse, except_ok_bind, hop]
      rfl
    · intro hbad
      have hunmatched : op.isMatched = false := by simpa [hlevels] using hbad
      obtain ⟨fields, e, hvalue, hparse⟩ := hread.unmatched hunmatched
      refine ⟨e, ?_⟩
      rw [hvalue]
      dsimp only
      rw [Plugin.parse, hparse]
      rfl
  · refine ⟨fun hlt => absurd hlt hlevels, fun _ => ?_⟩
    obtain ⟨e, he⟩ := R.fromStr_deep _ htextual (by omega)
    exact ⟨_, by rw [he]⟩

/-- If no value needs an escape, the plugin searches for what the wallet does, unless the text is
nested too deep or encrypted values are compared. -/
theorem plugged_query_agrees_iff (B : Base64) (R : Plugin.JsonReader) (C : Cipher) (keys : Keys)
    {value : Json} {op : Operator} (h : encryptedQuery C keys value = .ok op)
    (hunescaped : op.isUnescaped = true) :
    IsAgreed B R op ↔ op.levels < 128 ∧ op.isMatched = true := by
  obtain ⟨hok, herror⟩ := parse_toValue (B := B) (R := R) (isMade_of_encryptedQuery h)
  have hsearch := searchQuery_eq (toText_toList (B := B) op hunescaped)
  constructor
  · rintro ⟨text, op', htext, hparse, -⟩
    by_contra hbad
    obtain ⟨e, he⟩ := herror hbad
    rw [hsearch, Except.ok.injEq] at htext
    rw [← htext, he] at hparse
    cases hparse
  · rintro ⟨hlevels, hmatched⟩
    exact ⟨_, op, hsearch, hok hlevels hmatched, fun _ _ => rfl⟩

def base64 : Base64 where
  encode b := String.ofList (Radix64.encode b)
  decode s := Radix64.decode s.toList
  decode_encode b := by rw [String.toList_ofList, Radix64.decode_encode]
  alphabet b := by
    rw [String.toList_ofList]
    exact Radix64.encode_all (by decide) (by decide) b

def serdeReader : Plugin.JsonReader where
  fromStr := Wql.serdeJson.fromStr
  fromStr_text := Wql.serdeJson.fromStr_toString
  fromStr_deep := Wql.serdeJson.fromStr_deep

/-- `{"$not":{"b":"x"},"~a":{"$like":"1%"}}`. -/
def likeValue : Json :=
  .object [("$not", single "b" (.string "x")), ("~a", single "$like" (.string "1%"))]

def likeOperator : Operator :=
  .and [.not (.test .eq (encryptTagName plainCipher zeroKeys "b")
    (encryptTarget plainCipher zeroKeys "b" "x")),
    .test .like (encryptTagName plainCipher zeroKeys "~a") (.unencrypted "1%")]

theorem plugged_query_agrees_like : IsAgreed base64 serdeReader likeOperator := by
  have hencrypted : encryptedQuery plainCipher zeroKeys likeValue = .ok likeOperator := rfl
  have hunescaped : likeOperator.isUnescaped = true := by decide
  exact (plugged_query_agrees_iff base64 serdeReader plainCipher zeroKeys hencrypted hunescaped).mpr
    ⟨by decide, by decide⟩

/-- A backslash and a letter in a value are read as one character. -/
theorem not_plugged_query_agrees :
    ∃ op, encryptedQuery plainCipher zeroKeys (single "~a" (.string "\\n")) = .ok op ∧
    ∀ B R, ¬ IsAgreed B R op := by
  let name := encryptTagName plainCipher zeroKeys "~a"
  let read := Operator.test .eq name (.unencrypted "\n")
  have hmade : read.isMade = true := accepts_encryptTarget "~a" "\n"
  refine ⟨.test .eq name (.unencrypted "\\n"), rfl, ?_⟩
  rintro B R ⟨query, op', hquery, hparse, hsame⟩
  have hwritten : ((Operator.test .eq name (.unencrypted "\\n")).toText B).toList =
      (read.toValue B).text := by
    rw [Operator.toText, Operator.toValue]
    have hvalue : (quoted "\\n").toList = stringText "\n" := by decide
    exact toList_braced (toText_name name) (by rwa [text])
  have hread := (parse_toValue (B := B) (R := R) hmade).1 (by decide) (by decide)
  rw [searchQuery_eq hwritten, Except.ok.injEq] at hquery
  rw [← hquery, hread, Except.ok.injEq] at hparse
  have hstored := hsame maxSqlite fun _ => some (.plainText [] "\\n")
  rw [← hparse] at hstored
  exact absurd hstored (by decide)

end Search

end SimpleAsset.Indy.Wallet
