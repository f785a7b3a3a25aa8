import SimpleAsset.Indy.Wallet.PluggedQuery
import SimpleAsset.Indy.Wql.RoundTrip

/-! The text of a query without escapes is a compact document. -/
namespace SimpleAsset.Indy.Wallet
open SimpleAsset.Library
open Json (text stringText escape shortEscapes)
open Wql (single)

section Documents
variable (B : Base64)

def TagName.label : TagName → String
  | .ofEncrypted v => B.encode v
  | .ofPlain v => "~" ++ B.encode v

def TargetValue.label : TargetValue → String
  | .unencrypted s => s
  | .encrypted v => B.encode v

namespace Operator

mutual

/-- The document of an operator. -/
def toValue : Operator → Json
  | test .eq name value => single (name.label B) (.string (value.label B))
  | test op name value => single (name.label B) (single op.key (.string (value.label B)))
  | isIn name values =>
    single (name.label B) (single "$in" (.array (values.map fun value => .string (value.label B))))
  | and operators => if operators.isEmpty then .object []
      else single "$and" (.array (toValues operators))
  | or operators => if operators.isEmpty then .object []
      else single "$or" (.array (toValues operators))
  | not stmt => single "$not" (toValue stmt)

def toValues : List Operator → List Json
  | [] => []
  | operator :: operators => toValue operator :: toValues operators

end

mutual

/-- How deep the document of an operator is nested. -/
def levels : Operator → ℕ
  | test op _ _ => if op = .eq then 1 else 2
  | isIn _ _ => 3
  | and operators | or operators => if operators.isEmpty then 1 else maxLevels operators + 2
  | not stmt => levels stmt + 1

def maxLevels : List Operator → ℕ
  | [] => 0
  | operator :: operators => max (levels operator) (maxLevels operators)

end

end Operator

/-- A character that stands for itself in a JSON string. -/
def isUnescaped (c : Char) : Bool := c ≠ '"' && c ≠ '\\' && decide (32 ≤ c.toNat)

def TargetValue.isUnescaped : TargetValue → Bool
  | .unencrypted s => s.toList.all Wallet.isUnescaped
  | .encrypted _ => true

namespace Operator

mutual

/-- No value that is written as it is has a quote, a backslash or a control character. -/
def isUnescaped : Operator → Bool
  | test _ _ value => value.isUnescaped
  | isIn _ values => values.all TargetValue.isUnescaped
  | and operators | or operators => allUnescaped operators
  | not stmt => isUnescaped stmt

def allUnescaped : List Operator → Bool
  | [] => true
  | operator :: operators => isUnescaped operator && allUnescaped operators

end

end Operator

variable {B}

theorem escape_eq {c : Char} (h : isUnescaped c = true) : escape c = [c] := by
  simp only [isUnescaped, Bool.and_eq_true, decide_eq_true_eq, ne_eq] at h
  obtain ⟨⟨hquote, hbackslash⟩, hcontrol⟩ := h
  have hshort : ∀ p ∈ shortEscapes, p.1 = '"' ∨ p.1 = '\\' ∨ p.1.toNat < 32 := by decide
  have hlookup : shortEscapes.lookup c = none := by
    refine List.lookup_eq_none_iff.mpr fun p hp => ?_
    rw [bne_iff_ne]
    rintro rfl
    rcases hshort p hp with h | h | h
    · exact hquote h
    · exact hbackslash h
    · omega
  rw [escape, hlookup]
  exact if_neg (by omega)

theorem stringText_eq {s : String} (h : s.toList.all isUnescaped = true) :
    stringText s = (quoted s).toList := by
  have hflat : s.toList.flatMap escape = s.toList := by
    rw [List.all_eq_true] at h
    rw [List.flatMap_congr fun c hc => escape_eq (h c hc), List.flatMap_singleton']
  rw [stringText, hflat, quoted]
  simp

theorem isUnescaped_encode (b : Bytes) : (B.encode b).toList.all isUnescaped = true := by
  rw [List.all_eq_true]
  intro c hc
  have halphabet := List.all_eq_true.mp (B.alphabet b) c hc
  simp only [Bool.or_eq_true, decide_eq_true_eq] at halphabet
  rcases halphabet with ((halphanum | rfl) | rfl) | rfl
  · have hcode : 48 ≤ c.toNat := by
      change ((decide (c.val ≥ 'A'.val ∧ c.val ≤ 'Z'.val) ||
        (c.val ≥ 'a'.val && c.val ≤ 'z'.val)) ||
        (c.val ≥ '0'.val && c.val ≤ '9'.val)) = true at halphanum
      simp only [Bool.or_eq_true, Bool.and_eq_true, decide_eq_true_eq, ge_iff_le,
        UInt32.le_iff_toNat_le] at halphanum
      have hnat : c.toNat = c.val.toNat := rfl
      simp at halphanum
      omega
    have hquote : c ≠ '"' := by
      rintro rfl
      exact absurd hcode (by decide)
    have hbackslash : c ≠ '\\' := by
      rintro rfl
      exact absurd halphanum (by decide)
    simp [isUnescaped, hquote, hbackslash]
    omega
  all_goals decide

theorem isUnescaped_label (name : TagName) : (name.label B).toList.all isUnescaped = true := by
  cases name with
  | ofEncrypted v => exact isUnescaped_encode v
  | ofPlain v =>
    have htilde : "~".toList.all isUnescaped = true := by decide
    rw [TagName.label, String.toList_append, List.all_append, htilde, isUnescaped_encode]
    rfl

theorem toText_name (name : TagName) : (name.toText B).toList = stringText (name.label B) := by
  rw [stringText_eq (isUnescaped_label name)]
  cases name <;> rfl

theorem toText_value {value : TargetValue} (h : value.isUnescaped = true) :
    (value.toText B).toList = stringText (value.label B) := by
  cases value with
  | unencrypted s => exact (stringText_eq h).symm
  | encrypted v => exact (stringText_eq (isUnescaped_encode v)).symm

/-- A text between braces is an object with one field. -/
theorem toList_braced {head body name : String} {value : Json}
    (hhead : head.toList = stringText name) (hbody : body.toList = value.text) :
    (braced (head ++ ":" ++ body)).toList = (single name value).text := by
  have hcolon : ":".toList = [':'] := by decide
  have hopen : "\x7b".toList = ['{'] := by decide
  have hclose : "\x7d".toList = ['}'] := by decide
  simp only [braced, String.toList_append, hhead, hbody, hcolon, hopen, hclose, single, text,
    Json.fieldsText, Json.moreFieldsText]
  simp

theorem intercalate_map_eq {α : Type} (write : α → List Char) (as : List α) :
    [','].intercalate (as.map write) = Json.listText write as := by
  induction as with
  | nil => rfl
  | cons a more ih =>
    cases more with
    | nil => simp [Json.listText]
    | cons b more =>
      rw [List.map_cons, List.map_cons, List.intercalate_cons_cons, ← List.map_cons, ih,
        Json.listText, Json.listText, List.flatMap_cons]
      simp

/-- Texts between brackets are an array. -/
theorem toList_bracketed {texts : List String} {items : List Json}
    (h : texts.map String.toList = items.map text) :
    ("[" ++ ",".intercalate texts ++ "]").toList = (Json.array items).text := by
  have hcomma : ",".toList = [','] := by decide
  have hopen : "[".toList = ['['] := by decide
  have hclose : "]".toList = [']'] := by decide
  rw [String.toList_append, String.toList_append, String.toList_intercalate, h, hcomma,
    intercalate_map_eq, hopen, hclose, text, Json.itemsText_eq]
  simp

/-- The list of a connective. -/
theorem toList_listed {opening name : String}
    (hopening : opening.toList = stringText name ++ [':', '['])
    {texts : List String} {items : List Json} (h : texts.map String.toList = items.map text) :
    (braced (opening ++ ",".intercalate texts ++ "]")).toList =
      (single name (.array items)).text := by
  have hopen : "[".toList = ['['] := by decide
  have hcolon : ":".toList = [':'] := by decide
  have hhead : opening = String.ofList (stringText name) ++ ":" ++ "[" := by
    rw [← String.toList_inj]
    simp [hopening, hopen, hcolon]
  have hbody : opening ++ ",".intercalate texts ++ "]" =
      String.ofList (stringText name) ++ ":" ++ ("[" ++ ",".intercalate texts ++ "]") := by
    rw [hhead]
    simp only [String.append_assoc]
  rw [hbody]
  exact toList_braced String.toList_ofList (toList_bracketed h)

theorem toList_key (op : CompareOp) : (quoted op.key).toList = stringText op.key := by
  cases op <;> decide

mutual

/-- What is written for an operator is its document. -/
theorem toText_toList : (op : Operator) → op.isUnescaped = true →
    (op.toText B).toList = (op.toValue B).text
  | .test op name value, h => by
    have hvalue : (value.toText B).toList = (Json.string (value.label B)).text := by
      rw [text]
      exact toText_value (by simpa only [Operator.isUnescaped] using h)
    cases op with
    | eq =>
      rw [Operator.toText, Operator.toValue]
      exact toList_braced (toText_name name) hvalue
    | _ =>
      rw [Operator.toText, Operator.toValue]
      · exact toList_braced (toText_name name) (toList_braced (toList_key _) hvalue)
      all_goals simp
  | .isIn name values, h => by
    rw [Operator.isUnescaped, List.all_eq_true] at h
    rw [Operator.toText, Operator.toValue]
    refine toList_braced (toText_name name) (toList_listed (by decide) ?_)
    rw [List.map_map, List.map_map, List.map_inj_left]
    intro value hvalue
    rw [Function.comp_apply, Function.comp_apply, text]
    exact toText_value (h value hvalue)
  | .and operators, h => by
    rw [Operator.isUnescaped] at h
    rw [Operator.toText, Operator.toValue]
    split_ifs
    · decide
    · exact toList_listed (by decide) (toTexts_map operators h)
  | .or operators, h => by
    rw [Operator.isUnescaped] at h
    rw [Operator.toText, Operator.toValue]
    split_ifs
    · decide
    · exact toList_listed (by decide) (toTexts_map operators h)
  | .not stmt, h => by
    rw [Operator.isUnescaped] at h
    have hhead : ("\"$not\":" : String) = quoted "$not" ++ ":" := by decide
    rw [Operator.toText, Operator.toValue, hhead]
    exact toList_braced (by decide) (toText_toList stmt h)

theorem toTexts_map : (operators : List Operator) → Operator.allUnescaped operators = true →
    (Operator.toTexts B operators).map String.toList = (Operator.toValues B operators).map text
  | [], _ => by rw [Operator.toTexts, Operator.toValues, List.map_nil, List.map_nil]
  | op :: operators, h => by
    rw [Operator.allUnescaped, Bool.and_eq_true] at h
    rw [Operator.toTexts, Operator.toValues, List.map_cons, List.map_cons, toText_toList op h.1,
      toTexts_map operators h.2]

end

mutual

theorem isTextual_toValue : (op : Operator) → (op.toValue B).isTextual = true
  | .test op name value => by
    cases op with
    | eq => rw [Operator.toValue, Wql.isTextual_single, Json.isTextual]
    | _ =>
      rw [Operator.toValue, Wql.isTextual_single, Wql.isTextual_single, Json.isTextual]
      simp
  | .isIn name values => by
    have hstrings :
        (Json.array (values.map fun value => Json.string (value.label B))).isTextual = true := by
      have hmap := Wql.isTextual_strings (values.map (TargetValue.label B))
      rwa [List.map_map] at hmap
    rw [Operator.toValue, Wql.isTextual_single, Wql.isTextual_single, hstrings]
  | .and operators | .or operators => by
    rw [Operator.toValue]
    split_ifs
    · rfl
    · rw [Wql.isTextual_single, Json.isTextual, itemsTextual_toValues]
  | .not stmt => by rw [Operator.toValue, Wql.isTextual_single, isTextual_toValue]

theorem itemsTextual_toValues : (operators : List Operator) →
    Json.itemsTextual (Operator.toValues B operators) = true
  | [] => by rw [Operator.toValues, Json.itemsTextual]
  | op :: operators => by
    rw [Operator.toValues, Json.itemsTextual, isTextual_toValue, itemsTextual_toValues]
    rfl

end

theorem nesting_strings (values : List TargetValue) :
    (Json.array (values.map fun value => Json.string (value.label B))).nesting = 1 := by
  have hitems : Json.itemsNesting (values.map fun value => Json.string (value.label B)) ≤ 0 := by
    rw [Json.itemsNesting_le_iff]
    intro item hitem
    obtain ⟨value, -, rfl⟩ := List.mem_map.mp hitem
    rw [Json.nesting]
    all_goals simp
  rw [Json.nesting, Nat.le_zero.mp hitems]

mutual

theorem nesting_toValue : (op : Operator) → (op.toValue B).nesting = op.levels
  | .test op name value => by
    cases op <;> simp [Operator.toValue, Operator.levels, Wql.nesting_single, Json.nesting]
  | .isIn name values => by
    rw [Operator.toValue, Operator.levels, Wql.nesting_single, Wql.nesting_single, nesting_strings]
  | .and operators | .or operators => by
    rw [Operator.toValue, Operator.levels]
    split_ifs
    · rfl
    · rw [Wql.nesting_single, Json.nesting, itemsNesting_toValues]
  | .not stmt => by rw [Operator.toValue, Operator.levels, Wql.nesting_single, nesting_toValue]

theorem itemsNesting_toValues : (operators : List Operator) →
    Json.itemsNesting (Operator.toValues B operators) = Operator.maxLevels operators
  | [] => by rw [Operator.toValues, Json.itemsNesting, Operator.maxLevels]
  | op :: operators => by
    rw [Operator.toValues, Json.itemsNesting, Operator.maxLevels, nesting_toValue,
      itemsNesting_toValues]

end

end Documents

end SimpleAsset.Indy.Wallet
