import Mathlib.Algebra.Order.Ring.Int
import Mathlib.Data.Int.Notation
import Mathlib.Data.Nat.Notation
import Mathlib.Tactic.Tauto

/-! `serde_json::Value`, as far as the pool code looks into it. -/
namespace SimpleAsset.Indy

/-- A JSON number; of a float only its text is kept. -/
inductive JsonNumber
  | posInt (n : ℕ)
  | negInt (n : ℤ)
  | float (text : String)
  deriving DecidableEq, Repr

/-- A JSON value. The fields of an object stand in the order of their names, each once. -/
inductive Json
  | null
  | bool (b : Bool)
  | number (n : JsonNumber)
  | string (s : String)
  | array (items : List Json)
  | object (fields : List (String × Json))

namespace Json

mutual

def decEq : (a b : Json) → Decidable (a = b)
  | null, null => isTrue rfl
  | bool a, bool b => if h : a = b then isTrue (by rw [h]) else isFalse (by simpa using h)
  | number a, number b => if h : a = b then isTrue (by rw [h]) else isFalse (by simpa using h)
  | string a, string b => if h : a = b then isTrue (by rw [h]) else isFalse (by simpa using h)
  | array a, array b =>
    match decEqItems a b with
    | isTrue h => isTrue (by rw [h])
    | isFalse h => isFalse (by simpa using h)
  | object a, object b =>
    match decEqFields a b with
    | isTrue h => isTrue (by rw [h])
    | isFalse h => isFalse (by simpa using h)
  | null, bool _ | null, number _ | null, string _ | null, array _ | null, object _ =>
    isFalse (by simp)
  | bool _, null | bool _, number _ | bool _, string _ | bool _, array _ | bool _, object _ =>
    isFalse (by simp)
  | number _, null | number _, bool _ | number _, string _ | number _, array _ | number _,
      object _ => isFalse (by simp)
  | string _, null | string _, bool _ | string _, number _ | string _, array _ | string _,
      object _ => isFalse (by simp)
  | array _, null | array _, bool _ | array _, number _ | array _, string _ | array _, object _ =>
    isFalse (by simp)
  | object _, null | object _, bool _ | object _, number _ | object _, string _ | object _,
      array _ => isFalse (by simp)

def decEqItems : (a b : List Json) → Decidable (a = b)
  | [], [] => isTrue rfl
  | x :: a, y :: b =>
    match decEq x y, decEqItems a b with
    | isTrue h, isTrue h' => isTrue (by rw [h, h'])
    | isFalse h, _ => isFalse (by simp [h])
    | _, isFalse h' => isFalse (by simp [h'])
  | [], _ :: _ | _ :: _, [] => isFalse (by simp)

def decEqFields : (a b : List (String × Json)) → Decidable (a = b)
  | [], [] => isTrue rfl
  | (k, x) :: a, (l, y) :: b =>
    if hk : k = l then
      match decEq x y, decEqFields a b with
      | isTrue h, isTrue h' => isTrue (by rw [hk, h, h'])
      | isFalse h, _ => isFalse (by simp [h])
      | _, isFalse h' => isFalse (by simp [h'])
    else isFalse (by simp [hk])
  | [], _ :: _ | _ :: _, [] => isFalse (by simp)

end

instance : DecidableEq Json := decEq

/-- `value[name]`, which is null when there is no such field. -/
def index (j : Json) (name : String) : Json :=
  match j with
  | object fields => (fields.lookup name).getD null
  | _ => null

def asStr : Json → Option String
  | string s => some s
  | _ => none

def asU64 : Json → Option ℕ
  | number (.posInt n) => some n
  | _ => none

def isNull : Json → Bool
  | null => true
  | _ => false

def isObject : Json → Bool
  | object _ => true
  | _ => false

/-- `as_object_mut().map(|obj| obj.remove(name))`. -/
def remove (name : String) : Json → Json
  | object fields => object (fields.filter fun field => field.1 ≠ name)
  | j => j

/-- `value[name]` rewritten in place, for a field that is there. -/
def modify (name : String) (f : Json → Json) : Json → Json
  | object fields =>
    object (fields.map fun field => if field.1 = name then (field.1, f field.2) else field)
  | j => j

/-- `Map::insert`. -/
def insertField (name : String) (value : Json) : List (String × Json) → List (String × Json)
  | [] => [(name, value)]
  | field :: fields =>
    if name < field.1 then (name, value) :: field :: fields
    else if name = field.1 then (name, value) :: fields
    else field :: insertField name value fields

theorem mem_insertField {name x : String} {value : Json} {fields : List (String × Json)} :
    x ∈ (insertField name value fields).map Prod.fst ↔ x = name ∨ x ∈ fields.map Prod.fst := by
  induction fields with
  | nil => simp [insertField]
  | cons field fields ih =>
    unfold insertField
    split
    · simp
    · split
      · rename_i hname
        simp [hname]
      · simp only [List.map_cons, List.mem_cons, ih]
        tauto

theorem length_insertField {name : String} (value : Json) {fields : List (String × Json)}
    (h : name ∉ fields.map Prod.fst) :
    (insertField name value fields).length = fields.length + 1 := by
  induction fields with
  | nil => rfl
  | cons field fields ih =>
    rw [List.map_cons, List.mem_cons, not_or] at h
    unfold insertField
    split
    · rfl
    · rw [if_neg h.1, List.length_cons, ih h.2, List.length_cons]

/-- Integers that do not fit into 64 bits become floats. -/
def serdeNumber : JsonNumber → JsonNumber
  | .posInt n => if n < 2 ^ 64 then .posInt n else .float (toString n)
  | .negInt n => if -2 ^ 63 ≤ n then .negInt n else .float (toString n)
  | .float text => .float text

mutual

/-- A document as `serde_json` reads it. -/
def serde : Json → Json
  | null => null
  | bool b => bool b
  | number n => number (serdeNumber n)
  | string s => string s
  | array items => array (serdeItems items)
  | object fields => object (serdeFields fields)

def serdeItems : List Json → List Json
  | [] => []
  | j :: items => serde j :: serdeItems items

def serdeFields : List (String × Json) → List (String × Json)
  | [] => []
  | (name, j) :: fields => (name, serde j) :: serdeFields fields

end

theorem lookup_serdeFields (name : String) (fields : List (String × Json)) :
    (serdeFields fields).lookup name = (fields.lookup name).map serde := by
  induction fields with
  | nil => rfl
  | cons field fields ih =>
    obtain ⟨name', j⟩ := field
    rw [serdeFields, List.lookup_cons, List.lookup_cons]
    split
    · rfl
    · exact ih

@[simp] theorem index_serde (j : Json) (name : String) :
    j.serde.index name = (j.index name).serde := by
  cases j with
  | object fields =>
    rw [serde, index, index, lookup_serdeFields]
    cases fields.lookup name <;> rfl
  | _ => rfl

@[simp] theorem asStr_serde (j : Json) : j.serde.asStr = j.asStr := by
  cases j <;> rfl

@[simp] theorem isNull_serde (j : Json) : j.serde.isNull = j.isNull := by
  cases j <;> rfl

theorem asU64_serde (j : Json) : j.serde.asU64 = j.asU64.filter (· < 2 ^ 64) := by
  cases j with
  | number n =>
    cases n with
    | posInt n =>
      rw [serde, serdeNumber, asU64, Option.filter_some]
      split
      · rename_i hn
        rw [if_pos (by simpa using hn), asU64]
      · rename_i hn
        rw [if_neg (by simpa using hn), asU64]
        simp
    | negInt n =>
      rw [serde, serdeNumber]
      split <;> simp [asU64]
    | float text => simp [serde, serdeNumber, asU64]
  | _ => simp [serde, asU64]

end Json
end SimpleAsset.Indy
