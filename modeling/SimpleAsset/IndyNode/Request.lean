import SimpleAsset.Indy.Pool.Json
import SimpleAsset.Indy.Primitive

/-! Requests as Python values, and the schemas they are validated against
(`indy_common/types.py`). -/
namespace SimpleAsset.IndyNode
open SimpleAsset.Indy

/-- The `operation` of a request, a Python dictionary. -/
abbrev Operation := List (String × Json)

/-- `operation.get(name)`, which is `None` when there is no such field. -/
def Operation.get (op : Operation) (name : String) : Json := (op.lookup name).getD .null

/-- `name in operation`. -/
def Operation.has (op : Operation) (name : String) : Bool := (op.lookup name).isSome

theorem asStr_string (s : String) : (Json.string s).asStr = some s := rfl

theorem Operation.get_of_lookup {op : Operation} {name : String} {val : Json}
    (h : op.lookup name = some val) :
    op.get name = val := by
  rw [Operation.get, h, Option.getD_some]

theorem Operation.get_of_not_has {op : Operation} {name : String} (h : op.has name = false) :
    op.get name = .null := by
  rw [Operation.has, Option.isSome_eq_false_iff, Option.isNone_iff_eq_none] at h
  rw [Operation.get, h, Option.getD_none]

/-- Base types of the fields; booleans are integers in Python. -/
inductive PyType
  | str
  | int
  | noneType
  deriving DecidableEq, Repr

/-- `isinstance`. -/
def PyType.isInstance : PyType → Json → Bool
  | str, .string _ => true
  | int, .number (.posInt _) => true
  | int, .number (.negInt _) => true
  | int, .bool _ => true
  | noneType, .null => true
  | _, _ => false

/-- `str()` of the values that go into a key; others are not formatted. -/
def pyStr : Json → Option String
  | .string s => some s
  | .number (.posInt n) => some (u64ToString n)
  | .number (.negInt n) => some (toString n)
  | .bool true => some "True"
  | .bool false => some "False"
  | .null => some "None"
  | _ => none

/-- One row of a schema. -/
structure FieldSpec where
  name : String
  optional : Bool
  validate : Json → Bool

/-- `_specific_validation` of plenum's field classes, their `validate`, that of a message, and the
limits of its configuration. A value that passes is of a base type of its field, and passes what is
specific to it; in a message that passes the required fields are there, and those that are there
pass. -/
structure Plenum where
  identifierField : Json → Bool
  limitedLengthStringField (maxLength : ℕ) (canBeEmpty : Bool) : Json → Bool
  nonEmptyStringField : Json → Bool
  sha256HexField : Json → Bool
  txnSeqNoField : Json → Bool
  integerField : Json → Bool
  versionField : Json → Bool
  nameFieldLimit : ℕ
  rawFieldLimit : ℕ
  encFieldLimit : ℕ
  signatureTypeFieldLimit : ℕ
  /-- `FieldBase.validate` -/
  validateField (baseTypes : List PyType) (specific : Json → Bool) : Json → Bool
  /-- `MessageValidator.validate`, of an operation -/
  validateMessage (schema : List FieldSpec) : Operation → Bool
  field_passed : ∀ {baseTypes specific val}, validateField baseTypes specific val = true →
    (baseTypes.any fun type => type.isInstance val) = true ∧ specific val = true
  message_passed : ∀ {schema op}, validateMessage schema op = true → ∀ field ∈ schema,
    match op.lookup field.name with
    | none => field.optional = true
    | some val => field.validate val = true

/-- `len(base58.b58decode(s))` for a string over the alphabet. -/
def base58Length (s : String) : Option ℕ := do
  let alphabet := "123456789ABCDEFGHJKLMNPQRSTUVWXYZabcdefghijkmnopqrstuvwxyz".toList
  let digits ← s.toList.mapM fun c => if c ∈ alphabet then some (alphabet.idxOf c) else none
  let zeros := (digits.takeWhile (· = 0)).length
  let value := digits.foldl (fun acc digit => 58 * acc + digit) 0
  return zeros + (if value = 0 then 0 else value.log2 / 8 + 1)

/-- The field classes as plenum documents them. -/
def standardPlenum : Plenum where
  identifierField val := (val.asStr.bind base58Length).any fun length => length = 16 || length = 32
  limitedLengthStringField maxLength canBeEmpty val :=
    val.asStr.all fun s => (canBeEmpty || s ≠ "") && s.length ≤ maxLength
  nonEmptyStringField val := val.asStr.any (· ≠ "")
  sha256HexField val := val.asStr.any fun s =>
    s.length = 64 && s.toList.all fun c => c.isDigit || ('a' ≤ c && c ≤ 'f') || ('A' ≤ c && c ≤ 'F')
  txnSeqNoField val := val = .bool true || val.asU64.any (1 ≤ ·)
  integerField _ := true
  versionField val := val.asStr.any fun s =>
    let parts := s.toList.splitOn '.'
    (parts.length = 2 || parts.length = 3) && parts.all fun part => part ≠ [] &&
      part.all Char.isDigit
  nameFieldLimit := 256
  rawFieldLimit := 5 * 1024
  encFieldLimit := 5 * 1024
  signatureTypeFieldLimit := 16
  validateField baseTypes specific val := (baseTypes.any fun type => type.isInstance val) &&
    specific val
  validateMessage schema op := schema.all fun field =>
    match op.lookup field.name with
    | none => field.optional
    | some val => field.validate val
  field_passed h := by rwa [Bool.and_eq_true] at h
  message_passed h field hfield := by
    have hrow := List.all_eq_true.mp h field hfield
    split <;> simp_all

variable {plenum : Plenum}

theorem validate_of_lookup {schema : List FieldSpec} {op : Operation} {field : FieldSpec}
    {val : Json} (h : plenum.validateMessage schema op = true) (hfield : field ∈ schema)
    (hval : op.lookup field.name = some val) :
    field.validate val = true := by
  have hrow := plenum.message_passed h field hfield
  rwa [hval] at hrow

theorem exists_lookup {schema : List FieldSpec} {op : Operation} {field : FieldSpec}
    (h : plenum.validateMessage schema op = true) (hfield : field ∈ schema)
    (hrequired : field.optional = false) :
    ∃ val, op.lookup field.name = some val ∧ field.validate val = true := by
  have hrow := plenum.message_passed h field hfield
  rcases hval : op.lookup field.name with _ | val
  · rw [hval] at hrow
    exact absurd (hrequired.symm.trans hrow) Bool.false_ne_true
  · rw [hval] at hrow
    exact ⟨val, rfl, hrow⟩

theorem exists_string_of_validateField {specific : Json → Bool} {val : Json}
    (h : plenum.validateField [.str] specific val = true) : ∃ s, val = .string s := by
  obtain ⟨htype, -⟩ := plenum.field_passed h
  simp only [List.any_cons, List.any_nil, Bool.or_false] at htype
  cases val <;> simp_all [PyType.isInstance]

end SimpleAsset.IndyNode
