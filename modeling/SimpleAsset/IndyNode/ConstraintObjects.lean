import SimpleAsset.IndyNode.AuthRules
import SimpleAsset.Library.Heap

/-! Auth constraints as objects, made from dictionaries and turned into them
(`auth_constraints.py`). The depth of Python's stack is given as fuel. -/
namespace SimpleAsset.IndyNode
open SimpleAsset.Indy SimpleAsset.Library SimpleAsset.Library.HeapM

section Objects

/-- A value of Python: one without parts, or the address of an object. -/
inductive PyValue
  | none
  | bool (b : Bool)
  | number (n : JsonNumber)
  | str (s : String)
  | ref (a : ℕ)
  deriving DecidableEq

/-- The items of a dictionary in their order. -/
abbrev PyDict := List (PyValue × PyValue)

/-- `AuthConstraint`. -/
structure RoleObject where
  role : ConstraintRole
  sigCount : PyValue
  needToBeOwner : PyValue
  offLedgerSignature : PyValue
  metadata : PyValue
  deriving DecidableEq

/-- An `AbstractAuthConstraint`. Nothing here changes one after it was made. -/
inductive ConstraintObject
  | forbidden
  | role (c : RoleObject)
  | and (authConstraints : List ConstraintObject)
  | or (authConstraints : List ConstraintObject)

/-- Objects that can change: dictionaries, lists of values and lists of constraints. -/
inductive PyObject
  | dict (items : PyDict)
  | list (items : List PyValue)
  | constraints (items : List ConstraintObject)

inductive PyError
  | keyError (key : String)
  /-- The `KeyError` with the text 'There is no "constraint_id" field in deserialised dict'. -/
  | noConstraintId
  | valueError
  | typeError
  | attributeError
  | recursionError
  | dangling
  deriving DecidableEq, Repr

abbrev PyHeap := Heap PyObject

abbrev PyM := HeapM PyError PyObject

/-- `bool(value)`, `none` for an address without an object. -/
def truth (h : PyHeap) : PyValue → Option Bool
  | .none => some false
  | .bool b => some b
  | .number n => some (pyTrue (.number n))
  | .str s => some (s ≠ "")
  | .ref a => h[a]?.map fun
    | .dict items => !items.isEmpty
    | .list items => !items.isEmpty
    | .constraints items => !items.isEmpty

def pyTruth (v : PyValue) : PyM Bool := do
  match truth (← get) v with
  | some b => return b
  | none => throw .dangling

def PyValue.hashable : PyValue → Bool
  | .ref _ => false
  | _ => true

/-- `items[key] = v`. -/
def dictSet (key v : PyValue) (items : PyDict) : PyDict :=
  if items.any fun item => item.1 = key then items.map fun item =>
    if item.1 = key then (key, v) else item
  else items ++ [(key, v)]

/-- What `for item in v` goes through. -/
def iterate : PyValue → PyM (List PyValue)
  | .ref a => do
    match ← deref .dangling a with
    | .dict items => return items.map Prod.fst
    | .list items => return items
    | .constraints [] => return []
    -- The items would be constraints, and the callers make dictionaries of them.
    | .constraints (_ :: _) => throw .typeError
  | .str s => return s.toList.map fun c => .str (String.singleton c)
  | _ => throw .typeError

/-- One item of a sequence a dictionary is made of. -/
def insertPair (items : PyDict) (item : PyValue) : PyM PyDict := do
  match ← iterate item with
  | [key, v] => if key.hashable then return dictSet key v items else throw .typeError
  | _ => throw .valueError

def pairsDict (v : PyValue) : PyM ℕ := do
  let items ← (← iterate v).foldlM insertPair []
  alloc (.dict items)

/-- `dict(v)`, a new dictionary: of a dictionary with its items, of anything else from pairs. -/
def copyDict (v : PyValue) : PyM ℕ := do
  match v with
  | .ref a =>
    match ← deref .dangling a with
    | .dict items => alloc (.dict items)
    | _ => pairsDict v
  | _ => pairsDict v

/-- The items of a dictionary that was made here. -/
def dictAt (d : ℕ) : PyM PyDict := do
  match ← deref .dangling d with
  | .dict items => return items
  | _ => throw .typeError

/-- `d[key]`. -/
def getItem (d : ℕ) (key : String) : PyM PyValue := do
  match (← dictAt d).lookup (.str key) with
  | some v => return v
  | none => throw (.keyError key)

/-- `d.get(key, default)`. -/
def getOr (d : ℕ) (key : String) (default : PyValue) : PyM PyValue := do
  return ((← dictAt d).lookup (.str key)).getD default

/-- `d.pop(key)`. -/
def popItem (d : ℕ) (key : String) : PyM PyValue := do
  let items ← dictAt d
  match items.lookup (.str key) with
  | some v =>
    put d (.dict (items.filter fun item => item.1 ≠ .str key))
    return v
  | none => throw (.keyError key)

end Objects

section Creation

/-- The values of `constraint_to_class_map`. -/
inductive ConstraintClass
  | role
  | and
  | or
  | forbidden
  deriving DecidableEq, Repr

def ConstraintClass.constraintId : ConstraintClass → String
  | role => "ROLE"
  | and => "AND"
  | or => "OR"
  | forbidden => "FORBIDDEN"

/-- `constraint_to_class_map.get(constraint_id).from_dict`. -/
def constraintClass (constraintId : PyValue) : PyM ConstraintClass :=
  if !constraintId.hashable then throw .typeError
  else match [ConstraintClass.role, .and, .or, .forbidden].find? fun cls =>
    constraintId = .str cls.constraintId with
    | some cls => return cls
    | none => throw .attributeError

def ConstraintRole.asPy : ConstraintRole → PyValue
  | any => .str "*"
  | one none => .none
  | one (some role) => .str role.code

/-- The role of `accepted_roles` that a value equals. -/
def ConstraintRole.ofPy (v : PyValue) : Option ConstraintRole :=
  acceptedRoles.find? fun role => role.asPy = v

/-- `AuthConstraint.__init__`, with `_role_validation`. -/
def newAuthConstraint (role sigCount needToBeOwner offLedgerSignature metadata : PyValue) :
    PyM ConstraintObject := do
  match ConstraintRole.ofPy role with
  | none => throw .valueError
  | some role =>
    if (← pyTruth offLedgerSignature) && role ≠ .any then throw .valueError
    else return .role ⟨role, sigCount, needToBeOwner, offLedgerSignature, metadata⟩

/-- `AuthConstraint.from_dict`. -/
def authConstraintFromDict (d : ℕ) : PyM ConstraintObject := do
  let role ← getItem d "role"
  let sigCount ← getItem d "sig_count"
  let needToBeOwner ← getOr d "need_to_be_owner" (.bool false)
  let offLedgerSignature ← getOr d "off_ledger_signature" .none
  let metadata ← getOr d "metadata" (.ref (← alloc (.dict [])))
  newAuthConstraint role sigCount needToBeOwner offLedgerSignature metadata

/-- The argument `auth_constraints` of `AuthConstraintAnd(**as_dict)` and
`AuthConstraintOr(**as_dict)`, which take no other. -/
def constraintsArgument (d : ℕ) : PyM (List ConstraintObject) := do
  let items ← dictAt d
  if items.all fun item => item.1 = .str "auth_constraints" then
    match items.lookup (.str "auth_constraints") with
    | some (.ref a) =>
      match ← deref .dangling a with
      | .constraints cs => return cs
      | _ => throw .typeError
    | _ => throw .typeError
  else throw .typeError

/-- A copy of the dictionary is made, its class is popped and takes what is left.
`AuthConstraintAnd` does not check whether the class is `None`. -/
def dispatch (fromDict : ConstraintClass → ℕ → PyM ConstraintObject) (checked : Bool)
    (input : PyValue) :
    PyM ConstraintObject := do
  let d ← copyDict input
  let constraintId ← popItem d "constraint_id"
  if checked && constraintId = .none then throw .noConstraintId
  else
    let cls ← constraintClass constraintId
    fromDict cls d

/-- The loop of `from_dict` in `AuthConstraintAnd` and `AuthConstraintOr`, and what is passed on to
`__init__`. -/
def nestedFromDict (fromDict : ConstraintClass → ℕ → PyM ConstraintObject)
    (checked : Bool) (d : ℕ) :
    PyM (List ConstraintObject) := do
  let inputs ← iterate (← getItem d "auth_constraints")
  let authConstraints ← inputs.mapM (dispatch fromDict checked)
  let a ← alloc (.constraints authConstraints)
  put d (.dict (dictSet (.str "auth_constraints") (.ref a) (← dictAt d)))
  constraintsArgument d

/-- `from_dict` of a class. -/
def classFromDict : ℕ → ConstraintClass → ℕ → PyM ConstraintObject
  | _, .forbidden, _ => return .forbidden
  | _, .role, d => authConstraintFromDict d
  | 0, .and, _ => throw .recursionError
  | 0, .or, _ => throw .recursionError
  | fuel + 1, .and, d => return .and (← nestedFromDict (classFromDict fuel) false d)
  | fuel + 1, .or, d => return .or (← nestedFromDict (classFromDict fuel) true d)

/-- `ConstraintCreator.create_constraint`. -/
def createConstraintObject (fuel : ℕ) (input : PyValue) : PyM ConstraintObject :=
  dispatch (classFromDict fuel) true input

end Creation

/-- The items of the dictionary of an `AuthConstraint`. -/
def RoleObject.items (c : RoleObject) : PyDict :=
  [(.str "constraint_id", .str "ROLE"), (.str "role", c.role.asPy), (.str "sig_count", c.sigCount),
    (.str "need_to_be_owner", c.needToBeOwner), (.str "metadata", c.metadata)] ++
      if c.offLedgerSignature = .none then []
      else [(.str "off_ledger_signature", c.offLedgerSignature)]

namespace ConstraintObject

mutual

/-- `as_dict`. -/
def asDict : ConstraintObject → PyM PyValue
  | forbidden => return .ref (← alloc (.dict [(.str "constraint_id", .str "FORBIDDEN")]))
  | role c => return .ref (← alloc (.dict c.items))
  | and cs => do
    let a ← alloc (.list (← asDicts cs))
    return .ref
      (← alloc (.dict [(.str "constraint_id", .str "AND"), (.str "auth_constraints", .ref a)]))
  | or cs => do
    let a ← alloc (.list (← asDicts cs))
    return .ref
      (← alloc (.dict [(.str "constraint_id", .str "OR"), (.str "auth_constraints", .ref a)]))

def asDicts : List ConstraintObject → PyM (List PyValue)
  | [] => return []
  | c :: cs => do
    let v ← asDict c
    let vs ← asDicts cs
    return v :: vs

end

mutual

def depth : ConstraintObject → ℕ
  | forbidden => 0
  | role _ => 0
  | and cs => depths cs + 1
  | or cs => depths cs + 1

def depths : List ConstraintObject → ℕ
  | [] => 0
  | c :: cs => max (depth c) (depths cs)

end

end ConstraintObject

end SimpleAsset.IndyNode
