import SimpleAsset.IndyNode.AuthMap
import SimpleAsset.IndyNode.ReadRequest

/-! Auth rules on the config ledger: how they are written, enforced and reported
(`auth_constraints.py`, `auth_rule_handler.py`, `auth_rules_handler.py`, `auth_cons_strategies.py`,
`get_auth_rule_handler.py`). -/
namespace SimpleAsset.IndyNode
open SimpleAsset.Indy

/-- Truth of a Python value. -/
def pyTrue : Json → Bool
  | .null => false
  | .bool b => b
  | .number (.posInt n) => n ≠ 0
  | .number (.negInt n) => n ≠ 0
  | .number (.float text) => (text.toList.takeWhile fun c => c ≠ 'e' ∧ c ≠ 'E').any fun c =>
      '1' ≤ c && c ≤ '9'
  | .string s => s ≠ ""
  | .array items => items ≠ []
  | .object fields => fields ≠ []

/-- The role in a constraint as a value. -/
def ConstraintRole.asJson : ConstraintRole → Json
  | any => .string "*"
  | one none => .null
  | one (some role) => .string role.code

def acceptedRoles : List ConstraintRole :=
  [.one none, .one (some .networkMonitor), .one (some .endorser), .one (some .steward),
    .one (some .trustee), .any]

/-- The role of `accepted_roles` that a value is, if it is one. -/
def ConstraintRole.ofJson (val : Json) : Option ConstraintRole :=
  acceptedRoles.find? fun role => role.asJson = val

@[simp] theorem ConstraintRole.ofJson_asJson (role : ConstraintRole) :
    ofJson role.asJson = some role := by
  rcases role with _ | _ | role
  · decide
  · decide
  · cases role <;> decide

/-- `AuthConstraint` with the values it was made of; `_role_validation` looks at two of them. -/
structure RoleConstraint where
  role : ConstraintRole
  sigCount : Json
  needToBeOwner : Json
  offLedgerSignature : Json
  metadata : Json
  off_ledger_any : pyTrue offLedgerSignature = true → role = .any
  deriving DecidableEq

/-- A constraint as it stands in a transaction, in the state and in a reply. -/
inductive RuleConstraint
  | forbidden
  | role (c : RoleConstraint)
  | and (authConstraints : List RuleConstraint)
  | or (authConstraints : List RuleConstraint)

section Dictionaries

/-- Exceptions of `create_constraint`. -/
inductive ConstraintError
  | notADict
  | keyError (name : String)
  | unknownConstraintId (constraintId : Json)
  | roleNotAcceptable (role : Json)
  | offLedgerRole (role : ConstraintRole)
  | unexpectedArgument
  deriving DecidableEq

/-- `AuthConstraint.from_dict`. -/
def RoleConstraint.fromDict (dict : Operation) : Except ConstraintError RoleConstraint :=
  match dict.lookup "role", dict.lookup "sig_count" with
  | none, _ => .error (.keyError "role")
  | some _, none => .error (.keyError "sig_count")
  | some role, some sigCount =>
    let offLedgerSignature := dict.get "off_ledger_signature"
    match ConstraintRole.ofJson role with
    | none => .error (.roleNotAcceptable role)
    | some role =>
      if h : pyTrue offLedgerSignature = true → role = .any then
        .ok ⟨role, sigCount, (dict.lookup "need_to_be_owner").getD (.bool false),
          offLedgerSignature, (dict.lookup "metadata").getD (.object []), h⟩
      else .error (.offLedgerRole role)

/-- `from_dict` of the class for a `constraint_id`, given what the list `auth_constraints` is made
into. -/
def fromDict (dict : Operation) (nested : Except ConstraintError (List RuleConstraint)) :
    Except ConstraintError RuleConstraint := do
  match dict.lookup "constraint_id" with
  | none => .error (.keyError "constraint_id")
  | some (.string "FORBIDDEN") => return .forbidden
  | some (.string "ROLE") => return .role (← RoleConstraint.fromDict dict)
  | some (.string "AND") =>
    let authConstraints ← nested
    if dict.all fun field => field.1 = "constraint_id" ∨
      field.1 = "auth_constraints" then return .and authConstraints
    else .error .unexpectedArgument
  | some (.string "OR") =>
    let authConstraints ← nested
    if dict.all fun field => field.1 = "constraint_id" ∨
      field.1 = "auth_constraints" then return .or authConstraints
    else .error .unexpectedArgument
  | some constraintId => .error (.unknownConstraintId constraintId)

mutual

/-- `ConstraintCreator.create_constraint`. The schema lets only dictionaries through. -/
def createConstraint : Json → Except ConstraintError RuleConstraint
  | .object dict => fromDict dict (nestedConstraints dict)
  | _ => .error .notADict

/-- The constraints of the field `auth_constraints`. -/
def nestedConstraints : List (String × Json) → Except ConstraintError (List RuleConstraint)
  | [] => .error (.keyError "auth_constraints")
  | (name, val) :: dict => if name = "auth_constraints" then listedConstraints val
      else nestedConstraints dict

def listedConstraints : Json → Except ConstraintError (List RuleConstraint)
  | .array items => createConstraints items
  | _ => .error .notADict

def createConstraints : List Json → Except ConstraintError (List RuleConstraint)
  | [] => .ok []
  | item :: items => do
    let c ← createConstraint item
    let cs ← createConstraints items
    return c :: cs

end

namespace RuleConstraint

mutual

/-- `as_dict`, its fields in the order of their names. -/
def asDict : RuleConstraint → Json
  | forbidden => .object [("constraint_id", .string "FORBIDDEN")]
  | role c => .object ([("constraint_id", .string "ROLE"), ("metadata", c.metadata),
      ("need_to_be_owner", c.needToBeOwner)] ++
        (if c.offLedgerSignature = .null then []
          else [("off_ledger_signature", c.offLedgerSignature)]) ++
          [("role", c.role.asJson), ("sig_count", c.sigCount)])
  | and cs => .object [("auth_constraints", .array (asDicts cs)), ("constraint_id", .string "AND")]
  | or cs => .object [("auth_constraints", .array (asDicts cs)), ("constraint_id", .string "OR")]

def asDicts : List RuleConstraint → List Json
  | [] => []
  | c :: cs => asDict c :: asDicts cs

end

mutual

/-- `AuthRuleHandler191._set_off_ledger_to_constraint`, on the constraint instead of its
dictionary. -/
def setOffLedger : RuleConstraint → RuleConstraint
  | forbidden => forbidden
  | role c =>
    if h : pyTrue c.offLedgerSignature = true then role c
    else role { c with offLedgerSignature := .bool false, off_ledger_any := by simp [pyTrue] }
  | and cs => and (setOffLedgers cs)
  | or cs => or (setOffLedgers cs)

def setOffLedgers : List RuleConstraint → List RuleConstraint
  | [] => []
  | c :: cs => setOffLedger c :: setOffLedgers cs

end

end RuleConstraint

mutual

/-- A constraint of the auth map with its fields as values. -/
def Constraint.toRule : Constraint → RuleConstraint
  | .forbidden => .forbidden
  | .role c => .role ⟨c.role, .number (.posInt c.sigCount), .bool c.needToBeOwner,
      (c.offLedgerSignature.map Json.bool).getD .null,
      .object (c.metadata.map fun item => (item.1, .string item.2)), by
        intro h
        apply c.off_ledger_any
        rcases hoff : c.offLedgerSignature with _ | _ | _
        · simp [hoff, pyTrue] at h
        · simp [hoff, pyTrue] at h
        · rfl⟩
  | .and cs => .and (toRules cs)
  | .or cs => .or (toRules cs)

def Constraint.toRules : List Constraint → List RuleConstraint
  | [] => []
  | c :: cs => c.toRule :: toRules cs

end

end Dictionaries

/-- `auth_map.keys()`. -/
def authKeys : List String := authMap.map Prod.fst

/-- The state of the config ledger. -/
abbrev ConfigState := Bytes → Option Bytes

/-- `domain_state_serializer`, of plenum. -/
structure StateSerializer where
  serialize : Json → Bytes
  deserialize : Bytes → Option Json

section Write

/-- The handlers of AUTH_RULE: the current one, and the one for transactions that were written under
version 1.9.1. -/
inductive AuthRuleHandler
  | current
  | v191
  deriving DecidableEq, Repr

/-- What `_update_auth_constraint` serializes. -/
def AuthRuleHandler.written : AuthRuleHandler → RuleConstraint → RuleConstraint
  | current, c => c
  | v191, c => c.setOffLedger

inductive AuthRuleTxn
  | authRule (handler : AuthRuleHandler) (op : Operation)
  | authRules (op : Operation)

/-- `payload.get(RULES, [])`, a list of dictionaries. -/
def rulesOf (op : Operation) : Option (List Operation) :=
  match op.lookup "rules" with
  | none => some []
  | some (.array items) => items.mapM fun
    | .object rule => some rule
    | _ => none
  | some _ => none

/-- `_static_validation_for_rule`. -/
def staticValidationForRule (rule : Operation) : Bool :=
  (createConstraint (rule.get "constraint")).isOk && checkAuthKey authKeys rule

/-- `static_validation` of both handlers. The schemas and the dynamic validation narrow down further
what is accepted. -/
def AuthRuleTxn.staticValidation : AuthRuleTxn → Bool
  | authRule _ op => staticValidationForRule op
  | authRules op => (rulesOf op).any fun rules => rules.all staticValidationForRule

variable (serializer : StateSerializer)

/-- `AbstractAuthRuleHandler.make_state_path_for_auth_rule`. -/
def handlerStatePathForAuthRule (actionId : String) : Bytes := asBytes ("1:" ++ actionId)

/-- `_update_auth_constraint`. -/
def updateAuthConstraint (s : ConfigState) (authKey : String) (written : RuleConstraint) :
    ConfigState :=
  Function.update s (handlerStatePathForAuthRule authKey)
    (some (serializer.serialize written.asDict))

/-- What `update_state` does for one rule. -/
def updateRule (handler : AuthRuleHandler) (s : ConfigState) (rule : Operation) :
    Option ConfigState := do
  let constraint ← (createConstraint (rule.get "constraint")).toOption
  let authKey ← getAuthKey rule
  return updateAuthConstraint serializer s authKey (handler.written constraint)

/-- `update_state` of both handlers. -/
def updateRules (s : ConfigState) : AuthRuleTxn → Option ConfigState
  | .authRule handler op => updateRule serializer handler s op
  | .authRules op => do
    let rules ← rulesOf op
    rules.foldlM (updateRule serializer .current) s

end Write

section Enforce

/-- `_find_auth_constraint_key`; the outer `none` is an exception. -/
def findAuthConstraintKey (actionId : String) : List (String × Constraint) → Option (Option String)
  | [] => some none
  | (amId, _) :: rest => do
    let accepted ← isAcceptedActionId amId actionId
    if accepted then return some amId else findAuthConstraintKey actionId rest

variable (serializer : StateSerializer)

/-- `ConstraintsSerializer.deserialize`. -/
def deserializeConstraint (bytes : Bytes) : Option RuleConstraint := do
  let dict ← serializer.deserialize bytes
  (createConstraint dict).toOption

/-- `ConfigLedgerAuthStrategy.get_from_state`. -/
def getFromState (s : ConfigState) (key : Bytes) : Option (Option RuleConstraint) :=
  match s key with
  | none => some none
  | some fromState => if fromState = [] then some none
      else (deserializeConstraint serializer fromState).map some

/-- `ConfigLedgerAuthStrategy.get_auth_constraint`. -/
def configLedgerAuthConstraint (s : ConfigState) (actionId : String) :
    Option (Option RuleConstraint) := do
  match ← findAuthConstraintKey actionId authMap with
  | none => return none
  | some amId =>
    if amId = "" then return none
    else match ← getFromState serializer s (makeStatePathForAuthRule amId) with
      | none => return (authMap.lookup amId).map Constraint.toRule
      | some constraint => return some constraint

end Enforce

section Report

variable (serializer : StateSerializer)

/-- `make_auth_rule_data`. -/
def makeAuthRuleData (constraint : RuleConstraint) (actionObj : ActionDef) : Operation :=
  [("constraint", constraint.asDict), ("auth_type", .string (String.ofList actionObj.txnType)),
    ("auth_action", .string (String.ofList actionObj.mark)),
    ("field", .string (String.ofList actionObj.field)),
    ("new_value", .string (String.ofList actionObj.newValue))] ++
      if actionObj.mark = editMark.toList
      then [("old_value", .string (String.ofList actionObj.oldValue))] else []

/-- `_get_auth_rule`. -/
def getAuthRule (s : ConfigState) (key : String) : Option (List Operation) := do
  let data ← match s (makeStatePathForAuthRule key) with
    | none => (authMap.lookup key).map Constraint.toRule
    | some mapData =>
      if mapData = [] then (authMap.lookup key).map Constraint.toRule
        else deserializeConstraint serializer mapData
  let actionObj ← splitActionId key
  return [makeAuthRuleData data actionObj]

/-- One pass of the loop in `_get_all_auth_rules`. -/
def reportedRule (s : ConfigState) (rule : String × Constraint) : Option Operation := do
  let value ← match s (handlerStatePathForAuthRule rule.1) with
    | none => some rule.2.toRule
    | some stateConstraint =>
      if stateConstraint = [] then some rule.2.toRule
        else deserializeConstraint serializer stateConstraint
  let actionObj ← splitActionId rule.1
  return makeAuthRuleData value actionObj

/-- `_get_all_auth_rules`. -/
def getAllAuthRules (s : ConfigState) : Option (List Operation) :=
  authMap.mapM (reportedRule serializer s)

/-- The data of `GetAuthRuleHandler.get_result`. -/
def getAuthRuleResult (s : ConfigState) (op : Operation) : Option (List Operation) :=
  if 5 ≤ op.length then do
    let path ← getAuthKey op
    getAuthRule serializer s path
  else getAllAuthRules serializer s

end Report

end SimpleAsset.IndyNode
