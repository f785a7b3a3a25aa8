import SimpleAsset.IndyNode.Authorizer

/-! The default auth rules, and how the rule for an action is found
(`auth_map.py`, `auth_cons_strategies.py`, `auth_request_validator.py`). -/
namespace SimpleAsset.IndyNode

section Rules

/-- A constraint without metadata that accepts only signatures on the ledger. -/
def authConstraint (role : ConstraintRole) (sigCount : ℕ) (needToBeOwner : Bool) : Constraint :=
  .role ⟨role, sigCount, needToBeOwner, none, [], by simp⟩

def noOneConstraint : Constraint := .forbidden

def ownerConstraint : Constraint := authConstraint .any 1 true

def stewardOwnerConstraint : Constraint := authConstraint (.one (some .steward)) 1 true

def oneTrusteeConstraint : Constraint := authConstraint (.one (some .trustee)) 1 false

def threeTrusteeConstraint : Constraint := authConstraint (.one (some .trustee)) 3 false

def stewardOrTrusteeConstraint : Constraint :=
  .or [authConstraint (.one (some .steward)) 1 false, authConstraint (.one (some .trustee)) 1 false]

def endorserOrStewardOrTrusteeConstraint : Constraint :=
  .or [authConstraint (.one (some .trustee)) 1 false, authConstraint (.one (some .steward)) 1 false,
    authConstraint (.one (some .endorser)) 1 false]

def trusteeOrOwnerSteward : Constraint :=
  .or [authConstraint (.one (some .trustee)) 1 false, authConstraint (.one (some .steward)) 1 true]

def endorserOrStewardOrTrusteeOwnerConstraint : Constraint :=
  .or [authConstraint (.one (some .trustee)) 1 true, authConstraint (.one (some .steward)) 1 true,
    authConstraint (.one (some .endorser)) 1 true]

def validatorInfoConstraint : Constraint :=
  .or [authConstraint (.one (some .trustee)) 1 false, authConstraint (.one (some .steward)) 1 false,
    authConstraint (.one (some .networkMonitor)) 1 false]

/-- `AuthActionAdd(txn_type, field, value).get_action_id()`. -/
def addId (txnType field value : String) : String :=
  (AuthAction.add txnType field value true).getActionId

/-- `AuthActionEdit(txn_type, field, old_value, new_value).get_action_id()`. -/
def editId (txnType field oldValue newValue : String) : String :=
  (AuthAction.edit txnType field oldValue newValue true).getActionId

/-- `str(role) if role is not None else ''`. -/
def roleStr (role : Option Role) : String := (role.map Role.code).getD ""

/-- `add_new_*`: giving a new DID a role. -/
def addRoleId (role : Option Role) : String := addId "1" "role" (roleStr role)

/-- `edit_role_actions[old][new]`. -/
def editRoleId (old new : Option Role) : String := editId "1" "role" (roleStr old) (roleStr new)

def keyRotationId : String := editId "1" "verkey" "*" "*"

/-- Rules for all transactions of a type. -/
def addAnyId (txnType : String) : String := addId txnType "*" "*"

def editAnyId (txnType : String) : String := editId txnType "*" "*" "*"

/-- `auth_map` before the rules for editing roles. -/
def baseAuthMap : List (String × Constraint) :=
  [(addRoleId (some .trustee), oneTrusteeConstraint),
    (addRoleId (some .steward), oneTrusteeConstraint),
    (addRoleId (some .endorser), stewardOrTrusteeConstraint),
    (addRoleId (some .networkMonitor), stewardOrTrusteeConstraint),
    (addRoleId none, endorserOrStewardOrTrusteeConstraint),
    (keyRotationId, ownerConstraint),
    (addAnyId "4", oneTrusteeConstraint),
    (editAnyId "4", oneTrusteeConstraint),
    (addAnyId "8", oneTrusteeConstraint),
    (addAnyId "5", oneTrusteeConstraint),
    (addAnyId "100", ownerConstraint),
    (editAnyId "100", ownerConstraint),
    (addAnyId "101", endorserOrStewardOrTrusteeConstraint),
    (editAnyId "101", noOneConstraint),
    (addAnyId "200", endorserOrStewardOrTrusteeConstraint),
    (editAnyId "200", noOneConstraint),
    (addAnyId "201", endorserOrStewardOrTrusteeConstraint),
    (editAnyId "201", noOneConstraint),
    (addAnyId "202", endorserOrStewardOrTrusteeConstraint),
    (editAnyId "202", noOneConstraint),
    (addAnyId "203", endorserOrStewardOrTrusteeConstraint),
    (editAnyId "203", noOneConstraint),
    (addAnyId "204", endorserOrStewardOrTrusteeConstraint),
    (editAnyId "204", noOneConstraint),
    (addAnyId "205", endorserOrStewardOrTrusteeConstraint),
    (editAnyId "205", noOneConstraint),
    (addAnyId "102", endorserOrStewardOrTrusteeConstraint),
    (editAnyId "102", ownerConstraint),
    (addId "0" "services" "['VALIDATOR']", stewardOwnerConstraint),
    (addId "0" "services" "[]", stewardOwnerConstraint),
    (editId "0" "services" "['VALIDATOR']" "[]", trusteeOrOwnerSteward),
    (editId "0" "services" "[]" "['VALIDATOR']", trusteeOrOwnerSteward),
    (editId "0" "node_ip" "*" "*", stewardOwnerConstraint),
    (editId "0" "node_port" "*" "*", stewardOwnerConstraint),
    (editId "0" "client_ip" "*" "*", stewardOwnerConstraint),
    (editId "0" "client_port" "*" "*", stewardOwnerConstraint),
    (editId "0" "blskey" "*" "*", stewardOwnerConstraint),
    (addId "109" "action" "start", oneTrusteeConstraint),
    (editId "109" "action" "start" "cancel", oneTrusteeConstraint),
    (addId "118" "action" "*", oneTrusteeConstraint),
    (editId "111" "action" "*" "*", oneTrusteeConstraint),
    (editAnyId "120", oneTrusteeConstraint),
    (editAnyId "122", oneTrusteeConstraint),
    (addAnyId "119", validatorInfoConstraint),
    (addAnyId "113", endorserOrStewardOrTrusteeConstraint),
    (addAnyId "114", endorserOrStewardOrTrusteeOwnerConstraint),
    (editAnyId "113", ownerConstraint),
    (editAnyId "114", ownerConstraint),
    (editAnyId "9", threeTrusteeConstraint)]

/-- `auth_map_trustee`, `auth_map_steward` and the others: who may change a role into another. -/
def editRoleAuthMap : List (String × Constraint) :=
  [(editRoleId (some .trustee) (some .trustee), ownerConstraint),
    (editRoleId (some .trustee) (some .steward), oneTrusteeConstraint),
    (editRoleId (some .trustee) (some .endorser), oneTrusteeConstraint),
    (editRoleId (some .trustee) (some .networkMonitor), oneTrusteeConstraint),
    (editRoleId (some .trustee) none, oneTrusteeConstraint),
    (editRoleId (some .steward) (some .trustee), oneTrusteeConstraint),
    (editRoleId (some .steward) (some .steward), ownerConstraint),
    (editRoleId (some .steward) (some .endorser), oneTrusteeConstraint),
    (editRoleId (some .steward) (some .networkMonitor), oneTrusteeConstraint),
    (editRoleId (some .steward) none, oneTrusteeConstraint),
    (editRoleId (some .endorser) (some .trustee), oneTrusteeConstraint),
    (editRoleId (some .endorser) (some .steward), oneTrusteeConstraint),
    (editRoleId (some .endorser) (some .endorser), ownerConstraint),
    (editRoleId (some .endorser) (some .networkMonitor), oneTrusteeConstraint),
    (editRoleId (some .endorser) none, oneTrusteeConstraint),
    (editRoleId (some .networkMonitor) (some .trustee), oneTrusteeConstraint),
    (editRoleId (some .networkMonitor) (some .steward), oneTrusteeConstraint),
    (editRoleId (some .networkMonitor) (some .endorser), stewardOrTrusteeConstraint),
    (editRoleId (some .networkMonitor) (some .networkMonitor), ownerConstraint),
    (editRoleId (some .networkMonitor) none, stewardOrTrusteeConstraint),
    (editRoleId none (some .trustee), oneTrusteeConstraint),
    (editRoleId none (some .steward), oneTrusteeConstraint),
    (editRoleId none (some .endorser), stewardOrTrusteeConstraint),
    (editRoleId none (some .networkMonitor), stewardOrTrusteeConstraint),
    (editRoleId none none, ownerConstraint)]

def authMap : List (String × Constraint) := baseAuthMap ++ editRoleAuthMap

end Rules

section Lookup

/-- `ActionDef`. -/
structure ActionDef where
  txnType : List Char
  mark : List Char
  field : List Char
  oldValue : List Char
  newValue : List Char
  deriving DecidableEq, Repr

/-- `split("--")`, with what is read of the part so far. -/
def splitDelimiter (part : List Char) : List Char → List (List Char)
  | '-' :: '-' :: rest => part.reverse :: splitDelimiter [] rest
  | c :: rest => splitDelimiter (c :: part) rest
  | [] => [part.reverse]

/-- `split_action_id`, which raises unless there are five parts. -/
def splitActionId (actionId : String) : Option ActionDef :=
  match splitDelimiter [] actionId.toList with
  | [txnType, mark, field, oldValue, newValue] => some ⟨txnType, mark, field, oldValue, newValue⟩
  | _ => none

/-- Whether a rule covers an action, part by part. -/
def ActionDef.covers (am r : ActionDef) : Bool :=
  r.mark = am.mark && r.txnType = am.txnType && (r.field = am.field || am.field = ['*']) &&
    (r.oldValue = am.oldValue || am.oldValue = ['*']) &&
    (r.newValue = am.newValue || am.newValue = ['*'])

/-- `is_accepted_action_id`. -/
def isAcceptedActionId (fromAuthMap fromReq : String) : Option Bool := do
  let am ← splitActionId fromAuthMap
  let r ← splitActionId fromReq
  return am.covers r

/-- `LocalAuthStrategy.get_auth_constraint`, also `ConfigLedgerAuthStrategy` when the state has no
rule: the first rule that covers the action. The outer `none` is an exception. -/
def getAuthConstraint (actionId : String) : List (String × Constraint) → Option (Option Constraint)
  | [] => some none
  | (amId, constraint) :: rest => do
    let accepted ← isAcceptedActionId amId actionId
    if accepted then return some constraint else getAuthConstraint actionId rest

/-- Why a write is refused. -/
inductive AuthError
  | malformedActionId
  | notAllowed
  | unauthorized (reason : String)
  deriving DecidableEq, Repr

/-- `WriteRequestValidator.validate`, which answers at the first action. -/
def validate (rules : List (String × Constraint)) (cache : RoleCache) (request : SignedRequest)
    (actions : List AuthAction) : Except AuthError Unit :=
  match actions with
  | [] => .ok ()
  | action :: _ =>
    match getAuthConstraint action.getActionId rules with
    | none => .error .malformedActionId
    | some none => .error .notAllowed
    | some (some constraint) =>
      match CompositeAuthorizer.authorize cache request action constraint with
      | .error reason => .error (.unauthorized reason)
      | .ok _ => .ok ()

end Lookup

end SimpleAsset.IndyNode
