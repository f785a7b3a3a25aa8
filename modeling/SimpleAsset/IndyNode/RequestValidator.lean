import SimpleAsset.IndyNode.AuthRules
import SimpleAsset.IndyNode.RuleLookup

/-! Validation of a write with several actions (`indy_common/authorize/auth_request_validator.py`,
`auth_cons_strategies.py`). -/
namespace SimpleAsset.IndyNode

/-- `get_auth_constraint` of a strategy, by the id of an action. The outer `none` is an exception,
the inner one `None`. -/
abbrev AuthStrategy := String → Option (Option Constraint)

/-- `LocalAuthStrategy`. -/
def localAuthStrategy (authMap : List (String × Constraint)) : AuthStrategy := fun actionId => do
  match ← findAuthConstraintKey actionId authMap with
  | none => return none
  | some amId => return authMap.lookup amId

/-- `ConfigLedgerAuthStrategy`, over what `get_from_state` has for a rule. -/
def configLedgerAuthStrategy (getFromState : AuthStrategy) (authMap : List (String × Constraint)) :
    AuthStrategy :=
  fun actionId => do
    match ← findAuthConstraintKey actionId authMap with
    | none => return none
    | some amId =>
      if amId = "" then return none
      else match ← getFromState amId with
        | none => return authMap.lookup amId
        | some constraint => return some constraint

/-- A rule that is found covers the action. -/
theorem accepted_of_findAuthConstraintKey {actionId key : String}
    {rules : List (String × Constraint)}
    (h : findAuthConstraintKey actionId rules = some (some key)) :
    isAcceptedActionId key actionId = some true := by
  induction rules with
  | nil => simp [findAuthConstraintKey] at h
  | cons rule rules ih =>
    rcases haccepted : isAcceptedActionId rule.1 actionId with _ | _ | _
    · simp [findAuthConstraintKey, haccepted] at h
    · simp only [findAuthConstraintKey, haccepted, Option.bind_eq_bind, Option.bind_some] at h
      exact ih h
    · simp only [findAuthConstraintKey, haccepted, Option.bind_eq_bind, Option.bind_some, if_true,
        Option.pure_def, Option.some.injEq] at h
      rwa [← h]

/-- The local strategy finds the constraint of the first rule that covers the action. -/
theorem localAuthStrategy_eq (authMap : List (String × Constraint)) (actionId : String) :
    localAuthStrategy authMap actionId = getAuthConstraint actionId authMap := by
  induction authMap with
  | nil => rfl
  | cons rule rules ih =>
    obtain ⟨amId, constraint⟩ := rule
    rcases haccepted : isAcceptedActionId amId actionId with _ | _ | _
    · simp [localAuthStrategy, findAuthConstraintKey, getAuthConstraint, haccepted]
    · rw [getAuthConstraint, haccepted]
      simp only [Option.bind_eq_bind, Option.bind_some, ← ih]
      -- The key that is found further on is not the one that was passed over.
      rcases hfound : findAuthConstraintKey actionId rules with _ | _ | key
      · simp [localAuthStrategy, findAuthConstraintKey, haccepted, hfound]
      · simp [localAuthStrategy, findAuthConstraintKey, haccepted, hfound]
      · have hne : key ≠ amId := by
          rintro rfl
          simp [accepted_of_findAuthConstraintKey hfound] at haccepted
        simp [localAuthStrategy, findAuthConstraintKey, haccepted, hfound, List.lookup_cons,
          beq_false_of_ne hne]
    · simp [localAuthStrategy, findAuthConstraintKey, getAuthConstraint, haccepted,
        List.lookup_cons]

/-- On a ledger without rules the ones of the auth map hold. -/
theorem configLedgerAuthStrategy_none (authMap : List (String × Constraint)) :
    configLedgerAuthStrategy (fun _ => some none) authMap = localAuthStrategy authMap := by
  funext actionId
  rcases hfound : findAuthConstraintKey actionId authMap with _ | _ | key
  · simp [configLedgerAuthStrategy, localAuthStrategy, hfound]
  · simp [configLedgerAuthStrategy, localAuthStrategy, hfound]
  · have hne : key ≠ "" := by
      rintro rfl
      -- An empty key has no parts to compare.
      have haccepted := accepted_of_findAuthConstraintKey hfound
      simp [isAcceptedActionId, splitActionId, splitDelimiter] at haccepted
    simp [configLedgerAuthStrategy, localAuthStrategy, hfound, hne]

/-- A request with the fields that are reported when it is refused. `str` is its text. -/
structure WriteRequest where
  signed : SignedRequest
  reqId : Option ℕ
  str : String

/-- Exceptions of `validate`: one of the strategy, or `UnauthorizedClientRequest`. -/
inductive ValidateError
  | malformedActionId
  | unauthorizedClientRequest (identifier : Option String) (reqId : Option ℕ) (reason : String)
  deriving DecidableEq, Repr

structure WriteRequestValidator where
  authConsStrategy : AuthStrategy
  cache : RoleCache

namespace WriteRequestValidator

def notAllowedMsg (request : WriteRequest) : String :=
  "Request can not be authorized as action is not allowed: " ++ request.str

def validate (v : WriteRequestValidator) (request : WriteRequest) :
    List AuthAction → Except ValidateError (Option Bool)
  | [] => .ok none
  | action :: _ =>
    let unauthorized :=
      ValidateError.unauthorizedClientRequest request.signed.identifier request.reqId
    match v.authConsStrategy action.getActionId with
    | none => .error .malformedActionId
    | some (some authConstraint) =>
      match CompositeAuthorizer.authorize v.cache request.signed action authConstraint with
      | .error reason => .error (unauthorized reason)
      -- `return True` stands in the body of the loop.
      | .ok _ => .ok (some true)
    | some none => .error (unauthorized (notAllowedMsg request))

/-- An action has a rule, and the rule authorizes the request for it. -/
def Authorizes (v : WriteRequestValidator) (request : WriteRequest) (action : AuthAction) : Prop :=
  ∃ constraint, v.authConsStrategy action.getActionId = some (some constraint) ∧
    constraint.Granted v.cache request.signed action

variable {v : WriteRequestValidator} {request : WriteRequest}

theorem validate_cons_isOk_iff (action : AuthAction) (actions : List AuthAction) :
    (v.validate request (action :: actions)).isOk = true ↔ v.Authorizes request action := by
  unfold validate Authorizes
  rcases hfound : v.authConsStrategy action.getActionId with _ | _ | constraint
  · simp only [hfound]
    simp [Except.isOk, Except.toBool]
  · simp only [hfound]
    simp [Except.isOk, Except.toBool]
  · have hdecides : CompositeAuthorizer.Decides
        (CompositeAuthorizer.authorize v.cache request.signed action constraint)
        (constraint.Granted v.cache request.signed action) :=
        CompositeAuthorizer.authorize_decides constraint
    simp only [hfound, Option.some.injEq, exists_eq_left']
    by_cases hholds : constraint.Granted v.cache request.signed action
    · simp [hdecides.1 hholds, hholds, Except.isOk, Except.toBool]
    · obtain ⟨reason, hreason⟩ := hdecides.2 hholds
      simp [hreason, hholds, Except.isOk, Except.toBool]

/-- Only the head of the list is looked at. -/
theorem validate_isOk_iff (actions : List AuthAction) :
    (v.validate request actions).isOk = true ↔
    ∀ action ∈ actions.head?, v.Authorizes request action := by
  cases actions with
  | nil => simp [validate, Except.isOk, Except.toBool]
  | cons action actions => simp [validate_cons_isOk_iff]

/-- What the handlers of this development call is validation with the local strategy. -/
theorem validate_localAuthStrategy (authMap : List (String × Constraint)) (cache : RoleCache)
    (actions : List AuthAction) :
    (validate ⟨localAuthStrategy authMap, cache⟩ request actions).isOk =
      (IndyNode.validate authMap cache request.signed actions).isOk := by
  cases actions with
  | nil => rfl
  | cons action actions =>
    simp only [validate, IndyNode.validate, localAuthStrategy_eq]
    rcases getAuthConstraint action.getActionId authMap with _ | _ | constraint
    · rfl
    · rfl
    · dsimp only
      cases CompositeAuthorizer.authorize cache request.signed action constraint <;> rfl

/-- The handlers ask for one action at a time, and for one the answer is right. -/
theorem validate_singleton_isOk_iff (action : AuthAction) :
    (v.validate request [action]).isOk = true ↔ ∀ a ∈ [action], v.Authorizes request a := by
  simp [validate_cons_isOk_iff]

/-- Validation lets no action through that is not authorized, unless the first action is authorized
and a later one is not. -/
theorem validate_authorizes_every_action_iff (v : WriteRequestValidator) (request : WriteRequest)
    (actions : List AuthAction) :
    ((v.validate request actions).isOk = true → ∀ action ∈ actions, v.Authorizes request action) ↔
      ∀ first rest, actions = first :: rest → v.Authorizes request first →
        ∀ action ∈ rest, v.Authorizes request action := by
  rw [validate_isOk_iff]
  constructor
  · rintro hall first rest rfl hfirst action hmem
    apply hall _ action (List.mem_cons_of_mem _ hmem)
    simpa using hfirst
  · intro hrest hhead
    cases actions with
    | nil => simp
    | cons first rest =>
      have hfirst : v.Authorizes request first := by simpa using hhead
      exact List.forall_mem_cons.mpr ⟨hfirst, hrest first rest rfl hfirst⟩

/-- Under the default rules an owner may rotate its key, and no rule lets anyone edit an alias. -/
theorem not_validate_authorizes_every_action :
    let v : WriteRequestValidator :=
  ⟨localAuthStrategy authMap, fun idr => if idr = "owner" then some "" else none⟩
    let request : WriteRequest := ⟨.single "owner", some 1, "request"⟩
    let rotation := AuthAction.edit "1" "verkey" "old" "new" true
    let relabel := AuthAction.edit "1" "alias" "old" "new" true
    v.validate request [rotation, relabel] = .ok (some true) ∧ ¬ v.Authorizes request relabel := by
  intro v request rotation relabel
  refine ⟨by decide, ?_⟩
  rintro ⟨constraint, hfound, -⟩
  have hrule : getAuthConstraint relabel.getActionId authMap = some (some constraint) := by
    rw [← localAuthStrategy_eq]
    exact hfound
  obtain ⟨key, am, r, hmem, ham, hr, hcovers⟩ := exists_rule hrule
  obtain ⟨action, haction, rfl, hsplit⟩ := exists_action_of_key (List.mem_map_of_mem hmem)
  obtain rfl : action.actionDef = am := Option.some.inj (hsplit.symm.trans ham)
  have hparts : ∀ part ∈ relabel.parts, '-' ∉ part.toList := by decide
  obtain rfl : relabel.actionDef = r :=
    Option.some.inj ((AuthAction.splitActionId_getActionId hparts).symm.trans hr)
  have hothers : ∀ action ∈ authMapActions,
      action.actionDef.covers relabel.actionDef = false := by decide
  rw [hothers action haction] at hcovers
  cases hcovers

end WriteRequestValidator

end SimpleAsset.IndyNode
