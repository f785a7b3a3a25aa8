import SimpleAsset.IndyNode.AuthAction
import SimpleAsset.IndyNode.AuthConstraint
import SimpleAsset.Library.Fallible

/-! Authorization of a write (`indy_common/authorize/authorizer.py`,
`auth_request_validator.py`). -/
namespace SimpleAsset.IndyNode

/-- What authorization reads of a request. `signatures` has the signers of a multi-signed
request. -/
structure SignedRequest where
  identifier : Option String
  /-- Whether the request carries a single signature, which is its author's. -/
  signature : Bool
  signatures : List String
  endorser : Option String
  signatures_nodup : signatures.Nodup
  identifier_of_signature : signature = true → identifier.isSome = true
  deriving DecidableEq, Repr

/-- A request that only its author has signed. -/
def SignedRequest.single (identifier : String) : SignedRequest :=
  ⟨some identifier, true, [], none, List.nodup_nil, fun _ => rfl⟩

/-- `IdrCache.getRole` with `KeyError` as `none`; the role of an identity owner is empty. -/
abbrev RoleCache := String → Option String

/-- `_get_role`, `None` for no identifier. -/
def RoleCache.getRole (cache : RoleCache) (idr : Option String) : Option String := idr.bind cache

/-- An authorizer's own verdict and the reason when it is negative. -/
abbrev Verdict := Bool × String

variable (cache : RoleCache) (request : SignedRequest)

namespace RolesAuthorizer

def isRoleAccepted (role : Option String) (constraintRole : ConstraintRole) : Bool :=
  match role with
  | none => false
  | some role =>
    match constraintRole with
    | .any => true
    | .one none => role = ""
    | .one (some r) => role ≠ "" && role = r.code

def getSigCount (role : ConstraintRole) (offLedgerSignature : Bool) : ℕ :=
  if request.signature then
    if offLedgerSignature || isRoleAccepted (cache.getRole request.identifier) role then 1 else 0
  else if request.signatures = [] then 0
  else if role = .any then request.signatures.length
  else request.signatures.countP fun idr => offLedgerSignature || isRoleAccepted (cache idr) role

def isOwnerAccepted (constraint : AuthConstraint) (action : AuthAction) : Bool :=
  !(constraint.needToBeOwner && !action.isOwner)

def isSigCountAccepted (constraint : AuthConstraint) : Bool :=
  constraint.sigCount ≤ getSigCount cache request constraint.role constraint.offLedger

/-- Why someone else than the owner is refused. -/
def ownerReason (action : AuthAction) : String :=
  let role := getNamedRole (cache.getRole request.identifier)
  if action.field ≠ "*" then role ++ " can not touch " ++ action.field ++
    " field since only the owner can modify it"
  else role ++ " can not edit " ++ transactionName action.txnType ++
    " txn since only owner can modify it"

/-- `RolesAuthorizer.authorize`. -/
def authorize (constraint : AuthConstraint) (action : AuthAction) : Verdict :=
  if !isOwnerAccepted constraint action then (false, ownerReason cache request action)
  else if 0 < constraint.sigCount && !constraint.offLedger &&
    cache.getRole request.identifier = none then
    (false, "sender's DID " ++ request.identifier.getD "None" ++ " is not found in the Ledger")
  else if 0 < constraint.sigCount && request.signatures ≠ [] &&
      !(request.identifier.any fun idr => request.signatures.contains idr) then
    (false, "Author must sign the transaction")
  else if !isSigCountAccepted cache request constraint then
    (false, "Not enough " ++ constraint.role.signatureName ++ " signatures")
  else (true, "")

end RolesAuthorizer

namespace EndorserAuthorizer

/-- `role in NO_NEED_FOR_ENDORSER_ROLES`. -/
def isPrivileged (role : Option String) : Bool :=
  role = some Role.endorser.code || role = some Role.trustee.code || role = some Role.steward.code

def checkEndorserRole : Verdict :=
  match request.endorser with
  | none => (true, "")
  | some endorser =>
    if cache endorser = some Role.endorser.code then (true, "")
    else (false, "Endorser must have one of the following roles: \x7b'ENDORSER'\x7d")

def checkEndorserFieldPresence : Verdict :=
  let signed := fun idr => request.signatures.contains idr
  -- An author who is the endorser has signed already.
  if request.endorser ≠ request.identifier &&
    (request.endorser.any fun idr => idr ≠ "" && !signed idr) then
    (false, "Endorser must sign the transaction")
  else if request.signatures = [] then (true, "")
  else if !(1 < request.signatures.length || !request.identifier.any signed) then (true, "")
  else if isPrivileged (cache.getRole request.identifier) then (true, "")
  else if !request.signatures.any (fun idr => isPrivileged (cache idr)) then (true, "")
  else if request.endorser = none then
    (false, "'Endorser' field must be explicitly set for the endorsed transaction")
  else (true, "")

/-- `EndorserAuthorizer.authorize`. -/
def authorize : Verdict :=
  let (res, reason) := checkEndorserRole cache request
  if !res then (res, reason)
  else
    let (res, reason) := checkEndorserFieldPresence cache request
    if !res then (res, reason) else (true, "")

end EndorserAuthorizer

namespace CompositeAuthorizer

/-- `CompositeAuthorizer.authorize` over the authorizers registered for a kind of constraint: an
error of one is passed on, a negative verdict becomes an error. -/
def composite : List (Except String Verdict) → Except String Verdict
  | [] => .ok (true, "")
  | result :: results => do
    let (authorized, reason) ← result
    if authorized then composite results else .error reason

/-- What `OrAuthorizer` raises. -/
def orReason (constraint : Constraint) (fails : List String) : String :=
  "\n".intercalate
    ["Rule for this action is: " ++ constraint.str, "Failed checks:", "\n".intercalate fails]

mutual

/-- `CompositeAuthorizer.authorize` as `WriteRequestValidator` sets it up; the reason of
`AuthValidationError` is the error. -/
def authorize (action : AuthAction) : Constraint → Except String Verdict
  | .role c =>
    composite [.ok (RolesAuthorizer.authorize cache request c action),
      .ok (EndorserAuthorizer.authorize cache request)]
  | .and cs => composite [andAuthorize action cs]
  | .or cs =>
    let (successes, fails) := orChecks action cs
    composite [if successes = 0 then .error (orReason (.or cs) fails) else .ok (true, "")]
  | .forbidden => composite [.ok (false, Constraint.forbidden.str)]

/-- The loop of `AndAuthorizer.authorize`. -/
def andAuthorize (action : AuthAction) : List Constraint → Except String Verdict
  | [] => .ok (true, "")
  | c :: cs => do
    let (authorized, reason) ← authorize action c
    if authorized then andAuthorize action cs else .error reason

/-- The loop of `OrAuthorizer.authorize`: how many checks succeed, and what the others say. -/
def orChecks (action : AuthAction) : List Constraint → ℕ × List String
  | [] => (0, [])
  | c :: cs =>
    let (successes, fails) := orChecks action cs
    match authorize action c with
    | .error reason => (successes, ("Constraint: " ++ c.str ++ ", Error: " ++ reason) :: fails)
    | .ok _ => (successes + 1, fails)

end

end CompositeAuthorizer

end SimpleAsset.IndyNode
