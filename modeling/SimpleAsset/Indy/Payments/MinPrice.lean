import SimpleAsset.Indy.Pool.Json
import SimpleAsset.Indy.Result
import SimpleAsset.Library.Fallible
import SimpleAsset.Library.Table

/-! Prices and requirements of a ledger request, from the constraints of its auth rule
(payments.rs). -/
namespace SimpleAsset.Indy.Payments
open SimpleAsset.Library

structure RoleConstraint where
  sigCount : ℕ
  role : Option String
  metadata : Option Json
  needToBeOwner : Bool
  offLedgerSignature : Bool

inductive Constraint
  | orConstraint (authConstraints : List Constraint)
  | andConstraint (authConstraints : List Constraint)
  | roleConstraint (constraint : RoleConstraint)
  | forbiddenConstraint

structure RequesterInfo where
  role : Option String
  sigCount : ℕ
  isOwner : Bool
  isOffLedgerSignature : Bool

structure Requirement where
  role : Option String
  sigCount : ℕ
  needToBeOwner : Bool
  offLedgerSignature : Bool
  deriving DecidableEq, Repr

structure RequestInfo where
  price : ℕ
  requirements : List Requirement
  deriving DecidableEq, Repr

abbrev Fees := Table String ℕ

/-- `format!` with `{:?}`, for the texts of the errors. -/
structure DebugFormat where
  text : String → String
  requester : RequesterInfo → String
  constraints : List Constraint → String
  requests : List RequestInfo → String

section Roles
variable (D : DebugFormat) (requesterInfo : RequesterInfo) (fees : Fees)
    (constraint : RoleConstraint)

def notAllowed {α : Type} (message : String) : IndyResult α :=
  .error ⟨.transactionNotAllowed, message⟩

def checkRole : IndyResult Unit :=
  match constraint.role, requesterInfo.role with
  | some cRole, some rRole =>
    if cRole ≠ rRole ∧ cRole ≠ "*" then
      notAllowed ("The requester role " ++ D.text rRole ++ " doesn't meet to constraint \"" ++
        D.text cRole ++ "\".")
    else .ok ()
  | some cRole, none =>
    notAllowed ("The requester role \"null\" doesn't meet to constraint \"" ++
      D.text cRole ++ "\".")
  | none, _ => .ok ()

def checkRequesterMeetToRoleConstraint : IndyResult Unit :=
  if constraint.sigCount = 0 then .ok ()
  else do
    checkRole D requesterInfo constraint
    if requesterInfo.sigCount < constraint.sigCount then
      notAllowed ("The requester signatures amount " ++ toString requesterInfo.sigCount ++
        " doesn't meet to constraint \"" ++ toString constraint.sigCount ++ "\".")
    else if !constraint.offLedgerSignature && requesterInfo.isOffLedgerSignature then
      notAllowed "The requester must be published on the ledger."
    else if constraint.needToBeOwner && !requesterInfo.isOwner then
      notAllowed
        "The requester must be an owner of the transaction that already present on the ledger."
    else .ok ()

/-- The price of a role: the fee under the alias in its metadata. -/
def RoleConstraint.price : ℕ :=
  ((constraint.metadata.bind fun metadata => (metadata.index "fees").asStr).bind fun fee =>
    fees.lookup fee).getD 0

def RoleConstraint.requirement : Requirement :=
  ⟨constraint.role, constraint.sigCount, constraint.needToBeOwner, constraint.offLedgerSignature⟩

def getReqInfo : RequestInfo := ⟨constraint.price fees, [constraint.requirement]⟩

def handleRoleConstraint : IndyResult (List RequestInfo) := do
  checkRequesterMeetToRoleConstraint D requesterInfo constraint
  pure [getReqInfo fees constraint]

end Roles

section Combinations
variable (D : DebugFormat) (requesterInfo : RequesterInfo) (fees : Fees)

/-- `_handle_and_constraint` after its children: all that they answered is taken together. -/
def mergeAll (reqInfo : List RequestInfo) : IndyResult (List RequestInfo) :=
  match reqInfo with
  | [] => .error ⟨.invalidStructure, "AND Constraint doesn't contain sub constraints."⟩
  | first :: _ =>
    if reqInfo.any fun x => x.price ≠ first.price then
      .error ⟨.invalidStructure, "AND Constraint contains branches with different price: " ++
        D.requests reqInfo ++ "."⟩
    else .ok [⟨first.price, (reqInfo.map (·.requirements)).flatten⟩]

mutual

def handleConstraint : Constraint → IndyResult (List RequestInfo)
  | .roleConstraint constraint => handleRoleConstraint D requesterInfo fees constraint
  | .andConstraint authConstraints =>
    match collectAll authConstraints with
    | .error _ =>
      notAllowed ("Transaction is not allowed to requester: " ++ D.requester requesterInfo ++
        ". The constraint \"" ++ D.constraints authConstraints ++ "\"  is not met.")
    | .ok reqInfo => mergeAll D reqInfo.flatten
  | .orConstraint authConstraints =>
    let prices := collectMet authConstraints
    if prices.isEmpty then
      notAllowed ("Transaction is not allowed to requester: " ++ D.requester requesterInfo ++
        ". Requester " ++ D.constraints authConstraints ++ " doesn't satisfy any constraint.")
    else .ok prices
  | .forbiddenConstraint => notAllowed "Transaction is forbidden for anyone"

/-- `collect::<IndyResult<Vec<..>>>()`. -/
def collectAll : List Constraint → IndyResult (List (List RequestInfo))
  | [] => .ok []
  | constraint :: constraints => do
    let first ← handleConstraint constraint
    let rest ← collectAll constraints
    pure (first :: rest)

/-- `flat_map` over results leaves the errors out. -/
def collectMet : List Constraint → List RequestInfo
  | [] => []
  | constraint :: constraints => (handleConstraint constraint).toOption.getD [] ++
      collectMet constraints

end

def getRequestInfoWithMinPrice (constraint : Constraint) : IndyResult RequestInfo := do
  let prices ← handleConstraint D requesterInfo fees constraint
  match prices.minOn? (·.price) with
  | some info => .ok info
  | none => .error ⟨.invalidStructure, "RequestInfo not found"⟩

end Combinations

end SimpleAsset.Indy.Payments
