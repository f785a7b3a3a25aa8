import Mathlib.Data.Nat.Notation

/-! Roles on the ledger and the constraints of auth rules
(`indy_common/roles.py`, `auth_constraints.py`). -/
namespace SimpleAsset.IndyNode

/-- Roles with a code; an identity owner has none. -/
inductive Role
  | trustee
  | steward
  | endorser
  | networkMonitor
  deriving DecidableEq, Repr

namespace Role

def code : Role → String
  | trustee => "0"
  | steward => "2"
  | endorser => "101"
  | networkMonitor => "201"

def name : Role → String
  | trustee => "TRUSTEE"
  | steward => "STEWARD"
  | endorser => "ENDORSER"
  | networkMonitor => "NETWORK_MONITOR"

def ofCode (code : String) : Option Role :=
  [trustee, steward, endorser, networkMonitor].find? fun role => role.code = code

theorem code_ne_empty (role : Role) : role.code ≠ "" := by
  cases role <;> decide

end Role

/-- `get_named_role` of a role as it is cached: `None` off the ledger, empty for an identity
owner. -/
def getNamedRole : Option String → String
  | none => "None role"
  | some "" => "None role"
  | some code => ((Role.ofCode code).map Role.name).getD "Unknown role"

/-- Role of a constraint: any (`*`), or one role, `none` for identity owners. -/
inductive ConstraintRole
  | any
  | one (role : Option Role)
  deriving DecidableEq, Repr

namespace ConstraintRole

/-- The name in a text about a constraint. -/
def describe : ConstraintRole → String
  | any => "ALL"
  | one none => "None role"
  | one (some role) => role.name

/-- The name in a text about missing signatures. -/
def signatureName : ConstraintRole → String
  | any => "*"
  | one none => "IDENTITY_OWNER"
  | one (some role) => role.name

end ConstraintRole

/-- `AuthConstraint`, with what `_role_validation` makes sure of. Of the metadata only its text is
kept. -/
structure AuthConstraint where
  role : ConstraintRole
  sigCount : ℕ
  needToBeOwner : Bool
  offLedgerSignature : Option Bool
  metadata : List (String × String)
  off_ledger_any : offLedgerSignature = some true → role = .any
  deriving DecidableEq, Repr

namespace AuthConstraint

/-- Whether signatures off the ledger are accepted; `None` is false. -/
def offLedger (c : AuthConstraint) : Bool := c.offLedgerSignature.getD false

def metadataStr (c : AuthConstraint) : String :=
  if c.metadata = [] then ""
  else "with additional metadata " ++
    " ".intercalate (c.metadata.flatMap fun item => [item.1, item.2])

/-- What `__str__` says without the metadata. -/
def errorMsg (c : AuthConstraint) : String :=
  let role := c.role.describe
  let count := toString c.sigCount
  let owner := if c.needToBeOwner then " and needs to be owner" else ""
  if c.offLedger && 1 < c.sigCount then count ++
    " signatures of any role (off-ledger included) are required"
  else if c.offLedger &&
    c.sigCount = 1 then "1 signature of any role (off-ledger included) is required"
  else if c.role ≠ .any && 1 < c.sigCount then count ++ " " ++ role ++
    " signatures are required" ++ owner
  else if c.role ≠ .any && c.sigCount = 1 then "1 " ++ role ++ " signature is required" ++ owner
  else if c.sigCount = 1 then "1 signature of any role is required" ++ owner
  else if 1 < c.sigCount then count ++ " signatures of any role are required" ++ owner
  else ""

/-- `AuthConstraint.__str__`. -/
def str (c : AuthConstraint) : String :=
  if c.metadataStr = "" then c.errorMsg else c.errorMsg ++ " " ++ c.metadataStr

end AuthConstraint

/-- The tree of an auth rule. -/
inductive Constraint
  | forbidden
  | role (c : AuthConstraint)
  | and (authConstraints : List Constraint)
  | or (authConstraints : List Constraint)

namespace Constraint

mutual

/-- `__str__`. -/
def str : Constraint → String
  | forbidden => "The action is forbidden"
  | role c => c.str
  | and cs => " AND ".intercalate (strs cs)
  | or cs => " OR ".intercalate (strs cs)

def strs : List Constraint → List String
  | [] => []
  | c :: cs => str c :: strs cs

end

end Constraint

end SimpleAsset.IndyNode
