import SimpleAsset.IndyNode.Request

/-! Actions a write is authorized for (`indy_common/authorize/auth_actions.py`). -/
namespace SimpleAsset.IndyNode
open SimpleAsset.Indy

def ruleDelimeter : String := "--"

def addMark : String := "ADD"

def editMark : String := "EDIT"

def compileActionId (txnType field oldValue newValue mark : String) : String :=
  ruleDelimeter.intercalate [txnType, mark, field, oldValue, newValue]

theorem compileActionId_eq (txnType field oldValue newValue mark : String) :
    compileActionId txnType field oldValue newValue mark =
      txnType ++ "--" ++ mark ++ "--" ++ field ++ "--" ++ oldValue ++ "--" ++ newValue := rfl

/-- `AuthActionAdd` and `AuthActionEdit`. -/
inductive AuthAction
  | add (txnType field value : String) (isOwner : Bool)
  | edit (txnType field oldValue newValue : String) (isOwner : Bool)
  deriving DecidableEq, Repr

namespace AuthAction

def getActionId : AuthAction → String
  | add txnType field value _ => compileActionId txnType field "*" value addMark
  | edit txnType field oldValue newValue _ =>
    compileActionId txnType field oldValue newValue editMark

def txnType : AuthAction → String
  | add txnType _ _ _ => txnType
  | edit txnType _ _ _ _ => txnType

def field : AuthAction → String
  | add _ field _ _ => field
  | edit _ field _ _ _ => field

def isOwner : AuthAction → Bool
  | add _ _ _ isOwner => isOwner
  | edit _ _ _ _ isOwner => isOwner

end AuthAction

/-- `IndyTransactions.get_name_from_code`. -/
def transactionName (code : String) : String :=
  ([("0", "NODE"), ("1", "NYM"), ("100", "ATTRIB"), ("101", "SCHEMA"), ("102", "CLAIM_DEF"),
    ("103", "DISCLO"),
    ("104", "GET_ATTR"), ("105", "GET_NYM"), ("3", "GET_TXNS"), ("107", "GET_SCHEMA"),
    ("108", "GET_CLAIM_DEF"),
    ("109", "POOL_UPGRADE"), ("110", "NODE_UPGRADE"), ("111", "POOL_CONFIG"), ("112", "CHANGE_KEY"),
    ("113", "REVOC_REG_DEF"), ("114", "REVOC_REG_ENTRY"), ("115", "GET_REVOC_REG_DEF"),
    ("116", "GET_REVOC_REG"),
    ("117", "GET_REVOC_REG_DELTA"), ("118", "POOL_RESTART"), ("119", "VALIDATOR_INFO"),
    ("120", "AUTH_RULE"),
    ("121", "GET_AUTH_RULE"), ("122", "AUTH_RULES"), ("200", "JSON_LD_CONTEXT"),
    ("201", "RICH_SCHEMA"), ("202", "RICH_SCHEMA_ENCODING"), ("203", "RICH_SCHEMA_MAPPING"),
    ("204", "RICH_SCHEMA_CRED_DEF"),
    ("205", "RICH_SCHEMA_PRES_DEF"), ("300", "GET_RICH_SCHEMA_OBJECT_BY_ID"),
    ("301", "GET_RICH_SCHEMA_OBJECT_BY_METADATA")].lookup code).getD "Unknown_transaction_type"

/-- `str(value) if value is not None else ''`. -/
def strOrEmpty : Json → Option String
  | .null => some ""
  | val => pyStr val

@[simp] theorem strOrEmpty_string (s : String) : strOrEmpty (.string s) = some s := rfl

/-- `StaticAuthRuleHelper.get_auth_key`. -/
def getAuthKey (op : Operation) : Option String := do
  let authType ← (op.get "auth_type").asStr
  let field ← strOrEmpty (op.get "field")
  let newValue ← strOrEmpty (op.get "new_value")
  if op.get "auth_action" = .string editMark then
    let oldValue ← strOrEmpty (op.get "old_value")
    return (AuthAction.edit authType field oldValue newValue true).getActionId
  else
    return (AuthAction.add authType field newValue true).getActionId

end SimpleAsset.IndyNode
