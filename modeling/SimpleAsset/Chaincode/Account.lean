import SimpleAsset.Library.Table
import SimpleAsset.Chaincode.Integer

/-! The account chaincode `MyChainCode`: its five functions over the peer's stub, and runs of
transactions over the committed world state. -/
namespace SimpleAsset.Chaincode
open SimpleAsset.Library

/-- World state: one stored text for each account. -/
abbrev Ledger := Table String String

inductive Write where
  | put (key value : String)
  | del (key : String)
  deriving DecidableEq, Repr

structure Response where
  success : Bool
  message : String
  payload : Option String
  deriving DecidableEq, Repr

def newErrorResponse (message : String) : Response := ⟨false, message, none⟩
def newSuccessResponse (message : String) : Response := ⟨true, message, none⟩

/-- The keys `putStringState` accepts. The shim throws on any other key. -/
structure Shim where
  acceptsKey : String → Bool

/-- What a transaction sees of the peer. Reads are answered from the state committed before it. -/
structure Stub where
  shim : Shim
  state : Ledger
  function : String
  parameters : List String

def Stub.getStringState (stub : Stub) (key : String) : Option String := stub.state.lookup key

def Stub.putStringState (stub : Stub) (key value : String) : Except JavaException Write :=
  if stub.shim.acceptsKey key then .ok (.put key value)
  else .error (.illegalArgument "key cannot not be an empty string")

def isNullOrEmpty (s : Option String) : Bool := s.all (·.isEmpty)

/-- A response together with the write set collected on the way to it. -/
abbrev Outcome := Response × List Write

def init (stub : Stub) : Outcome :=
  let body : Except JavaException (List Write) :=
    if isNullOrEmpty (stub.getStringState "admin") then do
      let w ← stub.putStringState "admin" "0"
      return [w]
    else return []
  match body with
  | .ok ws => (newSuccessResponse "[init] Init Success\n", ws)
  | .error _ => (newErrorResponse "[init] Init Failed\n", [])

def createAccount (stub : Stub) : Outcome :=
  match stub.parameters with
  | [user, deposit] =>
    let body : Except JavaException (List Write) := do
      let amount ← parseInt (some deposit)
      if amount < 0 then throw (.numberFormat "amount must greater than 0")
      if !isNullOrEmpty (stub.getStringState user) then throw (.runtime (user ++ " already exist"))
      let w ← stub.putStringState user (integerToString amount)
      return [w]
    match body with
    | .ok ws => (newSuccessResponse ("[create account] " ++ user ++ " created ~!\n"), ws)
    | .error e => (newErrorResponse ("[create account] " ++ e.toString ++ "\n"), [])
  | _ => (newErrorResponse "[create account] Usage : create_account <user> <deposit>\n", [])

def remit (stub : Stub) : Outcome :=
  match stub.parameters with
  | [sender, receiver, amount] =>
    let body : Except JavaException Outcome := do
      let remittanceAmount ← parseInt (some amount)
      let senderBalance ← parseInt (stub.getStringState sender)
      let receiverBalance ← parseInt (stub.getStringState receiver)
      if isNullOrEmpty (stub.getStringState sender) then
        return (newErrorResponse ("[remit] Error: state for " ++ sender ++ " is null"), [])
      if isNullOrEmpty (stub.getStringState receiver) then
        return (newErrorResponse ("[remit] Error: state for " ++ receiver ++ " is null"), [])
      if remittanceAmount < 0 then throw (.numberFormat "amount must greater than 0")
      if senderBalance < remittanceAmount then
        throw (.runtime "remittance amount must greater than balance")
      let w₁ ← stub.putStringState sender
          (integerToString (wrapInt (senderBalance - remittanceAmount)))
      let w₂ ← stub.putStringState receiver
        (integerToString (wrapInt (receiverBalance + remittanceAmount)))
      return (newSuccessResponse
        ("[remit] " ++ sender ++ " -> " ++ receiver ++ " successfully remitted~!\n"), [w₁, w₂])
    match body with
    | .ok out => out
    | .error (.numberFormat m) =>
      (newErrorResponse ("[remit] " ++ (JavaException.numberFormat m).toString ++ "\n"), [])
    | .error _ =>
      -- the local still holds its initial 0 when the amount did not parse
      let remittanceAmount := (parseInt (some amount)).toOption.getD 0
      (newErrorResponse
        ("[remit] " ++ sender ++ " -(" ++ integerToString remittanceAmount ++ ")-> " ++
        receiver ++ " fauled\n"), [])
  | _ => (newErrorResponse "[remit] Usage : remit <user1> <user2> <amount>\n", [])

def balanceCheck (stub : Stub) : Outcome :=
  match stub.parameters with
  | [user] =>
    match stub.getStringState user with
    | none => (newErrorResponse ("[balance check] Error: state for " ++ user ++ " is null"), [])
    | some balance =>
      if isNullOrEmpty (some balance) then
        (newErrorResponse ("[balance check] Error: state for " ++ user ++ " is null"), [])
      else (⟨true, balance, some balance⟩, [])
  | _ => (newErrorResponse "[balance check] Usage : balance_check <user>\n", [])

def moneyIssuance (stub : Stub) : Outcome :=
  match stub.parameters with
  | [amount] =>
    let body : Except JavaException (List Write) := do
      let n ← parseInt (some amount)
      let b ← parseInt (stub.getStringState "admin")
      let w ← stub.putStringState "admin" (integerToString (wrapInt (n + b)))
      return [w]
    match body with
    | .ok ws => (newSuccessResponse "", ws)
    | .error (.numberFormat _) => (newErrorResponse "[money issuance] invalid argument\n", [])
    | .error _ => (newErrorResponse "[money issuance] money issuance failed\n", [])
  | _ => (newErrorResponse "[money issuance] Usage : money_issuance <amount>\n", [])

def deleteAccount (stub : Stub) : Outcome :=
  match stub.parameters with
  | [user] =>
    (newSuccessResponse ("[delete account] " ++ user ++ " successfully deleted~!\n"), [.del user])
  | _ => (newErrorResponse "[delete account] Usage : delete_account <user>\n", [])

def invoke (stub : Stub) : Outcome :=
  match stub.function with
  | "create_account" => createAccount stub
  | "remit" => remit stub
  | "balance_check" => balanceCheck stub
  | "money_issuance" => moneyIssuance stub
  | "delete_account" => deleteAccount stub
  | f => (newErrorResponse ("[Invoke] " ++ f ++ " are not supported\n"), [])

inductive Tx where
  | init
  | invoke (function : String) (parameters : List String)
  deriving DecidableEq, Repr

def Tx.outcome (shim : Shim) (σ : Ledger) : Tx → Outcome
  | .init => Chaincode.init ⟨shim, σ, "init", []⟩
  | .invoke f ps => Chaincode.invoke ⟨shim, σ, f, ps⟩

def applyWrite (σ : Ledger) : Write → Ledger
  | .put k v => σ.insert k v
  | .del k => σ.erase k

/-- Committing a transaction: the writes of a successful one are applied in order, so the last
write to a key wins; a failed one leaves the world state alone. -/
def commit (shim : Shim) (σ : Ledger) (tx : Tx) : Ledger :=
  let out := tx.outcome shim σ
  if out.1.success then out.2.foldl applyWrite σ else σ

def run (shim : Shim) (σ : Ledger) (txs : List Tx) : Ledger := txs.foldl (commit shim) σ

end SimpleAsset.Chaincode
