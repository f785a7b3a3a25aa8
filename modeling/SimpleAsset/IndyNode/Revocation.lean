import Mathlib.Data.Finset.Basic
import Mathlib.Data.List.Dedup
import SimpleAsset.Library.Runs
import SimpleAsset.IndyNode.AuthAction

/-! Entries of revocation registries (`revocation_strategy.py`, `revoc_reg_entry_handler.py`). -/
namespace SimpleAsset.IndyNode
open SimpleAsset.Library

variable {ι : Type}

section Sets

variable [DecidableEq ι]

/-- `set(a).difference(b)`, listed in some order. -/
def setDifference (a b : List ι) : List ι := (a.filter fun i => i ∉ b).dedup

/-- `set(a).intersection(b)`. -/
def setIntersection (a b : List ι) : List ι := (a.filter fun i => i ∈ b).dedup

/-- `a.update(b)`. -/
def setUpdate (a b : List ι) : List ι := a ∪ b

end Sets

/-- The two lists of indices in an entry. -/
inductive ListName
  | issued
  | revoked
  deriving DecidableEq, Repr

def ListName.other : ListName → ListName
  | issued => revoked
  | revoked => issued

/-- `value` of an entry, as its schema `RevocRegEntryValueField` has it. -/
structure EntryValue (ι : Type) where
  prevAccum : Option String
  accum : String
  issued : Option (List ι)
  revoked : Option (List ι)
  deriving DecidableEq, Repr

namespace EntryValue

/-- `value.get(name, [])`. -/
def get (value : EntryValue ι) : ListName → List ι
  | .issued => value.issued.getD []
  | .revoked => value.revoked.getD []

/-- `value[name] = indices`. -/
def set (value : EntryValue ι) (indices : List ι) : ListName → EntryValue ι
  | .issued => { value with issued := some indices }
  | .revoked => { value with revoked := some indices }

@[simp] theorem get_set (value : EntryValue ι) (indices : List ι) (name : ListName) :
    (value.set indices name).get name = indices := by
  cases name <;> rfl

end EntryValue

/-- Reasons for which `InvalidClientRequest` is raised. -/
inductive RevocError (ι : Type)
  | noRevocRegDef (revocRegDefId : String)
  | notAuthorized
  | indexInBothLists
  | noPreviousEntry (prevAccum : String)
  | accumMismatch (currentAccum : String) (prevAccum : Option String)
  | emptyLists
  | equalAccums
  | notPresent (list : ListName) (difference indices : List ι)
  | alreadyPresent (list : ListName) (intersection indices : List ι)
  deriving DecidableEq, Repr

/-- `RevokedStrategy` keeps the revoked indices in the state, `IssuedStrategy` the issued ones;
their code is the same with the lists exchanged. -/
structure Strategy where
  kept : ListName
  deriving DecidableEq, Repr

def revokedStrategy : Strategy := ⟨.revoked⟩

def issuedStrategy : Strategy := ⟨.issued⟩

variable [DecidableEq ι]

namespace Strategy

/-- `specific_validation`. -/
def specificValidation (strategy : Strategy) (current value : EntryValue ι) :
    Except (RevocError ι) Unit :=
  let indices := current.get strategy.kept
  let difference := setDifference (value.get strategy.kept.other) indices
  let intersection := setIntersection indices (value.get strategy.kept)
  if difference ≠ [] then .error (.notPresent strategy.kept.other difference indices)
  else if intersection ≠ [] then .error (.alreadyPresent strategy.kept intersection indices)
  else .ok ()

/-- `RevocationStrategy.validate`. -/
def validate (strategy : Strategy) (currentEntry : Option (EntryValue ι)) (value : EntryValue ι) :
    Except (RevocError ι) Unit :=
  let issued := value.get .issued
  let revoked := value.get .revoked
  if setIntersection issued revoked ≠ [] then .error .indexInBothLists
  else match currentEntry with
    | none =>
      match value.prevAccum with
      | some prevAccum => .error (.noPreviousEntry prevAccum)
      | none => .ok ()
    | some current =>
      if some current.accum ≠ value.prevAccum
        then .error (.accumMismatch current.accum current.prevAccum)
      else if issued = [] ∧ revoked = [] then .error .emptyLists
      else if value.prevAccum = some value.accum ∧
        (issued ≠ [] ∨ revoked ≠ []) then .error .equalAccums
      else strategy.specificValidation current value

/-- What `write` puts in place of the value of a transaction. -/
def writtenValue (strategy : Strategy) (currentEntry : Option (EntryValue ι))
    (value : EntryValue ι) : EntryValue ι :=
  match currentEntry with
  | none => value
  | some current =>
    let difference := setDifference (current.get strategy.kept) (value.get strategy.kept.other)
    let result := setUpdate difference (value.get strategy.kept)
    (value.set [] strategy.kept.other).set result strategy.kept

/-- `get_delta` from an old entry, if there is one: the issued and the revoked indices. -/
def getDelta (strategy : Strategy) (new : EntryValue ι) (old : Option (EntryValue ι)) :
    List ι × List ι :=
  match old with
  | none => (new.get .issued, new.get .revoked)
  | some old =>
    let added := setDifference (new.get strategy.kept) (old.get strategy.kept)
    let removed := setDifference (old.get strategy.kept) (new.get strategy.kept)
    match strategy.kept with
    | .issued => (added, removed)
    | .revoked => (removed, added)

end Strategy

inductive IssuanceType
  | issuanceByDefault
  | issuanceOnDemand
  deriving DecidableEq, Repr

/-- `RevocRegDefHandler.revocation_strategy_map`. -/
def getRevocationStrategy : IssuanceType → Strategy
  | .issuanceByDefault => revokedStrategy
  | .issuanceOnDemand => issuedStrategy

/-- A transaction with an entry; a request has no `seqNo` and `txnTime` yet. -/
structure RevocRegEntryTxn (ι : Type) where
  author : String
  revocRegDefId : String
  revocDefType : String
  value : EntryValue ι
  seqNo : ℕ
  txnTime : ℕ
  deriving DecidableEq, Repr

/-- What is stored of an entry, with its whole value or, in the other record, with the accumulator
only. -/
structure EntryRecord (υ : Type) where
  revocRegDefId : String
  revocDefType : String
  value : υ
  seqNo : ℕ
  txnTime : ℕ
  deriving DecidableEq, Repr

/-- The records of the registries, by the id of the registry: its definition, its entry
(`5:`) and its accumulator (`6:`). -/
structure RevocState (ι : Type) where
  revocDef : String → Option IssuanceType
  entry : String → Option (EntryRecord (EntryValue ι))
  accum : String → Option (EntryRecord String)

section Handler

variable (authorize : RevocRegEntryTxn ι → AuthAction → Bool)

/-- `split(":", 1)[0]`. -/
def beforeColon (id : String) : String := String.ofList (id.toList.takeWhile (· ≠ ':'))

/-- `RevocRegEntryHandler.additional_dynamic_validation`. -/
def additionalDynamicValidation (s : RevocState ι) (txn : RevocRegEntryTxn ι) :
    Except (RevocError ι) Unit :=
  let id := txn.revocRegDefId
  match s.revocDef id with
  | none => .error (.noRevocRegDef id)
  | some type =>
    let isOwner : Bool := beforeColon id = txn.author
    let action := if (s.entry id).isSome then AuthAction.edit "114" "*" "*" "*" isOwner
      else AuthAction.add "114" "*" "*" isOwner
    if authorize txn action then
      (getRevocationStrategy type).validate ((s.entry id).map (·.value)) txn.value
    else .error .notAuthorized

/-- `RevocationStrategy.set_to_state`. -/
def setToState (s : RevocState ι) (txn : RevocRegEntryTxn ι) (value : EntryValue ι) :
    RevocState ι :=
  let id := txn.revocRegDefId
  { s with
    entry := Function.update s.entry id (some ⟨id, txn.revocDefType, value, txn.seqNo, txn.txnTime⟩)
    accum := Function.update s.accum id
      (some ⟨id, txn.revocDefType, value.accum, txn.seqNo, txn.txnTime⟩) }

/-- `RevocRegEntryHandler.update_state`. -/
def updateState (s : RevocState ι) (txn : RevocRegEntryTxn ι) :
    Except (RevocError ι) (RevocState ι) :=
  let id := txn.revocRegDefId
  match s.revocDef id with
  | none => .error (.noRevocRegDef id)
  | some type =>
    .ok (setToState s txn
      ((getRevocationStrategy type).writtenValue ((s.entry id).map (·.value)) txn.value))

/-- A transaction that is validated and applied. -/
def revocStep (s : RevocState ι) (txn : RevocRegEntryTxn ι) :
    Except (RevocError ι) (RevocState ι × List (RevocRegEntryTxn ι)) := do
  additionalDynamicValidation authorize s txn
  let s ← updateState s txn
  return (s, [txn])

end Handler

end SimpleAsset.IndyNode
