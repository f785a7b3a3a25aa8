import Mathlib.Data.Nat.Notation
import SimpleAsset.Indy.Primitive

/-! Scheduling of pool upgrades on a node (`upgrader.py`, `node_maintainer.py`,
`upgrade_log.py`). -/
namespace SimpleAsset.IndyNode
open SimpleAsset.Indy

/-- `UpgradeLogData`; versions and times are what `==` tells apart. -/
structure UpgradeLogData (ν δ : Type) where
  time : δ
  version : ν
  upgradeId : String
  pkgName : String
  deriving DecidableEq, Repr

inductive ActionLogEvents
  | scheduled
  | started
  | succeeded
  | failed
  | cancelled
  deriving DecidableEq, Repr

/-- `FINALIZING_EVENT_TYPES`. -/
def ActionLogEvents.finalizing : ActionLogEvents → Bool
  | succeeded | failed => true
  | scheduled | started | cancelled => false

/-- `action` of a POOL_UPGRADE, with the times of a START by the ids of the nodes. They parse, as
`isScheduleValid` makes sure. -/
inductive UpgradeAction (δ : Type)
  | start (schedule : List (String × δ))
  | cancel
  deriving DecidableEq, Repr

/-- A POOL_UPGRADE transaction. -/
structure PoolUpgrade (δ : Type) where
  action : UpgradeAction δ
  version : String
  package : Option String
  timeout : Option ℕ
  force : Bool
  reqId : ℕ
  seqNo : ℕ
  deriving DecidableEq, Repr

/-- A transaction on the config ledger. -/
inductive ConfigTxn (δ : Type)
  | poolUpgrade (txn : PoolUpgrade δ)
  | other (seqNo : ℕ)
  deriving DecidableEq, Repr

namespace ConfigTxn

variable {δ : Type}

def seqNo : ConfigTxn δ → ℕ
  | poolUpgrade txn => txn.seqNo
  | other seqNo => seqNo

/-- `get_type(txn) == POOL_UPGRADE and get_payload_data(txn)[ACTION] == START`. -/
def isStart : ConfigTxn δ → Bool
  | poolUpgrade txn => match txn.action with
    | .start _ => true
    | .cancel => false
  | other _ => false

/-- A CANCEL with the `version` of another transaction, letter by letter. -/
def isCancelOf (start : ConfigTxn δ) : ConfigTxn δ → Bool
  | poolUpgrade txn => match txn.action, start with
    | .cancel, poolUpgrade start => txn.version = start.version
    | _, _ => false
  | other _ => false

end ConfigTxn

/-- The config ledger; the transactions are numbered from 1. -/
structure ConfigLedger (δ : Type) where
  txns : List (ConfigTxn δ)
  seqNo_eq : ∀ i txn, txns[i]? = some txn → txn.seqNo = i + 1

/-- `get_upgrade_txn`, from `start_no` on or from there back to the first transaction. -/
def ConfigLedger.getUpgradeTxn {δ : Type} (ledger : ConfigLedger δ) (predicate : ConfigTxn δ → Bool)
    (startNo : Option ℕ) (reverse : Bool) : Option (ConfigTxn δ) :=
  if reverse then (ledger.txns.take (startNo.getD ledger.txns.length)).reverse.find? predicate
  else (ledger.txns.drop (startNo.getD 1 - 1)).find? predicate

/-- What the upgrader of a node knows from its start: its id, the package that is upgraded if a
transaction names none, and `src_version_cls(pkg_name)(version)`, which fails on an invalid
version. -/
structure UpgraderConfig (ν : Type) where
  nodeId : String
  upgradeEntry : String
  srcVersion (pkgName version : String) : Option ν

/-- The upgrader, with the actions that wait for their time. -/
structure Upgrader (ν δ : Type) where
  scheduledAction : Option (UpgradeLogData ν δ)
  actionLog : List (ActionLogEvents × UpgradeLogData ν δ)
  aqStash : List (UpgradeLogData ν δ × ℕ)

/-- A new upgrader with an empty log. -/
def Upgrader.fresh (ν δ : Type) : Upgrader ν δ := ⟨none, [], []⟩

namespace Upgrader

variable {ν δ : Type}

/-- `_scheduleUpgrade`, with a time to come. -/
def scheduleUpgrade (u : Upgrader ν δ) (evData : UpgradeLogData ν δ) (failTimeout : ℕ) :
    Upgrader ν δ :=
  { scheduledAction := some evData
    actionLog := u.actionLog ++ [(.scheduled, evData)]
    aqStash := u.aqStash ++ [(evData, failTimeout)] }

/-- `_cancelScheduledUpgrade`. -/
def cancelScheduledUpgrade (u : Upgrader ν δ) : Upgrader ν δ :=
  match u.scheduledAction with
  | none => u
  | some evData =>
    { scheduledAction := none, actionLog := u.actionLog ++ [(.cancelled, evData)], aqStash := [] }

/-- Whether the last event says that this upgrade was performed. -/
def performed (u : Upgrader ν δ) (upgradeId : String) : Bool :=
  u.actionLog.getLast?.any fun event => event.2.upgradeId = upgradeId && event.1.finalizing

def defaultActionTimeout : ℕ := 10

/-- `get_action_id`. -/
def getActionId (txn : PoolUpgrade δ) : String :=
  u64ToString txn.reqId ++ if txn.force then "" else u64ToString txn.seqNo

variable [DecidableEq ν] [DecidableEq δ] (config : UpgraderConfig ν)

/-- `handleUpgradeTxn`. -/
def handleUpgradeTxn (u : Upgrader ν δ) : ConfigTxn δ → Upgrader ν δ
  | .other _ => u
  | .poolUpgrade txn =>
    let pkgName := txn.package.getD config.upgradeEntry
    let upgradeId := getActionId txn
    match config.srcVersion pkgName txn.version with
    | none => u
    | some version =>
      match txn.action with
      | .start schedule =>
        match schedule.lookup config.nodeId with
        | none => u
        | some time =>
          if u.performed upgradeId then u
          else
            let failTimeout := txn.timeout.getD defaultActionTimeout
            let newEvData := ⟨time, version, upgradeId, pkgName⟩
            match u.scheduledAction with
            | none => u.scheduleUpgrade newEvData failTimeout
            | some scheduled =>
              if scheduled = newEvData then u
              else u.cancelScheduledUpgrade.scheduleUpgrade newEvData failTimeout
      | .cancel =>
        match u.scheduledAction with
        | none => u
        | some scheduled => if scheduled.version = version then u.cancelScheduledUpgrade else u

/-- `processLedger`. -/
def processLedger (u : Upgrader ν δ) (ledger : ConfigLedger δ) : Upgrader ν δ :=
  match ledger.getUpgradeTxn ConfigTxn.isStart none true with
  | none => u
  | some start =>
    match ledger.getUpgradeTxn start.isCancelOf (some (start.seqNo + 1)) false with
    | some _ => u
    | none => u.handleUpgradeTxn config start

end Upgrader

end SimpleAsset.IndyNode
