import SimpleAsset.Library.Log
import SimpleAsset.IndyNode.Upgrader

/-! The upgrade that a node has scheduled, and the one it schedules after a restart. -/
namespace SimpleAsset.IndyNode
open SimpleAsset.Library

variable {ν δ : Type}

namespace UpgraderConfig

variable (config : UpgraderConfig ν)

/-- What a START with this node in its schedule plans for it. -/
def upgradeFor : ConfigTxn δ → Option (UpgradeLogData ν δ)
  | .other _ => none
  | .poolUpgrade txn =>
    match txn.action with
    | .start schedule => do
      let version ← config.srcVersion (txn.package.getD config.upgradeEntry) txn.version
      let time ← schedule.lookup config.nodeId
      return ⟨time, version, Upgrader.getActionId txn, txn.package.getD config.upgradeEntry⟩
    | .cancel => none

theorem isStart_of_upgradeFor {txn : ConfigTxn δ} {evData : UpgradeLogData ν δ}
    (h : config.upgradeFor txn = some evData) : txn.isStart = true := by
  unfold upgradeFor at h
  cases txn with
  | other seqNo => cases h
  | poolUpgrade txn => cases haction : txn.action <;> simp_all [ConfigTxn.isStart]

variable [DecidableEq ν]

/-- A CANCEL whose version is equal to this one. -/
def cancels (version : ν) : ConfigTxn δ → Bool
  | .other _ => false
  | .poolUpgrade txn =>
    match txn.action with
    | .start _ => false
    | .cancel => config.srcVersion (txn.package.getD config.upgradeEntry) txn.version = some version

/-- The upgrade planned last, unless it was cancelled. -/
def pending (txns : List (ConfigTxn δ)) : Option (UpgradeLogData ν δ) := do
  let (start, rest) ← lastSplit (fun txn => (config.upgradeFor txn).isSome) txns
  let evData ← config.upgradeFor start
  if rest.any (config.cancels evData.version) then none else some evData

theorem pending_concat_of_some {txn : ConfigTxn δ} {evData : UpgradeLogData ν δ}
    (txns : List (ConfigTxn δ))
    (h : config.upgradeFor txn = some evData) : config.pending (txns ++ [txn]) = some evData := by
  simp [pending, lastSplit_concat, h]

theorem pending_concat_of_none {txn : ConfigTxn δ} (txns : List (ConfigTxn δ))
    (h : config.upgradeFor txn = none) :
    config.pending (txns ++ [txn]) =
      (config.pending txns).filter fun evData => !config.cancels evData.version txn := by
  unfold pending
  rw [lastSplit_concat, h]
  rcases lastSplit (fun txn => (config.upgradeFor txn).isSome) txns with _ | ⟨start, rest⟩
  · rfl
  · rcases hstart : config.upgradeFor start with _ | evData
    · simp [hstart]
    · by_cases hrest : rest.any (config.cancels evData.version)
      · simp [hstart, hrest, -List.any_eq_true]
      · by_cases hlast : config.cancels evData.version txn
        · simp [hstart, hrest, hlast, Option.filter_some, -List.any_eq_true]
        · simp [hstart, hrest, hlast, Option.filter_some, -List.any_eq_true]

end UpgraderConfig

variable [DecidableEq ν] [DecidableEq δ] {config : UpgraderConfig ν}

namespace Upgrader

variable {u : Upgrader ν δ} {txn : ConfigTxn δ} {evData : UpgradeLogData ν δ}

/-- No upgrade was performed as far as the log says. -/
def NonePerformed (u : Upgrader ν δ) : Prop := ∀ event ∈ u.actionLog, event.1.finalizing = false

omit [DecidableEq ν] [DecidableEq δ] in
theorem NonePerformed.performed_eq (h : u.NonePerformed) (upgradeId : String) :
    u.performed upgradeId = false := by
  unfold performed
  rcases hlast : u.actionLog.getLast? with _ | event
  · rfl
  · have hevent := h event (List.mem_of_getLast? hlast)
    simp [hevent]

omit [DecidableEq ν] [DecidableEq δ] in
theorem NonePerformed.scheduleUpgrade (h : u.NonePerformed) (evData : UpgradeLogData ν δ)
    (failTimeout : ℕ) :
    (u.scheduleUpgrade evData failTimeout).NonePerformed := by
  intro event hevent
  rcases List.mem_append.mp hevent with hevent | hevent
  · exact h event hevent
  · rw [List.mem_singleton.mp hevent]
    rfl

omit [DecidableEq ν] [DecidableEq δ] in
theorem NonePerformed.cancelScheduledUpgrade (h : u.NonePerformed) :
    u.cancelScheduledUpgrade.NonePerformed := by
  unfold Upgrader.cancelScheduledUpgrade
  rcases u.scheduledAction with _ | evData
  · exact h
  · intro event hevent
    rcases List.mem_append.mp hevent with hevent | hevent
    · exact h event hevent
    · rw [List.mem_singleton.mp hevent]
      rfl

theorem NonePerformed.handleUpgradeTxn (h : u.NonePerformed) (txn : ConfigTxn δ) :
    (u.handleUpgradeTxn config txn).NonePerformed := by
  unfold Upgrader.handleUpgradeTxn
  dsimp only
  split
  · exact h
  · split
    · exact h
    · split
      · split
        · exact h
        · split_ifs
          · exact h
          · split
            · exact h.scheduleUpgrade _ _
            · split_ifs
              · exact h
              · exact h.cancelScheduledUpgrade.scheduleUpgrade _ _
      · split
        · exact h
        · split_ifs
          · exact h.cancelScheduledUpgrade
          · exact h

/-- A START for this node takes the place of what was scheduled. -/
theorem scheduledAction_of_some (h : u.NonePerformed) (htxn : config.upgradeFor txn = some evData) :
    (u.handleUpgradeTxn config txn).scheduledAction = some evData := by
  cases txn with
  | other seqNo => cases htxn
  | poolUpgrade txn =>
    obtain ⟨action, version, package, timeout, force, reqId, seqNo⟩ := txn
    cases action with
    | cancel => cases htxn
    | start schedule =>
      simp only [UpgraderConfig.upgradeFor, Option.bind_eq_bind, Option.bind_eq_some_iff,
        Option.pure_def, Option.some.injEq] at htxn
      obtain ⟨version', hversion, time, htime, rfl⟩ := htxn
      simp only [handleUpgradeTxn, hversion, htime, h.performed_eq, Bool.false_eq_true, if_false]
      rcases hscheduled : u.scheduledAction with _ | scheduled
      · rfl
      · dsimp only
        split_ifs with hsame
        · rw [hscheduled, hsame]
        · rfl

/-- Any other transaction leaves it, or cancels it if the versions are equal. -/
theorem scheduledAction_of_none (htxn : config.upgradeFor txn = none) :
    (u.handleUpgradeTxn config txn).scheduledAction =
      u.scheduledAction.filter fun evData => !config.cancels evData.version txn := by
  have hkeep : u.scheduledAction.filter (fun _ => true) = u.scheduledAction := by
    cases u.scheduledAction <;> rfl
  cases txn with
  | other seqNo => simp [handleUpgradeTxn, UpgraderConfig.cancels, hkeep]
  | poolUpgrade txn =>
    obtain ⟨action, version, package, timeout, force, reqId, seqNo⟩ := txn
    rcases hversion : config.srcVersion (package.getD config.upgradeEntry) version with _ | version'
    · cases action <;> simp [handleUpgradeTxn, hversion, UpgraderConfig.cancels, hkeep]
    · cases action with
      | start schedule =>
        rcases htime : schedule.lookup config.nodeId with _ | time
        · simp [handleUpgradeTxn, hversion, htime, UpgraderConfig.cancels, hkeep]
        · simp [UpgraderConfig.upgradeFor, hversion, htime] at htxn
      | cancel =>
        rcases hscheduled : u.scheduledAction with _ | scheduled
        · simp [handleUpgradeTxn, hversion, hscheduled]
        · by_cases hsame : scheduled.version = version'
          · simp [handleUpgradeTxn, hversion, hscheduled, hsame, cancelScheduledUpgrade,
              UpgraderConfig.cancels, Option.filter_some]
          · simp [handleUpgradeTxn, hversion, hscheduled, hsame, UpgraderConfig.cancels,
              Ne.symm hsame, Option.filter_some]

/-- A node that handles the transactions one by one has the pending upgrade scheduled. -/
theorem foldl_handleUpgradeTxn (txns : List (ConfigTxn δ)) :
    (txns.foldl (Upgrader.handleUpgradeTxn config) (fresh ν δ)).NonePerformed ∧
      (txns.foldl (Upgrader.handleUpgradeTxn config) (fresh ν δ)).scheduledAction =
        config.pending txns := by
  induction txns using List.reverseRecOn with
  | nil => exact ⟨by simp [NonePerformed, fresh], rfl⟩
  | append_singleton txns txn ih =>
    rw [List.foldl_concat]
    refine ⟨ih.1.handleUpgradeTxn txn, ?_⟩
    rcases htxn : config.upgradeFor txn with _ | evData
    · rw [scheduledAction_of_none htxn, ih.2, config.pending_concat_of_none txns htxn]
    · rw [scheduledAction_of_some ih.1 htxn, config.pending_concat_of_some txns htxn]

/-- A restarted node schedules the last START, if it is for this node and no CANCEL with its version
follows. -/
theorem processLedger_scheduledAction (ledger : ConfigLedger δ) :
    ((fresh ν δ).processLedger config ledger).scheduledAction =
      (lastSplit ConfigTxn.isStart ledger.txns).bind fun split =>
        if split.2.any split.1.isCancelOf then none else config.upgradeFor split.1 := by
  have hstart : ledger.getUpgradeTxn ConfigTxn.isStart none true =
      (lastSplit ConfigTxn.isStart ledger.txns).map Prod.fst := by
    rw [ConfigLedger.getUpgradeTxn, if_pos rfl, Option.getD_none, List.take_length, find?_reverse]
  unfold processLedger
  rw [hstart]
  rcases hsplit : lastSplit ConfigTxn.isStart ledger.txns with _ | ⟨start, rest⟩
  · rfl
  · obtain ⟨pre, htxns, -, -⟩ := exists_append_of_lastSplit hsplit
    have hseqNo : start.seqNo = pre.length + 1 := ledger.seqNo_eq pre.length start (by simp [htxns])
    have hrest : ledger.txns.drop (start.seqNo + 1 - 1) = rest := by
      rw [htxns, hseqNo, Nat.add_sub_cancel, List.drop_append, List.drop_of_length_le (by omega)]
      simp
    have hcancel : ledger.getUpgradeTxn start.isCancelOf (some (start.seqNo + 1)) false =
        rest.find? start.isCancelOf := by
      rw [ConfigLedger.getUpgradeTxn, if_neg (by simp), Option.getD_some, hrest]
    simp only [Option.map_some, hcancel, Option.bind_some]
    rcases hfind : rest.find? start.isCancelOf with _ | cancel
    · have hany : rest.any start.isCancelOf = false := by
        simpa using hfind
      rw [hany]
      have hfresh : (fresh ν δ).NonePerformed := by simp [NonePerformed, fresh]
      rcases hfor : config.upgradeFor start with _ | evData
      · exact scheduledAction_of_none hfor
      · exact scheduledAction_of_some hfresh hfor
    · have hany : rest.any start.isCancelOf = true := by
        rw [List.any_eq_true]
        exact ⟨cancel, List.mem_of_find?_eq_some hfind, List.find?_some hfind⟩
      rw [hany]
      rfl

end Upgrader

/-- Whether the last START tells what is pending: if it is for this node, the CANCELs after it have
its version in the same letters whenever they have it at all; if it leaves the node out, the last
one that does not was cancelled. -/
def LastStartDecides (config : UpgraderConfig ν) (txns : List (ConfigTxn δ)) : Prop :=
  match lastSplit ConfigTxn.isStart txns with
  | none => True
  | some (start, rest) =>
    match config.upgradeFor start with
    | some evData => (∃ txn ∈ rest, start.isCancelOf txn = true) ↔
        ∃ txn ∈ rest, config.cancels evData.version txn = true
    | none =>
      match lastSplit (fun txn => (config.upgradeFor txn).isSome) txns with
      | none => True
      | some (start, rest) =>
        ∀ evData, config.upgradeFor start = some evData →
          ∃ txn ∈ rest, config.cancels evData.version txn = true

/-- A restarted node schedules the same upgrade as a node that kept running exactly when the last
START decides. -/
theorem restart_schedules_same_iff (config : UpgraderConfig ν) (ledger : ConfigLedger δ) :
    ((Upgrader.fresh ν δ).processLedger config ledger).scheduledAction =
        (ledger.txns.foldl (Upgrader.handleUpgradeTxn config)
          (Upgrader.fresh ν δ)).scheduledAction ↔
      LastStartDecides config ledger.txns := by
  rw [Upgrader.processLedger_scheduledAction, (Upgrader.foldl_handleUpgradeTxn ledger.txns).2,
    LastStartDecides]
  rcases hsplit : lastSplit ConfigTxn.isStart ledger.txns with _ | ⟨start, rest⟩
  · -- Without a START nothing was ever planned.
    have hnone : lastSplit (fun txn => (config.upgradeFor txn).isSome) ledger.txns = none := by
      rw [lastSplit_eq_none_iff] at hsplit ⊢
      intro txn htxn
      rcases hfor : config.upgradeFor txn with _ | evData
      · rfl
      · simpa [config.isStart_of_upgradeFor hfor] using hsplit txn htxn
    simp [UpgraderConfig.pending, hnone]
  · obtain ⟨pre, htxns, -, hlater⟩ := exists_append_of_lastSplit hsplit
    rcases hfor : config.upgradeFor start with _ | evData
    · simp only [Option.bind_some, hfor, ite_self]
      rcases hlast : lastSplit (fun txn => (config.upgradeFor txn).isSome) ledger.txns
        with _ | ⟨start', rest'⟩
      · simp [UpgraderConfig.pending, hlast]
      · rcases hfor' : config.upgradeFor start' with _ | evData'
        · simp [UpgraderConfig.pending, hlast, hfor']
        · by_cases hcancelled : ∃ txn ∈ rest', config.cancels evData'.version txn = true
          · simp [UpgraderConfig.pending, hlast, hfor', hcancelled]
          · simp [UpgraderConfig.pending, hlast, hfor', hcancelled]
    · have hlast : lastSplit (fun txn => (config.upgradeFor txn).isSome) ledger.txns = some
          (start, rest) := by
        rw [htxns]
        apply lastSplit_append_cons
        · simp [hfor]
        · intro txn htxn
          rcases hfor' : config.upgradeFor txn with _ | evData'
          · rfl
          · simpa [config.isStart_of_upgradeFor hfor'] using hlater txn htxn
      simp only [Option.bind_some, hfor, UpgraderConfig.pending, hlast, Option.bind_eq_bind]
      by_cases htext : ∃ txn ∈ rest, start.isCancelOf txn = true
      · by_cases hversion : ∃ txn ∈ rest, config.cancels evData.version txn = true
        · simp [htext, hversion]
        · simp [htext, hversion]
      · by_cases hversion : ∃ txn ∈ rest, config.cancels evData.version txn = true
        · simp [htext, hversion]
        · simp [htext, hversion]

/-- A node whose versions are told apart by their letters. -/
def sampleUpgraderConfig : UpgraderConfig String :=
  ⟨"Gw6pDLhcBcoQesN72qfotTgFa7cbuqZpkX3Xo6pLhPhv", "indy-node", fun _ version => some version⟩

/-- An upgrade of all nodes, and a forced one of another node. -/
def sampleUpgrades : ConfigLedger ℕ where
  txns :=
    [.poolUpgrade ⟨.start [("Gw6pDLhcBcoQesN72qfotTgFa7cbuqZpkX3Xo6pLhPhv", 9000),
        ("8ECVSk179mjsjKRLWiQtssMLgp6EPhWXtaYyStWPSGAb", 9300)], "1.13.0", none, none,
          false, 101, 1⟩,
      .poolUpgrade ⟨.start [("8ECVSk179mjsjKRLWiQtssMLgp6EPhWXtaYyStWPSGAb", 8000)], "1.13.1", none,
        none, true, 102, 2⟩]
  seqNo_eq := by
    intro i txn h
    match i with
    | 0 => cases h; rfl
    | 1 => cases h; rfl
    | i + 2 => simp at h

/-- After a restart the node forgets the upgrade it had scheduled. -/
theorem restart_forgets_upgrade : ¬ ∀ (config : UpgraderConfig String) (ledger : ConfigLedger ℕ),
    ((Upgrader.fresh String ℕ).processLedger config ledger).scheduledAction =
      (ledger.txns.foldl (Upgrader.handleUpgradeTxn config)
        (Upgrader.fresh String ℕ)).scheduledAction := by
  intro h
  have hrestart : ((Upgrader.fresh String ℕ).processLedger sampleUpgraderConfig
      sampleUpgrades).scheduledAction =
      none := by
    decide
  have hlive : (sampleUpgrades.txns.foldl (Upgrader.handleUpgradeTxn sampleUpgraderConfig)
      (Upgrader.fresh String ℕ)).scheduledAction = some ⟨9000, "1.13.0", "1011", "indy-node"⟩ := by
    decide
  have heq := h sampleUpgraderConfig sampleUpgrades
  rw [hrestart, hlive] at heq
  cases heq

end SimpleAsset.IndyNode
