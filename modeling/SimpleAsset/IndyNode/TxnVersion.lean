import Mathlib.Data.Set.Card
import Mathlib.Data.String.Basic
import SimpleAsset.Library.SortedDict
import SimpleAsset.Library.Table

/-! The version that a pool had at a time (`txn_version_controller.py`). -/
namespace SimpleAsset.IndyNode
open SimpleAsset.Library

/-- What `update_version` reads of a transaction on the config ledger, but for its time. -/
inductive VersionPayload
  /-- The schedule of a POOL_UPGRADE with START. -/
  | start (schedule : List (String × String))
  /-- A NODE_UPGRADE, and whether its action is COMPLETE. -/
  | nodeUpgrade (complete : Bool) (version : String) (sender : String)
  | other
  deriving DecidableEq, Repr

structure VersionTxn where
  time : ℕ
  payload : VersionPayload
  deriving DecidableEq, Repr

structure TxnVersionController where
  versions : SortedDict ℕ String
  f : ℤ
  votesForNewVersion : Table String (Finset String)

namespace TxnVersionController

def new : TxnVersionController := ⟨.empty, 0, ∅⟩

/-- `version`. -/
def version (c : TxnVersionController) : Option String := c.versions.last

/-- The loop of `get_pool_version`. -/
def versionUpTo (timestamp : ℕ) (lastVersion : Option String) : List (ℕ × String) → Option String
  | [] => lastVersion
  | (upgradeTm, version) :: rest =>
    if timestamp < upgradeTm then lastVersion else versionUpTo timestamp (some version) rest

def getPoolVersion (c : TxnVersionController) : Option ℕ → Option String
  | none => c.version
  | some timestamp => versionUpTo timestamp none c.versions.entries

/-- The votes for a version. -/
def voters (c : TxnVersionController) (version : String) : Finset String :=
  (c.votesForNewVersion.lookup version).getD ∅

def updateVersion (c : TxnVersionController) (txn : VersionTxn) : TxnVersionController :=
  match txn.payload with
  | .start schedule => { c with f := (schedule.length - 1) / 3 }
  | .nodeUpgrade true version sender =>
    let senders := insert sender (c.voters version)
    let votes : Table String (Finset String) := c.votesForNewVersion.insert version senders
    if c.f < senders.card then
      { c with versions := c.versions.set txn.time version, votesForNewVersion :=
        Table.filter (fun v _ => version < v) votes }
    else { c with votesForNewVersion := votes }
  | .nodeUpgrade false _ _ | .other => c

end TxnVersionController

/-- The controller after these transactions. -/
def afterVersionTxns (txns : List VersionTxn) : TxnVersionController :=
  txns.foldl TxnVersionController.updateVersion .new

section Times
variable {c : TxnVersionController} {txn : VersionTxn} {txns : List VersionTxn} {timestamp : ℕ}

namespace TxnVersionController

theorem versionUpTo_eq (timestamp : ℕ) (lastVersion : Option String) (entries : List (ℕ × String)) :
    versionUpTo timestamp lastVersion entries =
      ((entries.takeWhile fun e => e.1 ≤ timestamp).getLast?.map Prod.snd).or lastVersion := by
  induction entries generalizing lastVersion with
  | nil => rfl
  | cons e rest ih =>
    obtain ⟨upgradeTm, version⟩ := e
    rw [versionUpTo]
    split_ifs with hlater
    · rw [List.takeWhile_cons_of_neg (by simpa using hlater), List.getLast?_nil, Option.map_none,
        Option.none_or]
    · rw [ih, List.takeWhile_cons_of_pos (by simpa using hlater), List.getLast?_cons,
        Option.map_some, Option.some_or]
      cases (rest.takeWhile fun e => e.1 ≤ timestamp).getLast? <;> rfl

theorem getPoolVersion_some (c : TxnVersionController) (timestamp : ℕ) :
    c.getPoolVersion (some timestamp) = c.versions.upTo timestamp := by
  rw [getPoolVersion, versionUpTo_eq, Option.or_none, SortedDict.upTo]

/-- A transaction does not touch the versions, or sets the one of its time. -/
theorem updateVersion_versions (c : TxnVersionController) (txn : VersionTxn) :
    (c.updateVersion txn).versions = c.versions ∨
      ∃ version, (c.updateVersion txn).versions = c.versions.set txn.time version := by
  obtain ⟨time, schedule | ⟨_ | _, version, sender⟩ | _⟩ := txn
  · exact Or.inl rfl
  · exact Or.inl rfl
  · dsimp only [updateVersion]
    split_ifs
    · exact Or.inr ⟨version, rfl⟩
    · exact Or.inl rfl
  · exact Or.inl rfl

end TxnVersionController

theorem time_le_of_mem_versions (h : ∀ txn ∈ txns, txn.time ≤ timestamp) :
    ∀ e ∈ (afterVersionTxns txns).versions.entries, e.1 ≤ timestamp := by
  induction txns using List.reverseRecOn with
  | nil =>
    intro e he
    cases he
  | append_singleton txns txn ih =>
    have hbefore := ih fun txn' htxn => h txn' (List.mem_append_left _ htxn)
    rw [afterVersionTxns, List.foldl_concat, ← afterVersionTxns]
    rcases TxnVersionController.updateVersion_versions
      (afterVersionTxns txns) txn with hsame | ⟨version, hset⟩
    · rwa [hsame]
    · rw [hset]
      intro e he
      rcases SortedDict.mem_set he with rfl | he
      · exact h txn (List.mem_append_right _ (List.mem_singleton_self _))
      · exact hbefore e he

theorem upTo_of_later (h : ∀ txn ∈ txns, timestamp < txn.time) (c : TxnVersionController) :
    (txns.foldl TxnVersionController.updateVersion c).versions.upTo timestamp =
      c.versions.upTo timestamp := by
  induction txns generalizing c with
  | nil => rfl
  | cons txn txns ih =>
    rw [List.foldl_cons, ih fun txn' htxn => h txn' (List.mem_cons_of_mem _ htxn)]
    rcases c.updateVersion_versions txn with hsame | ⟨version, hset⟩
    · rw [hsame]
    · rw [hset, SortedDict.upTo_set_of_lt (h txn List.mem_cons_self)]

/-- Transactions in the order of their times, cut at a time. -/
theorem filter_append_filter_of_ordered (h : txns.Pairwise fun x y => x.time ≤ y.time)
    (timestamp : ℕ) :
    txns.filter (fun txn => txn.time ≤ timestamp) ++
    txns.filter (fun txn => timestamp < txn.time) = txns := by
  induction txns with
  | nil => rfl
  | cons txn txns ih =>
    obtain ⟨hfirst, hrest⟩ := List.pairwise_cons.mp h
    by_cases hle : txn.time ≤ timestamp
    · rw [List.filter_cons_of_pos (by simpa using hle),
        List.filter_cons_of_neg (by simpa using hle), List.cons_append, ih hrest]
    · have hnone : txns.filter (fun txn => txn.time ≤ timestamp) = [] := by
        rw [List.filter_eq_nil_iff]
        intro txn' htxn
        have hlater := hfirst txn' htxn
        simp only [decide_eq_true_eq]
        omega
      have hall : txns.filter (fun txn => timestamp < txn.time) = txns := by
        rw [List.filter_eq_self]
        intro txn' htxn
        have hlater := hfirst txn' htxn
        simp only [decide_eq_true_eq]
        omega
      rw [List.filter_cons_of_neg (by simpa using hle),
        List.filter_cons_of_pos (by simpa using hle), hnone, hall, List.nil_append]

/-- The version at a time is the one that the pool had before any later transaction. -/
theorem getPoolVersion_eq_version_then (txns : List VersionTxn)
    (hordered : txns.Pairwise fun x y => x.time ≤ y.time) (timestamp : ℕ) :
    (afterVersionTxns txns).getPoolVersion (some timestamp) =
      (afterVersionTxns (txns.filter fun txn => txn.time ≤ timestamp)).version := by
  have hearlier : ∀ txn ∈ txns.filter (fun txn => txn.time ≤ timestamp), txn.time ≤ timestamp := by
    intro txn htxn
    simpa using (List.mem_filter.mp htxn).2
  have hlater : ∀ txn ∈ txns.filter (fun txn => timestamp < txn.time), timestamp < txn.time := by
    intro txn htxn
    simpa using (List.mem_filter.mp htxn).2
  rw [TxnVersionController.getPoolVersion_some, TxnVersionController.version,
    ← SortedDict.upTo_of_forall_le (time_le_of_mem_versions hearlier)]
  conv_lhs => rw [← filter_append_filter_of_ordered hordered timestamp]
  rw [afterVersionTxns, List.foldl_append, upTo_of_later hlater, ← afterVersionTxns]

/-- Four nodes, of which one may be faulty: two reports make a version, at the times 20 and 40. -/
def upgradeTxns : List VersionTxn :=
  [⟨0, .start [("A", ""), ("B", ""), ("C", ""), ("D", "")]⟩, ⟨10, .nodeUpgrade true "1.2.0" "A"⟩,
    ⟨20, .nodeUpgrade true "1.2.0" "B"⟩, ⟨30, .nodeUpgrade true "1.3.0" "C"⟩,
    ⟨40, .nodeUpgrade true "1.3.0" "B"⟩]

theorem getPoolVersion_eq_version_then_upgrade :
    (afterVersionTxns upgradeTxns).getPoolVersion (some 35) =
      (afterVersionTxns (upgradeTxns.filter fun txn => txn.time ≤ 35)).version ∧
    (afterVersionTxns upgradeTxns).getPoolVersion (some 35) = some "1.2.0" ∧
    (afterVersionTxns upgradeTxns).version = some "1.3.0" :=
  ⟨getPoolVersion_eq_version_then upgradeTxns (by decide) 35, by decide, by decide⟩

end Times

section Quorums
variable {txns : List VersionTxn} {txn : VersionTxn} {version sender : String}

/-- The version that a transaction makes the one of the pool, if it does. -/
def TxnVersionController.accepts (c : TxnVersionController) (txn : VersionTxn) : Option String :=
  match txn.payload with
  | .nodeUpgrade true version sender =>
    if c.f < (insert sender (c.voters version)).card then some version else none
  | .nodeUpgrade false _ _ | .start _ | .other => none

/-- The faults that the last upgrade of the pool tolerates. -/
def faultsOf (txns : List VersionTxn) : ℤ :=
  (txns.reverse.findSome? fun txn =>
    match txn.payload with
    | .start schedule => some (((schedule.length : ℤ) - 1) / 3)
    | .nodeUpgrade _ _ _ | .other => none).getD 0

/-- A node reported that its upgrade to the version is complete, and no version that is not smaller
was accepted since. -/
def Voted (txns : List VersionTxn) (version sender : String) : Prop :=
  ∃ pre txn post, txns = pre ++ txn :: post ∧ txn.payload = .nodeUpgrade true version sender ∧
    ∀ mid txn' rest, txn :: post = mid ++ txn' :: rest →
      ∀ accepted, (afterVersionTxns (pre ++ mid)).accepts txn' = some accepted → accepted < version

theorem afterVersionTxns_concat (txns : List VersionTxn) (txn : VersionTxn) :
    afterVersionTxns (txns ++ [txn]) = (afterVersionTxns txns).updateVersion txn :=
  List.foldl_concat ..

theorem f_eq_faultsOf (txns : List VersionTxn) : (afterVersionTxns txns).f = faultsOf txns := by
  induction txns using List.reverseRecOn with
  | nil => rfl
  | append_singleton txns txn ih =>
    rw [afterVersionTxns_concat, faultsOf, List.reverse_append, List.reverse_singleton,
      List.singleton_append, List.findSome?_cons]
    obtain ⟨time, schedule | ⟨_ | _, version, sender⟩ | _⟩ := txn
    · rfl
    · exact ih
    · dsimp only [TxnVersionController.updateVersion]
      split_ifs
      · exact ih
      · exact ih
    · exact ih

theorem voted_concat_iff : Voted (txns ++ [txn]) version sender ↔
    (Voted txns version sender ∨ txn.payload = .nodeUpgrade true version sender) ∧
      ∀ accepted, (afterVersionTxns txns).accepts txn = some accepted → accepted < version := by
  constructor
  · rintro ⟨pre, voting, post, hsplit, hpayload, hsince⟩
    rcases List.eq_nil_or_concat' post with rfl | ⟨post, last, rfl⟩
    · obtain ⟨rfl, hvoting⟩ := List.append_inj' hsplit rfl
      obtain rfl : txn = voting := List.singleton_injective hvoting
      refine ⟨Or.inr hpayload, ?_⟩
      have hnow := hsince [] txn [] rfl
      rwa [List.append_nil] at hnow
    · rw [← List.cons_append, ← List.append_assoc] at hsplit
      obtain ⟨rfl, hlast⟩ := List.append_inj' hsplit rfl
      obtain rfl : txn = last := List.singleton_injective hlast
      refine ⟨Or.inl ⟨pre, voting, post, rfl, hpayload, ?_⟩, hsince (voting :: post) txn [] rfl⟩
      intro mid txn' rest hmid
      apply hsince mid txn' (rest ++ [txn])
      rw [← List.cons_append, hmid, List.append_assoc, List.cons_append]
  · rintro ⟨⟨pre, voting, post, rfl, hpayload, hsince⟩ | hpayload, hlast⟩
    · refine ⟨pre, voting, post ++ [txn], by rw [List.append_assoc, List.cons_append], hpayload, ?_⟩
      intro mid txn' rest hmid
      rcases List.eq_nil_or_concat' rest with rfl | ⟨rest, end_, rfl⟩
      · have hends : voting :: post ++ [txn] = mid ++ [txn'] := hmid
        obtain ⟨rfl, htxn⟩ := List.append_inj' hends rfl
        obtain rfl : txn = txn' := List.singleton_injective htxn
        exact hlast
      · rw [← List.cons_append, ← List.cons_append, ← List.append_assoc] at hmid
        obtain ⟨hbefore, -⟩ := List.append_inj' hmid rfl
        exact hsince mid txn' rest hbefore
    · refine ⟨txns, txn, [], rfl, hpayload, ?_⟩
      intro mid txn' rest hmid
      rcases mid with _ | ⟨_, mid⟩
      · obtain ⟨rfl, -⟩ := List.cons.inj hmid
        rwa [List.append_nil]
      · have hlength := congrArg List.length hmid
        simp at hlength

theorem TxnVersionController.mem_voters_updateVersion_iff (c : TxnVersionController)
    (txn : VersionTxn) (version sender : String) : sender ∈ (c.updateVersion txn).voters version ↔
      (sender ∈ c.voters version ∨ txn.payload = .nodeUpgrade true version sender) ∧
        ∀ accepted, c.accepts txn = some accepted → accepted < version := by
  obtain ⟨time, schedule | ⟨_ | _, reported, reporter⟩ | _⟩ := txn
  · simp [updateVersion, accepts, voters]
  · simp [updateVersion, accepts]
  · have hinserted : ∀ other : String, ((c.votesForNewVersion.insert reported
        (insert reporter (c.voters reported))).lookup other).getD ∅ =
          if other = reported then insert reporter (c.voters reported) else c.voters other := by
      intro other
      rw [Table.lookup_insert_ite]
      split_ifs <;> rfl
    have hvotes : sender ∈ ((c.votesForNewVersion.insert reported
        (insert reporter (c.voters reported))).lookup version).getD ∅ ↔
          sender ∈ c.voters version ∨
            VersionPayload.nodeUpgrade true reported reporter =
            .nodeUpgrade true version sender := by
      rw [hinserted]
      split_ifs with hversion
      · subst hversion
        simp [eq_comm, or_comm]
      · simp [Ne.symm hversion]
    simp only [updateVersion, accepts]
    split_ifs with hquorum
    · rw [← hvotes]
      simp only [voters, Table.lookup_filter, Option.some.injEq, forall_eq']
      -- Votes for versions that are not greater than the accepted one are dropped.
      by_cases hlater : reported < version
      · have hkept : ∀ senders : Option (Finset String),
            senders.filter (fun _ => decide (reported < version)) = senders := by
          rintro (_ | senders) <;> simp [hlater]
        rw [hkept]
        exact (and_iff_left hlater).symm
      · have hdropped : ∀ senders : Option (Finset String),
            senders.filter (fun _ => decide (reported < version)) = none := by
          rintro (_ | senders) <;> simp [hlater]
        rw [hdropped]
        simp [hlater]
    · simpa [voters] using hvotes
  · simp [updateVersion, accepts]

/-- The votes that the controller keeps are the ones that stand. -/
theorem mem_voters_iff (txns : List VersionTxn) (version sender : String) :
    sender ∈ (afterVersionTxns txns).voters version ↔ Voted txns version sender := by
  induction txns using List.reverseRecOn generalizing version sender with
  | nil =>
    constructor
    · intro h
      cases h
    · rintro ⟨pre, voting, post, hsplit, -⟩
      cases pre <;> cases hsplit
  | append_singleton txns txn ih =>
    rw [voted_concat_iff, ← ih, afterVersionTxns_concat,
      TxnVersionController.mem_voters_updateVersion_iff]

/-- A report that an upgrade is complete makes its version the one of the pool exactly when more
nodes have voted for it than the last upgrade of the pool tolerates faults. -/
theorem version_of_report (txns : List VersionTxn) (time : ℕ) (version sender : String)
    (htime : ∀ txn ∈ txns, txn.time ≤ time) :
    (afterVersionTxns (txns ++ [⟨time, .nodeUpgrade true version sender⟩])).version =
      if faultsOf txns < ({sender' | sender' = sender ∨ Voted txns version sender'} :
        Set String).ncard then some version
      else (afterVersionTxns txns).version := by
  have hvoters : {sender' | sender' = sender ∨ Voted txns version sender'} =
      (↑(insert sender ((afterVersionTxns txns).voters version)) : Set String) := by
    ext sender'
    rw [Finset.mem_coe, Finset.mem_insert, mem_voters_iff, Set.mem_ofPred_eq]
  rw [hvoters, Set.ncard_coe_finset, ← f_eq_faultsOf, afterVersionTxns_concat]
  dsimp only [TxnVersionController.updateVersion]
  split_ifs
  · exact SortedDict.last_set (time_le_of_mem_versions htime) version
  · rfl

theorem version_of_report_upgrade :
    (afterVersionTxns (upgradeTxns ++ [⟨50, .nodeUpgrade true "1.2.0" "C"⟩])).version =
      if faultsOf upgradeTxns <
        ({sender' | sender' = "C" ∨ Voted upgradeTxns "1.2.0" sender'} : Set String).ncard then
        some "1.2.0"
      else (afterVersionTxns upgradeTxns).version :=
  version_of_report upgradeTxns 50 "1.2.0" "C" (by decide)

end Quorums

end SimpleAsset.IndyNode
