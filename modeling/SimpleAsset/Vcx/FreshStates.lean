import Mathlib.Order.Bounds.Basic
import SimpleAsset.Library.Runs
import SimpleAsset.Vcx.DisclosedProof

/-! When cached revocation states are as good as fresh ones. -/
namespace SimpleAsset.Vcx
open SimpleAsset.Library

/-- The ledger's history of the registries: when each one has an entry, and the deltas between two
times. -/
structure RegistryHistory where
  entries (revRegId : String) : Set ℕ
  revRegDefJson (revRegId : String) : String
  revRegDeltaJson (revRegId : String) (fromTime : Option ℕ) (toTime : ℕ) : String

/-- The last entry not after the given end, at a time where only the entries up to then exist. -/
def RegistryHistory.LastEntry (history : RegistryHistory) (now : ℕ) (revRegId : String)
    (toTime : Option ℕ) : ℕ → Prop :=
  IsGreatest {t | t ∈ history.entries revRegId ∧ t ≤ toTime.getD now ∧ t ≤ now}

variable {Value : Type}

/-- What is relied on: a delta reaches up to the last entry, and updating a state of an index with
the delta from its time on gives what would be created for that index. -/
structure RevocationCalls.Faithful (calls : RevocationCalls Value)
    (history : RegistryHistory) : Prop where
  revRegDef : ∀ revRegId r, calls.getRevRegDefJson revRegId = .ok r →
    r.2 = history.revRegDefJson revRegId
  revRegDelta : ∀ now revRegId fromTime toTime r,
    calls.getRevRegDeltaJson now revRegId fromTime toTime = .ok r →
    r.1 = revRegId ∧ history.LastEntry now revRegId toTime r.2.2 ∧
      r.2.1 = history.revRegDeltaJson revRegId fromTime r.2.2
  update : ∀ revRegId credRevId tailsFile tailsFile' t t' value value',
    t ∈ history.entries revRegId → t' ∈ history.entries revRegId → t ≤ t' →
    calls.proverCreateRevocationState (history.revRegDefJson revRegId)
    (history.revRegDeltaJson revRegId none t)
      credRevId tailsFile = .ok value →
    calls.proverUpdateRevocationState (history.revRegDefJson revRegId) value
      (history.revRegDeltaJson revRegId (some t) t') credRevId tailsFile' = .ok value' →
    calls.proverCreateRevocationState (history.revRegDefJson revRegId)
      (history.revRegDeltaJson revRegId none t') credRevId tailsFile' = .ok value'

section Fresh
variable (calls : RevocationCalls Value) (history : RegistryHistory)

/-- The state that is created for the index from the registry as it is at the time of the state. -/
def StateAt (revRegId credRevId : String) (state : RevState) : Prop :=
  state.timestamp ∈ history.entries revRegId ∧ ∃ tailsFile,
    calls.proverCreateRevocationState (history.revRegDefJson revRegId)
      (history.revRegDeltaJson revRegId none state.timestamp) credRevId tailsFile = .ok state.value

/-- The JSON value of that state. -/
def ValueAt (revRegId credRevId : String) (t : ℕ) (value : Value) : Prop :=
  ∃ text, StateAt calls history revRegId credRevId ⟨t, text⟩ ∧ calls.fromStr text = .ok value

/-- The info carries a time that is not too late, under which there is the state of its own index at
that time. -/
def Fresh (rtn : RevStates Value) (credInfo : CredInfo) : Prop :=
  ∀ revRegId credRevId tailsFile, credInfo.revocable = some (revRegId, credRevId, tailsFile) →
    ∃ t value, credInfo.timestamp = some t ∧
      (∀ toTime, credInfo.toTime = some toTime → t ≤ toTime) ∧
      rtn.lookup revRegId = some (t, value) ∧ ValueAt calls history revRegId credRevId t value

def AllFresh (out : List (RevStatesResult Value)) : Prop :=
  ∀ rtn infos, .ok (rtn, infos) ∈ out → ∀ credInfo ∈ infos, Fresh calls history rtn credInfo

end Fresh

section Condition
variable (history : RegistryHistory) (owner : String → String)

/-- The first info with this registry. -/
def leader (infos : List CredInfo) (revRegId : String) : Option CredInfo :=
  infos.find? fun credInfo => credInfo.revocable.map Prod.fst = some revRegId

/-- The time for which a registry is answered: that of the cache unless the interval starts after
it, else that of the last entry. -/
def AnsweredAt (now : ℕ) (wallet : WalletCache) (revRegId : String) (credInfo : CredInfo)
    (t : ℕ) : Prop :=
  match (getRevRegCache wallet revRegId).revState with
  | none => history.LastEntry now revRegId credInfo.toTime t
  | some cached =>
    if credInfo.fromTime.getD 0 ≤ cached.timestamp then t = cached.timestamp
    else history.LastEntry now revRegId credInfo.toTime t

/-- All infos of a registry are about one credential of it. The first one does not ask for a time
before the cached one, and the time for which it is answered suits the later ones. -/
structure OneStateSuits (s : WalletAt) (call : ProofCall) : Prop where
  sameCredential : ∀ credInfo ∈ call.credentialsIdentifiers, ∀ revRegId credRevId tailsFile,
    credInfo.revocable = some (revRegId, credRevId, tailsFile) → credRevId = owner revRegId
  notBeforeCached : ∀ pre credInfo post, call.credentialsIdentifiers = pre ++ credInfo :: post →
    ∀ revRegId credRevId tailsFile, credInfo.revocable = some (revRegId, credRevId, tailsFile) →
    leader pre revRegId = none → ∀ cached toTime,
      (getRevRegCache s.wallet revRegId).revState = some cached →
    credInfo.toTime = some toTime → cached.timestamp ≤ toTime
  sameTime : ∀ pre credInfo post, call.credentialsIdentifiers = pre ++ credInfo :: post →
    ∀ revRegId credRevId tailsFile, credInfo.revocable = some (revRegId, credRevId, tailsFile) →
    ∀ first, leader pre revRegId = some first →
    ∀ t, AnsweredAt history (s.now + call.elapsed) s.wallet revRegId first t →
    (credInfo.timestamp = none ∨ credInfo.timestamp = some t) ∧
    ∀ toTime, credInfo.toTime = some toTime → t ≤ toTime

theorem leader_concat (infos : List CredInfo) (credInfo : CredInfo) (revRegId : String) :
    leader (infos ++ [credInfo]) revRegId = (leader infos revRegId).or
      (if credInfo.revocable.map Prod.fst = some revRegId then some credInfo else none) := by
  rw [leader, List.find?_append]
  congr 1
  by_cases h : credInfo.revocable.map Prod.fst = some revRegId
  · rw [if_pos h]
    exact List.find?_cons_of_pos (by simpa using h)
  · rw [if_neg h]
    exact List.find?_cons_of_neg (by simpa using h)

/-- An info adds no leader unless it is the first of its registry. -/
theorem leader_concat_of_ne {infos : List CredInfo} {credInfo : CredInfo} {revRegId : String}
    (h : credInfo.revocable.map Prod.fst ≠ some revRegId) :
    leader (infos ++ [credInfo]) revRegId = leader infos revRegId := by
  rw [leader_concat, if_neg h, Option.or_none]

theorem leader_concat_of_some {infos : List CredInfo} (credInfo : CredInfo) {revRegId : String}
    {first : CredInfo} (h : leader infos revRegId = some first) :
    leader (infos ++ [credInfo]) revRegId = some first := by
  rw [leader_concat, h]
  rfl

end Condition

section Supplied
variable {calls : RevocationCalls Value} {history : RegistryHistory} {owner : String → String}
  {now : ℕ} {wallet wallet' : WalletCache} {revRegId credRevId tailsFile : String}

/-- What the cache holds has come about by now and is the state of the one credential of its
registry. -/
def CacheRight (calls : RevocationCalls Value) (history : RegistryHistory)
    (owner : String → String) (now : ℕ) (wallet : WalletCache) : Prop :=
  ∀ revRegId cached, (getRevRegCache wallet revRegId).revState = some cached →
    cached.timestamp ≤ now ∧ StateAt calls history revRegId (owner revRegId) cached

/-- A state that was found for an info, with the cache that it leaves. -/
structure Supplied (calls : RevocationCalls Value) (history : RegistryHistory)
    (owner : String → String) (now : ℕ)
    (wallet : WalletCache) (revRegId : String) (credInfo : CredInfo) (state : RevState)
    (wallet' : WalletCache) :
    Prop where
  answered : AnsweredAt history now wallet revRegId credInfo state.timestamp
  notLate : ∀ toTime, credInfo.toTime = some toTime → state.timestamp ≤ toTime
  stateAt : StateAt calls history revRegId (owner revRegId) state
  cacheRight : CacheRight calls history owner now wallet'
  others : ∀ id, id ≠ revRegId → getRevRegCache wallet' id = getRevRegCache wallet id

theorem CacheRight.set (h : CacheRight calls history owner now wallet) {state : RevState}
    (hnow : state.timestamp ≤ now)
    (hstate : StateAt calls history revRegId (owner revRegId) state) :
    CacheRight calls history owner now (setRevRegCache wallet revRegId ⟨some state⟩) := by
  intro id cached hcached
  by_cases hid : id = revRegId
  · rw [hid, getRevRegCache_set] at hcached
    rw [hid, ← Option.some.inj hcached]
    exact ⟨hnow, hstate⟩
  · rw [getRevRegCache_set_of_ne _ _ hid] at hcached
    exact h id cached hcached

theorem RegistryHistory.LastEntry.notLate {toTime : Option ℕ} {t : ℕ}
    (h : history.LastEntry now revRegId toTime t)
    (bound : ℕ) (hbound : toTime = some bound) : t ≤ bound := by
  have hle := h.1.2.1
  rwa [hbound, Option.getD_some] at hle

theorem createdState_ok (hcalls : calls.Faithful history) {toTime : Option ℕ}
    {r : RevState × WalletCache}
    (h : createdState calls now wallet revRegId credRevId tailsFile toTime = .ok r) :
    history.LastEntry now revRegId toTime r.1.timestamp ∧
    StateAt calls history revRegId credRevId r.1 ∧
      r.2 = setRevRegCache wallet revRegId ⟨some r.1⟩ := by
  unfold createdState at h
  obtain ⟨revRegDef, hdef, h⟩ := except_bind_eq_ok.mp h
  obtain ⟨delta, hdelta, h⟩ := except_bind_eq_ok.mp h
  obtain ⟨value, hvalue, h⟩ := except_bind_eq_ok.mp h
  have hr := Except.ok.inj h
  obtain ⟨hid, hlast, hjson⟩ := hcalls.revRegDelta _ _ _ _ _ hdelta
  rw [hcalls.revRegDef _ _ hdef, hjson] at hvalue
  rw [← hr, hid]
  exact ⟨hlast, ⟨hlast.1.1, tailsFile, hvalue⟩, rfl⟩

theorem updatedState_ok (hcalls : calls.Faithful history) {cached : RevState}
    (hcached : StateAt calls history revRegId credRevId cached) {fromTime toTime : Option ℕ}
    (hfrom : updateFrom cached fromTime = some cached.timestamp)
    (hto : cached.timestamp ≤ toTime.getD now ∧ cached.timestamp ≤ now) {r : RevState × WalletCache}
    (h : updatedState calls now wallet cached revRegId credRevId tailsFile fromTime
      toTime = .ok r) :
    history.LastEntry now revRegId toTime r.1.timestamp ∧
    StateAt calls history revRegId credRevId r.1 ∧
      (r.2 = setRevRegCache wallet revRegId ⟨some r.1⟩ ∨ r.2 = wallet) := by
  unfold updatedState at h
  obtain ⟨revRegDef, hdef, h⟩ := except_bind_eq_ok.mp h
  obtain ⟨delta, hdelta, h⟩ := except_bind_eq_ok.mp h
  obtain ⟨value, hvalue, h⟩ := except_bind_eq_ok.mp h
  have hr := Except.ok.inj h
  obtain ⟨hid, hlast, hjson⟩ := hcalls.revRegDelta _ _ _ _ _ hdelta
  rw [hcalls.revRegDef _ _ hdef, hjson, hfrom] at hvalue
  -- the cached time is one of the entries that come into question, so the last one is not before it
  have hle : cached.timestamp ≤ delta.2.2 := hlast.2 ⟨hcached.1, hto⟩
  obtain ⟨hentry, cachedTails, hcreated⟩ := hcached
  have hupdated := hcalls.update _ _ _ _ _ _ _ _ hentry hlast.1.1 hle hcreated hvalue
  rw [← hr, hid]
  refine ⟨hlast, ⟨hlast.1.1, tailsFile, hupdated⟩, ?_⟩
  by_cases hnewer : cached.timestamp < delta.2.2
  · exact Or.inl (if_pos hnewer)
  · exact Or.inr (if_neg hnewer)

theorem others_set (state : RevState) (id : String) (hid : id ≠ revRegId) :
    getRevRegCache (setRevRegCache wallet revRegId ⟨some state⟩) id = getRevRegCache wallet id :=
  getRevRegCache_set_of_ne _ _ hid

theorem supplied_of_revStateOf (hcalls : calls.Faithful history)
    (hcache : CacheRight calls history owner now wallet) {credInfo : CredInfo}
    (hnotBefore : ∀ cached toTime, (getRevRegCache wallet revRegId).revState = some cached →
      credInfo.toTime = some toTime → cached.timestamp ≤ toTime) {r : RevState × WalletCache}
    (h : revStateOf calls now wallet revRegId
      (owner revRegId) tailsFile credInfo.fromTime credInfo.toTime = .ok r) :
    Supplied calls history owner now wallet revRegId credInfo r.1 r.2 := by
  unfold revStateOf at h
  cases hlookup : (getRevRegCache wallet revRegId).revState with
  | none =>
    rw [hlookup] at h
    obtain ⟨hlast, hstate, hwallet⟩ := createdState_ok hcalls h
    have hanswered : AnsweredAt history now wallet revRegId credInfo r.1.timestamp := by
      rw [AnsweredAt, hlookup]
      exact hlast
    refine ⟨hanswered, hlast.notLate, hstate, ?_, ?_⟩
    · rw [hwallet]
      exact hcache.set hlast.1.2.2 hstate
    · rw [hwallet]
      exact others_set r.1
  | some cached =>
    rw [hlookup] at h
    obtain ⟨hnow, hstate⟩ := hcache revRegId cached hlookup
    have hto : cached.timestamp ≤ credInfo.toTime.getD now := by
      cases htime : credInfo.toTime with
      | none => exact hnow
      | some toTime => exact hnotBefore cached toTime hlookup htime
    by_cases hfrom : credInfo.fromTime.getD 0 ≤ cached.timestamp
    · have hin : inInterval now cached credInfo.fromTime credInfo.toTime := ⟨hfrom, hto⟩
      have hr : (cached, wallet) = r := by
        simp only [if_pos hin] at h
        exact Except.ok.inj h
      have hanswered : AnsweredAt history now wallet revRegId credInfo cached.timestamp := by
        rw [AnsweredAt, hlookup]
        exact (if_pos hfrom).mpr rfl
      rw [← hr]
      exact ⟨hanswered, fun toTime htime =>
        hnotBefore cached toTime hlookup htime, hstate, hcache, fun _ _ => rfl⟩
    · have hin : ¬ inInterval now cached credInfo.fromTime credInfo.toTime := fun hin => hfrom hin.1
      have hupdateFrom : updateFrom cached credInfo.fromTime = some cached.timestamp := by
        cases htime : credInfo.fromTime with
        | none => simp [htime] at hfrom
        | some fromTime =>
          rw [htime, Option.getD_some] at hfrom
          exact if_pos (Nat.le_of_not_le hfrom)
      simp only [if_neg hin] at h
      obtain ⟨hlast, hstate', hwallet⟩ := updatedState_ok hcalls hstate hupdateFrom ⟨hto, hnow⟩ h
      have hanswered : AnsweredAt history now wallet revRegId credInfo r.1.timestamp := by
        rw [AnsweredAt, hlookup]
        exact (if_neg hfrom).mpr hlast
      refine ⟨hanswered, hlast.notLate, hstate', ?_, ?_⟩
      · rcases hwallet with hwallet | hwallet
        · rw [hwallet]
          exact hcache.set hlast.1.2.2 hstate'
        · rwa [hwallet]
      · rcases hwallet with hwallet | hwallet
        · rw [hwallet]
          exact others_set r.1
        · rw [hwallet]
          exact fun _ _ => rfl

end Supplied

section Loop
variable {calls : RevocationCalls Value} {history : RegistryHistory} {owner : String → String}
  {s : WalletAt} {call : ProofCall} {pre rest : List CredInfo} {credInfo : CredInfo}
  {wallet : WalletCache} {rtn : RevStates Value} {timestamps : Table String ℕ}

/-- What the rounds over the infos so far have left behind. -/
structure LoopInvariant (calls : RevocationCalls Value) (history : RegistryHistory)
    (owner : String → String)
    (s : WalletAt) (now : ℕ) (pre : List CredInfo) (wallet : WalletCache) (rtn : RevStates Value)
    (timestamps : Table String ℕ) : Prop where
  cacheRight : CacheRight calls history owner now wallet
  unseen : ∀ revRegId, leader pre revRegId = none →
    rtn.lookup revRegId = none ∧ getRevRegCache wallet revRegId = getRevRegCache s.wallet revRegId
  seen : ∀ revRegId first, leader pre revRegId = some first →
    ∃ t value, rtn.lookup revRegId = some (t, value) ∧
    timestamps.lookup revRegId = some t ∧ AnsweredAt history now s.wallet revRegId first t ∧
    ValueAt calls history revRegId (owner revRegId) t value

/-- The loop ends well: the cache is right, and on success nothing was taken back and the infos are
fresh. -/
def EndsFresh (calls : RevocationCalls Value) (history : RegistryHistory)
    (owner : String → String) (now : ℕ)
    (rtn : RevStates Value) (r : WalletCache × RevStatesResult Value) : Prop :=
  CacheRight calls history owner now r.1 ∧ ∀ rtn' infos, r.2 = .ok (rtn', infos) →
    (∀ revRegId x, rtn.lookup revRegId = some x → rtn'.lookup revRegId = some x) ∧
      ∀ credInfo ∈ infos, Fresh calls history rtn' credInfo

/-- One more info in front of those of the rounds that follow. -/
theorem EndsFresh.cons {now : ℕ} {rtn rtn₁ : RevStates Value}
    {r : WalletCache × RevStatesResult Value} (h : EndsFresh calls history owner now rtn₁ r)
    (hrtn : ∀ revRegId x, rtn.lookup revRegId = some x → rtn₁.lookup revRegId = some x)
    (hfresh : ∀ rtn',
      (∀ revRegId x, rtn₁.lookup revRegId = some x → rtn'.lookup revRegId = some x) →
      Fresh calls history rtn' credInfo) :
    EndsFresh calls history owner now rtn (withInfo credInfo r) := by
  refine ⟨h.1, ?_⟩
  intro rtn' infos hok
  obtain ⟨wallet, result⟩ := r
  cases result with
  | error e => exact nomatch hok
  | ok built =>
    obtain ⟨hbuilt, hinfos⟩ := Prod.mk.inj (Except.ok.inj hok)
    obtain ⟨hkept, hrest⟩ := h.2 built.1 built.2 rfl
    rw [← hbuilt, ← hinfos]
    refine ⟨fun revRegId x hx => hkept revRegId x (hrtn revRegId x hx), ?_⟩
    intro info hinfo
    rcases List.mem_cons.mp hinfo with heq | hmem
    · rw [heq]
      exact hfresh built.1 hkept
    · exact hrest info hmem

theorem LoopInvariant.skip {now : ℕ}
    (h : LoopInvariant calls history owner s now pre wallet rtn timestamps)
    (hleader : ∀ revRegId, leader (pre ++ [credInfo]) revRegId = leader pre revRegId) :
    LoopInvariant calls history owner s now (pre ++ [credInfo]) wallet rtn timestamps := by
  refine ⟨h.cacheRight, ?_, ?_⟩
  · intro revRegId hnone
    exact h.unseen revRegId ((hleader revRegId).symm.trans hnone)
  · intro revRegId first hfirst
    exact h.seen revRegId first ((hleader revRegId).symm.trans hfirst)

/-- The first info of a registry is answered. -/
theorem LoopInvariant.answer {now : ℕ}
    (h : LoopInvariant calls history owner s now pre wallet rtn timestamps)
    {revRegId credRevId tailsFile : String}
    (hrevocable : credInfo.revocable = some (revRegId, credRevId, tailsFile))
    (hleader : leader pre revRegId = none) {state : RevState} {wallet' : WalletCache}
    (hsupplied : Supplied calls history owner now wallet revRegId credInfo state wallet')
    {value : Value} (hvalue : calls.fromStr state.value = .ok value) :
    LoopInvariant calls history owner s now (pre ++ [credInfo]) wallet'
      (rtn.insert revRegId (state.timestamp, value))
      (timestamps.insert revRegId state.timestamp) := by
  have hmap : credInfo.revocable.map Prod.fst = some revRegId := by rw [hrevocable]; rfl
  have hfirst : leader (pre ++ [credInfo]) revRegId = some credInfo := by
    rw [leader_concat, hleader, if_pos hmap]
    rfl
  have hothers : ∀ id, id ≠ revRegId → leader (pre ++ [credInfo]) id = leader pre id := by
    intro id hid
    apply leader_concat_of_ne
    rw [hmap]
    exact fun heq => hid (Option.some.inj heq).symm
  refine ⟨hsupplied.cacheRight, ?_, ?_⟩
  · intro id hnone
    have hid : id ≠ revRegId := by
      intro hid
      rw [hid, hfirst] at hnone
      exact nomatch hnone
    obtain ⟨hlookup, hcache⟩ := h.unseen id ((hothers id hid).symm.trans hnone)
    exact ⟨(AList.lookup_insert_ne hid).trans hlookup, (hsupplied.others id hid).trans hcache⟩
  · intro id first hsome
    by_cases hid : id = revRegId
    · rw [hid] at hsome ⊢
      have hcredInfo : credInfo = first := Option.some.inj (hfirst.symm.trans hsome)
      have hanswered : AnsweredAt history now s.wallet revRegId first state.timestamp := by
        have hanswered := hsupplied.answered
        rwa [AnsweredAt, (h.unseen revRegId hleader).2, hcredInfo] at hanswered
      exact ⟨state.timestamp, value, AList.lookup_insert _, AList.lookup_insert _, hanswered,
        state.value, hsupplied.stateAt, hvalue⟩
    · obtain ⟨t, v, hrtn, htimestamps, hrest⟩ := h.seen id first ((hothers id hid).symm.trans hsome)
      exact ⟨t, v, (AList.lookup_insert_ne hid).trans hrtn,
        (AList.lookup_insert_ne hid).trans htimestamps, hrest⟩

theorem LoopInvariant.skipOther {now : ℕ}
    (h : LoopInvariant calls history owner s now pre wallet rtn timestamps)
    (hrevocable : credInfo.revocable = none) :
    LoopInvariant calls history owner s now (pre ++ [credInfo]) wallet rtn timestamps := by
  apply h.skip
  intro revRegId
  apply leader_concat_of_ne
  rw [hrevocable]
  exact nofun

theorem LoopInvariant.skipLater {now : ℕ}
    (h : LoopInvariant calls history owner s now pre wallet rtn timestamps)
    {revRegId credRevId tailsFile : String}
    (hrevocable : credInfo.revocable = some (revRegId, credRevId, tailsFile))
    {first : CredInfo} (hleader : leader pre revRegId = some first) :
    LoopInvariant calls history owner s now (pre ++ [credInfo]) wallet rtn timestamps := by
  apply h.skip
  intro id
  by_cases hid : credInfo.revocable.map Prod.fst = some id
  · rw [hrevocable] at hid
    have heq : revRegId = id := Option.some.inj hid
    rw [← heq, hleader]
    exact leader_concat_of_some credInfo hleader
  · exact leader_concat_of_ne hid

/-- To see that an info is fresh, its registry, index and tails file may be named. -/
theorem fresh_of_revocable {rtn : RevStates Value} {revRegId credRevId tailsFile : String} {t : ℕ}
    {value : Value} (hrevocable : credInfo.revocable = some (revRegId, credRevId, tailsFile))
    (htimestamp : credInfo.timestamp = some t)
    (hnotLate : ∀ toTime, credInfo.toTime = some toTime → t ≤ toTime)
    (hlookup : rtn.lookup revRegId = some (t, value))
    (hvalue : ValueAt calls history revRegId credRevId t value) :
    Fresh calls history rtn credInfo := by
  intro id c f hsome
  have heq := Option.some.inj (hrevocable.symm.trans hsome)
  obtain ⟨hid, hrest⟩ := Prod.mk.inj heq
  obtain ⟨hc, -⟩ := Prod.mk.inj hrest
  rw [← hid, ← hc]
  exact ⟨t, value, htimestamp, hnotLate, hlookup, hvalue⟩

theorem endsFresh_loop (hcalls : calls.Faithful history)
    (hsuits : OneStateSuits history owner s call) (hall : call.credentialsIdentifiers = pre ++ rest)
    (h : LoopInvariant calls history owner s (s.now + call.elapsed) pre wallet rtn timestamps) :
    EndsFresh calls history owner (s.now + call.elapsed) rtn
      (buildRevStatesLoop calls (s.now + call.elapsed) wallet rtn timestamps rest) := by
  induction rest generalizing pre wallet rtn timestamps with
  | nil =>
    refine ⟨h.cacheRight, ?_⟩
    intro rtn' infos hok
    obtain ⟨hrtn, hinfos⟩ := Prod.mk.inj (Except.ok.inj hok)
    rw [← hrtn, ← hinfos]
    exact ⟨fun _ _ hx => hx, fun _ hmem => absurd hmem List.not_mem_nil⟩
  | cons credInfo rest ih =>
    have hnext : call.credentialsIdentifiers = (pre ++ [credInfo]) ++ rest := by
      rw [hall, List.append_assoc, List.singleton_append]
    unfold buildRevStatesLoop
    cases hrevocable : credInfo.revocable with
    | none =>
      apply (ih hnext (h.skipOther hrevocable)).cons
      · exact fun _ _ hx => hx
      · intro rtn' _ revRegId credRevId tailsFile hsome
        exact nomatch hrevocable.symm.trans hsome
    | some revocable =>
      obtain ⟨revRegId, credRevId, tailsFile⟩ := revocable
      have howner : credRevId = owner revRegId := by
        refine hsuits.sameCredential credInfo ?_ _ _ _ hrevocable
        rw [hall]
        exact List.mem_append_right _ List.mem_cons_self
      cases hleader : leader pre revRegId with
      | some first =>
        obtain ⟨t, value, hlookup, htimestamp, hanswered, hvalue⟩ := h.seen revRegId first hleader
        have hmem : revRegId ∈ rtn := AList.lookup_isSome.mp (by rw [hlookup]; rfl)
        obtain ⟨hold, hnotLate⟩ :=
          hsuits.sameTime pre credInfo rest hall _ _ _ hrevocable first hleader t hanswered
        have htime : credInfo.timestamp.or (timestamps.lookup revRegId) = some t := by
          rcases hold with hold | hold
          · rw [hold, htimestamp]
            rfl
          · rw [hold]
            rfl
        simp only [if_pos hmem]
        apply (ih hnext (h.skipLater hrevocable hleader)).cons
        · exact fun _ _ hx => hx
        · intro rtn' hkept
          exact fresh_of_revocable hrevocable htime hnotLate (hkept _ _ hlookup) (howner ▸ hvalue)
      | none =>
        obtain ⟨hlookup, hcache⟩ := h.unseen revRegId hleader
        have hmem : revRegId ∉ rtn := AList.lookup_eq_none.mp hlookup
        have hnotBefore := hsuits.notBeforeCached pre credInfo rest hall _ _ _ hrevocable hleader
        rw [← hcache] at hnotBefore
        simp only [if_neg hmem, howner]
        cases hstate : revStateOf calls (s.now + call.elapsed) wallet revRegId
          (owner revRegId) tailsFile
            credInfo.fromTime credInfo.toTime with
        | error e => exact ⟨h.cacheRight, nofun⟩
        | ok found =>
          have hsupplied := supplied_of_revStateOf hcalls h.cacheRight hnotBefore hstate
          obtain ⟨state, wallet'⟩ := found
          dsimp only at hsupplied ⊢
          cases hvalue : calls.fromStr state.value with
          | error e => exact ⟨hsupplied.cacheRight, nofun⟩
          | ok value =>
            apply (ih hnext (h.answer hrevocable hleader hsupplied hvalue)).cons
            · intro id x hx
              have hid : id ≠ revRegId := by
                intro hid
                rw [hid, hlookup] at hx
                exact nomatch hx
              exact (AList.lookup_insert_ne hid).trans hx
            · intro rtn' hkept
              refine fresh_of_revocable hrevocable rfl hsupplied.notLate
                (hkept _ _ (AList.lookup_insert _)) ?_
              exact ⟨state.value, howner ▸ hsupplied.stateAt, hvalue⟩

end Loop

section Runs
variable {calls : RevocationCalls Value} {history : RegistryHistory} {owner : String → String}
  {s : WalletAt} {call : ProofCall}

/-- A wallet without cached states. -/
def newWallet : WalletAt := ⟨0, ∅⟩

theorem loopInvariant_nil (h : CacheRight calls history owner s.now s.wallet) :
    LoopInvariant calls history owner s (s.now + call.elapsed) [] s.wallet
      (∅ : RevStates Value) ∅ where
  cacheRight revRegId cached hcached := by
    obtain ⟨hnow, hstate⟩ := h revRegId cached hcached
    exact ⟨Nat.le_add_right_of_le hnow, hstate⟩
  unseen _ _ := ⟨AList.lookup_empty _, rfl⟩
  seen _ _ hfirst := nomatch hfirst

/-- A call that one state per registry suits keeps the cache right and answers with fresh states. -/
theorem endsFresh_buildRevStatesJson (hcalls : calls.Faithful history)
    (h : CacheRight calls history owner s.now s.wallet)
    (hsuits : OneStateSuits history owner s call) :
    EndsFresh calls history owner (s.now + call.elapsed) ∅
      (buildRevStatesJson calls (s.now + call.elapsed) s.wallet call.credentialsIdentifiers) :=
  endsFresh_loop hcalls hsuits rfl (loopInvariant_nil h)

theorem cacheRight_newWallet : CacheRight calls history owner newWallet.now newWallet.wallet := by
  intro revRegId cached hcached
  have hnone : (getRevRegCache newWallet.wallet revRegId).revState = none := by
    rw [getRevRegCache, newWallet, AList.lookup_empty]
    rfl
  rw [hnone] at hcached
  cases hcached

/-- All along a run in which one state per registry suits every call, every credential that can be
revoked carries a time within its interval and is answered with its own state at that time. -/
theorem cached_states_fresh (hcalls : calls.Faithful history) (owner : String → String)
    {events : List ProofCall}
    (hsuits : EveryStep (proveNext calls) (OneStateSuits history owner) newWallet events) :
    ∀ pre, pre <+: events →
      ∃ s out, runSteps (proveNext calls) newWallet pre = .ok (s, out) ∧
        AllFresh calls history out := by
  have hruns : ∀ pre, pre <+: events →
      ∃ s out, runSteps (proveNext calls) newWallet pre = .ok (s, out) ∧
      CacheRight calls history owner s.now s.wallet ∧ AllFresh calls history out := by
    refine exists_run_invariant (fun s call => ⟨_, _, rfl⟩) ⟨cacheRight_newWallet, nofun⟩ ?_ hsuits
    intro out s call s' out' hinv hsuits hstep
    obtain ⟨hs', hout'⟩ := Prod.mk.inj (Except.ok.inj hstep)
    obtain ⟨hcache, hends⟩ := endsFresh_buildRevStatesJson hcalls hinv.1 hsuits
    rw [← hs', ← hout']
    refine ⟨hcache, ?_⟩
    intro rtn infos hmem
    rcases List.mem_append.mp hmem with hmem | hmem
    · exact hinv.2 rtn infos hmem
    · exact (hends rtn infos (List.mem_singleton.mp hmem).symm).2
  intro pre hpre
  obtain ⟨s, out, hrun, hinv⟩ := hruns pre hpre
  exact ⟨s, out, hrun, hinv.2⟩

end Runs

section Sample

/-- A delta by its two times. -/
def deltaText : Option ℕ → ℕ → String
  | none, t => toString t
  | some fromTime, t => toString fromTime ++ "-" ++ toString t

/-- Every registry has two entries. -/
def twoEntries : RegistryHistory where
  entries _ := {10, 20}
  revRegDefJson _ := "def"
  revRegDeltaJson _ := deltaText

/-- States are written as the index and the time. -/
def twoEntryCalls : RevocationCalls String where
  getRevRegDefJson revRegId := .ok (revRegId, "def")
  getRevRegDeltaJson now revRegId fromTime toTime :=
    if 20 ≤ min (toTime.getD now) now then .ok (revRegId, deltaText fromTime 20, 20)
    else if 10 ≤ min (toTime.getD now) now then .ok (revRegId, deltaText fromTime 10, 10)
    else .error (.fromMsg .invalidState "no entry")
  proverCreateRevocationState _ revRegDeltaJson credRevId _ :=
    .ok (credRevId ++ ("@" ++ revRegDeltaJson))
  proverUpdateRevocationState _ revStateJson revRegDeltaJson credRevId _ :=
    if revRegDeltaJson = "10-20" then
      .ok (if revStateJson = credRevId ++ "@10" then credRevId ++ "@20" else revStateJson ++ "?")
    else .ok revStateJson
  fromStr := .ok

theorem lastEntry_twoEntries {now : ℕ} {revRegId : String} {toTime : Option ℕ} {t : ℕ}
    (ht : t = 20 ∨ t = 10 ∧ ¬ 20 ≤ min (toTime.getD now) now)
    (hle : t ≤ min (toTime.getD now) now) :
    twoEntries.LastEntry now revRegId toTime t := by
  have hmem : t ∈ twoEntries.entries revRegId := by
    rcases ht with rfl | ⟨rfl, -⟩
    · exact Or.inr rfl
    · exact Or.inl rfl
  refine ⟨⟨hmem, hle.trans (min_le_left _ _), hle.trans (min_le_right _ _)⟩, ?_⟩
  rintro t' ⟨ht', hto, hnow⟩
  have hbound := le_min hto hnow
  rcases ht' with rfl | ht'
  · rcases ht with rfl | ⟨rfl, -⟩
    · decide
    · exact le_refl _
  · rw [Set.mem_singleton_iff.mp ht'] at hbound ⊢
    rcases ht with rfl | ⟨-, hlt⟩
    · exact le_refl _
    · exact absurd hbound hlt

theorem update_twoEntryCalls (revRegDefJson credRevId tailsFile : String) :
    twoEntryCalls.proverUpdateRevocationState revRegDefJson
      (credRevId ++ ("@" ++ deltaText none 10)) (deltaText (some 10) 20) credRevId tailsFile = .ok
        (credRevId ++ ("@" ++ deltaText none 20)) := by
  have hdelta : deltaText (some 10) 20 = "10-20" := by decide
  have hold : "@" ++ deltaText none 10 = "@10" := by decide
  have hnew : "@" ++ deltaText none 20 = "@20" := by decide
  rw [hdelta, hold, hnew]
  simp [twoEntryCalls]

theorem update_twoEntryCalls_of_ne (revRegDefJson revStateJson credRevId tailsFile : String)
    {delta : String} (h : delta ≠ "10-20") :
    twoEntryCalls.proverUpdateRevocationState revRegDefJson revStateJson delta credRevId tailsFile =
      .ok revStateJson :=
  if_neg h

theorem twoEntryCalls_faithful : twoEntryCalls.Faithful twoEntries where
  revRegDef revRegId r h := by
    rw [← Except.ok.inj h]
    rfl
  revRegDelta now revRegId fromTime toTime r h := by
    by_cases h20 : 20 ≤ min (toTime.getD now) now
    · have hr : (revRegId, deltaText fromTime 20, 20) = r :=
        Except.ok.inj ((if_pos h20).symm.trans h)
      rw [← hr]
      exact ⟨rfl, lastEntry_twoEntries (Or.inl rfl) h20, rfl⟩
    · have h' := (if_neg h20).symm.trans h
      by_cases h10 : 10 ≤ min (toTime.getD now) now
      · have hr : (revRegId, deltaText fromTime 10, 10) = r :=
          Except.ok.inj ((if_pos h10).symm.trans h')
        rw [← hr]
        exact ⟨rfl, lastEntry_twoEntries (Or.inr ⟨rfl, h20⟩) h10, rfl⟩
      · exact nomatch (if_neg h10).symm.trans h'
  update revRegId credRevId tailsFile tailsFile' t t' value value' ht ht' hle hcreate hupdate := by
    have hvalue := Except.ok.inj hcreate
    rw [← hvalue] at hupdate
    rcases ht with rfl | ht
    · rcases ht' with rfl | ht'
      · have hne : deltaText (some 10) 10 ≠ "10-20" := by decide
        exact (update_twoEntryCalls_of_ne _ _ _ _ hne).symm.trans hupdate
      · obtain rfl := Set.mem_singleton_iff.mp ht'
        exact (update_twoEntryCalls _ _ _).symm.trans hupdate
    · obtain rfl := Set.mem_singleton_iff.mp ht
      rcases ht' with rfl | ht'
      · exact absurd hle (by decide)
      · obtain rfl := Set.mem_singleton_iff.mp ht'
        have hne : deltaText (some 20) 20 ≠ "10-20" := by decide
        exact (update_twoEntryCalls_of_ne _ _ _ _ hne).symm.trans hupdate

def credInfoOf (credRevId : String) (fromTime : Option ℕ) : CredInfo :=
  ⟨some "R", some credRevId, some ⟨fromTime, none⟩, some "tails", none⟩

/-- A call for a single info suits when it asks for no end and is about the one credential of its
registry. -/
theorem oneStateSuits_single {history : RegistryHistory} {s : WalletAt} (elapsed : ℕ)
    (fromTime : Option ℕ) :
    OneStateSuits history (fun _ => "1") s ⟨elapsed, [credInfoOf "1" fromTime]⟩ where
  sameCredential credInfo hmem revRegId credRevId tailsFile hrevocable := by
    rw [List.mem_singleton.mp hmem] at hrevocable
    obtain ⟨-, hrest⟩ := Prod.mk.inj (Option.some.inj hrevocable)
    exact (Prod.mk.inj hrest).1.symm
  notBeforeCached pre credInfo post hall _ _ _ _ _ _ toTime _ hto := by
    have hmem : credInfo ∈ [credInfoOf "1" fromTime] := by
      rw [show [credInfoOf "1" fromTime] = pre ++ credInfo :: post from hall]
      exact List.mem_append_right _ List.mem_cons_self
    rw [List.mem_singleton.mp hmem] at hto
    exact nomatch hto
  sameTime pre credInfo post hall revRegId _ _ _ first hfirst := by
    have hnil : pre = [] := by
      have hlength := congrArg List.length hall
      simp only [List.length_append, List.length_cons, List.length_nil] at hlength
      exact List.eq_nil_of_length_eq_zero (by omega)
    rw [hnil] at hfirst
    exact nomatch hfirst

/-- A credential is shown at a time of its first entry, and once more for a later interval. -/
def oneCredential : List ProofCall :=
  [⟨12, [credInfoOf "1" none]⟩, ⟨18, [credInfoOf "1" (some 15)]⟩]

theorem cached_states_fresh_one :
    ∃ s out, runSteps (proveNext twoEntryCalls) newWallet oneCredential = .ok (s, out) ∧
      AllFresh twoEntryCalls twoEntries out := by
  refine cached_states_fresh twoEntryCalls_faithful (fun _ => "1") ?_ oneCredential List.prefix_rfl
  apply EveryStep.cons (oneStateSuits_single 12 none)
  intro s out _
  apply EveryStep.cons (oneStateSuits_single 18 (some 15))
  intro s' out' _
  exact everyStep_nil

/-- Two credentials of one registry are shown, one after the other. -/
def twoCredentials : List ProofCall := [⟨30, [credInfoOf "1" none]⟩, ⟨0, [credInfoOf "2" none]⟩]

/-- The second credential is answered with the state of the first one. -/
theorem cached_state_of_another : twoEntryCalls.Faithful twoEntries ∧
    ∃ s out, runSteps (proveNext twoEntryCalls) newWallet twoCredentials = .ok (s, out) ∧
      ¬ AllFresh twoEntryCalls twoEntries out := by
  refine ⟨twoEntryCalls_faithful, _, _, rfl, ?_⟩
  intro hfresh
  obtain ⟨t, value, -, -, hlookup, text, ⟨-, tailsFile, hcreate⟩, hvalue⟩ :=
    hfresh _ _ (List.mem_cons_of_mem _ List.mem_cons_self) _ List.mem_cons_self "R" "2" "tails" rfl
  obtain ⟨ht, htext⟩ := Prod.mk.inj (Option.some.inj hlookup)
  have hstate : "2" ++ ("@" ++ deltaText none 20) = "1" ++ ("@" ++ deltaText none 20) := by
    rw [← ht] at hcreate
    exact (Except.ok.inj hcreate).trans ((Except.ok.inj hvalue).trans htext.symm)
  exact absurd hstate (by decide)

end Sample

end SimpleAsset.Vcx
