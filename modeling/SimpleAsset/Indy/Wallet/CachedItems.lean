import SimpleAsset.Indy.Anoncreds.CredentialSearch
import SimpleAsset.Indy.Wallet.NonSecrets

/-! Schemas and credential definitions that are read through a cache in the wallet
(commands/cache.rs). -/
namespace SimpleAsset.Indy.Wallet.CacheCommandExecutor
open SimpleAsset.Library WalletService
open Anoncreds (parseI32)
open NonSecretsCommandExecutor (NonSecretsCommand)

/-- `GetCacheOptions` with what is looked at before the ledger is asked. -/
structure GetOptions extends GetCacheOptions where
  noCache : Option Bool
  noUpdate : Option Bool
  minFresh : Option Int32
  deriving DecidableEq, Repr

/-- What a callback is called with. -/
inductive CacheAnswer
  | item (json : String)
  | purged
  /-- The error of `IndyErrorKind::LedgerItemNotFound`. -/
  | ledgerItemNotFound
  | failed (err : IndyError)
  deriving DecidableEq, Repr

/-- An `i32` of `next_command_handle`, which counts for the whole library. -/
abbrev CommandHandle := BitVec 32

/-- A request that the ledger has not answered, with what its closures keep. -/
structure LedgerRequest where
  cache : Cache
  id : String
  options : GetOptions
  cbId : CommandHandle
  deriving DecidableEq, Repr

structure Executor where
  wallet : Connection
  pendingCallbacks : Table CommandHandle ℕ
  /-- The requests that the ledger has not answered. -/
  requests : List LedgerRequest
  answers : List (ℕ × CacheAnswer)
  /-- Whether the thread of the commands has panicked. -/
  dead : Bool

def Executor.new (wallet : Connection) : Executor := ⟨wallet, ∅, [], [], false⟩

inductive CacheEvent
  /-- A command, and the handle that there is for its callback if the ledger is asked. -/
  | get (cache : Cache) (id : String) (options : GetOptions) (clock : Clock) (cb : ℕ)
    (nextCommandHandle : CommandHandle)
  /-- The ledger answers a request with the id and the JSON of an item, and its command is
  continued. -/
  | answer (request : LedgerRequest) (response : IndyResult (String × String)) (clock : Clock)
    (random : ValueRandom)
  | purge (cache : Cache) (options : PurgeOptions) (clock : Clock) (cb : ℕ)
  /-- A command of the application on the wallet. -/
  | wallet (command : NonSecretsCommand)

section Executor
variable (C : Cipher) (keys : Keys) (S : Sqlite) (build : Build)

/-- `get_record` of the wallet service. The order of tags is left out of the record. -/
def getRecord (type name : String) (options : RecordOptions) (conn : Connection) :
    Outcome RecordView :=
  ((Wallet.get C keys type name (some options) conn.db).map WalletRecord.view).mapError
    (mapStorageFault type name)

def getRecordFromCache (cache : Cache) (id : String) (options : GetOptions) (conn : Connection) :
    Outcome (Option RecordView) :=
  if options.noCache.getD false then .ok none
  else
    match getRecord C keys cache.type id ⟨false, true, true⟩ conn with
    | .ok record => .ok (some record)
    | .error fault =>
      if isNotFound (.error fault : Outcome RecordView) then .ok none else .error fault

/-- The time in the tags of a record. -/
def timestampOf (record : RecordView) : ℤ :=
  (((record.tags.getD ∅).lookup "timestamp").bind parseI32).getD (-1)

/-- `check_cache!`: the value of the record, if there is one that is fresh enough. -/
def checkCache (record : Option RecordView) (options : GetOptions) (clock : Clock) :
    Outcome (Option String) :=
  match record with
  | none => .ok none
  | some record =>
    let minFresh := options.minFresh.getD (-1)
    if 0 ≤ minFresh then do
      let ts ← ofIndyResult (getSecondsSinceEpoch clock)
      let oldest ← subI32 build ts minFresh
      pure (if oldest.toInt ≤ timestampOf record then some (record.value.getD "") else none)
    else .ok (some (record.value.getD ""))

/-- The name of the function that goes on with a command of the cache. -/
def continueName : Cache → String
  | .schema => "get_schema_continue"
  | .credDef => "get_cred_def_continue"

namespace Executor

def reply (s : Executor) (cb : ℕ) (a : CacheAnswer) : Executor :=
  { s with answers := s.answers ++ [(cb, a)] }

/-- An error of a command goes to its callback; a panic ends the thread. -/
def fail (s : Executor) (cb : ℕ) : Fault → Executor
  | .err e => s.reply cb (.failed e)
  | _ => { s with dead := true }

/-- What a command finds in the cache. -/
def found (s : Executor) (cache : Cache) (id : String) (options : GetOptions) (clock : Clock) :
    Outcome (Option String) := do
  let record ← getRecordFromCache C keys cache id options s.wallet
  checkCache build record options clock

/-- `get_schema` and `get_cred_def`. -/
def get (s : Executor) (cache : Cache) (id : String) (options : GetOptions) (clock : Clock)
    (cb : ℕ) (nextCommandHandle : CommandHandle) : Executor :=
  match s.found C keys build cache id options clock with
  | .error fault => s.fail cb fault
  | .ok (some json) => s.reply cb (.item json)
  | .ok none =>
    if options.noUpdate.getD false then s.reply cb .ledgerItemNotFound
    else
      { s with
        pendingCallbacks := s.pendingCallbacks.insert nextCommandHandle cb
        requests := ⟨cache, id, options, nextCommandHandle⟩ :: s.requests }

variable (debug : IndyError → String)

/-- `_get_schema_continue` and `_get_cred_def_continue`. -/
def resume (s : Executor) (request : LedgerRequest) (response : IndyResult (String × String))
    (clock : Clock) (random : ValueRandom) : Executor :=
  match s.pendingCallbacks.lookup request.cbId with
  -- `.expect("FIXME INVALID STATE")`
  | none => { s with dead := true }
  | some cb =>
    let s := { s with pendingCallbacks := s.pendingCallbacks.erase request.cbId }
    match response with
    | .error e => s.reply cb (.failed e)
    | .ok (id, json) =>
      let (result, wallet) := deleteAndAddRecord C keys S request.options.toGetCacheOptions id json
        request.cache clock random s.wallet
      let s := { s with wallet }
      match result with
      | .ok _ => s.reply cb (.item json)
      | .error e =>
        s.reply cb (.failed ⟨.invalidState, continueName request.cache ++ " failed: " ++ debug e⟩)

/-- What the ledger answers to a request that is not there is no event. -/
def answer (s : Executor) (request : LedgerRequest) (response : IndyResult (String × String))
    (clock : Clock) (random : ValueRandom) : Executor :=
  if request ∈ s.requests then
    { s with requests := s.requests.erase request }.resume C keys S debug request response clock
      random
  else s

/-- `purge_schema_cache` and `purge_cred_def_cache`. -/
def purge (s : Executor) (cache : Cache) (options : PurgeOptions) (clock : Clock) (cb : ℕ) :
    Executor :=
  let (result, wallet) := purgeCache C keys S build cache clock options s.wallet
  let s := { s with wallet }
  match result with
  | .ok _ => s.reply cb .purged
  | .error fault => s.fail cb fault

def process (s : Executor) : CacheEvent → Executor
  | .get cache id options clock cb next => s.get C keys build cache id options clock cb next
  | .answer request response clock random => s.answer C keys S debug request response clock random
  | .purge cache options clock cb => s.purge C keys S build cache options clock cb
  | .wallet command =>
    { s with wallet := (NonSecretsCommandExecutor.execute C keys S build s.wallet command).2 }

/-- One event; nothing is done after the thread died. -/
def step (s : Executor) (event : CacheEvent) : Executor :=
  if s.dead then s else s.process C keys S build debug event

end Executor

end Executor

section Records
variable {C : Cipher} {keys : Keys} {S : Sqlite} {build : Build} {cache : Cache} {id json : String}
  {options : GetOptions} {conn : Connection} {m : RecordMap} {clock now : Clock}

/-- The tags of a record that is written now. -/
def tagsAt (clock : Clock) : Tags := Finmap.singleton "timestamp" (toString (writeTime clock).toInt)

/-- The record of an item, if the options let a command look for it. -/
def recordFor (m : RecordMap) (cache : Cache) (id : String) (options : GetOptions) :
    Option RecordView :=
  if options.noCache.getD false then none
  else (m.lookup (cache.type, id)).map fun entry =>
    RecordMap.viewOf id cache.type entry false true true

theorem parseI32_digits {n : ℕ} (h : n < 2 ^ 31) :
    parseI32 (String.ofList (Nat.toDigits 10 n)) = some (n : ℤ) := by
  obtain ⟨c, cs, hdigits, hc⟩ := exists_cons_toDigits n
  have hread := readNat_toDigits readsAscii_asciiDigit n
  rw [hdigits] at hread ⊢
  have hminus : c ≠ '-' := by
    rintro rfl
    revert hc
    decide
  have hplus : c ≠ '+' := by
    rintro rfl
    revert hc
    decide
  rw [parseI32, String.toList_ofList]
  split
  · rename_i heq
    exact absurd (List.cons.inj heq).1 hminus
  · rename_i heq
    exact absurd (List.cons.inj heq).1 hplus
  · rw [hread, Option.filter_some, if_pos (decide_eq_true h)]
    rfl

/-- A time that was written is read back. -/
theorem parseI32_toString (n : Int32) : parseI32 (toString n.toInt) = some n.toInt := by
  have hlow := n.le_toInt
  have hhigh := n.toInt_lt
  rcases hn : n.toInt with k | k
  · have hk : k < 2 ^ 31 := by
      rw [hn, Int.ofNat_eq_natCast] at hhigh
      omega
    exact parseI32_digits hk
  · rw [hn] at hlow
    have hk : k + 1 ≤ 2 ^ 31 := by
      rw [Int.negSucc_eq] at hlow
      omega
    have htext : (toString (Int.negSucc k)).toList = '-' :: Nat.toDigits 10 (k + 1) :=
      toList_repr_negSucc k
    rw [parseI32, htext]
    simp only []
    rw [readNat_toDigits readsAscii_asciiDigit, Option.filter_some, if_pos (decide_eq_true hk)]
    rfl

theorem getRecordFromCache_eq (h : Stores C keys conn.db m) :
    getRecordFromCache C keys cache id options conn = .ok (recordFor m cache id options) := by
  unfold getRecordFromCache recordFor
  split_ifs
  · rfl
  · rw [getRecord, get_refines h, RecordMap.get]
    cases m.lookup (cache.type, id) <;> rfl

theorem snd_serviceExec (type name : String) (statement : Sql Unit) :
    (serviceExec type name statement conn).2 = (conn.exec statement).2 := by
  unfold serviceExec Connection.exec
  cases statement conn.db with
  | mk r db => cases r <;> rfl

theorem serviceExec_eq_ok {statement : Sql Unit}
    (h : (conn.exec statement).1.map RecordReply.view = .ok .unit) (type name : String) :
    serviceExec type name statement conn = (.ok (), (conn.exec statement).2) := by
  unfold serviceExec
  unfold Connection.exec at h ⊢
  cases hstatement : statement conn.db with
  | mk r db =>
    cases r with
    | ok u => rfl
    | error e =>
      rw [hstatement] at h
      cases h

/-- A record that is deleted, if it was there, and added is inserted. -/
theorem add_delete_eq (key : String × String) (entry : Entry) :
    (m.delete key).2.add key entry = (.ok .unit, m.insert key entry) := by
  have hgone : (m.delete key).2.lookup key = none := by
    unfold RecordMap.delete
    split_ifs with hmem
    · exact Finmap.lookup_erase key m
    · exact Finmap.lookup_eq_none.mpr hmem
  have hinsert : (m.delete key).2.insert key entry = m.insert key entry := by
    apply Finmap.ext_lookup
    intro key'
    by_cases hkey : key' = key
    · rw [hkey, Finmap.lookup_insert, Finmap.lookup_insert]
    · rw [Finmap.lookup_insert_of_ne _ hkey, Finmap.lookup_insert_of_ne _ hkey]
      unfold RecordMap.delete
      split_ifs
      · exact Finmap.lookup_erase_ne hkey
      · rfl
  rw [RecordMap.add, if_neg (Finmap.lookup_eq_none.mp hgone), hinsert]

/-- Where foreign keys are enforced, an item that is delivered is stored, whatever was there. -/
theorem deleteAndAddRecord_stores (hkeys : S.foreignKeys = true) (h : Connected C keys S conn m)
    (options : GetCacheOptions) (id json : String) (cache : Cache) (clock : Clock)
    (random : ValueRandom) :
    ∃ conn', deleteAndAddRecord C keys S options id json cache clock random conn = (.ok (), conn') ∧
      Connected C keys S conn' (if options.noStore.getD false then m
        else m.insert (cache.type, id) ⟨json, tagsAt clock⟩) := by
  unfold deleteAndAddRecord
  split_ifs
  · exact ⟨conn, rfl, h⟩
  · let deletion : RecordCall := .delete cache.type id
    let addition : RecordCall := .add cache.type id json
      (AList.singleton "timestamp" (toString (writeTime clock).toInt)) random
    have hdeleted : Connected C keys S (deleteRecord C keys cache.type id conn).2
        (m.delete (cache.type, id)).2 := by
      rw [deleteRecord, snd_serviceExec]
      exact (h.call hkeys deletion : Connected C keys S (conn.call C keys S .debug _).2 _)
    have hclean : Clean C keys S .debug
        ((deleteRecord C keys cache.type id conn).2, (m.delete (cache.type, id)).2) addition :=
      clean_of_foreignKeys hkeys fun _ _ _ => RecordCall.noConfusion
    obtain ⟨hreply, hadded⟩ := call_refines hdeleted hclean
    have hmap : RecordMap.call S.like (m.delete (cache.type, id)).2 addition =
        (.ok .unit, m.insert (cache.type, id) ⟨json, tagsAt clock⟩) := add_delete_eq _ _
    rw [hmap] at hreply hadded
    exact ⟨_, serviceExec_eq_ok hreply cache.type id, hadded⟩

/-- The loop of a purge keeps what statements keep. -/
theorem deleteFound_keeps {P : Db → Prop} (hkept : KeptByWrites C keys conn.foreignKeys P)
    (hdb : P conn.db) (type : String) (records : List StorageRecord) :
    P (deleteFound C keys type records conn).2.db ∧
      (deleteFound C keys type records conn).2.foreignKeys = conn.foreignKeys := by
  induction records generalizing conn with
  | nil => exact ⟨hdb, rfl⟩
  | cons found records ih =>
    rw [deleteFound]
    cases decryptStorageRecord C keys found with
    | error fault => exact ⟨hdb, rfl⟩
    | ok record =>
      have hsetting : (deleteRecord C keys type record.id conn).2.foreignKeys =
          conn.foreignKeys := by
        rw [deleteRecord, snd_serviceExec, foreignKeys_exec]
      have hleft : P (deleteRecord C keys type record.id conn).2.db := by
        rw [deleteRecord, snd_serviceExec, db_exec]
        exact hkept.deleteRow hdb type record.id
      dsimp only
      rcases hdelete : deleteRecord C keys type record.id conn with ⟨err | u, conn'⟩
      · rw [hdelete] at hleft hsetting
        exact ⟨hleft, hsetting⟩
      · rw [hdelete] at hleft hsetting
        dsimp only
        have hkept' : KeptByWrites C keys conn'.foreignKeys P := by rwa [hsetting]
        obtain ⟨hrest, hsettingRest⟩ := ih hkept' hleft
        exact ⟨hrest, hsettingRest.trans hsetting⟩

theorem purgeCache_keeps {P : Db → Prop} (hkept : KeptByWrites C keys conn.foreignKeys P)
    (hdb : P conn.db) (cache : Cache) (clock : Clock) (options : PurgeOptions) :
    P (purgeCache C keys S build cache clock options conn).2.db ∧
      (purgeCache C keys S build cache clock options conn).2.foreignKeys = conn.foreignKeys := by
  unfold purgeCache
  dsimp only
  split
  · exact ⟨hdb, rfl⟩
  · exact deleteFound_keeps hkept hdb cache.type _

variable (S build) in
/-- A purge without an age takes the items of its cache away, one with an age does nothing. -/
theorem purgeCache_connected (h : Connected C keys S conn m) (cache : Cache) (clock : Clock)
    (options : PurgeOptions) :
    ∃ m', Connected C keys S (purgeCache C keys S build cache clock options conn).2 m' ∧
      ∀ key : String × String, m'.lookup key =
        if key.1 = cache.type ∧ options.maxAge.getD (-1) < 0 then none else m.lookup key := by
  by_cases hage : 0 ≤ options.maxAge.getD (-1)
  · obtain ⟨fault, hpurge⟩ := purgeCache_of_nonneg hage cache clock conn
    rw [hpurge]
    exact ⟨m, h, fun key => (if_neg fun hp => Int32.not_le.mpr hp.2 hage).symm⟩
  · have hneg : options.maxAge.getD (-1) < 0 := Int32.not_le.mp hage
    obtain ⟨m', conn', hpurge, hstores, hpurged⟩ := purgeCache_of_neg h.stores hneg cache clock
    have hleft : (purgeCache C keys S build cache clock options conn).2 = conn' :=
      congrArg Prod.snd hpurge
    refine ⟨m', ⟨by rwa [hleft], ?_, ?_⟩, ?_⟩
    · have hany : KeptByWrites C keys conn.foreignKeys fun _ => True := by
        constructor <;> (intros; trivial)
      exact (purgeCache_keeps hany trivial cache clock options).2.trans h.setting
    · intro hkeys
      have hkept : KeptByWrites C keys conn.foreignKeys NoOrphans := by
        rw [h.setting, hkeys]
        exact noOrphans_kept
      exact (purgeCache_keeps hkept (h.orphans hkeys) cache clock options).1
    · intro key
      have hold : ∀ entry, isOld cache clock options key entry = decide (key.1 = cache.type) := by
        intro entry
        simp only [isOld, if_neg hage, Bool.and_true]
      rw [hpurged key]
      simp only [hold]
      by_cases htype : key.1 = cache.type
      · rw [if_pos ⟨htype, hneg⟩, decide_eq_true htype]
        cases m.lookup key <;> rfl
      · rw [if_neg fun hp => htype hp.1, decide_eq_false htype]
        cases m.lookup key <;> rfl

end Records

section Fresh
variable {build : Build} {cache : Cache} {id json json' : String} {options : GetOptions}
    {m : RecordMap}
  {clock now written : Clock}

/-- The seconds that a clock is written with. -/
def seconds : Clock → ℕ
  | .ok ts => ts
  | .error _ => 0

/-- The clock is one before 2038. -/
def InRange (clock : Clock) : Prop := seconds clock < 2 ^ 31

/-- An item that was written then is as fresh as the options want it now. -/
def FreshEnough (options : GetOptions) (now written : Clock) : Prop :=
  0 ≤ options.minFresh.getD (-1) →
    ∃ ts, now = .ok ts ∧ (ts : ℤ) - (options.minFresh.getD (-1)).toInt ≤ seconds written

theorem toInt_ofNat_seconds {n : ℕ} (h : n < 2 ^ 31) : (Int32.ofNat n).toInt = n :=
  Int32.toInt_ofNat_of_lt h

theorem toInt_writeTime (h : InRange clock) : (writeTime clock).toInt = seconds clock := by
  cases clock with
  | ok ts => exact toInt_ofNat_seconds h
  | error e => rfl

theorem timestampOf_stored (cache : Cache) (id json : String) (h : InRange written) :
    timestampOf (RecordMap.viewOf id cache.type ⟨json, tagsAt written⟩ false true true) =
      seconds written := by
  have hlookup : (tagsAt written).lookup "timestamp" = some (toString (writeTime written).toInt) :=
    Finmap.lookup_singleton_eq
  rw [timestampOf]
  change (((tagsAt written).lookup "timestamp").bind parseI32).getD (-1) = _
  rw [hlookup, Option.bind_some, parseI32_toString, toInt_writeTime h]
  rfl

/-- A subtraction of times does not overflow. -/
theorem subI32_eq (build : Build) {a b : Int32} (ha : 0 ≤ a.toInt) (hb : 0 ≤ b.toInt) :
    ∃ c, subI32 build a b = .ok c ∧ c.toInt = a.toInt - b.toInt := by
  have hahigh := a.toInt_lt
  have hbhigh := b.toInt_lt
  have hover : BitVec.ssubOverflow a.toBitVec b.toBitVec = false := by
    rw [BitVec.ssubOverflow, Int32.toInt_toBitVec, Int32.toInt_toBitVec]
    simp
    omega
  refine ⟨a - b, ?_, ?_⟩
  · rw [subI32, hover, if_neg (by simp)]
  · rw [Int32.toInt_sub]
    apply Int.bmod_eq_of_le <;> omega

theorem checkCache_stored_iff (hnow : InRange now) (hwritten : InRange written) (id : String) :
    checkCache build (some (RecordMap.viewOf id cache.type ⟨json, tagsAt written⟩ false true true))
      options now = .ok (some json') ↔ json = json' ∧ FreshEnough options now written := by
  unfold checkCache FreshEnough
  have hvalue : (RecordMap.viewOf id cache.type ⟨json, tagsAt written⟩ false true true).value.getD
      "" = json := rfl
  simp only [hvalue, timestampOf_stored cache id json hwritten]
  by_cases hmin : 0 ≤ options.minFresh.getD (-1)
  · have hminInt : 0 ≤ (options.minFresh.getD (-1)).toInt := by
      simpa using Int32.le_iff_toInt_le.mp hmin
    rw [if_pos hmin]
    cases now with
    | error e =>
      simp [getSecondsSinceEpoch, ofIndyResult, hmin]
    | ok ts =>
      have hts : (Int32.ofNat ts).toInt = ts := toInt_ofNat_seconds hnow
      obtain ⟨c, hsub, hc⟩ := subI32_eq build (a := Int32.ofNat ts) (by omega) hminInt
      rw [getSecondsSinceEpoch, ofIndyResult, except_ok_bind, hsub, except_ok_bind, hc, hts]
      have hfresh : (0 ≤ options.minFresh.getD (-1) →
          ∃ n, (Except.ok ts : Clock) = .ok n ∧
            (n : ℤ) - (options.minFresh.getD (-1)).toInt ≤ seconds written) ↔
          (ts : ℤ) - (options.minFresh.getD (-1)).toInt ≤ seconds written := by
        simp [hmin]
      rw [hfresh, except_pure, Except.ok.injEq]
      split_ifs with hle <;> simp [hle]
  · rw [if_neg hmin]
    simp [hmin]

end Fresh

section Steps
variable {C : Cipher} {keys : Keys} {S : Sqlite} {build : Build} {debug : IndyError → String}
  {cache : Cache} {id json : String} {clock : Clock} {random : ValueRandom} {s : Executor}
  {m : RecordMap} {request : LedgerRequest}

theorem found_eq_checkCache (h : Stores C keys s.wallet.db m) (cache : Cache) (id : String)
    (options : GetOptions) (clock : Clock) :
    s.found C keys build cache id options clock =
      checkCache build (recordFor m cache id options) options clock := by
  rw [Executor.found, getRecordFromCache_eq h]
  rfl

theorem wallet_fail (cb : ℕ) (fault : Fault) : (s.fail cb fault).wallet = s.wallet := by
  cases fault <;> rfl

theorem wallet_get (cache : Cache) (id : String) (options : GetOptions) (clock : Clock) (cb : ℕ)
    (next : CommandHandle) :
    (s.get C keys build cache id options clock cb next).wallet = s.wallet := by
  unfold Executor.get
  split
  · exact wallet_fail cb _
  · rfl
  · split_ifs <;> rfl

theorem wallet_purge (cache : Cache) (options : PurgeOptions) (clock : Clock) (cb : ℕ) :
    (s.purge C keys S build cache options clock cb).wallet =
      (purgeCache C keys S build cache clock options s.wallet).2 := by
  unfold Executor.purge
  dsimp only
  split
  · rfl
  · exact wallet_fail cb _

/-- The executor when a request was answered, but for its callback. -/
def settle (s : Executor) (request : LedgerRequest) : Executor :=
  { s with
    requests := s.requests.erase request
    pendingCallbacks := s.pendingCallbacks.erase request.cbId }

/-- The records when an item was delivered. -/
def delivered (m : RecordMap) (request : LedgerRequest) (id json : String) (clock : Clock) :
    RecordMap :=
  if request.options.noStore.getD false then m
    else m.insert (request.cache.type, id) ⟨json, tagsAt clock⟩

variable (debug) in
theorem answer_item {cb : ℕ} (hkeys : S.foreignKeys = true) (h : Connected C keys S s.wallet m)
    (hmem : request ∈ s.requests) (hcb : s.pendingCallbacks.lookup request.cbId = some cb)
    (id json : String) (clock : Clock) (random : ValueRandom) :
    ∃ conn', Connected C keys S conn' (delivered m request id json clock) ∧
      s.answer C keys S debug request (.ok (id, json)) clock random =
        { settle s request with wallet := conn' }.reply cb (.item json) := by
  obtain ⟨conn', hstored, hconn⟩ := deleteAndAddRecord_stores hkeys h
    request.options.toGetCacheOptions id json request.cache clock random
  refine ⟨conn', hconn, ?_⟩
  simp only [Executor.answer, if_pos hmem, Executor.resume, hcb, hstored]
  rfl

theorem answer_error {cb : ℕ} (hmem : request ∈ s.requests)
    (hcb : s.pendingCallbacks.lookup request.cbId = some cb) (e : IndyError) :
    s.answer C keys S debug request (.error e) clock random =
      (settle s request).reply cb (.failed e) := by
  simp only [Executor.answer, if_pos hmem, Executor.resume, hcb]
  rfl

theorem answer_of_notMem (hmem : request ∉ s.requests) (response : IndyResult (String × String)) :
    s.answer C keys S debug request response clock random = s :=
  if_neg hmem

theorem answer_of_none (hmem : request ∈ s.requests)
    (hcb : s.pendingCallbacks.lookup request.cbId = none)
    (response : IndyResult (String × String)) :
    s.answer C keys S debug request response clock random =
      { s with requests := s.requests.erase request, dead := true } := by
  simp only [Executor.answer, if_pos hmem, Executor.resume, hcb]

end Steps

end SimpleAsset.Indy.Wallet.CacheCommandExecutor
