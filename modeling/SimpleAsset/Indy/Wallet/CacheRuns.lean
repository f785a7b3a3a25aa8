import SimpleAsset.Indy.Wallet.CachedItems
import SimpleAsset.Library.Runs

/-! Runs of the caches: what a command is answered with, in every order of commands, answers of the
ledger, purges and commands of the application. -/
namespace SimpleAsset.Indy.Wallet.CacheCommandExecutor
open SimpleAsset.Library WalletService
open NonSecretsCommandExecutor (NonSecretsCommand connected_execute lookup_execute_of_ne)

section Runs
variable (C : Cipher) (keys : Keys) (S : Sqlite) (build : Build) (debug : IndyError → String)

def afterCacheEvents (conn : Connection) (events : List CacheEvent) : Executor :=
  events.foldl (Executor.step C keys S build debug) (.new conn)

/-- What an event does to an item of a cache: it leaves what the ledger delivered, or nothing, or
what is there. -/
def itemSet (cache : Cache) (id : String) (s : Executor) :
    CacheEvent → Option (Option (String × Clock))
  | .answer request (.ok (id', json)) clock _ =>
    if s.dead = false ∧ request ∈ s.requests ∧ (s.pendingCallbacks.lookup request.cbId).isSome ∧
        request.cache = cache ∧ id' = id ∧ request.options.noStore.getD false = false then
      some (some (json, clock))
    else none
  | .purge cache' options _ _ =>
    if s.dead = false ∧ cache' = cache ∧ options.maxAge.getD (-1) < 0 then some none else none
  | _ => none

/-- Commands of the application are not about records of the caches. -/
def Foreign : CacheEvent → Prop
  | .wallet command => ∀ cache : Cache, command.type ≠ cache.type
  | _ => True

/-- The ledger answers before 2038. -/
def AnswersInRange : CacheEvent → Prop
  | .answer _ _ clock _ => InRange clock
  | _ => True

/-- No record of a cache is there yet. -/
def NothingCached (m : RecordMap) : Prop := ∀ (cache : Cache) id, m.lookup (cache.type, id) = none

/-- The item of a cache that the ledger delivered last, if no purge came after it. -/
def LastDelivered (conn : Connection) (events : List CacheEvent) (cache : Cache) (id json : String)
    (written : Clock) : Prop :=
  LastSet (Executor.step C keys S build debug) (itemSet cache id) (.new conn) events
    (some (json, written))

/-- The records of the caches are these. -/
def Caches (s : Executor) (records : Cache × String → Option Entry) : Prop :=
  ∃ m, Connected C keys S s.wallet m ∧ ∀ cache id, m.lookup (cache.type, id) = records (cache, id)

variable {C keys S build debug} {conn : Connection} {m : RecordMap} {events : List CacheEvent}
  {cache : Cache} {id json : String} {s : Executor}

theorem Cache.type_injective : Function.Injective Cache.type := by
  intro c c' h
  cases c <;> cases c' <;> first | rfl | (revert h; decide)

/-- The record that an event leaves in a cache where `r` was. -/
def recordSet (s : Executor) (e : CacheEvent) (key : Cache × String) : Option (Option Entry) :=
  (itemSet key.1 key.2 s e).map (Option.map fun v => ⟨v.1, tagsAt v.2⟩)

theorem caches_answer {records : Cache × String → Option Entry} (hkeys : S.foreignKeys = true)
    (h : Caches C keys S s records) (hdead : s.dead = false) (request : LedgerRequest)
    (response : IndyResult (String × String)) (clock : Clock) (random : ValueRandom) :
    Caches C keys S (s.answer C keys S debug request response clock random) fun key =>
      (recordSet s (.answer request response clock random) key).getD (records key) := by
  obtain ⟨m, hconn, hrecords⟩ := h
  by_cases hmem : request ∈ s.requests
  · rcases hcb : s.pendingCallbacks.lookup request.cbId with _ | cb
    · rw [answer_of_none hmem hcb]
      refine ⟨m, hconn, fun cache id => ?_⟩
      rw [hrecords]
      rcases response with e | ⟨id', json⟩ <;> simp [recordSet, itemSet, hcb]
    · rcases response with e | ⟨id', json⟩
      · rw [answer_error hmem hcb]
        exact ⟨m, hconn, hrecords⟩
      · obtain ⟨conn', hconn', hanswer⟩ :=
          answer_item debug hkeys hconn hmem hcb id' json clock random
        rw [hanswer]
        refine ⟨_, hconn', fun cache id => ?_⟩
        dsimp only
        rw [delivered, recordSet, itemSet]
        by_cases hstore : request.options.noStore.getD false = true
        · rw [if_pos hstore, if_neg (by simp [hstore]), hrecords]
          rfl
        · rw [if_neg hstore]
          split_ifs with hitem
          · obtain ⟨-, -, -, rfl, rfl, -⟩ := hitem
            exact Finmap.lookup_insert m
          · refine (Finmap.lookup_insert_of_ne m ?_).trans (hrecords cache id)
            intro heq
            obtain ⟨htype, rfl⟩ := Prod.mk.inj heq
            have hcache := Cache.type_injective htype
            exact hitem ⟨hdead, hmem, by rw [hcb]; rfl, hcache.symm, rfl,
              Bool.eq_false_of_not_eq_true hstore⟩
  · rw [answer_of_notMem hmem]
    refine ⟨m, hconn, fun cache id => ?_⟩
    rw [hrecords]
    rcases response with e | ⟨id', json⟩ <;> simp [recordSet, itemSet, hmem]

variable (build) in
theorem caches_purge {records : Cache × String → Option Entry} (h : Caches C keys S s records)
    (hdead : s.dead = false) (cache' : Cache) (options : PurgeOptions) (clock : Clock) (cb : ℕ) :
    Caches C keys S (s.purge C keys S build cache' options clock cb) fun key =>
      (recordSet s (.purge cache' options clock cb) key).getD (records key) := by
  obtain ⟨m, hconn, hrecords⟩ := h
  obtain ⟨m', hconn', hlookup⟩ := purgeCache_connected S build hconn cache' clock options
  refine ⟨m', ?_, fun cache id => ?_⟩
  · rw [wallet_purge]
    exact hconn'
  · have hiff : (cache.type = cache'.type ∧ options.maxAge.getD (-1) < 0) ↔
        (s.dead = false ∧ cache' = cache ∧ options.maxAge.getD (-1) < 0) := by
      rw [Cache.type_injective.eq_iff, hdead]
      simp [eq_comm]
    dsimp only
    rw [hlookup, recordSet, itemSet]
    simp only [hiff]
    split_ifs
    · rfl
    · exact hrecords cache id

/-- A dead executor writes no record. -/
theorem recordSet_of_dead (hdead : s.dead = true) (e : CacheEvent) (key : Cache × String) :
    recordSet s e key = none := by
  cases e with
  | get | wallet => rfl
  | purge => simp [recordSet, itemSet, hdead]
  | answer request response clock random =>
    rcases response with e | ⟨id', json⟩
    · rfl
    · simp [recordSet, itemSet, hdead]

variable (build debug) in
/-- One event and the records of the caches. -/
theorem caches_step {records : Cache × String → Option Entry} (hkeys : S.foreignKeys = true)
    {e : CacheEvent} (hforeign : Foreign e) (h : Caches C keys S s records) :
    Caches C keys S (s.step C keys S build debug e) fun key =>
      (recordSet s e key).getD (records key) := by
  rw [Executor.step]
  rcases hdead : s.dead with _ | _
  · rw [if_neg Bool.false_ne_true]
    cases e with
    | get cache' id' options clock cb next =>
      obtain ⟨m, hconn, hrecords⟩ := h
      refine ⟨m, ?_, hrecords⟩
      rw [Executor.process, wallet_get]
      exact hconn
    | answer request response clock random =>
      exact caches_answer hkeys h hdead request response clock random
    | purge cache' options clock cb => exact caches_purge build h hdead cache' options clock cb
    | wallet command =>
      obtain ⟨m, hconn, hrecords⟩ := h
      refine ⟨_, connected_execute hkeys hconn command, fun cache id => ?_⟩
      rw [lookup_execute_of_ne S.like (hforeign cache)]
      exact hrecords cache id
  · rw [if_pos rfl]
    obtain ⟨m, hconn, hrecords⟩ := h
    refine ⟨m, hconn, fun cache id => ?_⟩
    dsimp only
    rw [recordSet_of_dead hdead]
    exact hrecords cache id

variable (build debug) in
/-- A record of a cache is what the ledger delivered last. -/
theorem exists_lookup_eq_some_iff (hkeys : S.foreignKeys = true) (h : Connected C keys S conn m)
    (h0 : NothingCached m) (hforeign : ∀ e ∈ events, Foreign e) :
    ∃ m', Connected C keys S (afterCacheEvents C keys S build debug conn events).wallet m' ∧
      ∀ (cache : Cache) id entry, m'.lookup (cache.type, id) = some entry ↔
        ∃ json written, (⟨json, tagsAt written⟩ : Entry) = entry ∧
          LastDelivered C keys S build debug conn events cache id json written := by
  have hstart : Caches C keys S (.new conn) fun _ => none := ⟨m, h, h0⟩
  obtain ⟨records, ⟨m', hconn, hrecords⟩, hlast⟩ := exists_registers_foldl (Caches C keys S)
    (fun key s e => recordSet s e key) hstart
    (fun s r e he hs => caches_step build debug hkeys he hs) hforeign
  refine ⟨m', hconn, fun cache id entry => ?_⟩
  rw [hrecords, hlast (cache, id) entry]
  refine lastSet_map_iff.trans ?_
  constructor
  · rintro ⟨item, hitem, hset⟩
    obtain ⟨⟨json, written⟩, rfl, hentry⟩ := Option.map_eq_some_iff.mp hitem
    exact ⟨json, written, hentry, hset⟩
  · rintro ⟨json, written, rfl, hset⟩
    exact ⟨some (json, written), rfl, hset⟩

/-- The time of a delivery is that of an answer. -/
theorem LastDelivered.inRange {written : Clock}
    (h : LastDelivered C keys S build debug conn events cache id json written)
    (hrange : ∀ e ∈ events, AnswersInRange e) : InRange written := by
  obtain ⟨pre, e, post, rfl, hset, -⟩ := h
  have he := hrange e (List.mem_append_right _ List.mem_cons_self)
  cases e with
  | answer request response clock random =>
    rcases response with e | ⟨id', json'⟩
    · cases hset
    · rw [itemSet] at hset
      split_ifs at hset
      cases hset
      exact he
  | purge cache' options clock cb =>
    rw [itemSet] at hset
    split_ifs at hset
    cases hset
  | get | wallet => cases hset

/-- A command is answered at once exactly when a record is good enough. -/
theorem answers_get_iff (h : Stores C keys s.wallet.db m) (options : GetOptions) (clock : Clock)
    (cb : ℕ) (next : CommandHandle) :
    (s.get C keys build cache id options clock cb next).answers =
        s.answers ++ [(cb, .item json)] ↔
      checkCache build (recordFor m cache id options) options clock = .ok (some json) := by
  rw [Executor.get, found_eq_checkCache h]
  rcases checkCache build (recordFor m cache id options) options clock with fault | _ | value
  · cases fault <;> simp [Executor.fail, Executor.reply]
  · simp only [Except.ok.injEq, reduceCtorEq, iff_false]
    split_ifs <;> simp [Executor.reply]
  · simp [Executor.reply]

theorem value_of_checkCache {entry : Entry} {options : GetOptions} {clock : Clock}
    (h : checkCache build (some (RecordMap.viewOf id cache.type entry false true true)) options
      clock = .ok (some json)) : json = entry.value := by
  have hvalue : (RecordMap.viewOf id cache.type entry false true true).value.getD "" =
      entry.value := rfl
  unfold checkCache at h
  simp only [hvalue] at h
  split_ifs at h
  · obtain ⟨ts, -, h⟩ := except_bind_eq_ok.mp h
    obtain ⟨oldest, -, h⟩ := except_bind_eq_ok.mp h
    rw [except_pure, Except.ok.injEq] at h
    split_ifs at h
    exact (Option.some.inj h).symm
  · exact (Option.some.inj (Except.ok.inj h)).symm

section Ledger
variable (C keys S) (items : Cache → String → String)

/-- Items of the caches, answers and waiting commands are all of the ledger with these items. -/
structure OfLedger (events : List CacheEvent) (s : Executor) : Prop where
  stored : ∃ m, Connected C keys S s.wallet m ∧ ∀ (cache : Cache) id entry,
    m.lookup (cache.type, id) = some entry → entry.value = items cache id
  waiting : ∀ request ∈ s.requests, ∃ cb clock,
    s.pendingCallbacks.lookup request.cbId = some cb ∧
      .get request.cache request.id request.options clock cb request.cbId ∈ events
  distinct : (s.requests.map LedgerRequest.cbId).Nodup
  answered : ∀ cb json, (cb, .item json) ∈ s.answers → ∃ cache id options clock next,
    .get cache id options clock cb next ∈ events ∧ json = items cache id

/-- The ledger answers a request with the item that it asks for. -/
def Honest : CacheEvent → Prop
  | .answer request (.ok (id, json)) _ _ => id = request.id ∧ json = items request.cache id
  | _ => True

/-- The handle of a callback that is kept is not one that another callback waits under. -/
def HandleFree (build : Build) (s : Executor) : CacheEvent → Prop
  | .get cache id options clock _ next => s.found C keys build cache id options clock = .ok none →
      options.noUpdate.getD false = false → s.pendingCallbacks.lookup next = none
  | _ => True

variable {C keys S items} {e : CacheEvent}

theorem OfLedger.weaken (h : OfLedger C keys S items events s) (e : CacheEvent) :
    OfLedger C keys S items (events ++ [e]) s := by
  refine ⟨h.stored, ?_, h.distinct, ?_⟩
  · intro request hmem
    obtain ⟨cb, clock, hcb, hget⟩ := h.waiting request hmem
    exact ⟨cb, clock, hcb, List.mem_append_left _ hget⟩
  · intro cb json hmem
    obtain ⟨cache, id, options, clock, next, hget, hjson⟩ := h.answered cb json hmem
    exact ⟨cache, id, options, clock, next, List.mem_append_left _ hget, hjson⟩

/-- A reply may be an item only if that is what a command with this callback asked for. -/
theorem OfLedger.reply (h : OfLedger C keys S items events s) {cb : ℕ} {a : CacheAnswer}
    (ha : ∀ json, a = .item json → ∃ cache id options clock next,
      .get cache id options clock cb next ∈ events ∧ json = items cache id) :
    OfLedger C keys S items events (s.reply cb a) := by
  refine ⟨h.stored, h.waiting, h.distinct, ?_⟩
  intro cb' json hmem
  rcases List.mem_append.mp hmem with hold | hnew
  · exact h.answered cb' json hold
  · obtain ⟨rfl, hitem⟩ := Prod.mk.inj (List.mem_singleton.mp hnew)
    exact ha json hitem.symm

theorem OfLedger.fail (h : OfLedger C keys S items events s) (cb : ℕ) (fault : Fault) :
    OfLedger C keys S items events (s.fail cb fault) := by
  cases fault with
  | err e => exact h.reply fun json hitem => by cases hitem
  | panic | outOfFuel => exact ⟨h.stored, h.waiting, h.distinct, h.answered⟩

/-- A wallet that an event leaves, with what the ledger may have in it. -/
theorem OfLedger.stores (h : OfLedger C keys S items events s) {conn : Connection} {m : RecordMap}
    (hconn : Connected C keys S conn m) (hm : ∀ (cache : Cache) id entry,
      m.lookup (cache.type, id) = some entry → entry.value = items cache id) :
    OfLedger C keys S items events { s with wallet := conn } :=
  ⟨⟨m, hconn, hm⟩, h.waiting, h.distinct, h.answered⟩

/-- The requests but for one, with their callbacks. -/
theorem OfLedger.settle (h : OfLedger C keys S items events s) {request : LedgerRequest}
    (hmem : request ∈ s.requests) : OfLedger C keys S items events (settle s request) := by
  refine ⟨h.stored, ?_, h.distinct.sublist (List.erase_sublist.map _), h.answered⟩
  intro other hother
  obtain ⟨cb, clock, hcb, hget⟩ := h.waiting other (List.mem_of_mem_erase hother)
  refine ⟨cb, clock, ?_, hget⟩
  have hne : other.cbId ≠ request.cbId := by
    intro heq
    have hnodup := h.distinct.of_map _
    have hsame : other = request :=
      List.inj_on_of_nodup_map h.distinct (List.mem_of_mem_erase hother) hmem heq
    rw [hsame] at hother
    exact (hnodup.not_mem_erase) hother
  exact (AList.lookup_erase_ne hne).trans hcb

theorem OfLedger.get (h : OfLedger C keys S items events s) (options : GetOptions) (clock : Clock)
    (cb : ℕ) (next : CommandHandle)
    (hget : .get cache id options clock cb next ∈ events)
    (hfree : HandleFree C keys build s (.get cache id options clock cb next)) :
    OfLedger C keys S items events (s.get C keys build cache id options clock cb next) := by
  obtain ⟨m, hconn, hitems⟩ := h.stored
  have hcheck : s.found C keys build cache id options clock =
      checkCache build (recordFor m cache id options) options clock :=
    found_eq_checkCache hconn.stores cache id options clock
  rw [Executor.get]
  rcases hfound : s.found C keys build cache id options clock with fault | _ | json
  · exact h.fail cb fault
  · dsimp only
    split_ifs with hupdate
    · exact h.reply fun json hitem => by cases hitem
    · have hnew := hfree hfound (Bool.eq_false_of_not_eq_true hupdate)
      have hother : ∀ request ∈ s.requests, request.cbId ≠ next := by
        intro request hmem heq
        obtain ⟨cb', _, hcb', -⟩ := h.waiting request hmem
        rw [heq, hnew] at hcb'
        cases hcb'
      refine ⟨h.stored, ?_, ?_, h.answered⟩
      · intro request hmem
        rcases List.mem_cons.mp hmem with rfl | hold
        · exact ⟨cb, clock, AList.lookup_insert _, hget⟩
        · obtain ⟨cb', clock', hcb', hget'⟩ := h.waiting request hold
          exact ⟨cb', clock', (AList.lookup_insert_ne (hother request hold)).trans hcb', hget'⟩
      · rw [List.map_cons, List.nodup_cons]
        refine ⟨?_, h.distinct⟩
        intro hmem
        obtain ⟨request, hrequest, heq⟩ := List.mem_map.mp hmem
        exact hother request hrequest heq
  · apply h.reply
    intro json' hitem
    obtain rfl := CacheAnswer.item.inj hitem
    refine ⟨cache, id, options, clock, next, hget, ?_⟩
    rw [hcheck, recordFor] at hfound
    split_ifs at hfound
    · cases hfound
    · rcases hlookup : m.lookup (cache.type, id) with _ | entry
      · rw [hlookup] at hfound
        cases hfound
      · rw [hlookup, Option.map_some] at hfound
        rw [← hitems cache id entry hlookup]
        exact value_of_checkCache hfound

theorem OfLedger.answer (h : OfLedger C keys S items events s) (hkeys : S.foreignKeys = true)
    (request : LedgerRequest) (response : IndyResult (String × String)) (clock : Clock)
    (random : ValueRandom) (hhonest : Honest items (.answer request response clock random)) :
    OfLedger C keys S items events
      (s.answer C keys S debug request response clock random) := by
  by_cases hmem : request ∈ s.requests
  · obtain ⟨cb, clock', hcb, hget⟩ := h.waiting request hmem
    rcases response with err | ⟨id, json⟩
    · rw [answer_error hmem hcb]
      exact (h.settle hmem).reply fun json hitem => by cases hitem
    · obtain ⟨rfl, rfl⟩ := hhonest
      obtain ⟨m, hconn, hitems⟩ := h.stored
      obtain ⟨conn', hconn', hanswer⟩ := answer_item debug hkeys hconn hmem hcb request.id
        (items request.cache request.id) clock random
      rw [hanswer]
      refine ((h.settle hmem).stores hconn' ?_).reply ?_
      · intro cache id entry hlookup
        rw [delivered] at hlookup
        split_ifs at hlookup
        · exact hitems cache id entry hlookup
        · by_cases hkey : (cache.type, id) = (request.cache.type, request.id)
          · rw [hkey, Finmap.lookup_insert, Option.some.injEq] at hlookup
            obtain ⟨htype, rfl⟩ := Prod.mk.inj hkey
            obtain rfl := Cache.type_injective htype
            rw [← hlookup]
          · rw [Finmap.lookup_insert_of_ne _ hkey] at hlookup
            exact hitems cache id entry hlookup
      · intro json hitem
        exact ⟨request.cache, request.id, request.options, clock', request.cbId, hget,
          (CacheAnswer.item.inj hitem).symm⟩
  · rwa [answer_of_notMem hmem]

theorem OfLedger.purge (h : OfLedger C keys S items events s) (cache : Cache)
    (options : PurgeOptions) (clock : Clock) (cb : ℕ) :
    OfLedger C keys S items events (s.purge C keys S build cache options clock cb) := by
  obtain ⟨m, hconn, hitems⟩ := h.stored
  obtain ⟨m', hconn', hlookup⟩ := purgeCache_connected S build hconn cache clock options
  have hleft := h.stores hconn' fun cache' id entry hentry => by
    rw [hlookup] at hentry
    split_ifs at hentry
    exact hitems cache' id entry hentry
  unfold Executor.purge
  rcases hpurge : purgeCache C keys S build cache clock options s.wallet with ⟨fault | u, conn'⟩
  · rw [hpurge] at hleft
    exact hleft.fail cb fault
  · rw [hpurge] at hleft
    exact hleft.reply fun json hitem => by cases hitem

theorem OfLedger.step (h : OfLedger C keys S items events s) (hkeys : S.foreignKeys = true)
    (hforeign : Foreign e) (hhonest : Honest items e) (hfree : HandleFree C keys build s e) :
    OfLedger C keys S items (events ++ [e]) (s.step C keys S build debug e) := by
  rw [Executor.step]
  split_ifs
  · exact h.weaken e
  · have hweak := h.weaken e
    have hmem : e ∈ events ++ [e] := List.mem_append_right _ (List.mem_singleton_self e)
    cases e with
    | get cache id options clock cb next => exact hweak.get options clock cb next hmem hfree
    | answer request response clock random =>
      exact hweak.answer hkeys request response clock random hhonest
    | purge cache options clock cb => exact hweak.purge cache options clock cb
    | wallet command =>
      obtain ⟨m, hconn, hitems⟩ := h.stored
      refine hweak.stores (connected_execute hkeys hconn command) ?_
      intro cache id entry hlookup
      rw [lookup_execute_of_ne S.like (hforeign cache)] at hlookup
      exact hitems cache id entry hlookup

/-- While the ledger answers with its items and no handle is given out while a callback waits under
it, every command is answered with the item of the ledger or with none. -/
theorem answers_of_ledger (hkeys : S.foreignKeys = true) (h : Connected C keys S conn m)
    (h0 : NothingCached m) (hforeign : ∀ e ∈ events, Foreign e)
    (hfree : ∀ pre e, pre ++ [e] <+: events →
      HandleFree C keys build (afterCacheEvents C keys S build debug conn pre) e)
    (hhonest : ∀ e ∈ events, Honest items e) {cb : ℕ}
    (hanswer : (cb, .item json) ∈ (afterCacheEvents C keys S build debug conn events).answers) :
    ∃ cache id options clock next, .get cache id options clock cb next ∈ events ∧
      json = items cache id := by
  have hstart : OfLedger C keys S items [] (.new conn) := by
    refine ⟨⟨m, h, ?_⟩, ?_, List.nodup_nil, ?_⟩
    · intro cache id entry hlookup
      rw [h0 cache id] at hlookup
      cases hlookup
    · intro request hmem
      cases hmem
    · intro cb json hmem
      cases hmem
  have hrun : OfLedger C keys S items events
      (afterCacheEvents C keys S build debug conn events) := by
    clear hanswer
    induction events using List.reverseRecOn with
    | nil => exact hstart
    | append_singleton events e ih =>
      have hevents := ih (fun e' he' => hforeign e' (List.mem_append_left _ he'))
        (fun pre e' hpre => hfree pre e' (hpre.trans (List.prefix_append _ _)))
        fun e' he' => hhonest e' (List.mem_append_left _ he')
      have hlast : e ∈ events ++ [e] := List.mem_append_right _ (List.mem_singleton_self e)
      rw [afterCacheEvents, List.foldl_concat]
      exact hevents.step hkeys (hforeign e hlast) (hhonest e hlast)
        (hfree events e (List.prefix_refl _))
  exact hrun.answered cb json hanswer

end Ledger

end Runs

section Samples

def defaultOptions : GetOptions := ⟨⟨none⟩, none, none, none⟩

/-- A schema is asked for and delivered at second 1000, while the application deletes a record of
its own; the handle is then given out again. -/
def schemaEvents : List CacheEvent :=
  [.get .schema "s" defaultOptions (.ok 1000) 7 1, .wallet (.deleteRecord "note" "n"),
    .answer ⟨.schema, "s", defaultOptions, 1⟩ (.ok ("s", "json")) (.ok 1000) zeroRandom,
    .get .credDef "d" defaultOptions (.ok 1100) 8 1]

def emptyWallet : Connection := newWallet maxSqlite

theorem connected_emptyWallet : Connected plainCipher zeroKeys maxSqlite emptyWallet ∅ :=
  connected_newWallet

theorem nothingCached_empty : NothingCached ∅ := fun _ _ => rfl

theorem foreign_schemaEvents : ∀ e ∈ schemaEvents, Foreign e := by
  have hnote : ∀ cache : Cache, "note" ≠ cache.type := by
    intro cache
    cases cache <;> decide
  simp [schemaEvents, Foreign, NonSecretsCommand.type, hnote]

def freshOptions : GetOptions := ⟨⟨none⟩, none, none, some 500⟩

theorem handleFree_schemaEvents : ∀ pre e, pre ++ [e] <+: schemaEvents →
    HandleFree plainCipher zeroKeys .debug
      (afterCacheEvents plainCipher zeroKeys maxSqlite .debug IndyError.message emptyWallet pre)
      e := by
  unfold afterCacheEvents schemaEvents
  rw [forall_steps_cons_iff, forall_steps_cons_iff, forall_steps_cons_iff, forall_steps_cons_iff]
  exact ⟨fun _ _ => rfl, trivial, trivial, fun _ _ => rfl, forall_steps_nil⟩

theorem answers_of_ledger_sample : ∃ cache id options clock next,
    .get cache id options clock 7 next ∈ schemaEvents ∧
      "json" = (fun (_ : Cache) (_ : String) => "json") cache id := by
  have hhonest : ∀ e ∈ schemaEvents, Honest (fun _ _ => "json") e := by
    simp [schemaEvents, Honest]
  exact answers_of_ledger rfl connected_emptyWallet nothingCached_empty foreign_schemaEvents
    handleFree_schemaEvents hhonest (by decide)

end Samples

end SimpleAsset.Indy.Wallet.CacheCommandExecutor
