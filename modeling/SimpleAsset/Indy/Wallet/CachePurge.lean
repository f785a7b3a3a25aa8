import SimpleAsset.Indy.Wallet.MapRefinement
import SimpleAsset.Indy.Wql.Parser

/-! The caches of schemas and credential definitions (commands/cache.rs): how they are written and
purged. -/
namespace SimpleAsset.Indy.Wallet.CacheCommandExecutor
open SimpleAsset.Library
open Wql (single)

inductive Cache
  | schema
  | credDef
  deriving DecidableEq, Repr

/-- `SCHEMA_CACHE` and `CRED_DEF_CACHE`. -/
def Cache.type : Cache → String
  | .schema => "schema_cache"
  | .credDef => "cred_def_cache"

/-- `SystemTime::now().duration_since(UNIX_EPOCH)` in whole seconds, or the `Debug` of its error. -/
abbrev Clock := Except String ℕ

section Service

/-- `_map_wallet_storage_error`. -/
def mapWalletStorageError (type name : String) (err : IndyError) : IndyError :=
  match err.kind with
  | .walletItemAlreadyExists =>
    ⟨.walletItemAlreadyExists, "Wallet item already exists with type: " ++ type ++ ", id: " ++ name⟩
  | .walletItemNotFound =>
    ⟨.walletItemNotFound, "Wallet item not found with type: " ++ type ++ ", id: " ++ name⟩
  | _ => err

/-- A statement of the wallet as `WalletService` calls it for a record. -/
def serviceExec (type name : String) (statement : Sql Unit) (conn : Connection) :
    IndyResult Unit × Connection :=
  match statement conn.db with
  | (.ok _, db) => (.ok (), { conn with db := db })
  | (.error err, db) => (.error (mapWalletStorageError type name err), { conn with db := db })

variable (C : Cipher) (keys : Keys) (S : Sqlite) (build : Build)

def deleteRecord (type name : String) (conn : Connection) : IndyResult Unit × Connection :=
  serviceExec type name (Wallet.delete C keys conn.foreignKeys type name) conn

def addRecord (type name value : String) (tags : Table String String) (random : ValueRandom)
    (conn : Connection) :
    IndyResult Unit × Connection :=
  serviceExec type name (Wallet.add C keys S type name value tags random) conn

/-- `search_records` up to the iterator. -/
def searchRecords (type : String) (query : Json) (options : Option SearchOptions) (db : Db) :
    Outcome (List StorageRecord) := do
  let (_, records) ← Wallet.search C keys S build type query options db
  pure records

end Service

section Commands
variable (C : Cipher) (keys : Keys) (S : Sqlite) (build : Build)

structure GetCacheOptions where
  noStore : Option Bool
  deriving DecidableEq, Repr

/-- `ts.as_secs() as i32`, and 0 for a clock before the epoch. -/
def writeTime : Clock → Int32
  | .ok ts => Int32.ofNat ts
  | .error _ => 0

def deleteAndAddRecord (options : GetCacheOptions) (id json : String) (cache : Cache)
    (clock : Clock) (random : ValueRandom) (conn : Connection) : IndyResult Unit × Connection :=
  if options.noStore.getD false then (.ok (), conn)
  else
    let tags := AList.singleton "timestamp" (toString (writeTime clock).toInt)
    let conn := (deleteRecord C keys cache.type id conn).2
    addRecord C keys S cache.type id json tags random conn

def getSecondsSinceEpoch : Clock → IndyResult Int32
  | .ok ts => .ok (Int32.ofNat ts)
  | .error err => .error ⟨.invalidState, "Cannot get time: " ++ err⟩

/-- Subtraction of `i32`. -/
def subI32 (a b : Int32) : Outcome Int32 :=
  if build = .debug ∧ BitVec.ssubOverflow a.toBitVec b.toBitVec then .error (.panic .overflow)
    else .ok (a - b)

/-- An `i32` in `json!`. -/
def jsonI32 (n : Int32) : Json :=
  .number (if n < 0 then .negInt n.toInt else .posInt n.toInt.toNat)

def buildQueryJson (clock : Clock) (maxAge : Int32) : Outcome Json :=
  if 0 ≤ maxAge then do
    let ts ← ofIndyResult (getSecondsSinceEpoch clock)
    let oldest ← subI32 build ts maxAge
    pure (single "timestamp" (single "$lt" (jsonI32 oldest)))
  else .ok (.object [])

structure PurgeOptions where
  maxAge : Option Int32
  deriving DecidableEq, Repr

/-- The loop over `fetch_next_record`. A search of SQLite goes on after the row that it stands on is
deleted. -/
def deleteFound (type : String) : List StorageRecord → Connection → Outcome Unit × Connection
  | [], conn => (.ok (), conn)
  | found :: records, conn =>
    match decryptStorageRecord C keys found with
    | .error fault => (.error fault, conn)
    | .ok record =>
      match deleteRecord C keys type record.id conn with
      | (.ok _, conn) => deleteFound type records conn
      | (.error err, conn) => (.error (.err err), conn)

def purgeCache (cache : Cache) (clock : Clock) (options : PurgeOptions) (conn : Connection) :
    Outcome Unit × Connection :=
  let search := do
    let queryJson ← buildQueryJson build clock (options.maxAge.getD (-1))
    searchRecords C keys S build cache.type queryJson
      (some ⟨true, false, false, false, false⟩) conn.db
  match search with
  | .error fault => (.error fault, conn)
  | .ok records => deleteFound C keys cache.type records conn

def purgeSchemaCache := purgeCache C keys S build .schema

def purgeCredDefCache := purgeCache C keys S build .credDef

end Commands

section Tagged
variable {C : Cipher} {keys : Keys} {S : Sqlite} {build : Build} {db db' : Db} {rowid : ℕ}

variable (C keys) in
/-- The tags under every row id are encrypted ones, whether the row is still there or not. -/
def Tagged (db : Db) : Prop := ∀ r, ∃ tags, TagsStored C keys (db.tag r) tags

theorem Tagged.putTags (h : Tagged C keys db) (new : Table String String) :
    Tagged C keys (db.putTags rowid (encryptTags C keys new)) := by
  intro r
  obtain ⟨tags, htags⟩ := h r
  by_cases hr : r = rowid
  · subst hr
    exact ⟨_, htags.putTags new⟩
  · exact ⟨tags, by rwa [Db.tag_putTags_ne db hr]⟩

theorem Tagged.eraseTags (h : Tagged C keys db) (names : List String) :
    Tagged C keys (db.eraseTags rowid (encryptTagNames C keys names)) := by
  intro r
  obtain ⟨tags, htags⟩ := h r
  by_cases hr : r = rowid
  · subst hr
    exact ⟨_, htags.eraseTags names⟩
  · exact ⟨tags, by rwa [Db.tag_eraseTags_ne db hr]⟩

theorem Tagged.filterTags (h : Tagged C keys db) (p : ℕ → Bool) :
    Tagged C keys (db.filterTags p) := by
  intro r
  obtain ⟨tags, htags⟩ := h r
  have htag : (db.filterTags p).tag r = fun slot => if p r then db.tag r slot else none :=
    funext fun slot => Db.tag_filterTags db r p slot
  rw [htag]
  by_cases hp : p r = true
  · simp only [if_pos hp]
    exact ⟨tags, htags⟩
  · simp only [if_neg hp]
    exact ⟨∅, .empty fun _ => rfl⟩

theorem tagged_kept (foreignKeys : Bool) : KeptByWrites C keys foreignKeys (Tagged C keys) where
  insert _ _ h := h
  put _ tags h := h.putTags tags
  erase _ names h := h.eraseTags names
  filter p h := h.filterTags p
  update _ _ _ h := h
  delete {db} type name h := by
    unfold deleteItems
    cases foreignKeys with
    | false => exact h
    | true =>
      let items := db.items.filter fun _ item => !item.isFor type name
      have hitems : Tagged C keys { db with items := items } := h
      exact hitems.filterTags fun id => decide (id ∈ items.keys)

end Tagged

section Reachable
variable {C : Cipher} {keys : Keys} {S : Sqlite} {build : Build} {db : Db} {m : RecordMap}
    {conn : Connection}

variable (C keys) in
/-- The tables store the records of some map. -/
structure WellStored (db : Db) : Prop where
  stores : ∃ m, Stores C keys db m
  tagged : Tagged C keys db

theorem exists_stores_of_result {statement : Sql Unit} {r : IndyResult Unit}
    (h : ∃ db', statement db = (r, db') ∧ Stores C keys db' m) :
    ∃ m, Stores C keys (statement db).2 m := by
  obtain ⟨db', heq, hstores⟩ := h
  exact ⟨m, heq ▸ hstores⟩

/-- A new record may inherit the tags that a deleted one left under its row id. -/
theorem WellStored.add (h : WellStored C keys db) (type name value : String)
    (tags : Table String String) (random : ValueRandom) :
    WellStored C keys (Wallet.add C keys S type name value tags random db).2 := by
  refine ⟨?_, (tagged_kept false).add h.tagged type name value tags random⟩
  obtain ⟨m, hstores⟩ := h.stores
  cases hkey : m.lookup (type, name) with
  | some entry =>
    rw [add_some hstores hkey]
    exact ⟨m, hstores⟩
  | none =>
    apply transaction_keeps (P := fun db => ∃ m, Stores C keys db m) ⟨m, hstores⟩
    intro db' hbody
    let rowid := S.nextRowid db.items.keys
    let evalue := EncryptedValue.encrypt C value keys.valueKey random
    let item : Item := ⟨encryptType C keys type, encryptName C keys name, evalue.data, evalue.key⟩
    let db₁ : Db := { db with items := db.items.insert rowid item }
    rw [Sql.bind_ok (insertItem_of_none S (hstores.findItem_none hkey) evalue)] at hbody
    obtain rfl := eq_putTags_of_forM_insertTag hbody
    obtain ⟨left, hleft⟩ := h.tagged rowid
    have hleft₁ : TagsStored C keys (db₁.tag rowid) left := hleft
    have hrep : Represents C keys (db₁.putTags rowid (encryptTags C keys tags)) rowid item
        (type, name) ⟨value, tags.toFinmap ∪ left⟩ :=
      ⟨rfl, rfl, decrypt_encrypt_value C value keys.valueKey random, hleft₁.putTags tags⟩
    have hnew : db.items.lookup rowid = none := AList.lookup_eq_none.mpr (S.fresh db.items.keys)
    refine ⟨_, hstores.addRow hnew hkey ?_ (fun r hr => Db.tag_putTags_ne db₁ hr _) hrep⟩
    intro r
    rw [Db.items_putTags]
    exact Table.lookup_insert_ite db.items rowid r item

theorem WellStored.delete (h : WellStored C keys db) (foreignKeys : Bool) (type name : String) :
    WellStored C keys (Wallet.delete C keys foreignKeys type name db).2 := by
  refine ⟨?_, (tagged_kept foreignKeys).deleteRow h.tagged type name⟩
  obtain ⟨m, hstores⟩ := h.stores
  cases hkey : m.lookup (type, name) with
  | none => exact exists_stores_of_result (delete_none hstores hkey foreignKeys)
  | some entry => exact exists_stores_of_result (delete_some hstores hkey foreignKeys)

/-- Every call leaves some map stored, whether it succeeds or not. -/
theorem WellStored.call (h : WellStored C keys conn.db) (c : RecordCall) :
    WellStored C keys (conn.call C keys S build c).2.db := by
  obtain ⟨m, hstores⟩ := h.stores
  cases c with
  | add type name value tags random =>
    rw [Connection.call, db_exec]
    exact h.add type name value tags random
  | delete type name =>
    rw [Connection.call, db_exec]
    exact h.delete conn.foreignKeys type name
  | update type name newValue random =>
    rw [Connection.call, db_exec]
    refine ⟨?_, (tagged_kept false).updateValue h.tagged type name newValue random⟩
    cases hkey : m.lookup (type, name) with
    | none => exact exists_stores_of_result (update_none hstores hkey newValue random)
    | some entry => exact exists_stores_of_result (update_some hstores hkey newValue random)
  | addTags type name tags =>
    rw [Connection.call, db_exec]
    refine ⟨?_, (tagged_kept false).addTags h.tagged type name tags⟩
    cases hkey : m.lookup (type, name) with
    | none => exact exists_stores_of_result ⟨_, addTags_none hstores hkey tags, hstores⟩
    | some entry => exact exists_stores_of_result (addTags_some hstores hkey tags)
  | updateTags type name tags =>
    rw [Connection.call, db_exec]
    refine ⟨?_, (tagged_kept false).updateTags h.tagged type name tags⟩
    cases hkey : m.lookup (type, name) with
    | none => exact exists_stores_of_result ⟨_, updateTags_none hstores hkey tags, hstores⟩
    | some entry => exact exists_stores_of_result (updateTags_some hstores hkey tags)
  | deleteTags type name tagNames =>
    rw [Connection.call, db_exec]
    refine ⟨?_, (tagged_kept false).deleteTags h.tagged type name tagNames⟩
    cases hkey : m.lookup (type, name) with
    | none => exact exists_stores_of_result ⟨_, deleteTags_none hstores hkey tagNames, hstores⟩
    | some entry => exact exists_stores_of_result (deleteTags_some hstores hkey tagNames)
  | get type name options => exact h
  | search type query options => exact h
  | reopen => exact h

theorem wellStored_walletAfter (calls : List RecordCall) :
    WellStored C keys (walletAfter C keys S build calls).db := by
  induction calls using List.reverseRecOn with
  | nil =>
    refine ⟨⟨∅, stores_empty⟩, fun r => ⟨∅, .empty fun slot => ?_⟩⟩
    cases slot <;> rfl
  | append_singleton calls c ih =>
    rw [walletAfter, List.foldl_concat]
    exact ih.call c

end Reachable

section Writes
variable (C : Cipher) (keys : Keys) (S : Sqlite) (build : Build)

/-- A call of `_delete_and_add_record`. -/
structure CacheWrite where
  options : GetCacheOptions
  id : String
  json : String
  cache : Cache
  clock : Clock
  random : ValueRandom

/-- A wallet after any calls, the caches of which are then written. -/
def walletWritten (calls : List RecordCall) (writes : List CacheWrite) : Connection :=
  writes.foldl (fun conn w =>
    (deleteAndAddRecord C keys S w.options w.id w.json w.cache w.clock w.random conn).2)
      (walletAfter C keys S build calls)

variable {C keys S build} {conn : Connection}

theorem db_serviceExec (type name : String) (statement : Sql Unit) :
    (serviceExec type name statement conn).2.db = (statement conn.db).2 := by
  unfold serviceExec
  cases statement conn.db with
  | mk r db => cases r <;> rfl

theorem WellStored.deleteAndAddRecord (h : WellStored C keys conn.db) (w : CacheWrite) :
    WellStored C keys
      (deleteAndAddRecord C keys S w.options w.id w.json w.cache w.clock w.random conn).2.db := by
  unfold CacheCommandExecutor.deleteAndAddRecord
  split_ifs
  · exact h
  · rw [addRecord, db_serviceExec]
    apply WellStored.add
    rw [deleteRecord, db_serviceExec]
    exact h.delete conn.foreignKeys w.cache.type w.id

theorem wellStored_walletWritten (calls : List RecordCall) (writes : List CacheWrite) :
    WellStored C keys (walletWritten C keys S build calls writes).db := by
  induction writes using List.reverseRecOn with
  | nil => exact wellStored_walletAfter calls
  | append_singleton writes w ih =>
    rw [walletWritten, List.foldl_concat]
    exact ih.deleteAndAddRecord w

end Writes

section Purge
variable {C : Cipher} {keys : Keys} {S : Sqlite} {build : Build} {conn : Connection} {m : RecordMap}

/-- The record is in the cache and, if an age is given, its timestamp is from before that age. -/
def isOld (cache : Cache) (clock : Clock) (options : PurgeOptions) (key : String × String)
    (entry : Entry) : Bool :=
  let maxAge := options.maxAge.getD (-1)
  decide (key.1 = cache.type) &&
    if 0 ≤ maxAge then
      match clock, (entry.tags.lookup "timestamp").bind String.toInt? with
      | .ok now, some timestamp => decide (timestamp < now - maxAge.toInt)
      | _, _ => false
    else true

/-- Exactly the old records are gone. -/
def Purged (cache : Cache) (clock : Clock) (options : PurgeOptions) (m m' : RecordMap) : Prop :=
  ∀ key, m'.lookup key = (m.lookup key).filter fun entry => !isOld cache clock options key entry

/-- `parse_single_operator` wants the operand of `$lt` as a string. -/
theorem deserialize_timestamp (n : JsonNumber) :
    Wql.deserialize (single "timestamp" (single "$lt" (.number n))) =
    .error (Wql.missingField "$lt must be used with string") := rfl

/-- With an age the purge fails, whatever is stored. -/
theorem purgeCache_of_nonneg {options : PurgeOptions} (h : 0 ≤ options.maxAge.getD (-1))
    (cache : Cache) (clock : Clock) (conn : Connection) :
    ∃ fault, purgeCache C keys S build cache clock options conn = (.error fault, conn) := by
  unfold purgeCache buildQueryJson
  rw [if_pos h]
  cases getSecondsSinceEpoch clock with
  | error err => exact ⟨_, rfl⟩
  | ok ts =>
    rw [ofIndyResult, except_ok_bind]
    cases subI32 build ts (options.maxAge.getD (-1)) with
    | error fault => exact ⟨_, rfl⟩
    | ok oldest =>
      rw [except_ok_bind, except_pure, except_ok_bind, searchRecords, Wallet.search,
        parsedQuery, jsonI32, deserialize_timestamp]
      exact ⟨_, rfl⟩

/-- Deletes the records of these ids. -/
def eraseIds (type : String) (ids : List String) (m : RecordMap) : RecordMap :=
  ids.foldl (fun m id => m.erase (type, id)) m

theorem lookup_eraseIds {type : String} {ids : List String} (key : String × String) :
    (eraseIds type ids m).lookup key = if key.1 = type ∧
    key.2 ∈ ids then none else m.lookup key := by
  unfold eraseIds
  induction ids generalizing m with
  | nil => simp
  | cons id ids ih =>
    rw [List.foldl_cons, ih]
    by_cases hkey : key = (type, id)
    · subst hkey
      rw [Finmap.lookup_erase, ite_self, if_pos ⟨rfl, List.mem_cons_self⟩]
    · have hiff : key.1 = type ∧ key.2 ∈ id :: ids ↔ key.1 = type ∧ key.2 ∈ ids := by
        rw [List.mem_cons]
        constructor
        · rintro ⟨htype, hid | hids⟩
          · exact absurd (Prod.ext htype hid) hkey
          · exact ⟨htype, hids⟩
        · exact fun hp => ⟨hp.1, .inr hp.2⟩
      simp only [Finmap.lookup_erase_ne hkey, hiff]

/-- The loop deletes the records that were found, each of them once. -/
theorem deleteFound_eq {type : String} {records : List StorageRecord} {ids : List String}
    (hfound : List.Forall₂
      (fun found id => ∃ record, decryptStorageRecord C keys found = .ok record ∧ record.id = id)
      records ids) (hnodup : ids.Nodup) (hids : ∀ id ∈ ids, (m.lookup (type, id)).isSome)
        (h : Stores C keys conn.db m) :
    ∃ conn', deleteFound C keys type records conn = (.ok (), conn') ∧
      Stores C keys conn'.db (eraseIds type ids m) := by
  induction hfound generalizing conn m with
  | nil => exact ⟨conn, rfl, h⟩
  | @cons found id records ids hrecord _ ih =>
    obtain ⟨record, hdecrypt, rfl⟩ := hrecord
    obtain ⟨hnew, hnodup⟩ := List.nodup_cons.mp hnodup
    obtain ⟨entry, hentry⟩ := Option.isSome_iff_exists.mp (hids record.id List.mem_cons_self)
    obtain ⟨db', hdelete, hstores⟩ := delete_some h hentry conn.foreignKeys
    have hrest : ∀ id ∈ ids, ((m.erase (type, record.id)).lookup (type, id)).isSome := by
      intro id hid
      have hne : (type, id) ≠ (type, record.id) := by
        intro heq
        obtain rfl : id = record.id := congrArg Prod.snd heq
        exact hnew hid
      rw [Finmap.lookup_erase_ne hne]
      exact hids id (List.mem_cons_of_mem _ hid)
    have hstoresNext : Stores C keys { conn with db := db' }.db (m.erase (type, record.id)) :=
      hstores
    obtain ⟨conn', hloop, hstores'⟩ := ih hnodup hrest hstoresNext
    refine ⟨conn', ?_, hstores'⟩
    rw [deleteFound, hdecrypt]
    simp only [deleteRecord, serviceExec, hdelete]
    exact hloop

variable (S build) in
/-- The empty query finds every record of the type. -/
theorem searchRecords_empty (h : Stores C keys conn.db m) (type : String) (options : SearchOptions)
    (hretrieve : options.retrieveRecords = true) (hcount : options.retrieveTotalCount = false) :
    ∃ rows : List ((_ : ℕ) × Item), ∃ entryOf : (_ : ℕ) × Item → (_ : String × String) × Entry,
      searchRecords C keys S build type (.object []) (some options) conn.db = .ok
        (rows.map (options.record conn.db)) ∧
      (∀ e ∈ rows, Represents C keys conn.db e.1 e.2 (entryOf e).1 (entryOf e).2) ∧
      m.entries.filter (fun e => e.1.1 = type) =
        (rows.map entryOf : Multiset ((_ : String × String) × Entry)) := by
  have htransform : transform C keys (optimised (.and [])) = .ok (.and []) := rfl
  have hsql : operatorToSql build (.and []) = .ok .empty := rfl
  have hholds : ∀ rowid tags, TagsStored C keys (conn.db.tag rowid) tags →
      Clause.empty.holds S conn.db rowid = meets S.like tags (.and []) := fun _ _ _ => rfl
  obtain ⟨rows, entryOf, hrows, hrep, hselect⟩ := queryItems_eq h type hsql rfl hholds
  refine ⟨rows, entryOf, ?_, hrep, ?_⟩
  · have hdeserialize : Wql.deserialize (.object []) = .ok (.and []) := rfl
    rw [searchRecords, Wallet.search, parsedQuery, hdeserialize]
    simp only [except_ok_bind, htransform, ofIndyResult]
    rw [storageSearch_eq, hretrieve, hcount, hrows]
    rfl
  · rw [← hselect, RecordMap.select]
    apply Multiset.filter_congr
    intro e _
    simp only [meets, meetsAll, and_true]

/-- Without an age the purge deletes the records of the cache. -/
theorem purgeCache_of_neg {options : PurgeOptions} (h : Stores C keys conn.db m)
    (hage : options.maxAge.getD (-1) < 0) (cache : Cache) (clock : Clock) :
    ∃ m' conn', purgeCache C keys S build cache clock options conn = (.ok (), conn') ∧
      Stores C keys conn'.db m' ∧ Purged cache clock options m m' := by
  have hneg : ¬ 0 ≤ options.maxAge.getD (-1) := Int32.not_le.mpr hage
  obtain ⟨rows, entryOf, hsearch, hrep, hentries⟩ :=
    searchRecords_empty S build h cache.type ⟨true, false, false, false, false⟩ rfl rfl
  have hmem : ∀ e ∈ rows, m.lookup (entryOf e).1 = some (entryOf e).2 ∧
      (entryOf e).1.1 = cache.type := by
    intro e he
    have hfilter : entryOf e ∈ m.entries.filter fun e => e.1.1 = cache.type := by
      rw [hentries]
      exact Multiset.mem_coe.mpr (List.mem_map_of_mem he)
    obtain ⟨hentry, htype⟩ := Multiset.mem_filter.mp hfilter
    exact ⟨Finmap.mem_lookup_iff.mpr hentry, htype⟩
  let ids := rows.map fun e => (entryOf e).1.2
  have hfound : List.Forall₂
      (fun found id => ∃ record, decryptStorageRecord C keys found = .ok record ∧ record.id = id)
      (rows.map (SearchOptions.record ⟨true, false, false, false, false⟩ conn.db)) ids := by
    rw [List.forall₂_map_left_iff, List.forall₂_map_right_iff, List.forall₂_same]
    intro e he
    obtain ⟨record, hdecrypt, hview⟩ :=
      (hrep e he).decryptStorageRecord_eq ⟨true, false, false, false, false⟩
    exact ⟨record, hdecrypt, congrArg RecordView.id hview⟩
  have hnodup : ids.Nodup := by
    have hrows : (rows.map entryOf).Nodup := by
      rw [← Multiset.coe_nodup, ← hentries]
      exact m.nodup_entries.filter _
    refine hrows.of_map entryOf |>.map_on ?_
    intro e he e' he' heq
    obtain ⟨hlookup, htype⟩ := hmem e he
    obtain ⟨hlookup', htype'⟩ := hmem e' he'
    have hkey : (entryOf e).1 = (entryOf e').1 := Prod.ext (htype.trans htype'.symm) heq
    rw [hkey, hlookup', Option.some.injEq] at hlookup
    exact List.inj_on_of_nodup_map hrows he he' (Sigma.ext hkey (heq_of_eq hlookup.symm))
  have hids : ∀ id ∈ ids, (m.lookup (cache.type, id)).isSome := by
    intro id hid
    obtain ⟨e, he, rfl⟩ := List.mem_map.mp hid
    obtain ⟨hlookup, htype⟩ := hmem e he
    have hkey : (cache.type, (entryOf e).1.2) = (entryOf e).1 := Prod.ext htype.symm rfl
    rw [hkey, hlookup]
    rfl
  obtain ⟨conn', hloop, hstores⟩ := deleteFound_eq hfound hnodup hids h
  refine ⟨_, conn', ?_, hstores, ?_⟩
  · unfold purgeCache buildQueryJson
    rw [if_neg hneg, except_ok_bind, hsearch]
    exact hloop
  · intro key
    rw [lookup_eraseIds]
    have hold : ∀ entry, isOld cache clock options key entry = decide (key.1 = cache.type) := by
      intro entry
      simp only [isOld, if_neg hneg, Bool.and_true]
    simp only [hold]
    by_cases htype : key.1 = cache.type
    · rw [decide_eq_true htype]
      cases hkey : m.lookup key with
      | none => simp
      | some entry =>
        have hmem' : key.2 ∈ ids := by
          have hentry : (⟨key, entry⟩ : (_ : String × String) × Entry) ∈ m.entries.filter fun e =>
              e.1.1 = cache.type :=
            Multiset.mem_filter.mpr ⟨Finmap.mem_lookup_iff.mp hkey, htype⟩
          rw [hentries] at hentry
          obtain ⟨e, he, heq⟩ := List.mem_map.mp (Multiset.mem_coe.mp hentry)
          exact List.mem_map.mpr ⟨e, he, by rw [heq]⟩
        rw [if_pos ⟨htype, hmem'⟩]
        rfl
    · rw [if_neg fun hp => htype hp.1, decide_eq_false htype]
      cases m.lookup key <;> rfl

/-- In every wallet whose caches were written, purging one deletes exactly the old records if and
only if no age is given. -/
theorem purge_deletes_old_iff (C : Cipher) (keys : Keys) (S : Sqlite) (build : Build)
    (calls : List RecordCall)
    (writes : List CacheWrite) (cache : Cache) (clock : Clock) (options : PurgeOptions) :
    (∃ m m' conn', Stores C keys (walletWritten C keys S build calls writes).db m ∧
      purgeCache C keys S build cache clock options
        (walletWritten C keys S build calls writes) = (.ok (), conn') ∧
      Stores C keys conn'.db m' ∧ Purged cache clock options m m') ↔
        options.maxAge.getD (-1) < 0 := by
  constructor
  · rintro ⟨m, m', conn', -, hpurge, -⟩
    by_contra hage
    obtain ⟨fault, hfault⟩ :=
      purgeCache_of_nonneg (Int32.not_lt.mp hage) cache clock
        (walletWritten C keys S build calls writes)
    cases hpurge.symm.trans hfault
  · intro hage
    have hwell : WellStored C keys (walletWritten C keys S build calls writes).db :=
      wellStored_walletWritten calls writes
    obtain ⟨m, hstores⟩ := hwell.stores
    obtain ⟨m', conn', hpurge, hstores', hpurged⟩ := purgeCache_of_neg hstores hage cache clock
    exact ⟨m, m', conn', hstores, hpurge, hstores', hpurged⟩

/-- A schema is cached at second 1000. -/
def sampleWrite : CacheWrite := ⟨⟨none⟩, "schema", "\x7b\x7d", .schema, .ok 1000, zeroRandom⟩

def sampleWallet : Connection :=
  walletWritten plainCipher zeroKeys maxSqlite .debug [] [sampleWrite]

/-- Second 2000 and an age of 500 do not purge it. -/
theorem purge_deletes_no_old :
    (purgeCache plainCipher zeroKeys maxSqlite .debug .schema (.ok 2000)
      ⟨some 500⟩ sampleWallet).1 =
      errMsg .walletQueryError (Wql.missingField "$lt must be used with string") ∧
    ¬ ∃ m m' conn', Stores plainCipher zeroKeys sampleWallet.db m ∧
      purgeCache plainCipher zeroKeys maxSqlite .debug .schema (.ok 2000)
        ⟨some 500⟩ sampleWallet = (.ok (), conn') ∧
      Stores plainCipher zeroKeys conn'.db m' ∧ Purged .schema (.ok 2000) ⟨some 500⟩ m m' := by
  have hpurge : (purgeCache plainCipher zeroKeys maxSqlite .debug .schema (.ok 2000)
      ⟨some 500⟩ sampleWallet).1 =
      errMsg .walletQueryError (Wql.missingField "$lt must be used with string") := rfl
  refine ⟨hpurge, ?_⟩
  rintro ⟨m, m', conn', -, hok, -⟩
  rw [hok] at hpurge
  cases hpurge

end Purge

end SimpleAsset.Indy.Wallet.CacheCommandExecutor
