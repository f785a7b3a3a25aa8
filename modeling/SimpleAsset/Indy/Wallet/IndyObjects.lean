import Mathlib.Data.Finset.Sort
import Mathlib.Data.String.Basic
import SimpleAsset.Library.Stateful
import SimpleAsset.Indy.Wallet.CachePurge

/-! Records as `WalletService` gives them out (indy-wallet/src/lib.rs), over the map that a wallet
is: plain records, and objects of the library's own types. -/
namespace SimpleAsset.Indy.Wallet
open SimpleAsset.Library
open CacheCommandExecutor (mapWalletStorageError)

/-- A computation on an open wallet. -/
abbrev InWallet := Stateful RecordMap Fault

/-- The serialization of a type of objects, which serde derives. -/
structure Serde (α : Type) where
  toJson : α → String
  fromJson : String → Except String α
  fromJson_toJson : ∀ a, fromJson (toJson a) = .ok a

/-- A type of objects under its `short_type_name`. -/
structure ObjectType (α : Type) extends Serde α where
  name : String

namespace WalletService

def PREFIX : String := "Indy"

def addPrefix (type : String) : String := PREFIX ++ "::" ++ type

/-- `_map_wallet_storage_error`. -/
def mapStorageFault (type name : String) : Fault → Fault
  | .err e => .err (mapWalletStorageError type name e)
  | fault => fault

/-- A call on the map that answers with nothing. -/
def exec (f : RecordMap → Outcome ReplyView × RecordMap) : InWallet Unit :=
  .step fun m => ((f m).1.map fun _ => (), (f m).2)

def addRecord (type name value : String) (tags : Tags) : InWallet Unit :=
  .mapError (mapStorageFault type name) (exec fun m => m.add (type, name) ⟨value, tags⟩)

def deleteRecord (type name : String) : InWallet Unit :=
  .mapError (mapStorageFault type name) (exec fun m => m.delete (type, name))

def RecordOptions.id : RecordOptions := ⟨false, false, false⟩

def RecordOptions.idValue : RecordOptions := ⟨false, true, false⟩

/-- `wallet.get`. -/
def walletGet (type name : String) (options : RecordOptions) : InWallet RecordView :=
  .reads fun m => m.get type name (some options)

def getRecord (type name : String) (options : RecordOptions) : InWallet RecordView :=
  .mapError (mapStorageFault type name) (walletGet type name options)

/-- The names of the records that a search goes through; SQLite may give them in another order. -/
def namesInOrder (names : Finset String) : List String := names.sort (· ≤ ·)

@[simp] theorem mem_namesInOrder {names : Finset String} {name : String} :
    name ∈ namesInOrder names ↔ name ∈ names :=
  Finset.mem_sort _

section Objects
variable {α : Type} (T : ObjectType α)

def addIndyObject (name : String) (object : α) : InWallet String := do
  let objectJson := T.toJson object
  addRecord (addPrefix T.name) name objectJson ∅
  pure objectJson

def updateIndyObject (name : String) (object : α) : InWallet String := do
  let objectJson := T.toJson object
  exec fun m => m.change (addPrefix T.name, name) ⟨.walletItemNotFound, "Item to update not found"⟩
    fun entry => { entry with value := objectJson }
  pure objectJson

def deleteIndyRecord (name : String) : InWallet Unit := deleteRecord (addPrefix T.name) name

def getIndyRecordValue (name : String) (options : RecordOptions) : InWallet String := do
  let record ← walletGet (addPrefix T.name) name options
  match record.value with
  | some value => pure value
  | none => throw (.err ⟨.invalidState, T.name ++ " not found for id: \"" ++ name ++ "\""⟩)

def getIndyObject (name : String) : InWallet α := do
  let recordValue ← getIndyRecordValue T name RecordOptions.idValue
  match T.fromJson recordValue with
  | .ok object => pure object
  | .error e =>
    throw (.err ⟨.invalidState, "Cannot deserialize \"" ++ T.name ++ "\"\n  Caused by: " ++ e⟩)

/-- Whether a result is an error of a missing item. -/
def isNotFound {β : Type} : Outcome β → Bool
  | .error (.err e) => e.kind = .walletItemNotFound
  | _ => false

def getIndyOptObject (name : String) : InWallet (Option α) := do
  match ← Stateful.attempt (getIndyObject T name) with
  | .ok object => pure (some object)
  | .error fault => if isNotFound (.error fault : Outcome α) then pure none else throw fault

def recordExists (name : String) : InWallet Bool := do
  match ← Stateful.attempt (walletGet (addPrefix T.name) name RecordOptions.id) with
  | .ok _ => pure true
  | .error fault => if isNotFound (.error fault : Outcome RecordView)
      then pure false else throw fault

def upsertIndyObject (name : String) (object : α) : InWallet String := do
  if ← recordExists T name then updateIndyObject T name object else addIndyObject T name object

/-- A search for all of a type. -/
def searchIndyRecords : InWallet (List String) :=
  .reads fun m =>
    .ok (namesInOrder ((m.keys.filter fun key => key.1 = addPrefix T.name).image Prod.snd))

end Objects

section Specs
variable {α β : Type} {T : ObjectType α} {T' : ObjectType β} {m m' : RecordMap}
    {name name' : String} {a : α}

/-- Where an object is stored. -/
def keyOf (T : ObjectType α) (name : String) : String × String := (addPrefix T.name, name)

/-- The entry that an object is stored as. -/
def entryOf (T : ObjectType α) (a : α) : Entry := ⟨T.toJson a, ∅⟩

/-- The object of a type under a name. -/
def object (T : ObjectType α) (m : RecordMap) (name : String) : Option α :=
  (m.lookup (keyOf T name)).bind fun entry => (T.fromJson entry.value).toOption

theorem addPrefix_inj {s t : String} : addPrefix s = addPrefix t ↔ s = t := by
  rw [addPrefix, addPrefix, String.append_right_inj]

theorem keyOf_inj : keyOf T name = keyOf T' name' ↔ T.name = T'.name ∧ name = name' := by
  rw [keyOf, keyOf, Prod.mk.injEq, addPrefix_inj]

theorem object_of_lookup {entry : Entry} (h : m.lookup (keyOf T name) = some entry)
    (hvalue : entry.value = T.toJson a) :
    object T m name = some a := by
  rw [object, h, Option.bind_some, hvalue, T.fromJson_toJson]
  rfl

theorem object_insert_self (entry : Entry) (hvalue : entry.value = T.toJson a) :
    object T (m.insert (keyOf T name) entry) name = some a :=
  object_of_lookup (Finmap.lookup_insert m) hvalue

/-- A write under another key leaves an object as it is. -/
theorem object_insert_of_ne {key : String × String} (h : keyOf T name ≠ key) (entry : Entry) :
    object T (m.insert key entry) name = object T m name := by
  rw [object, object, Finmap.lookup_insert_of_ne m h]

theorem object_erase_of_ne {key : String × String} (h : keyOf T name ≠ key) :
    object T (m.erase key) name = object T m name := by
  rw [object, object, Finmap.lookup_erase_ne h]

theorem object_erase_self : object T (m.erase (keyOf T name)) name = none := by
  rw [object, Finmap.lookup_erase]
  rfl

/-- An object after a write is the one that was written or was there before. -/
theorem object_insert_cases {key : String × String} {entry : Entry}
    (h : object T (m.insert key entry) name = some a) :
    (keyOf T name = key ∧ (T.fromJson entry.value).toOption = some a) ∨
    object T m name = some a := by
  by_cases hkey : keyOf T name = key
  · rw [← hkey, object, Finmap.lookup_insert, Option.bind_some] at h
    exact Or.inl ⟨hkey, h⟩
  · rw [object_insert_of_ne hkey] at h
    exact Or.inr h

theorem object_of_erase {key : String × String} (h : object T (m.erase key) name = some a) :
    object T m name = some a := by
  by_cases hkey : keyOf T name = key
  · rw [← hkey, object_erase_self] at h
    cases h
  · rwa [object_erase_of_ne hkey] at h

theorem mem_of_object (h : object T m name = some a) : keyOf T name ∈ m := by
  obtain ⟨entry, hentry, -⟩ := Option.bind_eq_some_iff.mp h
  exact Finmap.mem_iff.mpr ⟨entry, hentry⟩

theorem runOn_walletGet {entry : Entry} (h : m.lookup (keyOf T name) = some entry)
    (options : RecordOptions) :
    (walletGet (addPrefix T.name) name options).runOn m =
      (.ok (RecordMap.viewOf name (addPrefix T.name) entry
      options.retrieveType options.retrieveValue options.retrieveTags), m) := by
  rw [keyOf] at h
  rw [walletGet, Stateful.runOn_reads, RecordMap.get, h]

theorem runOn_walletGet_of_none (h : m.lookup (keyOf T name) = none) (options : RecordOptions) :
    (walletGet (addPrefix T.name) name options).runOn m = (.error (.err itemNotFound), m) := by
  rw [keyOf] at h
  rw [walletGet, Stateful.runOn_reads, RecordMap.get, h]

theorem runOn_getIndyRecordValue {entry : Entry} (h : m.lookup (keyOf T name) = some entry) :
    (getIndyRecordValue T name RecordOptions.idValue).runOn m = (.ok entry.value, m) := by
  rw [getIndyRecordValue, Stateful.runOn_bind_ok (runOn_walletGet h _)]
  rfl

theorem runOn_getIndyRecordValue_of_none (h : m.lookup (keyOf T name) = none)
    (options : RecordOptions) :
    (getIndyRecordValue T name options).runOn m = (.error (.err itemNotFound), m) :=
  Stateful.runOn_bind_error (runOn_walletGet_of_none h options)

theorem runOn_getIndyObject_of_none (h : m.lookup (keyOf T name) = none) :
    (getIndyObject T name).runOn m = (.error (.err itemNotFound), m) :=
  Stateful.runOn_bind_error (runOn_getIndyRecordValue_of_none h _)

theorem runOn_getIndyObject_of_lookup {entry : Entry} (h : m.lookup (keyOf T name) = some entry) :
    (getIndyObject T name).runOn m = ((T.fromJson entry.value).mapError fun e =>
      .err ⟨.invalidState, "Cannot deserialize \"" ++ T.name ++ "\"\n  Caused by: " ++ e⟩, m) := by
  rw [getIndyObject, Stateful.runOn_bind_ok (runOn_getIndyRecordValue h)]
  cases T.fromJson entry.value <;> rfl

/-- What `get_indy_object` finds. -/
theorem getIndyObject_eq_ok_iff : (getIndyObject T name).runOn m = (.ok a, m') ↔
    object T m name = some a ∧ m' = m := by
  rcases h : m.lookup (keyOf T name) with _ | entry
  · rw [runOn_getIndyObject_of_none h, object, h]
    simp
  · rw [runOn_getIndyObject_of_lookup h, object, h, Option.bind_some]
    cases T.fromJson entry.value <;> simp [Except.mapError, Except.toOption, eq_comm]

theorem runOn_getIndyObject (h : object T m name = some a) :
    (getIndyObject T name).runOn m = (.ok a, m) :=
  getIndyObject_eq_ok_iff.mpr ⟨h, rfl⟩

theorem snd_getIndyObject : ((getIndyObject T name).runOn m).2 = m := by
  rcases h : m.lookup (keyOf T name) with _ | entry
  · rw [runOn_getIndyObject_of_none h]
  · rw [runOn_getIndyObject_of_lookup h]

/-- The error of an object that is there already. -/
def alreadyExists (T : ObjectType α) (name : String) : Fault :=
  mapStorageFault (addPrefix T.name) name (.err itemAlreadyExists)

theorem runOn_addIndyObject (h : keyOf T name ∉ m) (a : α) :
    (addIndyObject T name a).runOn m =
      (.ok (T.toJson a), m.insert (keyOf T name) (entryOf T a)) := by
  have hadd : (addRecord (addPrefix T.name) name (T.toJson a) ∅).runOn m =
      (.ok (), m.insert (keyOf T name) (entryOf T a)) := by
    rw [keyOf] at h
    rw [addRecord, exec, Stateful.runOn_mapError, Stateful.runOn_step, RecordMap.add, if_neg h]
    rfl
  exact Stateful.runOn_bind_ok hadd

theorem runOn_addIndyObject_of_mem (h : keyOf T name ∈ m) (a : α) :
    (addIndyObject T name a).runOn m = (.error (alreadyExists T name), m) := by
  apply Stateful.runOn_bind_error
  rw [keyOf] at h
  rw [addRecord, exec, Stateful.runOn_mapError, Stateful.runOn_step, RecordMap.add, if_pos h]
  rfl

theorem runOn_updateIndyObject {entry : Entry} (h : m.lookup (keyOf T name) = some entry) (a : α) :
    (updateIndyObject T name a).runOn m =
      (.ok (T.toJson a), m.insert (keyOf T name) { entry with value := T.toJson a }) := by
  apply Stateful.runOn_bind_ok
  rw [exec, Stateful.runOn_step, ← keyOf, RecordMap.change_of_lookup h]
  rfl

theorem runOn_updateIndyObject_of_none (h : m.lookup (keyOf T name) = none) (a : α) :
    (updateIndyObject T name a).runOn m =
      (.error (.err ⟨.walletItemNotFound, "Item to update not found"⟩), m) := by
  apply Stateful.runOn_bind_error
  rw [exec, Stateful.runOn_step, ← keyOf, RecordMap.change_of_none h]
  rfl

theorem runOn_deleteIndyRecord (h : keyOf T name ∈ m) :
    (deleteIndyRecord T name).runOn m = (.ok (), m.erase (keyOf T name)) := by
  rw [keyOf] at h
  rw [deleteIndyRecord, deleteRecord, exec, Stateful.runOn_mapError, Stateful.runOn_step,
    RecordMap.delete, if_pos h]
  rfl

theorem runOn_deleteIndyRecord_of_notMem (h : keyOf T name ∉ m) :
    (deleteIndyRecord T name).runOn m = (.error (mapStorageFault (addPrefix T.name) name
      (.err ⟨.walletItemNotFound, "Item to delete not found"⟩)), m) := by
  rw [keyOf] at h
  rw [deleteIndyRecord, deleteRecord, exec, Stateful.runOn_mapError, Stateful.runOn_step,
    RecordMap.delete, if_neg h]
  rfl

theorem runOn_recordExists :
    (recordExists T name).runOn m = (.ok (decide (keyOf T name ∈ m)), m) := by
  rcases h : m.lookup (keyOf T name) with _ | entry
  · have hget := runOn_walletGet_of_none h RecordOptions.id
    have hmem : keyOf T name ∉ m := Finmap.lookup_eq_none.mp h
    rw [recordExists, Stateful.runOn_bind_ok (Stateful.runOn_attempt _ m), hget,
      decide_eq_false hmem]
    rfl
  · have hget := runOn_walletGet h RecordOptions.id
    have hmem : keyOf T name ∈ m := Finmap.mem_iff.mpr ⟨entry, h⟩
    rw [recordExists, Stateful.runOn_bind_ok (Stateful.runOn_attempt _ m), hget,
      decide_eq_true hmem]
    rfl

theorem runOn_upsertIndyObject_of_notMem (h : keyOf T name ∉ m) (a : α) :
    (upsertIndyObject T name a).runOn m =
      (.ok (T.toJson a), m.insert (keyOf T name) (entryOf T a)) := by
  rw [upsertIndyObject, Stateful.runOn_bind_ok runOn_recordExists, decide_eq_false h,
    if_neg Bool.false_ne_true, runOn_addIndyObject h]

theorem runOn_upsertIndyObject {entry : Entry} (h : m.lookup (keyOf T name) = some entry) (a : α) :
    (upsertIndyObject T name a).runOn m =
      (.ok (T.toJson a), m.insert (keyOf T name) { entry with value := T.toJson a }) := by
  have hmem : keyOf T name ∈ m := Finmap.mem_iff.mpr ⟨entry, h⟩
  rw [upsertIndyObject, Stateful.runOn_bind_ok runOn_recordExists, decide_eq_true hmem, if_pos rfl,
    runOn_updateIndyObject h]

end Specs

section Invariants
variable {α : Type} {T : ObjectType α} {P : RecordMap → Prop} {name : String} {a : α}

theorem keeps_getIndyObject : Stateful.Keeps P (getIndyObject T name) := by
  intro m hm
  rwa [snd_getIndyObject]

theorem keeps_getIndyRecordValue (options : RecordOptions) :
    Stateful.Keeps P (getIndyRecordValue T name options) := by
  refine Stateful.Keeps.bind (Stateful.keeps_reads _) ?_
  intro record
  split
  · exact Stateful.keeps_pure _
  · exact Stateful.keeps_throw _

theorem keeps_addRecord {type value : String} {tags : Tags}
    (h : ∀ m entry, P m → P (m.insert (type, name) entry)) :
    Stateful.Keeps P (addRecord type name value tags) := by
  intro m hm
  rw [addRecord, exec, Stateful.runOn_mapError, Stateful.runOn_step, RecordMap.add]
  split_ifs with hmem
  · exact hm
  · exact h m _ hm

/-- What a write of an object has to keep, whether the record is new or not. -/
def Writable (P : RecordMap → Prop) (T : ObjectType α) (name : String) (a : α) : Prop :=
  ∀ m entry, P m → entry.value = T.toJson a → P (m.insert (keyOf T name) entry)

theorem keeps_addIndyObject
    (h : ∀ m, P m → keyOf T name ∉ m → P (m.insert (keyOf T name) (entryOf T a))) :
    Stateful.Keeps P (addIndyObject T name a) := by
  intro m hm
  by_cases hmem : keyOf T name ∈ m
  · rwa [runOn_addIndyObject_of_mem hmem]
  · rw [runOn_addIndyObject hmem]
    exact h m hm hmem

theorem keeps_updateIndyObject (h : Writable P T name a) :
    Stateful.Keeps P (updateIndyObject T name a) := by
  intro m hm
  rcases hkey : m.lookup (keyOf T name) with _ | entry
  · rwa [runOn_updateIndyObject_of_none hkey]
  · rw [runOn_updateIndyObject hkey]
    exact h m _ hm rfl

theorem keeps_upsertIndyObject (h : Writable P T name a) :
    Stateful.Keeps P (upsertIndyObject T name a) := by
  intro m hm
  rcases hkey : m.lookup (keyOf T name) with _ | entry
  · rw [runOn_upsertIndyObject_of_notMem (Finmap.lookup_eq_none.mp hkey)]
    exact h m _ hm rfl
  · rw [runOn_upsertIndyObject hkey]
    exact h m _ hm rfl

theorem keeps_deleteIndyRecord (h : ∀ m, P m → P (m.erase (keyOf T name))) :
    Stateful.Keeps P (deleteIndyRecord T name) := by
  intro m hm
  by_cases hmem : keyOf T name ∈ m
  · rw [runOn_deleteIndyRecord hmem]
    exact h m hm
  · rwa [runOn_deleteIndyRecord_of_notMem hmem]

end Invariants


end WalletService

end SimpleAsset.Indy.Wallet
