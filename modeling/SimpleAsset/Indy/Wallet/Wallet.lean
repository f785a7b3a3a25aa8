import SimpleAsset.Indy.Wallet.Search
import SimpleAsset.Indy.Wql.Parser

/-! Records of a wallet (wallet.rs, iterator.rs): what callers write is encrypted before it is
stored. -/
namespace SimpleAsset.Indy.Wallet
open SimpleAsset.Library
open Anoncreds (Query)

structure WalletRecord where
  id : String
  type : Option String
  value : Option String
  tags : Option (Table String String)

section Records
variable (C : Cipher) (keys : Keys)

def encryptType (type : String) : Bytes :=
  encryptAsSearchable C (asBytes type) keys.typeKey keys.itemHmacKey

def encryptName (name : String) : Bytes :=
  encryptAsSearchable C (asBytes name) keys.nameKey keys.itemHmacKey

def decryptValue : Option EncryptedValue → Outcome (Option String)
  | none => .ok none
  | some value => do
    let value ← value.decrypt C keys.valueKey
    pure (some value)

def decryptType : Option Bytes → Outcome (Option String)
  | none => .ok none
  | some type => do
    let type ← decryptMerged C type keys.typeKey
    let type ← utf8OrElse ⟨.walletEncryptionError, "Record type is invalid utf8"⟩ type
    pure (some type)

def decryptStorageRecord (record : StorageRecord) : Outcome WalletRecord := do
  let name ← decryptMerged C record.id keys.nameKey
  let name ← utf8OrElse ⟨.walletEncryptionError, "Record is invalid utf8"⟩ name
  let value ← decryptValue C keys record.value
  let type ← decryptType C keys record.type
  let tags ← decryptTags C keys record.tags
  pure ⟨name, type, value, tags⟩

/-- `WalletIterator::next` until there is no record left. -/
def decryptAll : List StorageRecord → Outcome (List WalletRecord)
  | [] => .ok []
  | record :: records => do
    let record ← decryptStorageRecord C keys record
    let records ← decryptAll records
    pure (record :: records)

end Records

section Operations
variable (C : Cipher) (keys : Keys) (S : Sqlite) (build : Build)

def add (type name value : String) (tags : Table String String) (random : ValueRandom) : Sql Unit :=
  SQLiteStorage.add S (encryptType C keys type) (encryptName C keys name)
    (EncryptedValue.encrypt C value keys.valueKey random) (encryptTags C keys tags)

def addTags (type name : String) (tags : Table String String) : Sql Unit :=
  SQLiteStorage.addTags (encryptType C keys type) (encryptName C keys name)
    (encryptTags C keys tags)

def updateTags (type name : String) (tags : Table String String) : Sql Unit :=
  SQLiteStorage.updateTags (encryptType C keys type) (encryptName C keys name)
    (encryptTags C keys tags)

def deleteTags (type name : String) (tagNames : List String) : Sql Unit :=
  SQLiteStorage.deleteTags (encryptType C keys type) (encryptName C keys name)
    (encryptTagNames C keys tagNames)

def update (type name newValue : String) (random : ValueRandom) : Sql Unit :=
  SQLiteStorage.update (encryptType C keys type) (encryptName C keys name)
    (EncryptedValue.encrypt C newValue keys.valueKey random)

def get (type name : String) (options : Option RecordOptions) (db : Db) : Outcome WalletRecord := do
  let result ← ofIndyResult
      (SQLiteStorage.get (encryptType C keys type) (encryptName C keys name) options db)
  let value ← decryptValue C keys result.value
  let tags ← decryptTags C keys result.tags
  pure ⟨name, result.type.map fun _ => type, value, tags⟩

def delete (foreignKeys : Bool) (type name : String) : Sql Unit :=
  SQLiteStorage.delete foreignKeys (encryptType C keys type) (encryptName C keys name)

/-- The query of a search. Its text is read as the JSON value that it was written from. -/
def parsedQuery (query : Json) : Outcome Query :=
  match Wql.deserialize query with
  | .ok query => .ok query
  | .error err => errMsg .walletQueryError err

/-- `search` up to its iterator. -/
def search (type : String) (query : Json) (options : Option SearchOptions) (db : Db) :
    Outcome (Option ℕ × List StorageRecord) := do
  let query ← parsedQuery query
  let encryptedQuery ← ofIndyResult (transform C keys (optimised query))
  SQLiteStorage.search S build (encryptType C keys type) encryptedQuery options db

/-- A search whose iterator is asked until it has no record left. -/
def searchAll (type : String) (query : Json) (options : Option SearchOptions) (db : Db) :
    Outcome (Option ℕ × List WalletRecord) := do
  let (totalCount, records) ← search C keys S build type query options db
  let records ← decryptAll C keys records
  pure (totalCount, records)

/-- All that `SQLiteStorage::get_all` goes through. -/
def SQLiteStorage.getAll (db : Db) : List StorageRecord :=
  db.items.entries.map fun e =>
    ⟨e.2.name, some ⟨e.2.value, e.2.key⟩, some e.2.type,
      some (db.plaintextTagsOf e.1 ++ db.encryptedTagsOf e.1)⟩

def getAll (db : Db) : Outcome (List WalletRecord) := decryptAll C keys (SQLiteStorage.getAll db)

end Operations

section Calls

/-- A connection to the database of a wallet, and whether it enforces foreign keys. -/
structure Connection where
  db : Db
  foreignKeys : Bool

/-- `create_storage`: the schema is made over a connection with `PRAGMA foreign_keys=ON`, which is
then dropped. -/
def SQLiteStorageType.createStorage : Connection := ⟨emptyDb, true⟩

/-- `open_storage`: a new connection, to which nothing is said about foreign keys. -/
def SQLiteStorageType.openStorage (S : Sqlite) (db : Db) : Connection := ⟨db, S.foreignKeys⟩

def newWallet (S : Sqlite) : Connection :=
  SQLiteStorageType.openStorage S SQLiteStorageType.createStorage.db

inductive RecordCall
  | add (type name value : String) (tags : Table String String) (random : ValueRandom)
  | update (type name newValue : String) (random : ValueRandom)
  | addTags (type name : String) (tags : Table String String)
  | updateTags (type name : String) (tags : Table String String)
  | deleteTags (type name : String) (tagNames : List String)
  | delete (type name : String)
  | get (type name : String) (options : Option RecordOptions)
  /-- A search of which all records are fetched. -/
  | search (type : String) (query : Json) (options : Option SearchOptions)
  /-- The wallet is closed and opened again. -/
  | reopen

inductive RecordReply
  | unit
  | record (record : WalletRecord)
  | found (totalCount : Option ℕ) (records : List WalletRecord)

variable (C : Cipher) (keys : Keys) (S : Sqlite) (build : Build)

/-- A call that writes. -/
def Connection.exec (conn : Connection) (statement : Sql Unit) : Outcome RecordReply × Connection :=
  match statement conn.db with
  | (.ok _, db) => (.ok .unit, { conn with db := db })
  | (.error e, db) => (.error (.err e), { conn with db := db })

def Connection.call (conn : Connection) : RecordCall → Outcome RecordReply × Connection
  | .add type name value tags random => conn.exec (Wallet.add C keys S type name value tags random)
  | .update type name newValue random => conn.exec (Wallet.update C keys type name newValue random)
  | .addTags type name tags => conn.exec (Wallet.addTags C keys type name tags)
  | .updateTags type name tags => conn.exec (Wallet.updateTags C keys type name tags)
  | .deleteTags type name tagNames => conn.exec (Wallet.deleteTags C keys type name tagNames)
  | .delete type name => conn.exec (Wallet.delete C keys conn.foreignKeys type name)
  | .get type name options => ((Wallet.get C keys type name options conn.db).map .record, conn)
  | .search type query options =>
    ((Wallet.searchAll C keys S build type query options conn.db).map fun r => .found r.1 r.2, conn)
  | .reopen => (.ok .unit, SQLiteStorageType.openStorage S conn.db)

end Calls

end SimpleAsset.Indy.Wallet
