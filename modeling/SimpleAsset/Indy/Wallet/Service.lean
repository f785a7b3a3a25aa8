import Mathlib.Data.Finset.Image
import SimpleAsset.Library.Table
import SimpleAsset.Indy.Result

/-! `WalletService` (indy-wallet/src/lib.rs) over the default storage: the calls that open, close
and delete wallets. -/
namespace SimpleAsset.Indy.Wallet
open SimpleAsset.Library

/-- Id and storage path of a wallet; `storage_config` is read for its `path` only. -/
structure Config where
  id : String
  path : Option String
  deriving DecidableEq, Repr

inductive KeyDerivationMethod
  | raw
  | argon2iMod
  | argon2iInt
  deriving DecidableEq, Repr

structure Credentials where
  key : String
  rekey : Option String
  keyDerivationMethod : KeyDerivationMethod
  rekeyDerivationMethod : KeyDerivationMethod
  deriving DecidableEq, Repr

inductive KeyDerivationData
  | raw (passphrase : String)
  | argon2iMod (passphrase : String) (salt : Bytes)
  | argon2iInt (passphrase : String) (salt : Bytes)
  deriving DecidableEq, Repr

inductive Metadata
  | argon (keys masterKeySalt : Bytes)
  | raw (keys : Bytes)
  deriving DecidableEq, Repr

def Metadata.getKeys : Metadata → Bytes
  | .argon keys _ => keys
  | .raw keys => keys

/-- `pwhash_argon2i13::SALTBYTES`. -/
def saltBytes : ℕ := 32

def masterKeySaltFromSlice (slice : Bytes) : IndyResult Bytes :=
  if slice.length = saltBytes then .ok slice
    else .error ⟨.walletAccessFailed, "Invalid master key salt"⟩

def KeyDerivationData.fromPassphraseAndMetadata (passphrase : String) (metadata : Metadata)
    (derivationMethod : KeyDerivationMethod) : IndyResult KeyDerivationData :=
  match derivationMethod, metadata with
  | .raw, .raw _ => .ok (.raw passphrase)
  | .argon2iInt, .argon _ masterKeySalt => do
    let salt ← masterKeySaltFromSlice masterKeySalt
    pure (.argon2iInt passphrase salt)
  | .argon2iMod, .argon _ masterKeySalt => do
    let salt ← masterKeySaltFromSlice masterKeySalt
    pure (.argon2iMod passphrase salt)
  | _, _ => .error ⟨.walletAccessFailed, "Invalid combination of KeyDerivationMethod and Metadata"⟩

/-- `from_passphrase_with_new_salt`, with the salt that was drawn. -/
def KeyDerivationData.fromPassphraseWithNewSalt (passphrase : String)
    (derivationMethod : KeyDerivationMethod) (salt : Bytes) : KeyDerivationData :=
  match derivationMethod with
  | .argon2iInt => .argon2iInt passphrase salt
  | .argon2iMod => .argon2iMod passphrase salt
  | .raw => .raw passphrase

/-- `PathBuf::push`. -/
def pushPath (path component : String) : String :=
  if component.toList.head? = some '/' then component
  else if path = "" ∨ path.toList.getLast? = some '/' then path ++ component
  else path ++ "/" ++ component

/-- What the service uses of the file system and of the cryptography of keys. -/
structure Environment where
  File : Type
  [decidableFile : DecidableEq File]
  /-- `environment::wallet_home_path`. -/
  walletHomePath : String
  /-- The file that a path leads to. -/
  fileAt : String → File
  /-- The files that `remove_dir_all` of a directory takes along. -/
  inTree : String → File → Bool
  inOwnTree : ∀ dir, inTree dir (fileAt (pushPath dir "sqlite.db")) = true
  MasterKey : Type
  Keys : Type
  /-- `Keys::deserialize_encrypted`, which fails for a wrong key. -/
  deserializeEncrypted : Bytes → MasterKey → IndyResult Keys
  /-- `Keys::serialize_encrypted` with the nonce that was drawn. -/
  serializeEncrypted : Keys → MasterKey → Bytes → Bytes

instance (E : Environment) : DecidableEq E.File := E.decidableFile

section Paths
variable (E : Environment)

/-- The directory of a wallet, the parent of `_db_path`. -/
def walletDir (config : Config) : String := pushPath (config.path.getD E.walletHomePath) config.id

def dbPath (config : Config) : String := pushPath (walletDir E config) "sqlite.db"

/-- The storage of a wallet. -/
def storageFile (config : Config) : E.File := E.fileAt (dbPath E config)

end Paths

/-- `_get_wallet_id`. -/
def getWalletId (config : Config) : String := config.id ++ config.path.getD ""

abbrev WalletHandle := BitVec 32

structure OpenWallet (E : Environment) where
  id : String
  storage : E.File
  keys : E.Keys

structure PendingOpen (E : Environment) where
  id : String
  storage : E.File
  metadata : Metadata
  rekeyData : Option KeyDerivationData

structure WalletService (E : Environment) where
  wallets : Table WalletHandle (OpenWallet E)
  walletIds : Finset String
  pendingForOpen : Table WalletHandle (PendingOpen E)
  /-- `IDS_COUNTER`, which other handles are taken from too. -/
  idsCounter : ℕ
  /-- The storages on disk with their metadata; `none` for metadata that does not parse. -/
  disk : Table E.File (Option Metadata)

section Calls
variable {E : Environment} (s : WalletService E)

def openStorage (config : Config) : IndyResult E.File :=
  if (s.disk.lookup (storageFile E config)).isSome then .ok (storageFile E config)
  else .error ⟨.walletNotFound, "No wallet database exists"⟩

def getStorageMetadata (storage : E.File) : IndyResult Metadata :=
  match s.disk.lookup storage with
  | some (some metadata) => .ok metadata
  | _ => .error ⟨.invalidState, "Cannot deserialize metadata"⟩

def openStorageAndFetchMetadata (config : Config) (credentials : Credentials) :
    IndyResult (E.File × Metadata × KeyDerivationData) := do
  let storage ← openStorage s config
  let metadata ← getStorageMetadata s storage
  let keyDerivationData ← KeyDerivationData.fromPassphraseAndMetadata credentials.key metadata
    credentials.keyDerivationMethod
  pure (storage, metadata, keyDerivationData)

def isIdFromConfigNotUsed (config : Config) : IndyResult Unit :=
  if getWalletId config ∈ s.walletIds then
    .error ⟨.walletAlreadyOpened, "Wallet " ++ getWalletId config ++ " already opened"⟩
  else .ok ()

/-- `next_wallet_handle`: the counter as an `i32`. -/
def nextWalletHandle : WalletHandle := BitVec.ofNat 32 (s.idsCounter + 1)

def openWalletPrepare (config : Config) (credentials : Credentials) (salt : Bytes) :
    WalletService E × IndyResult (WalletHandle × KeyDerivationData × Option KeyDerivationData) :=
  let opened := do
    isIdFromConfigNotUsed s config
    openStorageAndFetchMetadata s config credentials
  match opened with
  | .error e => (s, .error e)
  | .ok (storage, metadata, keyDerivationData) =>
    let handle := nextWalletHandle s
    let rekeyData := credentials.rekey.map fun rekey =>
      KeyDerivationData.fromPassphraseWithNewSalt rekey credentials.rekeyDerivationMethod salt
    ({ s with
        idsCounter := s.idsCounter + 1
        pendingForOpen :=
          s.pendingForOpen.insert handle ⟨getWalletId config, storage, metadata, rekeyData⟩ },
      .ok (handle, keyDerivationData, rekeyData))

variable (E) in
def restoreKeys (metadata : Metadata) (masterKey : E.MasterKey) : IndyResult E.Keys :=
  match E.deserializeEncrypted metadata.getKeys masterKey with
  | .ok keys => .ok keys
  | .error _ => .error ⟨.walletAccessFailed, "Invalid master key provided"⟩

variable (E) in
def prepareMetadata (masterKey : E.MasterKey) (keyData : KeyDerivationData) (keys : E.Keys)
    (nonce : Bytes) : Metadata :=
  let encryptedKeys := E.serializeEncrypted keys masterKey nonce
  match keyData with
  | .raw _ => .raw encryptedKeys
  | .argon2iInt _ salt => .argon encryptedKeys salt
  | .argon2iMod _ salt => .argon encryptedKeys salt

/-- `set_storage_metadata`; SQLite refuses to write to a database that was removed. -/
def setStorageMetadata (storage : E.File) (metadata : Metadata) :
    IndyResult (Table E.File (Option Metadata)) :=
  if (s.disk.lookup storage).isSome then .ok (s.disk.insert storage (some metadata))
  else .error ⟨.invalidState, "Unexpected sqlite error"⟩

/-- The rotation of the master key. -/
def rekeyStorage (p : PendingOpen E) (rekey : Option E.MasterKey) (keys : E.Keys) (nonce : Bytes) :
    IndyResult (Table E.File (Option Metadata)) :=
  match rekey, p.rekeyData with
  | some rekey, some rekeyData =>
    setStorageMetadata s p.storage (prepareMetadata E rekey rekeyData keys nonce)
  | _, _ => .ok s.disk

def openWalletContinue (handle : WalletHandle) (masterKey : E.MasterKey)
    (rekey : Option E.MasterKey) (nonce : Bytes) :
    WalletService E × IndyResult WalletHandle :=
  match s.pendingForOpen.lookup handle with
  | none => (s, .error ⟨.invalidState, "Open data not found"⟩)
  | some p =>
    let s := { s with pendingForOpen := s.pendingForOpen.erase handle }
    let restored := do
      let keys ← restoreKeys E p.metadata masterKey
      let disk ← rekeyStorage s p rekey keys nonce
      pure (keys, disk)
    match restored with
    | .error e => (s, .error e)
    | .ok (keys, disk) =>
      ({ s with
          disk := disk
          wallets := s.wallets.insert handle ⟨p.id, p.storage, keys⟩
          walletIds := insert p.id s.walletIds },
        .ok handle)

def closeWallet (handle : WalletHandle) : WalletService E × IndyResult Unit :=
  match s.wallets.lookup handle with
  | none => (s, .error ⟨.invalidWalletHandle, "Unknown wallet handle"⟩)
  | some wallet =>
    ({ s with wallets := s.wallets.erase handle, walletIds := s.walletIds.erase wallet.id }, .ok ())

def deleteWalletPrepare (config : Config) (credentials : Credentials) :
    IndyResult (Metadata × KeyDerivationData) :=
  if getWalletId config ∈ s.walletIds then
    .error ⟨.invalidState, "Wallet has to be closed before deleting: \"" ++
      getWalletId config ++ "\""⟩
  else do
    let (_, metadata, keyDerivationData) ← openStorageAndFetchMetadata s config credentials
    pure (metadata, keyDerivationData)

/-- `delete_storage`: the directory of the wallet goes with everything in it. -/
def deleteStorage (config : Config) : IndyResult (Table E.File (Option Metadata)) :=
  if (s.disk.lookup (storageFile E config)).isSome then
    .ok (s.disk.filter fun file _ => !E.inTree (walletDir E config) file)
  else .error ⟨.walletNotFound, "Wallet storage file isn't found"⟩

def deleteWalletContinue (config : Config) (metadata : Metadata) (masterKey : E.MasterKey) :
    WalletService E × IndyResult Unit :=
  let deleted := do
    let _ ← restoreKeys E metadata masterKey
    deleteStorage s config
  match deleted with
  | .error e => (s, .error e)
  | .ok disk => ({ s with disk := disk }, .ok ())

end Calls

/-- A call of the service, in the order the executor makes them. -/
inductive Call (E : Environment)
  | openWalletPrepare (config : Config) (credentials : Credentials) (salt : Bytes)
  | openWalletContinue (handle : WalletHandle) (masterKey : E.MasterKey)
      (rekey : Option E.MasterKey) (nonce : Bytes)
  | closeWallet (handle : WalletHandle)
  | deleteWalletPrepare (config : Config) (credentials : Credentials)
  | deleteWalletContinue (config : Config) (metadata : Metadata) (masterKey : E.MasterKey)
  /-- Another part of the library takes a handle from the counter. -/
  | getNextId

def call {E : Environment} (s : WalletService E) : Call E → WalletService E
  | .openWalletPrepare config credentials salt => (openWalletPrepare s config credentials salt).1
  | .openWalletContinue handle masterKey rekey nonce =>
    (openWalletContinue s handle masterKey rekey nonce).1
  | .closeWallet handle => (closeWallet s handle).1
  | .deleteWalletPrepare _ _ => s
  | .deleteWalletContinue config metadata masterKey =>
    (deleteWalletContinue s config metadata masterKey).1
  | .getNextId => { s with idsCounter := s.idsCounter + 1 }

/-- The service at the start, over some disk. -/
def newService {E : Environment} (idsCounter : ℕ) (disk : Table E.File (Option Metadata)) :
    WalletService E :=
  ⟨∅, ∅, ∅, idsCounter, disk⟩

end SimpleAsset.Indy.Wallet
