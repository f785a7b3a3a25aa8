import SimpleAsset.Indy.Wallet.ExportImport

/-! Imports of `WalletService` (indy-wallet/src/lib.rs), with the records that the storages hold. -/
namespace SimpleAsset.Indy.Wallet
open SimpleAsset.Library

/-- What an import uses of the file system, of the cryptography and of the formats. -/
structure Platform where
  File : Type
  [decidableFile : DecidableEq File]
  walletHomePath : String
  fileAt : String → File
  inTree : String → File → Bool
  inOwnTree : ∀ dir, inTree dir (fileAt (pushPath dir "sqlite.db")) = true
  deserializeEncrypted : Bytes → Key → IndyResult Keys
  serializeEncrypted : Keys → Key → Bytes → Bytes
  deserialize_serialize : ∀ keys key nonce,
    deserializeEncrypted (serializeEncrypted keys key nonce) key = .ok keys
  cipher : Cipher
  sqlite : Sqlite
  build : Build
  aead : Aead
  codec : Codec

instance (P : Platform) : DecidableEq P.File := P.decidableFile

abbrev Platform.environment (P : Platform) : Environment where
  File := P.File
  decidableFile := P.decidableFile
  walletHomePath := P.walletHomePath
  fileAt := P.fileAt
  inTree := P.inTree
  inOwnTree := P.inOwnTree
  MasterKey := Key
  Keys := Keys
  deserializeEncrypted := P.deserializeEncrypted
  serializeEncrypted := P.serializeEncrypted

structure PendingImport where
  reader : Bytes
  nonce : Nonce
  chunkSize : ℕ
  headerBytes : Bytes
  keyData : KeyDerivationData

structure ImportService (P : Platform) where
  service : WalletService P.environment
  /-- The records in the storages that are on disk. -/
  contents : P.File → Db
  pendingForImport : Table WalletHandle PendingImport

/-- What `import_wallet_continue` draws. -/
structure ImportRandom where
  keys : Keys
  nonce : Bytes
  values : ℕ → ValueRandom

section Calls
variable {P : Platform} (s : ImportService P)

/-- A storage with its metadata and its records. -/
def ImportService.storage? (file : P.File) : Option (Option Metadata × Db) :=
  (s.service.disk.lookup file).map fun metadata => (metadata, s.contents file)

/-- `_create_wallet` with `create_storage`. -/
def createWallet (config : Config) (keyData : KeyDerivationData) (masterKey : Key)
    (random : ImportRandom) :
    ImportService P × IndyResult Keys :=
  let metadata := prepareMetadata P.environment masterKey keyData random.keys random.nonce
  let file := storageFile P.environment config
  if (s.service.disk.lookup file).isSome then
    (s, .error ⟨.walletAlreadyExists, "Wallet database file already exists"⟩)
  else
    ({ s with
        service := { s.service with disk := s.service.disk.insert file (some metadata) }
        contents := Function.update s.contents file SQLiteStorageType.createStorage.db },
      .ok random.keys)

/-- `import_wallet_prepare` for a file with these bytes, or one that cannot be opened. -/
def importWalletPrepare (credentials : Credentials) (file : Option Bytes) (exportKey : String)
    (salt : Bytes) :
    ImportService P × IndyResult (WalletHandle × KeyDerivationData × KeyDerivationData) :=
  match file with
  | none => (s, .error ⟨.ioError, "IO error"⟩)
  | some bytes => match preparseFileToImport P.codec bytes exportKey with
    | .error e => (s, .error e)
    | .ok p =>
      let keyData := KeyDerivationData.fromPassphraseWithNewSalt credentials.key
        credentials.keyDerivationMethod salt
      let handle := nextWalletHandle s.service
      ({ s with
          service := { s.service with idsCounter := s.service.idsCounter + 1 }
          pendingForImport := s.pendingForImport.insert handle
            ⟨p.reader, p.nonce, p.chunkSize, p.headerBytes, keyData⟩ },
        .ok (handle, keyData, p.keyData))

/-- The steps of `import_wallet_continue` after the wallet was created. -/
def fillWallet (config : Config) (importKey masterKey : Key) (p : PendingImport) (keys : Keys)
    (values : ℕ → ValueRandom) : ImportService P × Outcome Unit :=
  let opened := do
    isIdFromConfigNotUsed s.service config
    openStorage s.service config
  match opened with
  | .error e => (s, .error (.err e))
  | .ok storage =>
    let (res, db) :=
      finishImport P.cipher keys P.sqlite P.build P.aead P.codec values importKey p.reader p.nonce
      p.chunkSize p.headerBytes (s.contents storage)
    let s := { s with contents := Function.update s.contents storage db }
    match res with
    | .error (.err e) =>
      let deleted := do
        let metadata ← getStorageMetadata s.service storage
        pure (deleteWalletContinue s.service config metadata masterKey)
      match deleted with
      | .error e' => (s, .error (.err e'))
      | .ok (service, .error e') => ({ s with service := service }, .error (.err e'))
      | .ok (service, .ok _) => ({ s with service := service }, .error (.err e))
    -- a panic unwinds, and nothing is cleaned up
    | res => (s, res)

def importWalletContinue (handle : WalletHandle) (config : Config) (importKey masterKey : Key)
    (random : ImportRandom) :
    ImportService P × Outcome Unit :=
  match s.pendingForImport.lookup handle with
  | none => (s, .error (.panic .unwrapNone))
  | some p =>
    let s := { s with pendingForImport := s.pendingForImport.erase handle }
    match createWallet s config p.keyData masterKey random with
    | (s, .error e) => (s, .error (.err e))
    | (s, .ok keys) => fillWallet s config importKey masterKey p keys random.values

end Calls

end SimpleAsset.Indy.Wallet
