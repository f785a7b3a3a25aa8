import SimpleAsset.Indy.Wallet.ChunkedStream
import SimpleAsset.Indy.Wallet.RecordMap
import SimpleAsset.Indy.Wallet.Service

/-! Export files (export_import.rs): a plain header, and the records as an encrypted stream. -/
namespace SimpleAsset.Indy.Wallet
open SimpleAsset.Library

/-- `chunk_size` of the exporter. -/
def exportChunkSize : ChunkSize := ⟨1024, by decide⟩

def hashBytes : ℕ := 32

inductive EncryptionMethod
  | chaCha20Poly1305IETF (salt nonce : Bytes) (chunkSize : ℕ)
  | chaCha20Poly1305IETFInteractive (salt nonce : Bytes) (chunkSize : ℕ)
  | chaCha20Poly1305IETFRaw (nonce : Bytes) (chunkSize : ℕ)
  deriving DecidableEq, Repr

structure Header where
  encryptionMethod : EncryptionMethod
  time : UInt64
  version : UInt32
  deriving DecidableEq, Repr

/-- Salts, nonces and chunk sizes have the lengths of their types. -/
def EncryptionMethod.Sized : EncryptionMethod → Prop
  | .chaCha20Poly1305IETF salt nonce chunkSize | .chaCha20Poly1305IETFInteractive salt nonce
      chunkSize =>
    salt.length = saltBytes ∧ nonce.length = 12 ∧ chunkSize < 2 ^ 64
  | .chaCha20Poly1305IETFRaw nonce chunkSize => nonce.length = 12 ∧ chunkSize < 2 ^ 64

structure Record where
  type : String
  id : String
  value : String
  tags : Table String String

/-- The entry of a map that a record is. -/
def Record.entry (r : Record) : (_ : String × String) × Entry :=
  ⟨(r.type, r.id), ⟨r.value, r.tags.toFinmap⟩⟩

/-- `rmp_serde` at the types of an export file, and `hash`. The order of tags may be lost. -/
structure Codec where
  encodeHeader : Header → Bytes
  decodeHeader : Bytes → Option Header
  encodeRecord : Record → Bytes
  decodeRecord : Bytes → Option Record
  hash : Bytes → Bytes
  decode_encodeHeader : ∀ header, header.encryptionMethod.Sized →
    decodeHeader (encodeHeader header) = some header
  encodeHeader_ne_nil : ∀ header, encodeHeader header ≠ []
  length_encodeHeader : ∀ header, header.encryptionMethod.Sized →
    (encodeHeader header).length < 2 ^ 32
  decode_encodeRecord : ∀ record, ∃ decoded, decodeRecord (encodeRecord record) = some decoded ∧
    decoded.entry = record.entry
  encodeRecord_ne_nil : ∀ record, encodeRecord record ≠ []
  length_hash : ∀ bytes, (hash bytes).length = hashBytes

section Export
variable (C : Cipher) (keys : Keys) (A : Aead) (codec : Codec)

def encryptionMethodOf (keyData : KeyDerivationData) (nonce : Nonce) (chunkSize : ℕ) :
    EncryptionMethod :=
  match keyData with
  | .argon2iMod _ salt => .chaCha20Poly1305IETF salt nonce.1 chunkSize
  | .argon2iInt _ salt => .chaCha20Poly1305IETFInteractive salt nonce.1 chunkSize
  | .raw _ => .chaCha20Poly1305IETFRaw nonce.1 chunkSize

def recordOf (r : WalletRecord) : Outcome Record := do
  let type ← match r.type with
    | some type => Except.ok type
    | none => errMsg .invalidState "No type fetched for exported record"
  let value ← match r.value with
    | some value => Except.ok value
    | none => errMsg .invalidState "No value fetched for exported record"
  let tags ← match r.tags with
    | some tags => Except.ok tags
    | none => errMsg .invalidState "No tags fetched for exported record"
  pure ⟨type, r.id, value, tags⟩

/-- A record on the stream, after its length. -/
def writeRecord (key : Key) (chunkSize : ChunkSize) (w : Writer) (r : WalletRecord) :
    Outcome Writer := do
  let record ← recordOf r
  let bytes := codec.encodeRecord record
  let w := w.write A key chunkSize (toLe 4 bytes.length)
  pure (w.write A key chunkSize bytes)

/-- The plain part of a file. -/
def plainHeader (header : Bytes) : Bytes := toLe 4 header.length ++ header

/-- `export_continue`, at the time `time` and with the nonce that was drawn: the bytes of the
file. -/
def exportContinue (db : Db) (version : UInt32) (key : Key) (keyData : KeyDerivationData)
    (nonce : Nonce) (chunkSize : ChunkSize) (time : UInt64) : Outcome Bytes := do
  let header := codec.encodeHeader ⟨encryptionMethodOf keyData nonce chunkSize.1, time, version⟩
  let w : Writer := ⟨[], nonce, plainHeader header⟩
  let w := w.write A key chunkSize (codec.hash header)
  let records ← getAll C keys db
  let w ← records.foldlM (writeRecord A codec key chunkSize) w
  let w := w.write A key chunkSize (toLe 4 0)
  pure (w.flush A key).inner

end Export

section Import
variable (C : Cipher) (keys : Keys) (S : Sqlite) (build : Build) (A : Aead) (codec : Codec)

/-- `_map_io_err`. -/
def mapIoErr : IoErrorKind → IndyError
  | .unexpectedEof | .invalidData => ⟨.invalidStructure, "Invalid export file format"⟩

/-- `read_exact` on the plain part. -/
def readExact (bytes : Bytes) (count : ℕ) : IndyResult (Bytes × Bytes) :=
  if count ≤ bytes.length then .ok (bytes.take count, bytes.drop count)
    else .error (mapIoErr .unexpectedEof)

def saltFromSlice (slice : Bytes) : IndyResult Bytes :=
  if slice.length = saltBytes then .ok slice else .error ⟨.invalidStructure, "Invalid salt"⟩

def nonceFromSlice (slice : Bytes) : IndyResult Nonce :=
  if h : slice.length = 12 then .ok ⟨slice, h⟩ else .error ⟨.invalidStructure, "Invalid nonce"⟩

structure Preparsed where
  /-- What is left of the file. -/
  reader : Bytes
  keyData : KeyDerivationData
  nonce : Nonce
  chunkSize : ℕ
  headerBytes : Bytes

def keyDataOf (passphrase : String) : EncryptionMethod → IndyResult (KeyDerivationData × Nonce × ℕ)
  | .chaCha20Poly1305IETF salt nonce chunkSize => do
    let salt ← saltFromSlice salt
    let nonce ← nonceFromSlice nonce
    pure (.argon2iMod passphrase salt, nonce, chunkSize)
  | .chaCha20Poly1305IETFInteractive salt nonce chunkSize => do
    let salt ← saltFromSlice salt
    let nonce ← nonceFromSlice nonce
    pure (.argon2iInt passphrase salt, nonce, chunkSize)
  | .chaCha20Poly1305IETFRaw nonce chunkSize => do
    let nonce ← nonceFromSlice nonce
    pure (.raw passphrase, nonce, chunkSize)

def preparseFileToImport (file : Bytes) (passphrase : String) : IndyResult Preparsed := do
  let (lengthBytes, reader) ← readExact file 4
  let headerLen := ofLe lengthBytes
  if headerLen = 0 then .error ⟨.invalidStructure, "Invalid header length"⟩
  else
    let (headerBytes, reader) ← readExact reader headerLen
    match codec.decodeHeader headerBytes with
    | none => .error ⟨.invalidStructure, "Header is malformed json"⟩
    | some header =>
      if header.version ≠ 0 then .error ⟨.invalidStructure, "Unsupported version"⟩
      else
        let (keyData, nonce, chunkSize) ← keyDataOf passphrase header.encryptionMethod
        pure ⟨reader, keyData, nonce, chunkSize, headerBytes⟩

/-- `wallet.add` of a record, with what is drawn for its value. -/
def addRecord (random : ValueRandom) (record : Record) (db : Db) : Outcome Unit × Db :=
  match Wallet.add C keys S record.type record.id record.value record.tags random db with
  | (.ok _, db) => (.ok (), db)
  | (.error e, db) => (.error (.err e), db)

variable (random : ℕ → ValueRandom) (key : Key) (bufferLength : ℕ)

/-- The loop of `finish_import` after `count` records. -/
def importRecords (r : Reader) (db : Db) (count : ℕ) : Outcome Unit × Db :=
  match _hlength : r.read A key bufferLength 4 with
  | .error e => (.error (.err (mapIoErr e)), db)
  | .ok (lengthBytes, r₁) =>
    let recordLen := ofLe lengthBytes
    if recordLen = 0 then (.ok (), db)
    else match _hrecord : r₁.read A key bufferLength recordLen with
      | .error e => (.error (.err (mapIoErr e)), db)
      | .ok (bytes, r₂) => match codec.decodeRecord bytes with
        | none => (errMsg .invalidStructure "Record is malformed msgpack", db)
        | some record => match addRecord C keys S (random count) record db with
          | (.ok _, db) => importRecords r₂ db (count + 1)
          | (.error fault, db) => (.error fault, db)
termination_by r.size
decreasing_by
  have hlength := Reader.size_read _hlength
  have hrecord := Reader.size_read _hrecord
  omega

/-- `finish_import` into the wallet of `db`. -/
def finishImport (body : Bytes) (nonce : Nonce) (chunkSize : ℕ) (headerBytes : Bytes) (db : Db) :
    Outcome Unit × Db :=
  match newChunkBuffer build chunkSize with
  | .error fault => (.error fault, db)
  | .ok bufferLength =>
    match Reader.read A key bufferLength ⟨[], nonce, body⟩ hashBytes with
    | .error e => (.error (.err (mapIoErr e)), db)
    | .ok (headerHash, r) =>
      if codec.hash headerBytes ≠ headerHash
        then (errMsg .invalidStructure "Invalid header hash", db)
      else importRecords C keys S A codec random key bufferLength r db 0

/-- `import`: the parts that `WalletService` runs one after another, around the derivation of the
key. -/
def importFile (calcMasterKey : KeyDerivationData → IndyResult Key) (file : Bytes)
    (passphrase : String) (db : Db) :
    Outcome Unit × Db :=
  match preparseFileToImport codec file passphrase with
  | .error e => (.error (.err e), db)
  | .ok p => match calcMasterKey p.keyData with
    | .error e => (.error (.err e), db)
    | .ok key =>
      finishImport C keys S build A codec random key p.reader p.nonce p.chunkSize p.headerBytes db

end Import

end SimpleAsset.Indy.Wallet
