import SimpleAsset.Library.Chunks
import SimpleAsset.Library.Runs
import SimpleAsset.Library.Stateful
import SimpleAsset.Library.Table
import SimpleAsset.Indy.Crypto.UnpackAgreement
import SimpleAsset.Indy.Wallet.Service

/-! Tails of revocation registries (commands/anoncreds/tails.rs) in files under the base58 text of
their hash (services/blob_storage), on a disk whose calls may fail at any point. -/
namespace SimpleAsset.Indy.BlobStorage
open SimpleAsset.Library
open Wallet (pushPath)

/-- A file: the directory as the system resolves it, and its name there. -/
abbrev Path := String × String

/-- What the file system does, call after call. -/
structure Disk where
  /-- The directory that a text names. -/
  directory : String → String
  tmpDir : String
  noSuchFile : String
  /-- The error of the call with this number, if it fails. -/
  fails : ℕ → Option String
  /-- How many bytes of its argument a write takes. -/
  takes : ℕ → ℕ → ℕ
  /-- How many bytes of those asked for a read gives. -/
  gives : ℕ → ℕ → ℕ
  /-- What a copy that fails has copied, if it came to open the file it copies to. -/
  copied : ℕ → Option ℕ

structure WriterConfig where
  baseDir : String
  uriPattern : String

/-- A file that is written, with the bytes that its hasher was given. -/
structure WritableBlob where
  baseDir : String
  uriPattern : String
  id : Int32
  hashed : Bytes

structure ReadableBlob where
  path : Path
  hash : Bytes

/-- `BlobStorageService` with the files of the disk, the counter of ids and the number of calls of
the file system. -/
structure Service where
  files : Table Path Bytes
  writerConfigs : Table Int32 WriterConfig
  writerBlobs : Table Int32 WritableBlob
  readerConfigs : Table Int32 String
  readerBlobs : Table Int32 ReadableBlob
  ids : ℕ
  calls : ℕ

abbrev InService := Stateful Service IndyError

/-- The configurations as serde reads them. -/
structure ConfigReader where
  writer : String → Except String WriterConfig
  reader : String → Except String String

inductive UrsaCryptoErrorKind
  | invalidParam (index : ℕ)
  | invalidState
  | invalidStructure
  | ioError
  | proofRejected
  | revocationAccumulatorIsFull
  | invalidRevocationAccumulatorIndex
  | credentialRevoked
  deriving DecidableEq, Repr

structure UrsaCryptoError where
  kind : UrsaCryptoErrorKind
  message : String
  deriving DecidableEq, Repr

/-- `ursa::cl::Tail`: tails of one size in bytes. -/
structure TailCodec where
  Tail : Type
  size : ℕ
  toBytes : Tail → IndyResult Bytes
  fromBytes : Bytes → Except UrsaCryptoError Tail
  length_toBytes : ∀ tail bytes, toBytes tail = .ok bytes → bytes.length = size
  fromBytes_toBytes : ∀ tail bytes, toBytes tail = .ok bytes → fromBytes bytes = .ok tail

section Service
variable (D : Disk)

/-- A call of the file system. -/
def call (effect : Service → Service) : InService Unit := .step fun s =>
  match D.fails s.calls with
  | some text => (.error ⟨.ioError, text⟩, { s with calls := s.calls + 1 })
  | none => (.ok (), { effect s with calls := s.calls + 1 })

def update (effect : Service → Service) : InService Unit := .step fun s => (.ok (), effect s)

/-- `sequence::get_next_id`. -/
def getNextId : InService Int32 :=
  .step fun s => (.ok (Int32.ofNat (s.ids + 1)), { s with ids := s.ids + 1 })

def found {α : Type} (message : String) (r : Service → Option α) : InService α :=
  .reads fun s => match r s with
    | some a => .ok a
    | none => .error ⟨.invalidStructure, message⟩

def readConfig {α : Type} (type_ unknownType name : String) (parsed : Except String α) :
    InService α :=
  .reads fun _ =>
    if type_ = "default" then
      match parsed with
      | .ok config => .ok config
      | .error text => extendErr ("Can't deserialize " ++ name) (.error ⟨.invalidStructure, text⟩)
    else .error ⟨.invalidStructure, unknownType⟩

def tmpStorageFile (id : Int32) : Path := (D.tmpDir, "def_storage_tmp_" ++ toString id)

variable (C : ConfigReader)

def openWriter (type_ config : String) : InService Int32 := do
  let writerConfig ← readConfig type_ "Unknown BlobStorage Writer type" "DefaultWriterConfig"
      (C.writer config)
  let configHandle ← getNextId
  update fun s => { s with writerConfigs := s.writerConfigs.insert configHandle writerConfig }
  return configHandle

def createBlob (configHandle : Int32) : InService Int32 := do
  let blobHandle ← getNextId
  let config ← found "Invalid BlobStorage config handle" fun s =>
      s.writerConfigs.lookup configHandle
  call D id
  call D fun s => { s with files := s.files.insert (tmpStorageFile D blobHandle) [] }
  update fun s =>
    { s with writerBlobs :=
      s.writerBlobs.insert blobHandle ⟨config.baseDir, config.uriPattern, blobHandle, []⟩ }
  return blobHandle

/-- `File::write`, which may take less than it is given. -/
def write (path : Path) (bytes : Bytes) : InService ℕ := .step fun s =>
  match D.fails s.calls with
  | some text => (.error ⟨.ioError, text⟩, { s with calls := s.calls + 1 })
  | none =>
    let taken := bytes.take (D.takes s.calls bytes.length)
    (.ok taken.length, { s with
      files := s.files.insert path ((s.files.lookup path).getD [] ++ taken)
      calls := s.calls + 1 })

def append (handle : Int32) (bytes : Bytes) : InService ℕ := do
  let blob ← found "Invalid BlobStorage handle" fun s => s.writerBlobs.lookup handle
  update fun s =>
    { s with writerBlobs :=
      s.writerBlobs.insert handle { blob with hashed := blob.hashed ++ bytes } }
  write D (tmpStorageFile D blob.id) bytes

/-- `fs::copy`. -/
def copy (source target : Path) : InService Unit := .step fun s =>
  match s.files.lookup source with
  | none => (.error ⟨.ioError, D.noSuchFile⟩, { s with calls := s.calls + 1 })
  | some content =>
    match D.fails s.calls with
    | some text => (.error ⟨.ioError, text⟩, { s with
        files := match D.copied s.calls with
          | some n => s.files.insert target (content.take n)
          | none => s.files
        calls := s.calls + 1 })
    | none => (.ok (), { s with files := s.files.insert target content, calls := s.calls + 1 })

variable (sha256 : Bytes → Bytes) (T : Crypto.Codecs)

/-- The file of a blob with this hash. -/
def blobPath (baseDir : String) (hash : Bytes) : Path := (D.directory baseDir, T.toBase58 hash)

def finalize (handle : Int32) : InService (String × Bytes) := do
  let blob ← found "Invalid BlobStorage handle" fun s => s.writerBlobs.lookup handle
  update fun s => { s with writerBlobs := s.writerBlobs.erase handle }
  let hash := sha256 blob.hashed
  -- flush, sync_all and the directory of the file
  call D id
  call D id
  call D id
  copy D (tmpStorageFile D blob.id) (blobPath D T blob.baseDir hash)
  call D fun s => { s with files := s.files.erase (tmpStorageFile D blob.id) }
  return (pushPath blob.baseDir (T.toBase58 hash), hash)

def openReader (type_ config : String) : InService Int32 := do
  let readerConfig ← readConfig type_ "Invalid BlobStorage Reader type" "DefaultReaderConfig"
      (C.reader config)
  let configHandle ← getNextId
  update fun s => { s with readerConfigs := s.readerConfigs.insert configHandle readerConfig }
  return configHandle

/-- `File::open`. -/
def openFile (path : Path) : InService Unit := .step fun s =>
  match D.fails s.calls, s.files.lookup path with
  | some text, _ => (.error ⟨.ioError, text⟩, { s with calls := s.calls + 1 })
  | none, none => (.error ⟨.ioError, D.noSuchFile⟩, { s with calls := s.calls + 1 })
  | none, some _ => (.ok (), { s with calls := s.calls + 1 })

def openBlob (configHandle : Int32) (_location : String) (hash : Bytes) : InService Int32 := do
  let baseDir ← found "Invalid BlobStorage config handle" fun s =>
      s.readerConfigs.lookup configHandle
  openFile D (blobPath D T baseDir hash)
  let readerHandle ← getNextId
  update fun s =>
    { s with readerBlobs := s.readerBlobs.insert readerHandle ⟨blobPath D T baseDir hash, hash⟩ }
  return readerHandle

/-- `File::read`, which may give less than is there. -/
def readFile (path : Path) (size offset : ℕ) : InService Bytes := .step fun s =>
  match D.fails s.calls with
  | some text => (.error ⟨.ioError, text⟩, { s with calls := s.calls + 1 })
  | none =>
    let wanted := (((s.files.lookup path).getD []).drop offset).take size
    (.ok (wanted.take (D.gives s.calls wanted.length)), { s with calls := s.calls + 1 })

def read (handle : Int32) (size offset : ℕ) : InService Bytes := do
  let blob ← found "Invalid BlobStorage handle" fun s => s.readerBlobs.lookup handle
  call D id
  readFile D blob.path size offset

def close (handle : Int32) : InService Unit := do
  let _ ← found "Invalid BlobStorage handle" fun s => s.readerBlobs.lookup handle
  update fun s => { s with readerBlobs := s.readerBlobs.erase handle }

section Tails
variable (U : TailCodec)

def tailsBlobTagSz : UInt8 := 2

/-- The first bytes of a file of tails. -/
def version : Bytes := [0, tailsBlobTagSz]

def ofResult {α : Type} (r : IndyResult α) : InService α := .reads fun _ => r

/-- The loop over the tails that the generator gives. -/
def appendTails (handle : Int32) : List (IndyResult U.Tail) → InService Unit
  | [] => pure ()
  | next :: generator => do
    let tail ← ofResult next
    let tailBytes ← ofResult (U.toBytes tail)
    let _ ← append D handle tailBytes
    appendTails handle generator

def storeTailsFromGenerator (writerHandle : Int32) (generator : List (IndyResult U.Tail)) :
    InService (String × String) := do
  let blobHandle ← createBlob D writerHandle
  let _ ← append D blobHandle version
  appendTails D U blobHandle generator
  let (location, hash) ← finalize D sha256 T blobHandle
  return (location, T.toBase58 hash)

/-- `SDKTailsAccessor::new`. -/
def newAccessor (readerHandle : Int32) (tailsLocation tailsHash : String) : InService Int32 := do
  let hash ← ofResult (match T.fromBase58 tailsHash with
    | some hash => .ok hash
    | none => .error ⟨.invalidState, "Invalid base58 for Tails hash"⟩)
  openBlob D T readerHandle tailsLocation hash

def accessTail (accessor : Int32) (tailId : ℕ) : InService (Except UrsaCryptoError U.Tail) := do
  match ← Stateful.attempt (read D accessor U.size (U.size * tailId + tailsBlobTagSz.toNat)) with
  | .error _ => pure (.error ⟨.invalidState, "Can't read tail bytes from blob storage"⟩)
  | .ok tailBytes => pure (U.fromBytes tailBytes)

def accessEach (accessor : Int32) : List ℕ → InService (List (Except UrsaCryptoError U.Tail))
  | [] => pure []
  | tailId :: tailIds => do
    let tail ← accessTail D U accessor tailId
    let tails ← accessEach accessor tailIds
    return tail :: tails

/-- An accessor that is asked for these tails and dropped. -/
def accessTails (readerHandle : Int32) (tailsLocation tailsHash : String) (tailIds : List ℕ) :
    InService (List (Except UrsaCryptoError U.Tail)) := do
  let accessor ← newAccessor D T readerHandle tailsLocation tailsHash
  let tails ← accessEach D U accessor tailIds
  let _ ← Stateful.attempt (close accessor)
  return tails

/-- What the library is asked to do with blobs; other parts of it take ids as well. -/
inductive BlobCommand
  | openWriter (type_ config : String)
  | openReader (type_ config : String)
  | storeTails (writerHandle : Int32) (generator : List (IndyResult U.Tail))
  | accessTails (readerHandle : Int32) (tailsLocation tailsHash : String) (tailIds : List ℕ)
  | takeId

def execute (s : Service) : BlobCommand U → Service
  | .openWriter type_ config => ((openWriter C type_ config).runOn s).2
  | .openReader type_ config => ((openReader C type_ config).runOn s).2
  | .storeTails writerHandle generator =>
    ((storeTailsFromGenerator D sha256 T U writerHandle generator).runOn s).2
  | .accessTails readerHandle tailsLocation tailsHash tailIds =>
    ((accessTails D T U readerHandle tailsLocation tailsHash tailIds).runOn s).2
  | .takeId => (getNextId.runOn s).2

def executeAll (s : Service) (commands : List (BlobCommand U)) : Service :=
  commands.foldl (execute D C sha256 T U) s

end Tails

end Service

section Calls
variable {D : Disk} {α : Type} {P E : Service → Prop}

theorem ensures_call {effect : Service → Service} {Q : Unit → Service → Prop}
    (hok : ∀ s, P s → Q () { effect s with calls := s.calls + 1 })
    (herr : ∀ s, P s → E { s with calls := s.calls + 1 }) :
    Stateful.Ensures P (call D effect) Q E := by
  intro s hs
  rw [call, Stateful.runOn_step]
  cases D.fails s.calls with
  | some text => exact Or.inr ⟨_, _, rfl, herr s hs⟩
  | none => exact Or.inl ⟨_, _, rfl, hok s hs⟩

/-- A call that changes no file. -/
theorem ensures_call_id (hP : ∀ s, P s → P { s with calls := s.calls + 1 })
    (herr : ∀ s, P s → E { s with calls := s.calls + 1 }) :
    Stateful.Ensures P (call D id) (fun _ => P) E :=
  ensures_call hP herr

theorem ensures_update {effect : Service → Service} {Q : Unit → Service → Prop}
    (h : ∀ s, P s → Q () (effect s)) :
    Stateful.Ensures P (update effect) Q E := fun s hs => Or.inl ⟨(), effect s, rfl, h s hs⟩

theorem ensures_getNextId {Q : Int32 → Service → Prop}
    (h : ∀ s id, P s → Q id { s with ids := s.ids + 1 }) :
    Stateful.Ensures P getNextId Q E := fun s hs => Or.inl ⟨_, _, rfl, h s _ hs⟩

theorem ensures_found {message : String} {r : Service → Option α} {Q : α → Service → Prop}
    (hsome : ∀ s a, P s → r s = some a → Q a s) (hnone : ∀ s, P s → r s = none → E s) :
    Stateful.Ensures P (found message r) Q E := by
  intro s hs
  rw [found, Stateful.runOn_reads]
  cases hr : r s with
  | some a => exact Or.inl ⟨a, s, rfl, hsome s a hs hr⟩
  | none => exact Or.inr ⟨_, s, rfl, hnone s hs hr⟩

theorem ensures_ofResult {r : IndyResult α} {Q : α → Service → Prop}
    (hok : ∀ s a, P s → r = .ok a → Q a s)
    (herr : ∀ s, P s → E s) : Stateful.Ensures P (ofResult r) Q E := by
  intro s hs
  rw [ofResult, Stateful.runOn_reads]
  cases hr : r with
  | ok a => exact Or.inl ⟨a, s, rfl, hok s a hs hr⟩
  | error e => exact Or.inr ⟨e, s, rfl, herr s hs⟩

end Calls

section Storing
variable (D : Disk) (sha256 : Bytes → Bytes) (T : Crypto.Codecs) (U : TailCodec)

/-- Writes take all they are given, and reads give all that is there. -/
def Whole : Prop := ∀ k n, D.takes k n = n ∧ D.gives k n = n

/-- The names of files of blobs are no names of temporary files. -/
def PlainNames : Prop := ∀ bytes, '_' ∉ (T.toBase58 bytes).toList

/-- These files hold what they hold in `v`. -/
def Keeping (S : Path → Prop) (v : Path → Option Bytes) (s : Service) : Prop :=
  ∀ p, S p → s.files.lookup p = v p

/-- The blob is being written, and its file has the bytes that were hashed. -/
def Writing (handle : Int32) (config : WriterConfig) (bytes : Bytes) (s : Service) : Prop :=
  s.writerBlobs.lookup handle = some ⟨config.baseDir, config.uriPattern, handle, bytes⟩ ∧
    s.files.lookup (tmpStorageFile D handle) = some bytes

/-- The bytes of all tails that a generator gives, if it and they give all of them. -/
def tailsBytes : List (IndyResult U.Tail) → Option Bytes
  | [] => some []
  | .error _ :: _ => none
  | .ok tail :: generator =>
    match U.toBytes tail with
    | .error _ => none
    | .ok bytes => (tailsBytes generator).map (bytes ++ ·)

def blobOf (generator : List (IndyResult U.Tail)) : Option Bytes :=
  (tailsBytes U generator).map (version ++ ·)

variable {D sha256 T U} {S : Path → Prop} {v : Path → Option Bytes} {s : Service} {handle : Int32}
  {config : WriterConfig} {bytes : Bytes}

theorem underscore_mem_tmp (id : Int32) : '_' ∈ (tmpStorageFile D id).2.toList := by
  rw [tmpStorageFile, String.toList_append]
  exact List.mem_append_left _ (by decide)

theorem blobPath_ne_tmp (hname : PlainNames T) (baseDir : String) (hash : Bytes) (id : Int32) :
    blobPath D T baseDir hash ≠ tmpStorageFile D id := by
  intro heq
  have hmem := underscore_mem_tmp (D := D) id
  rw [← heq] at hmem
  exact hname hash hmem

/-- What is done to another file. -/
theorem Keeping.insert (h : Keeping S v s) {p : Path} (hp : ¬ S p) (content : Bytes) :
    Keeping S v { s with files := s.files.insert p content } := by
  intro q hq
  have hne : q ≠ p := by
    rintro rfl
    exact hp hq
  exact (AList.lookup_insert_ne hne).trans (h q hq)

theorem Keeping.erase (h : Keeping S v s) {p : Path} (hp : ¬ S p) :
    Keeping S v { s with files := s.files.erase p } := by
  intro q hq
  have hne : q ≠ p := by
    rintro rfl
    exact hp hq
  exact (AList.lookup_erase_ne hne).trans (h q hq)

/-- No temporary file is among these. -/
def Lasting (D : Disk) (S : Path → Prop) : Prop := ∀ id, ¬ S (tmpStorageFile D id)

theorem ensures_createBlob (hS : Lasting D S) (o : Option WriterConfig) :
    Stateful.Ensures (fun s => Keeping S v s ∧ s.writerConfigs.lookup handle = o)
      (createBlob D handle)
      (fun blobHandle s => ∃ config, o = some config ∧ Writing D blobHandle config [] s ∧
        Keeping S v s)
      (Keeping S v) := by
  refine Stateful.Ensures.bind (Q := fun _ s => Keeping S v s ∧ s.writerConfigs.lookup handle = o)
    (ensures_getNextId fun s id h => h) fun blobHandle => ?_
  refine Stateful.Ensures.bind (Q := fun config s => o = some config ∧ Keeping S v s)
    (ensures_found (fun s config h hc => ⟨h.2.symm.trans hc, h.1⟩) fun s h _ => h.1)
    fun config => ?_
  refine (ensures_call_id (fun s h => h) fun s h => h.2).bind fun _ => ?_
  refine Stateful.Ensures.bind (Q := fun _ s => o = some config ∧ Keeping S v s ∧
    s.files.lookup (tmpStorageFile D blobHandle) = some [])
      (ensures_call ?_ fun s h => h.2) fun _ => ?_
  · rintro s ⟨ho, hkeep⟩
    exact ⟨ho, hkeep.insert (hS blobHandle) [], AList.lookup_insert s.files⟩
  refine Stateful.Ensures.bind
    (Q := fun _ s => ∃ config, o = some config ∧ Writing D blobHandle config [] s ∧
    Keeping S v s) (ensures_update ?_) fun _ => Stateful.ensures_pure _ fun s h => h
  rintro s ⟨ho, hkeep, hfile⟩
  exact ⟨config, ho, ⟨AList.lookup_insert s.writerBlobs, hfile⟩, hkeep⟩

theorem ensures_append (hwhole : Whole D) (hS : Lasting D S) (more : Bytes) :
    Stateful.Ensures (fun s =>
      Writing D handle config bytes s ∧ Keeping S v s) (append D handle more)
      (fun _ s => Writing D handle config (bytes ++ more) s ∧ Keeping S v s) (Keeping S v) := by
  let blob : WritableBlob := ⟨config.baseDir, config.uriPattern, handle, bytes⟩
  refine Stateful.Ensures.bind (Q :=
    fun b s => b = blob ∧ Writing D handle config bytes s ∧ Keeping S v s)
    (ensures_found ?_ fun s h _ => h.2) fun b => ?_
  · rintro s b ⟨hwriting, hkeep⟩ hb
    exact ⟨Option.some.inj (hb.symm.trans hwriting.1), hwriting, hkeep⟩
  refine Stateful.Ensures.bind (Q := fun _ s => b = blob ∧
    s.writerBlobs.lookup handle = some { blob with hashed := bytes ++ more } ∧
    s.files.lookup (tmpStorageFile D handle) = some bytes ∧ Keeping S v s)
      (ensures_update ?_) fun _ => ?_
  · rintro s ⟨rfl, hwriting, hkeep⟩
    exact ⟨rfl, AList.lookup_insert s.writerBlobs, hwriting.2, hkeep⟩
  rintro s ⟨rfl, hblob, hfile, hkeep⟩
  rw [write, Stateful.runOn_step]
  cases D.fails s.calls with
  | some text => exact Or.inr ⟨_, _, rfl, hkeep⟩
  | none =>
    refine Or.inl ⟨_, _, rfl, ⟨hblob, ?_⟩, hkeep.insert (hS handle) _⟩
    change (s.files.insert (tmpStorageFile D handle) _).lookup (tmpStorageFile D handle) = _
    rw [AList.lookup_insert, hfile, (hwhole _ _).1, List.take_length, Option.getD_some]

theorem ensures_appendTails (hwhole : Whole D) (hS : Lasting D S) (generator : List
    (IndyResult U.Tail)) :
    Stateful.Ensures (fun s =>
      Writing D handle config bytes s ∧ Keeping S v s) (appendTails D U handle generator)
      (fun _ s => ∃ tails, tailsBytes U generator = some tails ∧ Writing D handle config
        (bytes ++ tails) s ∧
        Keeping S v s) (Keeping S v) := by
  induction generator generalizing bytes with
  | nil =>
    exact Stateful.ensures_pure _ fun s h => ⟨[], rfl, by rw [List.append_nil]; exact h.1, h.2⟩
  | cons next generator ih =>
    refine Stateful.Ensures.bind
      (Q := fun tail s => next = .ok tail ∧ Writing D handle config bytes s ∧ Keeping S v s)
      (ensures_ofResult (fun s tail h hnext => ⟨hnext, h⟩) fun s h => h.2) fun tail => ?_
    refine Stateful.Ensures.bind
      (Q := fun tailBytes s => (next = .ok tail ∧ U.toBytes tail = .ok tailBytes) ∧
      Writing D handle config bytes s ∧ Keeping S v s)
      (ensures_ofResult (fun s tailBytes h hbytes => ⟨⟨h.1, hbytes⟩, h.2⟩) fun s h => h.2.2)
      fun tailBytes => ?_
    intro s hs
    obtain ⟨⟨hnext, hbytes⟩, hs⟩ := hs
    refine Stateful.Ensures.bind (ensures_append hwhole hS tailBytes) (fun _ => ?_) s hs
    refine ih.post fun _ s' h => ?_
    obtain ⟨tails, htails, hwriting, hkeep⟩ := h
    refine ⟨tailBytes ++ tails, ?_, ?_, hkeep⟩
    · rw [hnext, tailsBytes, hbytes, htails]
      rfl
    · rw [← List.append_assoc]
      exact hwriting

theorem ensures_finalize (hname : PlainNames T) (hS : Lasting D S)
    (htarget : ¬ S (blobPath D T config.baseDir (sha256 bytes))) :
    Stateful.Ensures (fun s => Writing D handle config bytes s ∧ Keeping S v s)
      (finalize D sha256 T handle) (fun r s => r.2 = sha256 bytes ∧
        s.files.lookup (blobPath D T config.baseDir (sha256 bytes)) = some bytes ∧
        Keeping S v s) (Keeping S v) := by
  let blob : WritableBlob := ⟨config.baseDir, config.uriPattern, handle, bytes⟩
  let Written : Service → Prop := fun s => s.files.lookup (tmpStorageFile D handle) = some bytes ∧
    Keeping S v s
  refine Stateful.Ensures.bind (Q := fun b s => b = blob ∧ Written s)
    (ensures_found ?_ fun s h _ => h.2) fun b => ?_
  · rintro s b ⟨hwriting, hkeep⟩ hb
    exact ⟨Option.some.inj (hb.symm.trans hwriting.1), hwriting.2, hkeep⟩
  refine Stateful.Ensures.bind (Q := fun _ s => b = blob ∧ Written s)
    (ensures_update fun s h => h) fun _ => ?_
  refine (ensures_call_id (fun s h => h) fun s h => h.2.2).bind fun _ => ?_
  refine (ensures_call_id (fun s h => h) fun s h => h.2.2).bind fun _ => ?_
  refine (ensures_call_id (fun s h => h) fun s h => h.2.2).bind fun _ => ?_
  refine Stateful.Ensures.bind (Q := fun _ s => b = blob ∧
    s.files.lookup (blobPath D T config.baseDir (sha256 bytes)) = some bytes ∧ Keeping S v s)
      ?_ fun _ => ?_
  · rintro s ⟨rfl, hfile, hkeep⟩
    rw [copy, Stateful.runOn_step, hfile]
    cases D.fails s.calls with
    | none => exact Or.inl ⟨_, _, rfl, rfl, AList.lookup_insert s.files, hkeep.insert htarget bytes⟩
    | some text =>
      refine Or.inr ⟨_, _, rfl, ?_⟩
      cases D.copied s.calls with
      | none => exact hkeep
      | some n => exact hkeep.insert htarget _
  refine Stateful.Ensures.bind (Q := fun _ s => b = blob ∧
    s.files.lookup (blobPath D T config.baseDir (sha256 bytes)) = some bytes ∧ Keeping S v s)
    (ensures_call ?_ fun s h => h.2.2) fun _ => ?_
  · rintro s ⟨rfl, hfile, hkeep⟩
    refine ⟨rfl, ?_, hkeep.erase (hS handle)⟩
    change (s.files.erase (tmpStorageFile D handle)).lookup _ = _
    rw [AList.lookup_erase_ne (blobPath_ne_tmp hname _ _ _), hfile]
  refine Stateful.ensures_pure _ ?_
  rintro s ⟨rfl, hfile, hkeep⟩
  exact ⟨rfl, hfile, hkeep⟩

/-- A store leaves other files as they are, and when it succeeds the file of its tails holds
them. -/
theorem ensures_store (hwhole : Whole D) (hname : PlainNames T) (hS : Lasting D S)
    (generator : List (IndyResult U.Tail)) (o : Option WriterConfig)
    (htarget : ∀ config blob, o = some config → blobOf U generator = some blob →
      ¬ S (blobPath D T config.baseDir (sha256 blob))) :
    Stateful.Ensures (fun s => Keeping S v s ∧ s.writerConfigs.lookup handle = o)
      (storeTailsFromGenerator D sha256 T U handle generator)
      (fun r s => (∃ config blob, o = some config ∧ blobOf U generator = some blob ∧
        r.2 = T.toBase58 (sha256 blob) ∧
        s.files.lookup (blobPath D T config.baseDir (sha256 blob)) = some blob) ∧ Keeping S
          v s) (Keeping S v) := by
  refine Stateful.Ensures.bind (ensures_createBlob hS o) fun blobHandle => ?_
  intro s hs
  obtain ⟨config, ho, hs⟩ := hs
  refine Stateful.Ensures.bind (ensures_append hwhole hS version) (fun _ => ?_) s hs
  refine Stateful.Ensures.bind (ensures_appendTails hwhole hS generator) fun _ => ?_
  intro s hs
  obtain ⟨tails, htails, hs⟩ := hs
  have hblob : blobOf U generator = some (version ++ tails) := by
    rw [blobOf, htails]
    rfl
  refine Stateful.Ensures.bind (ensures_finalize hname hS (htarget config _ ho hblob))
    (fun r => ?_) s hs
  refine Stateful.ensures_pure _ ?_
  rintro s ⟨hhash, hfile, hkeep⟩
  exact ⟨⟨config, version ++ tails, ho, hblob, congrArg T.toBase58 hhash, hfile⟩, hkeep⟩

/-- When a store succeeds, the file under the hash of its tails holds them. -/
theorem ensures_stored (hwhole : Whole D) (hname : PlainNames T)
    (generator : List (IndyResult U.Tail)) (o : Option WriterConfig) :
    Stateful.Ensures (fun s => s.writerConfigs.lookup handle = o)
      (storeTailsFromGenerator D sha256 T U handle generator)
      (fun r s => ∃ config blob, o = some config ∧ blobOf U generator = some blob ∧
        r.2 = T.toBase58 (sha256 blob) ∧
        s.files.lookup (blobPath D T config.baseDir (sha256 blob)) = some blob)
      (fun _ => True) := by
  intro s hs
  rcases ensures_store (S := fun _ => False) (v := fun _ => none) hwhole hname
    (fun _ h => h) generator o
    (fun _ _ _ _ h => h) s ⟨fun _ h => h.elim, hs⟩ with ⟨r, s', hrun, hr, -⟩ | ⟨e, s', hrun, -⟩
  · exact Or.inl ⟨r, s', hrun, hr⟩
  · exact Or.inr ⟨e, s', hrun, trivial⟩

end Storing

section Reading
variable {D : Disk} {C : ConfigReader} {T : Crypto.Codecs} {U : TailCodec}
    {files : Table Path Bytes}

theorem files_call : Stateful.Keeps (fun s => s.files = files) (call D id) := by
  intro s hs
  rw [call, Stateful.runOn_step]
  cases D.fails s.calls <;> exact hs

theorem files_update {effect : Service → Service} (h : ∀ s, (effect s).files = s.files) :
    Stateful.Keeps (fun s => s.files = files) (update effect) := fun s hs => (h s).trans hs

theorem files_openFile (path : Path) :
    Stateful.Keeps (fun s => s.files = files) (openFile D path) := by
  intro s hs
  rw [openFile, Stateful.runOn_step]
  split <;> exact hs

theorem files_readFile (path : Path) (size offset : ℕ) :
    Stateful.Keeps (fun s => s.files = files) (readFile D path size offset) := by
  intro s hs
  rw [readFile, Stateful.runOn_step]
  split <;> exact hs

theorem files_openWriter (type_ config : String) :
    Stateful.Keeps (fun s => s.files = files) (openWriter C type_ config) := by
  refine (Stateful.keeps_reads _).bind fun writerConfig => ?_
  refine Stateful.Keeps.bind (fun s hs => hs) fun configHandle => ?_
  refine Stateful.Keeps.bind (files_update ?_) fun _ => Stateful.keeps_pure _
  exact fun s => rfl

theorem files_openReader (type_ config : String) :
    Stateful.Keeps (fun s => s.files = files) (openReader C type_ config) := by
  refine (Stateful.keeps_reads _).bind fun readerConfig => ?_
  refine Stateful.Keeps.bind (fun s hs => hs) fun configHandle => ?_
  refine Stateful.Keeps.bind (files_update ?_) fun _ => Stateful.keeps_pure _
  exact fun s => rfl

theorem files_accessTail (accessor : Int32) (tailId : ℕ) :
    Stateful.Keeps (fun s => s.files = files) (accessTail D U accessor tailId) := by
  refine Stateful.Keeps.bind (Stateful.Keeps.attempt ?_) fun r => ?_
  · refine (Stateful.keeps_reads _).bind fun blob => ?_
    exact files_call.bind fun _ => files_readFile blob.path _ _
  · cases r <;> exact Stateful.keeps_pure _

theorem files_accessEach (accessor : Int32) (tailIds : List ℕ) :
    Stateful.Keeps (fun s => s.files = files) (accessEach D U accessor tailIds) := by
  induction tailIds with
  | nil => exact Stateful.keeps_pure _
  | cons tailId tailIds ih =>
    refine (files_accessTail accessor tailId).bind fun tail => ?_
    exact ih.bind fun tails => Stateful.keeps_pure _

theorem files_accessTails (readerHandle : Int32) (tailsLocation tailsHash : String)
    (tailIds : List ℕ) :
    Stateful.Keeps (fun s => s.files = files)
      (accessTails D T U readerHandle tailsLocation tailsHash tailIds) := by
  refine Stateful.Keeps.bind ?_ fun accessor => ?_
  · refine (Stateful.keeps_reads _).bind fun hash => ?_
    refine (Stateful.keeps_reads _).bind fun baseDir => ?_
    refine (files_openFile _).bind fun _ => ?_
    refine Stateful.Keeps.bind (fun s hs => hs) fun handle => ?_
    refine Stateful.Keeps.bind (files_update ?_) fun _ => Stateful.keeps_pure _
    exact fun s => rfl
  · refine (files_accessEach accessor tailIds).bind fun tails => ?_
    refine Stateful.Keeps.bind (Stateful.Keeps.attempt ?_) fun _ => Stateful.keeps_pure _
    exact (Stateful.keeps_reads _).bind fun _ => files_update fun s => rfl

/-- No call of the file system fails from here on. -/
def Working (D : Disk) (s : Service) : Prop := ∀ k, s.calls ≤ k → D.fails k = none

theorem Working.next {s : Service} (h : Working D s) : ∀ k, s.calls + 1 ≤ k → D.fails k = none :=
  fun k hk => h k (Nat.le_of_succ_le hk)

/-- An accessor is open on a file with these bytes. -/
structure Accessing (D : Disk) (accessor : Int32) (blob : Bytes) (s : Service) : Prop where
  opened : ∃ path hash, s.readerBlobs.lookup accessor = some ⟨path, hash⟩ ∧
    s.files.lookup path = some blob
  working : Working D s

variable {accessor : Int32} {blob : Bytes}

theorem ensures_read (hwhole : Whole D) (size offset : ℕ) :
    Stateful.Ensures (Accessing D accessor blob) (read D accessor size offset)
      (fun r s => r = (blob.drop offset).take size ∧ Accessing D accessor blob s)
        (fun _ => False) := by
  refine Stateful.Ensures.bind
    (Q := fun b s => s.files.lookup b.path = some blob ∧ Accessing D accessor blob s)
    (ensures_found ?_ ?_) fun b => ?_
  · rintro s b h hb
    obtain ⟨path, hash, hopened, hfile⟩ := h.opened
    obtain rfl : (⟨path, hash⟩ : ReadableBlob) = b := Option.some.inj (hopened.symm.trans hb)
    exact ⟨hfile, h⟩
  · rintro s h hnone
    obtain ⟨path, hash, hopened, -⟩ := h.opened
    rw [hopened] at hnone
    cases hnone
  refine Stateful.Ensures.bind
    (Q := fun _ s => s.files.lookup b.path = some blob ∧ Accessing D accessor blob s) ?_ fun _ => ?_
  · rintro s ⟨hfile, h⟩
    rw [call, Stateful.runOn_step, h.working s.calls le_rfl]
    exact Or.inl ⟨_, _, rfl, hfile, h.opened, h.working.next⟩
  · rintro s ⟨hfile, h⟩
    rw [readFile, Stateful.runOn_step, h.working s.calls le_rfl, hfile]
    refine Or.inl ⟨_, _, rfl, ?_, h.opened, h.working.next⟩
    rw [(hwhole _ _).2, List.take_length, Option.getD_some]

theorem ensures_accessTail (hwhole : Whole D) (tailId : ℕ) :
    Stateful.Ensures (Accessing D accessor blob) (accessTail D U accessor tailId)
      (fun r s =>
        r = U.fromBytes ((blob.drop (U.size * tailId + tailsBlobTagSz.toNat)).take U.size) ∧
        Accessing D accessor blob s) (fun _ => False) := by
  refine Stateful.Ensures.bind (ensures_read hwhole _ _).attempt fun r => ?_
  rintro s (⟨bytes, rfl, rfl, h⟩ | ⟨e, -, h⟩)
  · exact Or.inl ⟨_, s, rfl, rfl, h⟩
  · exact h.elim

theorem ensures_accessEach (hwhole : Whole D) (tailIds : List ℕ) :
    Stateful.Ensures (Accessing D accessor blob) (accessEach D U accessor tailIds)
      (fun r _ => r = tailIds.map fun tailId =>
        U.fromBytes ((blob.drop (U.size * tailId + tailsBlobTagSz.toNat)).take U.size))
          (fun _ => False) := by
  induction tailIds with
  | nil => exact Stateful.ensures_pure _ fun _ _ => rfl
  | cons tailId tailIds ih =>
    refine Stateful.Ensures.bind (ensures_accessTail hwhole tailId) fun tail => ?_
    rintro s ⟨rfl, h⟩
    refine Stateful.Ensures.bind ih (fun tails => ?_) s h
    refine Stateful.ensures_pure _ ?_
    rintro _ rfl
    rfl

theorem ensures_newAccessor {baseDir : String} {hash : Bytes} (readerHandle : Int32)
    (tailsLocation : String) :
    Stateful.Ensures (fun s => s.readerConfigs.lookup readerHandle = some baseDir ∧
        s.files.lookup (blobPath D T baseDir hash) = some blob ∧ Working D s)
      (newAccessor D T readerHandle tailsLocation (T.toBase58 hash))
      (fun accessor s => Accessing D accessor blob s) (fun _ => False) := by
  let Found : Service → Prop :=
    fun s => s.files.lookup (blobPath D T baseDir hash) = some blob ∧ Working D s
  rw [newAccessor, T.fromBase58_toBase58]
  refine Stateful.Ensures.bind
    (Q := fun h s => h = hash ∧ s.readerConfigs.lookup readerHandle = some baseDir ∧ Found s)
    (Stateful.ensures_reads fun s h => ⟨hash, rfl, rfl, h⟩) fun h => ?_
  refine Stateful.Ensures.bind (Q := fun dir s => dir = baseDir ∧ h = hash ∧ Found s)
    (ensures_found ?_ ?_) fun dir => ?_
  · rintro s dir ⟨hh, hconfig, hs⟩ hdir
    exact ⟨Option.some.inj (hdir.symm.trans hconfig), hh, hs⟩
  · rintro s ⟨-, hconfig, -⟩ hnone
    rw [hconfig] at hnone
    cases hnone
  refine Stateful.Ensures.bind (Q := fun _ s => dir = baseDir ∧ h = hash ∧ Found s) ?_ fun _ => ?_
  · rintro s ⟨rfl, rfl, hfile, hworking⟩
    rw [openFile, Stateful.runOn_step, hworking s.calls le_rfl, hfile]
    exact Or.inl ⟨_, _, rfl, rfl, rfl, hfile, hworking.next⟩
  refine Stateful.Ensures.bind (Q := fun _ s => dir = baseDir ∧ h = hash ∧ Found s)
    (ensures_getNextId fun s id h => h) fun accessor => ?_
  refine Stateful.Ensures.bind (Q := fun _ s => Accessing D accessor blob s) (ensures_update ?_)
    fun _ => ?_
  · rintro s ⟨rfl, rfl, hfile, hworking⟩
    exact ⟨⟨_, _, AList.lookup_insert s.readerBlobs, hfile⟩, hworking⟩
  · exact Stateful.ensures_pure _ fun s h => h

theorem ensures_accessTails (hwhole : Whole D) {baseDir : String} {hash : Bytes}
    (readerHandle : Int32) (tailsLocation : String) (tailIds : List ℕ) :
    Stateful.Ensures (fun s => s.readerConfigs.lookup readerHandle = some baseDir ∧
        s.files.lookup (blobPath D T baseDir hash) = some blob ∧ Working D s)
      (accessTails D T U readerHandle tailsLocation (T.toBase58 hash) tailIds)
      (fun r _ => r = tailIds.map fun tailId =>
        U.fromBytes ((blob.drop (U.size * tailId + tailsBlobTagSz.toNat)).take U.size))
          (fun _ => False) := by
  refine Stateful.Ensures.bind (ensures_newAccessor readerHandle tailsLocation) fun accessor => ?_
  refine Stateful.Ensures.bind (ensures_accessEach hwhole tailIds) fun tails => ?_
  rintro s rfl
  -- what closing the accessor comes to is not looked at
  exact Or.inl ⟨_, _, rfl, rfl⟩

end Reading

section Runs
variable (D : Disk) (C : ConfigReader) (sha256 : Bytes → Bytes) (T : Crypto.Codecs) (U : TailCodec)

/-- The tail with this number; beyond the last one nothing is read. -/
def tailAt (tails : List U.Tail) (tailId : ℕ) : Except UrsaCryptoError U.Tail :=
  match tails[tailId]? with
  | some tail => .ok tail
  | none => U.fromBytes []

/-- Stores the blob once more into the same directory, and fails. -/
def FailsAgain (baseDir : String) (blob : Bytes) (s : Service) : BlobCommand U → Prop
  | .storeTails writerHandle generator =>
    (∃ config, s.writerConfigs.lookup writerHandle = some config ∧
      D.directory config.baseDir = D.directory baseDir) ∧ blobOf U generator = some blob ∧
      ∃ e, ((storeTailsFromGenerator D sha256 T U writerHandle generator).runOn s).1 = .error e
  | _ => False

/-- The tails that a command stores have another hash, or are the same. -/
def NoCollision (blob : Bytes) : BlobCommand U → Prop
  | .storeTails _ generator => ∀ other, blobOf U generator = some other →
      sha256 other = sha256 blob → other = blob
  | _ => True

variable {D C sha256 T U} {s : Service} {command : BlobCommand U} {baseDir : String} {blob : Bytes}

theorem lasting_blobPath (hname : PlainNames T) (baseDir : String) (hash : Bytes) :
    Lasting D fun p => p = blobPath D T baseDir hash :=
  fun id heq => blobPath_ne_tmp hname baseDir hash id heq.symm

theorem lookup_storeTails (hwhole : Whole D) (hname : PlainNames T) {writerHandle : Int32}
    {generator : List (IndyResult U.Tail)}
    (hcoll : NoCollision sha256 U blob (.storeTails writerHandle generator))
    (hfails : ¬ FailsAgain D sha256 T U baseDir blob s (.storeTails writerHandle generator))
    (hfile : s.files.lookup (blobPath D T baseDir (sha256 blob)) = some blob) :
    ((storeTailsFromGenerator D sha256 T U writerHandle generator).runOn s).2.files.lookup
      (blobPath D T baseDir (sha256 blob)) = some blob := by
  by_cases hsame : ∃ config, s.writerConfigs.lookup writerHandle = some config ∧
      D.directory config.baseDir = D.directory baseDir ∧ blobOf U generator = some blob
  · obtain ⟨config, hconfig, hdir, hblob⟩ := hsame
    -- The same tails in the same directory: the store succeeds and writes them anew.
    rcases ensures_stored hwhole hname generator _ s rfl with
      ⟨r, s', hrun, config', blob', hconfig', hblob', -, hfile'⟩ | ⟨e, s', hrun, -⟩
    · obtain rfl : config = config' := Option.some.inj (hconfig.symm.trans hconfig')
      obtain rfl : blob = blob' := Option.some.inj (hblob.symm.trans hblob')
      rw [hrun]
      rwa [blobPath, hdir] at hfile'
    · exact absurd ⟨⟨config, hconfig, hdir⟩, hblob, e, by rw [hrun]⟩ hfails
  · have htarget : ∀ config other, s.writerConfigs.lookup writerHandle = some config →
        blobOf U generator = some other →
        blobPath D T config.baseDir (sha256 other) ≠ blobPath D T baseDir (sha256 blob) := by
      intro config other hconfig hother heq
      obtain ⟨hdir, htext⟩ := Prod.mk.inj heq
      have hhash : sha256 other = sha256 blob := by
        have h := congrArg T.fromBase58 htext
        rwa [T.fromBase58_toBase58, T.fromBase58_toBase58, Option.some.injEq] at h
      rw [hcoll other hother hhash] at hother
      exact hsame ⟨config, hconfig, hdir, hother⟩
    have hkeeping : Keeping (fun p => p = blobPath D T baseDir (sha256 blob))
        (fun _ => some blob) s := by
      rintro _ rfl
      exact hfile
    rcases ensures_store hwhole hname (lasting_blobPath hname _ _) generator _ htarget s
      ⟨hkeeping, rfl⟩ with
      ⟨r, s', hrun, -, hkept⟩ | ⟨e, s', hrun, hkept⟩
    all_goals
      rw [hrun]
      exact hkept _ rfl

/-- One command and the file of tails that were stored. -/
theorem lookup_execute (hwhole : Whole D) (hname : PlainNames T)
    (hcoll : NoCollision sha256 U blob command)
    (hfails : ¬ FailsAgain D sha256 T U baseDir blob s command)
    (hfile : s.files.lookup (blobPath D T baseDir (sha256 blob)) = some blob) :
    (execute D C sha256 T U s command).files.lookup
      (blobPath D T baseDir (sha256 blob)) = some blob := by
  cases command with
  | openWriter type_ config => exact (congrArg _ (files_openWriter type_ config s rfl)).trans hfile
  | openReader type_ config => exact (congrArg _ (files_openReader type_ config s rfl)).trans hfile
  | storeTails writerHandle generator => exact lookup_storeTails hwhole hname hcoll hfails hfile
  | accessTails readerHandle tailsLocation tailsHash tailIds =>
    exact (congrArg _ (files_accessTails readerHandle tailsLocation tailsHash tailIds s rfl)).trans
      hfile
  | takeId => exact hfile

theorem lookup_executeAll (hwhole : Whole D) (hname : PlainNames T) {later : List (BlobCommand U)}
    (hcoll : ∀ command ∈ later, NoCollision sha256 U blob command)
    (hfails : ∀ pre command, pre ++ [command] <+: later →
      ¬ FailsAgain D sha256 T U baseDir blob (executeAll D C sha256 T U s pre) command)
    (hfile : s.files.lookup (blobPath D T baseDir (sha256 blob)) = some blob) :
    (executeAll D C sha256 T U s later).files.lookup
      (blobPath D T baseDir (sha256 blob)) = some blob := by
  refine forall_prefix_of_steps (P := fun pre =>
    (executeAll D C sha256 T U s pre).files.lookup (blobPath D T baseDir (sha256 blob)) = some blob)
    (C := fun pre command => NoCollision sha256 U blob command ∧
      ¬ FailsAgain D sha256 T U baseDir blob (executeAll D C sha256 T U s pre) command)
        hfile ?_ ?_ later
    (List.prefix_refl later)
  · rintro pre command hpre ⟨hc, hf⟩
    rw [executeAll, List.foldl_concat]
    exact lookup_execute hwhole hname hc hf hpre
  · intro pre command hpre
    exact ⟨hcoll command (hpre.subset (List.mem_append_right _ (List.mem_singleton_self command))),
      hfails pre command hpre⟩

/-- The bytes of stored tails are a piece for each. -/
theorem exists_pieces {tails : List U.Tail} {bytes : Bytes}
    (h : tailsBytes U (tails.map .ok) = some bytes) :
    ∃ pieces : List Bytes, bytes = pieces.flatten ∧ (∀ piece ∈ pieces, piece.length = U.size) ∧
      ∀ tailId, U.fromBytes (pieces.getD tailId []) = tailAt U tails tailId := by
  induction tails generalizing bytes with
  | nil =>
    refine ⟨[], (Option.some.inj h).symm, by simp, ?_⟩
    intro tailId
    rfl
  | cons tail tails ih =>
    rw [List.map_cons, tailsBytes] at h
    rcases htail : U.toBytes tail with e | piece
    · rw [htail] at h
      cases h
    · rw [htail] at h
      obtain ⟨rest, hrest, rfl⟩ := Option.map_eq_some_iff.mp h
      obtain ⟨pieces, rfl, hlength, hread⟩ := ih hrest
      refine ⟨piece :: pieces, rfl, ?_, ?_⟩
      · intro p hp
        rcases List.mem_cons.mp hp with rfl | hp
        · exact U.length_toBytes tail p htail
        · exact hlength p hp
      · intro tailId
        cases tailId with
        | zero => exact U.fromBytes_toBytes tail piece htail
        | succ tailId =>
          rw [List.getD_cons_succ, hread tailId, tailAt, tailAt, List.getElem?_cons_succ]

theorem fromBytes_slice {tails : List U.Tail} (h : blobOf U (tails.map .ok) = some blob)
    (tailId : ℕ) :
    U.fromBytes ((blob.drop (U.size * tailId + tailsBlobTagSz.toNat)).take U.size) =
      tailAt U tails tailId := by
  obtain ⟨bytes, hbytes, rfl⟩ := Option.map_eq_some_iff.mp h
  obtain ⟨pieces, rfl, hlength, hread⟩ := exists_pieces hbytes
  have hdrop : (version ++ pieces.flatten).drop (U.size * tailId + tailsBlobTagSz.toNat) =
      pieces.flatten.drop (U.size * tailId) := by
    rw [Nat.add_comm, ← List.drop_drop]
    rfl
  rw [hdrop, slice_flatten hlength, hread tailId]

/-- Tails that were stored are read back under their hash by every later accessor on their
directory. -/
theorem stored_tails_read_back (hwhole : Whole D) (hname : PlainNames T) {s₁ : Service}
    {writerHandle readerHandle : Int32} {config : WriterConfig} {tails : List U.Tail}
    {location tailsHash readerDir : String}
    (hconfig : s.writerConfigs.lookup writerHandle = some config)
    (hstore : (storeTailsFromGenerator D sha256 T U writerHandle (tails.map .ok)).runOn s =
      (.ok (location, tailsHash), s₁))
    (later : List (BlobCommand U))
    (hcoll : ∀ blob, blobOf U (tails.map .ok) = some blob →
      ∀ command ∈ later, NoCollision sha256 U blob command)
    (hfails : ∀ blob, blobOf U (tails.map .ok) = some blob → ∀ pre command, pre ++
      [command] <+: later →
      ¬ FailsAgain D sha256 T U config.baseDir blob (executeAll D C sha256 T U s₁ pre) command)
    (hreader : (executeAll D C sha256 T U s₁ later).readerConfigs.lookup readerHandle =
      some readerDir)
    (hdir : D.directory readerDir = D.directory config.baseDir)
    (hworking : Working D (executeAll D C sha256 T U s₁ later)) (tailsLocation : String)
    (tailIds : List ℕ) :
    ((accessTails D T U readerHandle tailsLocation tailsHash tailIds).runOn
      (executeAll D C sha256 T U s₁ later)).1 = .ok (tailIds.map (tailAt U tails)) := by
  have hstored : ∃ blob, blobOf U (tails.map .ok) = some blob ∧
      tailsHash = T.toBase58 (sha256 blob) ∧
      s₁.files.lookup (blobPath D T config.baseDir (sha256 blob)) = some blob := by
    rcases ensures_stored hwhole hname (tails.map .ok) _ s rfl with
      ⟨r, s', hrun, config', blob, hconfig', hblob, hhash, hfile⟩ | ⟨e, s', hrun, -⟩
    · obtain rfl : config = config' := Option.some.inj (hconfig.symm.trans hconfig')
      obtain ⟨hr, rfl⟩ := Prod.mk.inj (hstore.symm.trans hrun)
      obtain rfl := Except.ok.inj hr
      exact ⟨blob, hblob, hhash, hfile⟩
    · rw [hstore] at hrun
      cases hrun
  obtain ⟨blob, hblob, rfl, hfile⟩ := hstored
  have hlater :=
    lookup_executeAll (C := C) hwhole hname (hcoll blob hblob) (hfails blob hblob) hfile
  have hpath : blobPath D T config.baseDir (sha256 blob) = blobPath D T readerDir
      (sha256 blob) := by
    rw [blobPath, blobPath, hdir]
  rw [hpath] at hlater
  rcases ensures_accessTails hwhole readerHandle tailsLocation tailIds _
    ⟨hreader, hlater, hworking⟩ with
    ⟨r, s', hrun, rfl⟩ | ⟨e, s', -, hfalse⟩
  · rw [hrun]
    exact congrArg Except.ok (List.map_congr_left fun tailId _ => fromBytes_slice hblob tailId)
  · exact hfalse.elim

end Runs

section Samples
open Crypto (letterCodecs letters letter_toNat)

/-- A disk that fails in one copy, of which one byte was made. -/
def unreliableDisk : Disk where
  directory text := text
  tmpDir := "/tmp"
  noSuchFile := "No such file or directory (os error 2)"
  fails k := if k = 17 then some "No space left on device (os error 28)" else none
  takes _ n := n
  gives _ n := n
  copied _ := some 1

def byteTails : TailCodec where
  Tail := UInt8
  size := 1
  toBytes tail := .ok [tail]
  fromBytes
    | [tail] => .ok tail
    | _ => .error ⟨.invalidStructure, "Invalid byte representation of tail"⟩
  length_toBytes := by
    rintro tail bytes h
    obtain rfl := Except.ok.inj h
    rfl
  fromBytes_toBytes := by
    rintro tail bytes h
    obtain rfl := Except.ok.inj h
    rfl

def noConfigs : ConfigReader := ⟨fun _ => .error "expected value", fun _ => .error "expected value"⟩

def openedService : Service where
  files := ∅
  writerConfigs := (∅ : Table Int32 WriterConfig).insert 1 ⟨"/tails", ""⟩
  writerBlobs := ∅
  readerConfigs := (∅ : Table Int32 String).insert 2 "/tails"
  readerBlobs := ∅
  ids := 2
  calls := 0

def twoTails : List byteTails.Tail := [(7 : UInt8), (8 : UInt8)]

def thirdTail : byteTails.Tail := (9 : UInt8)

theorem plainNames_letters : PlainNames letterCodecs := by
  intro bytes h
  change '_' ∈ (letters bytes).toList at h
  rw [letters, String.toList_ofList, List.mem_map] at h
  obtain ⟨c, -, hc⟩ := h
  have hnat := letter_toNat c
  rw [hc] at hnat
  have hunderscore : '_'.toNat = 95 := rfl
  omega

theorem runOn_of_isOk {α : Type} {f : InService α} {s : Service} (h : (f.runOn s).1.isOk = true) :
    ∃ a, f.runOn s = (.ok a, (f.runOn s).2) := by
  obtain ⟨a, ha⟩ := exists_ok_of_isOk h
  exact ⟨a, Prod.ext ha rfl⟩

def firstStore : InService (String × String) :=
  storeTailsFromGenerator unreliableDisk id letterCodecs byteTails 1 (twoTails.map .ok)

/-- Two tails, a store of another that fails, and both read back. -/
theorem stored_tails_read_back_sample : ∃ location tailsHash s₁,
    firstStore.runOn openedService = (.ok (location, tailsHash), s₁) ∧
    ((accessTails unreliableDisk letterCodecs byteTails 2 location tailsHash [1, 0, 2]).runOn
      (executeAll unreliableDisk noConfigs id
        letterCodecs byteTails s₁ [.storeTails 1 [.ok thirdTail]])).1 =
        .ok ([1, 0, 2].map (tailAt byteTails twoTails)) := by
  let later : List (BlobCommand byteTails) := [.storeTails 1 [.ok thirdTail]]
  have hisOk : (firstStore.runOn openedService).1.isOk = true := by decide
  obtain ⟨⟨location, tailsHash⟩, hstore⟩ := runOn_of_isOk hisOk
  refine ⟨location, tailsHash, _, hstore, ?_⟩
  have hreader : (executeAll unreliableDisk noConfigs
      id letterCodecs byteTails (firstStore.runOn openedService).2
      later).readerConfigs.lookup 2 = some "/tails" := by decide +kernel
  refine stored_tails_read_back (fun _ _ => ⟨rfl, rfl⟩) plainNames_letters rfl hstore
    later ?_ ?_ hreader rfl ?_
    location [1, 0, 2]
  · intro blob _ command hcommand
    obtain rfl := List.mem_singleton.mp hcommand
    exact fun other _ hhash => hhash
  · intro blob hblob pre command hpre hagain
    have hcommand : command = .storeTails 1 [.ok thirdTail] :=
      List.mem_singleton.mp
        (hpre.subset (List.mem_append_right _ (List.mem_singleton_self command)))
    subst hcommand
    have hother := hagain.2.1
    rw [← hblob] at hother
    exact absurd (Option.some.inj hother) (by decide)
  · intro k hk
    have hcalls : (executeAll unreliableDisk noConfigs
        id letterCodecs byteTails (firstStore.runOn openedService).2
        later).calls = 18 := by decide +kernel
    rw [hcalls] at hk
    have hne : k ≠ 17 := by omega
    exact if_neg hne

end Samples

end SimpleAsset.Indy.BlobStorage
