import SimpleAsset.Indy.Wallet.ExportRoundTrip
import SimpleAsset.Indy.Wallet.ImportService

/-! What an import leaves behind. -/
namespace SimpleAsset.Indy.Wallet
open SimpleAsset.Library

section Stream
variable {C : Cipher} {keys : Keys} {S : Sqlite} {A : Aead} {codec : Codec}
    {random : ℕ → ValueRandom} {key : Key}
  {bufferLength : ℕ}

/-- The records of a stream, up to its end message. What follows the end message is not read. -/
inductive StreamHolds (codec : Codec) : Bytes → List Record → Prop
  | done {lengthBytes tail : Bytes} : lengthBytes.length = 4 → ofLe lengthBytes = 0 →
      StreamHolds codec (lengthBytes ++ tail) []
  | record {lengthBytes bytes rest : Bytes} {record : Record} {records : List Record} :
      lengthBytes.length = 4 →
      ofLe lengthBytes = bytes.length → bytes ≠ [] → codec.decodeRecord bytes = some record →
      StreamHolds codec rest records →
      StreamHolds codec (lengthBytes ++ (bytes ++ rest)) (record :: records)

theorem StreamHolds.length_le {plain : Bytes} {records : List Record}
    (h : StreamHolds codec plain records) :
    4 ≤ plain.length := by
  cases h with
  | done hlength => simp [hlength]
  | record hlength => simp [hlength]

theorem StreamHolds.eq_cons {plain : Bytes} {records : List Record}
    (h : StreamHolds codec plain records)
    (hend : ofLe (plain.take 4) ≠ 0) : ofLe (plain.take 4) ≤ (plain.drop 4).length ∧ ∃ record rest,
      records = record :: rest ∧
      codec.decodeRecord ((plain.drop 4).take (ofLe (plain.take 4))) = some record ∧
      StreamHolds codec ((plain.drop 4).drop (ofLe (plain.take 4))) rest := by
  cases h with
  | done hlength hzero =>
    rw [List.take_left' hlength] at hend
    exact absurd hzero hend
  | @record lengthBytes bytes rest record records hlength hbytes hne hdecode hrest =>
    rw [List.take_left' hlength, List.drop_left' hlength, hbytes]
    refine ⟨by simp, record, records, rfl, ?_, ?_⟩
    · rwa [List.take_left]
    · rwa [List.drop_left]

/-- Putting a record with a new key in front. -/
theorem nodupKeys_cons_iff {record : Record} {records : List Record} {m : RecordMap}
    (hkey : m.lookup record.entry.1 = none) :
    ((record :: records).map Record.entry).NodupKeys ∧
    (∀ r ∈ record :: records, m.lookup r.entry.1 = none) ↔
      (records.map Record.entry).NodupKeys ∧
        ∀ r ∈ records, (m.insert record.entry.1 record.entry.2).lookup r.entry.1 = none := by
  rw [List.map_cons, List.nodupKeys_cons, List.forall_mem_cons]
  constructor
  · intro ⟨⟨hnew, hnodup⟩, _, hrest⟩
    refine ⟨hnodup, fun r hr => ?_⟩
    have hne : r.entry.1 ≠ record.entry.1 := by
      intro heq
      apply hnew
      rw [← heq, List.keys]
      exact List.mem_map_of_mem (List.mem_map_of_mem hr)
    rw [Finmap.lookup_insert_of_ne _ hne]
    exact hrest r hr
  · intro ⟨hnodup, hrest⟩
    have hne : ∀ r ∈ records, r.entry.1 ≠ record.entry.1 := by
      intro r hr heq
      have hlookup := hrest r hr
      rw [heq, Finmap.lookup_insert] at hlookup
      cases hlookup
    refine ⟨⟨?_, hnodup⟩, hkey, fun r hr => ?_⟩
    · intro hmem
      rw [List.keys, List.map_map] at hmem
      obtain ⟨r, hr, heq⟩ := List.mem_map.mp hmem
      exact hne r hr heq
    · have hlookup := hrest r hr
      rwa [Finmap.lookup_insert_of_ne _ (hne r hr)] at hlookup

/-- The loop adds what the stream holds, or there is no list of records with new keys that the
stream holds. -/
theorem importRecords_spec {db : Db} {m : RecordMap} (r : Reader) (h : Stores C keys db m)
    (horphans : NoOrphans db) (count : ℕ) :
    (∃ db' records m',
      importRecords C keys S A codec random key bufferLength r db count = (.ok (), db') ∧
      StreamHolds codec (r.plain A key bufferLength) records ∧
      ((records.map Record.entry).NodupKeys ∧
        ∀ record ∈ records, m.lookup record.entry.1 = none) ∧ Stores C keys db' m' ∧
      m'.entries = (records.map Record.entry : Multiset ((_ : String × String) × Entry)) +
      m.entries) ∨
    ∃ e db', importRecords C keys S A codec random key bufferLength r db count =
      (.error (.err e), db') ∧
      ∀ records, StreamHolds codec (r.plain A key bufferLength) records →
        ¬ ((records.map Record.entry).NodupKeys ∧
          ∀ record ∈ records, m.lookup record.entry.1 = none) := by
  induction hn : r.size using Nat.strongRecOn generalizing r db m count with
  | ind n ih =>
    subst hn
    obtain ⟨hok, herror⟩ := Reader.read_spec A key bufferLength r 4
    rcases Nat.lt_or_ge (r.plain A key bufferLength).length 4 with hshort | hlong
    · right
      obtain ⟨e, hread⟩ := herror hshort
      refine ⟨_, db, importRecords_error hread, fun records hrecords _ => ?_⟩
      have hfour := hrecords.length_le
      omega
    obtain ⟨r₁, hread, hplain₁⟩ := hok hlong
    by_cases hend : ofLe ((r.plain A key bufferLength).take 4) = 0
    · left
      have hholds : StreamHolds codec (r.plain A key bufferLength) [] := by
        rw [← List.take_append_drop 4 (r.plain A key bufferLength)]
        exact .done (List.length_take_of_le hlong) hend
      exact ⟨db, [], m, importRecords_end hread hend, hholds,
        ⟨List.nodupKeys_nil, by simp⟩, h, by simp⟩
    obtain ⟨hok₁, herror₁⟩ :=
      Reader.read_spec A key bufferLength r₁ (ofLe ((r.plain A key bufferLength).take 4))
    rw [hplain₁] at hok₁ herror₁
    rcases Nat.lt_or_ge ((r.plain A key bufferLength).drop 4).length
      (ofLe ((r.plain A key bufferLength).take 4)) with
      hshort | hlong₁
    · right
      obtain ⟨e, hread₁⟩ := herror₁ hshort
      refine ⟨_, db, importRecords_short hread hend hread₁, fun records hrecords _ => ?_⟩
      have hle := (hrecords.eq_cons hend).1
      omega
    obtain ⟨r₂, hread₁, hplain₂⟩ := hok₁ hlong₁
    rw [importRecords_step hread hend hread₁]
    cases hdecode : codec.decodeRecord
      (((r.plain A key bufferLength).drop 4).take (ofLe ((r.plain A key bufferLength).take 4))) with
    | none =>
      right
      refine ⟨_, db, rfl, fun records hrecords _ => ?_⟩
      obtain ⟨record, rest, -, hsome, -⟩ := (hrecords.eq_cons hend).2
      rw [hdecode] at hsome
      cases hsome
    | some record =>
      cases hkey : m.lookup (record.type, record.id) with
      | some entry =>
        right
        have hadd := add_some (S := S) h hkey record.value record.tags (random count)
        refine ⟨itemAlreadyExists, db,
          by simp only [addRecord, hadd], fun records hrecords hnew => ?_⟩
        obtain ⟨record', rest, rfl, hsome, -⟩ := (hrecords.eq_cons hend).2
        rw [hdecode, Option.some.injEq] at hsome
        have hnone := hnew.2 record' List.mem_cons_self
        rw [← hsome] at hnone
        rw [Record.entry, hkey] at hnone
        cases hnone
      | none =>
        have hfree : ∀ slot, db.tag (S.nextRowid db.items.keys) slot = none :=
          horphans _ (S.fresh db.items.keys)
        obtain ⟨db₁, hadd, hstores, hclean⟩ :=
          add_none h hkey hfree record.value record.tags (random count)
        change Stores C keys db₁ (m.insert record.entry.1 record.entry.2) at hstores
        have hentries : (m.insert record.entry.1 record.entry.2).entries =
            record.entry ::ₘ m.entries :=
          Finmap.entries_insert_of_notMem (Finmap.lookup_eq_none.mp hkey)
        have hsize : r₂.size < r.size := by
          have hfirst := Reader.size_read hread
          have hsecond := Reader.size_read hread₁
          omega
        simp only [addRecord, hadd]
        rcases ih r₂.size hsize r₂ hstores (hclean horphans) (count + 1) rfl with
          ⟨db', records, m', himport, hholds, hnew, hstores', hentries'⟩ | ⟨e, db', himport, hnone⟩
        · left
          refine ⟨db', record :: records, m', himport, ?_, (nodupKeys_cons_iff hkey).mpr hnew,
            hstores', ?_⟩
          · rw [hplain₂] at hholds
            have hsplit := StreamHolds.record (List.length_take_of_le hlong)
              (List.length_take_of_le hlong₁).symm (by
                intro hnil
                have hlength := List.length_take_of_le hlong₁
                rw [hnil] at hlength
                exact hend hlength.symm) hdecode hholds
            rwa [List.take_append_drop, List.take_append_drop] at hsplit
          · rw [hentries', hentries, List.map_cons, ← Multiset.cons_coe, Multiset.cons_add,
              Multiset.add_cons]
        · right
          refine ⟨e, db', himport, fun records hrecords hnew => ?_⟩
          obtain ⟨record', rest, rfl, hsome, hrest⟩ := (hrecords.eq_cons hend).2
          rw [hdecode, Option.some.injEq] at hsome
          subst hsome
          rw [← hplain₂] at hrest
          exact hnone rest hrest ((nodupKeys_cons_iff hkey).mp hnew)

end Stream

section File
variable {P : Platform} {p : PendingImport} {importKey : Key}

/-- Under the import key the file is the hash of its header and a stream of these records. -/
def PendingImport.Holds (P : Platform) (p : PendingImport) (importKey : Key)
    (records : List Record) : Prop :=
  ∃ bufferLength stream, newChunkBuffer P.build p.chunkSize = .ok bufferLength ∧
    plainOf P.aead importKey bufferLength p.nonce p.reader = P.codec.hash p.headerBytes ++ stream ∧
    StreamHolds P.codec stream records

/-- The file holds records, no two of them under one type and id. -/
def PendingImport.Sound (P : Platform) (p : PendingImport) (importKey : Key) : Prop :=
  ∃ records, p.Holds P importKey records ∧ (records.map Record.entry).NodupKeys

/-- There is no buffer for chunks of the size that the header names. -/
def PendingImport.Oversized (P : Platform) (p : PendingImport) : Prop :=
  ∃ panic, newChunkBuffer P.build p.chunkSize = .error (.panic panic)

theorem newChunkBuffer_cases (build : Build) (n : ℕ) :
    (∃ panic, newChunkBuffer build n = .error (.panic panic)) ∨
    ∃ length, newChunkBuffer build n = .ok length := by
  have hsum : (∃ panic, addU64 build n tagBytes = .error (.panic panic)) ∨
      ∃ length, addU64 build n tagBytes = .ok length := by
    unfold addU64
    split_ifs
    · exact Or.inr ⟨_, rfl⟩
    · cases build with
      | debug => exact Or.inl ⟨_, rfl⟩
      | release => exact Or.inr ⟨_, rfl⟩
  unfold newChunkBuffer
  rcases hsum with ⟨panic, hsum⟩ | ⟨length, hsum⟩
  · exact Or.inl ⟨panic, by rw [hsum, except_error_bind]⟩
  · rw [hsum, except_ok_bind]
    split_ifs
    · exact Or.inr ⟨length, rfl⟩
    · exact Or.inl ⟨_, rfl⟩

/-- An import into a new wallet panics on the chunk size, adds what the file holds, or fails because
the file is not sound. -/
theorem finishImport_spec (P : Platform) (p : PendingImport) (importKey : Key) (keys : Keys)
    (values : ℕ → ValueRandom) :
    (∃ panic, newChunkBuffer P.build p.chunkSize = .error (.panic panic) ∧
      finishImport P.cipher keys P.sqlite P.build P.aead P.codec values importKey p.reader
        p.nonce p.chunkSize p.headerBytes emptyDb = (.error (.panic panic), emptyDb)) ∨
    (∃ db records m,
      finishImport P.cipher keys P.sqlite P.build P.aead P.codec values importKey p.reader p.nonce
        p.chunkSize p.headerBytes emptyDb = (.ok (), db) ∧ p.Holds P importKey records ∧
      (records.map Record.entry).NodupKeys ∧ Stores P.cipher keys db m ∧
      m.entries = (records.map Record.entry : Multiset ((_ : String × String) × Entry))) ∨
    ∃ e db, finishImport P.cipher keys P.sqlite P.build P.aead P.codec values importKey p.reader
      p.nonce p.chunkSize
      p.headerBytes emptyDb = (.error (.err e), db) ∧ ¬ p.Oversized P ∧ ¬ p.Sound P importKey := by
  rcases newChunkBuffer_cases P.build p.chunkSize with ⟨panic, hbuffer⟩ | ⟨bufferLength, hbuffer⟩
  · left
    exact ⟨panic, hbuffer, by rw [finishImport, hbuffer]⟩
  right
  have hsized : ¬ p.Oversized P := by
    rintro ⟨panic, hpanic⟩
    rw [hbuffer] at hpanic
    cases hpanic
  have hholds : ∀ records, p.Holds P importKey records ↔ ∃ stream,
      plainOf P.aead importKey bufferLength p.nonce p.reader = P.codec.hash p.headerBytes ++
      stream ∧
        StreamHolds P.codec stream records := by
    intro records
    constructor
    · rintro ⟨length, stream, hlength, hplain, hstream⟩
      rw [hbuffer, Except.ok.injEq] at hlength
      subst hlength
      exact ⟨stream, hplain, hstream⟩
    · rintro ⟨stream, hplain, hstream⟩
      exact ⟨bufferLength, stream, hbuffer, hplain, hstream⟩
  rw [finishImport, hbuffer]
  obtain ⟨hok, herror⟩ :=
    Reader.read_spec P.aead importKey bufferLength ⟨[], p.nonce, p.reader⟩ hashBytes
  change (hashBytes ≤ (plainOf P.aead importKey bufferLength p.nonce p.reader).length → _) at hok
  change ((plainOf P.aead importKey bufferLength p.nonce p.reader).length < hashBytes → _) at herror
  rcases Nat.lt_or_ge (plainOf P.aead importKey bufferLength p.nonce p.reader).length hashBytes
    with hshort | hlong
  · right
    obtain ⟨e, hread⟩ := herror hshort
    refine ⟨mapIoErr e, emptyDb, by simp only [hread], hsized, ?_⟩
    rintro ⟨records, hrecords, -⟩
    obtain ⟨stream, hplain, -⟩ := (hholds records).mp hrecords
    rw [hplain, List.length_append, P.codec.length_hash] at hshort
    omega
  obtain ⟨r, hread, hrest⟩ := hok hlong
  change r.plain P.aead importKey bufferLength =
    (plainOf P.aead importKey bufferLength p.nonce p.reader).drop hashBytes at hrest
  change Reader.read P.aead importKey bufferLength ⟨[], p.nonce, p.reader⟩ hashBytes =
    .ok ((plainOf P.aead importKey bufferLength p.nonce p.reader).take hashBytes, r) at hread
  simp only [hread]
  by_cases hhash : P.codec.hash p.headerBytes =
    (plainOf P.aead importKey bufferLength p.nonce p.reader).take hashBytes
  · rw [if_neg (not_not.mpr hhash)]
    have hsplit : plainOf P.aead importKey bufferLength p.nonce p.reader =
        P.codec.hash p.headerBytes ++ r.plain P.aead importKey bufferLength := by
      rw [hhash, hrest, List.take_append_drop]
    rcases importRecords_spec (S := P.sqlite) r stores_empty noOrphans_empty 0 with
      ⟨db, records, m, himport, hstream, ⟨hnodup, -⟩, hstores, hentries⟩ | ⟨e, db, himport, hnone⟩
    · left
      refine ⟨db, records, m, himport, (hholds records).mpr ⟨_, hsplit, hstream⟩, hnodup,
        hstores, ?_⟩
      rw [hentries]
      exact add_zero _
    · right
      refine ⟨e, db, himport, hsized, ?_⟩
      rintro ⟨records, hrecords, hnodup⟩
      obtain ⟨stream, hplain, hstream⟩ := (hholds records).mp hrecords
      rw [hsplit, List.append_cancel_left_eq] at hplain
      rw [← hplain] at hstream
      exact hnone records hstream ⟨hnodup, fun _ _ => Finmap.lookup_empty _⟩
  · rw [if_pos hhash]
    right
    refine ⟨_, emptyDb, rfl, hsized, ?_⟩
    rintro ⟨records, hrecords, -⟩
    obtain ⟨stream, hplain, -⟩ := (hholds records).mp hrecords
    apply hhash
    rw [hplain, List.take_left' (P.codec.length_hash _)]

end File

section Trace
variable {P : Platform}

/-- The same storages with the same contents, and the same open wallets. -/
structure SameWallets (s s' : ImportService P) : Prop where
  storages : ∀ file, s'.storage? file = s.storage? file
  wallets : s'.service.wallets = s.service.wallets
  walletIds : s'.service.walletIds = s.service.walletIds

/-- There is one storage more, and under the keys that its metadata hides it stores these
records. -/
structure NewStorage (config : Config) (masterKey : Key) (records : List Record)
    (s s' : ImportService P) : Prop where
  fresh : s.storage? (storageFile P.environment config) = none
  others : ∀ file, file ≠ storageFile P.environment config → s'.storage? file = s.storage? file
  stored : ∃ metadata db keys m,
    s'.storage? (storageFile P.environment config) = some (some metadata, db) ∧
    restoreKeys P.environment metadata masterKey = .ok keys ∧ Stores P.cipher keys db m ∧
    m.entries = (records.map Record.entry : Multiset ((_ : String × String) × Entry))

/-- An import that returns an error changes no wallet, and one that succeeds adds one with what the
file holds. -/
def LeavesNoTrace (s : ImportService P) (handle : WalletHandle) (config : Config)
    (importKey masterKey : Key) (random : ImportRandom) : Prop :=
  (∀ e, (importWalletContinue s handle config importKey masterKey random).2 = .error (.err e) →
    SameWallets s (importWalletContinue s handle config importKey masterKey random).1) ∧
  ((importWalletContinue s handle config importKey masterKey random).2 = .ok () →
    ∃ p records, s.pendingForImport.lookup handle = some p ∧ p.Holds P importKey records ∧
      NewStorage config masterKey records s
      (importWalletContinue s handle config importKey masterKey random).1)

/-- The wallet exists already; or its id is not that of an open wallet, and no other storage lies in
its directory unless the file is sound or too large in its chunks. -/
def ClearsUp (s : ImportService P) (config : Config) (importKey : Key) (p : PendingImport) : Prop :=
  (s.storage? (storageFile P.environment config)).isSome ∨
    (getWalletId config ∉ s.service.walletIds ∧
      ((∀ file, P.inTree (walletDir P.environment config) file = true → s.storage? file = none) ∨
        p.Sound P importKey ∨ p.Oversized P))

variable {s : ImportService P} {config : Config} {importKey masterKey : Key} {p : PendingImport}
    {random : ImportRandom}

theorem restoreKeys_prepareMetadata (masterKey : Key) (keyData : KeyDerivationData) (keys : Keys)
    (nonce : Bytes) :
    restoreKeys P.environment (prepareMetadata P.environment masterKey keyData keys nonce)
      masterKey = .ok keys := by
  have hkeys : (prepareMetadata P.environment masterKey keyData keys nonce).getKeys =
      P.serializeEncrypted keys masterKey nonce := by
    cases keyData <;> rfl
  have hround : P.environment.deserializeEncrypted
      (P.serializeEncrypted keys masterKey nonce) masterKey = .ok keys :=
    P.deserialize_serialize keys masterKey nonce
  rw [restoreKeys, hkeys, hround]

variable (s config masterKey p random) in
/-- The service after the storage was created. -/
def created : ImportService P :=
  let metadata := prepareMetadata P.environment masterKey p.keyData random.keys random.nonce
  let file := storageFile P.environment config
  { s with
    service := { s.service with disk := s.service.disk.insert file (some metadata) }
    contents := Function.update s.contents file emptyDb }

theorem storage?_isSome {file : P.File} :
    (s.storage? file).isSome = (s.service.disk.lookup file).isSome := by
  rw [ImportService.storage?, Option.isSome_map]

theorem createWallet_exists (h : (s.storage? (storageFile P.environment config)).isSome) :
    createWallet s config p.keyData masterKey random =
      (s, .error ⟨.walletAlreadyExists, "Wallet database file already exists"⟩) := by
  rw [storage?_isSome] at h
  rw [createWallet, if_pos h]

theorem createWallet_new (h : s.storage? (storageFile P.environment config) = none) :
    createWallet s config p.keyData masterKey random =
      (created s config masterKey p random, .ok random.keys) := by
  have hdisk : ¬ (s.service.disk.lookup (storageFile P.environment config)).isSome := by
    rw [← storage?_isSome, h]
    simp
  rw [createWallet, if_neg hdisk]
  rfl

theorem storage?_created (file : P.File) : (created s config masterKey p random).storage? file =
    if file = storageFile P.environment config then
      some (some (prepareMetadata P.environment masterKey p.keyData random.keys random.nonce),
        emptyDb)
    else s.storage? file := by
  unfold ImportService.storage? created
  split_ifs with hfile
  · subst hfile
    simp
  · simp [AList.lookup_insert_ne hfile, Function.update_of_ne hfile]

variable (importKey masterKey p random) in
theorem fillWallet_used (hid : getWalletId config ∈ s.service.walletIds) : ∃ e,
    fillWallet (created s config masterKey p random) config importKey masterKey p random.keys
      random.values = (created s config masterKey p random, .error (.err e)) := by
  refine ⟨⟨.walletAlreadyOpened, "Wallet " ++ getWalletId config ++ " already opened"⟩, ?_⟩
  have hused : isIdFromConfigNotUsed (created s config masterKey p random).service config =
      .error ⟨.walletAlreadyOpened, "Wallet " ++ getWalletId config ++ " already opened"⟩ :=
      if_pos hid
  rw [fillWallet, hused]
  rfl

/-- The two checks before the records are read pass on a storage that was just created. -/
theorem opened_created (hid : getWalletId config ∉ s.service.walletIds) :
    (do
      isIdFromConfigNotUsed (created s config masterKey p random).service config
      openStorage (created s config masterKey p random).service config) =
      .ok (storageFile P.environment config) := by
  have hunused : isIdFromConfigNotUsed (created s config masterKey p random).service config = .ok
      () := if_neg hid
  have hopen : openStorage (created s config masterKey p random).service config =
      .ok (storageFile P.environment config) := by
    apply if_pos
    rw [created, AList.lookup_insert]
    rfl
  rw [hunused, hopen]
  rfl

theorem contents_created :
    (created s config masterKey p random).contents (storageFile P.environment config) = emptyDb :=
  Function.update_self _ _ _

section Filled
variable {db : Db} {keys : Keys} {values : ℕ → ValueRandom}

/-- The service after records were written to a storage. -/
def filled (t : ImportService P) (file : P.File) (db : Db) : ImportService P :=
  { t with contents := Function.update t.contents file db }

/-- The service after the directory of a wallet was removed. -/
def cleared (t : ImportService P) (config : Config) : ImportService P :=
  let disk := t.service.disk.filter fun file _ => !P.inTree (walletDir P.environment config) file
  { t with service := { t.service with disk := disk } }

theorem fillWallet_ok (hid : getWalletId config ∉ s.service.walletIds)
    (h : finishImport P.cipher keys P.sqlite P.build P.aead P.codec values importKey p.reader
      p.nonce p.chunkSize p.headerBytes emptyDb = (.ok (), db)) :
    fillWallet (created s config masterKey p random) config importKey masterKey p keys values =
      (filled (created s config masterKey p random) (storageFile P.environment config) db,
        .ok ()) := by
  rw [fillWallet, opened_created hid]
  simp only [contents_created, h]
  rfl

theorem fillWallet_panic {panic : Panic} (hid : getWalletId config ∉ s.service.walletIds)
    (h : finishImport P.cipher keys P.sqlite P.build P.aead P.codec values importKey p.reader
      p.nonce p.chunkSize p.headerBytes emptyDb = (.error (.panic panic), db)) :
    (fillWallet (created s config masterKey p random) config importKey masterKey p keys values).2 =
      .error (.panic panic) := by
  rw [fillWallet, opened_created hid]
  simp only [contents_created, h]

/-- A failed import removes the directory of the wallet. -/
theorem fillWallet_err {e : IndyError} (hid : getWalletId config ∉ s.service.walletIds)
    (h : finishImport P.cipher keys P.sqlite P.build P.aead P.codec values importKey p.reader
      p.nonce p.chunkSize p.headerBytes emptyDb = (.error (.err e), db)) :
    fillWallet (created s config masterKey p random) config importKey masterKey p keys values =
      (cleared
        (filled (created s config masterKey p random) (storageFile P.environment config) db) config,
        .error (.err e)) := by
  have hmetadata : getStorageMetadata (created s config masterKey p random).service
      (storageFile P.environment config) =
      .ok (prepareMetadata P.environment masterKey p.keyData random.keys random.nonce) := by
    rw [getStorageMetadata, created, AList.lookup_insert]
  have hdelete : deleteStorage (created s config masterKey p random).service config =
      .ok ((created s config masterKey p random).service.disk.filter fun file _ =>
        !P.inTree (walletDir P.environment config) file) := by
    apply if_pos
    rw [created, AList.lookup_insert]
    rfl
  rw [fillWallet, opened_created hid]
  simp only [contents_created, h, hmetadata, except_ok_bind, except_pure, deleteWalletContinue,
    restoreKeys_prepareMetadata, hdelete]
  rfl

theorem storage?_filled (t : ImportService P) (f file : P.File) : (filled t f db).storage? file =
    if file = f then (t.storage? f).map fun x => (x.1, db) else t.storage? file := by
  unfold ImportService.storage? filled
  split_ifs with hfile
  · subst hfile
    cases t.service.disk.lookup file <;> simp
  · simp [Function.update_of_ne hfile]

theorem storage?_cleared (t : ImportService P) (file : P.File) : (cleared t config).storage? file =
    if P.inTree (walletDir P.environment config) file = true then none else t.storage? file := by
  unfold ImportService.storage? cleared
  rw [Table.lookup_filter]
  split_ifs with hfile
  · cases t.service.disk.lookup file <;> simp [hfile]
  · cases t.service.disk.lookup file <;> simp [hfile]

end Filled

variable (s config masterKey p random) in
/-- What is left is what was there before, unless other storages lie in the directory of the new
wallet. -/
theorem storages_cleared_iff (db : Db) :
    (∀ file,
      (cleared (filled (created s config masterKey p random) (storageFile P.environment config) db)
      config).storage? file = s.storage? file) ↔
      ∀ file, P.inTree (walletDir P.environment config) file = true → s.storage? file = none := by
  have hown : P.inTree (walletDir P.environment config) (storageFile P.environment config) = true :=
    P.inOwnTree (walletDir P.environment config)
  constructor
  · intro h file hfile
    rw [← h file, storage?_cleared, if_pos hfile]
  · intro h file
    rw [storage?_cleared]
    split_ifs with hfile
    · exact (h file hfile).symm
    · have hne : file ≠ storageFile P.environment config := by
        rintro rfl
        exact hfile hown
      rw [storage?_filled, if_neg hne, storage?_created, if_neg hne]

section Continue
variable {handle : WalletHandle}

/-- The service after its pending entry was taken. -/
def taken (s : ImportService P) (handle : WalletHandle) : ImportService P :=
  { s with pendingForImport := s.pendingForImport.erase handle }

theorem importWalletContinue_exists (hp : s.pendingForImport.lookup handle = some p)
    (h : (s.storage? (storageFile P.environment config)).isSome) : ∃ e,
    importWalletContinue s handle config importKey masterKey random =
      (taken s handle, .error (.err e)) := by
  have hcreate : createWallet (taken s handle) config p.keyData masterKey random =
      (taken s handle, .error ⟨.walletAlreadyExists, "Wallet database file already exists"⟩) :=
      createWallet_exists h
  unfold taken at hcreate
  refine ⟨⟨.walletAlreadyExists, "Wallet database file already exists"⟩, ?_⟩
  simp only [importWalletContinue, hp, hcreate]
  rfl

theorem importWalletContinue_new (hp : s.pendingForImport.lookup handle = some p)
    (h : s.storage? (storageFile P.environment config) = none) :
    importWalletContinue s handle config importKey masterKey random =
      fillWallet (created (taken s handle) config masterKey p random) config importKey masterKey
        p random.keys random.values := by
  have hcreate : createWallet (taken s handle) config p.keyData masterKey random =
      (created (taken s handle) config masterKey p random, .ok random.keys) := createWallet_new h
  unfold taken at hcreate ⊢
  simp only [importWalletContinue, hp, hcreate]

end Continue

/-- An import is without a trace exactly when the wallet existed, or its id was free and the file
was sound or the directory of the wallet its own. -/
theorem import_leaves_no_trace_iff (s : ImportService P) (handle : WalletHandle) (config : Config)
    (importKey masterKey : Key) (random : ImportRandom) :
    LeavesNoTrace s handle config importKey masterKey random ↔
      ∀ p, s.pendingForImport.lookup handle = some p → ClearsUp s config importKey p := by
  unfold LeavesNoTrace
  cases hp : s.pendingForImport.lookup handle with
  | none =>
    have hrun : importWalletContinue s handle config importKey masterKey random =
        (s, .error (.panic .unwrapNone)) := by
      rw [importWalletContinue, hp]
    simp [hrun]
  | some p =>
    have hclears : (∀ p', some p = some p' → ClearsUp s config importKey p') ↔
        ClearsUp s config importKey p := by
      simp
    rw [hclears]
    by_cases hexists : (s.storage? (storageFile P.environment config)).isSome
    · -- the storage is not created
      obtain ⟨e, hrun⟩ := importWalletContinue_exists hp hexists
      rw [hrun]
      exact ⟨fun _ => Or.inl hexists, fun _ => ⟨fun _ _ => ⟨fun _ => rfl, rfl, rfl⟩, nofun⟩⟩
    have hnew : s.storage? (storageFile P.environment config) = none :=
      Option.not_isSome_iff_eq_none.mp hexists
    rw [importWalletContinue_new hp hnew]
    by_cases hid : getWalletId config ∈ (taken s handle).service.walletIds
    · -- the check of the id comes after the creation
      obtain ⟨e, hfill⟩ := fillWallet_used importKey masterKey p random hid
      rw [hfill]
      constructor
      · intro ⟨herror, _⟩
        have hsame := (herror e rfl).storages (storageFile P.environment config)
        rw [storage?_created, if_pos rfl, hnew] at hsame
        cases hsame
      · rintro (hsome | ⟨hunused, -⟩)
        · exact absurd hsome hexists
        · exact absurd hid hunused
    · rcases finishImport_spec P p importKey random.keys random.values with
        ⟨panic, hbuffer, hfinish⟩ | ⟨db, records, m, hfinish, hholds, hnodup, hstores, hentries⟩ |
        ⟨e, db, hfinish, hsized, hunsound⟩
      · rw [fillWallet_panic hid hfinish]
        exact ⟨fun _ => Or.inr ⟨hid, Or.inr (Or.inr ⟨panic, hbuffer⟩)⟩,
          fun _ => ⟨nofun, nofun⟩⟩
      · rw [fillWallet_ok hid hfinish]
        refine ⟨fun _ => Or.inr ⟨hid, Or.inr (Or.inl ⟨records, hholds, hnodup⟩)⟩, fun _ =>
          ⟨nofun, ?_⟩⟩
        intro _
        refine ⟨p, records, rfl, hholds, hnew, ?_, ?_⟩
        · intro file hfile
          rw [storage?_filled, if_neg hfile, storage?_created, if_neg hfile]
          rfl
        · refine ⟨_, db, random.keys, m, ?_,
            restoreKeys_prepareMetadata masterKey p.keyData random.keys random.nonce,
            hstores, hentries⟩
          rw [storage?_filled, if_pos rfl, storage?_created, if_pos rfl]
          rfl
      · rw [fillWallet_err hid hfinish]
        have hiff := storages_cleared_iff (taken s handle) config masterKey p random db
        constructor
        · intro ⟨herror, _⟩
          exact Or.inr ⟨hid, Or.inl (hiff.mp (herror e rfl).storages)⟩
        · rintro (hsome | ⟨-, halone | hsound | hoversized⟩)
          · exact absurd hsome hexists
          · exact ⟨fun _ _ => ⟨hiff.mpr halone, rfl, rfl⟩, nofun⟩
          · exact absurd hsound hunsound
          · exact absurd hoversized hsized

end Trace

section Sample

/-- Keys behind the master key they are hidden under. -/
def plainKeys (keys : Keys) (masterKey : Key) : Bytes :=
  masterKey.1 ++ (keys.typeKey.1 ++ (keys.nameKey.1 ++ (keys.valueKey.1 ++ (keys.itemHmacKey.1 ++
    (keys.tagNameKey.1 ++ (keys.tagValueKey.1 ++ keys.tagsHmacKey.1))))))

/-- The key at a place of 32 bytes. -/
def keyAt (bytes : Bytes) (i : ℕ) : IndyResult Key := keyFromSlice ((bytes.drop (32 * i)).take 32)

def keysOfPlain (bytes : Bytes) (masterKey : Key) : IndyResult Keys := do
  let key ← keyAt bytes 0
  if key ≠ masterKey then .error ⟨.invalidStructure, "Unable to open sodium chacha20poly1305_ietf"⟩
  else
    let typeKey ← keyAt bytes 1
    let nameKey ← keyAt bytes 2
    let valueKey ← keyAt bytes 3
    let itemHmacKey ← keyAt bytes 4
    let tagNameKey ← keyAt bytes 5
    let tagValueKey ← keyAt bytes 6
    let tagsHmacKey ← keyAt bytes 7
    pure ⟨typeKey, nameKey, valueKey, itemHmacKey, tagNameKey, tagValueKey, tagsHmacKey⟩

theorem keyAt_append {key : Key} {rest : Bytes} : keyAt (key.1 ++ rest) 0 = .ok key := by
  rw [keyAt, Nat.mul_zero, List.drop_zero, List.take_left' key.2, keyFromSlice, dif_pos key.2]

theorem keyAt_append_succ {key : Key} {rest : Bytes} {i : ℕ} :
    keyAt (key.1 ++ rest) (i + 1) = keyAt rest i := by
  rw [keyAt, keyAt, Nat.mul_succ, Nat.add_comm, ← List.drop_drop, List.drop_left' key.2]

theorem keysOfPlain_plainKeys (keys : Keys) (masterKey : Key) :
    keysOfPlain (plainKeys keys masterKey) masterKey = .ok keys := by
  have hlast : keyAt keys.tagsHmacKey.1 0 = .ok keys.tagsHmacKey := by
    rw [← List.append_nil keys.tagsHmacKey.1, keyAt_append]
  simp only [keysOfPlain, plainKeys, keyAt_append, keyAt_append_succ, except_ok_bind, ne_eq,
    not_true_eq_false, if_false, hlast, except_pure]

/-- Files under their paths. -/
def plainPlatform : Platform where
  File := String
  walletHomePath := "/home/indy/.indy_client/wallet"
  fileAt path := path
  inTree dir path := dir.toList.isPrefixOf path.toList
  inOwnTree dir := by
    have hrelative : ¬ ("sqlite.db".toList.head? = some '/') := by decide
    rw [ List.isPrefixOf_iff_prefix, pushPath, if_neg hrelative]
    split_ifs
    · rw [String.toList_append]
      exact List.prefix_append _ _
    · rw [String.toList_append, String.toList_append, List.append_assoc]
      exact List.prefix_append _ _
  deserializeEncrypted := keysOfPlain
  serializeEncrypted keys masterKey _ := plainKeys keys masterKey
  deserialize_serialize keys masterKey _ := keysOfPlain_plainKeys keys masterKey
  cipher := plainCipher
  sqlite := maxSqlite
  build := .debug
  aead := plainAead
  codec := tokenCodec

/-- The wallet `ab` is open, and a file waits for its import. -/
def openAb : ImportService plainPlatform where
  service :=
    { wallets :=
      AList.singleton 1 ⟨"ab", storageFile plainPlatform.environment ⟨"ab", none⟩, zeroKeys⟩
      walletIds := {"ab"}
      pendingForOpen := ∅
      idsCounter := 2
      disk := AList.singleton (storageFile plainPlatform.environment ⟨"ab", none⟩) (some
        (.raw (plainKeys zeroKeys zeroKey))) }
  contents _ := emptyDb
  pendingForImport := AList.singleton 2 ⟨[], zeroNonce, 1024, [], .raw "key"⟩

/-- The wallet `a` in the directory `b` has the id of the open wallet, which is found after it was
created. -/
theorem import_leaves_storage : ¬ LeavesNoTrace openAb 2 ⟨"a", some "b"⟩ zeroKey zeroKey
    ⟨zeroKeys, [], fun _ => zeroRandom⟩ := by
  intro ⟨herror, _⟩
  have hnew : openAb.storage? (storageFile plainPlatform.environment ⟨"a", some "b"⟩) =
      none := by decide
  have hpending : openAb.pendingForImport.lookup 2 = some
      ⟨[], zeroNonce, 1024, [], .raw "key"⟩ := rfl
  have hid : getWalletId ⟨"a", some "b"⟩ ∈ (taken openAb 2).service.walletIds := by decide
  obtain ⟨e, hfill⟩ := fillWallet_used zeroKey zeroKey ⟨[], zeroNonce, 1024, [], .raw "key"⟩
    ⟨zeroKeys, [], fun _ => zeroRandom⟩ hid
  have hrun := (importWalletContinue_new hpending hnew).trans hfill
  have hsame := (herror e (congrArg Prod.snd hrun)).storages
    (storageFile plainPlatform.environment ⟨"a", some "b"⟩)
  rw [hrun, storage?_created, if_pos rfl, hnew] at hsame
  cases hsame

end Sample

end SimpleAsset.Indy.Wallet
