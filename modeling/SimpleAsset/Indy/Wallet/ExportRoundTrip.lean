import SimpleAsset.Indy.Wallet.ExportImport
import SimpleAsset.Indy.Wallet.MapRefinement

/-! What was exported is imported again, and nothing else passes for it. -/
namespace SimpleAsset.Indy.Wallet
open SimpleAsset.Library

section Stream

/-- Bytes after their length. -/
def frame (bytes : Bytes) : Bytes := toLe 4 bytes.length ++ bytes

/-- The records of a file, one by one, and the length zero that ends them. -/
def frames (records : List Bytes) : Bytes := (records.map frame).flatten ++ toLe 4 0

/-- The plain bytes of the encrypted part. -/
def streamOf (codec : Codec) (header : Bytes) (records : List Bytes) : Bytes :=
  codec.hash header ++ frames records

theorem frames_cons (bytes : Bytes) (records : List Bytes) :
    frames (bytes :: records) = toLe 4 bytes.length ++ (bytes ++ frames records) := by
  simp [frames, frame]

end Stream

section Export
variable {C : Cipher} {keys : Keys} {A : Aead} {codec : Codec} {key : Key}
    {chunkSize : ChunkSize} {db : Db}

theorem writeRecord_total {r : WalletRecord} {record : Record} (h : recordOf r = .ok record)
    (w : Writer) :
    ∃ w', writeRecord A codec key chunkSize w r = .ok w' ∧ ∀ rest,
      w'.total A key chunkSize rest = w.total A key chunkSize
        (frame (codec.encodeRecord record) ++ rest) := by
  refine ⟨_, by rw [writeRecord, h]; rfl, ?_⟩
  intro rest
  rw [Writer.total_write, Writer.total_write, frame, List.append_assoc]

variable (A codec key chunkSize) in
theorem foldlM_writeRecord {rs : List WalletRecord} {records : List Record}
    (h : List.Forall₂ (fun r record => recordOf r = .ok record) rs records) (w : Writer) :
    ∃ w', rs.foldlM (writeRecord A codec key chunkSize) w = .ok w' ∧
      ∀ rest, w'.total A key chunkSize rest = w.total A key chunkSize
        ((records.map fun record => frame (codec.encodeRecord record)).flatten ++ rest) := by
  induction h generalizing w with
  | nil => exact ⟨w, rfl, fun _ => rfl⟩
  | cons hr _ ih =>
    obtain ⟨w₁, hw₁, htotal₁⟩ := writeRecord_total hr w
    obtain ⟨w', hw', htotal⟩ := ih w₁
    refine ⟨w', by rw [List.foldlM_cons, hw₁]; exact hw', ?_⟩
    intro rest
    rw [htotal, htotal₁, List.map_cons, List.flatten_cons, List.append_assoc]

/-- The file that is written: the plain header, and the stream cut into chunks and encrypted. -/
theorem exportContinue_eq {rs : List WalletRecord} {records : List Record}
    (hall : getAll C keys db = .ok rs)
    (h : List.Forall₂ (fun r record => recordOf r = .ok record) rs records) (version : UInt32)
    (keyData : KeyDerivationData) (nonce : Nonce) (time : UInt64) :
    let header := codec.encodeHeader ⟨encryptionMethodOf keyData nonce chunkSize.1, time, version⟩
    exportContinue C keys A codec db version key keyData nonce chunkSize time = .ok
      (plainHeader header ++ sealChunks A key nonce
        (cut chunkSize.1 (streamOf codec header (records.map codec.encodeRecord)))) := by
  intro header
  let w₀ : Writer := ⟨[], nonce, plainHeader header⟩
  obtain ⟨w, hw, htotal⟩ :=
    foldlM_writeRecord A codec key chunkSize h (w₀.write A key chunkSize (codec.hash header))
  unfold exportContinue
  rw [hall, except_ok_bind, hw, except_ok_bind]
  refine congrArg Except.ok ?_
  rw [Writer.inner_flush A key chunkSize (Writer.length_buffer_write A key chunkSize w _),
    Writer.total_write, htotal, Writer.total_write]
  rw [Writer.total, streamOf, frames, List.map_map]
  simp only [w₀, List.nil_append, List.append_nil]
  rfl

/-- A record that was read with all its parts is exported as the entry it is. -/
theorem recordOf_view {r : WalletRecord} {key : String × String} {entry : Entry}
    (h : r.view = RecordMap.viewOf key.2 key.1 entry true true true) :
    ∃ record, recordOf r = .ok record ∧ record.entry = ⟨key, entry⟩ := by
  obtain ⟨id, type, value, tags⟩ := r
  obtain ⟨hid, htype, hvalue, htags⟩ := RecordView.mk.inj h
  simp only [if_true] at htype hvalue htags
  obtain ⟨table, rfl, htable⟩ := Option.map_eq_some_iff.mp htags
  refine ⟨⟨key.1, key.2, entry.value, table⟩, ?_, ?_⟩
  · simp only at hid htype hvalue
    rw [hid, htype, hvalue]
    rfl
  · rw [Record.entry, htable]

theorem exists_recordOf {rs : List WalletRecord} {kes : List ((_ : String × String) × Entry)}
    (h : rs.map WalletRecord.view = kes.map fun ke =>
      RecordMap.viewOf ke.1.2 ke.1.1 ke.2 true true true) :
    ∃ records, List.Forall₂ (fun r record => recordOf r = .ok record) rs records ∧
      records.map Record.entry = kes := by
  induction kes generalizing rs with
  | nil =>
    rw [List.map_nil, List.map_eq_nil_iff] at h
    exact ⟨[], h ▸ .nil, rfl⟩
  | cons ke kes ih =>
    cases rs with
    | nil => simp at h
    | cons r rs =>
      rw [List.map_cons, List.map_cons, List.cons.injEq] at h
      obtain ⟨record, hrecord, hentry⟩ := recordOf_view h.1
      obtain ⟨records, hall, hentries⟩ := ih h.2
      exact ⟨record :: records, .cons hrecord hall, by rw [List.map_cons, hentry, hentries]⟩

/-- `get_all` gives every record of the map once. -/
theorem Stores.getAll_eq {m : RecordMap} (h : Stores C keys db m) :
    ∃ rs records, getAll C keys db = .ok rs ∧
      List.Forall₂ (fun r record => recordOf r = .ok record) rs records ∧
      m.entries = (records.map Record.entry : Multiset ((_ : String × String) × Entry)) := by
  obtain ⟨entryOf, hrep, hentries⟩ := h.exists_entryOf
  obtain ⟨rs, hrs, hviews⟩ := decryptAll_rows hrep ⟨true, true, true, true, true⟩
  have hkes : rs.map WalletRecord.view =
      (db.items.entries.map entryOf).map fun ke =>
        RecordMap.viewOf ke.1.2 ke.1.1 ke.2 true true true := by
    rw [hviews, List.map_map]
    rfl
  obtain ⟨records, hall, hrecords⟩ := exists_recordOf hkes
  exact ⟨rs, records, hrs, hall, by rw [hentries, hrecords]⟩

end Export

section Import
variable {C : Cipher} {keys : Keys} {S : Sqlite} {build : Build} {A : Aead} {codec : Codec}
    {random : ℕ → ValueRandom}
  {key : Key} {bufferLength : ℕ}

variable (C keys S codec random) in
/-- The records of a stream, decoded and added one after another. -/
def addEncoded : List Bytes → Db → ℕ → Outcome Unit × Db
  | [], db, _ => (.ok (), db)
  | bytes :: rest, db, count => match codec.decodeRecord bytes with
    | none => (errMsg .invalidStructure "Record is malformed msgpack", db)
    | some record => match addRecord C keys S (random count) record db with
      | (.ok _, db) => addEncoded rest db (count + 1)
      | (.error fault, db) => (.error fault, db)

/-- Reading from a beginning of a list of bytes: either there are enough of them, or reading
fails. -/
theorem Reader.read_prefix {r : Reader} {first rest : Bytes}
    (h : r.plain A key bufferLength <+: first ++ rest) :
    (∃ r', r.read A key bufferLength first.length = .ok (first, r') ∧
      r'.plain A key bufferLength <+: rest ∧
      (r'.plain A key bufferLength = rest ↔ r.plain A key bufferLength = first ++ rest)) ∨
    ((∃ e, r.read A key bufferLength first.length = .error e) ∧
      r.plain A key bufferLength ≠ first ++ rest) := by
  obtain ⟨hok, herror⟩ := Reader.read_spec A key bufferLength r first.length
  by_cases hlength : first.length ≤ (r.plain A key bufferLength).length
  · left
    obtain ⟨r', hread, hplain⟩ := hok hlength
    have hfirst : (r.plain A key bufferLength).take first.length = first := by
      obtain ⟨tail, htail⟩ := h
      have htake : (r.plain A key bufferLength ++ tail).take first.length = first := by
        rw [htail, List.take_left]
      rwa [List.take_append_of_le_length hlength] at htake
    have hsplit : r.plain A key bufferLength = first ++ r'.plain A key bufferLength := by
      rw [hplain]
      conv_lhs => rw [← List.take_append_drop first.length (r.plain A key bufferLength), hfirst]
    rw [hfirst] at hread
    refine ⟨r', hread, ?_, ?_⟩
    · rw [hsplit] at h
      exact (List.prefix_append_right_inj first).mp h
    · rw [hsplit, List.append_cancel_left_eq]
  · right
    refine ⟨herror (by omega), ?_⟩
    intro heq
    rw [heq, List.length_append] at hlength
    omega

section Loop
variable {r r₁ r₂ : Reader} {lengthBytes bytes : Bytes} {e : IoErrorKind} {db : Db} {count : ℕ}

theorem importRecords_error (h : r.read A key bufferLength 4 = .error e) :
    importRecords C keys S A codec random key bufferLength r db count =
      (.error (.err (mapIoErr e)), db) := by
  unfold importRecords
  rw [h]

theorem importRecords_end (h : r.read A key bufferLength 4 = .ok (lengthBytes, r₁))
    (hend : ofLe lengthBytes = 0) :
    importRecords C keys S A codec random key bufferLength r db count = (.ok (), db) := by
  unfold importRecords
  rw [h]
  exact if_pos hend

theorem importRecords_short (h : r.read A key bufferLength 4 = .ok (lengthBytes, r₁))
    (hend : ofLe lengthBytes ≠ 0)
    (hread : r₁.read A key bufferLength (ofLe lengthBytes) = .error e) :
    importRecords C keys S A codec random key bufferLength r db count =
      (.error (.err (mapIoErr e)), db) := by
  unfold importRecords
  rw [h]
  refine (if_neg hend).trans ?_
  rw [hread]

theorem importRecords_step (h : r.read A key bufferLength 4 = .ok (lengthBytes, r₁))
    (hend : ofLe lengthBytes ≠ 0)
    (hread : r₁.read A key bufferLength (ofLe lengthBytes) = .ok (bytes, r₂)) :
    importRecords C keys S A codec random key bufferLength r db count =
      match codec.decodeRecord bytes with
      | none => (errMsg .invalidStructure "Record is malformed msgpack", db)
      | some record => match addRecord C keys S (random count) record db with
        | (.ok _, db) => importRecords C keys S A codec random key bufferLength r₂ db (count + 1)
        | (.error fault, db) => (.error fault, db) := by
  rw [importRecords, h]
  refine (if_neg hend).trans ?_
  rewrite [hread]
  rfl

end Loop

/-- The loop reads all of a stream and adds its records, or fails on a part of it. -/
theorem importRecords_prefix {records : List Bytes}
    (hrecords : ∀ bytes ∈ records, bytes ≠ [] ∧ bytes.length < 2 ^ 32)
    {r : Reader} (h : r.plain A key bufferLength <+: frames records) (db : Db) (count : ℕ) :
    (r.plain A key bufferLength = frames records →
      importRecords C keys S A codec random key bufferLength r db count =
      addEncoded C keys S codec random records db count) ∧
    (r.plain A key bufferLength ≠ frames records →
      ∃ fault db', importRecords C keys S A codec random key bufferLength r db count =
        (.error fault, db')) := by
  induction records generalizing r db count with
  | nil =>
    have hnil : frames [] = toLe 4 0 ++ [] := by simp [frames]
    rw [hnil] at h ⊢
    rcases Reader.read_prefix h with ⟨r', hread, hrest, hiff⟩ | ⟨⟨e, hread⟩, hne⟩
    · rw [length_toLe] at hread
      have hall : r.plain A key bufferLength = toLe 4 0 ++ [] := hiff.mp (List.prefix_nil.mp hrest)
      exact ⟨fun _ => importRecords_end hread rfl, fun hne => absurd hall hne⟩
    · rw [length_toLe] at hread
      exact ⟨fun heq => absurd heq hne, fun _ => ⟨_, db, importRecords_error hread⟩⟩
  | cons bytes records ih =>
    obtain ⟨⟨hbytes, hlength⟩, hrest⟩ := List.forall_mem_cons.mp hrecords
    have hcount : ofLe (toLe 4 bytes.length) = bytes.length := ofLe_toLe_of_lt (by norm_num; omega)
    have hend : ofLe (toLe 4 bytes.length) ≠ 0 := by
      rw [hcount]
      exact Nat.ne_of_gt (List.length_pos_of_ne_nil hbytes)
    rw [frames_cons] at h ⊢
    rcases Reader.read_prefix h with ⟨r₁, hread, h₁, hiff₁⟩ | ⟨⟨e, hread⟩, hne⟩
    · rw [length_toLe] at hread
      rcases Reader.read_prefix h₁ with ⟨r₂, hread₂, h₂, hiff₂⟩ | ⟨⟨e, hread₂⟩, hne⟩
      · rw [← hcount] at hread₂
        rw [importRecords_step hread hend hread₂, addEncoded, Ne, ← hiff₂.trans hiff₁]
        cases hdecode : codec.decodeRecord bytes with
        | none => exact ⟨fun _ => rfl, fun _ => ⟨_, db, rfl⟩⟩
        | some record =>
          cases hadd : addRecord C keys S (random count) record db with
          | mk result db' =>
            cases result with
            | error fault =>
              refine ⟨fun _ => ?_, fun _ => ⟨fault, db', ?_⟩⟩
              · simp only [hadd]
              · simp only [hadd]
            | ok u =>
              simp only [hadd]
              exact ih hrest h₂ db' (count + 1)
      · rw [← hcount] at hread₂
        refine ⟨fun heq => absurd (hiff₁.mpr heq) hne, fun _ =>
          ⟨_, db, importRecords_short hread hend hread₂⟩⟩
    · rw [length_toLe] at hread
      exact ⟨fun heq => absurd heq hne, fun _ => ⟨_, db, importRecords_error hread⟩⟩

theorem newChunkBuffer_ok (build : Build) {n : ℕ} (h : n + tagBytes < 2 ^ 63) :
    newChunkBuffer build n = .ok (n + tagBytes) := by
  rw [newChunkBuffer, addU64.eq_def, if_pos (by omega), except_ok_bind, if_pos h]
  rfl

variable (C keys S build random) in
/-- An import reads all of a stream and adds its records, or fails on a part of it. -/
theorem finishImport_prefix {records : List Bytes}
    (hrecords : ∀ bytes ∈ records, bytes ≠ [] ∧ bytes.length < 2 ^ 32)
    {header body : Bytes} {nonce : Nonce} {n : ℕ} (hn : n + tagBytes < 2 ^ 63)
    (h : plainOf A key (n + tagBytes) nonce body <+: streamOf codec header records) (db : Db) :
    (plainOf A key (n + tagBytes) nonce body = streamOf codec header records →
      finishImport C keys S build A codec random key body nonce n header db =
        addEncoded C keys S codec random records db 0) ∧
    (plainOf A key (n + tagBytes) nonce body ≠ streamOf codec header records →
      ∃ fault db', finishImport C keys S build A codec random key body nonce n header db =
        (.error fault, db')) := by
  have hhash := codec.length_hash header
  rw [finishImport, newChunkBuffer_ok build hn]
  rw [streamOf] at h ⊢
  -- the reader starts with an empty rest buffer
  change Reader.plain A key (n + tagBytes) ⟨[], nonce, body⟩ <+: _ at h
  change (Reader.plain A key (n + tagBytes) ⟨[], nonce, body⟩ = _ → _) ∧
    (Reader.plain A key (n + tagBytes) ⟨[], nonce, body⟩ ≠ _ → _)
  rcases Reader.read_prefix h with ⟨r, hread, hrest, hiff⟩ | ⟨⟨e, hread⟩, hne⟩
  · rw [hhash] at hread
    obtain ⟨hok, herror⟩ := importRecords_prefix (C := C) (S := S) hrecords hrest db 0
    rw [Ne, ← hiff]
    simp only [hread, ne_eq, not_true_eq_false, if_false]
    exact ⟨hok, herror⟩
  · rw [hhash] at hread
    simp only [hread]
    exact ⟨fun heq => absurd heq hne, fun _ => ⟨_, db, rfl⟩⟩

end Import

section Contents
variable {C : Cipher} {keys : Keys} {S : Sqlite} {codec : Codec} {random : ℕ → ValueRandom}

/-- Adding encoded records with new keys adds their entries. -/
theorem addEncoded_stores {records : List Record} {db : Db} {m : RecordMap} (h : Stores C keys db m)
    (horphans : NoOrphans db) (hnodup : (records.map Record.entry).NodupKeys)
    (hnew : ∀ record ∈ records, m.lookup record.entry.1 = none) (count : ℕ) :
    ∃ db' m', addEncoded C keys S codec random
      (records.map codec.encodeRecord) db count = (.ok (), db') ∧
      Stores C keys db' m' ∧ m'.entries = (records.map Record.entry : Multiset _) + m.entries := by
  induction records generalizing db m count with
  | nil => exact ⟨db, m, rfl, h, by simp⟩
  | cons record records ih =>
    rw [List.map_cons, List.nodupKeys_cons] at hnodup
    obtain ⟨decoded, hdecode, hentry⟩ := codec.decode_encodeRecord record
    have hkey : m.lookup (decoded.type, decoded.id) = none := by
      have hlookup := hnew record List.mem_cons_self
      rw [← hentry] at hlookup
      exact hlookup
    have hfree : ∀ slot, db.tag (S.nextRowid db.items.keys) slot = none :=
      horphans _ (S.fresh db.items.keys)
    obtain ⟨db₁, hadd, hstores, hclean⟩ :=
      add_none h hkey hfree decoded.value decoded.tags (random count)
    change Stores C keys db₁ (m.insert decoded.entry.1 decoded.entry.2) at hstores
    have hentries : (m.insert decoded.entry.1 decoded.entry.2).entries =
        decoded.entry ::ₘ m.entries :=
      Finmap.entries_insert_of_notMem (Finmap.lookup_eq_none.mp hkey)
    have hnew₁ : ∀ r ∈ records,
        (m.insert decoded.entry.1 decoded.entry.2).lookup r.entry.1 = none := by
      intro r hr
      have hne : r.entry.1 ≠ decoded.entry.1 := by
        rw [hentry]
        intro heq
        apply hnodup.1
        rw [← heq, List.keys]
        exact List.mem_map_of_mem (List.mem_map_of_mem hr)
      rw [Finmap.lookup_insert_of_ne _ hne]
      exact hnew r (List.mem_cons_of_mem _ hr)
    obtain ⟨db', m', hrest, hstores', hentries'⟩ :=
      ih hstores (hclean horphans) hnodup.2 hnew₁ (count + 1)
    refine ⟨db', m', ?_, hstores', ?_⟩
    · rw [List.map_cons, addEncoded, hdecode]
      simp only [addRecord, hadd]
      exact hrest
    · rw [hentries', hentries, hentry, List.map_cons, ← Multiset.cons_coe, Multiset.cons_add,
        Multiset.add_cons]

/-- The records of a map, added to a new wallet, make it store that map. -/
theorem addEncoded_newWallet {records : List Record} {m : RecordMap}
    (h : m.entries = (records.map Record.entry : Multiset ((_ : String × String) × Entry))) :
    ∃ db', addEncoded C keys S codec random (records.map codec.encodeRecord)
      (newWallet S).db 0 = (.ok (), db') ∧
      Stores C keys db' m := by
  have hnodup : (records.map Record.entry).NodupKeys := by
    have hkeys := m.nodupKeys
    rw [h] at hkeys
    exact Multiset.coe_nodupKeys.mp hkeys
  obtain ⟨db', m', hadd, hstores, hentries⟩ :=
    addEncoded_stores stores_empty noOrphans_empty hnodup (fun _ _ => Finmap.lookup_empty _) 0
  have hm : m' = m := by
    apply Finmap.ext
    rw [hentries, h]
    exact add_zero _
  exact ⟨db', hadd, hm ▸ hstores⟩

end Contents

section Header
variable (codec : Codec) (keyData : KeyDerivationData) (nonce : Nonce) (chunkSize : ChunkSize)
    (time : UInt64)
  (version : UInt32)

/-- The header of an export. -/
def exportHeader : Bytes :=
  codec.encodeHeader ⟨encryptionMethodOf keyData nonce chunkSize.1, time, version⟩

variable {keyData nonce chunkSize}

/-- The salt that a key was derived with has the length of its type. -/
def KeyDerivationData.Sized : KeyDerivationData → Prop
  | .raw _ => True
  | .argon2iMod _ salt | .argon2iInt _ salt => salt.length = saltBytes

theorem sized_encryptionMethodOf (h : keyData.Sized) {n : ℕ} (hn : n < 2 ^ 64) :
    (encryptionMethodOf keyData nonce n).Sized := by
  cases keyData with
  | raw passphrase => exact ⟨nonce.2, hn⟩
  | argon2iMod passphrase salt => exact ⟨h, nonce.2, hn⟩
  | argon2iInt passphrase salt => exact ⟨h, nonce.2, hn⟩

theorem keyDataOf_encryptionMethodOf (h : keyData.Sized) (passphrase : String) (n : ℕ) :
    ∃ keyData', keyDataOf passphrase (encryptionMethodOf keyData nonce n) = .ok
      (keyData', nonce, n) := by
  have hnonce : nonceFromSlice nonce.1 = .ok nonce := dif_pos nonce.2
  cases keyData with
  | raw p => exact ⟨_, by rw [encryptionMethodOf, keyDataOf, hnonce]; rfl⟩
  | argon2iMod p salt =>
    have hsalt : saltFromSlice salt = .ok salt := if_pos h
    exact ⟨_, by rw [encryptionMethodOf, keyDataOf, hsalt, except_ok_bind, hnonce]; rfl⟩
  | argon2iInt p salt =>
    have hsalt : saltFromSlice salt = .ok salt := if_pos h
    exact ⟨_, by rw [encryptionMethodOf, keyDataOf, hsalt, except_ok_bind, hnonce]; rfl⟩

theorem readExact_append (first rest : Bytes) :
    readExact (first ++ rest) first.length = .ok (first, rest) := by
  rw [readExact, if_pos (by simp), List.take_left, List.drop_left]

theorem readExact_short {bytes : Bytes} {count : ℕ} (h : bytes.length < count) :
    readExact bytes count = .error (mapIoErr .unexpectedEof) := if_neg (by omega)

/-- Behind the plain header of an export stands its body, with the nonce and the chunk size of the
header. -/
theorem preparse_plainHeader (h : keyData.Sized) (hsize : chunkSize.1 < 2 ^ 64)
    (passphrase : String) (body : Bytes) :
    let header := exportHeader codec keyData nonce chunkSize time version
    (∃ e, preparseFileToImport codec (plainHeader header ++ body) passphrase = .error e) ∨
    ∃ keyData', preparseFileToImport codec (plainHeader header ++ body) passphrase =
      .ok ⟨body, keyData', nonce, chunkSize.1, header⟩ := by
  intro header
  have hlength : header.length < 2 ^ 32 :=
    codec.length_encodeHeader _ (sized_encryptionMethodOf h hsize)
  have hofLe : ofLe (toLe 4 header.length) = header.length := ofLe_toLe_of_lt (by norm_num; omega)
  have hne : header.length ≠ 0 :=
    Nat.ne_of_gt (List.length_pos_of_ne_nil (codec.encodeHeader_ne_nil _))
  have hfirst : readExact (plainHeader header ++ body) 4 = .ok
      (toLe 4 header.length, header ++ body) := by
    rw [plainHeader, List.append_assoc]
    exact readExact_append (toLe 4 header.length) (header ++ body)
  have hdecode : codec.decodeHeader header = some
      ⟨encryptionMethodOf keyData nonce chunkSize.1, time, version⟩ :=
    codec.decode_encodeHeader _ (sized_encryptionMethodOf h hsize)
  obtain ⟨keyData', hkeyData⟩ : ∃ keyData',
      keyDataOf passphrase (encryptionMethodOf keyData nonce chunkSize.1) =
    .ok (keyData', nonce, chunkSize.1) := keyDataOf_encryptionMethodOf h passphrase chunkSize.1
  unfold preparseFileToImport
  simp only [hfirst, except_ok_bind, hofLe, hne, if_false, readExact_append, hdecode]
  by_cases hversion : version = 0
  · right
    refine ⟨keyData', ?_⟩
    simp only [hversion, ne_eq, not_true_eq_false, if_false, hkeyData, except_ok_bind]
    rfl
  · left
    simp only [ne_eq, hversion, not_false_eq_true, if_true]
    exact ⟨_, rfl⟩

/-- A file that ends within the plain header is refused. -/
theorem preparse_short (h : keyData.Sized) (hsize : chunkSize.1 < 2 ^ 64) (passphrase : String)
    {file : Bytes} :
    let header := exportHeader codec keyData nonce chunkSize time version
    file <+: plainHeader header → file ≠ plainHeader header →
      ∃ e, preparseFileToImport codec file passphrase = .error e := by
  intro header hbegins hne
  have hlength : header.length < 2 ^ 32 :=
    codec.length_encodeHeader _ (sized_encryptionMethodOf h hsize)
  have hofLe : ofLe (toLe 4 header.length) = header.length := ofLe_toLe_of_lt (by norm_num; omega)
  have hshort : file.length < 4 + header.length := by
    have hlt := lt_of_le_of_ne hbegins.length_le fun heq => hne (hbegins.eq_of_length heq)
    rwa [plainHeader, List.length_append, length_toLe] at hlt
  have hheader : header.length ≠ 0 :=
    Nat.ne_of_gt (List.length_pos_of_ne_nil (codec.encodeHeader_ne_nil _))
  unfold preparseFileToImport
  by_cases hfour : 4 ≤ file.length
  · have htake : file.take 4 = toLe 4 header.length := by
      obtain ⟨tail, htail⟩ := hbegins
      have hfirst : (file ++ tail).take 4 = toLe 4 header.length := by
        rw [htail, plainHeader]
        exact List.take_left' (length_toLe 4 _)
      rwa [List.take_append_of_le_length hfour] at hfirst
    have hrest : (file.drop 4).length < header.length := by
      rw [List.length_drop]
      omega
    have hfirst : readExact file 4 = .ok (toLe 4 header.length, file.drop 4) := by
      rw [readExact, if_pos hfour, htake]
    simp only [hfirst, except_ok_bind, hofLe, hheader, if_false, readExact_short hrest]
    exact ⟨_, rfl⟩
  · rw [readExact_short (by omega)]
    exact ⟨_, rfl⟩

end Header

section Main
variable (C : Cipher) (keys : Keys) (codec : Codec) (chunkSize : ChunkSize)

def Fails (r : Outcome Unit × Db) : Prop := ∃ fault db', r = (.error fault, db')

/-- The import succeeds and the wallet then holds the records of `m`. -/
def Imports (m : RecordMap) (r : Outcome Unit × Db) : Prop :=
  ∃ db', r = (.ok (), db') ∧ Stores C keys db' m

/-- The chunks that are encrypted for an export. -/
def exportChunks (header : Bytes) (records : List Record) : List Bytes :=
  cut chunkSize.1 (streamOf codec header (records.map codec.encodeRecord))

/-- The records are those of the map, and each is encoded in less than `2^32` bytes. -/
structure Exportable (m : RecordMap) (records : List Record) : Prop where
  entries : m.entries = (records.map Record.entry : Multiset ((_ : String × String) × Entry))
  sized : ∀ record ∈ records, (codec.encodeRecord record).length < 2 ^ 32

variable {C keys codec chunkSize} {S : Sqlite} {build : Build} {A : Aead}
    {random : ℕ → ValueRandom} {key : Key}
  {keyData : KeyDerivationData} {nonce : Nonce} {time : UInt64} {version : UInt32} {m : RecordMap}
  {records : List Record} {header : Bytes}

theorem Exportable.encoded (h : Exportable codec m records) :
    ∀ bytes ∈ records.map codec.encodeRecord, bytes ≠ [] ∧ bytes.length < 2 ^ 32 := by
  intro bytes hbytes
  obtain ⟨record, hrecord, rfl⟩ := List.mem_map.mp hbytes
  exact ⟨codec.encodeRecord_ne_nil record, h.sized record hrecord⟩

variable (codec) in
theorem streamOf_ne_nil (header : Bytes) (bs : List Bytes) : streamOf codec header bs ≠ [] := by
  intro h
  have hlength := congrArg List.length h
  rw [streamOf, List.length_append, codec.length_hash, hashBytes] at hlength
  simp at hlength

/-- What was exported is imported. -/
theorem finishImport_export (hm : Exportable codec m records)
    (hsize : chunkSize.1 + tagBytes < 2 ^ 63)
    (h : Opens A key nonce (exportChunks codec chunkSize header records)) :
    Imports C keys m (finishImport C keys S build A codec random key
      (sealChunks A key nonce (exportChunks codec chunkSize header records)) nonce chunkSize.1
        header (newWallet S).db) := by
  have hplain := plainOf_sealChunks h
  have hbegins := List.prefix_refl (streamOf codec header (records.map codec.encodeRecord))
  nth_rewrite 1 [← hplain] at hbegins
  obtain ⟨hok, -⟩ :=
    finishImport_prefix C keys S build random hm.encoded hsize hbegins (newWallet S).db
  obtain ⟨db', hadd, hstores⟩ := addEncoded_newWallet (C := C) (S := S) hm.entries
  exact ⟨db', (hok hplain).trans hadd, hstores⟩

/-- Any body behind the header of an export fails, or begins with the body of the export and brings
its records. -/
theorem finishImport_ideal (hm : Exportable codec m records)
    (hsize : chunkSize.1 + tagBytes < 2 ^ 63)
    (h : Ideal A key nonce (exportChunks codec chunkSize header records))
    (hcount : (exportChunks codec chunkSize header records).length < 2 ^ 96) (k : Key)
    (body : Bytes) :
    let r :=
  finishImport C keys S build A codec random k body nonce chunkSize.1 header (newWallet S).db
    Fails r ∨ Imports C keys m r ∧
    sealChunks A key nonce (exportChunks codec chunkSize header records) <+: body := by
  obtain ⟨hbegins, hall⟩ :=
    plainOf_of_ideal (chunkSize.1 + tagBytes) (streamOf_ne_nil codec _ _) h hcount k body
  obtain ⟨hok, herror⟩ :=
    finishImport_prefix C keys S build random hm.encoded hsize hbegins (newWallet S).db
  by_cases heq : plainOf A k (chunkSize.1 + tagBytes) nonce body = streamOf codec header
    (records.map codec.encodeRecord)
  · right
    obtain ⟨db', hadd, hstores⟩ := addEncoded_newWallet (C := C) (S := S) hm.entries
    exact ⟨⟨db', (hok heq).trans hadd, hstores⟩, hall heq⟩
  · exact Or.inl (herror heq)

/-- The same for a whole file with the header of the export, whatever key is derived for it. -/
theorem importFile_ideal (hm : Exportable codec m records) (hsize : chunkSize.1 + tagBytes < 2 ^ 63)
    (hsalt : keyData.Sized)
    (hheader : header = exportHeader codec keyData nonce chunkSize time version)
    (h : Ideal A key nonce (exportChunks codec chunkSize header records))
    (hcount : (exportChunks codec chunkSize header records).length < 2 ^ 96)
    (calcMasterKey : KeyDerivationData → IndyResult Key) (passphrase : String) (body : Bytes) :
    let r := importFile C keys S build A codec random calcMasterKey
      (plainHeader header ++ body) passphrase (newWallet S).db
    Fails r ∨ Imports C keys m r ∧
    sealChunks A key nonce (exportChunks codec chunkSize header records) <+: body := by
  subst hheader
  have hsize' : chunkSize.1 < 2 ^ 64 := by omega
  unfold importFile
  rcases preparse_plainHeader codec time version hsalt hsize' passphrase body
    with ⟨e, he⟩ | ⟨keyData', hok⟩
  · rw [he]
    exact Or.inl ⟨_, _, rfl⟩
  · rw [hok]
    cases hkey : calcMasterKey keyData' with
    | error e =>
      simp only [hkey]
      exact Or.inl ⟨_, _, rfl⟩
    | ok k =>
      simp only [hkey]
      exact finishImport_ideal hm hsize h hcount k body

/-- An export that is cut off anywhere fails. -/
theorem importFile_cut (hm : Exportable codec m records) (hsize : chunkSize.1 + tagBytes < 2 ^ 63)
    (hsalt : keyData.Sized)
    (hheader : header = exportHeader codec keyData nonce chunkSize time version)
    (h : Ideal A key nonce (exportChunks codec chunkSize header records))
    (hcount : (exportChunks codec chunkSize header records).length < 2 ^ 96)
    (calcMasterKey : KeyDerivationData → IndyResult Key) (passphrase : String) {file : Bytes}
    (hfile : file <+: plainHeader header ++
      sealChunks A key nonce (exportChunks codec chunkSize header records))
    (hne : file ≠ plainHeader header ++
      sealChunks A key nonce (exportChunks codec chunkSize header records)) :
    Fails (importFile C keys S build A codec random calcMasterKey file passphrase
      (newWallet S).db) := by
  have hshort : ∀ f, f <+: plainHeader header → f ≠ plainHeader header →
      Fails (importFile C keys S build A codec random calcMasterKey f passphrase
        (newWallet S).db) := by
    intro f hf hfne
    subst hheader
    have hsize' : chunkSize.1 < 2 ^ 64 := by omega
    obtain ⟨e, he⟩ := preparse_short codec time version hsalt hsize' passphrase hf hfne
    rw [importFile, he]
    exact ⟨_, _, rfl⟩
  by_cases hplain : file <+: plainHeader header ∧ file ≠ plainHeader header
  · exact hshort file hplain.1 hplain.2
  · have hbegin : plainHeader header <+: file := by
      rcases List.prefix_or_prefix_of_prefix hfile (List.prefix_append _ _) with hf | hf
      · rw [not_and_not_right] at hplain
        rw [hplain hf]
      · exact hf
    obtain ⟨body, rfl⟩ := hbegin
    rcases importFile_ideal hm hsize hsalt hheader h hcount calcMasterKey passphrase body
      with hfails | ⟨-, hbody⟩
    · exact hfails
    · have hbody' := (List.prefix_append_right_inj _).mp hfile
      have heq := hbody.eq_of_length_le hbody'.length_le
      exact absurd (by rw [heq]) hne

/-- Export and import: the records come back, and a file with the header of the export either fails
or brings the same records; an export that is cut off fails. -/
theorem export_import_roundtrip (C C' : Cipher) (keys keys' : Keys) (S : Sqlite) (build : Build)
    (codec : Codec)
    (random : ℕ → ValueRandom) (keyData : KeyDerivationData) (nonce : Nonce) (chunkSize : ChunkSize)
    (time : UInt64) (version : UInt32) (db : Db) (m : RecordMap) (hstores : Stores C keys db m)
    (hrecords : ∀ record : Record, record.entry ∈ m.entries →
      (codec.encodeRecord record).length < 2 ^ 32)
    (hsize : chunkSize.1 + tagBytes < 2 ^ 63) (hsalt : keyData.Sized) :
    let header := exportHeader codec keyData nonce chunkSize time version
    ∃ records, m.entries = (records.map Record.entry : Multiset ((_ : String × String) × Entry)) ∧
      let chunks := exportChunks codec chunkSize header records
      ∀ (A : Aead) (key : Key),
      let body := sealChunks A key nonce chunks
      exportContinue C keys A codec db version key keyData nonce chunkSize time = .ok
        (plainHeader header ++ body) ∧
      (Opens A key nonce chunks → Imports C' keys' m
        (finishImport C' keys' S build A codec random key body nonce chunkSize.1 header
          (newWallet S).db)) ∧
      (Ideal A key nonce chunks → chunks.length < 2 ^ 96 →
        (∀ k body', Fails (finishImport C' keys' S build A codec random k body' nonce chunkSize.1
          header (newWallet S).db) ∨
          Imports C' keys' m
            (finishImport C' keys' S build A codec random k body' nonce chunkSize.1 header
              (newWallet S).db)) ∧
        ∀ calcMasterKey passphrase,
          (∀ body', Fails
            (importFile C' keys' S build A codec random calcMasterKey (plainHeader header ++ body')
              passphrase (newWallet S).db) ∨
            Imports C' keys' m (importFile C' keys' S build A codec random calcMasterKey
              (plainHeader header ++ body') passphrase (newWallet S).db)) ∧
          ∀ file, file <+: plainHeader header ++ body → file ≠ plainHeader header ++ body →
            Fails (importFile C' keys' S build A codec random calcMasterKey file passphrase
              (newWallet S).db)) := by
  intro header
  obtain ⟨rs, records, hall, hforall, hentries⟩ := hstores.getAll_eq
  have hm : Exportable codec m records := by
    refine ⟨hentries, fun record hrecord => hrecords record ?_⟩
    rw [hentries, Multiset.mem_coe]
    exact List.mem_map_of_mem hrecord
  refine ⟨records, hentries, fun A key =>
    ⟨exportContinue_eq hall hforall version keyData nonce time, finishImport_export hm hsize, ?_⟩⟩
  intro hideal hcount
  refine ⟨fun k body' => (finishImport_ideal hm hsize hideal hcount k body').imp_right And.left, ?_⟩
  intro calcMasterKey passphrase
  constructor
  · intro body'
    exact (importFile_ideal hm hsize hsalt rfl hideal hcount calcMasterKey passphrase
      body').imp_right And.left
  · intro file hfile hne
    exact importFile_cut hm hsize hsalt rfl hideal hcount calcMasterKey passphrase hfile hne

end Main

section Samples

/-- A cipher whose tag is sixteen zeros. -/
def plainAead : Aead where
  encrypt data _ _ := data ++ List.replicate tagBytes 0
  decrypt bytes _ _ :=
    if tagBytes ≤ bytes.length then .ok (bytes.take (bytes.length - tagBytes))
    else .error ⟨.invalidStructure, "Unable to open sodium chacha20poly1305_ietf"⟩
  length_encrypt _ _ _ := by rw [List.length_append, List.length_replicate]
  length_decrypt bytes _ _ data h := by
    split_ifs at h with hlength
    obtain rfl := Except.ok.inj h
    rw [List.length_take]
    omega

theorem opens_plainAead (key : Key) (nonce : Nonce) (chunks : List Bytes) :
    Opens plainAead key nonce chunks := by
  intro i chunk _
  simp [plainAead]

/-- Bytes one by one, and a zero at their end. -/
def encodeToken : Bytes → Bytes
  | [] => [0]
  | b :: bs => 1 :: b :: encodeToken bs

def encodeTokens (tokens : List Bytes) : Bytes := tokens.flatMap encodeToken

def decodeTokens : Bytes → Bytes → List Bytes
  | 0 :: rest, token => token :: decodeTokens rest []
  | 1 :: b :: rest, token => decodeTokens rest (token ++ [b])
  | _, _ => []

theorem decodeTokens_encodeToken (token rest acc : Bytes) :
    decodeTokens (encodeToken token ++ rest) acc = (acc ++ token) :: decodeTokens rest [] := by
  induction token generalizing acc with
  | nil => simp [encodeToken, decodeTokens]
  | cons b bs ih => simp [encodeToken, decodeTokens, ih]

theorem decodeTokens_encodeTokens (tokens : List Bytes) :
    decodeTokens (encodeTokens tokens) [] = tokens := by
  induction tokens with
  | nil => rfl
  | cons token tokens ih =>
    rw [encodeTokens, List.flatMap_cons, decodeTokens_encodeToken, ← encodeTokens, ih,
      List.nil_append]

theorem length_encodeToken (token : Bytes) : (encodeToken token).length = 2 * token.length + 1 := by
  induction token with
  | nil => rfl
  | cons b bs ih =>
    rw [encodeToken, List.length_cons, List.length_cons, List.length_cons, ih]
    omega

theorem length_encodeTokens (tokens : List Bytes) :
    (encodeTokens tokens).length = (tokens.map fun token => 2 * token.length + 1).sum := by
  simp [encodeTokens, List.length_flatMap, length_encodeToken]

theorem encodeTokens_ne_nil {tokens : List Bytes} (h : tokens ≠ []) : encodeTokens tokens ≠ [] := by
  cases tokens with
  | nil => exact absurd rfl h
  | cons token tokens =>
    apply List.ne_nil_of_length_pos
    rw [length_encodeTokens, List.map_cons, List.sum_cons]
    omega

def headerTokens (header : Header) : List Bytes :=
  let tail := [toLe 8 header.time.toNat, toLe 4 header.version.toNat]
  match header.encryptionMethod with
  | .chaCha20Poly1305IETF salt nonce chunkSize => [0] :: salt :: nonce :: toLe 8 chunkSize :: tail
  | .chaCha20Poly1305IETFInteractive salt nonce chunkSize =>
    [1] :: salt :: nonce :: toLe 8 chunkSize :: tail
  | .chaCha20Poly1305IETFRaw nonce chunkSize => [2] :: nonce :: toLe 8 chunkSize :: tail

def headerOfTokens : List Bytes → Option Header
  | [[0], salt, nonce, chunkSize, time, version] =>
    some ⟨.chaCha20Poly1305IETF salt nonce (ofLe chunkSize), .ofNat (ofLe time),
      .ofNat (ofLe version)⟩
  | [[1], salt, nonce, chunkSize, time, version] =>
    some ⟨.chaCha20Poly1305IETFInteractive salt nonce (ofLe chunkSize), .ofNat (ofLe time),
      .ofNat (ofLe version)⟩
  | [[2], nonce, chunkSize, time, version] =>
    some ⟨.chaCha20Poly1305IETFRaw nonce (ofLe chunkSize), .ofNat (ofLe time),
      .ofNat (ofLe version)⟩
  | _ => none

theorem headerOfTokens_headerTokens {header : Header} (h : header.encryptionMethod.Sized) :
    headerOfTokens (headerTokens header) = some header := by
  obtain ⟨method, time, version⟩ := header
  have htime : UInt64.ofNat (ofLe (toLe 8 time.toNat)) = time := by
    rw [ofLe_toLe_of_lt (by simpa using time.toNat_lt), UInt64.ofNat_toNat]
  have hversion : UInt32.ofNat (ofLe (toLe 4 version.toNat)) = version := by
    rw [ofLe_toLe_of_lt (by simpa using version.toNat_lt), UInt32.ofNat_toNat]
  have hsize : ∀ n, n < 2 ^ 64 → ofLe (toLe 8 n) = n :=
    fun n hn => ofLe_toLe_of_lt (by norm_num; omega)
  cases method with
  | chaCha20Poly1305IETF salt nonce chunkSize =>
    simp only [headerTokens, headerOfTokens, htime, hversion, hsize _ h.2.2]
  | chaCha20Poly1305IETFInteractive salt nonce chunkSize =>
    simp only [headerTokens, headerOfTokens, htime, hversion, hsize _ h.2.2]
  | chaCha20Poly1305IETFRaw nonce chunkSize =>
    simp only [headerTokens, headerOfTokens, htime, hversion, hsize _ h.2]

def recordTokens (record : Record) : List Bytes :=
  asBytes record.type :: asBytes record.id :: asBytes record.value ::
    record.tags.entries.flatMap fun e => [asBytes e.1, asBytes e.2]

def tagsOfTokens : List Bytes → Option (List ((_ : String) × String))
  | name :: value :: rest => do
    let name ← fromUtf8 name
    let value ← fromUtf8 value
    let tags ← tagsOfTokens rest
    pure (⟨name, value⟩ :: tags)
  | _ => some []

def recordOfTokens : List Bytes → Option Record
  | type :: id :: value :: tags => do
    let type ← fromUtf8 type
    let id ← fromUtf8 id
    let value ← fromUtf8 value
    let tags ← tagsOfTokens tags
    pure ⟨type, id, value, tags.toAList⟩
  | _ => none

theorem recordOfTokens_recordTokens (record : Record) :
    recordOfTokens (recordTokens record) =
      some ⟨record.type, record.id, record.value, record.tags.entries.toAList⟩ := by
  have htags : ∀ l : List ((_ : String) × String),
      tagsOfTokens (l.flatMap fun e => [asBytes e.1, asBytes e.2]) = some l := by
    intro l
    induction l with
    | nil => rfl
    | cons e l ih => simp [tagsOfTokens, ih]
  simp [recordTokens, recordOfTokens, htags]

theorem toFinmap_toAList (tags : Table String String) :
    tags.entries.toAList.toFinmap = tags.toFinmap :=
  Finmap.ext_lookup fun name => List.dlookup_dedupKeys name tags.entries

/-- Tokens for all parts of a header and of a record. -/
def tokenCodec : Codec where
  encodeHeader header := encodeTokens (headerTokens header)
  decodeHeader bytes := headerOfTokens (decodeTokens bytes [])
  encodeRecord record := encodeTokens (recordTokens record)
  decodeRecord bytes := recordOfTokens (decodeTokens bytes [])
  hash _ := List.replicate hashBytes 0
  decode_encodeHeader header h := by rw [decodeTokens_encodeTokens, headerOfTokens_headerTokens h]
  encodeHeader_ne_nil header := by
    apply encodeTokens_ne_nil
    unfold headerTokens
    split <;> simp
  length_encodeHeader header h := by
    obtain ⟨method, time, version⟩ := header
    rw [length_encodeTokens]
    cases method with
    | chaCha20Poly1305IETF salt nonce chunkSize =>
      obtain ⟨hsalt, hnonce, -⟩ := h
      simp [headerTokens, hsalt, hnonce, saltBytes]
    | chaCha20Poly1305IETFInteractive salt nonce chunkSize =>
      obtain ⟨hsalt, hnonce, -⟩ := h
      simp [headerTokens, hsalt, hnonce, saltBytes]
    | chaCha20Poly1305IETFRaw nonce chunkSize =>
      obtain ⟨hnonce, -⟩ := h
      simp [headerTokens, hnonce]
  decode_encodeRecord record :=
    ⟨_, by rw [decodeTokens_encodeTokens, recordOfTokens_recordTokens], by
    rw [Record.entry, Record.entry, toFinmap_toAList]⟩
  encodeRecord_ne_nil record := encodeTokens_ne_nil (List.cons_ne_nil _ _)
  length_hash _ := List.length_replicate

def firstRecord : Record := ⟨"t", "i", "v", AList.singleton "a" "1"⟩

def secondRecord : Record := ⟨"t", "j", "w", AList.singleton "~b" "2"⟩

def sampleMap : RecordMap :=
  ((∅ : RecordMap).insert ("t", "i") firstRecord.entry.2).insert ("t", "j") secondRecord.entry.2

theorem entries_sampleMap : sampleMap.entries = {secondRecord.entry, firstRecord.entry} := by
  have hfirst : ("t", "i") ∉ (∅ : RecordMap) := Finmap.notMem_empty
  have hsecond : ("t", "j") ∉ (∅ : RecordMap).insert ("t", "i") firstRecord.entry.2 := by
    simp [Finmap.mem_insert, Finmap.notMem_empty]
  rw [sampleMap, Finmap.entries_insert_of_notMem hsecond, Finmap.entries_insert_of_notMem hfirst]
  rfl

theorem eq_of_entry_eq {record : Record} {type id value name tag : String}
    (h : record.entry = Record.entry ⟨type, id, value, AList.singleton name tag⟩) :
    record = ⟨type, id, value, AList.singleton name tag⟩ := by
  obtain ⟨type', id', value', tags⟩ := record
  simp only [Record.entry, Sigma.mk.injEq, Prod.mk.injEq, heq_eq_eq, Entry.mk.injEq] at h
  obtain ⟨⟨rfl, rfl⟩, rfl, htags⟩ := h
  have hentries : tags.entries = (AList.singleton name tag : Table String String).entries :=
    List.perm_singleton.mp (AList.toFinmap_eq.mp htags)
  rw [AList.ext hentries]

theorem eq_of_mem_sampleMap {record : Record} (h : record.entry ∈ sampleMap.entries) :
    record = secondRecord ∨ record = firstRecord := by
  rw [entries_sampleMap, Multiset.insert_eq_cons, Multiset.mem_cons, Multiset.mem_singleton] at h
  exact h.imp eq_of_entry_eq eq_of_entry_eq

/-- A wallet with the two records. -/
theorem exists_stores_sampleMap : ∃ db, Stores plainCipher zeroKeys db sampleMap := by
  obtain ⟨db, -, hstores, horphans⟩ := add_none (S := maxSqlite) (m := ∅) stores_empty
    (Finmap.lookup_empty ("t", "i")) (noOrphans_empty _ (maxSqlite.fresh _)) "v"
    (AList.singleton "a" "1") zeroRandom
  obtain ⟨db', -, hstores', -⟩ := add_none (S := maxSqlite) hstores
    (show Finmap.lookup ("t", "j") _ = none by
      rw [Finmap.lookup_insert_of_ne _ (by decide)]
      exact Finmap.lookup_empty _)
    (horphans noOrphans_empty _ (maxSqlite.fresh _)) "w" (AList.singleton "~b" "2") zeroRandom
  exact ⟨db', hstores'⟩

def sampleHeader : Bytes := exportHeader tokenCodec (.raw "p") zeroNonce exportChunkSize 0 0

/-- The chunks of the two records, in either order. -/
theorem length_exportChunks_sample {records : List Record}
    (h : sampleMap.entries =
      (records.map Record.entry : Multiset ((_ : String × String) × Entry))) :
    (exportChunks tokenCodec exportChunkSize sampleHeader records).length < 2 ^ 96 := by
  have hcard : records.length = 2 := by
    have hcard := congrArg Multiset.card h
    rw [entries_sampleMap, Multiset.coe_card, List.length_map] at hcard
    exact hcard.symm
  have hmem : ∀ record ∈ records, record = secondRecord ∨ record = firstRecord := by
    intro record hrecord
    apply eq_of_mem_sampleMap
    rw [h, Multiset.mem_coe]
    exact List.mem_map_of_mem hrecord
  obtain ⟨r, r', rfl⟩ := List.length_eq_two.mp hcard
  refine lt_of_le_of_lt (length_cut_le _ _) ?_
  rcases hmem r (by simp) with rfl | rfl <;> rcases hmem r' (by simp) with rfl | rfl <;> decide

/-- Two records are exported and imported with a cipher that nothing stands against. A file that is
made of the header and anything else fails or brings both, and one that is cut off fails. -/
theorem export_import_roundtrip_two : ∃ (db : Db) (A : Aead) (body : Bytes),
    Stores plainCipher zeroKeys db sampleMap ∧ A.encrypt = plainAead.encrypt ∧
    exportContinue plainCipher zeroKeys A tokenCodec db 0 zeroKey
      (.raw "p") zeroNonce exportChunkSize 0 = .ok (plainHeader sampleHeader ++ body) ∧
    Imports plainCipher zeroKeys sampleMap
      (finishImport plainCipher zeroKeys maxSqlite .debug A tokenCodec
      (fun _ => zeroRandom) zeroKey body zeroNonce 1024 sampleHeader (newWallet maxSqlite).db) ∧
    (∀ k body', Fails (finishImport plainCipher zeroKeys maxSqlite .debug A tokenCodec
        (fun _ => zeroRandom) k body' zeroNonce 1024 sampleHeader (newWallet maxSqlite).db) ∨
      Imports plainCipher zeroKeys sampleMap
        (finishImport plainCipher zeroKeys maxSqlite .debug A tokenCodec
        (fun _ => zeroRandom) k body' zeroNonce 1024 sampleHeader (newWallet maxSqlite).db)) ∧
    Fails (importFile plainCipher zeroKeys maxSqlite .debug A tokenCodec (fun _ => zeroRandom)
      (fun _ => .ok zeroKey) (plainHeader sampleHeader ++ body).dropLast "p"
        (newWallet maxSqlite).db) := by
  obtain ⟨db, hstores⟩ := exists_stores_sampleMap
  have hrecords : ∀ record : Record, record.entry ∈ sampleMap.entries →
      (tokenCodec.encodeRecord record).length < 2 ^ 32 := by
    intro record hrecord
    rcases eq_of_mem_sampleMap hrecord with rfl | rfl <;> decide
  obtain ⟨records, hentries, hroundtrip⟩ :=
    export_import_roundtrip plainCipher plainCipher zeroKeys zeroKeys
    maxSqlite .debug tokenCodec (fun _ => zeroRandom)
    (.raw "p") zeroNonce exportChunkSize 0 0 db sampleMap hstores hrecords (by decide) trivial
  have hcount := length_exportChunks_sample hentries
  obtain ⟨A, hencrypt, hideal⟩ : ∃ A : Aead, A.encrypt = plainAead.encrypt ∧
      Ideal A zeroKey zeroNonce (exportChunks tokenCodec exportChunkSize sampleHeader records) :=
    exists_ideal plainAead zeroKey hcount
  obtain ⟨hexport, himport, htamper⟩ := hroundtrip A zeroKey
  obtain ⟨hbody, hfile⟩ := htamper hideal hcount
  refine ⟨db, A, _, hstores, hencrypt, hexport, himport hideal.opens, hbody, ?_⟩
  refine (hfile (fun _ => .ok zeroKey) "p").2 _ (List.dropLast_prefix _) fun heq => ?_
  have hlength := congrArg List.length heq
  simp only [List.length_dropLast, List.length_append, plainHeader, length_toLe, sampleHeader]
    at hlength
  omega

/-- A chunk size for which the reader cannot make its buffer. -/
def hugeChunkSize : ChunkSize := ⟨2 ^ 64 - 1, by decide⟩

theorem huge_chunk_size_panics : ¬ ∀ chunkSize : ChunkSize, chunkSize.1 < 2 ^ 64 → ∀ body,
    exportContinue plainCipher zeroKeys plainAead tokenCodec (newWallet maxSqlite).db 0 zeroKey
      (.raw "p") zeroNonce chunkSize 0 =
      .ok (plainHeader (exportHeader tokenCodec (.raw "p") zeroNonce chunkSize 0 0) ++ body) →
    Imports plainCipher zeroKeys ∅
      (finishImport plainCipher zeroKeys maxSqlite .debug plainAead tokenCodec
      (fun _ => zeroRandom) zeroKey body zeroNonce chunkSize.1
      (exportHeader tokenCodec (.raw "p") zeroNonce chunkSize 0 0) (newWallet maxSqlite).db) := by
  intro h
  have hall : getAll plainCipher zeroKeys (newWallet maxSqlite).db = .ok [] := rfl
  obtain ⟨db', hok, -⟩ :=
    h hugeChunkSize (by decide) _ (exportContinue_eq hall .nil 0 (.raw "p") zeroNonce 0)
  cases hok

end Samples

end SimpleAsset.Indy.Wallet
