import SimpleAsset.Indy.Wallet.ExportRoundTrip

/-! `Writer` and `Reader` of `chacha20poly1305_ietf` over any sequence of calls: when all that was
written is read. -/
namespace SimpleAsset.Indy.Wallet
open SimpleAsset.Library

section Calls
variable (A : Aead) (key : Key) (chunkSize : ChunkSize)

inductive WriterCall
  | write (buf : Bytes)
  | flush

def Writer.call (w : Writer) : WriterCall → Writer
  | .write buf => w.write A key chunkSize buf
  | .flush => w.flush A key

def Writer.run (w : Writer) (calls : List WriterCall) : Writer :=
  calls.foldl (Writer.call A key chunkSize) w

/-- The bytes that the calls write. -/
def written : List WriterCall → Bytes
  | [] => []
  | .write buf :: calls => buf ++ written calls
  | .flush :: calls => written calls

def Writer.new (nonce : Nonce) : Writer := ⟨[], nonce, []⟩

end Calls

section Buffers
variable (A : Aead) (key : Key) (bufferLength : ℕ)

/-- The loop of `Reader::read` with the bytes that it copied to the buffer before an error. -/
def Reader.copyChunks (nonce : Nonce) (inner : Bytes) (need : ℕ) :
    Bytes × Reader × Option IoErrorKind :=
  if need = 0 then ([], ⟨[], nonce, inner⟩, none)
  else match _h : openChunk A key bufferLength nonce inner with
    | .error e => ([], ⟨[], nonce, inner.drop bufferLength⟩, some e)
    | .ok (data, inner') =>
      if need < data.length then (data.take need, ⟨data.drop need, nonce.increment, inner'⟩, none)
      else
        let (more, r, e) := Reader.copyChunks nonce.increment inner' (need - data.length)
        (data ++ more, r, e)
termination_by inner.length
decreasing_by
  have hlength := length_openChunk _h
  omega

/-- `Reader::read` with a buffer of `count` bytes: what is in the buffer afterwards, the reader and
the error. -/
def Reader.readInto (r : Reader) (count : ℕ) : Bytes × Reader × Option IoErrorKind :=
  if count ≤ r.restBuffer.length then
    (r.restBuffer.take count, { r with restBuffer := r.restBuffer.drop count }, none)
  else
    let (more, r', e) :=
      Reader.copyChunks A key bufferLength r.nonce r.inner (count - r.restBuffer.length)
    (r.restBuffer ++ more, r', e)

/-- Reads with buffers of these sizes, whether or not there are errors. -/
def Reader.readAll (r : Reader) : List ℕ → Bytes × Reader
  | [] => ([], r)
  | count :: counts =>
    let (bytes, r', _) := r.readInto A key bufferLength count
    let (more, r'') := Reader.readAll r' counts
    (bytes ++ more, r'')

def Reader.new (nonce : Nonce) (inner : Bytes) : Reader := ⟨[], nonce, inner⟩

variable {A key bufferLength} {nonce : Nonce} {inner data inner' : Bytes}
    {e : IoErrorKind} {need : ℕ}

theorem copyChunks_zero :
    Reader.copyChunks A key bufferLength nonce inner 0 = ([], ⟨[], nonce, inner⟩, none) := by
  rw [Reader.copyChunks, if_pos rfl]

theorem copyChunks_error (hneed : need ≠ 0)
    (h : openChunk A key bufferLength nonce inner = .error e) :
    Reader.copyChunks A key bufferLength nonce inner need =
      ([], ⟨[], nonce, inner.drop bufferLength⟩, some e) := by
  rw [Reader.copyChunks, if_neg hneed]
  split
  · rename_i e' he
    rw [h] at he
    rw [Except.error.inj he]
  · rename_i data₁ inner₁ he
    rw [h] at he
    cases he

theorem copyChunks_ok (hneed : need ≠ 0)
    (h : openChunk A key bufferLength nonce inner = .ok (data, inner')) :
    Reader.copyChunks A key bufferLength nonce inner need =
      if need < data.length then (data.take need, ⟨data.drop need, nonce.increment, inner'⟩, none)
      else
        let (more, r, e) :=
  Reader.copyChunks A key bufferLength nonce.increment inner' (need - data.length)
        (data ++ more, r, e) := by
  rw [Reader.copyChunks, if_neg hneed]
  split
  · rename_i e' he
    rw [h] at he
    cases he
  · rename_i data₁ inner₁ he
    rw [h] at he
    obtain ⟨rfl, rfl⟩ := Prod.mk.inj (Except.ok.inj he)
    rfl

variable (A key bufferLength)

/-- What `read` returns of what it copied. -/
def returned (r : Bytes × Reader × Option IoErrorKind) : Except IoErrorKind (Bytes × Reader) :=
  match r with
  | (_, _, some e) => .error e
  | (bytes, r, none) => .ok (bytes, r)

theorem fill_eq_returned (nonce : Nonce) (inner : Bytes) (need : ℕ) :
    Reader.fill A key bufferLength nonce inner need =
      returned (Reader.copyChunks A key bufferLength nonce inner need) := by
  fun_induction Reader.fill A key bufferLength nonce inner need with
  | case1 nonce inner => rw [copyChunks_zero, returned]
  | case2 nonce inner need hneed e he => rw [copyChunks_error hneed he, returned]
  | case3 nonce inner need hneed data inner' hopen hlt =>
    rw [copyChunks_ok hneed hopen, if_pos hlt, returned]
  | case4 nonce inner need hneed data inner' hopen hge ih =>
    rw [copyChunks_ok hneed hopen, if_neg hge, ih]
    rcases Reader.copyChunks A key bufferLength nonce.increment inner'
      (need - data.length) with ⟨more, r, _ | e⟩ <;> rfl

/-- `read` returns an error in place of what it copied before. -/
theorem Reader.read_eq_returned (r : Reader) (count : ℕ) :
    r.read A key bufferLength count = returned (r.readInto A key bufferLength count) := by
  unfold Reader.read Reader.readInto
  split_ifs
  · rfl
  · rw [fill_eq_returned]
    rcases Reader.copyChunks A key bufferLength r.nonce r.inner
      (count - r.restBuffer.length) with ⟨more, r', _ | e⟩ <;> rfl

end Buffers

section Ends
variable (A : Aead) (key : Key) (bufferLength : ℕ)

/-- The error at the first chunk that does not open. -/
def endOf (nonce : Nonce) (inner : Bytes) : IoErrorKind :=
  match _h : openChunk A key bufferLength nonce inner with
  | .error e => e
  | .ok (_, inner') => endOf nonce.increment inner'
termination_by inner.length
decreasing_by
  have hlength := length_openChunk _h
  omega

def Reader.lastError (r : Reader) : IoErrorKind := endOf A key bufferLength r.nonce r.inner

variable {A key bufferLength} {nonce : Nonce} {inner data inner' : Bytes}
    {e : IoErrorKind} {need : ℕ}

theorem endOf_error (h : openChunk A key bufferLength nonce inner = .error e) :
    endOf A key bufferLength nonce inner = e := by
  rw [endOf]
  split
  · rename_i e' he
    rw [h] at he
    exact (Except.error.inj he).symm
  · rename_i data₁ inner₁ he
    rw [h] at he
    cases he

theorem endOf_ok (h : openChunk A key bufferLength nonce inner = .ok (data, inner')) :
    endOf A key bufferLength nonce inner = endOf A key bufferLength nonce.increment inner' := by
  rw [endOf]
  split
  · rename_i e' he
    rw [h] at he
    cases he
  · rename_i data₁ inner₁ he
    rw [h] at he
    obtain ⟨rfl, rfl⟩ := Prod.mk.inj (Except.ok.inj he)
    rfl

theorem openChunk_eof_iff : openChunk A key bufferLength nonce inner = .error .unexpectedEof ↔
    inner.take bufferLength = [] := by
  unfold openChunk readChunk
  split_ifs with hempty
  · simp [hempty]
  · rw [except_ok_bind]
    cases hdata : A.decrypt (inner.take bufferLength) key nonce with
    | ok data => simp [hdata, hempty]
    | error e => simp [hdata, hempty]

variable (A key bufferLength)

/-- The loop copies plain bytes while there are some, then comes the error at their end. -/
theorem copyChunks_spec (nonce : Nonce) (inner : Bytes) (need : ℕ) :
    (need ≤ (plainOf A key bufferLength nonce inner).length →
      ∃ r, Reader.copyChunks A key bufferLength nonce inner need =
          ((plainOf A key bufferLength nonce inner).take need, r, none) ∧
        r.plain A key bufferLength = (plainOf A key bufferLength nonce inner).drop need ∧
        r.lastError A key bufferLength = endOf A key bufferLength nonce inner) ∧
    ((plainOf A key bufferLength nonce inner).length < need →
      ∃ r, Reader.copyChunks A key bufferLength nonce inner need =
          (plainOf A key bufferLength nonce inner, r, some (endOf A key bufferLength nonce inner)) ∧
        (endOf A key bufferLength nonce inner = .unexpectedEof →
          r.plain A key bufferLength = [] ∧ r.lastError A key bufferLength = .unexpectedEof)) := by
  fun_induction Reader.copyChunks A key bufferLength nonce inner need with
  | case1 nonce inner =>
    exact ⟨fun _ => ⟨_, rfl, rfl, rfl⟩, fun hlt => absurd hlt (Nat.not_lt_zero _)⟩
  | case2 nonce inner need hneed e he =>
    rw [plainOf_error he, endOf_error he]
    refine ⟨fun hle => absurd (Nat.le_zero.mp hle) hneed, fun _ => ⟨_, rfl, ?_⟩⟩
    rintro rfl
    have hdone : openChunk A key bufferLength nonce
        (inner.drop bufferLength) = .error .unexpectedEof := by
      rw [openChunk_eof_iff] at he ⊢
      rw [List.take_eq_nil_iff] at he ⊢
      exact he.imp id fun hnil => by rw [hnil, List.drop_nil]
    exact ⟨plainOf_error hdone, endOf_error hdone⟩
  | case3 nonce inner need hneed data inner' hopen hlt =>
    rw [plainOf_ok hopen, endOf_ok hopen]
    constructor
    · intro _
      refine ⟨_, by rw [List.take_append_of_le_length (Nat.le_of_lt hlt)], ?_, rfl⟩
      rw [List.drop_append_of_le_length (Nat.le_of_lt hlt)]
      rfl
    · intro hshort
      rw [List.length_append] at hshort
      omega
  | case4 nonce inner need hneed data inner' hopen hge more r e heq ih =>
    rw [plainOf_ok hopen, endOf_ok hopen, List.length_append]
    constructor
    · intro hle
      obtain ⟨r', hcopy, hplain, hend⟩ := ih.1 (by omega)
      obtain ⟨rfl, hrest⟩ := Prod.mk.inj (heq.symm.trans hcopy)
      obtain ⟨rfl, rfl⟩ := Prod.mk.inj hrest
      refine ⟨r, ?_, ?_, hend⟩
      · rw [List.take_append, List.take_of_length_le (Nat.le_of_not_lt hge)]
      · rw [hplain, List.drop_append, List.drop_of_length_le (Nat.le_of_not_lt hge),
          List.nil_append]
    · intro hshort
      obtain ⟨r', hcopy, hend⟩ := ih.2 (by omega)
      obtain ⟨rfl, hrest⟩ := Prod.mk.inj (heq.symm.trans hcopy)
      obtain ⟨rfl, rfl⟩ := Prod.mk.inj hrest
      exact ⟨r, rfl, hend⟩

/-- A read within the plain bytes. -/
theorem Reader.readInto_of_le {r : Reader} {count : ℕ}
    (h : count ≤ (r.plain A key bufferLength).length) :
    ∃ r', r.readInto A key bufferLength count =
      ((r.plain A key bufferLength).take count, r', none) ∧
      r'.plain A key bufferLength = (r.plain A key bufferLength).drop count ∧
      r'.lastError A key bufferLength = r.lastError A key bufferLength := by
  unfold Reader.plain at h ⊢
  rw [List.length_append] at h
  unfold Reader.readInto
  split_ifs with hrest
  · refine ⟨{ r with restBuffer := r.restBuffer.drop count }, ?_, ?_, rfl⟩
    · rw [List.take_append_of_le_length hrest]
    · rw [List.drop_append_of_le_length hrest]
  · have hlong : r.restBuffer.length ≤ count := Nat.le_of_not_le hrest
    obtain ⟨r', hcopy, hplain, hend⟩ := (copyChunks_spec A key bufferLength r.nonce r.inner
      (count - r.restBuffer.length)).1 (by omega)
    rw [hcopy]
    refine ⟨r', ?_, ?_, hend⟩
    · rw [List.take_append, List.take_of_length_le hlong]
    · rw [← Reader.plain, hplain, List.drop_append, List.drop_of_length_le hlong, List.nil_append]

/-- A read beyond them. -/
theorem Reader.readInto_of_lt {r : Reader} {count : ℕ}
    (h : (r.plain A key bufferLength).length < count) :
    ∃ r', r.readInto A key bufferLength count =
      (r.plain A key bufferLength, r', some (r.lastError A key bufferLength)) ∧
      (r.lastError A key bufferLength = .unexpectedEof →
        r'.plain A key bufferLength = [] ∧ r'.lastError A key bufferLength = .unexpectedEof) := by
  unfold Reader.plain at h ⊢
  rw [List.length_append] at h
  unfold Reader.readInto
  rw [if_neg (by omega)]
  obtain ⟨r', hcopy, hend⟩ := (copyChunks_spec A key bufferLength r.nonce r.inner
    (count - r.restBuffer.length)).2 (by omega)
  rw [hcopy]
  exact ⟨r', rfl, hend⟩

variable {A key bufferLength}

/-- One read of a stream that ends well. -/
theorem Reader.readInto_of_eof {r : Reader} (h : r.lastError A key bufferLength = .unexpectedEof)
    (count : ℕ) :
    ∃ r', r.readInto A key bufferLength count = ((r.plain A key bufferLength).take count, r',
        if (r.plain A key bufferLength).length < count then some .unexpectedEof else none) ∧
      r'.plain A key bufferLength = (r.plain A key bufferLength).drop count ∧
      r'.lastError A key bufferLength = .unexpectedEof := by
  by_cases hlt : (r.plain A key bufferLength).length < count
  · obtain ⟨r', hread, hend⟩ := Reader.readInto_of_lt A key bufferLength hlt
    refine ⟨r', ?_, ?_, (hend h).2⟩
    · rw [hread, h, if_pos hlt, List.take_of_length_le (Nat.le_of_lt hlt)]
    · rw [(hend h).1, List.drop_of_length_le (Nat.le_of_lt hlt)]
  · obtain ⟨r', hread, hplain, hend⟩ :=
      Reader.readInto_of_le A key bufferLength (Nat.le_of_not_lt hlt)
    exact ⟨r', by rw [hread, if_neg hlt], hplain, hend.trans h⟩

/-- Any reads of it. -/
theorem Reader.readAll_of_eof {r : Reader} (h : r.lastError A key bufferLength = .unexpectedEof)
    (counts : List ℕ) :
    ∃ r', r.readAll A key bufferLength counts = ((r.plain A key bufferLength).take counts.sum, r') ∧
      r'.plain A key bufferLength = (r.plain A key bufferLength).drop counts.sum ∧
      r'.lastError A key bufferLength = .unexpectedEof := by
  induction counts generalizing r with
  | nil => exact ⟨r, rfl, rfl, h⟩
  | cons count counts ih =>
    obtain ⟨r', hread, hplain, hend⟩ := Reader.readInto_of_eof h count
    obtain ⟨r'', hall, hplain', hend'⟩ := ih hend
    refine ⟨r'', ?_, ?_, hend'⟩
    · rw [Reader.readAll, hread]
      dsimp only
      rw [hall, hplain, List.sum_cons, List.take_add]
    · rw [hplain', hplain, List.drop_drop, List.sum_cons]

end Ends

section Lengths
variable {A : Aead} {key : Key} {bufferLength : ℕ}

/-- A stream that opens to its end loses no more than a tag for each buffer. -/
theorem length_le_of_eof {nonce : Nonce} {inner : Bytes} {m : ℕ} (hpos : 0 < bufferLength)
    (hend : endOf A key bufferLength nonce inner = .unexpectedEof)
    (hlength : inner.length ≤ m * bufferLength) :
    inner.length ≤ (plainOf A key bufferLength nonce inner).length + m * tagBytes := by
  induction m generalizing nonce inner with
  | zero => omega
  | succ m ih =>
    cases hopen : openChunk A key bufferLength nonce inner with
    | error e =>
      rw [endOf_error hopen] at hend
      have htake := openChunk_eof_iff.mp (hend ▸ hopen)
      rcases List.take_eq_nil_iff.mp htake with hzero | rfl
      · omega
      · exact Nat.zero_le _
    | ok opened =>
      obtain ⟨data, inner'⟩ := opened
      obtain ⟨-, hdata, rfl⟩ := openChunk_eq_ok hopen
      have htag := A.length_decrypt _ _ _ _ hdata
      have hsplit := congrArg List.length (List.take_append_drop bufferLength inner)
      rw [endOf_ok hopen] at hend
      have hrest := ih hend (by rw [List.length_drop]; grind)
      rw [plainOf_ok hopen]
      rw [List.length_append] at hsplit ⊢
      grind

/-- A buffer without room for more than a tag opens nothing. -/
theorem plainOf_of_short (h : bufferLength < tagBytes) (nonce : Nonce) (inner : Bytes) :
    plainOf A key bufferLength nonce inner = [] := by
  cases hopen : openChunk A key bufferLength nonce inner with
  | error e => exact plainOf_error hopen
  | ok opened =>
    obtain ⟨-, hdata, -⟩ := openChunk_eq_ok hopen
    have htag := A.length_decrypt _ _ _ _ hdata
    have hlength := List.length_take_le bufferLength inner
    omega

theorem endOf_sealChunks {chunkSize : ChunkSize} {nonce : Nonce} {data : Bytes}
    (h : Opens A key nonce (cut chunkSize.1 data)) :
    endOf A key (chunkSize.1 + tagBytes) nonce
      (sealChunks A key nonce (cut chunkSize.1 data)) = .unexpectedEof := by
  induction hlength : data.length using Nat.strongRecOn generalizing nonce data with
  | _ k ih =>
    by_cases hdata : data = []
    · rw [hdata, cut_nil, sealChunks]
      exact endOf_error (openChunk_eof_iff.mpr List.take_nil)
    · rw [cut_cons chunkSize.2 hdata] at h ⊢
      have hfirst : A.decrypt (A.encrypt (data.take chunkSize.1) key nonce) key nonce = .ok
          (data.take chunkSize.1) :=
        h 0 _ rfl
      have hopen := openChunk_seal hfirst nonce.increment
      have hpos := List.length_pos_of_ne_nil hdata
      have hsize := chunkSize.2
      rw [sealChunks, endOf_ok hopen]
      exact ih (data.drop chunkSize.1).length (by rw [List.length_drop]; omega) h.tail rfl

end Lengths

section Flushes
variable (A : Aead) (key : Key) (chunkSize : ChunkSize)

/-- Every flush comes after whole chunks. -/
def Aligned (calls : List WriterCall) : Prop :=
  ∀ before after, calls = before ++ .flush :: after → chunkSize.1 ∣ (written before).length

variable {A key chunkSize} {calls : List WriterCall}

theorem written_append (calls calls' : List WriterCall) :
    written (calls ++ calls') = written calls ++ written calls' := by
  induction calls with
  | nil => rfl
  | cons c calls ih => cases c <;> simp [written, ih]

theorem aligned_of_written_eq_nil (h : written calls = []) : Aligned chunkSize calls := by
  rintro before after rfl
  rw [written_append] at h
  rw [(List.append_eq_nil_iff.mp h).1]
  exact dvd_zero _

theorem Aligned.of_append {c : WriterCall} (h : Aligned chunkSize (calls ++ [c])) :
    Aligned chunkSize calls := by
  rintro before after rfl
  exact h before (after ++ [c]) (by simp)

theorem aligned_append_iff {c : WriterCall} : Aligned chunkSize (calls ++ [c]) ↔
    Aligned chunkSize calls ∧ (c = .flush → chunkSize.1 ∣ (written calls).length) := by
  constructor
  · intro h
    refine ⟨h.of_append, ?_⟩
    rintro rfl
    exact h calls [] rfl
  · rintro ⟨h, hlast⟩ before after heq
    rcases List.eq_nil_or_concat after with rfl | ⟨after, c', rfl⟩
    · obtain ⟨rfl, hc⟩ := List.append_inj' heq rfl
      exact hlast (List.singleton_inj.mp hc)
    · rw [List.concat_eq_append, ← List.cons_append, ← List.append_assoc] at heq
      exact h before after (List.append_inj' heq rfl).1

variable (A key chunkSize)

theorem Writer.run_append (w : Writer) (calls : List WriterCall) (c : WriterCall) :
    w.run A key chunkSize (calls ++ [c]) =
      (w.run A key chunkSize calls).call A key chunkSize c := by
  rw [Writer.run, Writer.run, List.foldl_append]
  rfl

/-- What sealing took: `count` chunks with `length` bytes. -/
structure Writer.Sealed (w : Writer) (count length : ℕ) : Prop where
  inner : w.inner.length = length + count * tagBytes
  length_le : length ≤ count * chunkSize.1

variable {chunkSize}

/-- Sealing a chunk at the front of the buffer. -/
theorem Writer.Sealed.seal {w : Writer} {count length : ℕ} (h : w.Sealed chunkSize count length)
    (n : Nonce) (rest chunk : Bytes) (hchunk : chunk.length ≤ chunkSize.1) :
    Writer.Sealed chunkSize ⟨rest, n, w.inner ++ A.encrypt chunk key w.nonce⟩ (count + 1)
      (length + chunk.length) := by
  obtain ⟨hinner, hle⟩ := h
  constructor
  · rw [List.length_append, A.length_encrypt, hinner]
    grind
  · grind

theorem Writer.Sealed.writeChunks {w : Writer} {count length : ℕ}
    (h : w.Sealed chunkSize count length) :
    ∃ count' length', (w.writeChunks A key chunkSize).Sealed chunkSize count' length' ∧
      length' + (w.writeChunks A key chunkSize).buffer.length = length + w.buffer.length ∧
      (w.writeChunks A key chunkSize).buffer.length = w.buffer.length % chunkSize.1 := by
  fun_induction Writer.writeChunks A key chunkSize w generalizing count length with
  | case1 w hlong ih =>
    have hchunk : (w.buffer.take chunkSize.1).length = chunkSize.1 := List.length_take_of_le hlong
    obtain ⟨count', length', hsealed, hsum, hmod⟩ :=
      ih (h.seal A key w.nonce.increment (w.buffer.drop chunkSize.1) _ (Nat.le_of_eq hchunk))
    refine ⟨count', length', hsealed, ?_, ?_⟩
    · rw [hsum, List.length_drop, hchunk]
      omega
    · rw [hmod, List.length_drop, ← Nat.mod_eq_sub_mod hlong]
  | case2 w hshort =>
    exact ⟨count, length, h, rfl, (Nat.mod_eq_of_lt (Nat.lt_of_not_le hshort)).symm⟩

theorem Writer.Sealed.flush {w : Writer} {count length : ℕ} (h : w.Sealed chunkSize count length)
    (hbuffer : w.buffer.length ≤ chunkSize.1) :
    ∃ count', (w.flush A key).Sealed chunkSize count' (length + w.buffer.length) := by
  unfold Writer.flush
  split_ifs with hempty
  · exact ⟨count, by rwa [hempty, List.length_nil, Nat.add_zero]⟩
  · exact ⟨count + 1, h.seal A key w.nonce.increment w.buffer _ hbuffer⟩

theorem Writer.buffer_flush (w : Writer) : (w.flush A key).buffer = w.buffer := by
  unfold Writer.flush
  split_ifs <;> rfl

/-- The buffer holds what is beyond whole chunks, and a chunk is sealed again after each flush that
finds something in it. -/
theorem Writer.run_sealed (nonce : Nonce) (calls : List WriterCall) :
    ((Writer.new nonce).run A key chunkSize calls).buffer.length =
      (written calls).length % chunkSize.1 ∧
    ∃ count length, ((Writer.new nonce).run A key chunkSize calls).Sealed chunkSize count length ∧
      (written calls).length ≤ length +
      ((Writer.new nonce).run A key chunkSize calls).buffer.length ∧
      (length +
        ((Writer.new nonce).run A key chunkSize calls).buffer.length = (written calls).length →
        Aligned chunkSize calls) := by
  induction calls using List.reverseRecOn with
  | nil =>
    refine ⟨(Nat.zero_mod _).symm, 0, 0, ⟨rfl, Nat.zero_le _⟩, Nat.zero_le _, fun _ => ?_⟩
    exact aligned_of_written_eq_nil rfl
  | append_singleton calls c ih =>
    obtain ⟨hbuffer, count, length, hsealed, hle, haligned⟩ := ih
    rw [Writer.run_append, written_append]
    generalize (Writer.new nonce).run A key chunkSize calls = w at *
    cases c with
    | write buf =>
      have hstart : Writer.Sealed chunkSize { w with buffer := w.buffer ++ buf } count length :=
        ⟨hsealed.1, hsealed.2⟩
      obtain ⟨count', length', hsealed', hsum, hmod⟩ := hstart.writeChunks A key
      simp only [Writer.call, Writer.write, written, List.append_nil]
      refine ⟨?_, count', length', hsealed', ?_, fun heq => ?_⟩
      · rw [hmod, List.length_append, List.length_append, hbuffer, Nat.mod_add_mod]
      · rw [hsum, List.length_append, List.length_append]
        omega
      · rw [aligned_append_iff]
        rw [hsum, List.length_append, List.length_append] at heq
        exact ⟨haligned (by omega), fun hflush => by cases hflush⟩
    | flush =>
      have hshort : w.buffer.length ≤ chunkSize.1 := by
        rw [hbuffer]
        exact Nat.le_of_lt (Nat.mod_lt _ chunkSize.2)
      obtain ⟨count', hsealed'⟩ := hsealed.flush A key hshort
      simp only [Writer.call, written, List.append_nil, Writer.buffer_flush]
      refine ⟨hbuffer, count', _, hsealed', by omega, fun heq => ?_⟩
      rw [aligned_append_iff]
      refine ⟨haligned (by omega), fun _ => Nat.dvd_of_mod_eq_zero ?_⟩
      omega

/-- With whole chunks before every flush the chunks are those of all that was written. -/
theorem Writer.run_total (nonce : Nonce) (h : Aligned chunkSize calls) (rest : Bytes) :
    ((Writer.new nonce).run A key chunkSize calls).total A key chunkSize rest =
      sealChunks A key nonce (cut chunkSize.1 (written calls ++ rest)) := by
  induction calls using List.reverseRecOn generalizing rest with
  | nil => rfl
  | append_singleton calls c ih =>
    obtain ⟨hcalls, hlast⟩ := aligned_append_iff.mp h
    rw [Writer.run_append, written_append]
    cases c with
    | write buf =>
      rw [Writer.call, Writer.total_write, ih hcalls]
      simp [written]
    | flush =>
      have hempty : ((Writer.new nonce).run A key chunkSize calls).buffer = [] := by
        rw [← List.length_eq_zero_iff, (Writer.run_sealed A key nonce calls).1]
        exact Nat.mod_eq_zero_of_dvd (hlast rfl)
      rw [Writer.call, Writer.flush, if_pos hempty, ih hcalls]
      simp [written]

end Flushes

section Transparency
variable (A : Aead) (key : Key) (nonce : Nonce)

/-- Whatever the sizes of the buffers, the reads give the data, and `UnexpectedEof` beyond it. -/
structure ReadsBack (bufferLength : ℕ) (inner data : Bytes) : Prop where
  bytes : ∀ counts : List ℕ,
    ((Reader.new nonce inner).readAll A key bufferLength counts).1 = data.take counts.sum
  errors : ∀ (counts : List ℕ) (count : ℕ),
    (((Reader.new nonce inner).readAll A key bufferLength counts).2.readInto A key bufferLength
      count).2.2 =
      if data.length < counts.sum + count ∧ count ≠ 0 then some .unexpectedEof else none

/-- What these calls and a last flush write is read. -/
def Transparent (build : Build) (chunkSize : ChunkSize) (calls : List WriterCall) : Prop :=
  ∃ bufferLength, newChunkBuffer build chunkSize.1 = .ok bufferLength ∧
    ReadsBack A key nonce bufferLength
    ((Writer.new nonce).run A key chunkSize (calls ++ [.flush])).inner (written calls)

variable {A key nonce} {bufferLength : ℕ} {inner data : Bytes}

theorem readsBack_iff : ReadsBack A key nonce bufferLength inner data ↔
    plainOf A key bufferLength nonce inner = data ∧
    endOf A key bufferLength nonce inner = .unexpectedEof := by
  have hplain : (Reader.new nonce inner).plain A key bufferLength =
      plainOf A key bufferLength nonce inner := rfl
  constructor
  · rintro ⟨hbytes, herrors⟩
    have hread : (((Reader.new nonce inner).readInto A key bufferLength (data.length + 1)).2.2) =
        some .unexpectedEof := by
      simpa [Reader.readAll] using herrors [] (data.length + 1)
    by_cases hlt : (plainOf A key bufferLength nonce inner).length < data.length + 1
    · obtain ⟨r', hinto, -⟩ :=
        Reader.readInto_of_lt A key bufferLength (r := Reader.new nonce inner) hlt
      have hend : endOf A key bufferLength nonce inner = .unexpectedEof := by
        rw [hinto] at hread
        exact Option.some.inj hread
      obtain ⟨r'', hall, -⟩ :=
        Reader.readAll_of_eof (r := Reader.new nonce inner) hend [data.length + 1]
      have htake := hbytes [data.length + 1]
      rw [hall, List.sum_singleton, hplain, List.take_of_length_le (Nat.le_of_lt hlt),
        List.take_of_length_le (Nat.le_succ _)] at htake
      exact ⟨htake, hend⟩
    · obtain ⟨r', hinto, -⟩ :=
        Reader.readInto_of_le A key bufferLength (r := Reader.new nonce inner)
          (Nat.le_of_not_lt hlt)
      rw [hinto] at hread
      cases hread
  · rintro ⟨rfl, hend⟩
    constructor
    · intro counts
      obtain ⟨r', hall, -⟩ := Reader.readAll_of_eof (r := Reader.new nonce inner) hend counts
      rw [hall, hplain]
    · intro counts count
      obtain ⟨r', hall, hrest, hend'⟩ :=
        Reader.readAll_of_eof (r := Reader.new nonce inner) hend counts
      obtain ⟨r'', hinto, -⟩ := Reader.readInto_of_eof hend' count
      rw [hall, hinto, hrest, hplain, List.length_drop]
      dsimp only
      congr 1
      apply propext
      omega

variable {chunkSize : ChunkSize} {calls : List WriterCall}

theorem length_buffer_run (calls : List WriterCall) :
    ((Writer.new nonce).run A key chunkSize calls).buffer.length < chunkSize.1 := by
  rw [(Writer.run_sealed A key nonce calls).1]
  exact Nat.mod_lt _ chunkSize.2

theorem inner_of_aligned (h : Aligned chunkSize calls) :
    ((Writer.new nonce).run A key chunkSize (calls ++ [.flush])).inner =
      sealChunks A key nonce (cut chunkSize.1 (written calls)) := by
  rw [Writer.run_append, Writer.call, Writer.inner_flush A key chunkSize (length_buffer_run calls),
    Writer.run_total A key nonce h, List.append_nil]

/-- All that was sealed is too long to be what was written, if a flush left bytes to be sealed
again. -/
theorem aligned_of_readsBack
    (h : ReadsBack A key nonce (chunkSize.1 + tagBytes)
      ((Writer.new nonce).run A key chunkSize (calls ++ [.flush])).inner (written calls)) :
    Aligned chunkSize calls := by
  obtain ⟨hplain, hend⟩ := readsBack_iff.mp h
  obtain ⟨-, count, length, hsealed, hle, haligned⟩ := Writer.run_sealed A key nonce calls
  rw [Writer.run_append, Writer.call] at hplain hend
  obtain ⟨count', hinner, hchunks⟩ := hsealed.flush A key (Nat.le_of_lt (length_buffer_run calls))
  have hshort := length_le_of_eof (by omega) hend (m := count') (by rw [hinner, Nat.mul_add]; omega)
  rw [hplain, hinner] at hshort
  exact haligned (by omega)

/-- A chunk buffer of another length was cut off at the top of `usize`. -/
theorem newChunkBuffer_short {build : Build} {size : ℕ} (hsize : size < 2 ^ 64)
    (h : newChunkBuffer build size = .ok bufferLength) :
    bufferLength = size + tagBytes ∨ bufferLength < tagBytes := by
  unfold newChunkBuffer addU64 at h
  split_ifs at h with hfits
  · rw [except_ok_bind] at h
    split_ifs at h
    exact .inl (Except.ok.inj h).symm
  · cases build with
    | debug => cases h
    | release =>
      rw [except_ok_bind] at h
      split_ifs at h
      obtain rfl := Except.ok.inj h
      exact .inr (by omega)

/-- When all that was written is read: when the chunk buffer has its length, and every flush but the
last comes after whole chunks. Without anything written any chunk buffer will do. -/
theorem transparent_iff (build : Build) (A : Aead) (key : Key) (nonce : Nonce)
    (hcorrect : ∀ data n, A.decrypt (A.encrypt data key n) key n = .ok data) (chunkSize : ChunkSize)
    (hsize : chunkSize.1 < 2 ^ 64) (calls : List WriterCall) :
    Transparent A key nonce build chunkSize calls ↔
      (newChunkBuffer build chunkSize.1 = .ok (chunkSize.1 + tagBytes) ∨
        written calls = [] ∧ ∃ bufferLength, newChunkBuffer build chunkSize.1 = .ok bufferLength) ∧
      Aligned chunkSize calls := by
  constructor
  · rintro ⟨bufferLength, hbuffer, hreads⟩
    rcases newChunkBuffer_short hsize hbuffer with rfl | hshort
    · exact ⟨.inl hbuffer, aligned_of_readsBack hreads⟩
    · have hnothing : written calls = [] := by
        rw [← (readsBack_iff.mp hreads).1]
        exact plainOf_of_short hshort _ _
      exact ⟨.inr ⟨hnothing, bufferLength, hbuffer⟩, aligned_of_written_eq_nil hnothing⟩
  · rintro ⟨hbuffer, haligned⟩
    have hopens : Opens A key nonce (cut chunkSize.1 (written calls)) :=
      fun i chunk _ => hcorrect chunk _
    rcases hbuffer with hbuffer | ⟨hnothing, bufferLength, hbuffer⟩
    · refine ⟨_, hbuffer, readsBack_iff.mpr ?_⟩
      rw [inner_of_aligned haligned]
      exact ⟨plainOf_sealChunks hopens, endOf_sealChunks hopens⟩
    · refine ⟨_, hbuffer, readsBack_iff.mpr ?_⟩
      have hdone : openChunk A key bufferLength nonce [] = .error .unexpectedEof :=
        openChunk_eof_iff.mpr List.take_nil
      rw [inner_of_aligned haligned, hnothing, cut_nil, sealChunks]
      exact ⟨plainOf_error hdone, endOf_error hdone⟩

theorem transparent_iff_two_chunks :
    Transparent plainAead zeroKey zeroNonce .debug ⟨2, by decide⟩
      [.write [1, 2], .flush, .write [3]] := by
  have hwrite : Aligned ⟨2, by decide⟩ ([] ++ [WriterCall.write [1, 2]]) :=
    aligned_append_iff.mpr ⟨aligned_of_written_eq_nil rfl, nofun⟩
  have hflush : Aligned ⟨2, by decide⟩ ([WriterCall.write [1, 2]] ++ [.flush]) :=
    aligned_append_iff.mpr ⟨hwrite, fun _ => by decide⟩
  have hlast : Aligned ⟨2, by decide⟩ ([WriterCall.write [1, 2], .flush] ++ [.write [3]]) :=
    aligned_append_iff.mpr ⟨hflush, nofun⟩
  refine (transparent_iff .debug plainAead zeroKey zeroNonce ?_ ⟨2, by decide⟩ (by decide) _).mpr
    ⟨.inl rfl, hlast⟩
  exact fun data n => opens_plainAead zeroKey n [data] 0 data rfl

/-- A byte that is flushed stays in the buffer, and is sealed again with the next flush. -/
theorem flushed_byte_repeated :
    ¬ Transparent plainAead zeroKey zeroNonce .debug ⟨2, by decide⟩ [.write [1], .flush] := by
  rintro ⟨bufferLength, hbuffer, hreads⟩
  obtain rfl : 18 = bufferLength := Except.ok.inj hbuffer
  have haligned : Aligned ⟨2, by decide⟩ [.write [1], .flush] := aligned_of_readsBack hreads
  exact absurd (haligned [.write [1]] [] rfl) (by decide)

end Transparency

end SimpleAsset.Indy.Wallet
