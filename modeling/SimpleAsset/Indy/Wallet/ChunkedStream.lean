import SimpleAsset.Library.Chunks
import SimpleAsset.Library.LittleEndian
import SimpleAsset.Indy.Wallet.Encryption

/-! `Writer` and `Reader` of `chacha20poly1305_ietf`: a stream cut into chunks that are encrypted
one by one. -/
namespace SimpleAsset.Indy.Wallet
open SimpleAsset.Library

def tagBytes : ℕ := 16

/-- `seal` and `open`; what opens is longer than its data by the tag. -/
structure Aead where
  encrypt : Bytes → Key → Nonce → Bytes
  decrypt : Bytes → Key → Nonce → IndyResult Bytes
  length_encrypt : ∀ data key nonce, (encrypt data key nonce).length = data.length + tagBytes
  length_decrypt : ∀ bytes key nonce data, decrypt bytes key nonce = .ok data → data.length +
    tagBytes = bytes.length

/-- `Nonce::increment`. -/
def Nonce.increment (nonce : Nonce) : Nonce :=
  ⟨incrementLe nonce.1, by rw [length_incrementLe, nonce.2]⟩

/-- The nonce after `i` chunks. -/
def Nonce.after (nonce : Nonce) : ℕ → Nonce
  | 0 => nonce
  | i + 1 => (Nonce.after nonce i).increment

theorem Nonce.after_increment (nonce : Nonce) (i : ℕ) :
    nonce.increment.after i = nonce.after (i + 1) := by
  induction i with
  | zero => rfl
  | succ i ih => exact congrArg Nonce.increment ih

theorem Nonce.after_val (nonce : Nonce) (i : ℕ) : (nonce.after i).1 = incrementLe^[i] nonce.1 := by
  induction i with
  | zero => rfl
  | succ i ih =>
    rw [Function.iterate_succ_apply', ← ih]
    rfl

/-- The nonces of up to `2^96` chunks are different. -/
theorem Nonce.after_inj (nonce : Nonce) {i j : ℕ} (hi : i < 2 ^ 96) (hj : j < 2 ^ 96)
    (h : nonce.after i = nonce.after j) : i = j := by
  have hval : incrementLe^[i] nonce.1 = incrementLe^[j] nonce.1 := by
    rw [← Nonce.after_val, ← Nonce.after_val, h]
  have hbound : 256 ^ nonce.1.length = 2 ^ 96 := by
    rw [nonce.2]
    rfl
  exact iterate_incrementLe_inj (hbound ▸ hi) (hbound ▸ hj) hval

section Writing
variable (A : Aead) (key : Key)

/-- A chunk size of zero would have `Writer::write` go on forever. -/
abbrev ChunkSize := {n : ℕ // 0 < n}

structure Writer where
  buffer : Bytes
  nonce : Nonce
  /-- What was written to the writer below. -/
  inner : Bytes

variable (chunkSize : ChunkSize)

/-- The loop of `Writer::write`. -/
def Writer.writeChunks (w : Writer) : Writer :=
  if _h : chunkSize.1 ≤ w.buffer.length then
    Writer.writeChunks ⟨w.buffer.drop chunkSize.1, w.nonce.increment,
      w.inner ++ A.encrypt (w.buffer.take chunkSize.1) key w.nonce⟩
  else w
termination_by w.buffer.length
decreasing_by
  rw [List.length_drop]
  exact Nat.sub_lt (Nat.lt_of_lt_of_le chunkSize.2 _h) chunkSize.2

def Writer.write (w : Writer) (buf : Bytes) : Writer :=
  Writer.writeChunks A key chunkSize { w with buffer := w.buffer ++ buf }

/-- The buffer is not emptied. -/
def Writer.flush (w : Writer) : Writer :=
  if w.buffer = [] then w
  else { w with nonce := w.nonce.increment, inner := w.inner ++ A.encrypt w.buffer key w.nonce }

/-- Chunks encrypted one after another. -/
def sealChunks : Nonce → List Bytes → Bytes
  | _, [] => []
  | nonce, chunk :: chunks => A.encrypt chunk key nonce ++ sealChunks nonce.increment chunks

/-- What is written in the end if `rest` is still to come. -/
def Writer.total (w : Writer) (rest : Bytes) : Bytes :=
  w.inner ++ sealChunks A key w.nonce (cut chunkSize.1 (w.buffer ++ rest))

theorem Writer.total_writeChunks (w : Writer) (rest : Bytes) :
    (w.writeChunks A key chunkSize).total A key chunkSize rest = w.total A key chunkSize rest := by
  fun_induction Writer.writeChunks A key chunkSize w with
  | case1 w h ih =>
    have hlength : (w.buffer.take chunkSize.1).length = chunkSize.1 := List.length_take_of_le h
    rw [ih, Writer.total, Writer.total]
    conv_rhs => rw [← List.take_append_drop chunkSize.1 w.buffer, List.append_assoc,
      cut_append chunkSize.2 hlength]
    rw [sealChunks, List.append_assoc]
  | case2 w h => rfl

theorem Writer.total_write (w : Writer) (buf rest : Bytes) :
    (w.write A key chunkSize buf).total A key chunkSize rest = w.total A key chunkSize
      (buf ++ rest) := by
  rw [Writer.write, Writer.total_writeChunks, Writer.total, Writer.total, List.append_assoc]

/-- Less than a chunk stays in the buffer. -/
theorem Writer.length_buffer_write (w : Writer) (buf : Bytes) :
    (w.write A key chunkSize buf).buffer.length < chunkSize.1 := by
  unfold Writer.write
  generalize { w with buffer := w.buffer ++ buf } = w'
  fun_induction Writer.writeChunks A key chunkSize w' with
  | case1 w h ih => exact ih
  | case2 w h => exact Nat.lt_of_not_le h

theorem Writer.inner_flush {w : Writer} (h : w.buffer.length < chunkSize.1) :
    (w.flush A key).inner = w.total A key chunkSize [] := by
  unfold Writer.flush Writer.total
  rw [List.append_nil]
  split_ifs with hempty
  · rw [hempty, cut_nil, sealChunks, List.append_nil]
  · rw [cut_of_length_le chunkSize.2 hempty (Nat.le_of_lt h), sealChunks, sealChunks,
      List.append_nil]

end Writing

section Reading

inductive IoErrorKind
  | unexpectedEof
  | invalidData
  deriving DecidableEq, Repr

structure Reader where
  restBuffer : Bytes
  nonce : Nonce
  /-- What is left of the reader below. -/
  inner : Bytes

/-- The length of the chunk buffer of `Reader::new`; no vector is longer than `isize::MAX`. -/
def newChunkBuffer (build : Build) (chunkSize : ℕ) : Outcome ℕ := do
  let length ← addU64 build chunkSize tagBytes
  if length < 2 ^ 63 then pure length else .error (.panic .capacityOverflow)

variable (A : Aead) (key : Key) (bufferLength : ℕ)

/-- `_read_chunk`: the chunk and what is left. -/
def readChunk (inner : Bytes) : Except IoErrorKind (Bytes × Bytes) :=
  if inner.take bufferLength = [] then .error .unexpectedEof
  else .ok (inner.take bufferLength, inner.drop bufferLength)

/-- The chunk that is read next, decrypted. -/
def openChunk (nonce : Nonce) (inner : Bytes) : Except IoErrorKind (Bytes × Bytes) := do
  let (chunk, inner) ← readChunk bufferLength inner
  match A.decrypt chunk key nonce with
  | .ok data => .ok (data, inner)
  | .error _ => .error .invalidData

variable {A key bufferLength}

theorem openChunk_eq_ok {nonce : Nonce} {inner data inner' : Bytes}
    (h : openChunk A key bufferLength nonce inner = .ok (data, inner')) :
    inner.take bufferLength ≠ [] ∧ A.decrypt (inner.take bufferLength) key nonce = .ok data ∧
      inner' = inner.drop bufferLength := by
  unfold openChunk readChunk at h
  split_ifs at h with hempty
  · cases h
  · cases hdata : A.decrypt (inner.take bufferLength) key nonce with
    | ok data' =>
      simp only [except_ok_bind, hdata, Except.ok.injEq, Prod.mk.injEq] at h
      obtain ⟨rfl, rfl⟩ := h
      exact ⟨hempty, rfl, rfl⟩
    | error e => simp [hdata] at h

/-- An opened chunk is shorter than what was read for it. -/
theorem length_openChunk {nonce : Nonce} {inner data inner' : Bytes}
    (h : openChunk A key bufferLength nonce inner = .ok (data, inner')) :
    data.length + inner'.length < inner.length := by
  obtain ⟨-, hdata, rfl⟩ := openChunk_eq_ok h
  have hlength := A.length_decrypt _ _ _ _ hdata
  have hsplit := congrArg List.length (List.take_append_drop bufferLength inner)
  rw [List.length_append] at hsplit
  unfold tagBytes at hlength
  omega

variable (A key bufferLength)

/-- The loop of `Reader::read`, with `need` bytes of the buffer still to fill. -/
def Reader.fill (nonce : Nonce) (inner : Bytes) (need : ℕ) : Except IoErrorKind (Bytes × Reader) :=
  if need = 0 then .ok ([], ⟨[], nonce, inner⟩)
  else match _h : openChunk A key bufferLength nonce inner with
    | .error e => .error e
    | .ok (data, inner') =>
      if need < data.length then .ok (data.take need, ⟨data.drop need, nonce.increment, inner'⟩)
      else do
        let (more, r) ← Reader.fill nonce.increment inner' (need - data.length)
        pure (data ++ more, r)
termination_by inner.length
decreasing_by
  have hlength := length_openChunk _h
  omega

/-- Fills a buffer of `count` bytes, from the rest buffer first. -/
def Reader.read (r : Reader) (count : ℕ) : Except IoErrorKind (Bytes × Reader) :=
  if count ≤ r.restBuffer.length then
    .ok (r.restBuffer.take count, { r with restBuffer := r.restBuffer.drop count })
  else do
    let (more, r') ← Reader.fill A key bufferLength r.nonce r.inner (count - r.restBuffer.length)
    pure (r.restBuffer ++ more, r')

/-- The plain bytes that can be read, up to the first chunk that does not open. -/
def plainOf (nonce : Nonce) (inner : Bytes) : Bytes :=
  match _h : openChunk A key bufferLength nonce inner with
  | .error _ => []
  | .ok (data, inner') => data ++ plainOf nonce.increment inner'
termination_by inner.length
decreasing_by
  have hlength := length_openChunk _h
  omega

def Reader.plain (r : Reader) : Bytes := r.restBuffer ++ plainOf A key bufferLength r.nonce r.inner

variable {A key bufferLength}

theorem plainOf_ok {nonce : Nonce} {inner data inner' : Bytes}
    (h : openChunk A key bufferLength nonce inner = .ok (data, inner')) :
    plainOf A key bufferLength nonce inner = data ++
    plainOf A key bufferLength nonce.increment inner' := by
  rw [plainOf]
  split
  · rename_i e he
    rw [h] at he
    cases he
  · rename_i data₁ inner₁ he
    rw [h] at he
    obtain ⟨rfl, rfl⟩ := Prod.mk.inj (Except.ok.inj he)
    rfl

theorem plainOf_error {nonce : Nonce} {inner : Bytes} {e : IoErrorKind}
    (h : openChunk A key bufferLength nonce inner = .error e) :
    plainOf A key bufferLength nonce inner = [] := by
  rw [plainOf]
  split
  · rfl
  · rename_i data₁ inner₁ he
    rw [h] at he
    cases he

variable (A key bufferLength)

/-- The loop takes its bytes off the plain bytes, or they do not suffice. -/
theorem Reader.fill_spec (nonce : Nonce) (inner : Bytes) (need : ℕ) :
    (need ≤ (plainOf A key bufferLength nonce inner).length →
      ∃ r, Reader.fill A key bufferLength nonce inner need = .ok
        ((plainOf A key bufferLength nonce inner).take need, r) ∧
        r.plain A key bufferLength = (plainOf A key bufferLength nonce inner).drop need) ∧
    ((plainOf A key bufferLength nonce inner).length < need →
      ∃ e, Reader.fill A key bufferLength nonce inner need = .error e) := by
  fun_induction Reader.fill A key bufferLength nonce inner need with
  | case1 nonce inner => exact ⟨fun _ => ⟨_, rfl, rfl⟩, fun hlt => absurd hlt (Nat.not_lt_zero _)⟩
  | case2 nonce inner need hneed e he =>
    rw [plainOf_error he]
    refine ⟨fun hle => absurd (Nat.le_zero.mp hle) hneed, fun _ => ⟨e, rfl⟩⟩
  | case3 nonce inner need hneed data inner' hopen hlt =>
    rw [plainOf_ok hopen]
    constructor
    · intro _
      refine ⟨_, by rw [List.take_append_of_le_length (Nat.le_of_lt hlt)], ?_⟩
      rw [List.drop_append_of_le_length (Nat.le_of_lt hlt)]
      rfl
    · intro hshort
      rw [List.length_append] at hshort
      omega
  | case4 nonce inner need hneed data inner' hopen hge ih =>
    rw [plainOf_ok hopen, List.length_append]
    constructor
    · intro hle
      obtain ⟨r, hfill, hplain⟩ := ih.1 (by omega)
      refine ⟨r, ?_, ?_⟩
      · rw [hfill, List.take_append, List.take_of_length_le (Nat.le_of_not_lt hge)]
        rfl
      · rw [hplain, List.drop_append, List.drop_of_length_le (Nat.le_of_not_lt hge),
          List.nil_append]
    · intro hshort
      obtain ⟨e, he⟩ := ih.2 (by omega)
      exact ⟨e, by rw [he]; rfl⟩

/-- `read` takes its bytes off what can be read, or fails. -/
theorem Reader.read_spec (r : Reader) (count : ℕ) :
    (count ≤ (r.plain A key bufferLength).length →
      ∃ r', r.read A key bufferLength count = .ok ((r.plain A key bufferLength).take count, r') ∧
        r'.plain A key bufferLength = (r.plain A key bufferLength).drop count) ∧
    ((r.plain A key bufferLength).length < count →
      ∃ e, r.read A key bufferLength count = .error e) := by
  obtain ⟨hok, herror⟩ :=
    Reader.fill_spec A key bufferLength r.nonce r.inner (count - r.restBuffer.length)
  unfold Reader.read Reader.plain
  rw [List.length_append]
  split_ifs with hrest
  · constructor
    · intro _
      refine ⟨_, by rw [List.take_append_of_le_length hrest], ?_⟩
      rw [List.drop_append_of_le_length hrest]
    · intro hshort
      omega
  · have hlong : r.restBuffer.length ≤ count := Nat.le_of_not_le hrest
    constructor
    · intro hle
      obtain ⟨r', hfill, hplain⟩ := hok (by omega)
      refine ⟨r', ?_, ?_⟩
      · rw [hfill, List.take_append, List.take_of_length_le hlong]
        rfl
      · rw [← Reader.plain, hplain, List.drop_append, List.drop_of_length_le hlong, List.nil_append]
    · intro hshort
      obtain ⟨e, he⟩ := herror (by omega)
      exact ⟨e, by rw [he]; rfl⟩

/-- Reading uses bytes up. -/
def Reader.size (r : Reader) : ℕ := r.restBuffer.length + r.inner.length

variable {A key bufferLength}

theorem Reader.size_fill {nonce : Nonce} {inner : Bytes} {need : ℕ} {data : Bytes} {r : Reader}
    (h : Reader.fill A key bufferLength nonce inner need = .ok (data, r)) :
    r.size + need ≤ inner.length := by
  fun_induction Reader.fill A key bufferLength nonce inner need generalizing data r with
  | case1 nonce inner =>
    obtain ⟨rfl, rfl⟩ := Prod.mk.inj (Except.ok.inj h)
    simp [Reader.size]
  | case2 nonce inner need hneed e he => cases h
  | case3 nonce inner need hneed data' inner' hopen hlt =>
    obtain ⟨rfl, rfl⟩ := Prod.mk.inj (Except.ok.inj h)
    have hlength := length_openChunk hopen
    simp only [Reader.size, List.length_drop]
    omega
  | case4 nonce inner need hneed data' inner' hopen hge ih =>
    obtain ⟨⟨more, r'⟩, hfill, hr⟩ := except_bind_eq_ok.mp h
    obtain ⟨-, rfl⟩ := Prod.mk.inj (Except.ok.inj hr)
    have hlength := length_openChunk hopen
    have hsize := ih hfill
    omega

theorem Reader.size_read {r r' : Reader} {count : ℕ} {data : Bytes}
    (h : r.read A key bufferLength count = .ok (data, r')) : r'.size + count ≤ r.size := by
  unfold Reader.read at h
  split_ifs at h with hrest
  · obtain ⟨-, rfl⟩ := Prod.mk.inj (Except.ok.inj h)
    simp only [Reader.size, List.length_drop]
    omega
  · obtain ⟨⟨more, r₁⟩, hfill, hr⟩ := except_bind_eq_ok.mp h
    obtain ⟨-, rfl⟩ := Prod.mk.inj (Except.ok.inj hr)
    have hsize := Reader.size_fill hfill
    unfold Reader.size at hsize ⊢
    omega

end Reading

section Agreement
variable (A : Aead) (key : Key)

/-- The chunks open with the nonces they were encrypted with. -/
def Opens (nonce : Nonce) (chunks : List Bytes) : Prop :=
  ∀ i chunk, chunks[i]? = some chunk →
    A.decrypt (A.encrypt chunk key (nonce.after i)) key (nonce.after i) = .ok chunk

/-- Nothing else opens: bytes open with a key and a nonce only if they are the encryption of a chunk
with these. -/
structure Ideal (nonce : Nonce) (chunks : List Bytes) : Prop where
  opens : Opens A key nonce chunks
  only : ∀ bytes k n data, A.decrypt bytes k n = .ok data →
    k = key ∧ ∃ i chunk, chunks[i]? = some chunk ∧ n = nonce.after i ∧ bytes = A.encrypt chunk k n

variable {A key}

/-- With less than `2^96` chunks no nonce is used twice, and nothing stands against an ideal
cipher. -/
theorem exists_ideal (A : Aead) (key : Key) {nonce : Nonce} {chunks : List Bytes}
    (hcount : chunks.length < 2 ^ 96) :
    ∃ A' : Aead, A'.encrypt = A.encrypt ∧ Ideal A' key nonce chunks := by
  classical
  let found (bytes : Bytes) (k : Key) (n : Nonce) (chunk : Bytes) : Prop :=
    k = key ∧ ∃ i, chunks[i]? = some chunk ∧ n = nonce.after i ∧ bytes = A.encrypt chunk k n
  let decrypt (bytes : Bytes) (k : Key) (n : Nonce) : IndyResult Bytes :=
    if h : ∃ chunk, found bytes k n chunk then .ok h.choose
    else .error ⟨.invalidStructure, "Unable to open sodium chacha20poly1305_ietf"⟩
  have hdecrypt : ∀ bytes k n data, decrypt bytes k n = .ok data → found bytes k n data := by
    intro bytes k n data h
    simp only [decrypt] at h
    split_ifs at h with hfound
    obtain rfl := Except.ok.inj h
    exact hfound.choose_spec
  have hlength : ∀ bytes k n data, decrypt bytes k n = .ok data → data.length +
      tagBytes = bytes.length := by
    intro bytes k n data h
    obtain ⟨-, i, -, -, rfl⟩ := hdecrypt bytes k n data h
    exact (A.length_encrypt data k n).symm
  refine ⟨⟨A.encrypt, decrypt, A.length_encrypt, hlength⟩, rfl, ?_, ?_⟩
  · intro i chunk hchunk
    have hexists : ∃ c, found (A.encrypt chunk key (nonce.after i)) key (nonce.after i) c :=
      ⟨chunk, rfl, i, hchunk, rfl, rfl⟩
    obtain ⟨-, j, hj, hnonce, -⟩ := hexists.choose_spec
    have hi := (List.getElem?_eq_some_iff.mp hchunk).1
    have hj' := (List.getElem?_eq_some_iff.mp hj).1
    obtain rfl : i = j := Nonce.after_inj nonce (by omega) (by omega) hnonce
    rw [hchunk] at hj
    exact (dif_pos hexists).trans (congrArg Except.ok (Option.some.inj hj).symm)
  · intro bytes k n data h
    obtain ⟨hk, i, hi⟩ := hdecrypt bytes k n data h
    exact ⟨hk, i, data, hi⟩

theorem Opens.tail {nonce : Nonce} {chunk : Bytes} {chunks : List Bytes}
    (h : Opens A key nonce (chunk :: chunks)) :
    Opens A key nonce.increment chunks := by
  intro i c hc
  rw [Nonce.after_increment]
  exact h (i + 1) c hc

/-- Opening what was sealed gives the first chunk. -/
theorem openChunk_seal {chunkSize : ChunkSize} {nonce : Nonce} {data : Bytes}
    (h : A.decrypt (A.encrypt (data.take chunkSize.1) key nonce) key nonce = .ok
      (data.take chunkSize.1)) (n' : Nonce) :
    openChunk A key (chunkSize.1 + tagBytes) nonce
        (A.encrypt (data.take chunkSize.1) key nonce ++
          sealChunks A key n' (cut chunkSize.1 (data.drop chunkSize.1))) =
      .ok (data.take chunkSize.1,
        sealChunks A key n' (cut chunkSize.1 (data.drop chunkSize.1))) := by
  have hlength := A.length_encrypt (data.take chunkSize.1) key nonce
  have hne : A.encrypt (data.take chunkSize.1) key nonce ≠ [] := by
    apply List.ne_nil_of_length_pos
    rw [hlength, tagBytes]
    omega
  have hsplit : ∀ rest, rest = sealChunks A key n' (cut chunkSize.1 (data.drop chunkSize.1)) →
      (A.encrypt (data.take chunkSize.1) key nonce ++ rest).take (chunkSize.1 + tagBytes) =
        A.encrypt (data.take chunkSize.1) key nonce ∧
      (A.encrypt (data.take chunkSize.1) key nonce ++ rest).drop
        (chunkSize.1 + tagBytes) = rest := by
    intro rest hrest
    by_cases hfull : chunkSize.1 ≤ data.length
    · have hchunk : (A.encrypt (data.take chunkSize.1) key nonce).length = chunkSize.1 +
          tagBytes := by
        rw [hlength, List.length_take_of_le hfull]
      exact ⟨List.take_left' hchunk, List.drop_left' hchunk⟩
    · -- the last chunk may be short, and nothing follows it
      rw [List.drop_of_length_le (Nat.le_of_not_le hfull), cut_nil, sealChunks] at hrest
      have hshort : (A.encrypt (data.take chunkSize.1) key nonce).length ≤ chunkSize.1 +
          tagBytes := by
        rw [hlength, List.length_take]
        omega
      rw [hrest, List.append_nil]
      exact ⟨List.take_of_length_le hshort, List.drop_of_length_le hshort⟩
  obtain ⟨htake, hdrop⟩ := hsplit _ rfl
  unfold openChunk readChunk
  rw [htake, hdrop, if_neg hne]
  simp only [except_ok_bind, h]

/-- What was written can be read. -/
theorem plainOf_sealChunks {chunkSize : ChunkSize} {nonce : Nonce} {data : Bytes}
    (h : Opens A key nonce (cut chunkSize.1 data)) :
    plainOf A key (chunkSize.1 + tagBytes) nonce
      (sealChunks A key nonce (cut chunkSize.1 data)) = data := by
  induction hlength : data.length using Nat.strongRecOn generalizing nonce data with
  | _ k ih =>
    by_cases hdata : data = []
    · rw [hdata, cut_nil, sealChunks]
      exact plainOf_error (e := .unexpectedEof) (by simp [openChunk, readChunk])
    · rw [cut_cons chunkSize.2 hdata] at h ⊢
      have hfirst : A.decrypt (A.encrypt (data.take chunkSize.1) key nonce) key nonce = .ok
          (data.take chunkSize.1) :=
        h 0 _ rfl
      have hopen := openChunk_seal hfirst nonce.increment
      have hpos := List.length_pos_of_ne_nil hdata
      have hsize := chunkSize.2
      rw [sealChunks, plainOf_ok hopen,
        ih (data.drop chunkSize.1).length (by rw [List.length_drop]; omega) h.tail rfl,
        List.take_append_drop]

/-- Whatever is read, only chunks that were written are, in the order in which they were written. -/
theorem plainOf_ideal (bufferLength : ℕ) {nonce : Nonce} {chunks : List Bytes}
    (h : Ideal A key nonce chunks)
    (hcount : chunks.length < 2 ^ 96) (inner : Bytes) (i : ℕ) (hi : i ≤ chunks.length) :
    ∃ k, plainOf A key bufferLength (nonce.after i) inner = ((chunks.drop i).take k).flatten ∧
      sealChunks A key (nonce.after i) ((chunks.drop i).take k) <+: inner := by
  induction hlength : inner.length using Nat.strongRecOn generalizing inner i with
  | _ n ih =>
    cases hopen : openChunk A key bufferLength (nonce.after i) inner with
    | error e => exact ⟨0, plainOf_error hopen, List.nil_prefix⟩
    | ok r =>
      obtain ⟨data, inner'⟩ := r
      obtain ⟨-, hdata, hinner'⟩ := openChunk_eq_ok hopen
      obtain ⟨-, j, chunk, hchunk, hnonce, hbytes⟩ := h.only _ _ _ _ hdata
      have hj := (List.getElem?_eq_some_iff.mp hchunk).1
      obtain rfl : i = j := Nonce.after_inj nonce (by omega) (by omega) hnonce
      have hplain : chunk = data := by
        have hopens := h.opens i chunk hchunk
        rw [← hbytes, hdata] at hopens
        exact (Except.ok.inj hopens).symm
      subst hplain
      have hshort := length_openChunk hopen
      obtain ⟨k, hrest, hseal⟩ := ih inner'.length (by omega) inner' (i + 1) hj rfl
      have hdrop : chunks.drop i = chunk :: chunks.drop (i + 1) := by
        rw [List.drop_eq_getElem_cons hj, (List.getElem?_eq_some_iff.mp hchunk).2]
      refine ⟨k + 1, ?_, ?_⟩
      · rw [plainOf_ok hopen, hdrop, List.take_succ_cons, List.flatten_cons, ← hrest]
        rfl
      · rw [hdrop, List.take_succ_cons, sealChunks, ← hbytes]
        have hjoin : inner = inner.take bufferLength ++ inner' := by
          rw [hinner', List.take_append_drop]
        conv_rhs => rw [hjoin]
        exact (List.prefix_append_right_inj _).mpr hseal

theorem plainOf_other_key {bufferLength : ℕ} {nonce : Nonce} {chunks : List Bytes}
    (h : Ideal A key nonce chunks) {k : Key} (hk : k ≠ key) (n : Nonce) (inner : Bytes) :
    plainOf A k bufferLength n inner = [] := by
  cases hopen : openChunk A k bufferLength n inner with
  | error e => exact plainOf_error hopen
  | ok r => exact absurd (h.only _ _ _ _ (openChunk_eq_ok hopen).2.1).1 hk

/-- Reading with any key gives a beginning of what was written, and all of it only if all that was
written is there. -/
theorem plainOf_of_ideal (bufferLength : ℕ) {chunkSize : ChunkSize} {nonce : Nonce} {data : Bytes}
    (hdata : data ≠ []) (h : Ideal A key nonce (cut chunkSize.1 data))
    (hcount : (cut chunkSize.1 data).length < 2 ^ 96) (k : Key)
    (inner : Bytes) : plainOf A k bufferLength nonce inner <+: data ∧
      (plainOf A k bufferLength nonce inner = data →
        sealChunks A key nonce (cut chunkSize.1 data) <+: inner) := by
  by_cases hk : k = key
  · subst hk
    obtain ⟨i, hplain, hseal⟩ := plainOf_ideal bufferLength h hcount inner 0 (Nat.zero_le _)
    rw [List.drop_zero] at hplain hseal
    change plainOf A k bufferLength nonce inner = _ at hplain
    have hsplit : ((cut chunkSize.1 data).take i).flatten ++
        ((cut chunkSize.1 data).drop i).flatten = data := by
      rw [← List.flatten_append, List.take_append_drop, flatten_cut chunkSize.2]
    constructor
    · rw [hplain]
      exact ⟨_, hsplit⟩
    · intro heq
      have hrest : ((cut chunkSize.1 data).drop i).flatten = [] := by
        rw [← hplain, heq] at hsplit
        exact List.self_eq_append_right.mp hsplit.symm
      have hdrop : (cut chunkSize.1 data).drop i = [] := by
        apply List.eq_nil_iff_forall_not_mem.mpr
        intro p hp
        exact ne_nil_of_mem_cut (List.mem_of_mem_drop hp) (List.flatten_eq_nil_iff.mp hrest p hp)
      rw [List.take_of_length_le (List.drop_eq_nil_iff.mp hdrop)] at hseal
      exact hseal
  · rw [plainOf_other_key h hk]
    exact ⟨List.nil_prefix, fun heq => absurd heq.symm hdata⟩

end Agreement

end SimpleAsset.Indy.Wallet
