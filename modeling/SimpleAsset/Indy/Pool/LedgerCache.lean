import SimpleAsset.Indy.Pool.MerkleTreeFactory

/-! The cached ledger: what its file stands for, and that it goes on from the genesis
transactions. -/
namespace SimpleAsset.Indy
open SimpleAsset.Library

theorem dumpVecToFile_append (v w : List Bytes) :
    dumpVecToFile (v ++ w) = dumpVecToFile v ++ dumpVecToFile w :=
  List.flatMap_append

theorem dumpVecToFile_cons (line : Bytes) (v : List Bytes) :
    dumpVecToFile (line :: v) = toLe 8 line.length ++ (line ++ dumpVecToFile v) := by
  rw [dumpVecToFile, List.flatMap_cons, List.append_assoc]
  rfl

section Records
variable {H : Hash} {D : List Bytes} {mt t : MerkleTree} {content : Bytes}

theorem readRecords_of_lt (h : content.length < 8) : readRecords H mt content = .ok mt := by
  rw [readRecords, if_pos h]

/-- A whole record at the beginning of a file. -/
theorem readRecords_record {v : Bytes} (hv : v.length ≤ isizeMax) (rest : Bytes) :
    readRecords H mt (toLe 8 v.length ++ (v ++ rest)) = mt.append H v >>=
    fun mt => readRecords H mt rest := by
  have hlength : (toLe 8 v.length).length = 8 := length_toLe 8 v.length
  have hbytes : ofLe ((toLe 8 v.length ++ (v ++ rest)).take 8) = v.length := by
    rw [List.take_left' hlength]
    apply ofLe_toLe_of_lt
    unfold isizeMax at hv
    omega
  have hdrop : (toLe 8 v.length ++ (v ++ rest)).drop 8 = v ++ rest := List.drop_left' hlength
  rw [readRecords, if_neg (by rw [List.length_append, hlength]; omega), hbytes,
    if_neg (by omega), hdrop,
    if_neg (by rw [List.length_append]; omega), List.take_left, ← List.drop_drop, hdrop,
    List.drop_left]

/-- A file is taken for the records it begins with, where less than a length is left. -/
theorem readRecords_eq_ok_iff (hmt : MerkleTree.fromVec H D = .ok mt) :
    readRecords H mt content = .ok t ↔ ∃ v tail, (∀ line ∈ v, line.length ≤ isizeMax) ∧
      content = dumpVecToFile v ++ tail ∧ tail.length < 8 ∧
      MerkleTree.fromVec H (D ++ v) = .ok t := by
  constructor
  · intro h
    induction hlen : content.length using Nat.strongRecOn generalizing content D mt with
    | ind len ih =>
      subst hlen
      by_cases hshort : content.length < 8
      · rw [readRecords_of_lt hshort] at h
        refine ⟨[], content, by simp, rfl, hshort, ?_⟩
        rw [List.append_nil, hmt, h]
      · rw [readRecords, if_neg hshort] at h
        simp only at h
        split_ifs at h with hcapacity hcut
        · exact nomatch h
        · obtain ⟨mt', hmt', h⟩ := except_bind_eq_ok.mp h
          rw [MerkleTree.append_fromVec H _ hmt] at hmt'
          obtain ⟨v, tail, hv, hrest, htail, ht⟩ :=
            ih _ (by rw [List.length_drop]; omega) hmt' h rfl
          have hline : ((content.drop 8).take (ofLe (content.take 8))).length = ofLe
              (content.take 8) := by
            rw [List.length_take, Nat.min_eq_left (Nat.le_of_not_lt hcut)]
          refine ⟨(content.drop 8).take (ofLe (content.take 8)) :: v, tail, ?_, ?_, htail, ?_⟩
          · intro line hmem
            rcases List.mem_cons.mp hmem with rfl | hmem
            · rw [hline]
              exact Nat.le_of_not_lt hcapacity
            · exact hv line hmem
          · have htake : (content.take 8).length = 8 := by
              rw [List.length_take]
              omega
            have hlength : toLe 8 (ofLe (content.take 8)) = content.take 8 := by
              have hround := toLe_ofLe (content.take 8)
              rwa [htake] at hround
            rw [dumpVecToFile_cons, hline, hlength, List.append_assoc, List.append_assoc, ← hrest,
              ← List.drop_drop, List.take_append_drop, List.take_append_drop]
          · rw [List.append_assoc, List.singleton_append] at ht
            exact ht
  · rintro ⟨v, tail, hv, rfl, htail, ht⟩
    induction v generalizing D mt with
    | nil =>
      rw [List.append_nil, hmt] at ht
      rw [← ht]
      exact readRecords_of_lt htail
    | cons line v ih =>
      obtain ⟨mt', hmt'⟩ := MerkleTree.exists_fromVec H (D ++ [line])
      rw [dumpVecToFile_cons, List.append_assoc, List.append_assoc,
        readRecords_record (hv line List.mem_cons_self),
        MerkleTree.append_fromVec H line hmt, hmt', except_ok_bind]
      apply ih hmt' fun line hline => hv line (List.mem_cons_of_mem _ hline)
      rw [List.append_assoc]
      exact ht

/-- Lines that were written are read back. -/
theorem fromCache_dumpVecToFile {v : List Bytes} (hv : ∀ line ∈ v, line.length ≤ isizeMax) :
    fromCache H (dumpVecToFile v) = MerkleTree.fromVec H v := by
  obtain ⟨t, ht⟩ := MerkleTree.exists_fromVec H v
  rw [fromCache, MerkleTree.fromVec_nil, except_ok_bind, ht]
  apply (readRecords_eq_ok_iff (MerkleTree.fromVec_nil H)).mpr
  exact ⟨v, [], hv, (List.append_nil _).symm, by decide, ht⟩

/-- The part of a length at the end of a file of whole records. -/
def CutInLength (content : Bytes) : Prop :=
  ∃ v tail, (∀ line ∈ v, line.length ≤ isizeMax) ∧ content = dumpVecToFile v ++ tail ∧
    0 < tail.length ∧ tail.length < 8

end Records

section Genesis
variable {env : Env} {files : PoolFiles} {genesis : Bytes} {v new more records : List Bytes}

/-- A line with nothing but whitespace. -/
def IsBlank (line : Option String) : Prop := ∃ text, line = some text ∧ trim text = ""

/-- A line that is blank or a transaction in JSON. -/
def IsTxnLine (env : Env) (line : Option String) : Prop :=
  IsBlank line ∨ ∃ text txn bytes, line = some text ∧ env.parseJson (trim text) = some txn ∧
    env.toVecNamed txn = some bytes

/-- Files hold what was written to them before and what is written now. -/
theorem dumpNewTxns_of_stored (hstored : files.stored = some (dumpVecToFile v))
    (txns : List Bytes) :
    dumpNewTxns env files txns =
      (.ok (), { files with stored := some (dumpVecToFile (v ++ txns)) }) := by
  rw [dumpNewTxns, hstored]
  simp only [appendToStored, hstored, dumpVecToFile_append]

theorem dumpNewTxns_of_genesis (hgenesis : files.genesis = some genesis)
    (hstored : files.stored = none)
    (hrecords : genesisToBinary env genesis = .ok records) (txns : List Bytes) :
    dumpNewTxns env files txns =
      (.ok (), { files with stored := some (dumpVecToFile (records ++ txns)) }) := by
  rw [dumpNewTxns, hstored]
  simp only [dumpGenesisToStored, hgenesis, hrecords, appendToStored, dumpVecToFile_append]

theorem foldlM_append {H : Hash} {D : List Bytes} {t : MerkleTree}
    (ht : MerkleTree.fromVec H D = .ok t) :
    v.foldlM (MerkleTree.append H) t = MerkleTree.fromVec H (D ++ v) := by
  induction v generalizing D t with
  | nil => rw [List.append_nil, ht]; rfl
  | cons line v ih =>
    obtain ⟨t', ht'⟩ := MerkleTree.exists_fromVec H (D ++ [line])
    rw [List.foldlM_cons, MerkleTree.append_fromVec H line ht, ht', except_ok_bind, ih ht',
      List.append_assoc]
    rfl

/-- Encoded transactions, and the empty record of a blank line. -/
def IsRecord (env : Env) (record : Bytes) : Prop :=
  record = [] ∨ ∃ txn, env.toVecNamed txn = some record

/-- The record for a line of the genesis file. -/
theorem exists_record {line : Option String} (h : IsTxnLine env line) :
    ∃ text bytes, readLine line = .ok text ∧
    parseTxnFromJson env text = .ok bytes ∧ IsRecord env bytes ∧
    (IsBlank line ↔ trim text = "") := by
  rcases h with ⟨text, rfl, hblank⟩ | ⟨text, txn, bytes, rfl, hparse, hbytes⟩
  · refine ⟨text, [], rfl, ?_, Or.inl rfl, iff_of_true ⟨text, rfl, hblank⟩ hblank⟩
    simp only [parseTxnFromJson, hblank, if_true]
  · have hiff : IsBlank (some text) ↔ trim text = "" := by
      constructor
      · rintro ⟨text', htext, hblank⟩
        rwa [Option.some.inj htext]
      · exact fun hblank => ⟨text, rfl, hblank⟩
    by_cases hblank : trim text = ""
    · refine ⟨text, [], rfl, ?_, Or.inl rfl, hiff⟩
      simp only [parseTxnFromJson, hblank, if_true]
    · refine ⟨text, bytes, rfl, ?_, Or.inr ⟨txn, hbytes⟩, hiff⟩
      simp only [parseTxnFromJson, if_neg hblank, hparse, hbytes]

/-- Both loops over the same lines: the tree has the records of the lines that are not blank. -/
theorem loops_agree {D : List Bytes} {mt : MerkleTree} {l : List (Option String)}
    (hl : ∀ line ∈ l, IsTxnLine env line) (hmt : MerkleTree.fromVec env.hash D = .ok mt) :
    ∃ records kept, (l.mapM fun line => do parseTxnFromJson env (← readLine line)) = .ok records ∧
      l.foldlM (appendLine env) mt = MerkleTree.fromVec env.hash (D ++ kept) ∧
      (∀ r ∈ records, IsRecord env r) ∧
        kept.length ≤ records.length ∧ (kept = records ↔ ∀ line ∈ l, ¬ IsBlank line) := by
  induction l generalizing D mt with
  | nil =>
    refine ⟨[], [], rfl, ?_, by simp, Nat.le_refl _, by simp⟩
    rw [List.append_nil, hmt]
    rfl
  | cons line l ih =>
    have hrest : ∀ line ∈ l, IsTxnLine env line :=
      fun line hline => hl line (List.mem_cons_of_mem _ hline)
    obtain ⟨text, bytes, hread, hparse, hbytes, hblank⟩ :=
      exists_record (hl line List.mem_cons_self)
    have hrecord : (do parseTxnFromJson env (← readLine line)) = .ok bytes := by
      rw [hread, except_ok_bind, hparse]
    by_cases htrim : trim text = ""
    · have hround : appendLine env mt line = .ok mt := by
        rw [appendLine, hread, ofIndyResult, except_ok_bind, if_pos htrim, except_pure]
      obtain ⟨records, kept, hrecords, hkept, hall, hlength, -⟩ := ih hrest hmt
      refine ⟨bytes :: records, kept, ?_, ?_, List.forall_mem_cons.mpr ⟨hbytes, hall⟩,
        Nat.le_succ_of_le hlength, ?_⟩
      · rw [List.mapM_cons, hrecord, except_ok_bind, hrecords]
        rfl
      · rw [List.foldlM_cons, hround, except_ok_bind, hkept]
      · refine iff_of_false ?_ ?_
        · intro heq
          rw [heq, List.length_cons] at hlength
          omega
        · intro hnone
          exact hnone line List.mem_cons_self (hblank.mpr htrim)
    · obtain ⟨mt', hmt'⟩ := MerkleTree.exists_fromVec env.hash (D ++ [bytes])
      have hround : appendLine env mt line = .ok mt' := by
        rw [appendLine, hread, ofIndyResult, except_ok_bind, if_neg htrim, hparse, ofIndyResult,
          except_ok_bind, MerkleTree.append_fromVec env.hash bytes hmt, hmt']
      obtain ⟨records, kept, hrecords, hkept, hall, hlength, hiff⟩ := ih hrest hmt'
      refine ⟨bytes :: records, bytes :: kept, ?_, ?_, List.forall_mem_cons.mpr ⟨hbytes, hall⟩,
        Nat.succ_le_succ hlength, ?_⟩
      · rw [List.mapM_cons, hrecord, except_ok_bind, hrecords]
        rfl
      · rw [List.foldlM_cons, hround, except_ok_bind, hkept, List.append_assoc]
        rfl
      · rw [List.cons_inj_right, hiff, List.forall_mem_cons, hblank]
        exact ⟨fun h => ⟨htrim, h⟩, fun h => h.2⟩

/-- The cached ledger is that of the genesis file with these transactions after it, and goes on with
the next ones. -/
def CacheContinues (env : Env) (files : PoolFiles) (genesis : Bytes)
    (new more : List Bytes) : Prop :=
  ∃ t₀ t t' files₁ files₂, fromGenesis env genesis = .ok t₀ ∧
    new.foldlM (MerkleTree.append env.hash) t₀ = .ok t ∧
    dumpNewTxns env files new = (.ok (), files₁) ∧ create env files₁ = .ok t ∧
      more.foldlM (MerkleTree.append env.hash) t = .ok t' ∧
      dumpNewTxns env files₁ more = (.ok (), files₂) ∧
        create env files₂ = .ok t'

theorem create_of_stored (hstored : files.stored = some (dumpVecToFile v))
    (hv : ∀ r ∈ v, r.length ≤ isizeMax) :
    create env files = MerkleTree.fromVec env.hash v := by
  rw [create, hstored]
  exact fromCache_dumpVecToFile hv

/-- After both have been written, the cached ledger continues that of the genesis file if both have
the same records. -/
theorem cacheContinues_iff_records {kept : List Bytes} (hgenesis : files.genesis = some genesis)
    (hstored : files.stored = none) (hbinary : genesisToBinary env genesis = .ok records)
    (htree : fromGenesis env genesis = MerkleTree.fromVec env.hash kept)
    (hrecords : ∀ r ∈ records, r.length ≤ isizeMax)
    (hnew : ∀ r ∈ new, r.length ≤ isizeMax) (hmore : ∀ r ∈ more, r.length ≤ isizeMax) :
    CacheContinues env files genesis new more ↔ kept = records := by
  obtain ⟨t₀, ht₀⟩ := MerkleTree.exists_fromVec env.hash kept
  obtain ⟨t, ht⟩ := MerkleTree.exists_fromVec env.hash (kept ++ new)
  have hfirst := dumpNewTxns_of_genesis hgenesis hstored hbinary new
  have hfits : ∀ r ∈ records ++ new, r.length ≤ isizeMax :=
    List.forall_mem_append.mpr ⟨hrecords, hnew⟩
  constructor
  · rintro ⟨t₀', t', -, files₁, -, ht₀', ht', hfiles₁, hcreate, -⟩
    rw [htree, ht₀, Except.ok.injEq] at ht₀'
    rw [← ht₀', foldlM_append ht₀, ht, Except.ok.injEq] at ht'
    rw [hfirst, Prod.mk.injEq] at hfiles₁
    rw [← hfiles₁.2, create_of_stored rfl hfits, ← ht'] at hcreate
    have hiter := (MerkleTree.iter_fromVec ht).symm.trans (MerkleTree.iter_fromVec hcreate)
    exact List.append_cancel_right hiter
  · rintro rfl
    obtain ⟨t', ht'⟩ := MerkleTree.exists_fromVec env.hash (kept ++ new ++ more)
    refine ⟨t₀, t, t', _, _, htree.trans ht₀, (foldlM_append ht₀).trans ht, hfirst, ?_,
      (foldlM_append ht).trans ht', dumpNewTxns_of_stored rfl more, ?_⟩
    · exact (create_of_stored rfl hfits).trans ht
    · exact (create_of_stored rfl (List.forall_mem_append.mpr ⟨hfits, hmore⟩)).trans ht'

/-- The cache goes on from the genesis file exactly if this has no blank lines, which the cache has
as records. -/
theorem cacheContinues_iff
    (hlengths : ∀ txn bytes, env.toVecNamed txn = some bytes → bytes.length ≤ isizeMax)
    (hgenesis : files.genesis = some genesis) (hstored : files.stored = none)
    (hlines : ∀ line ∈ lines genesis, IsTxnLine env line) (hnew : ∀ r ∈ new, r.length ≤ isizeMax)
    (hmore : ∀ r ∈ more, r.length ≤ isizeMax) :
    CacheContinues env files genesis new more ↔ ∀ line ∈ lines genesis, ¬ IsBlank line := by
  obtain ⟨records, kept, hbinary, htree, hall, -, hiff⟩ :=
    loops_agree hlines (MerkleTree.fromVec_nil env.hash)
  rw [← hiff]
  refine cacheContinues_iff_records hgenesis hstored hbinary htree ?_ hnew hmore
  intro r hr
  rcases hall r hr with rfl | ⟨txn, htxn⟩
  · exact Nat.zero_le _
  · exact hlengths txn r htxn

/-- Parsers that know the transaction `1`. -/
def oneTxnEnv : Env :=
  { sampleEnv with
    parseJson := fun text => if text = "1" then some (.number (.posInt 1)) else none }

theorem lines_oneTxn : lines [49] = [some "1"] := by
  decide

theorem cacheContinues_iff_one :
    CacheContinues oneTxnEnv ⟨"\"pool\"", some [49], none⟩ [49] [[5]] [[6]] ↔
      ∀ line ∈ lines [49], ¬ IsBlank line := by
  refine cacheContinues_iff ?_ rfl rfl ?_ (by decide) (by decide)
  · intro txn bytes hbytes
    simp only [oneTxnEnv, sampleEnv] at hbytes
    split at hbytes
    · split_ifs at hbytes
      rw [← Option.some.inj hbytes]
      exact (by decide : 1 ≤ isizeMax)
    · exact nomatch hbytes
  · intro line hline
    rw [lines_oneTxn, List.mem_singleton] at hline
    exact Or.inr ⟨"1", .number (.posInt 1), [1], hline, by decide, by decide⟩

/-- A genesis file of one blank line. -/
theorem not_cacheContinues_blank : (∀ line ∈ lines [10], IsTxnLine sampleEnv line) ∧
    ¬ CacheContinues sampleEnv ⟨"\"pool\"", some [10], none⟩ [10] [] [] := by
  have hlines : lines [10] = [some ""] := by decide
  constructor
  · intro line hline
    rw [hlines, List.mem_singleton] at hline
    exact Or.inl ⟨"", hline, by decide⟩
  · have hbinary : genesisToBinary sampleEnv [10] = .ok [[]] := by decide
    have htree : fromGenesis sampleEnv [10] = MerkleTree.fromVec sampleEnv.hash [] := by decide
    intro h
    have hsame :=
      (cacheContinues_iff_records rfl rfl hbinary htree (by decide) (by simp) (by simp)).mp h
    exact nomatch hsame

end Genesis

end SimpleAsset.Indy
