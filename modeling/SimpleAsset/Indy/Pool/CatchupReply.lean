import SimpleAsset.Indy.Pool.CatchupTarget
import SimpleAsset.Indy.Pool.LedgerCache

/-! Whether a catch-up reply can stop the client or spoil its cache. -/
namespace SimpleAsset.Indy
open SimpleAsset.Library

variable (env : Env)

/-- `_process_catchup_reply` up to the check of the consistency proof. -/
def checkedTxns (rep : CatchupRep) (merkle : MerkleTree) (targetMtRoot : Bytes) (targetMtSize : ℕ) :
    Outcome (MerkleTree × List Bytes) := do
  let (merkle, txnsToDrop) ← appendTxns env rep.txns merkle []
  checkConsProofs env merkle rep.consProof targetMtRoot targetMtSize
  return (merkle, txnsToDrop)

/-- `_process_catchup_reply` with the files it writes to. -/
def processCatchupReplyFiles (files : PoolFiles) (rep : CatchupRep) (merkle : MerkleTree)
    (targetMtRoot : Bytes) (targetMtSize : ℕ) : Outcome MerkleTree × PoolFiles :=
  match checkedTxns env rep merkle targetMtRoot targetMtSize with
  | .error e => (.error e, files)
  | .ok (merkle, txnsToDrop) =>
    let (result, files) := dumpNewTxns env files txnsToDrop
    (do ofResult result; return merkle, files)

variable {env : Env} {files : PoolFiles} {rep : CatchupRep} {merkle t : MerkleTree}
    {leaves acc : List Bytes} {root : Bytes}
  {size : ℕ} {txns : Table String Json}

/-- It is the `_process_catchup_reply` of a host with these files. -/
theorem processCatchupReplyFiles_fst (host : Host) :
    (processCatchupReplyFiles env files rep merkle root size).1 =
      processCatchupReply env
        { host with dumpNewTxns := fun txns => (dumpNewTxns env files txns).1 } rep merkle root
        size := by
  unfold processCatchupReplyFiles processCatchupReply checkedTxns
  rcases appendTxns env rep.txns merkle [] with e | ⟨t, bytes⟩
  · rfl
  · rw [except_ok_bind, except_ok_bind]
    dsimp only
    rcases checkConsProofs env t rep.consProof root size with e | ⟨⟩
    · rfl
    · rfl

/-- All keys are numbers, but one of them is not how its number is written, and the loop gets
there. -/
structure Stuck (env : Env) (txns : Table String Json) : Prop where
  numbers : ∀ key ∈ txns, ∃ n, parseU64 key = some n
  odd : ∃ key ∈ txns, ∃ n, parseU64 key = some n ∧ key ≠ u64ToString n ∧
    ∀ m ≤ n, ∀ txn, txns.lookup (u64ToString m) = some txn →
      ∃ bytes, env.toVecNamed txn = some bytes

theorem minTx_returns (txns : Table String Json) :
    ∃ r : IndyResult ℕ, minTx txns = ofIndyResult r := by
  unfold minTx
  split
  · exact ⟨.error _, rfl⟩
  · split
    · exact ⟨.error _, rfl⟩
    · exact ⟨.ok _, rfl⟩

theorem exists_minTx (hkeys : txns.keys ≠ []) (h : ∀ key ∈ txns, ∃ n, parseU64 key = some n) :
    ∃ n, minTx txns = .ok n := by
  obtain ⟨numbers, hnumbers⟩ := exists_mapM_eq_some fun key hkey => h key (AList.mem_keys.mpr hkey)
  have hne : numbers ≠ [] := by
    rintro rfl
    have hmap := mapM_eq_some_iff.mp hnumbers
    exact hkeys (List.map_eq_nil_iff.mp hmap)
  obtain ⟨n, hn⟩ := Option.isSome_iff_exists.mp (List.isSome_min?_of_ne_nil hne)
  exact ⟨n, minTx_eq_ok_iff.mpr ⟨numbers, hnumbers, hn⟩⟩

/-- The least key is not how its number is written. -/
theorem Stuck.of_missing {n : ℕ} (hn : minTx txns = .ok n)
    (hmissing : txns.lookup (u64ToString n) = none) :
    Stuck env txns := by
  obtain ⟨hall, key, hkey, hparse⟩ := minTx_eq_ok hn
  refine ⟨fun k hk => (hall k hk).imp fun _ h => h.1, key, hkey, n, hparse, ?_, ?_⟩
  · rintro rfl
    exact absurd (AList.lookup_isSome.mpr hkey) (by rw [hmissing]; exact Bool.false_ne_true)
  · intro m hm txn htxn
    have hmem : u64ToString m ∈ txns := AList.lookup_isSome.mp (by rw [htxn]; rfl)
    obtain ⟨m', hm', hle⟩ := hall _ hmem
    rw [parseU64_u64ToString (hm.trans_lt (parseU64_lt hparse)), Option.some.injEq] at hm'
    have hsame : m = n := by omega
    rw [hsame, hmissing] at htxn
    exact nomatch htxn

theorem Stuck.encodes {n : ℕ} {txn : Json} (h : Stuck env txns) (hn : minTx txns = .ok n)
    (htxn : txns.lookup (u64ToString n) = some txn) : ∃ bytes, env.toVecNamed txn = some bytes := by
  obtain ⟨key, hkey, n', hparse, -, hencodes⟩ := h.odd
  obtain ⟨m, hm, hle⟩ := (minTx_eq_ok hn).1 key hkey
  obtain rfl : n' = m := Option.some.inj (hparse.symm.trans hm)
  exact hencodes n hle txn htxn

/-- The first transaction makes no difference, if it can be encoded. -/
theorem stuck_erase_iff {n : ℕ} {txn : Json} {bytes : Bytes} (hn : minTx txns = .ok n)
    (htxn : txns.lookup (u64ToString n) = some txn) (hbytes : env.toVecNamed txn = some bytes) :
    Stuck env (txns.erase (u64ToString n)) ↔ Stuck env txns := by
  obtain ⟨-, key₀, -, hparse₀⟩ := minTx_eq_ok hn
  have hlt := parseU64_lt hparse₀
  constructor
  · intro h
    obtain ⟨key, hkey, m, hparse, hne, hencodes⟩ := h.odd
    refine ⟨?_, key, (AList.mem_erase.mp hkey).2, m, hparse, hne, ?_⟩
    · intro k hk
      by_cases hfirst : k = u64ToString n
      · exact ⟨n, by rw [hfirst, parseU64_u64ToString hlt]⟩
      · exact h.numbers k (AList.mem_erase.mpr ⟨hfirst, hk⟩)
    · intro i hi txn' htxn'
      by_cases hfirst : u64ToString i = u64ToString n
      · rw [hfirst, htxn, Option.some.injEq] at htxn'
        exact ⟨bytes, htxn' ▸ hbytes⟩
      · exact hencodes i hi txn' (by rw [AList.lookup_erase_ne hfirst, htxn'])
  · intro h
    obtain ⟨key, hkey, m, hparse, hne, hencodes⟩ := h.odd
    have hother : key ≠ u64ToString n := by
      rintro rfl
      rw [parseU64_u64ToString hlt, Option.some.injEq] at hparse
      exact hne (by rw [hparse])
    refine ⟨fun k hk => h.numbers k (AList.mem_erase.mp hk).2, key,
      AList.mem_erase.mpr ⟨hother, hkey⟩, m, hparse, hne, ?_⟩
    intro i hi txn' htxn'
    have hmem : u64ToString i ∈ txns.erase (u64ToString n) :=
      AList.lookup_isSome.mp (by rw [htxn']; rfl)
    have hfirst := (AList.mem_erase.mp hmem).1
    exact hencodes i hi txn' (by rw [← AList.lookup_erase_ne hfirst, htxn'])

/-- The loop panics exactly where it gets to a key that is not how its number is written. -/
theorem appendTxns_stuck (ht : MerkleTree.fromVec env.hash leaves = .ok t) :
    (Stuck env txns → appendTxns env txns t acc = .error (.panic .unwrapNone)) ∧
      (¬ Stuck env txns → ∃ r : IndyResult (MerkleTree × List Bytes),
        appendTxns env txns t acc = ofIndyResult r) := by
  induction hlen : txns.keys.length using Nat.strongRecOn generalizing txns leaves acc t with
  | ind len ih =>
    subst hlen
    by_cases hkeys : txns.keys = []
    · rw [appendTxns, if_pos hkeys]
      refine ⟨?_, fun _ => ⟨.ok _, rfl⟩⟩
      intro h
      obtain ⟨key, hkey, -⟩ := h.odd
      exact absurd (AList.mem_keys.mp hkey) (by rw [hkeys]; exact List.not_mem_nil)
    · rw [appendTxns, if_neg hkeys]
      obtain ⟨r, hr⟩ := minTx_returns txns
      rcases r with e | n
      · rw [hr]
        refine ⟨?_, fun _ => ⟨.error e, rfl⟩⟩
        intro h
        obtain ⟨n, hn⟩ := exists_minTx hkeys h.numbers
        cases hn.symm.trans hr
      · have hn : minTx txns = .ok n := hr
        rw [hn, except_ok_bind]
        split
        · rename_i hmissing
          exact ⟨fun _ => rfl, fun h => absurd (Stuck.of_missing hn hmissing) h⟩
        · rename_i txn htxn
          split
          · rename_i hnone
            refine ⟨?_, fun _ => ⟨.error _, rfl⟩⟩
            intro h
            obtain ⟨bytes, hbytes⟩ := h.encodes hn htxn
            cases hnone.symm.trans hbytes
          · rename_i bytes hbytes
            obtain ⟨t', ht'⟩ := MerkleTree.exists_fromVec env.hash (leaves ++ [bytes])
            have hmem : u64ToString n ∈ txns := AList.lookup_isSome.mp (by rw [htxn]; rfl)
            rw [MerkleTree.append_fromVec env.hash bytes ht, ht', except_ok_bind,
              ← stuck_erase_iff hn htxn hbytes]
            exact ih _ (length_keys_erase_lt hmem) ht' rfl

theorem consistencyProof_returns (H : Hash) (root : Bytes) (size : ℕ) (mt : MerkleTree)
    (proofs : List Bytes) :
    (size < mt.count → mt.consistencyProof H root size proofs = .error (.panic .assertionFailed)) ∧
      (mt.count ≤ size → ∃ b, mt.consistencyProof H root size proofs = .ok b) := by
  unfold MerkleTree.consistencyProof
  constructor
  · intro h
    rw [if_neg (by omega), if_neg (by omega), if_pos h]
  · intro h
    split_ifs with hempty hsame hbig
    · exact ⟨true, rfl⟩
    · exact ⟨true, rfl⟩
    · omega
    · split
      split
      · exact ⟨false, rfl⟩
      · split
        · exact ⟨false, rfl⟩
        · exact ⟨_, rfl⟩

/-- The check panics exactly for a proof that can be read and a tree larger than the target. -/
theorem checkConsProofs_returns (env : Env) (mt : MerkleTree) (consProofs : List String)
    (root : Bytes) (size : ℕ) :
    ((∃ proofs, consProofs.mapM env.fromBase58 = some proofs) ∧ size < mt.count →
      checkConsProofs env mt consProofs root size = .error (.panic .assertionFailed)) ∧
    (¬ ((∃ proofs, consProofs.mapM env.fromBase58 = some proofs) ∧ size < mt.count) →
      ∃ r : IndyResult Unit, checkConsProofs env mt consProofs root size = ofIndyResult r) := by
  unfold checkConsProofs
  rcases consProofs.mapM env.fromBase58 with _ | proofs
  · refine ⟨?_, fun _ => ⟨.error _, rfl⟩⟩
    rintro ⟨⟨proofs, hproofs⟩, -⟩
    exact nomatch hproofs
  · obtain ⟨hpanic, hreturns⟩ := consistencyProof_returns env.hash root size mt proofs
    constructor
    · rintro ⟨-, hlt⟩
      simp only [hpanic hlt, except_error_bind]
    · intro hnot
      have hle : mt.count ≤ size := Nat.le_of_not_lt fun hlt => hnot ⟨⟨proofs, rfl⟩, hlt⟩
      obtain ⟨b, hb⟩ := hreturns hle
      simp only [hb, except_ok_bind]
      cases b with
      | true => exact ⟨.ok (), rfl⟩
      | false => exact ⟨.error _, rfl⟩

/-- A line that is read and encoded is blank or a transaction. -/
theorem isTxnLine_of_record {line : Option String} {bytes : Bytes}
    (h : (do parseTxnFromJson env (← readLine line)) = Except.ok bytes) : IsTxnLine env line := by
  rcases line with _ | text
  · cases h
  · rw [readLine, except_ok_bind] at h
    by_cases hblank : trim text = ""
    · exact Or.inl ⟨text, rfl, hblank⟩
    · rw [parseTxnFromJson] at h
      simp only [if_neg hblank] at h
      split at h
      · cases h
      · rename_i txn htxn
        split at h
        · cases h
        · rename_i record hrecord
          exact Or.inr ⟨text, txn, record, rfl, htxn, hrecord⟩

theorem genesisToBinary_ok_iff {genesis : Bytes} :
    (∃ records, genesisToBinary env genesis = .ok records) ↔
    ∀ line ∈ lines genesis, IsTxnLine env line := by
  constructor
  · rintro ⟨records, hrecords⟩ line hline
    obtain ⟨i, hi⟩ := List.getElem?_of_mem hline
    obtain ⟨bytes, hbytes, -⟩ := getElem?_of_mapM hrecords hi
    exact isTxnLine_of_record hbytes
  · intro h
    obtain ⟨records, kept, hrecords, -⟩ := loops_agree h (MerkleTree.fromVec_nil env.hash)
    exact ⟨records, hrecords⟩

/-- There is no cache, and the genesis file that is copied to it has a line that is neither blank
nor a transaction. -/
def GenesisMalformed (env : Env) (files : PoolFiles) : Prop :=
  files.stored = none ∧ ∃ genesis, files.genesis = some genesis ∧
    ∃ line ∈ lines genesis, ¬ IsTxnLine env line

/-- Writing that fails leaves an empty file if the genesis file is there. -/
theorem dumpNewTxns_cases (env : Env) (files : PoolFiles) (txns : List Bytes) :
    (∃ files', dumpNewTxns env files txns = (.ok (), files') ∧ ¬ GenesisMalformed env files) ∨
      ∃ e files', dumpNewTxns env files txns = (.error e, files') ∧
        (files'.stored = files.stored ↔ ¬ GenesisMalformed env files) := by
  unfold dumpNewTxns
  rcases hstored : files.stored with _ | stored
  · rcases hgenesis : files.genesis with _ | genesis
    · refine Or.inr
        ⟨_, files, by simp only [dumpGenesisToStored, hgenesis]; rfl, iff_of_true hstored ?_⟩
      rintro ⟨-, genesis, hsome, -⟩
      cases hgenesis.symm.trans hsome
    · rcases hbinary : genesisToBinary env genesis with e | records
      · refine Or.inr
          ⟨e, { files with stored := some [] }, ?_, iff_of_false (fun h => absurd h (by simp)) ?_⟩
        · simp only [dumpGenesisToStored, hgenesis, hbinary]
        rw [not_not]
        refine ⟨hstored, genesis, hgenesis, ?_⟩
        by_contra hall
        simp only [not_exists, not_and, not_not] at hall
        obtain ⟨records, hrecords⟩ := genesisToBinary_ok_iff.mpr hall
        cases hbinary.symm.trans hrecords
      · refine Or.inl
          ⟨{ files with stored := some (dumpVecToFile records ++ dumpVecToFile txns) }, ?_, ?_⟩
        · simp only [dumpGenesisToStored, hgenesis, hbinary, appendToStored]
        rintro ⟨-, genesis', hsome, line, hline, hnot⟩
        obtain rfl : genesis = genesis' := Option.some.inj (hgenesis.symm.trans hsome)
        exact hnot (genesisToBinary_ok_iff.mp ⟨records, hbinary⟩ line hline)
  · refine Or.inl ⟨{ files with stored := some (stored ++ dumpVecToFile txns) }, ?_, ?_⟩
    · simp only [appendToStored, hstored]
    rintro ⟨hnone, -⟩
    cases hstored.symm.trans hnone

/-- The reply is answered, and the cache is as it was if the answer is an error. -/
structure ReplySafe (env : Env) (files : PoolFiles) (rep : CatchupRep) (merkle : MerkleTree)
    (root : Bytes) (size : ℕ) :
    Prop where
  returns : ∃ r : IndyResult MerkleTree,
    (processCatchupReplyFiles env files rep merkle root size).1 = ofIndyResult r
  unchanged : ∀ e, (processCatchupReplyFiles env files rep merkle root size).1 = .error e →
    (processCatchupReplyFiles env files rep merkle root size).2.stored = files.stored

/-- The reply has numbered transactions that can all be encoded, in this order. -/
def Readable (env : Env) (rep : CatchupRep) (bytes : List Bytes) : Prop :=
  ∃ seqNos, InOrder rep.txns seqNos ∧ txnBytes env rep.txns seqNos = some bytes

/-- There are more transactions than up to the target, and a consistency proof that can be read. -/
def Overshoots (env : Env) (leaves : List Bytes) (rep : CatchupRep) (size : ℕ) : Prop :=
  ∃ bytes, Readable env rep bytes ∧ (∃ proofs, rep.consProof.mapM env.fromBase58 = some proofs) ∧
    size < leaves.length + bytes.length

/-- The transactions are proved, but there is nothing they can be added to. -/
def SpoilsCache (env : Env) (files : PoolFiles) (leaves : List Bytes) (rep : CatchupRep)
    (root : Bytes) (size : ℕ) : Prop :=
  (∃ bytes t, Readable env rep bytes ∧ MerkleTree.fromVec env.hash (leaves ++ bytes) = .ok t ∧
    checkConsProofs env t rep.consProof root size = .ok ()) ∧ GenesisMalformed env files

theorem readable_iff (hm : MerkleTree.fromVec env.hash leaves = .ok merkle) {bytes : List Bytes} :
    Readable env rep bytes ↔ ∃ t, appendTxns env rep.txns merkle [] = .ok (t, bytes) ∧
      MerkleTree.fromVec env.hash (leaves ++ bytes) = .ok t := by
  obtain ⟨t, ht⟩ := MerkleTree.exists_fromVec env.hash (leaves ++ bytes)
  constructor
  · rintro ⟨seqNos, hord, hbytes⟩
    exact ⟨t, (appendTxns_eq_ok_iff hm).mpr ⟨seqNos, bytes, hord, hbytes, rfl, ht⟩, ht⟩
  · rintro ⟨t', happend, -⟩
    obtain ⟨seqNos, bytes', hord, hbytes, hsame, -⟩ := (appendTxns_eq_ok_iff hm).mp happend
    rw [List.nil_append] at hsame
    exact ⟨seqNos, hord, hsame ▸ hbytes⟩

theorem not_ofIndyResult_panic {α : Type} {r : IndyResult α} {p : Panic} :
    ofIndyResult r ≠ .error (.panic p) := by
  rcases r with e | a
  · exact fun h => nomatch h
  · exact fun h => nomatch h

theorem not_replySafe_of_panic {p : Panic}
    (h : checkedTxns env rep merkle root size = .error (.panic p)) :
    ¬ ReplySafe env files rep merkle root size := by
  intro hsafe
  obtain ⟨r, hr⟩ := hsafe.returns
  rw [processCatchupReplyFiles, h] at hr
  exact not_ofIndyResult_panic hr.symm

theorem replySafe_of_err {e : IndyError}
    (h : checkedTxns env rep merkle root size = .error (.err e)) :
    ReplySafe env files rep merkle root size := by
  constructor
  · rw [processCatchupReplyFiles, h]
    exact ⟨.error e, rfl⟩
  · intro e' he'
    rw [processCatchupReplyFiles, h]

/-- With the transactions proved, it is a matter of the files. -/
theorem replySafe_iff_of_checked {bytes : List Bytes}
    (h : checkedTxns env rep merkle root size = .ok (t, bytes)) :
    ReplySafe env files rep merkle root size ↔ ¬ GenesisMalformed env files := by
  rcases dumpNewTxns_cases env files bytes
    with ⟨files', hdump, hgenesis⟩ | ⟨e, files', hdump, hgenesis⟩
  · have hprocess : processCatchupReplyFiles env files rep merkle root size = (.ok t, files') := by
      rw [processCatchupReplyFiles, h]
      simp only [hdump, ofResult, except_ok_bind, except_pure]
    refine iff_of_true ⟨⟨.ok t, by rw [hprocess]; rfl⟩, ?_⟩ hgenesis
    intro e he
    rw [hprocess] at he
    cases he
  · have hprocess : processCatchupReplyFiles env files rep merkle root size =
        (.error (.err e), files') := by
      rw [processCatchupReplyFiles, h]
      simp only [hdump, ofResult, except_error_bind]
    rw [← hgenesis]
    constructor
    · intro hsafe
      have hunchanged := hsafe.unchanged (.err e) (by rw [hprocess])
      rwa [hprocess] at hunchanged
    · intro hsame
      refine ⟨⟨.error e, by rw [hprocess]; rfl⟩, ?_⟩
      intro e' he'
      rwa [hprocess]

section Appended
variable {bytes : List Bytes} (hm : MerkleTree.fromVec env.hash leaves = .ok merkle)
  (happend : appendTxns env rep.txns merkle [] = .ok (t, bytes))
include hm happend

theorem fromVec_of_appended : MerkleTree.fromVec env.hash (leaves ++ bytes) = .ok t := by
  obtain ⟨seqNos, bytes', -, -, hsame, ht⟩ := (appendTxns_eq_ok_iff hm).mp happend
  rw [List.nil_append] at hsame
  rwa [hsame]

theorem readable_iff_of_appended {bytes' : List Bytes} :
    Readable env rep bytes' ↔ bytes' = bytes := by
  rw [readable_iff hm]
  constructor
  · rintro ⟨t', happend', -⟩
    exact (Prod.mk.inj (Except.ok.inj (happend'.symm.trans happend))).2
  · rintro rfl
    exact ⟨t, happend, fromVec_of_appended hm happend⟩

theorem overshoots_iff_of_appended : Overshoots env leaves rep size ↔
    (∃ proofs, rep.consProof.mapM env.fromBase58 = some proofs) ∧ size < t.count := by
  have hcount : t.count = leaves.length + bytes.length := by
    rw [MerkleTree.count_fromVec (fromVec_of_appended hm happend), List.length_append]
  rw [hcount]
  constructor
  · rintro ⟨bytes', hreadable, hproofs, hlt⟩
    rw [(readable_iff_of_appended hm happend).mp hreadable] at hlt
    exact ⟨hproofs, hlt⟩
  · rintro ⟨hproofs, hlt⟩
    exact ⟨bytes, (readable_iff_of_appended hm happend).mpr rfl, hproofs, hlt⟩

theorem spoilsCache_iff_of_appended : SpoilsCache env files leaves rep root size ↔
    checkConsProofs env t rep.consProof root size = .ok () ∧ GenesisMalformed env files := by
  have ht := fromVec_of_appended hm happend
  constructor
  · rintro ⟨⟨bytes', t', hreadable, ht', hcheck⟩, hgenesis⟩
    rw [(readable_iff_of_appended hm happend).mp hreadable, ht, Except.ok.injEq] at ht'
    exact ⟨ht' ▸ hcheck, hgenesis⟩
  · rintro ⟨hcheck, hgenesis⟩
    exact ⟨⟨bytes, t, (readable_iff_of_appended hm happend).mpr rfl, ht, hcheck⟩, hgenesis⟩

/-- With the transactions read, it is a matter of the proof and the files. -/
theorem replySafe_iff_of_appended : ReplySafe env files rep merkle root size ↔
    ¬ Overshoots env leaves rep size ∧ ¬ SpoilsCache env files leaves rep root size := by
  obtain ⟨hassert, hanswer⟩ := checkConsProofs_returns env t rep.consProof root size
  rw [overshoots_iff_of_appended hm happend, spoilsCache_iff_of_appended hm happend]
  by_cases hbig : (∃ proofs, rep.consProof.mapM env.fromBase58 = some proofs) ∧ size < t.count
  · refine iff_of_false (not_replySafe_of_panic (p := .assertionFailed) ?_) fun h => h.1 hbig
    rw [checkedTxns, happend, except_ok_bind]
    simp only [hassert hbig, except_error_bind]
  · obtain ⟨r, hcheck⟩ := hanswer hbig
    rcases r with e | ⟨⟩
    · refine iff_of_true (replySafe_of_err (e := e) ?_) ⟨hbig, ?_⟩
      · rw [checkedTxns, happend, except_ok_bind]
        simp only [hcheck]
        rfl
      · rintro ⟨hok, -⟩
        exact nomatch hcheck.symm.trans hok
    · have hok : checkConsProofs env t rep.consProof root size = .ok () := hcheck
      have hchecked : checkedTxns env rep merkle root size = .ok (t, bytes) := by
        rw [checkedTxns, happend, except_ok_bind]
        simp only [hok, except_ok_bind, except_pure]
      rw [replySafe_iff_of_checked hchecked]
      constructor
      · intro hgenesis
        exact ⟨hbig, fun h => hgenesis h.2⟩
      · intro h hgenesis
        exact h.2 ⟨hok, hgenesis⟩

end Appended

/-- A reply is answered without a panic, and the cache is left alone by one that is refused, unless
a key is found that is not how its number is written, the transactions go beyond the target, or the
genesis file is malformed. -/
theorem replySafe_iff (hm : MerkleTree.fromVec env.hash leaves = .ok merkle) :
    ReplySafe env files rep merkle root size ↔
      ¬ Stuck env rep.txns ∧ ¬ Overshoots env leaves rep size ∧
      ¬ SpoilsCache env files leaves rep root size := by
  have happends :
      (Stuck env rep.txns → appendTxns env rep.txns merkle [] = .error (.panic .unwrapNone)) ∧
      (¬ Stuck env rep.txns → ∃ r : IndyResult (MerkleTree × List Bytes),
        appendTxns env rep.txns merkle [] = ofIndyResult r) := appendTxns_stuck hm
  obtain ⟨hpanic, hreturns⟩ := happends
  by_cases hstuck : Stuck env rep.txns
  · refine iff_of_false (not_replySafe_of_panic (p := .unwrapNone) ?_) fun h => h.1 hstuck
    rw [checkedTxns, hpanic hstuck, except_error_bind]
  · obtain ⟨r, hr⟩ := hreturns hstuck
    rcases r with e | ⟨t, bytes⟩
    · have hnot : ∀ bytes, ¬ Readable env rep bytes := by
        intro bytes hreadable
        obtain ⟨t, ht, -⟩ := (readable_iff hm).mp hreadable
        exact nomatch ht.symm.trans hr
      refine iff_of_true (replySafe_of_err (e := e) ?_) ⟨hstuck, ?_, ?_⟩
      · rw [checkedTxns, hr]
        rfl
      · rintro ⟨bytes, hreadable, -⟩
        exact hnot bytes hreadable
      · rintro ⟨⟨bytes, t, hreadable, -⟩, -⟩
        exact hnot bytes hreadable
    · rw [replySafe_iff_of_appended hm hr]
      exact ⟨fun h => ⟨hstuck, h⟩, fun h => h.2⟩

theorem replySafe_iff_shortRep :
    ReplySafe sampleEnv ⟨"\"pool\"", none, none⟩ shortRep
      ⟨.newLeaf taggedHash [1], 0, 1, 0⟩ sampleLedger.rootHash 3 ↔
      ¬ Stuck sampleEnv shortRep.txns ∧ ¬ Overshoots sampleEnv [[1]] shortRep 3 ∧
        ¬ SpoilsCache sampleEnv ⟨"\"pool\"", none, none⟩ [[1]] shortRep sampleLedger.rootHash 3 :=
  replySafe_iff (by decide +kernel)

/-- A key with a leading zero. -/
def oddRep : CatchupRep := ⟨0, ["14"], AList.singleton "05" (.number (.posInt 2))⟩

theorem not_replySafe_oddRep : ∃ merkle, MerkleTree.fromVec sampleEnv.hash [[1]] = .ok merkle ∧
    merkle.count < 3 ∧
    ¬ ReplySafe sampleEnv ⟨"\"pool\"", none, none⟩ oddRep merkle sampleLedger.rootHash 3 := by
  refine ⟨⟨.newLeaf taggedHash [1], 0, 1, 0⟩, by decide +kernel, by decide, ?_⟩
  exact not_replySafe_of_panic (p := .unwrapNone) (by decide +kernel)

end SimpleAsset.Indy
