import SimpleAsset.Indy.Pool.RequestHandler

/-! What a finished catch-up has reached. -/
namespace SimpleAsset.Indy
open SimpleAsset.Library

/-- The keys of a reply are the numerals of these sequence numbers, in increasing order. -/
structure InOrder (txns : Table String Json) (seqNos : List ℕ) : Prop where
  sorted : seqNos.Pairwise (· < ·)
  keys : ∀ k, k ∈ txns ↔ ∃ n ∈ seqNos, k = u64ToString n
  bounded : ∀ n ∈ seqNos, n < 2 ^ 64

/-- Transactions with these sequence numbers, serialised. -/
def txnBytes (env : Env) (txns : Table String Json) (seqNos : List ℕ) : Option (List Bytes) :=
  seqNos.mapM fun n => (txns.lookup (u64ToString n)).bind env.toVecNamed

theorem minTx_eq_ok_iff {txns : Table String Json} {m : ℕ} :
    minTx txns = .ok m ↔ ∃ l, txns.keys.mapM parseU64 = some l ∧ l.min? = some m := by
  unfold minTx
  split
  · rename_i hmap
    simp [errMsg, hmap]
  · rename_i l hmap
    split <;> simp_all [errMsg]

/-- `min_tx` succeeds only on keys that all parse, and then finds their least value. -/
theorem minTx_eq_ok {txns : Table String Json} {m : ℕ} (h : minTx txns = .ok m) :
    (∀ k ∈ txns, ∃ n, parseU64 k = some n ∧ m ≤ n) ∧ ∃ k ∈ txns, parseU64 k = some m := by
  obtain ⟨l, hmap, hmin⟩ := minTx_eq_ok_iff.mp h
  rw [mapM_eq_some_iff] at hmap
  obtain ⟨hm, hle⟩ := List.min?_eq_some_iff.mp hmin
  constructor
  · intro k hk
    have hmem : parseU64 k ∈ l.map some := by
      rw [← hmap]
      exact List.mem_map_of_mem (AList.mem_keys.mp hk)
    obtain ⟨n, hn, heq⟩ := List.mem_map.mp hmem
    exact ⟨n, heq.symm, hle n hn⟩
  · have hmem : some m ∈ txns.keys.map parseU64 := by
      rw [hmap]
      exact List.mem_map_of_mem hm
    obtain ⟨k, hk, heq⟩ := List.mem_map.mp hmem
    exact ⟨k, AList.mem_keys.mpr hk, heq⟩

variable {env : Env}

/-- The least key comes first, the rest without it follow. -/
theorem inOrder_cons_iff {txns : Table String Json} {n : ℕ} {seqNos : List ℕ}
    (hn : minTx txns = .ok n) (hmem : u64ToString n ∈ txns) :
    InOrder txns (n :: seqNos) ↔ InOrder (txns.erase (u64ToString n)) seqNos := by
  obtain ⟨hall, k, hk, hkn⟩ := minTx_eq_ok hn
  have hbound := parseU64_lt hkn
  constructor
  · intro h
    have hlt := List.pairwise_cons.mp h.sorted
    refine ⟨hlt.2, ?_, fun m hm => h.bounded m (by simp [hm])⟩
    intro k'
    rw [AList.mem_erase, h.keys]
    constructor
    · intro ⟨hne, m, hm, hk'⟩
      rcases List.mem_cons.mp hm with rfl | hm
      · exact absurd hk' hne
      · exact ⟨m, hm, hk'⟩
    · intro ⟨m, hm, hk'⟩
      refine ⟨?_, m, by simp [hm], hk'⟩
      intro heq
      have := u64ToString_inj (hk'.symm.trans heq)
      have := hlt.1 m hm
      omega
  · intro h
    refine ⟨List.pairwise_cons.mpr ⟨?_, h.sorted⟩, ?_, ?_⟩
    · intro m hm
      have hm' : u64ToString m ∈ txns.erase (u64ToString n) := (h.keys _).mpr ⟨m, hm, rfl⟩
      rw [AList.mem_erase] at hm'
      obtain ⟨m', hpm, hle⟩ := hall _ hm'.2
      rw [parseU64_u64ToString (h.bounded m hm), Option.some.injEq] at hpm
      have hne : m ≠ n := fun heq => hm'.1 (by rw [heq])
      omega
    · intro k'
      by_cases hk' : k' = u64ToString n
      · exact ⟨fun _ => ⟨n, by simp, hk'⟩, fun _ => by rwa [hk']⟩
      · have hiff := h.keys k'
        rw [AList.mem_erase] at hiff
        simp only [hk', ne_eq, not_false_eq_true, true_and] at hiff
        rw [hiff]
        simp [hk']
    · intro m hm
      rcases List.mem_cons.mp hm with rfl | hm
      · exact hbound
      · exact h.bounded m hm

theorem minTx_of_inOrder {txns : Table String Json} {n : ℕ} {seqNos : List ℕ}
    (h : InOrder txns (n :: seqNos)) :
    minTx txns = .ok n := by
  have hparse : ∀ k ∈ txns.keys, ∃ m ∈ n :: seqNos, parseU64 k = some m := by
    intro k hk
    obtain ⟨m, hm, rfl⟩ := (h.keys k).mp (AList.mem_keys.mpr hk)
    exact ⟨m, hm, parseU64_u64ToString (h.bounded m hm)⟩
  obtain ⟨l, hl⟩ := exists_mapM_eq_some fun k hk => (hparse k hk).imp fun _ hm => hm.2
  have hmap := mapM_eq_some_iff.mp hl
  refine minTx_eq_ok_iff.mpr ⟨l, hl, List.min?_eq_some_iff.mpr ⟨?_, ?_⟩⟩
  · have hn : u64ToString n ∈ txns := (h.keys _).mpr ⟨n, by simp, rfl⟩
    have hmem : some n ∈ l.map some := by
      rw [← hmap, ← parseU64_u64ToString (h.bounded n (by simp))]
      exact List.mem_map_of_mem (AList.mem_keys.mp hn)
    simpa using hmem
  · intro m hm
    have hmem : some m ∈ txns.keys.map parseU64 := by
      rw [hmap]
      exact List.mem_map_of_mem hm
    obtain ⟨k, hk, hkm⟩ := List.mem_map.mp hmem
    obtain ⟨m', hm', hkm'⟩ := hparse k hk
    rw [hkm, Option.some.injEq] at hkm'
    subst hkm'
    rcases List.mem_cons.mp hm' with rfl | hm'
    · exact le_rfl
    · exact ((List.pairwise_cons.mp h.sorted).1 m hm').le

/-- Serialising in order: the first transaction, then those of the table without it. -/
theorem txnBytes_cons {txns : Table String Json} {n : ℕ} {seqNos : List ℕ} {txn : Json}
    {bytes : List Bytes}
    (h : InOrder txns (n :: seqNos)) (htxn : txns.lookup (u64ToString n) = some txn) :
    txnBytes env txns (n :: seqNos) = some bytes ↔ ∃ b bs, env.toVecNamed txn = some b ∧
      txnBytes env (txns.erase (u64ToString n)) seqNos = some bs ∧ bytes = b :: bs := by
  have hrest : seqNos.map (fun m => (txns.lookup (u64ToString m)).bind env.toVecNamed) =
      seqNos.map fun m =>
        ((txns.erase (u64ToString n)).lookup (u64ToString m)).bind env.toVecNamed := by
    apply List.map_congr_left
    intro m hm
    have hne : u64ToString m ≠ u64ToString n := by
      intro heq
      have := u64ToString_inj heq
      have := (List.pairwise_cons.mp h.sorted).1 m hm
      omega
    rw [AList.lookup_erase_ne hne]
  unfold txnBytes
  simp only [mapM_eq_some_iff, List.map_cons, htxn, Option.bind_some, hrest]
  cases bytes with
  | nil => simp
  | cons b bs => simp [and_left_comm]

theorem length_keys_erase_lt {txns : Table String Json} {k : String} (hk : k ∈ txns) :
    (txns.erase k).keys.length < txns.keys.length := by
  rw [AList.keys_erase, List.length_erase_of_mem (AList.mem_keys.mp hk)]
  have := List.length_pos_of_mem (AList.mem_keys.mp hk)
  omega

/-- One round of the loop. -/
theorem appendTxns_step {txns : Table String Json} {t : MerkleTree} {acc : List Bytes}
    {r : MerkleTree × List Bytes} (hkeys : txns.keys ≠ []) :
    appendTxns env txns t acc = .ok r ↔ ∃ n txn b t', minTx txns = .ok n ∧
      txns.lookup (u64ToString n) = some txn ∧ env.toVecNamed txn = some b ∧
      t.append env.hash b = .ok t' ∧
      appendTxns env (txns.erase (u64ToString n)) t' (acc ++ [b]) = .ok r := by
  rw [appendTxns, if_neg hkeys, except_bind_eq_ok]
  constructor
  · rintro ⟨n, hn, h⟩
    split at h
    · cases h
    · rename_i txn htxn
      split at h
      · cases h
      · rename_i b hb
        obtain ⟨t', ht', h⟩ := except_bind_eq_ok.mp h
        exact ⟨n, txn, b, t', hn, htxn, hb, ht', h⟩
  · rintro ⟨n, txn, b, t', hn, htxn, hb, ht', h⟩
    refine ⟨n, hn, ?_⟩
    split
    · rename_i hnone
      rw [htxn] at hnone
      cases hnone
    · rename_i txn' htxn'
      rw [htxn, Option.some.injEq] at htxn'
      subst htxn'
      rw [hb]
      exact except_bind_eq_ok.mpr ⟨t', ht', h⟩

theorem inOrder_iff_nil {txns : Table String Json} {seqNos : List ℕ} (h : txns.keys = []) :
    InOrder txns seqNos ↔ seqNos = [] := by
  constructor
  · intro hord
    apply List.eq_nil_iff_forall_not_mem.mpr
    intro n hn
    have hk := AList.mem_keys.mp ((hord.keys (u64ToString n)).mpr ⟨n, hn, rfl⟩)
    simp [h] at hk
  · intro hnil
    subst hnil
    refine ⟨.nil, ?_, by simp⟩
    intro k
    rw [AList.mem_keys, h]
    simp

/-- The loop builds the tree of the local leaves followed by the reply's transactions in order. -/
theorem appendTxns_eq_ok_iff {txns : Table String Json} {leaves acc acc' : List Bytes}
    {t t' : MerkleTree} (ht : MerkleTree.fromVec env.hash leaves = .ok t) :
    appendTxns env txns t acc = .ok (t', acc') ↔ ∃ seqNos bytes, InOrder txns seqNos ∧
      txnBytes env txns seqNos = some bytes ∧ acc' = acc ++ bytes ∧
      MerkleTree.fromVec env.hash (leaves ++ bytes) = .ok t' := by
  induction hlen : txns.keys.length using Nat.strongRecOn generalizing txns leaves acc t with
  | ind len ih =>
    subst hlen
    by_cases hkeys : txns.keys = []
    · rw [appendTxns, if_pos hkeys]
      simp only [inOrder_iff_nil hkeys, exists_and_left, exists_eq_left, txnBytes]
      simp [ht, eq_comm, and_comm]
    · rw [appendTxns_step hkeys]
      constructor
      · intro ⟨n, txn, b, v, hn, htxn, hb, hv, h⟩
        rw [MerkleTree.append_fromVec env.hash b ht] at hv
        have hmem : u64ToString n ∈ txns := AList.lookup_isSome.mp (by rw [htxn]; rfl)
        obtain ⟨seqNos, bytes, hord, hbytes, rfl, htree⟩ :=
          (ih _ (length_keys_erase_lt hmem) hv rfl).mp h
        have hord' := (inOrder_cons_iff hn hmem).mpr hord
        refine ⟨n :: seqNos, b :: bytes, hord', ?_, by simp, by simpa using htree⟩
        exact (txnBytes_cons hord' htxn).mpr ⟨b, bytes, hb, hbytes, rfl⟩
      · intro ⟨seqNos, bytes, hord, hbytes, hacc, htree⟩
        cases seqNos with
        | nil =>
          have hnil : txns.keys = [] := by
            apply List.eq_nil_iff_forall_not_mem.mpr
            intro k hk
            simpa using (hord.keys k).mp (AList.mem_keys.mpr hk)
          exact absurd hnil hkeys
        | cons n seqNos =>
          have hn := minTx_of_inOrder hord
          have hmem : u64ToString n ∈ txns := (hord.keys _).mpr ⟨n, by simp, rfl⟩
          obtain ⟨txn, htxn⟩ := Option.isSome_iff_exists.mp (AList.lookup_isSome.mpr hmem)
          obtain ⟨b, bs, hb, hbs, rfl⟩ := (txnBytes_cons hord htxn).mp hbytes
          obtain ⟨v, hv⟩ := MerkleTree.exists_fromVec env.hash (leaves ++ [b])
          refine ⟨n, txn, b, v, hn, htxn, hb, ?_, ?_⟩
          · rw [MerkleTree.append_fromVec env.hash b ht, hv]
          · apply (ih _ (length_keys_erase_lt hmem) hv rfl).mpr
            exact ⟨seqNos, bs, (inOrder_cons_iff hn hmem).mp hord, hbs,
              by simp [hacc], by simpa using htree⟩

theorem checkConsProofs_eq_ok_iff {mt : MerkleTree} {consProofs : List String} {root : Bytes}
    {size : ℕ} :
    checkConsProofs env mt consProofs root size = .ok () ↔ ∃ proofs,
      consProofs.mapM env.fromBase58 = some proofs ∧
      mt.consistencyProof env.hash root size proofs = .ok true := by
  unfold checkConsProofs
  rcases consProofs.mapM env.fromBase58 with _ | proofs
  · simp [errMsg]
  · simp only [except_bind_eq_ok, Option.some.injEq, exists_eq_left']
    constructor
    · intro ⟨b, hb, h⟩
      cases b with
      | true => exact hb
      | false => cases h
    · intro h
      exact ⟨true, h, rfl⟩

variable {leaves ys : List Bytes} {merkle target : MerkleTree} {rep : CatchupRep}

theorem processCatchupReply_eq_ok_iff {host : Host} {root : Bytes} {size : ℕ} {t : MerkleTree}
    (hm : MerkleTree.fromVec env.hash leaves = .ok merkle) :
    processCatchupReply env host rep merkle root size = .ok t ↔
    ∃ seqNos bytes, InOrder rep.txns seqNos ∧
      txnBytes env rep.txns seqNos = some bytes ∧
      MerkleTree.fromVec env.hash (leaves ++ bytes) = .ok t ∧
      checkConsProofs env t rep.consProof root size = .ok () ∧ host.dumpNewTxns bytes = .ok () := by
  have hdump : ∀ bytes, ofResult (host.dumpNewTxns bytes) = .ok () ↔
      host.dumpNewTxns bytes = .ok () := by
    intro bytes
    rcases host.dumpNewTxns bytes with e | u <;> simp [ofResult]
  unfold processCatchupReply
  simp only [except_bind_eq_ok, Prod.exists, appendTxns_eq_ok_iff hm, List.nil_append, hdump]
  constructor
  · intro ⟨t', acc, ⟨seqNos, bytes, hord, hbytes, hacc, ht⟩, u, hcheck, u', hd, hret⟩
    cases hret
    subst hacc
    exact ⟨seqNos, acc, hord, hbytes, ht, hcheck, hd⟩
  · intro ⟨seqNos, bytes, hord, hbytes, ht, hcheck, hd⟩
    exact ⟨t, bytes, ⟨seqNos, bytes, hord, hbytes, rfl, ht⟩, (), hcheck, (), hd, rfl⟩

/-- A tree that passes the check against a ledger holds the first transactions of that ledger. -/
theorem prefix_of_checkConsProofs (hH : env.hash.CollisionFree) {zs : List Bytes} {t : MerkleTree}
    {consProofs : List String} (ht : MerkleTree.fromVec env.hash zs = .ok t)
    (hu : MerkleTree.fromVec env.hash ys = .ok target)
    (h : checkConsProofs env t consProofs target.rootHash ys.length = .ok ()) : zs <+: ys := by
  obtain ⟨proofs, -, hproof⟩ := checkConsProofs_eq_ok_iff.mp h
  by_cases hzs : zs = []
  · subst hzs
    exact List.nil_prefix
  · have hcount := MerkleTree.count_fromVec ht
    have hpos := List.length_pos_iff.mpr hzs
    have hlen : zs.length ≤ ys.length := by
      by_contra hgt
      unfold MerkleTree.consistencyProof at hproof
      rw [if_neg (by omega), if_neg (by omega), if_pos (by omega)] at hproof
      cases hproof
    exact MerkleTree.prefix_of_consistencyProof hH hzs hlen ht hu hproof

/-- A finished catch-up holds the local leaves and the reply's transactions in order, with the size
and the root of its target, and only the agreed ledger is reported as synced. -/
structure ReachesTarget (env : Env) (leaves ys : List Bytes) (rep : CatchupRep)
    (merkle : MerkleTree) (root : Bytes) (size : ℕ) : Prop where
  finished : ∀ host t, processCatchupReply env host rep merkle root size = .ok t →
    ∃ seqNos bytes, InOrder rep.txns seqNos ∧ txnBytes env rep.txns seqNos = some bytes ∧
      t.root.iter = leaves ++ bytes ∧ t.count = size ∧ t.rootHash = root
  synced : ∀ host (sm sm' : RequestSM) reqId nodeAlias t effects,
    sm.state = .catchupSingle ⟨root, size, merkle, reqId⟩ →
    sm.handleEvent env host (.catchupRep rep nodeAlias) = .ok (sm', some (.synced t), effects) →
    MerkleTree.fromVec env.hash ys = .ok t

/-- The reply ends before the target, and its proof is one for the tree it ends at. -/
def StopsShort (env : Env) (leaves : List Bytes) (rep : CatchupRep) (root : Bytes)
    (size : ℕ) : Prop :=
  ∃ seqNos bytes t, InOrder rep.txns seqNos ∧ txnBytes env rep.txns seqNos = some bytes ∧
    leaves.length + bytes.length < size ∧ MerkleTree.fromVec env.hash (leaves ++ bytes) = .ok t ∧
    checkConsProofs env t rep.consProof root size = .ok ()

theorem not_reachesTarget_of_stopsShort {root : Bytes} {size : ℕ}
    (hm : MerkleTree.fromVec env.hash leaves = .ok merkle)
    (h : StopsShort env leaves rep root size) :
    ¬ ReachesTarget env leaves ys rep merkle root size := by
  obtain ⟨seqNos, bytes, t, hord, hbytes, hlt, ht, hcheck⟩ := h
  intro hreach
  have hok : processCatchupReply env sampleHost rep merkle root size = .ok t :=
    (processCatchupReply_eq_ok_iff hm).mpr ⟨seqNos, bytes, hord, hbytes, ht, hcheck, rfl⟩
  obtain ⟨-, -, -, -, -, hsize, -⟩ := hreach.finished _ _ hok
  rw [MerkleTree.count_fromVec ht, List.length_append] at hsize
  omega

theorem processCatchupReply_of_synced {host : Host} {sm sm' : RequestSM} {s : CatchupSingleState}
    {nodeAlias : String} {t : MerkleTree} {effects : List Effect} (hs : sm.state = .catchupSingle s)
    (h : sm.handleEvent env host (.catchupRep rep nodeAlias) = .ok
      (sm', some (.synced t), effects)) :
    processCatchupReply env host rep s.merkle s.targetMtRoot s.targetMtSize = .ok t := by
  obtain ⟨r, hr, hret⟩ := except_bind_eq_ok.mp h
  simp only [except_pure, Except.ok.injEq, Prod.mk.injEq] at hret
  unfold RequestSM.react at hr
  simp only [hs, handleCatchupSingle] at hr
  split at hr
  · rename_i t' ht'
    rw [Except.ok.injEq] at hr
    subst hr
    rw [ht']
    simpa using hret.2.1
  · rw [Except.ok.injEq] at hr
    subst hr
    simp at hret
  · cases hr

/-- A catch-up against the root of a ledger reaches it, unless the reply stops short of it. -/
theorem reachesTarget_iff_not_stopsShort (hH : env.hash.CollisionFree)
    (hm : MerkleTree.fromVec env.hash leaves = .ok merkle)
    (hu : MerkleTree.fromVec env.hash ys = .ok target) :
    ReachesTarget env leaves ys rep merkle target.rootHash ys.length ↔
      ¬ StopsShort env leaves rep target.rootHash ys.length := by
  constructor
  · intro h hshort
    exact not_reachesTarget_of_stopsShort hm hshort h
  · intro h
    have hreach : ∀ host t,
        processCatchupReply env host rep merkle target.rootHash ys.length = .ok t →
        ∃ seqNos bytes, InOrder rep.txns seqNos ∧ txnBytes env rep.txns seqNos = some bytes ∧
          leaves ++ bytes = ys ∧ t = target := by
      intro host t ht
      obtain ⟨seqNos, bytes, hord, hbytes, ht, hcheck, -⟩ :=
        (processCatchupReply_eq_ok_iff hm).mp ht
      have hpre := prefix_of_checkConsProofs hH ht hu hcheck
      have hlen : ys.length ≤ (leaves ++ bytes).length := by
        by_contra hlt
        rw [List.length_append] at hlt
        exact h ⟨seqNos, bytes, t, hord, hbytes, by omega, ht, hcheck⟩
      have heq := hpre.eq_of_length_le hlen
      rw [heq, hu, Except.ok.injEq] at ht
      exact ⟨seqNos, bytes, hord, hbytes, heq, ht.symm⟩
    constructor
    · intro host t ht
      obtain ⟨seqNos, bytes, hord, hbytes, heq, rfl⟩ := hreach host t ht
      exact ⟨seqNos, bytes, hord, hbytes,
        by rw [heq, MerkleTree.iter_fromVec hu], MerkleTree.count_fromVec hu, rfl⟩
    · intro host sm sm' reqId nodeAlias t effects hs hev
      obtain ⟨-, -, -, -, -, rfl⟩ := hreach host t (processCatchupReply_of_synced hs hev)
      exact hu

/-- Tree of the ledger [1], [2], [3], for examples. -/
def sampleLedger : MerkleTree :=
  ⟨.combine taggedHash (.combine taggedHash (.newLeaf taggedHash [1]) (.newLeaf taggedHash [2]))
    (.newLeaf taggedHash [3]), 2, 3, 2⟩

/-- The second transaction alone, with a proof that the first two begin the sample ledger. -/
def shortRep : CatchupRep := ⟨0, ["14"], AList.singleton "2" (.number (.posInt 2))⟩

theorem stopsShort_shortRep : StopsShort sampleEnv [[1]] shortRep sampleLedger.rootHash 3 := by
  have hord : InOrder shortRep.txns [2] := by
    have hstr : u64ToString 2 = "2" := by decide
    refine ⟨by simp, ?_, by simp⟩
    intro k
    rw [shortRep, AList.mem_keys, AList.keys_singleton]
    simp [hstr]
  refine ⟨[2], [[2]],
    ⟨.combine taggedHash (.newLeaf taggedHash [1]) (.newLeaf taggedHash [2]), 1, 2, 1⟩,
    hord, ?_, by decide, ?_, ?_⟩
  · decide
  · decide +kernel
  · decide +kernel

theorem reachesTarget_iff_not_stopsShort_three :
    ReachesTarget sampleEnv [[1]] [[1], [2], [3]] shortRep ⟨.newLeaf taggedHash [1], 0, 1, 0⟩
      sampleLedger.rootHash 3 ↔ ¬ StopsShort sampleEnv [[1]] shortRep sampleLedger.rootHash 3 :=
  reachesTarget_iff_not_stopsShort taggedHash_collisionFree (by decide +kernel)
    (show MerkleTree.fromVec sampleEnv.hash [[1], [2], [3]] = .ok sampleLedger by decide +kernel)

/-- Two of three transactions are reported as the whole ledger. -/
theorem not_reachesTarget_shortRep :
    sampleEnv.hash.CollisionFree ∧ ([[1]] : List Bytes) <+: [[1], [2], [3]] ∧
    MerkleTree.fromVec sampleEnv.hash [[1]] = .ok ⟨.newLeaf taggedHash [1], 0, 1, 0⟩ ∧
    MerkleTree.fromVec sampleEnv.hash [[1], [2], [3]] = .ok sampleLedger ∧
    ¬ ReachesTarget sampleEnv [[1]] [[1], [2], [3]] shortRep ⟨.newLeaf taggedHash [1], 0, 1, 0⟩
      sampleLedger.rootHash 3 := by
  have hm : MerkleTree.fromVec sampleEnv.hash [[1]] = .ok ⟨.newLeaf taggedHash [1], 0, 1, 0⟩ := by
    decide +kernel
  refine ⟨taggedHash_collisionFree, ⟨[[2], [3]], rfl⟩, hm, by decide +kernel, ?_⟩
  exact not_reachesTarget_of_stopsShort hm stopsShort_shortRep

end SimpleAsset.Indy
