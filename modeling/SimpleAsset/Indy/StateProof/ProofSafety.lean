import SimpleAsset.Indy.StateProof.NodeDecoder
import SimpleAsset.Indy.StateProof.RangeAgreement

/-! Which bytes of a proof make `_verify_proof` and `_verify_proof_range` panic. -/
namespace SimpleAsset.Indy
open SimpleAsset.Library

section References
variable {db : TrieDB}

/-- The hashes that a node refers to. -/
inductive Node.Refers : Node → Bytes → Prop
  | hash (h : Bytes) : Refers (.hash h) h
  | extension {path r : Bytes} {next : Node} (hnext : Refers next r) : Refers
      (.extension path next) r
  | full {nodes : Nibble → Option Node} {value : Option Bytes} {x : Nibble} {n : Node} {r : Bytes}
      (hx : nodes x = some n) (hn : Refers n r) : Refers (.full nodes value) r

/-- No chain of references comes back to its start, which takes a collision of the hash. -/
def RefsEnd (db : TrieDB) : Prop :=
  ∃ rank : Bytes → ℕ, ∀ h node r, db h = some node → node.Refers r → rank r < rank h

/-- Nodes whose references end are the nodes of a trie. -/
theorem exists_resolves_below {rank : Bytes → ℕ}
    (hrank : ∀ h node r, db h = some node → node.Refers r → rank r < rank h)
    (hdb : ∀ h node, db h = some node → node.Sound) (n : ℕ) {node : Node} (hsound : node.Sound)
    (hbelow : ∀ r, node.Refers r → rank r < n) : ∃ t, Resolves db node t := by
  induction n using Nat.strong_induction_on generalizing node with
  | _ n ih =>
  induction hsound with
  | blank => exact ⟨.blank, .blank⟩
  | @leaf path value nibbles hpath => exact ⟨.leaf nibbles value, .leaf hpath⟩
  | @extension path nibbles next hpath hnext ihnext =>
    obtain ⟨t, ht⟩ := ihnext fun r hr => hbelow r (.extension hr)
    exact ⟨.extension nibbles t, .extension hpath ht⟩
  | @full nodes value hnodes ihnodes =>
    have hchild : ∀ x, ∃ t, (nodes x = none → t = .blank) ∧ ∀ n, nodes x = some n →
        Resolves db n t := by
      intro x
      rcases hx : nodes x with _ | next
      · exact ⟨.blank, fun _ => rfl, fun n hn => by cases hn⟩
      · obtain ⟨t, ht⟩ := ihnodes x next hx fun r hr => hbelow r (.full hx hr)
        refine ⟨t, fun hno => (by cases hno), ?_⟩
        rintro n ⟨⟩
        exact ht
    choose ts hnone hsome using hchild
    exact ⟨.full ts value, .full hnone hsome⟩
  | @hash h hlen =>
    rcases hget : db h with _ | next
    · exact ⟨.hidden fun _ => none, .missing hget _⟩
    · have hlt : rank h < n := hbelow h (.hash h)
      obtain ⟨t, ht⟩ := ih (rank h) hlt (hdb h next hget) fun r hr => hrank h next r hget hr
      exact ⟨t, .hash hlen hget ht⟩

theorem exists_resolves (hends : RefsEnd db) (hdb : ∀ h node, db h = some node → node.Sound)
    {h : Bytes} {node : Node} (hnode : db h = some node) : ∃ t, Resolves db node t := by
  obtain ⟨rank, hrank⟩ := hends
  exact exists_resolves_below hrank hdb (rank h) (hdb h node hnode) fun r hr =>
    hrank h node r hnode hr

end References

section Lookup
variable {R : Rlp} {db : TrieDB} {node : Node} {t : Trie Nibble Bytes}

theorem orderly_foundValue {found : Outcome (Option (Node × List Nibble))}
    {vals : Outcome (List (List Nibble × String))}
    (h : Found R db found vals) (hvals : Orderly vals) : Orderly (found >>= Node.foundValue) := by
  cases h with
  | nothing => exact orderly_ok none
  | @node n t' seen hnode hsound =>
    rw [except_ok_bind]
    cases hsound with
    | blank => exact orderly_ok none
    | leaf hpath =>
      rw [Node.foundValue, hpath]
      exact orderly_ok _
    | extension hpath hnext => exact orderly_ok none
    | full hnodes => exact orderly_ok _
    | hash hlen => exact orderly_ok none
  | error e =>
    intro fault hfault
    obtain rfl : e = fault := Except.error.inj hfault
    exact hvals e rfl

theorem orderly_unpackValue (value : Option Bytes) : Orderly (Node.unpackValue R value) := by
  unfold Node.unpackValue
  split
  · exact orderly_ok none
  · split
    · exact orderly_ok _
    · exact orderly_errMsg _ _

theorem orderly_strValue (value : Option Bytes) : Orderly (Node.strValue value) := by
  unfold Node.strValue
  split
  · exact orderly_ok none
  · split
    · exact orderly_ok _
    · exact orderly_errMsg _ _

/-- A lookup in the nodes of a trie comes to an end without a panic. -/
theorem getStrValue_returns (h : Resolves db node t) (hsound : node.Sound)
    (hdb : ∀ h n, db h = some n → n.Sound)
    (key : Bytes) : ∃ r, Returns (fun fuel => node.getStrValue R db fuel key) r ∧ Orderly r := by
  obtain ⟨found, hreturns, hfound⟩ :=
    getNode_found (R := R) h hsound hdb (Node.pathToNibbles key) []
  refine ⟨found >>= Node.foundValue >>= Node.unpackValue R >>= Node.strValue,
    hreturns.map fun found => found >>= Node.foundValue >>= Node.unpackValue R >>=
    Node.strValue, ?_⟩
  refine ((orderly_foundValue hfound ?_).bind orderly_unpackValue).bind orderly_strValue
  exact orderly_enumerateUnder t (Node.pathToNibbles key) []

theorem exists_matchesExpected {r : Outcome (Option String)} (h : Orderly r)
    (expected : Option String) :
    ∃ b, matchesExpected expected r = .ok b := by
  cases r with
  | error fault =>
    obtain ⟨e, rfl⟩ := h fault rfl
    exact ⟨false, rfl⟩
  | ok value => exact ⟨decide (value = expected), rfl⟩

theorem exists_rangeVerdict {pre : String} {fromSeqno nextSeqno : Option ℕ}
    {kvs : List (String × Option String)} {r : Outcome (List (String × String))} :
    (∃ b, rangeVerdict pre fromSeqno nextSeqno kvs r = .ok b) ↔ Orderly r := by
  cases r with
  | error fault =>
    constructor
    · rintro ⟨b, hb⟩ fault' ⟨⟩
      cases fault with
      | err e => exact ⟨e, rfl⟩
      | panic p => cases hb
      | outOfFuel => cases hb
    · intro h
      obtain ⟨e, rfl⟩ := h fault rfl
      exact ⟨false, rfl⟩
  | ok vals => exact iff_of_true ⟨_, rfl⟩ (orderly_ok vals)

end Lookup

section OddKeys

theorem eq_asBytes_of_fromUtf8 {b : Bytes} {k : String} (h : fromUtf8 b = some k) :
    b = asBytes k := by
  unfold fromUtf8 String.fromUTF8? at h
  split at h
  · obtain rfl := Option.some.inj h
    simp [asBytes, String.fromUTF8]
  · cases h

theorem nibblesToBytes_eq_ok {w : List Nibble} {b : Bytes} (h : Node.nibblesToBytes w = .ok b) :
    w = Node.pathToNibbles b := by
  induction w using Node.nibblesToBytes.induct generalizing b with
  | case1 =>
    obtain rfl := Except.ok.inj h
    rfl
  | case2 => cases h
  | case3 high low w ih =>
    rw [Node.nibblesToBytes] at h
    obtain ⟨rest, hrest, h⟩ := except_bind_eq_ok.mp h
    obtain rfl := Except.ok.inj h
    have hbyte : (UInt8.ofNat (16 * high.val + low.val)).toNat = 16 * high.val + low.val := by
      rw [UInt8.toNat_ofNat']
      omega
    have hhigh : Node.highNibble (UInt8.ofNat (16 * high.val + low.val)) = high := by
      apply Fin.ext
      show (UInt8.ofNat (16 * high.val + low.val)).toNat / 16 = high.val
      omega
    have hlow : Node.lowNibble (UInt8.ofNat (16 * high.val + low.val)) = low := by
      apply Fin.ext
      show (UInt8.ofNat (16 * high.val + low.val)).toNat % 16 = low.val
      omega
    rw [Node.pathToNibbles, hhigh, hlow, ← ih hrest]

theorem nibblesToBytes_of_odd {w : List Nibble} (h : w.length % 2 = 1) :
    Node.nibblesToBytes w = .error (.panic .outOfBounds) := by
  induction w using Node.nibblesToBytes.induct with
  | case1 => simp at h
  | case2 => rfl
  | case3 high low w ih =>
    have hodd : w.length % 2 = 1 := by
      rw [List.length_cons, List.length_cons] at h
      omega
    rw [Node.nibblesToBytes, ih hodd]
    rfl

theorem exists_nibblesToBytes {w : List Nibble} (h : w.length % 2 = 0) :
    ∃ b, Node.nibblesToBytes w = .ok b := by
  induction w using Node.nibblesToBytes.induct with
  | case1 => exact ⟨[], rfl⟩
  | case2 => simp at h
  | case3 high low w ih =>
    obtain ⟨b, hb⟩ := ih (by rw [List.length_cons, List.length_cons] at h; omega)
    exact ⟨UInt8.ofNat (16 * high.val + low.val) :: b, by rw [Node.nibblesToBytes, hb]; rfl⟩

theorem nibblesToStr_eq_ok {w : List Nibble} {k : String} (h : Node.nibblesToStr w = .ok k) :
    w = Node.pathToNibbles (asBytes k) := by
  rw [Node.nibblesToStr] at h
  obtain ⟨b, hb, h⟩ := except_bind_eq_ok.mp h
  split at h
  · rename_i str hstr
    obtain rfl := Except.ok.inj h
    rw [nibblesToBytes_eq_ok hb, eq_asBytes_of_fromUtf8 hstr]
  · cases h

theorem nibblesToStr_of_odd {w : List Nibble} (h : w.length % 2 = 1) :
    Node.nibblesToStr w = .error (.panic .outOfBounds) := by
  rw [Node.nibblesToStr, nibblesToBytes_of_odd h]
  rfl

theorem orderly_nibblesToStr {w : List Nibble} (h : w.length % 2 = 0) :
    Orderly (Node.nibblesToStr w) := by
  obtain ⟨b, hb⟩ := exists_nibblesToBytes h
  rw [Node.nibblesToStr, hb, except_ok_bind]
  split
  · exact orderly_ok _
  · exact orderly_errMsg _ _

/-- Of the words in a list that are not texts, the first one has an odd number of nibbles. -/
def OddFirst (l : List (List Nibble × String)) : Prop :=
  ∃ before w s after, l = before ++ (w, s) :: after ∧ w.length % 2 = 1 ∧
    ∀ entry ∈ before, ∃ k : String, entry.1 = Node.pathToNibbles (asBytes k)

theorem orderly_keyed_iff (l : List (List Nibble × String)) :
    Orderly (Node.keyed l) ↔ ¬ OddFirst l := by
  have hstep : ∀ entry : List Nibble × String,
      (do return (← Node.nibblesToStr entry.1, entry.2)) = (Node.nibblesToStr entry.1).map fun k =>
        (k, entry.2) := by
    intro entry
    cases Node.nibblesToStr entry.1 <;> rfl
  have hkeyed : Node.keyed l = l.mapM fun entry => (Node.nibblesToStr entry.1).map fun k =>
      (k, entry.2) := by
    rw [Node.keyed]
    exact congrArg (fun f => l.mapM f) (funext hstep)
  rw [hkeyed]
  constructor
  · rintro horderly ⟨before, w, s, after, hsplit, hodd, hbefore⟩
    have hfault : l.mapM (fun entry => (Node.nibblesToStr entry.1).map fun k => (k, entry.2)) =
        .error (.panic .outOfBounds) := by
      refine mapM_eq_error hsplit ?_ ?_
      · intro entry hentry
        obtain ⟨k, hk⟩ := hbefore entry hentry
        exact ⟨(k, entry.2), by rw [hk, nibblesToStr_asBytes]; rfl⟩
      · rw [nibblesToStr_of_odd hodd]
        rfl
    obtain ⟨e, he⟩ := horderly _ hfault
    cases he
  · intro hno
    rcases mapM_cases l fun entry => (Node.nibblesToStr entry.1).map fun k =>
      (k, entry.2) with hall | hfirst
    · obtain ⟨l', hl'⟩ := exists_mapM_eq_ok hall
      rw [hl']
      exact orderly_ok l'
    · obtain ⟨before, entry, after, fault, hsplit, hbefore, hentry⟩ := hfirst
      rw [mapM_eq_error hsplit hbefore hentry]
      have hreadable : ∀ e ∈ before, ∃ k : String, e.1 = Node.pathToNibbles (asBytes k) := by
        intro e he
        obtain ⟨z, hz⟩ := hbefore e he
        rcases hk : Node.nibblesToStr e.1 with f | k
        · rw [hk] at hz
          cases hz
        · exact ⟨k, nibblesToStr_eq_ok hk⟩
      rcases Nat.mod_two_eq_zero_or_one entry.1.length with heven | hodd
      · rcases hstr : Node.nibblesToStr entry.1 with f | k
        · rw [hstr] at hentry
          obtain ⟨e, rfl⟩ := orderly_nibblesToStr heven f hstr
          obtain rfl := Except.error.inj hentry
          rintro _ ⟨⟩
          exact ⟨e, rfl⟩
        · rw [hstr] at hentry
          cases hentry
      · exact absurd ⟨before, entry.1, entry.2, after, hsplit, hodd, hreadable⟩ hno

end OddKeys

namespace UntrustedRlp
variable {U : UntrustedRlp} {getHash : Node → Bytes}

/-- `as_list` at `Node`. -/
def nodes (U : UntrustedRlp) (proof : Bytes) : Except DecodeFault (List Node) :=
  (U.iter proof).mapM U.decode

/-- What `_verify_proof` and `_verify_proof_range` go on with when reading the nodes has not
panicked. -/
def rlp (U : UntrustedRlp) (getHash : Node → Bytes) : Rlp where
  nodes proof := (U.nodes proof).toOption
  list raw := ((U.iter raw).mapM U.asVec).toOption
  getHash := getHash

/-- `_verify_proof` from the bytes on. -/
def verifyProofBytes (U : UntrustedRlp) (getHash : Node → Bytes) (fuel : ℕ)
    (proof rootHash key : Bytes) (expected : Option String) : Outcome Bool :=
  match U.nodes proof with
  | .error (.panic p) => .error (.panic p)
  | _ => verifyProof (U.rlp getHash) fuel proof rootHash key expected

/-- `_verify_proof_range` from the bytes on. -/
def verifyProofRangeBytes (U : UntrustedRlp) (getHash : Node → Bytes) (fuel : ℕ)
    (proof rootHash : Bytes) (pre : String)
    (fromSeqno nextSeqno : Option ℕ) (kvs : List (String × Option String)) : Outcome Bool :=
  match U.nodes proof with
  | .error (.panic p) => .error (.panic p)
  | _ => verifyProofRange (U.rlp getHash) fuel proof rootHash pre fromSeqno nextSeqno kvs

/-- The nodes of a proof, read from their bytes. -/
def IsProof (U : UntrustedRlp) (proof : Bytes) (ns : List Node) : Prop :=
  List.Forall₂ U.Encodes (U.iter proof) ns

/-- Among the nodes of a proof there is a pair with an empty path, all that is read before being
well formed. -/
def HasEmptyPair (U : UntrustedRlp) (proof : Bytes) : Prop :=
  ∃ before b after, U.iter proof = before ++ b :: after ∧ (∀ b ∈ before, ∃ node, U.Encodes b node) ∧
    U.EmptyPair b

/-- A trie that the nodes stand for has, first of the keys under the prefix that are not texts, one
with an odd number of nibbles. -/
def HasOddKey (U : UntrustedRlp) (getHash : Node → Bytes) (proof rootHash : Bytes)
    (pre : String) : Prop :=
  ∃ ns root t l, U.IsProof proof ns ∧ Node.trieDB (U.rlp getHash) ns rootHash = some root ∧
    Resolves (Node.trieDB (U.rlp getHash) ns) root t ∧
    enumerateUnder (U.rlp getHash) t (Node.pathToNibbles (asBytes pre)) [] = .ok l ∧ OddFirst l

theorem nodes_of_hasEmptyPair {proof : Bytes} (h : U.HasEmptyPair proof) :
    U.nodes proof = .error (.panic .outOfBounds) := by
  obtain ⟨before, b, after, hsplit, hbefore, hempty⟩ := h
  refine mapM_eq_error hsplit ?_ hempty.decode
  intro b' hb'
  obtain ⟨node, hnode⟩ := hbefore b' hb'
  exact ⟨node, hnode.decode.1⟩

theorem encodes_of_decode {b : Bytes} {node : Node} (h : U.decode b = .ok node) :
    U.Encodes b node := by
  rcases told (U := U) b with ⟨n, hn⟩ | hempty | ⟨e, he⟩
  · rw [hn.decode.1] at h
    obtain rfl := Except.ok.inj h
    exact hn
  · rw [hempty.decode] at h
    cases h
  · rw [he] at h
    cases h

theorem nodes_eq_ok_iff {proof : Bytes} {ns : List Node} :
    U.nodes proof = .ok ns ↔ U.IsProof proof ns := by
  rw [nodes, IsProof]
  constructor
  · intro h
    exact (forall₂_of_mapM h).imp fun _ _ hdecode => encodes_of_decode hdecode
  · intro h
    exact mapM_of_forall₂ (h.imp fun _ _ hencodes => hencodes.decode.1)

/-- Without an empty path the nodes are read, or refused. -/
theorem nodes_cases {proof : Bytes} (h : ¬ U.HasEmptyPair proof) :
    (∃ ns, U.nodes proof = .ok ns) ∨ ∃ e, U.nodes proof = .error (.error e) := by
  rcases mapM_cases (U.iter proof) U.decode
    with hall | ⟨before, b, after, fault, hsplit, hbefore, hb⟩
  · exact .inl (exists_mapM_eq_ok hall)
  · right
    rcases told (U := U) b with ⟨n, hn⟩ | hempty | ⟨e, he⟩
    · rw [hn.decode.1] at hb
      cases hb
    · refine absurd ⟨before, b, after, hsplit, ?_, hempty⟩ h
      intro b' hb'
      obtain ⟨node, hnode⟩ := hbefore b' hb'
      exact ⟨node, encodes_of_decode hnode⟩
    · exact ⟨e, mapM_eq_error hsplit hbefore he⟩

theorem IsProof.sound {proof : Bytes} {ns : List Node} (h : U.IsProof proof ns) :
    ∀ node ∈ ns, node.Sound := by
  rw [IsProof] at h
  generalize U.iter proof = items at h
  induction h with
  | nil => simp
  | cons hencodes _ ih =>
    intro node hnode
    rcases List.mem_cons.mp hnode with rfl | hmem
    · exact hencodes.decode.2
    · exact ih node hmem

/-- What a proof is checked with: its nodes, or none when they cannot be read. -/
theorem rlp_nodes_cases (U : UntrustedRlp) (getHash : Node → Bytes) (proof : Bytes) :
    U.IsProof proof (((U.rlp getHash).nodes proof).getD []) ∨
      (∀ ns, ¬ U.IsProof proof ns) ∧ ((U.rlp getHash).nodes proof).getD [] = [] := by
  rcases h : U.nodes proof with fault | ns
  · right
    refine ⟨?_, by simp [rlp, h, Except.toOption]⟩
    intro ns hns
    rw [nodes_eq_ok_iff.mpr hns] at h
    cases h
  · left
    have hget : ((U.rlp getHash).nodes proof).getD [] = ns := by simp [rlp, h, Except.toOption]
    rw [hget]
    exact nodes_eq_ok_iff.mp h

theorem verifyProofBytes_eq {proof : Bytes} (h : ¬ U.HasEmptyPair proof) (fuel : ℕ)
    (rootHash key : Bytes)
    (expected : Option String) : U.verifyProofBytes getHash fuel proof rootHash key expected =
      verifyProof (U.rlp getHash) fuel proof rootHash key expected := by
  rcases nodes_cases h with ⟨ns, hns⟩ | ⟨e, he⟩
  · rw [verifyProofBytes, hns]
  · rw [verifyProofBytes, he]

theorem verifyProofRangeBytes_eq {proof : Bytes} (h : ¬ U.HasEmptyPair proof) (fuel : ℕ)
    (rootHash : Bytes)
    (pre : String) (fromSeqno nextSeqno : Option ℕ) (kvs : List (String × Option String)) :
    U.verifyProofRangeBytes getHash fuel proof rootHash pre fromSeqno nextSeqno kvs =
      verifyProofRange (U.rlp getHash) fuel proof rootHash pre fromSeqno nextSeqno kvs := by
  rcases nodes_cases h with ⟨ns, hns⟩ | ⟨e, he⟩
  · rw [verifyProofRangeBytes, hns]
  · rw [verifyProofRangeBytes, he]

/-- No chain of references among the nodes of a proof comes back to its start. -/
def ProofEnds (U : UntrustedRlp) (getHash : Node → Bytes) (proof : Bytes) : Prop :=
  ∀ ns, U.IsProof proof ns → RefsEnd (Node.trieDB (U.rlp getHash) ns)

/-- The root is not among the nodes, or the nodes are read and stand for a trie. -/
theorem root_cases {proof : Bytes} (hends : U.ProofEnds getHash proof) (rootHash : Bytes) :
    Node.trieDB (U.rlp getHash) (((U.rlp getHash).nodes proof).getD []) rootHash = none ∨
      U.IsProof proof (((U.rlp getHash).nodes proof).getD []) ∧
        ∃ root t,
          Node.trieDB (U.rlp getHash) (((U.rlp getHash).nodes proof).getD []) rootHash = some root ∧
          Resolves (Node.trieDB (U.rlp getHash) (((U.rlp getHash).nodes proof).getD []))
            root t := by
  rcases hroot : Node.trieDB (U.rlp getHash)
    (((U.rlp getHash).nodes proof).getD []) rootHash with _ | root
  · exact .inl rfl
  · right
    rcases rlp_nodes_cases U getHash proof with hproof | ⟨-, hnone⟩
    · obtain ⟨t, ht⟩ := exists_resolves (hends _ hproof)
        (fun _ n hn => hproof.sound n (Node.mem_of_trieDB hn)) hroot
      exact ⟨hproof, root, t, rfl, ht⟩
    · rw [hnone] at hroot
      cases hroot

/-- Without an empty path a lookup always ends with a boolean. -/
theorem verifyProofBytes_returns {proof rootHash : Bytes} (hends : U.ProofEnds getHash proof)
    (h : ¬ U.HasEmptyPair proof) (key : Bytes) (expected : Option String) :
    ∃ b, Returns (fun fuel => U.verifyProofBytes getHash fuel proof rootHash key expected)
      (.ok b) := by
  simp only [verifyProofBytes_eq h]
  rcases root_cases hends rootHash with hroot | ⟨hproof, root, t, hroot, ht⟩
  · refine ⟨false, ?_⟩
    simpa only [verifyProof, hroot] using Returns.pure (Except.ok false : Outcome Bool)
  · have hsound : ∀ h n,
        Node.trieDB (U.rlp getHash) (((U.rlp getHash).nodes proof).getD []) h = some n → n.Sound :=
      fun _ n hn => hproof.sound n (Node.mem_of_trieDB hn)
    obtain ⟨r, hr, horderly⟩ :=
      getStrValue_returns (R := U.rlp getHash) ht (hsound rootHash root hroot) hsound key
    obtain ⟨b, hb⟩ := exists_matchesExpected horderly expected
    refine ⟨b, ?_⟩
    rw [← hb]
    simpa only [verifyProof, hroot] using hr.map (matchesExpected expected)

/-- Without an empty path a range is checked to the end exactly when no key has an odd number of
nibbles. -/
theorem verifyProofRangeBytes_returns {proof rootHash : Bytes} (hends : U.ProofEnds getHash proof)
    (h : ¬ U.HasEmptyPair proof) (pre : String) (fromSeqno nextSeqno : Option ℕ)
    (kvs : List (String × Option String)) :
    (∃ b, Returns (fun fuel =>
      U.verifyProofRangeBytes getHash fuel proof rootHash pre fromSeqno nextSeqno kvs) (.ok b)) ↔
      ¬ U.HasOddKey getHash proof rootHash pre := by
  simp only [verifyProofRangeBytes_eq h]
  have hnodes : ∀ ns, U.IsProof proof ns → ((U.rlp getHash).nodes proof).getD [] = ns := by
    intro ns hns
    simp [rlp, nodes_eq_ok_iff.mpr hns, Except.toOption]
  rcases root_cases hends rootHash with hroot | ⟨hproof, root, t, hroot, ht⟩
  · refine iff_of_true ⟨false, ?_⟩ ?_
    · simpa only [verifyProofRange, hroot] using Returns.pure (Except.ok false : Outcome Bool)
    · rintro ⟨ns, root, t, l, hns, hsome, -⟩
      rw [hnodes ns hns, hsome] at hroot
      cases hroot
  · constructor
    · rintro ⟨b, hb⟩ ⟨ns, root', t', l, hns, hsome, ht', hl, hodd⟩
      obtain rfl := hnodes ns hns
      have hreturns := verifyProofRange_returns hsome hproof.sound ht' pre fromSeqno nextSeqno kvs
      have hverdict := hreturns.unique hb
      have horderly := exists_rangeVerdict.mp ⟨b, hverdict⟩
      rw [hl, except_ok_bind, orderly_keyed_iff] at horderly
      exact horderly hodd
    · intro hno
      have hreturns := verifyProofRange_returns hroot hproof.sound ht pre fromSeqno nextSeqno kvs
      have horderly : Orderly (enumerateUnder (U.rlp getHash) t (Node.pathToNibbles (asBytes pre))
          [] >>= Node.keyed) := by
        rcases hl : enumerateUnder (U.rlp getHash) t (Node.pathToNibbles (asBytes pre))
          [] with fault | l
        · obtain ⟨e, rfl⟩ := orderly_enumerateUnder t _ _ fault hl
          exact orderly_errMsg e.kind e.message
        · rw [except_ok_bind, orderly_keyed_iff]
          intro hodd
          exact hno ⟨_, root, t, l, hproof, hroot, ht, hl, hodd⟩
      obtain ⟨b, hb⟩ := exists_rangeVerdict.mpr horderly
      exact ⟨b, hb ▸ hreturns⟩

/-- A proof and the requests that it is checked against. -/
structure ProofCheck where
  proof : Bytes
  rootHash : Bytes
  key : Bytes
  expected : Option String
  pre : String
  fromSeqno : Option ℕ
  nextSeqno : Option ℕ
  kvs : List (String × Option String)

/-- Both checks end with a boolean. -/
def Decides (U : UntrustedRlp) (getHash : Node → Bytes) (c : ProofCheck) : Prop :=
  (∃ b, Returns
    (fun fuel => U.verifyProofBytes getHash fuel c.proof c.rootHash c.key c.expected) (.ok b)) ∧
    ∃ b, Returns (fun fuel =>
      U.verifyProofRangeBytes getHash fuel c.proof c.rootHash c.pre c.fromSeqno c.nextSeqno c.kvs)
      (.ok b)

theorem not_decides_of_hasEmptyPair {c : ProofCheck} (h : U.HasEmptyPair c.proof) :
    ¬ U.Decides getHash c := by
  rintro ⟨⟨b, n, hn⟩, -⟩
  have hfault : U.verifyProofBytes getHash n c.proof c.rootHash c.key c.expected = .ok b :=
    hn n le_rfl
  rw [verifyProofBytes, nodes_of_hasEmptyPair h] at hfault
  cases hfault

theorem decides_iff (U : UntrustedRlp) (getHash : Node → Bytes) (c : ProofCheck)
    (hends : U.ProofEnds getHash c.proof) : U.Decides getHash c ↔
      ¬ U.HasEmptyPair c.proof ∧ ¬ U.HasOddKey getHash c.proof c.rootHash c.pre := by
  by_cases h : U.HasEmptyPair c.proof
  · exact iff_of_false (not_decides_of_hasEmptyPair h) fun hno => hno.1 h
  · constructor
    · rintro ⟨-, hrange⟩
      exact ⟨h,
        (verifyProofRangeBytes_returns hends h c.pre c.fromSeqno c.nextSeqno c.kvs).mp hrange⟩
    · rintro ⟨-, hodd⟩
      exact ⟨verifyProofBytes_returns hends h c.key c.expected,
        (verifyProofRangeBytes_returns hends h c.pre c.fromSeqno c.nextSeqno c.kvs).mpr hodd⟩

section Samples

/-- A list of one pair, both items of which are empty data. -/
def pairProof : Bytes := [0xc3, 0xc2, 0x80, 0x80]

/-- A list of one leaf, whose path is the single nibble 1, with the bytes `v` as its value. -/
def nibbleProof : Bytes := [0xc5, 0xc4, 0x31, 0x82, 0xc1, 0x76]

def nibbleLeaf : Node := .leaf [0x31] [0xc1, 0x76]

/-- SHA3-256 of the encoded `nibbleLeaf`. -/
def nibbleRoot : Bytes :=
  [179, 236, 217, 10, 144, 235, 55, 157, 217, 156, 98, 192, 226, 197, 19, 121, 110, 39, 34, 163,
    245, 190, 20, 216, 254, 63, 180, 119, 171, 237, 181, 81]

/-- The items of the lists in the two proofs. -/
def sampleItems (b : Bytes) : List Bytes :=
  if b = pairProof then [[0xc2, 0x80, 0x80]]
  else if b = [0xc2, 0x80, 0x80] then [[0x80], [0x80]]
  else if b = nibbleProof then [[0xc4, 0x31, 0x82, 0xc1, 0x76]]
  else if b = [0xc4, 0x31, 0x82, 0xc1, 0x76] then [[0x31], [0x82, 0xc1, 0x76]]
  else if b = [0xc1, 0x76] then [[0x76]]
  else []

/-- The data in the two proofs. -/
def sampleData (b : Bytes) : Except DecoderError Bytes :=
  if b = [0x80] then .ok []
  else if b = [0x31] ∨ b = [0x76] then .ok b
  else if b = [0x82, 0xc1, 0x76] then .ok [0xc1, 0x76]
  else .error .crate

theorem length_lt_of_mem_sampleItems {b c : Bytes} (h : c ∈ sampleItems b) :
    c.length < b.length := by
  unfold sampleItems at h
  split_ifs at h with h₁ h₂ h₃ h₄ h₅
  · subst h₁
    simp_all [pairProof]
  · subst h₂
    simp_all
  · subst h₃
    simp_all [nibbleProof]
  · subst h₄
    simp only [List.mem_cons, List.not_mem_nil, or_false] at h
    rcases h with rfl | rfl <;> decide
  · subst h₅
    simp_all
  · cases h

def sampleReader : UntrustedRlp where
  prototype b := match sampleData b with
    | .ok v => .ok (.data v.length)
    | .error _ => .ok (.list (sampleItems b).length)
  item b i := match (sampleItems b)[i]? with
    | some c => .ok c
    | none => .error .crate
  asVec := sampleData
  isEmpty b := b = [0x80]
  iter := sampleItems
  item_length b i c h := by
    split at h
    · rename_i c' hc'
      obtain rfl := Except.ok.inj h
      exact length_lt_of_mem_sampleItems (List.mem_of_getElem? hc')
    · cases h
  asVec_length b n v hproto hv := by
    rw [hv] at hproto
    simpa using hproto

def pairCheck : ProofCheck := ⟨pairProof, nibbleRoot, [], none, "", none, none, []⟩

def nibbleCheck : ProofCheck := ⟨nibbleProof, nibbleRoot, [], none, "", none, none, []⟩

theorem isProof_nibbleProof : sampleReader.IsProof nibbleProof [nibbleLeaf] := by
  have hleaf : sampleReader.Encodes [0xc4, 0x31, 0x82, 0xc1, 0x76] nibbleLeaf := by
    refine .leaf (c := [0x31]) (d := [0x82, 0xc1, 0x76]) ?_ ?_ ?_ ?_ ?_ ?_ <;> rfl
  exact .cons hleaf .nil

theorem proofEnds_nibbleProof : sampleReader.ProofEnds (fun _ => nibbleRoot) nibbleProof := by
  intro ns hns
  obtain rfl : [nibbleLeaf] = ns :=
    Except.ok.inj ((nodes_eq_ok_iff.mpr isProof_nibbleProof).symm.trans (nodes_eq_ok_iff.mpr hns))
  refine ⟨fun _ => 0, ?_⟩
  intro h node r hnode hrefers
  obtain rfl : node = nibbleLeaf := by simpa using Node.mem_of_trieDB hnode
  cases hrefers

theorem decides_iff_nibbleCheck : sampleReader.Decides (fun _ => nibbleRoot) nibbleCheck ↔
    ¬ sampleReader.HasEmptyPair nibbleCheck.proof ∧
      ¬ sampleReader.HasOddKey (fun _ => nibbleRoot) nibbleCheck.proof nibbleCheck.rootHash
        nibbleCheck.pre :=
  decides_iff sampleReader (fun _ => nibbleRoot) nibbleCheck proofEnds_nibbleProof

theorem hasOddKey_nibbleProof :
    sampleReader.HasOddKey (fun _ => nibbleRoot) nibbleProof nibbleRoot "" := by
  have hlist : (sampleReader.rlp fun _ => nibbleRoot).list [0xc1, 0x76] = some [[0x76]] := by rfl
  have htext : Node.textOf (sampleReader.rlp fun _ => nibbleRoot) [0xc1, 0x76] = some (.ok "v") :=
    textOf_eq_ok.mpr ⟨[0x76], hlist, fromUtf8_v⟩
  refine ⟨[nibbleLeaf], nibbleLeaf, .leaf [1] [0xc1, 0x76], [([1], "v")], isProof_nibbleProof, ?_,
    .leaf rfl, ?_, ?_⟩
  · simp [Node.trieDB, rlp]
  · rw [enumerateUnder, if_pos, Node.leafValue, htext]
    · rfl
    · rw [show Node.pathToNibbles (asBytes "") = [] by decide]
      exact List.nil_prefix
  · exact ⟨[], [1], "v", [], rfl, rfl, by simp⟩

/-- An empty path and a path of one nibble make the code panic. -/
theorem not_decides : ¬ sampleReader.Decides (fun _ => nibbleRoot) pairCheck ∧
    ¬ sampleReader.Decides (fun _ => nibbleRoot) nibbleCheck := by
  have hpair : sampleReader.HasEmptyPair pairProof := by
    refine ⟨[], [0xc2, 0x80, 0x80], [], rfl, by simp, ?_⟩
    refine .here (c := [0x80]) ?_ ?_ ?_ <;> rfl
  have hnone : ¬ sampleReader.HasEmptyPair nibbleProof := by
    intro h
    have hpanic := nodes_of_hasEmptyPair h
    rw [nodes_eq_ok_iff.mpr isProof_nibbleProof] at hpanic
    cases hpanic
  refine ⟨not_decides_of_hasEmptyPair hpair, ?_⟩
  rintro ⟨-, hrange⟩
  exact (verifyProofRangeBytes_returns proofEnds_nibbleProof hnone "" none none []).mp hrange
    hasOddKey_nibbleProof

end Samples

end UntrustedRlp

end SimpleAsset.Indy
