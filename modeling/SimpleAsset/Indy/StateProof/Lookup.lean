import SimpleAsset.Indy.StateProof.Node

/-! What a state proof proves: lookup in the nodes of a proof against the trie they stand for. -/
namespace SimpleAsset.Indy
open SimpleAsset.Library

/-- A node, with the references the database resolves, stands for a trie. A reference that is
missing from the database may stand for anything. -/
inductive Resolves (db : TrieDB) : Node → Trie Nibble Bytes → Prop
  | blank : Resolves db .blank .blank
  | leaf {path value : Bytes} {nibbles : List Nibble}
      (hpath : Node.parsePath path = .ok (true, nibbles)) :
      Resolves db (.leaf path value) (.leaf nibbles value)
  | extension {path : Bytes} {nibbles : List Nibble} {next : Node} {t : Trie Nibble Bytes}
      (hpath : Node.parsePath path = .ok (false, nibbles)) (hnext : Resolves db next t) :
      Resolves db (.extension path next) (.extension nibbles t)
  | full {nodes : Nibble → Option Node} {value : Option Bytes} {ts : Nibble → Trie Nibble Bytes}
      (hnone : ∀ x, nodes x = none → ts x = .blank)
      (hsome : ∀ x n, nodes x = some n → Resolves db n (ts x)) :
      Resolves db (.full nodes value) (.full ts value)
  | hash {h : Bytes} {next : Node} {t : Trie Nibble Bytes} (hlen : h.length = 32)
      (hget : db h = some next) (hnext : Resolves db next t) : Resolves db (.hash h) t
  | missing {h : Bytes} (hget : db h = none) (content : List Nibble → Option Bytes) :
      Resolves db (.hash h) (.hidden content)

/-- What the walk of a key finds: its value, or the value of the leaf inside whose path it ends. -/
def walkValue : Trie Nibble Bytes → List Nibble → Option Bytes
  | .leaf path value, key => if key <+: path then some value else none
  | .extension path next, key =>
    if path <+: key then walkValue next (key.drop path.length) else none
  | .full _ value, [] => value
  | .full nodes _, x :: key => walkValue (nodes x) key
  | _, _ => none

theorem walkValue_eq_lookup {t : Trie Nibble Bytes} {key : List Nibble} (hexp : t.Exposed key)
    (h : ¬ t.EndsInLeaf key) : walkValue t key = t.lookup key := by
  induction t generalizing key with
  | blank => rfl
  | leaf path value =>
    rw [walkValue, Trie.lookup]
    by_cases hkey : key = path
    · rw [if_pos hkey, if_pos (by rw [hkey])]
    · rw [if_neg hkey, if_neg fun hpre => h ⟨hpre, hkey⟩]
  | extension path next ih =>
    rw [walkValue, Trie.lookup]
    split
    · rename_i hpre
      exact ih (hexp hpre) fun hend => h ⟨hpre, hend⟩
    · rfl
  | full nodes value ih =>
    cases key with
    | nil => rfl
    | cons x key => exact ih x hexp h
  | hidden content => exact absurd hexp id

theorem walkValue_of_endsInLeaf {t : Trie Nibble Bytes} {key : List Nibble} (h : t.EndsInLeaf key) :
    ∃ value, walkValue t key = some value := by
  induction t generalizing key with
  | blank => exact absurd h id
  | leaf path value => exact ⟨value, if_pos h.1⟩
  | extension path next ih =>
    obtain ⟨value, hvalue⟩ := ih h.2
    exact ⟨value, by rw [walkValue, if_pos h.1, hvalue]⟩
  | full nodes value ih =>
    cases key with
    | nil => exact absurd h id
    | cons x key => exact ih x h
  | hidden content => exact absurd h id

/-- The code's walk computes `walkValue`. -/
theorem getNode_returns {db : TrieDB} {node : Node} {t : Trie Nibble Bytes} (h : Resolves db node t)
    {key : List Nibble} (seen : List Nibble) (hexp : t.Exposed key) :
    Returns (fun fuel => Node.getNode db fuel node key seen >>= Node.foundValue)
      (.ok (walkValue t key)) := by
  induction h generalizing key seen with
  | blank => exact .succ (g := fun _ => .ok none) (fun _ => rfl) ⟨0, fun _ _ => rfl⟩
  | @leaf path value nibbles hpath =>
    refine .succ (g := fun _ => .ok (walkValue (.leaf nibbles value) key)) ?_ ⟨0, fun _ _ => rfl⟩
    intro fuel
    rw [walkValue]
    by_cases hpre : key <+: nibbles <;> simp [Node.getNode, Node.foundValue, hpath, hpre]
  | @extension path nibbles next t hpath hnext ih =>
    by_cases hpre : nibbles <+: key
    · rw [walkValue, if_pos hpre]
      refine .succ ?_ (ih (seen ++ nibbles) (hexp hpre))
      intro fuel
      simp [Node.getNode, hpath, hpre]
    · rw [walkValue, if_neg hpre]
      refine .succ (g := fun _ => .ok none) ?_ ⟨0, fun _ _ => rfl⟩
      intro fuel
      by_cases hin : key <+: nibbles <;> simp [Node.getNode, Node.foundValue, hpath, hpre, hin]
  | @full nodes value ts hnone hsome ih =>
    cases key with
    | nil => exact .succ (g := fun _ => .ok value) (fun _ => rfl) ⟨0, fun _ _ => rfl⟩
    | cons x key =>
      rw [walkValue]
      rcases hx : nodes x with _ | next
      · rw [hnone x hx]
        refine .succ (g := fun _ => .ok none) ?_ ⟨0, fun _ _ => rfl⟩
        intro fuel
        simp [Node.getNode, Node.foundValue, hx]
      · refine .succ ?_ (ih x next hx (seen ++ [x]) hexp)
        intro fuel
        simp [Node.getNode, hx]
  | hash hlen hget hnext ih =>
    refine .succ ?_ (ih seen hexp)
    intro fuel
    simp [Node.getNode, hlen, hget]
  | missing hget content => exact absurd hexp id

theorem getValue_returns (R : Rlp) {db : TrieDB} {node : Node} {t : Trie Nibble Bytes} {key : Bytes}
    (h : Resolves db node t) (hexp : t.Exposed (Node.pathToNibbles key)) :
    Returns (fun fuel => node.getValue R db fuel key)
      (Node.unpackValue R (walkValue t (Node.pathToNibbles key))) :=
  (getNode_returns h [] hexp).map (· >>= Node.unpackValue R)

theorem unpackValue_eq_some {R : Rlp} {o : Option Bytes} {v : Bytes} :
    Node.unpackValue R o = .ok (some v) ↔ ∃ raw, o = some raw ∧ R.list raw = some [v] := by
  rcases o with _ | raw
  · simp [Node.unpackValue]
  · simp only [Node.unpackValue, Option.some.injEq, exists_eq_left']
    rcases R.list raw with _ | _ | ⟨x, _ | ⟨y, l⟩⟩ <;> simp [errMsg]

theorem unpackValue_eq_none {R : Rlp} {o : Option Bytes} :
    Node.unpackValue R o = .ok none ↔ o = none := by
  rcases o with _ | raw
  · simp [Node.unpackValue]
  · simp only [Node.unpackValue]
    split <;> simp [errMsg]

/-- An accepted expectation is what the walk finds. -/
theorem strValue_of_verifyProof {R : Rlp} {proof rootHash key : Bytes} {db : TrieDB} {root : Node}
    {t : Trie Nibble Bytes} {expected : Option String}
    (hdb : Node.trieDB R ((R.nodes proof).getD []) = db)
    (hroot : db rootHash = some root) (h : Resolves db root t)
    (hexp : t.Exposed (Node.pathToNibbles key))
    (hacc : Returns (fun fuel => verifyProof R fuel proof rootHash key expected) (.ok true)) :
    Node.unpackValue R (walkValue t (Node.pathToNibbles key)) >>= Node.strValue = .ok expected := by
  have hstr := (getValue_returns R h hexp).map (· >>= Node.strValue)
  have heq := (hstr.map (matchesExpected expected)).unique
    (by simpa only [verifyProof, hdb, hroot, Node.getStrValue] using hacc)
  rcases hvalue : Node.unpackValue R (walkValue t (Node.pathToNibbles key)) >>=
    Node.strValue with e | value
  · rcases e with _ | _ | _ <;> simp [hvalue, matchesExpected] at heq
  · simpa [hvalue, matchesExpected] using heq

/-- `M` maps a key to the one-item list of `v`. -/
def Stores (R : Rlp) (t : Trie Nibble Bytes) (key v : Bytes) : Prop :=
  ∃ raw, t.lookup (Node.pathToNibbles key) = some raw ∧ R.list raw = some [v]

/-- A lookup shows what the trie holds under this very key, and no proof with these nodes is
accepted for anything else. -/
structure ProvesKey (R : Rlp) (db : TrieDB) (root : Node) (t : Trie Nibble Bytes)
    (key : Bytes) : Prop where
  value : ∀ v, Returns (fun fuel => root.getValue R db fuel key) (.ok (some v)) ↔ Stores R t key v
  absent : Returns (fun fuel => root.getValue R db fuel key) (.ok none) ↔
    t.lookup (Node.pathToNibbles key) = none
  accepts_some : ∀ proof rootHash text, Node.trieDB R ((R.nodes proof).getD []) = db →
    db rootHash = some root →
    Returns (fun fuel => verifyProof R fuel proof rootHash key (some text)) (.ok true) →
    ∃ v, Stores R t key v ∧ fromUtf8 v = some text
  accepts_none : ∀ proof rootHash, Node.trieDB R ((R.nodes proof).getD []) = db →
    db rootHash = some root →
    Returns (fun fuel => verifyProof R fuel proof rootHash key none) (.ok true) →
    t.lookup (Node.pathToNibbles key) = none

theorem strValue_eq_ok {R : Rlp} {o : Option Bytes} {expected : Option String}
    (h : Node.unpackValue R o >>= Node.strValue = .ok expected) :
    o = none ∧ expected = none ∨
      ∃ raw v text, o = some raw ∧ R.list raw = some [v] ∧ fromUtf8 v = some text ∧
        expected = some text := by
  rcases hv : Node.unpackValue R o with e | _ | v
  · simp [hv] at h
  · left
    refine ⟨unpackValue_eq_none.mp hv, ?_⟩
    simpa [hv, Node.strValue] using h.symm
  · right
    obtain ⟨raw, hraw, hlist⟩ := unpackValue_eq_some.mp hv
    rcases htext : fromUtf8 v with _ | text
    · simp [hv, Node.strValue, htext, errMsg] at h
    · exact ⟨raw, v, text, hraw, hlist, htext, by simpa [hv, Node.strValue, htext] using h.symm⟩

/-- A proof proves the requested key exactly when the key does not end inside the path of a leaf. -/
theorem provesKey_iff_not_endsInLeaf (R : Rlp) {db : TrieDB} {root : Node} {t : Trie Nibble Bytes}
    {key : Bytes} (h : Resolves db root t) (hexp : t.Exposed (Node.pathToNibbles key)) :
    ProvesKey R db root t key ↔ ¬ t.EndsInLeaf (Node.pathToNibbles key) := by
  have hret := getValue_returns R h hexp
  constructor
  · intro hp hend
    obtain ⟨value, hvalue⟩ := walkValue_of_endsInLeaf hend
    have hnone := hret.unique (hp.absent.mpr (Trie.lookup_of_endsInLeaf hend))
    rw [hvalue, unpackValue_eq_none] at hnone
    cases hnone
  · intro hend
    have hwalk := walkValue_eq_lookup hexp hend
    rw [hwalk] at hret
    refine ⟨?_, ?_, ?_, ?_⟩
    · intro v
      rw [Stores, ← unpackValue_eq_some]
      exact ⟨fun hv => hret.unique hv, fun hv => hv ▸ hret⟩
    · rw [← unpackValue_eq_none (R := R)]
      exact ⟨fun hv => hret.unique hv, fun hv => hv ▸ hret⟩
    · intro proof rootHash text hdb hroot hacc
      have hstr := strValue_of_verifyProof hdb hroot h hexp hacc
      rw [hwalk] at hstr
      rcases strValue_eq_ok hstr with ⟨-, hno⟩ | ⟨raw, v, str, hraw, hlist, hutf, heq⟩
      · cases hno
      · exact ⟨v, ⟨raw, hraw, hlist⟩, by rw [hutf, heq]⟩
    · intro proof rootHash hdb hroot hacc
      have hstr := strValue_of_verifyProof hdb hroot h hexp hacc
      rw [hwalk] at hstr
      rcases strValue_eq_ok hstr with ⟨hraw, -⟩ | ⟨raw, v, text, -, -, -, hno⟩
      · exact hraw
      · cases hno

/-- The trie with `ab` as its only key, under the value `v`. -/
def sampleLeaf : Node := .leaf [0x20, 0x61, 0x62] [0xc1, 0x76]

def sampleProof : Bytes := [0xc8, 0xc7, 0x83, 0x20, 0x61, 0x62, 0x82, 0xc1, 0x76]

/-- SHA3-256 of the encoded leaf. -/
def sampleRoot : Bytes :=
  [120, 76, 8, 133, 6, 48, 48, 237, 71, 153, 82, 68, 28, 110, 107, 99, 202, 23, 4, 4, 166,
    176, 127, 220, 152, 37, 240, 140, 79, 20, 234, 237]

def sampleRlp : Rlp where
  nodes proof := if proof = sampleProof then some [sampleLeaf] else none
  list raw := if raw = [0xc1, 0x76] then some [[0x76]] else none
  getHash _ := sampleRoot

private theorem sampleLeaf_resolves (db : TrieDB) :
    Resolves db sampleLeaf (.leaf [6, 1, 6, 2] [0xc1, 0x76]) :=
  .leaf (by decide)

theorem provesKey_iff_not_endsInLeaf_ab :
    ProvesKey sampleRlp (Node.trieDB sampleRlp [sampleLeaf]) sampleLeaf
      (.leaf [6, 1, 6, 2] [0xc1, 0x76])
        [0x61, 0x62] ↔
      ¬ (Trie.leaf [6, 1, 6, 2] [0xc1, 0x76] : Trie Nibble Bytes).EndsInLeaf
        (Node.pathToNibbles [0x61, 0x62]) :=
  provesKey_iff_not_endsInLeaf sampleRlp (sampleLeaf_resolves _) trivial

/-- The leaf of `ab` answers a request for `a`. -/
theorem not_provesKey_prefix :
    Node.trieDB sampleRlp [sampleLeaf] sampleRoot = some sampleLeaf ∧
      Resolves (Node.trieDB sampleRlp [sampleLeaf]) sampleLeaf (.leaf [6, 1, 6, 2] [0xc1, 0x76]) ∧
      Returns (fun fuel => verifyProof sampleRlp fuel sampleProof sampleRoot [0x61] (some "v"))
        (.ok true) ∧
      (Trie.leaf [6, 1, 6, 2] [0xc1, 0x76] : Trie Nibble Bytes).lookup
        (Node.pathToNibbles [0x61]) = none ∧
      ¬ ProvesKey sampleRlp (Node.trieDB sampleRlp [sampleLeaf]) sampleLeaf
        (.leaf [6, 1, 6, 2] [0xc1, 0x76]) [0x61] := by
  have hutf : fromUtf8 [0x76] = some "v" := by
    rw [show [0x76] = asBytes "v" by decide, fromUtf8_asBytes]
  have hnone : (Trie.leaf [6, 1, 6, 2] [0xc1, 0x76] : Trie Nibble Bytes).lookup
      (Node.pathToNibbles [0x61]) = none := by
    decide
  have hacc : Returns (fun fuel =>
      verifyProof sampleRlp fuel sampleProof sampleRoot [0x61] (some "v")) (.ok true) := by
    refine .succ (g := fun _ => .ok true) ?_ ⟨0, fun _ _ => rfl⟩
    intro fuel
    have hvalue : sampleLeaf.getValue sampleRlp (Node.trieDB sampleRlp [sampleLeaf])
        (fuel + 1) [0x61] = .ok (some [0x76]) := rfl
    have hstr : sampleLeaf.getStrValue sampleRlp (Node.trieDB sampleRlp [sampleLeaf])
        (fuel + 1) [0x61] = .ok (some "v") := by
      rw [Node.getStrValue, hvalue, except_ok_bind, Node.strValue, hutf]
    show matchesExpected (some "v")
      (sampleLeaf.getStrValue sampleRlp (Node.trieDB sampleRlp [sampleLeaf])
      (fuel + 1) [0x61]) = .ok true
    rw [hstr]
    rfl
  refine ⟨rfl, sampleLeaf_resolves _, hacc, hnone, ?_⟩
  intro h
  obtain ⟨v, ⟨raw, hraw, -⟩, -⟩ := h.accepts_some sampleProof sampleRoot "v" rfl rfl hacc
  rw [hnone] at hraw
  cases hraw

end SimpleAsset.Indy
