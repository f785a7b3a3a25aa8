import SimpleAsset.Library.Descent
import SimpleAsset.Indy.Primitive
import SimpleAsset.Indy.Merkle.Tree

/-! Audit paths of GET_TXN replies (`state_proof/mod.rs`): what an accepted path says about the
position of the transaction in the ledger. -/
namespace SimpleAsset.Indy
open SimpleAsset.Library

/-- Third-party decoders used on a GET_TXN reply. -/
structure Codecs where
  base64Decode : String → Option Bytes
  fromBase58 : String → Option Bytes
  /-- `serde_json::from_str::<Vec<String>>` -/
  jsonStrings : String → Option (List String)
  /-- `rmp_serde::to_vec` of `serde_json::from_str::<Value>` -/
  jsonToMsgpack : String → Option Bytes

/-- Everything has an encoding. -/
structure Codecs.Encodes (C : Codecs) : Prop where
  base64 : ∀ b, ∃ s, C.base64Decode s = some b
  base58 : ∀ b, ∃ s, C.fromBase58 s = some b
  strings : ∀ l, ∃ s, C.jsonStrings s = some l

/-- `_calculate_turns`; the caller passes an empty `result`. -/
def calculateTurns (build : Build) (fuel length idx : ℕ) (result : List Bool) :
    Outcome (List Bool) :=
  if length = 1 then .ok result.reverse
  else match fuel with
    | 0 => .error .outOfFuel
    | fuel + 1 => do
      let middle := (← nextPowerOfTwo build length) / 2
      if idx < middle then calculateTurns build fuel middle idx (result ++ [true])
      else calculateTurns build fuel (length - middle) (idx - middle) (result ++ [false])

/-- Loop over the hashes of the path; `none` when one is not base58. -/
def foldPath (H : Hash) (C : Codecs) (hash : Bytes) : List (String × Bool) → Option Bytes
  | [] => some hash
  | (next, turnRight) :: path =>
    match C.fromBase58 next with
    | none => none
    | some next =>
      foldPath H C (if turnRight then H.hashNodes hash next else H.hashNodes next hash) path

/-- Sequence number a key stands for. -/
def seqNoOf (C : Codecs) (key : String) : Option ℕ :=
  ((C.base64Decode key).bind fromUtf8).bind parseU64

/-- `_verify_merkle_tree`. -/
def verifyMerkleTree (H : Hash) (C : Codecs) (build : Build) (fuel : ℕ)
    (proofNodes rootHash : Bytes)
    (kvs : List (String × Option String)) (length : ℕ) : Outcome Bool :=
  match (fromUtf8 proofNodes).bind C.jsonStrings with
  | none => .ok false
  | some hashes =>
    match kvs with
    | [] => .error (.panic .outOfBounds)
    | (key, value) :: _ =>
      match seqNoOf C key with
      | none => .ok false
      | some seqNo => do
        let turns ← calculateTurns build fuel length (← subU64 build seqNo 1) []
        if hashes.length ≠ turns.length then return false
        match value.bind C.jsonToMsgpack with
        | none => return false
        | some leaf =>
          match foldPath H C (H.hashLeaf leaf) (hashes.zip turns) with
          | none => return false
          | some hash => return decide (hash = rootHash)

/-- Within 63 bits the turns are the way to the leaf, read from the leaf. -/
theorem calculateTurns_cases (build : Build) (fuel : ℕ) {length : ℕ} (idx : ℕ) (result : List Bool)
    (h1 : 1 ≤ length) (h2 : length ≤ 2 ^ 63) :
    calculateTurns build fuel length idx result = .ok (result ++ descent length idx).reverse ∨
      calculateTurns build fuel length idx result = .error .outOfFuel ∧ fuel + 1 < length := by
  induction fuel generalizing length idx result with
  | zero =>
    rw [calculateTurns]
    split
    · rename_i h
      left
      rw [h, descent, if_neg (by omega), List.append_nil]
    · exact .inr ⟨rfl, by omega⟩
  | succ fuel ih =>
    rw [calculateTurns]
    split
    · rename_i h
      left
      rw [h, descent, if_neg (by omega), List.append_nil]
    · have hlen : 1 < length := by omega
      have hlt := splitPoint_lt (n := length) hlen
      have hpos := splitPoint_pos length
      rw [nextPowerOfTwo.eq_def, if_pos h2, descent.eq_1 length, if_pos hlen]
      simp only [except_ok_bind, half_pow_clog hlen]
      split
      · have hup := ih idx (result ++ [true]) hpos (by omega)
        rw [List.append_assoc, List.singleton_append] at hup
        exact hup.imp_right fun h => ⟨h.1, by omega⟩
      · have hup := ih (idx - splitPoint length) (result ++ [false])
          (show 1 ≤ length - splitPoint length by omega) (by omega)
        rw [List.append_assoc, List.singleton_append] at hup
        exact hup.imp_right fun h => ⟨h.1, by omega⟩

/-- Beyond 63 bits the loop overflows or spins. -/
theorem calculateTurns_ne_ok (build : Build) {fuel length idx : ℕ} (result turns : List Bool)
    (h : 2 ^ 63 < length) : calculateTurns build fuel length idx result ≠ .ok turns := by
  induction fuel generalizing idx result with
  | zero =>
    rw [calculateTurns, if_neg (by omega)]
    simp
  | succ fuel ih =>
    rw [calculateTurns, if_neg (by omega), nextPowerOfTwo.eq_def, if_neg (by omega)]
    cases build with
    | debug => simp
    | release => simpa using ih _

theorem exists_path_of_foldPath {H : Hash} {C : Codecs} {hash r : Bytes}
    {path : List (String × Bool)} (h : foldPath H C hash path = some r) :
    ∃ p : List (Bytes × Bool), p.map Prod.snd = path.map Prod.snd ∧
      ascend H.hashNodes hash p = r := by
  induction path generalizing hash with
  | nil => exact ⟨[], rfl, Option.some.inj h⟩
  | cons x path ih =>
    obtain ⟨next, right⟩ := x
    simp only [foldPath] at h
    split at h
    · cases h
    · rename_i d _
      obtain ⟨p, hp, hr⟩ := ih h
      exact ⟨(d, right) :: p, by simp [hp], by simpa [ascend] using hr⟩

theorem foldPath_map {H : Hash} {C : Codecs} {enc : Bytes → String}
    (henc : ∀ b, C.fromBase58 (enc b) = some b)
    (hash : Bytes) (ds : List Bytes) (turns : List Bool) :
    foldPath H C hash ((ds.map enc).zip turns) = some (ascend H.hashNodes hash (ds.zip turns)) := by
  induction ds generalizing hash turns with
  | nil => rfl
  | cons d ds ih =>
    cases turns with
    | nil => rfl
    | cons t turns => simp [foldPath, henc, ih, ascend]

/-- What acceptance of one key-value pair comes to. -/
theorem verifyMerkleTree_accepts {H : Hash} {C : Codecs} {build : Build} {fuel L s : ℕ}
    {nodes root : Bytes}
    {key : String} {value : Option String} (hL : 1 ≤ L) (hs : 1 ≤ s) (hkey : seqNoOf C key = some s)
    (h : verifyMerkleTree H C build fuel nodes root [(key, value)] L = .ok true) :
    L ≤ 2 ^ 63 ∧ ∃ v leaf p, value = some v ∧ C.jsonToMsgpack v = some leaf ∧
      p.map Prod.snd = (descent L (s - 1)).reverse ∧
      ascend H.hashNodes (H.hashLeaf leaf) p = root := by
  unfold verifyMerkleTree at h
  rcases hn : (fromUtf8 nodes).bind C.jsonStrings with _ | hashes
  · simp [hn] at h
  simp only [hn, hkey, subU64_of_le build hs, except_ok_bind] at h
  rcases Nat.lt_or_ge (2 ^ 63) L with hbig | hsmall
  · rcases hc : calculateTurns build fuel L (s - 1) [] with e | turns
    · simp [hc] at h
    · exact absurd hc (calculateTurns_ne_ok build _ _ hbig)
  refine ⟨hsmall, ?_⟩
  rcases calculateTurns_cases build fuel (s - 1) [] hL hsmall with hc | ⟨hc, -⟩
  · rw [hc, List.nil_append, except_ok_bind] at h
    rcases Nat.decEq hashes.length (descent L (s - 1)).reverse.length with hlen | hlen
    · rw [if_pos hlen] at h
      simp at h
    rw [if_neg (by simpa using hlen)] at h
    rcases value with _ | v
    · simp at h
    rcases hv : C.jsonToMsgpack v with _ | leaf
    · simp [hv] at h
    rcases hf : foldPath H C (H.hashLeaf leaf)
      (hashes.zip (descent L (s - 1)).reverse) with _ | hash
    · simp [hv, hf] at h
    have hroot : hash = root := by simpa [hv, hf] using h
    obtain ⟨p, hp, hr⟩ := exists_path_of_foldPath hf
    rw [List.map_snd_zip hlen.ge] at hp
    exact ⟨v, leaf, p, rfl, hv, hp, hr.trans hroot⟩
  · simp [hc] at h

/-- The hash of the empty ledger is the hash of nothing else. -/
structure Hash.EmptyApart (H : Hash) : Prop where
  leaf : ∀ v, H.hashLeaf v ≠ emptyHashBytes
  nodes : ∀ l r, H.hashNodes l r ≠ emptyHashBytes

/-- Whatever the node sends for sequence number `s` and length `L`, an accepted value is the `s`-th
transaction of the ledger `D`. -/
def BindsSeqNo (H : Hash) (C : Codecs) (build : Build) (D : List Bytes) (root : Bytes)
    (L s : ℕ) : Prop :=
  ∀ fuel nodes key value, seqNoOf C key = some s →
    verifyMerkleTree H C build fuel nodes root [(key, value)] L = .ok true →
    s ≤ D.length ∧ ∃ v, value = some v ∧ C.jsonToMsgpack v = D[s - 1]?

/-- No other transaction of `D` lies where leaf `s` of a tree with `L` leaves lies. -/
def PlacedAlone (D : List Bytes) (L s : ℕ) : Prop :=
  L ≤ 2 ^ 63 → ∀ i < D.length, descent D.length i = descent L (s - 1) → s ≤ D.length ∧
    D[i]? = D[s - 1]?

/-- With the true length every number of the ledger has its place alone. -/
theorem placedAlone_length (D : List Bytes) {s : ℕ} (hs : 1 ≤ s) (hsD : s ≤ D.length) :
    PlacedAlone D D.length s := by
  intro _ i hi h
  have hi' : i = s - 1 := descent_inj hi (by omega) h
  exact ⟨hsD, by rw [hi']⟩

theorem ascend_ne_empty {H : Hash} (he : H.EmptyApart) (v : Bytes) (p : List (Bytes × Bool)) :
    ascend H.hashNodes (H.hashLeaf v) p ≠ emptyHashBytes := by
  induction p using List.reverseRecOn with
  | nil => exact he.leaf v
  | append_singleton p x _ =>
    obtain ⟨x, right⟩ := x
    rw [ascend_append_singleton]
    split
    · exact he.nodes _ _
    · exact he.nodes _ _

/-- An accepted path leads to a transaction of the ledger, at the place the turns name. -/
theorem exists_position_of_accepts {H : Hash} (hH : H.CollisionFree) {D : List Bytes}
    {t : MerkleTree}
    (he : D = [] → H.EmptyApart) (ht : MerkleTree.fromVec H D = .ok t) {leaf : Bytes}
    {p : List (Bytes × Bool)} (hp : ascend H.hashNodes (H.hashLeaf leaf) p = t.rootHash) :
    ∃ i, D[i]? = some leaf ∧ (p.map Prod.snd).reverse = descent D.length i := by
  rcases D.eq_nil_or_concat with rfl | ⟨_, _, rfl⟩
  · rw [MerkleTree.fromVec_nil, Except.ok.injEq] at ht
    subst ht
    exact absurd hp (ascend_ne_empty (he rfl) leaf p)
  · obtain ⟨-, hr⟩ := MerkleTree.fromVec_spec H (by simp) ht
    obtain ⟨i, hi, hpath⟩ := descent_of_ascend hH.nodes (fun a b => hH.disjoint leaf a b)
      (fun y hy => by
        obtain ⟨v, -, rfl⟩ := List.mem_map.mp hy
        exact fun a b => hH.disjoint v a b) hr hp
    rw [List.getElem?_map, Option.map_eq_some_iff] at hi
    obtain ⟨v, hv, hvl⟩ := hi
    exact ⟨i, by rw [hv, hH.leaf hvl], by rw [hpath, List.length_map]⟩

/-- The audit path of any transaction is accepted for every length and sequence number with its
turns. -/
theorem exists_accepted_path {H : Hash} {C : Codecs} (hC : C.Encodes) (build : Build)
    {D : List Bytes} {t : MerkleTree} {L s i : ℕ} (ht : MerkleTree.fromVec H D = .ok t) (hL : 1 ≤ L)
    (hL2 : L ≤ 2 ^ 63)
    (hs : 1 ≤ s) (hs2 : s < 2 ^ 64) {v : String} {leaf : Bytes} (hv : C.jsonToMsgpack v = some leaf)
    (hi : D[i]? = some leaf) (hturns : descent D.length i = descent L (s - 1)) :
    ∃ nodes key, seqNoOf C key = some s ∧
      verifyMerkleTree H C build L nodes t.rootHash [(key, some v)] L = .ok true := by
  have hD : D ≠ [] := by
    rintro rfl
    simp at hi
  obtain ⟨-, hr⟩ := MerkleTree.fromVec_spec H hD ht
  have hx : (D.map H.hashLeaf)[i]? = some (H.hashLeaf leaf) := by rw [List.getElem?_map, hi]; rfl
  obtain ⟨hlen, hup⟩ := ascend_auditPath hx hr
  rw [List.length_map, hturns] at hlen hup
  choose enc henc using hC.base58
  obtain ⟨text, htext⟩ := hC.strings ((auditPath H.hashNodes i (D.map H.hashLeaf)).map enc)
  obtain ⟨key, hkey⟩ := hC.base64 (asBytes (u64ToString s))
  have hseq : seqNoOf C key = some s := by
    rw [seqNoOf, hkey, Option.bind_some, fromUtf8_asBytes, Option.bind_some,
      parseU64_u64ToString hs2]
  have hcalc : calculateTurns build L L (s - 1) [] = .ok (descent L (s - 1)).reverse := by
    rcases calculateTurns_cases build L (s - 1) [] hL hL2 with h | ⟨-, h⟩
    · simpa using h
    · omega
  refine ⟨asBytes text, key, hseq, ?_⟩
  unfold verifyMerkleTree
  rw [fromUtf8_asBytes, Option.bind_some, htext]
  simp only [hseq, subU64_of_le build hs, hcalc, except_ok_bind, Option.bind_some, hv,
    foldPath_map henc, hup]
  simp [hlen]

/-- A proof binds the value to its sequence number exactly when the claimed length and number name
a place that no other transaction has. -/
theorem bindsSeqNo_iff_placedAlone {H : Hash} {C : Codecs} (hH : H.CollisionFree) (hC : C.Encodes)
    (build : Build) {D : List Bytes} {t : MerkleTree} {L s : ℕ} (he : D = [] → H.EmptyApart)
    (hD : ∀ leaf ∈ D, ∃ v, C.jsonToMsgpack v = some leaf) (ht : MerkleTree.fromVec H D = .ok t)
    (hL : 1 ≤ L) (hs : 1 ≤ s) (hs2 : s < 2 ^ 64) :
    BindsSeqNo H C build D t.rootHash L s ↔ PlacedAlone D L s := by
  constructor
  · intro h hL2 i hi hturns
    obtain ⟨v, hv⟩ := hD D[i] (List.getElem_mem hi)
    have hget := List.getElem?_eq_getElem hi
    obtain ⟨nodes, key, hkey, hacc⟩ := exists_accepted_path hC build ht hL hL2 hs hs2 hv hget hturns
    obtain ⟨hle, w, hw, hleaf⟩ := h L nodes key (some v) hkey hacc
    obtain rfl := Option.some.inj hw
    exact ⟨hle, by rw [hget, ← hleaf, hv]⟩
  · intro h fuel nodes key value hkey hacc
    obtain ⟨hL2, v, leaf, p, rfl, hv, hp, hroot⟩ := verifyMerkleTree_accepts hL hs hkey hacc
    obtain ⟨i, hi, hpath⟩ := exists_position_of_accepts hH he ht hroot
    rw [hp, List.reverse_reverse] at hpath
    obtain ⟨hle, heq⟩ := h hL2 i (List.getElem?_eq_some_iff.mp hi).1 hpath.symm
    exact ⟨hle, v, rfl, by rw [hv, ← heq, hi]⟩

/-- One byte for each character. -/
def sampleBytes (cs : List Char) : Bytes := cs.map fun c => c.toNat.toUInt8

/-- Strings in which 1 announces a character and anything else ends the string. -/
def sampleStrings : List Char → List Char → List String
  | current, '1' :: c :: cs => sampleStrings (current ++ [c]) cs
  | current, _ :: cs => String.ofList current :: sampleStrings [] cs
  | _, [] => []

/-- Decoders that treat the texts of the example below as the real ones do. -/
def sampleCodecs : Codecs where
  base64Decode s := match s.toList with
    | '!' :: cs => some (sampleBytes cs)
    | _ => if s = "Nw==" then some [55] else none
  fromBase58 s := some (sampleBytes s.toList)
  jsonStrings s := if s = "[]" then some [] else some (sampleStrings [] s.toList)
  jsonToMsgpack s :=
    if s = "\x7b\"3\":\"3\"\x7d" then some [0x81, 0xa1, 0x33, 0xa1, 0x33]
    else if s = "\x7b\"4\":\"4\"\x7d" then some [0x81, 0xa1, 0x34, 0xa1, 0x34]
    else if s = "\x7b\"5\":\"5\"\x7d" then some [0x81, 0xa1, 0x35, 0xa1, 0x35]
    else none

private theorem exists_sampleBytes (b : Bytes) : ∃ cs, sampleBytes cs = b := by
  refine ⟨b.map fun x => Char.ofNat x.toNat, ?_⟩
  rw [sampleBytes, List.map_map]
  conv_rhs => rw [← List.map_id b]
  apply List.map_congr_left
  intro x _
  have hx := x.toNat_lt
  have hv : x.toNat.isValidChar := .inl (by omega)
  have hc : (Char.ofNat x.toNat).toNat = x.toNat := by
    rw [Char.ofNat, dif_pos hv]
    rfl
  simp [hc]

private theorem exists_sampleStrings (l : List String) :
    ∃ cs, sampleStrings [] cs = l ∧ ∀ c ∈ cs.head?, c ≠ '[' := by
  induction l with
  | nil => exact ⟨[], rfl, by simp⟩
  | cons t l ih =>
    obtain ⟨rest, hrest, -⟩ := ih
    have hstep : ∀ (t current : List Char),
        sampleStrings current ((t.flatMap fun c => ['1', c]) ++ '0' :: rest) =
        String.ofList (current ++ t) :: l := by
      intro t
      induction t with
      | nil => intro current; simp [sampleStrings, hrest]
      | cons c t iht => intro current; simp [sampleStrings, iht]
    refine ⟨(t.toList.flatMap fun c => ['1', c]) ++ '0' :: rest, by simp [hstep], ?_⟩
    rcases t.toList with _ | ⟨c, cs⟩ <;> simp

theorem sampleCodecs_encodes : sampleCodecs.Encodes where
  base64 := fun b => by
    obtain ⟨cs, hcs⟩ := exists_sampleBytes b
    exact ⟨String.ofList ('!' :: cs), by simp [sampleCodecs, hcs]⟩
  base58 := fun b => by
    obtain ⟨cs, hcs⟩ := exists_sampleBytes b
    exact ⟨String.ofList cs, by simp [sampleCodecs, hcs]⟩
  strings := fun l => by
    obtain ⟨cs, hcs, hhead⟩ := exists_sampleStrings l
    refine ⟨String.ofList cs, ?_⟩
    have hne : String.ofList cs ≠ "[]" := by
      intro h
      have hl : cs = ['[', ']'] := by simpa using congrArg String.toList h
      exact hhead '[' (by simp [hl]) rfl
    simp [sampleCodecs, hne, hcs]

/-- A ledger of three transactions. -/
def threeTxns : List Bytes :=
  [[0x81, 0xa1, 0x33, 0xa1, 0x33], [0x81, 0xa1, 0x34, 0xa1, 0x34], [0x81, 0xa1, 0x35, 0xa1, 0x35]]

theorem bindsSeqNo_iff_placedAlone_three :
    ∃ t, MerkleTree.fromVec taggedHash threeTxns = .ok t ∧
      (BindsSeqNo taggedHash sampleCodecs .debug threeTxns t.rootHash 3 2 ↔
        PlacedAlone threeTxns 3 2) := by
  obtain ⟨t, ht⟩ := MerkleTree.exists_fromVec taggedHash threeTxns
  refine ⟨t, ht, bindsSeqNo_iff_placedAlone taggedHash_collisionFree sampleCodecs_encodes .debug
    (fun h => by cases h) ?_ ht (by simp) (by simp) (by simp)⟩
  have hthree : sampleCodecs.jsonToMsgpack "\x7b\"3\":\"3\"\x7d" =
      some [0x81, 0xa1, 0x33, 0xa1, 0x33] := rfl
  have hfour : sampleCodecs.jsonToMsgpack "\x7b\"4\":\"4\"\x7d" =
      some [0x81, 0xa1, 0x34, 0xa1, 0x34] := by decide
  have hfive : sampleCodecs.jsonToMsgpack "\x7b\"5\":\"5\"\x7d" =
      some [0x81, 0xa1, 0x35, 0xa1, 0x35] := by decide
  intro leaf hleaf
  rcases List.mem_cons.mp hleaf with rfl | hleaf
  · exact ⟨_, hthree⟩
  rcases List.mem_cons.mp hleaf with rfl | hleaf
  · exact ⟨_, hfour⟩
  obtain rfl := List.mem_singleton.mp hleaf
  exact ⟨_, hfive⟩

/-- A ledger of one transaction: the empty path proves it under number 7 as well. -/
theorem not_bindsSeqNo_seven :
    ∃ t, MerkleTree.fromVec taggedHash [[0x81, 0xa1, 0x33, 0xa1, 0x33]] = .ok t ∧
      seqNoOf sampleCodecs "Nw==" = some 7 ∧
      verifyMerkleTree taggedHash sampleCodecs .debug 0 (asBytes "[]") t.rootHash
        [("Nw==", some "\x7b\"3\":\"3\"\x7d")] 1 = .ok true ∧
      ¬ BindsSeqNo taggedHash sampleCodecs .debug
        [[0x81, 0xa1, 0x33, 0xa1, 0x33]] t.rootHash 1 7 := by
  have hkey : seqNoOf sampleCodecs "Nw==" = some 7 := by decide
  have ht : MerkleTree.fromVec taggedHash [[0x81, 0xa1, 0x33, 0xa1, 0x33]] =
      .ok ⟨Tree.newLeaf taggedHash [0x81, 0xa1, 0x33, 0xa1, 0x33], 0, 1, 0⟩ := by
    rw [MerkleTree.fromVec_eq taggedHash (by simp) (root_singleton _ _)]
    simp
  have hacc : verifyMerkleTree taggedHash sampleCodecs .debug 0 (asBytes "[]")
      (taggedHash.hashLeaf [0x81, 0xa1, 0x33, 0xa1, 0x33])
      [("Nw==", some "\x7b\"3\":\"3\"\x7d")] 1 = .ok true := by
    unfold verifyMerkleTree
    simp only [fromUtf8_asBytes, Option.bind_some, hkey]
    simp [sampleCodecs, subU64, calculateTurns, foldPath]
  refine ⟨_, ht, hkey, hacc, ?_⟩
  intro h
  have hle := (h 0 _ _ _ hkey hacc).1
  simp at hle

end SimpleAsset.Indy
