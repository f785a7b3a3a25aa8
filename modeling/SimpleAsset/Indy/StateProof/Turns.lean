import SimpleAsset.Indy.Merkle.Append
import SimpleAsset.Indy.StateProof.AuditPath

/-! The turns of `_calculate_turns`: for which lengths they are found, and that they are those of
the tree. -/
namespace SimpleAsset.Indy
open SimpleAsset.Library

section Termination
variable {build : Build} {length idx : ℕ} {result : List Bool}

/-- The loop comes to its end without overflow. -/
def TurnsEnd (build : Build) (length idx : ℕ) : Prop :=
  ∃ turns, Returns (fun fuel => calculateTurns build fuel length idx []) (.ok turns)

/-- Within 63 bits the turns are found. -/
theorem calculateTurns_returns (hpos : 1 ≤ length) (hle : length ≤ 2 ^ 63) :
    Returns (fun fuel => calculateTurns build fuel length idx [])
      (.ok (descent length idx).reverse) := by
  refine ⟨length, ?_⟩
  intro fuel hfuel
  rcases calculateTurns_cases build fuel idx [] hpos hle with hturns | ⟨-, hshort⟩
  · exact hturns
  · omega

/-- A ledger of no transactions is halved for ever. -/
theorem calculateTurns_zero (fuel : ℕ) :
    calculateTurns build fuel 0 idx result = .error .outOfFuel := by
  induction fuel generalizing idx result with
  | zero => rfl
  | succ fuel ih =>
    have hpower : nextPowerOfTwo build 0 = .ok 1 := by
      rw [nextPowerOfTwo.eq_def, if_pos (Nat.zero_le _),
        Nat.clog_of_right_le_one (Nat.zero_le _), pow_zero]
    rw [calculateTurns, if_neg Nat.zero_ne_one, hpower, except_ok_bind]
    exact ih

/-- The turns of a reply are found exactly when its length is one of 1 to 2^63. -/
theorem turnsEnd_iff (build : Build) (length idx : ℕ) :
    TurnsEnd build length idx ↔ 1 ≤ length ∧ length ≤ 2 ^ 63 := by
  constructor
  · rintro ⟨turns, n, hn⟩
    have hturns := hn n (Nat.le_refl n)
    constructor
    · by_contra hzero
      obtain rfl : length = 0 := by omega
      exact nomatch (calculateTurns_zero n).symm.trans hturns
    · by_contra hbig
      exact calculateTurns_ne_ok build [] turns (by omega) hturns
  · rintro ⟨hpos, hle⟩
    exact ⟨_, calculateTurns_returns hpos hle⟩

/-- A node that reports the length 0 lets the client loop, and a length above 2^63 makes a debug
build panic. -/
theorem not_turnsEnd_zero : ¬ TurnsEnd .release 0 0 ∧ ¬ TurnsEnd .debug 0 0 ∧
    calculateTurns .debug 1 (2 ^ 63 + 1) 0 [] = .error (.panic .overflow) := by
  refine ⟨?_, ?_, ?_⟩
  · rintro ⟨turns, n, hn⟩
    exact nomatch (calculateTurns_zero n).symm.trans (hn n (Nat.le_refl n))
  · rintro ⟨turns, n, hn⟩
    exact nomatch (calculateTurns_zero n).symm.trans (hn n (Nat.le_refl n))
  · rw [calculateTurns, if_neg (by omega), nextPowerOfTwo.eq_def, if_neg (by omega),
      except_error_bind]

end Termination

namespace Tree

/-- The hashes beside the way from leaf `i` to the root, from the leaf on. -/
def siblings : Tree → ℕ → List Bytes
  | node _ left right, i =>
    if i < left.leaves.length then left.siblings i ++ [right.hash]
    else right.siblings (i - left.leaves.length) ++ [left.hash]
  | _, _ => []

/-- Where these siblings lie; `true` is the right side. -/
def sides : Tree → ℕ → List Bool
  | node _ left right, i =>
    if i < left.leaves.length then left.sides i ++ [true]
    else right.sides (i - left.leaves.length) ++ [false]
  | _, _ => []

/-- What the hashes beside a way are good for. -/
structure PathFits (H : Hash) (t : Tree) (n i : ℕ) (leaf : Bytes) : Prop where
  sides : t.sides i = (descent n i).reverse
  length : (t.siblings i).length = (t.sides i).length
  ascends : ascend H.hashNodes (H.hashLeaf leaf) ((t.siblings i).zip (t.sides i)) = t.hash

/-- In a tree that was built from a ledger every way fits. -/
theorem pathFits {H : Hash} {values : List Bytes} {t : Tree} {i : ℕ} {leaf : Bytes}
    (ht : Library.root (combine H) (values.map (newLeaf H)) = some t)
    (hi : values[i]? = some leaf) :
    PathFits H t values.length i leaf := by
  induction hn : values.length using Nat.strongRecOn generalizing values t i with
  | ind n ih =>
    subst hn
    have hlt := (List.getElem?_eq_some_iff.mp hi).1
    rcases Nat.lt_or_ge 1 values.length with hlen | hlen
    · have hk := splitPoint_lt (n := values.length) hlen
      have hk0 := splitPoint_pos values.length
      obtain ⟨left, right, hleft, hright, hroot⟩ :=
        exists_root_split (combine H) (l := values.map (newLeaf H))
        (by rwa [List.length_map])
      rw [List.length_map, ← List.map_take] at hleft
      rw [List.length_map, ← List.map_drop] at hright
      obtain rfl := Option.some.inj (hroot.symm.trans ht)
      have htake : (values.take (splitPoint values.length)).length = splitPoint values.length := by
        rw [List.length_take, Nat.min_eq_left hk.le]
      have hleaves : left.leaves.length = splitPoint values.length := by
        rw [(MerkleTree.leaves_fromVec H hleft).1, htake]
      rcases Nat.lt_or_ge i (splitPoint values.length) with hin | hout
      · have hup := ih _ (by rwa [htake]) hleft (by rwa [List.getElem?_take_of_lt hin]) rfl
        rw [htake] at hup
        have hsides : (combine H left right).sides i = left.sides i ++ [true] :=
          if_pos (by rwa [hleaves])
        have hsiblings : (combine H left right).siblings i = left.siblings i ++ [right.hash] :=
          if_pos (by rwa [hleaves])
        refine ⟨?_, ?_, ?_⟩
        · rw [hsides, hup.sides, descent_left hlen hin, List.reverse_cons]
        · rw [hsides, hsiblings, List.length_append, List.length_append, hup.length]
          rfl
        · rw [hsides, hsiblings, List.zip_append hup.length, List.zip_cons_cons, List.zip_nil_left,
            ascend_append_singleton, hup.ascends, if_pos rfl, hash_combine]
      · obtain ⟨j, rfl⟩ := Nat.exists_eq_add_of_le hout
        have hdrop : (values.drop (splitPoint values.length)).length = values.length -
            splitPoint values.length :=
          List.length_drop
        have hup := ih _ (by rw [hdrop]; omega) hright (by rwa [List.getElem?_drop]) rfl
        rw [hdrop] at hup
        have hnot : ¬ splitPoint values.length + j < left.leaves.length := by rw [hleaves]; omega
        have hj : splitPoint values.length + j - left.leaves.length = j := by
          rw [hleaves, Nat.add_sub_cancel_left]
        have hsides : (combine H left right).sides (splitPoint values.length + j) = right.sides j ++
            [false] := by
          rw [combine, sides, if_neg hnot, hj]
        have hsiblings : (combine H left right).siblings (splitPoint values.length + j) =
            right.siblings j ++ [left.hash] := by
          rw [combine, siblings, if_neg hnot, hj]
        refine ⟨?_, ?_, ?_⟩
        · rw [hsides, hup.sides, descent_right hlen, List.reverse_cons]
        · rw [hsides, hsiblings, List.length_append, List.length_append, hup.length]
          rfl
        · rw [hsides, hsiblings, List.zip_append hup.length, List.zip_cons_cons, List.zip_nil_left,
            ascend_append_singleton, hup.ascends, if_neg Bool.false_ne_true, hash_combine]
    · obtain ⟨v, rfl⟩ := List.length_eq_one_iff.mp (show values.length = 1 by omega)
      rw [List.map_singleton, root_singleton, Option.some.injEq] at ht
      obtain rfl : i = 0 := by simpa using hlt
      obtain rfl : v = leaf := by simpa using hi
      rw [← ht]
      refine ⟨?_, rfl, rfl⟩
      rw [descent, if_neg (by simp)]
      rfl

end Tree

section Agreement

/-- The texts are the base58 forms of these hashes. -/
theorem foldPath_of_mapM {H : Hash} {C : Codecs} {hashes : List String} {path : List Bytes}
    (h : hashes.mapM C.fromBase58 = some path) (hash : Bytes) (turns : List Bool) :
    foldPath H C hash (hashes.zip turns) = some (ascend H.hashNodes hash (path.zip turns)) := by
  rw [mapM_eq_some_iff] at h
  induction hashes generalizing hash path turns with
  | nil =>
    cases path with
    | nil => rfl
    | cons d path => exact nomatch h
  | cons text hashes ih =>
    cases path with
    | nil => exact nomatch h
    | cons d path =>
      obtain ⟨hd, hrest⟩ := List.cons.inj h
      cases turns with
      | nil => rfl
      | cons turn turns =>
        rw [List.zip_cons_cons, foldPath, hd]
        exact ih hrest _ turns

/-- For every transaction of a ledger the hashes beside its way in the tree are accepted, and the
turns are the sides on which they lie. -/
theorem audit_path_agrees {H : Hash} {C : Codecs} (build : Build) {D : List Bytes}
    {t : MerkleTree} {s : ℕ} {nodes leaf : Bytes} {hashes : List String} {key value : String}
    (ht : MerkleTree.fromVec H D = .ok t)
    (hfits : D.length ≤ isizeMax) (hs : 1 ≤ s) (hleaf : D[s - 1]? = some leaf)
    (hnodes : (fromUtf8 nodes).bind C.jsonStrings = some hashes)
    (hhashes : hashes.mapM C.fromBase58 = some (t.root.siblings (s - 1)))
    (hkey : seqNoOf C key = some s) (hvalue : C.jsonToMsgpack value = some leaf) :
    Returns (fun fuel =>
      verifyMerkleTree H C build fuel nodes t.rootHash [(key, some value)] D.length) (.ok true) ∧
      Returns (fun fuel => calculateTurns build fuel D.length (s - 1) [])
        (.ok (t.root.sides (s - 1))) ∧
      (t.root.sides (s - 1)).length = hashes.length := by
  have hpos : 1 ≤ D.length := by
    have := (List.getElem?_eq_some_iff.mp hleaf).1
    omega
  have hle : D.length ≤ 2 ^ 63 := by
    unfold isizeMax at hfits
    omega
  have hne : D ≠ [] := List.ne_nil_of_length_pos hpos
  obtain ⟨r, hr⟩ := exists_root (Tree.combine H) (l := D.map (Tree.newLeaf H)) (by simpa using hne)
  have hpath := Tree.pathFits hr hleaf
  rw [MerkleTree.fromVec_eq H hne hr, Except.ok.injEq] at ht
  subst ht
  have hlength : hashes.length = (r.sides (s - 1)).length := by
    rw [← hpath.length, ← List.length_map (f := C.fromBase58), mapM_eq_some_iff.mp hhashes,
      List.length_map]
  have hturns : Returns (fun fuel => calculateTurns build fuel D.length (s - 1) [])
      (.ok (descent D.length (s - 1)).reverse) := calculateTurns_returns hpos hle
  rw [← hpath.sides] at hturns
  refine ⟨?_, hturns, hlength.symm⟩
  obtain ⟨n, hn⟩ := hturns
  refine ⟨n, ?_⟩
  intro fuel hfuel
  have hfold := foldPath_of_mapM (H := H) hhashes (H.hashLeaf leaf) (r.sides (s - 1))
  rw [hpath.ascends] at hfold
  unfold verifyMerkleTree
  simp only [hnodes, hkey, subU64_of_le build hs, except_ok_bind, hn fuel hfuel]
  rw [if_neg (not_not.mpr hlength)]
  simp only [Option.bind_some, hvalue, hfold]
  exact congrArg Except.ok (decide_eq_true rfl)

/-- Two transactions, and the path of the first one. -/
def twoTransactions : List Bytes := [[0x81, 0xa1, 0x33, 0xa1, 0x33], [7]]

theorem audit_path_agrees_two : ∃ t, MerkleTree.fromVec taggedHash twoTransactions = .ok t ∧
    Returns (fun fuel => verifyMerkleTree taggedHash sampleCodecs .debug fuel
      (asBytes (String.ofList ['1', '\x00', '1', '\x07', '0'])) t.rootHash
        [("!1", some "\x7b\"3\":\"3\"\x7d")] 2)
      (.ok true) ∧
    Returns (fun fuel => calculateTurns .debug fuel 2 0 []) (.ok (t.root.sides 0)) ∧
    (t.root.sides 0).length = 1 := by
  have hroot : Library.root (Tree.combine taggedHash)
      (twoTransactions.map (Tree.newLeaf taggedHash)) =
      some (Tree.combine taggedHash (.newLeaf taggedHash [0x81, 0xa1, 0x33, 0xa1, 0x33])
        (.newLeaf taggedHash [7])) := by
    rw [← root_pairUp]
    exact root_singleton _ _
  have htree := MerkleTree.fromVec_eq taggedHash (by decide) hroot
  have hnodes : (fromUtf8 (asBytes (String.ofList ['1', '\x00', '1', '\x07', '0']))).bind
      sampleCodecs.jsonStrings = some [String.ofList ['\x00', '\x07']] := by
    rw [fromUtf8_asBytes]
    decide
  refine ⟨_, htree,
    audit_path_agrees .debug (s := 1) htree (by decide) (by decide) rfl hnodes ?_ ?_ ?_⟩
  · decide
  · decide
  · decide

end Agreement

end SimpleAsset.Indy
