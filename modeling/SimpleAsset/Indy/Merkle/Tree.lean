import SimpleAsset.Library.HashTree
import SimpleAsset.Library.Fallible
import SimpleAsset.Indy.Result

/-! Merkle trees of the pool ledger (`ledger/merkletree`). -/
namespace SimpleAsset.Indy
open SimpleAsset.Library

/-- `Hash` of indy-utils over the SHA-256 of OpenSSL, whose internal errors are left out. -/
structure Hash where
  hashLeaf : Bytes → Bytes
  hashNodes : Bytes → Bytes → Bytes

/-- The idealisation of SHA-256: no collisions, and no leaf hash is a node hash. -/
structure Hash.CollisionFree (H : Hash) : Prop where
  leaf : Function.Injective H.hashLeaf
  nodes : Function.Injective2 H.hashNodes
  disjoint : ∀ v l r, H.hashLeaf v ≠ H.hashNodes l r

/-- Pairs written one after the other, each byte of the first behind a 1. -/
def taggedPair : Bytes → Bytes → Bytes
  | [], r => 0 :: r
  | b :: l, r => 1 :: b :: taggedPair l r

/-- A collision-free hash, for examples. -/
def taggedHash : Hash where
  hashLeaf v := 0 :: v
  hashNodes l r := 1 :: taggedPair l r

theorem taggedPair_injective : Function.Injective2 taggedPair := by
  intro l l' r r' h
  induction l generalizing l' with
  | nil => cases l' <;> simp_all [taggedPair]
  | cons b l ih =>
    cases l' with
    | nil => simp [taggedPair] at h
    | cons b' l' =>
      simp only [taggedPair, List.cons.injEq, true_and] at h
      obtain ⟨rfl, rfl⟩ := ih h.2
      exact ⟨by rw [h.1], rfl⟩

theorem taggedHash_collisionFree : taggedHash.CollisionFree where
  leaf := fun v w h => (List.cons.inj h).2
  nodes := fun l l' r r' h => taggedPair_injective (List.cons.inj h).2
  disjoint := fun v l r => by simp [taggedHash]

def emptyHashBytes : Bytes :=
  [227, 176, 196, 66, 152, 252, 28, 20, 154, 251, 244, 200, 153, 111, 185, 36, 39, 174,
    65, 228, 100, 155, 147, 76, 164, 149, 153, 27, 120, 82, 184, 85]

inductive Tree
  | empty (hash : Bytes)
  | leaf (hash value : Bytes)
  | node (hash : Bytes) (left right : Tree)
  deriving DecidableEq

namespace Tree

def hash : Tree → Bytes
  | empty h => h
  | leaf h _ => h
  | node h _ _ => h

def newLeaf (H : Hash) (value : Bytes) : Tree := leaf (H.hashLeaf value) value

/-- Parent of two trees, as `from_vec` and `append` combine them. -/
def combine (H : Hash) (left right : Tree) : Tree :=
  node (H.hashNodes left.hash right.hash) left right

@[simp] theorem hash_newLeaf (H : Hash) (v : Bytes) : (newLeaf H v).hash = H.hashLeaf v := rfl

@[simp] theorem hash_combine (H : Hash) (l r : Tree) :
    (combine H l r).hash = H.hashNodes l.hash r.hash := rfl

/-- Values at the leaves, left to right. -/
def leaves : Tree → List Bytes
  | empty _ => []
  | leaf _ v => [v]
  | node _ l r => l.leaves ++ r.leaves

end Tree

structure MerkleTree where
  root : Tree
  height : ℕ
  count : ℕ
  nodesCount : ℕ
  deriving DecidableEq

namespace MerkleTree

def default : MerkleTree := ⟨.empty emptyHashBytes, 0, 0, 0⟩

def rootHash (t : MerkleTree) : Bytes := t.root.hash

/-- Inner loop of `from_vec`: one level, and the running count of inner nodes. -/
def nextLevel (H : Hash) : List Tree → ℕ → List Tree × ℕ
  | left :: right :: cur, nodesCount =>
    let (next, nodesCount) := nextLevel H cur (nodesCount + 1)
    (Tree.combine H left right :: next, nodesCount)
  | [last], nodesCount => ([last], nodesCount)
  | [], nodesCount => ([], nodesCount)

theorem nextLevel_eq (H : Hash) (cur : List Tree) (c : ℕ) :
    nextLevel H cur c = (pairUp (Tree.combine H) cur, c + cur.length / 2) := by
  induction cur using pairUp.induct generalizing c with
  | case1 a b l ih =>
    simp only [nextLevel, pairUp, ih, List.length_cons, Prod.mk.injEq, true_and]
    omega
  | case2 a => simp [nextLevel, pairUp]
  | case3 => simp [nextLevel, pairUp]

/-- Outer loop of `from_vec`: the last level, the height and the count of inner nodes. -/
def buildLevels (H : Hash) (cur : List Tree) (height nodesCount : ℕ) : List Tree × ℕ × ℕ :=
  if 1 < cur.length then
    buildLevels H (nextLevel H cur nodesCount).1 (height + 1) (nextLevel H cur nodesCount).2
  else (cur, height, nodesCount)
termination_by cur.length
decreasing_by rw [nextLevel_eq]; simp only [length_pairUp]; omega

def fromVec (H : Hash) (values : List Bytes) : Outcome MerkleTree :=
  if values.isEmpty then .ok default
  else
    match buildLevels H (values.map (Tree.newLeaf H)) 0 0 with
    | (root :: _, height, nodesCount) => .ok ⟨root, height, values.length, nodesCount⟩
    -- `cur.remove(0)` on an empty vector
    | ([], _, _) => .error (.panic .outOfBounds)

theorem fromVec_nil (H : Hash) : fromVec H [] = .ok default := rfl

theorem buildLevels_fst (H : Hash) (cur : List Tree) (h c : ℕ) :
    (buildLevels H cur h c).1.head? = Library.root (Tree.combine H) cur := by
  induction cur using root.induct (Tree.combine H) generalizing h c with
  | case1 l hlen ih => rw [buildLevels, if_pos hlen, nextLevel_eq, ih, root_pairUp]
  | case2 l hlen => rw [buildLevels, if_neg hlen, Library.root, if_neg hlen]

/-- Every level halves what is left, and every inner node takes one entry away. -/
theorem buildLevels_snd (H : Hash) (cur : List Tree) (h c : ℕ) :
    (buildLevels H cur h c).2 = (h + Nat.clog 2 cur.length, c + (cur.length - 1)) := by
  induction cur using root.induct (Tree.combine H) generalizing h c with
  | case1 l hlen ih =>
    have hclog : Nat.clog 2 l.length = Nat.clog 2 ((l.length + 1) / 2) + 1 :=
      Nat.clog_of_two_le Nat.one_lt_two hlen
    rw [buildLevels, if_pos hlen, nextLevel_eq, ih, length_pairUp, hclog, Prod.mk.injEq]
    exact ⟨by omega, by omega⟩
  | case2 l hlen =>
    rw [buildLevels, if_neg hlen, Nat.clog_of_right_le_one (by omega), Prod.mk.injEq]
    exact ⟨by omega, by omega⟩

/-- `from_vec` of a non-empty list is the tree of its leaves, with these counters. -/
theorem fromVec_eq (H : Hash) {values : List Bytes} {t : Tree} (hv : values ≠ [])
    (ht : Library.root (Tree.combine H) (values.map (Tree.newLeaf H)) = some t) :
    fromVec H values = .ok ⟨t, Nat.clog 2 values.length, values.length, values.length - 1⟩ := by
  have hfst := buildLevels_fst H (values.map (Tree.newLeaf H)) 0 0
  have hsnd := buildLevels_snd H (values.map (Tree.newLeaf H)) 0 0
  rw [ht, List.head?_eq_some_iff] at hfst
  obtain ⟨rest, hfst⟩ := hfst
  have hlev : buildLevels H (values.map (Tree.newLeaf H)) 0 0 =
      (t :: rest, Nat.clog 2 values.length, values.length - 1) := by
    rw [List.length_map, Nat.zero_add, Nat.zero_add] at hsnd
    exact Prod.ext hfst hsnd
  rw [fromVec, if_neg (by simpa using hv), hlev]

/-- `from_vec` never panics. -/
theorem exists_fromVec (H : Hash) (values : List Bytes) : ∃ t, fromVec H values = .ok t := by
  rcases values with _ | ⟨v, vs⟩
  · exact ⟨_, rfl⟩
  · obtain ⟨t, ht⟩ := exists_root (Tree.combine H) (l := (v :: vs).map (Tree.newLeaf H)) (by simp)
    exact ⟨_, fromVec_eq H (by simp) ht⟩

/-- Size and root hash of a tree built from a non-empty list. -/
theorem fromVec_spec (H : Hash) {values : List Bytes} {t : MerkleTree} (hv : values ≠ [])
    (ht : fromVec H values = .ok t) :
    t.count = values.length ∧
    Library.root H.hashNodes (values.map H.hashLeaf) = some t.rootHash := by
  obtain ⟨r, hr⟩ :=
    exists_root (Tree.combine H) (l := values.map (Tree.newLeaf H)) (by simpa using hv)
  rw [fromVec_eq H hv hr, Except.ok.injEq] at ht
  have hmap :=
    root_map (h := Tree.hash) (g := H.hashNodes) (Tree.hash_combine H) (values.map (Tree.newLeaf H))
  rw [hr, List.map_map] at hmap
  subst ht
  exact ⟨rfl, hmap.symm⟩

end MerkleTree
end SimpleAsset.Indy
