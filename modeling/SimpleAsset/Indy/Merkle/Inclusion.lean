import Mathlib.Data.Fintype.EquivFin
import SimpleAsset.Indy.Merkle.Append
import SimpleAsset.Indy.StateProof.AuditPath

/-! Inclusion proofs (`ledger/merkletree/proof.rs`): what `gen_proof` gives, and what `validate`
binds. -/
namespace SimpleAsset.Indy
open SimpleAsset.Library

inductive Positioned
  | left (hash : Bytes)
  | right (hash : Bytes)
  deriving DecidableEq, Repr

/-- `Lemma`: a node's hash and that of its sibling, without a sub lemma or with one. -/
inductive Lemma
  | last (nodeHash : Bytes) (siblingHash : Option Positioned)
  | nested (nodeHash : Bytes) (siblingHash : Option Positioned) (subLemma : Lemma)
  deriving DecidableEq, Repr

namespace Lemma

def nodeHash : Lemma → Bytes
  | last h _ => h
  | nested h _ _ => h

def newLeafProof (hash needle : Bytes) : Option Lemma :=
  if hash = needle then some (last hash none) else none

/-- `Lemma::new` with `new_tree_proof`. -/
def new : Tree → Bytes → Option Lemma
  | .empty _, _ => none
  | .leaf hash _, needle => newLeafProof hash needle
  | .node hash left right, needle =>
    match new left needle with
    | some sub => some (nested hash (some (.right right.hash)) sub)
    | none => (new right needle).map fun sub => nested hash (some (.left left.hash)) sub

end Lemma

/-- The field `lemma` is named `first` here. -/
structure Proof where
  rootHash : Bytes
  first : Lemma
  value : Bytes
  deriving DecidableEq, Repr

namespace Proof

def validateLemma (H : Hash) : Lemma → Bool
  | .last _ sibling => sibling.isNone
  | .nested _ none _ => false
  | .nested nodeHash (some (.left hash)) sub =>
    decide (H.hashNodes hash sub.nodeHash = nodeHash) && validateLemma H sub
  | .nested nodeHash (some (.right hash)) sub =>
    decide (H.hashNodes sub.nodeHash hash = nodeHash) && validateLemma H sub

/-- `Proof::validate`. -/
def validate (H : Hash) (p : Proof) (rootHash : Bytes) : Bool :=
  if p.rootHash ≠ rootHash ∨ p.first.nodeHash ≠ rootHash then false else validateLemma H p.first

end Proof

def MerkleTree.genProof (H : Hash) (t : MerkleTree) (value : Bytes) : Option Proof :=
  (Lemma.new t.root (H.hashLeaf value)).map fun first => ⟨t.rootHash, first, value⟩

namespace Tree

/-- Every node of the tree has the hash that belongs to it. -/
def Hashed (H : Hash) : Tree → Prop
  | empty _ => True
  | leaf hash value => hash = H.hashLeaf value
  | node hash left right => hash = H.hashNodes left.hash right.hash ∧ left.Hashed H ∧ right.Hashed H

theorem hashed_pairUp {H : Hash} {l : List Tree} (hl : ∀ t ∈ l, t.Hashed H) :
    ∀ t ∈ pairUp (combine H) l, t.Hashed H := by
  induction l using pairUp.induct with
  | case1 a b l ih =>
    intro t ht
    rcases List.mem_cons.mp ht with rfl | ht
    · exact ⟨rfl, hl a List.mem_cons_self, hl b (List.mem_cons_of_mem _ List.mem_cons_self)⟩
    · exact ih (fun t ht => hl t (List.mem_cons_of_mem _ (List.mem_cons_of_mem _ ht))) t ht
  | case2 a => exact hl
  | case3 => exact hl

theorem hashed_root {H : Hash} {l : List Tree} {t : Tree} (hl : ∀ t ∈ l, t.Hashed H)
    (ht : Library.root (combine H) l = some t) : t.Hashed H := by
  induction l using root.induct (combine H) with
  | case1 l hlen ih =>
    rw [← root_pairUp] at ht
    exact ih (hashed_pairUp hl) ht
  | case2 l hlen =>
    rcases l with _ | ⟨x, _ | ⟨y, l⟩⟩
    · rw [root_nil] at ht
      cases ht
    · rw [root_singleton, Option.some.injEq] at ht
      rw [← ht]
      exact hl x List.mem_cons_self
    · exact absurd (by simp) hlen

end Tree

/-- The tree of a ledger that is not empty has the right hashes at every node and the ledger at its
leaves. -/
theorem MerkleTree.wellFormed_fromVec {H : Hash} {D : List Bytes} {t : MerkleTree} (hD : D ≠ [])
    (ht : fromVec H D = .ok t) : t.root.Hashed H ∧ t.root.Solid ∧ t.root.leaves = D := by
  obtain ⟨r, hr⟩ := exists_root (Tree.combine H) (l := D.map (Tree.newLeaf H)) (by simpa using hD)
  obtain ⟨hleaves, hsolid⟩ := leaves_fromVec H hr
  rw [fromVec_eq H hD hr, Except.ok.injEq] at ht
  rw [← ht]
  refine ⟨Tree.hashed_root ?_ hr, hsolid, hleaves⟩
  intro leaf hleaf
  obtain ⟨v, -, rfl⟩ := List.mem_map.mp hleaf
  rfl

namespace Lemma

/-- The hashes go on from level to level. -/
inductive Unbroken (H : Hash) : Lemma → Prop
  | last (nodeHash : Bytes) : Unbroken H (last nodeHash none)
  | left (hash : Bytes) {sub : Lemma} (hsub : Unbroken H sub) :
    Unbroken H (nested (H.hashNodes hash sub.nodeHash) (some (.left hash)) sub)
  | right (hash : Bytes) {sub : Lemma} (hsub : Unbroken H sub) :
    Unbroken H (nested (H.hashNodes sub.nodeHash hash) (some (.right hash)) sub)

/-- The hash at the lower end. -/
def bottom : Lemma → Bytes
  | last nodeHash _ => nodeHash
  | nested _ _ sub => sub.bottom

theorem validateLemma_iff {H : Hash} {l : Lemma} :
    Proof.validateLemma H l = true ↔ l.Unbroken H := by
  induction l with
  | last nodeHash sibling =>
    constructor
    · intro h
      rw [Option.isNone_iff_eq_none.mp h]
      exact .last nodeHash
    · rintro ⟨⟩
      rfl
  | nested nodeHash sibling sub ih =>
    constructor
    · intro h
      rcases sibling with _ | hash | hash
      · exact nomatch h
      · obtain ⟨hhash, hsub⟩ := (Bool.and_eq_true _ _).mp h
        rw [← of_decide_eq_true hhash]
        exact .left hash (ih.mp hsub)
      · obtain ⟨hhash, hsub⟩ := (Bool.and_eq_true _ _).mp h
        rw [← of_decide_eq_true hhash]
        exact .right hash (ih.mp hsub)
    · intro h
      cases h with
      | left hash hsub => exact (Bool.and_eq_true _ _).mpr ⟨decide_eq_true rfl, ih.mpr hsub⟩
      | right hash hsub => exact (Bool.and_eq_true _ _).mpr ⟨decide_eq_true rfl, ih.mpr hsub⟩

/-- An unbroken chain from the root of a tree to the hash of a value ends at a leaf with this
value. -/
theorem Unbroken.mem_leaves {H : Hash} (hH : H.CollisionFree) {l : Lemma}
    (h : l.Unbroken H) {t : Tree}
    (ht : t.Hashed H) (hsolid : t.Solid) (htop : l.nodeHash = t.hash) {v : Bytes}
    (hbottom : l.bottom = H.hashLeaf v) :
    v ∈ t.leaves := by
  induction h generalizing t with
  | last nodeHash =>
    have hleaf : t.hash = H.hashLeaf v := htop.symm.trans hbottom
    cases t with
    | empty hash => exact absurd hsolid id
    | leaf hash value =>
      have hvalue : H.hashLeaf value = H.hashLeaf v := ht.symm.trans hleaf
      rw [hH.leaf hvalue]
      exact List.mem_cons_self
    | node hash left right => exact absurd (hleaf.symm.trans ht.1) (hH.disjoint v _ _)
  | @left hash sub hsub ih =>
    cases t with
    | empty hash => exact absurd hsolid id
    | leaf hash' value => exact absurd (ht.symm.trans htop.symm) (hH.disjoint value _ _)
    | node hash' tl tr =>
      obtain ⟨-, hsame⟩ := hH.nodes (htop.trans ht.1)
      exact List.mem_append_right _ (ih ht.2.2 hsolid.2 hsame hbottom)
  | @right hash sub hsub ih =>
    cases t with
    | empty hash => exact absurd hsolid id
    | leaf hash' value => exact absurd (ht.symm.trans htop.symm) (hH.disjoint value _ _)
    | node hash' tl tr =>
      obtain ⟨hsame, -⟩ := hH.nodes (htop.trans ht.1)
      exact List.mem_append_left _ (ih ht.2.1 hsolid.1 hsame hbottom)

/-- A lemma is found for what is at a leaf, and it leads from there to the root. -/
theorem new_spec {H : Hash} {t : Tree} (ht : t.Hashed H) (hsolid : t.Solid) (needle : Bytes) :
    ((new t needle).isSome ↔ ∃ v ∈ t.leaves, H.hashLeaf v = needle) ∧
      ∀ l, new t needle = some l → l.Unbroken H ∧ l.nodeHash = t.hash := by
  induction t with
  | empty hash => exact absurd hsolid id
  | leaf hash value =>
    have hhash : hash = H.hashLeaf value := ht
    have hnew : new (.leaf hash value) needle = if hash = needle then some (last hash none)
        else none := rfl
    rw [hnew]
    by_cases hneedle : hash = needle
    · rw [if_pos hneedle]
      refine ⟨?_, ?_⟩
      · exact iff_of_true rfl ⟨value, List.mem_cons_self, hhash.symm.trans hneedle⟩
      · intro l hl
        rw [← Option.some.inj hl]
        exact ⟨.last hash, rfl⟩
    · rw [if_neg hneedle]
      refine ⟨?_, ?_⟩
      · refine iff_of_false Bool.false_ne_true ?_
        rintro ⟨v, hv, hvalue⟩
        rw [List.mem_singleton.mp hv, ← hhash] at hvalue
        exact hneedle hvalue
      · intro l hl
        cases hl
  | node hash left right ihl ihr =>
    obtain ⟨hhash, hleft, hright⟩ := ht
    obtain ⟨hfoundl, hleadsl⟩ := ihl hleft hsolid.1
    obtain ⟨hfoundr, hleadsr⟩ := ihr hright hsolid.2
    have hmem : (∃ v ∈ (Tree.node hash left right).leaves, H.hashLeaf v = needle) ↔
        (∃ v ∈ left.leaves, H.hashLeaf v = needle) ∨ ∃ v ∈ right.leaves, H.hashLeaf v = needle := by
      simp only [Tree.leaves, List.mem_append, or_and_right, exists_or]
    rw [hmem, ← hfoundl, ← hfoundr, new]
    cases hl : new left needle with
    | some sub =>
      obtain ⟨hsub, htop⟩ := hleadsl sub hl
      refine ⟨iff_of_true rfl (Or.inl rfl), ?_⟩
      intro l hnew
      rw [← Option.some.inj hnew, hhash, ← htop]
      exact ⟨.right right.hash hsub, rfl⟩
    | none =>
      cases hr : new right needle with
      | some sub =>
        obtain ⟨hsub, htop⟩ := hleadsr sub hr
        refine ⟨iff_of_true rfl (Or.inr rfl), ?_⟩
        intro l hnew
        rw [← Option.some.inj hnew, hhash, ← htop]
        exact ⟨.left left.hash hsub, rfl⟩
      | none =>
        refine ⟨by simp, ?_⟩
        intro l hnew
        cases hnew

end Lemma

section Inclusion
variable {H : Hash} {D : List Bytes} {t : MerkleTree}

theorem Proof.validate_iff {p : Proof} {rootHash : Bytes} : p.validate H rootHash = true ↔
    p.rootHash = rootHash ∧ p.first.nodeHash = rootHash ∧ p.first.Unbroken H := by
  unfold Proof.validate
  by_cases hroot : p.rootHash ≠ rootHash ∨ p.first.nodeHash ≠ rootHash
  · rw [if_pos hroot]
    refine iff_of_false Bool.false_ne_true ?_
    rintro ⟨hsame, htop, -⟩
    rcases hroot with hne | hne
    · exact hne hsame
    · exact hne htop
  · rw [if_neg hroot, Lemma.validateLemma_iff]
    rw [not_or, not_not, not_not] at hroot
    exact ⟨fun h => ⟨hroot.1, hroot.2, h⟩, fun h => h.2.2⟩

/-- `gen_proof` finds a proof exactly for the leaves, and it is accepted. -/
theorem genProof_complete (hH : H.CollisionFree) (ht : MerkleTree.fromVec H D = .ok t)
    (value : Bytes) :
    ((t.genProof H value).isSome ↔ value ∈ D) ∧ ∀ p, t.genProof H value = some p →
      p.validate H t.rootHash = true := by
  unfold MerkleTree.genProof
  by_cases hD : D = []
  · rw [hD, MerkleTree.fromVec_nil, Except.ok.injEq] at ht
    rw [← ht, hD]
    refine ⟨iff_of_false Bool.false_ne_true List.not_mem_nil, ?_⟩
    intro p hp
    exact nomatch hp
  · obtain ⟨hhashed, hsolid, hleaves⟩ := MerkleTree.wellFormed_fromVec hD ht
    obtain ⟨hfound, hleads⟩ := Lemma.new_spec hhashed hsolid (H.hashLeaf value)
    rw [hleaves] at hfound
    constructor
    · rw [Option.isSome_map, hfound]
      constructor
      · rintro ⟨v, hv, hhash⟩
        rwa [← hH.leaf hhash]
      · exact fun hmem => ⟨value, hmem, rfl⟩
    · intro p hp
      obtain ⟨l, hl, rfl⟩ := Option.map_eq_some_iff.mp hp
      obtain ⟨hunbroken, htop⟩ := hleads l hl
      exact Proof.validate_iff.mpr ⟨rfl, htop, hunbroken⟩

/-- In a tree that is not empty, a chain from the root that ends at the hash of its value ends at a
leaf. -/
theorem Proof.mem_of_bottom (hH : H.CollisionFree) (hD : D ≠ [])
    (ht : MerkleTree.fromVec H D = .ok t) {p : Proof}
    (hvalid : p.validate H t.rootHash = true) (hbottom : p.first.bottom = H.hashLeaf p.value) :
    p.value ∈ D := by
  obtain ⟨-, htop, hunbroken⟩ := validate_iff.mp hvalid
  obtain ⟨hhashed, hsolid, hleaves⟩ := MerkleTree.wellFormed_fromVec hD ht
  rw [← hleaves]
  exact hunbroken.mem_leaves hH hhashed hsolid htop hbottom

/-- A chain of the root alone is accepted in every tree, with any value. -/
theorem exists_accepted_of_notMem (H : Hash) (D : List Bytes) (t : MerkleTree) :
    ∃ p : Proof, p.validate H t.rootHash = true ∧ p.value ∉ D := by
  obtain ⟨value, hvalue⟩ := Infinite.exists_notMem_finset D.toFinset
  refine ⟨⟨t.rootHash, .last t.rootHash none, value⟩, ?_, ?_⟩
  · exact Proof.validate_iff.mpr ⟨rfl, rfl, .last t.rootHash⟩
  · exact fun hmem => hvalue (List.mem_toFinset.mpr hmem)

/-- Generated proofs are as they should be, and an accepted proof that ends at the hash of its value
shows a leaf of a tree that is not empty. Other proofs are accepted too, so that what is accepted is
a leaf of no tree. -/
theorem inclusion_proofs_unsound (hH : H.CollisionFree) (D : List Bytes) :
    ∃ t, MerkleTree.fromVec H D = .ok t ∧
      (∀ value, ((t.genProof H value).isSome ↔ value ∈ D) ∧
        ∀ p, t.genProof H value = some p → p.validate H t.rootHash = true) ∧
      (∀ p : Proof, p.validate H t.rootHash = true → D ≠ [] → p.first.bottom = H.hashLeaf p.value →
        p.value ∈ D) ∧
      ¬ ∀ p : Proof, p.validate H t.rootHash = true → p.value ∈ D := by
  obtain ⟨t, ht⟩ := MerkleTree.exists_fromVec H D
  refine ⟨t, ht, genProof_complete hH ht, ?_, ?_⟩
  · exact fun p hvalid hD hbottom => Proof.mem_of_bottom hH hD ht hvalid hbottom
  · intro hsound
    obtain ⟨p, hvalid, hnot⟩ := exists_accepted_of_notMem H D t
    exact hnot (hsound p hvalid)

theorem inclusion_proofs_unsound_three :
    ∃ t, MerkleTree.fromVec taggedHash [[7], [8], [9]] = .ok t ∧
    (∀ value, ((t.genProof taggedHash value).isSome ↔ value ∈ [[7], [8], [9]]) ∧
      ∀ p, t.genProof taggedHash value = some p → p.validate taggedHash t.rootHash = true) ∧
    (∀ p : Proof, p.validate taggedHash t.rootHash = true → ([[7], [8], [9]] : List Bytes) ≠ [] →
      p.first.bottom = taggedHash.hashLeaf p.value → p.value ∈ [[7], [8], [9]]) ∧
    ¬ ∀ p : Proof, p.validate taggedHash t.rootHash = true → p.value ∈ [[7], [8], [9]] :=
  inclusion_proofs_unsound taggedHash_collisionFree [[7], [8], [9]]

/-- The value 8 is proved with the hash of 7. -/
theorem not_inclusion_sound : ∃ t, MerkleTree.fromVec taggedHash [[7]] = .ok t ∧
    ∃ p : Proof, p.validate taggedHash t.rootHash = true ∧ p.value ∉ [[7]] := by
  refine ⟨_, MerkleTree.fromVec_eq taggedHash (by simp) (root_singleton _ _), ?_⟩
  exact ⟨⟨taggedHash.hashLeaf [7], .last (taggedHash.hashLeaf [7]) none, [8]⟩, by decide, by decide⟩

end Inclusion

end SimpleAsset.Indy
