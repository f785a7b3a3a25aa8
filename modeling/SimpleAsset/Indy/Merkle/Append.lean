import SimpleAsset.Indy.Merkle.Tree

/-! Appending to a ledger tree agrees with building the tree of the longer ledger. -/
namespace SimpleAsset.Indy
open SimpleAsset.Library

namespace Tree

def size : Tree → ℕ
  | node _ l r => l.size + r.size + 1
  | _ => 1

/-- `LeavesIterator::add_left`: the value at the left end, and the right parts left for later. -/
def addLeft : Tree → List Tree → Option Bytes × List Tree
  | empty _, rights => (none, rights)
  | leaf _ v, rights => (some v, rights)
  | node _ l r, rights => addLeft l (r :: rights)

theorem addLeft_size (t : Tree) (rights : List Tree) :
    ((addLeft t rights).2.map size).sum < t.size + (rights.map size).sum := by
  induction t generalizing rights with
  | empty h => simp [addLeft, size]
  | leaf h v => simp [addLeft, size]
  | node h l r ihl _ =>
    have := ihl (r :: rights)
    simp only [addLeft, size, List.map_cons, List.sum_cons] at this ⊢
    omega

/-- `LeavesIterator` run to its end. -/
def collect : Option Bytes → List Tree → List Bytes
  | none, _ => []
  | some v, [] => [v]
  | some v, r :: rights => v :: collect (addLeft r rights).1 (addLeft r rights).2
termination_by _ rights => (rights.map size).sum
decreasing_by simpa using addLeft_size r rights

def iter (t : Tree) : List Bytes := collect (addLeft t []).1 (addLeft t []).2

/-- No part of the tree is `Empty`. -/
def Solid : Tree → Prop
  | empty _ => False
  | leaf _ _ => True
  | node _ l r => l.Solid ∧ r.Solid

theorem collect_addLeft {t : Tree} {rights : List Tree} (ht : t.Solid)
    (hr : ∀ r ∈ rights, r.Solid) :
    collect (addLeft t rights).1 (addLeft t rights).2 = t.leaves ++ rights.flatMap leaves := by
  induction hn : t.size + (rights.map size).sum using Nat.strongRecOn generalizing t rights with
  | ind n ih =>
    subst hn
    cases t with
    | empty h => exact absurd ht id
    | leaf h v =>
      cases rights with
      | nil => simp [addLeft, collect, leaves]
      | cons r rights =>
        simp only [addLeft, collect, leaves, List.singleton_append, List.flatMap_cons,
          List.cons.injEq, true_and]
        exact ih _ (by simp [size]) (hr r (by simp)) (fun x hx => hr x (by simp [hx])) rfl
    | node h l r =>
      have hrights : ∀ x ∈ r :: rights, x.Solid := by
        intro x hx
        rcases List.mem_cons.mp hx with rfl | hx
        · exact ht.2
        · exact hr x hx
      have hsize : l.size + ((r :: rights).map size).sum < (node h l r).size +
          (rights.map size).sum := by
        simp [size]
        omega
      have hstep := ih _ hsize ht.1 hrights rfl
      rw [addLeft, hstep]
      simp [leaves]

theorem iter_eq_leaves {t : Tree} (ht : t.Solid) : t.iter = t.leaves := by
  rw [iter, collect_addLeft ht (by simp)]
  simp

end Tree

namespace MerkleTree

def countBits (v : ℕ) : ℕ := if v ≠ 0 then countBits (v &&& (v - 1)) + 1 else 0
termination_by v
decreasing_by
  have h : v &&& (v - 1) ≤ v - 1 := Nat.and_le_right
  omega

def append (H : Hash) (t : MerkleTree) (node : Bytes) : Outcome MerkleTree :=
  if t.count = 0 then .ok { t with root := .newLeaf H node, count := t.count + 1 }
  else if countBits t.count ≠ 1 then
    match t.root with
    | .node _ left right => do
      let newRight ← fromVec H (right.iter ++ [node])
      return { t with
        root := .node (H.hashNodes left.hash newRight.rootHash) left newRight.root
        count := t.count + 1
        nodesCount := t.nodesCount + 1 }
    | _ => .error (.panic .assertionFailed)
  else do
    let newRight ← fromVec H [node]
    match t.root with
    | .node hash left right => return {
        root := .node (H.hashNodes hash newRight.rootHash) (.node hash left right) newRight.root
        count := t.count + 1
        nodesCount := t.nodesCount + 1
        height := t.height + 1 }
    | .leaf hash value => return {
        root := .node (H.hashNodes hash newRight.rootHash) (.newLeaf H value) newRight.root
        count := t.count + 1
        nodesCount := t.nodesCount + 1
        height := t.height + 1 }
    | .empty _ => .error (.panic .assertionFailed)

theorem countBits_eq_one_iff {n : ℕ} (hn : n ≠ 0) : countBits n = 1 ↔ ∃ k, n = 2 ^ k := by
  have hzero : ∀ m, countBits m = 0 ↔ m = 0 := by
    intro m
    rw [countBits]
    split <;> simp_all
  rw [countBits, if_pos hn, Nat.add_eq_right, hzero]
  exact Nat.and_sub_one_eq_zero_iff_isPowerOfTwo hn

theorem splitPoint_pow (k : ℕ) : splitPoint (2 ^ k + 1) = 2 ^ k := by
  rw [splitPoint, Nat.add_sub_cancel, Nat.log_pow Nat.one_lt_two]

theorem clog_pow_succ (k : ℕ) : Nat.clog 2 (2 ^ k + 1) = k + 1 := by
  apply le_antisymm
  · rw [Nat.clog_le_iff_le_pow Nat.one_lt_two, pow_succ]
    have := Nat.one_le_two_pow (n := k)
    omega
  · rw [← Nat.lt_iff_add_one_le, Nat.lt_clog_iff_pow_lt Nat.one_lt_two]
    omega

/-- Between two powers of two the tree splits where it did and keeps its height. -/
theorem split_succ {n : ℕ} (hn : 2 ≤ n) (h : ∀ k, n ≠ 2 ^ k) :
    splitPoint (n + 1) = splitPoint n ∧ Nat.clog 2 (n + 1) = Nat.clog 2 n := by
  have hlo := Nat.pow_log_le_self 2 (show n - 1 ≠ 0 by omega)
  have hhi := Nat.lt_pow_succ_log_self Nat.one_lt_two (n - 1)
  have hne := h (Nat.log 2 (n - 1) + 1)
  have hlog : Nat.log 2 n = Nat.log 2 (n - 1) :=
    Nat.log_eq_of_pow_le_of_lt_pow (by omega) (by rw [Nat.succ_eq_add_one] at hhi; omega)
  constructor
  · rw [splitPoint, splitPoint, Nat.add_sub_cancel, hlog]
  · apply le_antisymm
    · rw [Nat.clog_le_iff_le_pow Nat.one_lt_two]
      have hle := Nat.le_pow_clog Nat.one_lt_two n
      have hcl := h (Nat.clog 2 n)
      omega
    · exact Nat.clog_mono_right 2 (by omega)

theorem leaves_pairUp (H : Hash) {l : List Tree} (hl : ∀ x ∈ l, x.Solid) :
    (pairUp (Tree.combine H) l).flatMap Tree.leaves = l.flatMap Tree.leaves ∧
      ∀ x ∈ pairUp (Tree.combine H) l, x.Solid := by
  induction l using pairUp.induct with
  | case1 a b l ihl =>
    obtain ⟨h1, h2⟩ := ihl fun x hx => hl x (by simp [hx])
    refine ⟨by simp [pairUp, h1, Tree.combine, Tree.leaves], ?_⟩
    intro x hx
    rcases List.mem_cons.mp hx with rfl | hx
    · exact ⟨hl a (by simp), hl b (by simp)⟩
    · exact h2 x hx
  | case2 a => exact ⟨rfl, hl⟩
  | case3 => exact ⟨rfl, hl⟩

/-- The tree of a list of leaves holds these leaves in order, and nothing else. -/
theorem leaves_root (H : Hash) {ts : List Tree} {t : Tree} (hts : ∀ x ∈ ts, x.Solid)
    (ht : Library.root (Tree.combine H) ts = some t) :
    t.leaves = ts.flatMap Tree.leaves ∧ t.Solid := by
  induction ts using root.induct (Tree.combine H) with
  | case1 l hlen ih =>
    obtain ⟨h1, h2⟩ := leaves_pairUp H hts
    rw [← root_pairUp] at ht
    rw [← h1]
    exact ih h2 ht
  | case2 l hlen =>
    rcases l with _ | ⟨x, _ | ⟨y, l⟩⟩
    · simp [root_nil] at ht
    · rw [root_singleton, Option.some.injEq] at ht
      subst ht
      exact ⟨by simp, hts x (by simp)⟩
    · simp at hlen

theorem leaves_fromVec (H : Hash) {values : List Bytes} {t : Tree}
    (ht : Library.root (Tree.combine H) (values.map (Tree.newLeaf H)) = some t) :
    t.leaves = values ∧ t.Solid := by
  obtain ⟨hleaves, hsolid⟩ := leaves_root H (by simp [Tree.newLeaf, Tree.Solid]) ht
  refine ⟨?_, hsolid⟩
  rw [hleaves, List.flatMap_map]
  simp [Tree.newLeaf, Tree.leaves]

theorem count_fromVec {H : Hash} {values : List Bytes} {t : MerkleTree}
    (ht : fromVec H values = .ok t) :
    t.count = values.length := by
  by_cases hv : values = []
  · subst hv
    rw [fromVec_nil, Except.ok.injEq] at ht
    rw [← ht, default, List.length_nil]
  · exact (fromVec_spec H hv ht).1

/-- Iterating over the tree of a ledger gives the ledger back. -/
theorem iter_fromVec {H : Hash} {values : List Bytes} {t : MerkleTree}
    (ht : fromVec H values = .ok t) :
    t.root.iter = values := by
  by_cases hv : values = []
  · subst hv
    rw [fromVec_nil, Except.ok.injEq] at ht
    rw [← ht, default, Tree.iter, Tree.addLeft, Tree.collect]
  · obtain ⟨r, hr⟩ :=
      exists_root (Tree.combine H) (l := values.map (Tree.newLeaf H)) (by simpa using hv)
    rw [fromVec_eq H hv hr, Except.ok.injEq] at ht
    obtain ⟨hleaves, hsolid⟩ := leaves_fromVec H hr
    rw [← ht, Tree.iter_eq_leaves hsolid, hleaves]

variable (H : Hash) {xs : List Bytes} {r : Tree} (v : Bytes)

/-- A tree with a complete number of leaves gets a new top. -/
private theorem append_complete {k : ℕ} (hk : xs.length = 2 ^ k)
    (hr : Library.root (Tree.combine H) (xs.map (Tree.newLeaf H)) = some r) :
    append H ⟨r, Nat.clog 2 xs.length, xs.length, xs.length - 1⟩ v = fromVec H (xs ++ [v]) := by
  have hpos : 1 ≤ xs.length := by rw [hk]; exact Nat.one_le_two_pow
  have hsplit : splitPoint ((xs ++ [v]).map (Tree.newLeaf H)).length = xs.length := by
    simp [hk, splitPoint_pow]
  have hroot : Library.root (Tree.combine H) ((xs ++ [v]).map (Tree.newLeaf H)) =
      some (Tree.combine H r (Tree.newLeaf H v)) := by
    apply root_split
    · simpa using hpos
    · rw [hsplit, List.map_append, List.take_left' (by simp), hr]
    · rw [hsplit, List.map_append, List.drop_left' (by simp)]
      exact root_singleton _ _
  have hheight : Nat.clog 2 (xs ++ [v]).length = Nat.clog 2 xs.length + 1 := by
    simp [hk, clog_pow_succ, Nat.clog_pow]
  have hbits : ¬ countBits xs.length ≠ 1 :=
    not_not.mpr ((countBits_eq_one_iff (by omega)).mpr ⟨k, hk⟩)
  rw [fromVec_eq H (by simp) hroot, append.eq_def, if_neg (show ¬ xs.length = 0 by omega),
    if_neg hbits, fromVec_eq H (by simp) (root_singleton _ _), hheight]
  rcases Nat.lt_or_ge 1 xs.length with hlen | hlen
  · obtain ⟨x, y, -, -, hxy⟩ :=
      exists_root_split (Tree.combine H) (l := xs.map (Tree.newLeaf H)) (by simpa using hlen)
    rw [hr, Option.some.injEq] at hxy
    subst hxy
    simp [Tree.combine, rootHash, Tree.hash]
    omega
  · obtain ⟨x, rfl⟩ := List.length_eq_one_iff.mp (show xs.length = 1 by omega)
    rw [List.map_singleton, root_singleton, Option.some.injEq] at hr
    subst hr
    simp [Tree.combine, Tree.newLeaf, rootHash, Tree.hash]

/-- Otherwise only the right part grows. -/
private theorem append_partial (hk : ∀ k, xs.length ≠ 2 ^ k) (hlen : 2 ≤ xs.length)
    (hr : Library.root (Tree.combine H) (xs.map (Tree.newLeaf H)) = some r) :
    append H ⟨r, Nat.clog 2 xs.length, xs.length, xs.length - 1⟩ v = fromVec H (xs ++ [v]) := by
  obtain ⟨hsplit, hheight⟩ := split_succ hlen hk
  have hlt := splitPoint_lt hlen
  obtain ⟨x, y, hx, hy, hxy⟩ := exists_root_split (Tree.combine H) (l := xs.map (Tree.newLeaf H))
    (by rw [List.length_map]; omega)
  rw [hr, Option.some.injEq] at hxy
  subst hxy
  rw [List.length_map, ← List.map_take] at hx
  rw [List.length_map, ← List.map_drop] at hy
  obtain ⟨hleaves, hsolid⟩ := leaves_fromVec H hy
  obtain ⟨y', hy'⟩ := exists_root (Tree.combine H)
    (l := (xs.drop (splitPoint xs.length) ++ [v]).map (Tree.newLeaf H)) (by simp)
  have hroot : Library.root (Tree.combine H) ((xs ++ [v]).map (Tree.newLeaf H)) = some
      (Tree.combine H x y') := by
    have hlen' : splitPoint ((xs ++ [v]).map (Tree.newLeaf H)).length = splitPoint xs.length := by
      simp [hsplit]
    apply root_split
    · simp only [List.length_map, List.length_append, List.length_singleton]
      omega
    · rw [hlen', ← List.map_take, List.take_append_of_le_length hlt.le, hx]
    · rw [hlen', ← List.map_drop, List.drop_append_of_le_length hlt.le, hy']
  have hbits : countBits xs.length ≠ 1 := by
    rw [Ne, countBits_eq_one_iff (by omega)]
    rintro ⟨k, h⟩
    exact hk k h
  rw [fromVec_eq H (by simp) hroot, append.eq_def, if_neg (show ¬ xs.length = 0 by omega),
    if_pos hbits]
  simp only [Tree.combine, Tree.iter_eq_leaves hsolid, hleaves, fromVec_eq H (by simp) hy',
    except_ok_bind,
    except_pure, List.length_append, List.length_singleton, hheight, rootHash, Nat.add_sub_cancel]
  rw [Nat.sub_add_cancel (by omega)]

/-- `append` on the tree of a ledger gives the tree of the ledger with one more transaction. -/
theorem append_fromVec {t : MerkleTree} (ht : fromVec H xs = .ok t) :
    append H t v = fromVec H (xs ++ [v]) := by
  rcases Nat.eq_zero_or_pos xs.length with h0 | hpos
  · obtain rfl := List.eq_nil_of_length_eq_zero h0
    rw [fromVec_nil, Except.ok.injEq] at ht
    subst ht
    rw [List.nil_append, fromVec_eq H (by simp) (root_singleton _ _)]
    simp [append, default]
  have hne := List.ne_nil_of_length_pos hpos
  obtain ⟨r, hr⟩ := exists_root (Tree.combine H) (l := xs.map (Tree.newLeaf H)) (by simpa using hne)
  rw [fromVec_eq H hne hr, Except.ok.injEq] at ht
  subst ht
  by_cases hk : ∃ k, xs.length = 2 ^ k
  · obtain ⟨k, hk⟩ := hk
    exact append_complete H v hk hr
  · have hk' : ∀ k, xs.length ≠ 2 ^ k := fun k h => hk ⟨k, h⟩
    have h1 := hk' 0
    exact append_partial H v hk' (by simp at h1; omega) hr

/-- `append` called for one leaf after the other, from the default tree on. -/
def appendAll (H : Hash) (values : List Bytes) : Outcome MerkleTree :=
  values.foldlM (append H) default

theorem appendAll_concat : appendAll H (xs ++ [v]) = appendAll H xs >>= fun t => append H t v := by
  rw [appendAll, List.foldlM_append]
  exact bind_congr fun t => bind_pure (append H t v)

theorem appendAll_eq_fromVec (values : List Bytes) : appendAll H values = fromVec H values := by
  induction values using List.reverseRecOn with
  | nil => rfl
  | append_singleton xs v ih =>
    obtain ⟨t, ht⟩ := exists_fromVec H xs
    rw [appendAll_concat, ih, ht, except_ok_bind, append_fromVec H v ht]

theorem rootHash_fromVec {values : List Bytes} {t : MerkleTree} (ht : fromVec H values = .ok t) :
    t.rootHash = treeHash emptyHashBytes H.hashLeaf H.hashNodes values := by
  by_cases hv : values = []
  · subst hv
    rw [fromVec_nil, Except.ok.injEq] at ht
    rw [← ht, treeHash]
    rfl
  · have hroot := (fromVec_spec H hv ht).2
    rw [root_eq_treeHash emptyHashBytes H.hashLeaf H.hashNodes hv, Option.some.injEq] at hroot
    exact hroot.symm

/-- Appending the leaves one by one gives the tree that `from_vec` builds, down to its counters; its
leaves are the list and its root hash is the hash of RFC 6962. -/
theorem append_agrees_with_fromVec (H : Hash) (values : List Bytes) :
    ∃ t, appendAll H values = .ok t ∧ fromVec H values = .ok t ∧ t.root.iter = values ∧
      t.count = values.length ∧
      t.rootHash = treeHash emptyHashBytes H.hashLeaf H.hashNodes values := by
  obtain ⟨t, ht⟩ := exists_fromVec H values
  have happend : appendAll H values = .ok t := (appendAll_eq_fromVec H values).trans ht
  exact ⟨t, happend, ht, iter_fromVec ht, count_fromVec ht, rootHash_fromVec H ht⟩

end MerkleTree
end SimpleAsset.Indy
