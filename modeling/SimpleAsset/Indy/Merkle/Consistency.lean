import SimpleAsset.Indy.Merkle.Tree

/-! Consistency proofs between two ledger trees: what the verifier accepts, and that it accepts
the RFC 6962 path. -/
namespace SimpleAsset.Indy
open SimpleAsset.Library

namespace MerkleTree

/-- First loop of `consistency_proof`: leave the levels on which the old tree is complete. -/
def skipComplete (oldNode newNode : ℕ) : ℕ × ℕ :=
  if oldNode % 2 ≠ 0 then skipComplete (oldNode / 2) (newNode / 2) else (oldNode, newNode)
termination_by oldNode
decreasing_by omega

/-- Third loop: the old tree is used up, the rest of the new one lies to the right. -/
def climbNew (H : Hash) (newNode : ℕ) (newHash : Bytes) (proofs : List Bytes) : Option Bytes :=
  if newNode ≠ 0 then
    match proofs with
    | [] => none
    | n :: proofs => climbNew H (newNode / 2) (H.hashNodes newHash n) proofs
  else some newHash
termination_by newNode
decreasing_by omega

/-- Second loop, followed by the third: hashes rebuilt for the old and the new root, `none` when
the proof is too short. -/
def climbBoth (H : Hash) (oldNode newNode : ℕ) (oldHash newHash : Bytes) (proofs : List Bytes) :
    Option (Bytes × Bytes) :=
  if oldNode ≠ 0 then
    if oldNode % 2 ≠ 0 then
      match proofs with
      | [] => none
      | p :: proofs =>
        climbBoth H (oldNode / 2) (newNode / 2) (H.hashNodes p oldHash)
          (H.hashNodes p newHash) proofs
    else if oldNode < newNode then
      match proofs with
      | [] => none
      | p :: proofs =>
        climbBoth H (oldNode / 2) (newNode / 2) oldHash (H.hashNodes newHash p) proofs
    else climbBoth H (oldNode / 2) (newNode / 2) oldHash newHash proofs
  else (climbNew H newNode newHash proofs).map (oldHash, ·)
termination_by oldNode
decreasing_by all_goals omega

/-- Hash both climbs start from: the first of the proof, or the old root when the old tree is
complete. -/
def firstHash (oldNode : ℕ) (rootHash : Bytes) (proof : List Bytes) : Option (Bytes × List Bytes) :=
  if oldNode ≠ 0 then
    match proof with
    | [] => none
    | p :: proofs => some (p, proofs)
  else some (rootHash, proof)

def consistencyProof (H : Hash) (t : MerkleTree) (newRootHash : Bytes) (newSize : ℕ)
    (proof : List Bytes) : Outcome Bool :=
  if t.count = 0 then .ok true
  else if t.count = newSize ∧ t.rootHash = newRootHash then .ok true
  else if t.count > newSize then .error (.panic .assertionFailed)
  else
    let (oldNode, newNode) := skipComplete (t.count - 1) (newSize - 1)
    match firstHash oldNode t.rootHash proof with
    | none => .ok false
    | some (hash, proofs) =>
      match climbBoth H oldNode newNode hash hash proofs with
      | none => .ok false
      | some (oldHash, newHash) => .ok (decide (newHash = newRootHash ∧ oldHash = t.rootHash))

/-- What leaving the complete levels keeps of an old level `l` and a new level `m`. -/
structure Skipped (f : Bytes → Bytes → Bytes) (l m l' m' : List Bytes)
    (oldNode newNode : ℕ) : Prop where
  length_old : l'.length = oldNode + 1
  length_new : m'.length = newNode + 1
  even : oldNode % 2 = 0
  le : oldNode ≤ newNode
  lt : l.length < m.length → oldNode < newNode
  root_old : Library.root f l' = Library.root f l
  root_new : Library.root f m' = Library.root f m
  prefix_down : Function.Injective2 f → l' <+: m' → l <+: m
  prefix_up : l <+: m → l' <+: m'
  path : ∀ complete, subproof f l.length m complete = subproof f (oldNode + 1) m' complete

theorem prefix_pairUp {f : Bytes → Bytes → Bytes} {l m : List Bytes} (heven : l.length % 2 = 0)
    (h : l <+: m) : pairUp f l <+: pairUp f m := by
  have hl : l = m.take (2 * (l.length / 2)) := by
    rw [show 2 * (l.length / 2) = l.length by omega]
    exact List.prefix_iff_eq_take.mp h
  rw [hl, pairUp_take]
  exact List.take_prefix _ _

theorem skipped_skipComplete (f : Bytes → Bytes → Bytes) {a b : ℕ} {l m : List Bytes}
    (hl : l.length = a + 1) (hm : m.length = b + 1) (hab : a ≤ b) :
    ∃ l' m', Skipped f l m l' m' (skipComplete a b).1 (skipComplete a b).2 := by
  induction a, b using skipComplete.induct generalizing l m with
  | case1 a b hodd ih =>
    rw [skipComplete, if_pos hodd]
    obtain ⟨l', m', h⟩ := ih (l := pairUp f l) (m := pairUp f m) (by rw [length_pairUp]; omega)
      (by rw [length_pairUp]; omega) (by omega)
    have heven : l.length % 2 = 0 := by omega
    refine ⟨l', m', h.length_old, h.length_new, h.even, h.le, ?_, ?_, ?_, ?_, ?_, ?_⟩
    · intro hlt
      apply h.lt
      rw [length_pairUp, length_pairUp]
      omega
    · rw [h.root_old, root_pairUp]
    · rw [h.root_new, root_pairUp]
    · intro hf hpre
      exact prefix_of_pairUp hf heven (by omega) (h.prefix_down hf hpre)
    · intro hpre
      exact h.prefix_up (prefix_pairUp heven hpre)
    · intro complete
      rw [← h.path complete, ← subproof_pairUp f complete (by rw [length_pairUp]; omega)
        (by rw [length_pairUp]; omega), length_pairUp,
        show 2 * ((l.length + 1) / 2) = l.length by omega]
  | case2 a b heven =>
    rw [skipComplete, if_neg heven]
    exact ⟨l, m, hl, hm, by omega, hab, by omega, rfl, rfl, fun _ h => h, id, fun _ => by rw [hl]⟩

variable {H : Hash}

/-- Climbing from the first entry of a level to the root of the tree above it starts at that
entry. -/
theorem getElem?_zero_of_climbNew (hH : Function.Injective2 H.hashNodes) {b : ℕ} {m ps : List Bytes}
    {nh r : Bytes} (hm : m.length = b + 1) (h : climbNew H b nh ps = some r)
    (hr : Library.root H.hashNodes m = some r) : m[0]? = some nh := by
  induction b, nh, ps using climbNew.induct H generalizing m with
  | case1 b nh hb => simp [climbNew, hb] at h
  | case2 b nh hb p ps ih =>
    rw [climbNew, if_pos hb] at h
    have hup :=
      ih (m := pairUp H.hashNodes m) (by rw [length_pairUp]; omega) h (by rwa [root_pairUp])
    have h0 := List.getElem?_eq_getElem (l := m) (i := 0) (by omega)
    have h1 := List.getElem?_eq_getElem (l := m) (i := 1) (by omega)
    rw [getElem?_pairUp_pair H.hashNodes (i := 0) h0 h1, Option.some.injEq] at hup
    rw [h0, (hH hup).1]
  | case3 b nh ps hb =>
    obtain rfl : b = 0 := by omega
    obtain ⟨x, rfl⟩ := List.length_eq_one_iff.mp hm
    rw [climbNew.eq_def, if_neg (by omega)] at h
    rw [root_singleton, ← h] at hr
    exact hr

/-- Climbing in both trees at once from entry `a`, the last of the old level: reaching both roots
means starting at that entry of each level, with equal entries before it. -/
theorem getElem?_of_climbBoth (hH : Function.Injective2 H.hashNodes) {a b : ℕ} {l m ps : List Bytes}
    {oh nh ro rn : Bytes} (hl : l.length = a + 1) (hm : m.length = b + 1) (hab : a ≤ b)
    (h : climbBoth H a b oh nh ps = some (ro, rn)) (hro : Library.root H.hashNodes l = some ro)
    (hrn : Library.root H.hashNodes m = some rn) :
    l[a]? = some oh ∧ m[a]? = some nh ∧ ∀ j < a, l[j]? = m[j]? := by
  induction a, b, oh, nh, ps using climbBoth.induct H generalizing l m with
  | case1 a b oh nh ha hodd => simp [climbBoth, ha, hodd] at h
  | case2 a b oh nh ha hodd p ps ih =>
    rw [climbBoth, if_pos ha, if_pos hodd] at h
    obtain ⟨ho, hn, hlow⟩ := ih (l := pairUp H.hashNodes l) (m := pairUp H.hashNodes m)
      (by rw [length_pairUp]; omega) (by rw [length_pairUp]; omega) (by omega) h
      (by rwa [root_pairUp]) (by rwa [root_pairUp])
    have hl0 := List.getElem?_eq_getElem (l := l) (i := 2 * (a / 2)) (by omega)
    have hl1 := List.getElem?_eq_getElem (l := l) (i := 2 * (a / 2) + 1) (by omega)
    have hm0 := List.getElem?_eq_getElem (l := m) (i := 2 * (a / 2)) (by omega)
    have hm1 := List.getElem?_eq_getElem (l := m) (i := 2 * (a / 2) + 1) (by omega)
    rw [getElem?_pairUp_pair H.hashNodes hl0 hl1, Option.some.injEq] at ho
    rw [getElem?_pairUp_pair H.hashNodes hm0 hm1, Option.some.injEq] at hn
    obtain ⟨ho0, ho1⟩ := hH ho
    obtain ⟨hn0, hn1⟩ := hH hn
    rw [ho1, show 2 * (a / 2) + 1 = a by omega] at hl1
    rw [hn1, show 2 * (a / 2) + 1 = a by omega] at hm1
    refine ⟨hl1, hm1, ?_⟩
    intro j hj
    rcases Nat.lt_or_ge j (2 * (a / 2)) with hlt | hge
    · exact agree_of_pairUp hH (by omega) (by omega) hlow j hlt
    · rw [show j = 2 * (a / 2) by omega, hl0, hm0, ho0, hn0]
  | case3 a b oh nh ha hodd hlt => simp [climbBoth, ha, hodd, hlt] at h
  | case4 a b oh nh ha hodd hlt p ps ih =>
    rw [climbBoth, if_pos ha, if_neg hodd, if_pos hlt] at h
    obtain ⟨ho, hn, hlow⟩ := ih (l := pairUp H.hashNodes l) (m := pairUp H.hashNodes m)
      (by rw [length_pairUp]; omega) (by rw [length_pairUp]; omega) (by omega) h
      (by rwa [root_pairUp]) (by rwa [root_pairUp])
    have heven : 2 * (a / 2) = a := by omega
    have hm0 := List.getElem?_eq_getElem (l := m) (i := 2 * (a / 2)) (by omega)
    have hm1 := List.getElem?_eq_getElem (l := m) (i := 2 * (a / 2) + 1) (by omega)
    rw [getElem?_pairUp_last H.hashNodes (by omega), heven] at ho
    rw [getElem?_pairUp_pair H.hashNodes hm0 hm1, Option.some.injEq] at hn
    rw [(hH hn).1, heven] at hm0
    refine ⟨ho, hm0, ?_⟩
    intro j hj
    exact agree_of_pairUp hH (by omega) (by omega) hlow j (by omega)
  | case5 a b oh nh ps ha hodd hlt ih =>
    rw [climbBoth.eq_def, if_pos ha, if_neg hodd, if_neg hlt] at h
    obtain ⟨ho, hn, hlow⟩ := ih (l := pairUp H.hashNodes l) (m := pairUp H.hashNodes m)
      (by rw [length_pairUp]; omega) (by rw [length_pairUp]; omega) (by omega) h
      (by rwa [root_pairUp]) (by rwa [root_pairUp])
    have heven : 2 * (a / 2) = a := by omega
    rw [getElem?_pairUp_last H.hashNodes (by omega), heven] at ho hn
    refine ⟨ho, hn, ?_⟩
    intro j hj
    exact agree_of_pairUp hH (by omega) (by omega) hlow j (by omega)
  | case6 a b oh nh ps ha =>
    obtain rfl : a = 0 := by omega
    rw [climbBoth.eq_def, if_neg (by omega), Option.map_eq_some_iff] at h
    obtain ⟨r, hr, heq⟩ := h
    obtain ⟨rfl, rfl⟩ := Prod.mk.inj heq
    obtain ⟨x, rfl⟩ := List.length_eq_one_iff.mp hl
    rw [root_singleton] at hro
    exact ⟨hro, getElem?_zero_of_climbNew hH hm hr hrn, by omega⟩

/-- The audit path of the last old entry leads to both roots. -/
theorem climbNew_auditPath {b : ℕ} {m : List Bytes} {x r : Bytes} (hm : m.length = b + 1)
    (hx : m[0]? = some x) (hr : Library.root H.hashNodes m = some r) :
    climbNew H b x (auditPath H.hashNodes 0 m) = some r := by
  induction b using Nat.strongRecOn generalizing m x with
  | ind b ih =>
    rcases Nat.eq_zero_or_pos b with rfl | hb
    · obtain ⟨y, rfl⟩ := List.length_eq_one_iff.mp hm
      rw [root_singleton] at hr
      rw [climbNew.eq_def, if_neg (by omega), ← hx, ← hr]
      rfl
    · have h1 := List.getElem?_eq_getElem (l := m) (i := 1) (by omega)
      have hup := getElem?_pairUp_pair H.hashNodes (i := 0) hx h1
      have hsib : sibling? 0 m = some m[1] := h1
      rw [auditPath, if_pos (by omega), hsib, Option.toList_some, List.singleton_append, climbNew,
        if_pos (by omega)]
      exact ih _ (by omega) (by rw [length_pairUp]; omega) hup (by rwa [root_pairUp])

theorem climbBoth_auditPath {a b : ℕ} {l m : List Bytes} {x y ro rn : Bytes} (hl : l.length = a + 1)
    (hm : m.length = b + 1) (hab : a ≤ b) (hx : l[a]? = some x) (hy : m[a]? = some y)
    (hlow : ∀ j < a, l[j]? = m[j]?) (hro : Library.root H.hashNodes l = some ro)
    (hrn : Library.root H.hashNodes m = some rn) :
    climbBoth H a b x y (auditPath H.hashNodes a m) = some (ro, rn) := by
  induction a using Nat.strongRecOn generalizing b l m x y with
  | ind a ih =>
    rcases Nat.eq_zero_or_pos a with rfl | ha
    · obtain ⟨z, rfl⟩ := List.length_eq_one_iff.mp hl
      rw [root_singleton] at hro
      rw [climbBoth.eq_def, if_neg (by omega), climbNew_auditPath hm hy hrn]
      simp_all
    · have hpair := pairUp_agree H.hashNodes (k := a / 2) (by omega) (fun j hj => hlow j (by omega))
      have hro' : Library.root H.hashNodes (pairUp H.hashNodes l) = some ro := by rwa [root_pairUp]
      have hrn' : Library.root H.hashNodes (pairUp H.hashNodes m) = some rn := by rwa [root_pairUp]
      have hl' : (pairUp H.hashNodes l).length = a / 2 + 1 := by rw [length_pairUp]; omega
      have hm' : (pairUp H.hashNodes m).length = b / 2 + 1 := by rw [length_pairUp]; omega
      rw [auditPath, if_pos (by omega)]
      rcases Nat.mod_two_eq_zero_or_one a with heven | hodd
      · have ha2 : 2 * (a / 2) = a := by omega
        have hx' : (pairUp H.hashNodes l)[a / 2]? = some x := by
          rw [getElem?_pairUp_last H.hashNodes (by omega), ha2, hx]
        rcases Nat.lt_or_ge a b with hlt | hge
        · have h1 := List.getElem?_eq_getElem (l := m) (i := a + 1) (by omega)
          have hsib : sibling? a m = some m[a + 1] := by rw [sibling?, if_neg (by omega), h1]
          have hy' :=
            getElem?_pairUp_pair H.hashNodes (l := m) (i := a / 2) (by rwa [ha2]) (by rwa [ha2])
          rw [hsib, Option.toList_some, List.singleton_append, climbBoth, if_pos (by omega),
            if_neg (by omega), if_pos hlt]
          exact ih _ (by omega) hl' hm' (by omega) hx' hy' hpair hro' hrn'
        · have hsib : sibling? a m = none := by
            rw [sibling?, if_neg (by omega), List.getElem?_eq_none (by omega)]
          have hy' : (pairUp H.hashNodes m)[a / 2]? = some y := by
            rw [getElem?_pairUp_last H.hashNodes (by omega), ha2, hy]
          rw [hsib, Option.toList_none, List.nil_append, climbBoth.eq_def, if_pos (by omega),
            if_neg (by omega), if_neg (by omega)]
          exact ih _ (by omega) hl' hm' (by omega) hx' hy' hpair hro' hrn'
      · have ha2 : 2 * (a / 2) = a - 1 := by omega
        have h0 := List.getElem?_eq_getElem (l := m) (i := a - 1) (by omega)
        have hsib : sibling? a m = some m[a - 1] := by rw [sibling?, if_pos hodd, h0]
        have hx' := getElem?_pairUp_pair H.hashNodes (l := l) (i := a / 2) (x := m[a - 1]) (y := x)
          (by rw [ha2, hlow _ (by omega), h0]) (by rwa [show 2 * (a / 2) + 1 = a by omega])
        have hy' := getElem?_pairUp_pair H.hashNodes (l := m) (i := a / 2) (x := m[a - 1]) (y := y)
          (by rw [ha2, h0]) (by rwa [show 2 * (a / 2) + 1 = a by omega])
        rw [hsib, Option.toList_some, List.singleton_append, climbBoth, if_pos (by omega),
          if_pos (by omega)]
        exact ih _ (by omega) hl' hm' (by omega) hx' hy' hpair hro' hrn'

/-- Once the sizes are in order, acceptance is a pair of climbs that ends at both roots. -/
theorem consistencyProof_eq_true_iff {t : MerkleTree} {r : Bytes} {n : ℕ} {proof : List Bytes}
    (h0 : t.count ≠ 0) (hn : t.count ≤ n) :
    consistencyProof H t r n proof = .ok true ↔ t.count = n ∧ t.rootHash = r ∨
      ∃ hash proofs,
        firstHash (skipComplete (t.count - 1) (n - 1)).1 t.rootHash proof = some (hash, proofs) ∧
        climbBoth H (skipComplete (t.count - 1) (n - 1)).1
          (skipComplete (t.count - 1) (n - 1)).2 hash hash proofs = some (t.rootHash, r) := by
  unfold consistencyProof
  rw [if_neg h0]
  split
  · simp_all
  · rename_i hid
    rw [if_neg (by omega)]
    simp only [hid, false_or]
    rcases firstHash (skipComplete (t.count - 1) (n - 1)).1 t.rootHash proof with _ | ⟨hash, proofs⟩
    · simp
    · rcases hc : climbBoth H (skipComplete (t.count - 1) (n - 1)).1
        (skipComplete (t.count - 1) (n - 1)).2 hash hash proofs with _ | ⟨oh, nh⟩
      · simp_all
      · simp [hc, and_comm]

/-- Soundness: an accepted proof makes the old leaves a prefix of the new ones. -/
theorem prefix_of_consistencyProof (hH : H.CollisionFree) {xs ys proof : List Bytes}
    {t u : MerkleTree} (hxs : xs ≠ []) (hlen : xs.length ≤ ys.length) (ht : fromVec H xs = .ok t)
    (hu : fromVec H ys = .ok u)
    (h : consistencyProof H t u.rootHash ys.length proof = .ok true) : xs <+: ys := by
  have hpos := List.length_pos_iff.mpr hxs
  have hys : ys ≠ [] := List.ne_nil_of_length_pos (by omega)
  obtain ⟨htc, htr⟩ := fromVec_spec H hxs ht
  obtain ⟨-, hur⟩ := fromVec_spec H hys hu
  apply (List.prefix_map_iff_of_injective hH.leaf).mp
  rcases (consistencyProof_eq_true_iff (by omega) (by omega)).mp h
    with ⟨hsize, hroot⟩ | ⟨hash, proofs, hf, hc⟩
  · have heq : xs.map H.hashLeaf = ys.map H.hashLeaf := by
      apply eq_of_root_eq hH.nodes
      · rw [List.length_map, List.length_map]; omega
      · rw [htr, hur, hroot]
    rw [heq]
  · obtain ⟨l, m, hs⟩ := skipped_skipComplete H.hashNodes (a := t.count - 1) (b := ys.length - 1)
      (l := xs.map H.hashLeaf) (m := ys.map H.hashLeaf) (by rw [List.length_map]; omega)
      (by rw [List.length_map]; omega) (by omega)
    obtain ⟨hl, hm, hlow⟩ := getElem?_of_climbBoth hH.nodes hs.length_old hs.length_new hs.le hc
      (hs.root_old.trans htr) (hs.root_new.trans hur)
    apply hs.prefix_down hH.nodes
    rw [List.prefix_iff_getElem?]
    intro i hi
    rw [← List.getElem?_eq_getElem hi]
    rw [hs.length_old] at hi
    rcases Nat.lt_or_ge i (skipComplete (t.count - 1) (ys.length - 1)).1 with hlt | hge
    · rw [hlow i hlt]
    · rw [show i = (skipComplete (t.count - 1) (ys.length - 1)).1 by omega, hl, hm]

/-- Completeness: the RFC 6962 path is accepted. -/
theorem consistencyProof_subproof {xs ys : List Bytes} {t u : MerkleTree} (hxs : xs ≠ [])
    (hpre : xs <+: ys) (ht : fromVec H xs = .ok t) (hu : fromVec H ys = .ok u) :
    consistencyProof H t u.rootHash ys.length
      (subproof H.hashNodes xs.length (ys.map H.hashLeaf) true) = .ok true := by
  have hpos := List.length_pos_iff.mpr hxs
  have hlen := hpre.length_le
  have hys : ys ≠ [] := List.ne_nil_of_length_pos (by omega)
  obtain ⟨htc, htr⟩ := fromVec_spec H hxs ht
  obtain ⟨-, hur⟩ := fromVec_spec H hys hu
  rw [consistencyProof_eq_true_iff (by omega) (by omega)]
  rcases hlen.eq_or_lt with heq | hlt
  · left
    obtain rfl := hpre.eq_of_length heq
    exact ⟨htc, by rw [htr, Option.some.injEq] at hur; exact hur⟩
  right
  obtain ⟨l, m, hs⟩ := skipped_skipComplete H.hashNodes (a := t.count - 1) (b := ys.length - 1)
    (l := xs.map H.hashLeaf) (m := ys.map H.hashLeaf) (by rw [List.length_map]; omega)
    (by rw [List.length_map]; omega) (by omega)
  obtain ⟨hold, hnew, heven, hle, hlt', hro, hrn, -, hup, hpath⟩ := hs
  generalize (skipComplete (t.count - 1) (ys.length - 1)).1 = a at *
  generalize (skipComplete (t.count - 1) (ys.length - 1)).2 = b at *
  have hlm := hup (hpre.map H.hashLeaf)
  have hagree : ∀ j < a + 1, l[j]? = m[j]? := by
    intro j hj
    rw [List.prefix_iff_getElem?.mp hlm j (by omega), List.getElem?_eq_getElem]
  have hx := List.getElem?_eq_getElem (l := l) (i := a) (by omega)
  have hlast : a < b := hlt' (by simpa using hlt)
  have hodd := subproof_odd H.hashNodes (m := a + 1) (d := m) true (by omega) (.inl (by omega))
  have hxslen : xs.length = (xs.map H.hashLeaf).length := by simp
  rw [hxslen, hpath true, hodd, Nat.add_sub_cancel]
  have hclimb := climbBoth_auditPath hold hnew hle hx ((hagree a (by omega)).symm.trans hx)
    (fun j hj => hagree j (by omega)) (hro.trans htr) (hrn.trans hur)
  rcases Nat.eq_zero_or_pos a with rfl | ha
  · obtain ⟨z, rfl⟩ := List.length_eq_one_iff.mp hold
    have hz : t.rootHash = z := by
      rw [htr, root_singleton, Option.some.injEq] at hro
      exact hro.symm
    refine ⟨z, auditPath H.hashNodes 0 m, ?_, hclimb⟩
    rw [firstHash.eq_def, if_neg (by omega), hz]
    simp
  · refine ⟨l[a], auditPath H.hashNodes a m, ?_, hclimb⟩
    rw [firstHash.eq_def, if_pos (by omega), if_neg (by omega), ← hagree a (by omega), hx]
    rfl

/-- Consistency proofs are sound, and complete by the RFC 6962 path. -/
theorem consistencyProof_sound_complete (hH : H.CollisionFree) (xs ys : List Bytes)
    (hxs : 1 ≤ xs.length) (hlen : xs.length ≤ ys.length) :
    ∃ t u, fromVec H xs = .ok t ∧ fromVec H ys = .ok u ∧
      (∀ proof, consistencyProof H t u.rootHash ys.length proof = .ok true → xs <+: ys) ∧
      (xs <+: ys → consistencyProof H t u.rootHash ys.length
        (subproof H.hashNodes xs.length (ys.map H.hashLeaf) true) = .ok true) := by
  obtain ⟨t, ht⟩ := exists_fromVec H xs
  obtain ⟨u, hu⟩ := exists_fromVec H ys
  have hne : xs ≠ [] := List.ne_nil_of_length_pos hxs
  refine ⟨t, u, ht, hu, ?_, ?_⟩
  · intro proof h
    exact prefix_of_consistencyProof hH hne hlen ht hu h
  · intro hpre
    exact consistencyProof_subproof hne hpre ht hu

theorem consistencyProof_sound_complete_two :
    ∃ t u, fromVec taggedHash [[1]] = .ok t ∧ fromVec taggedHash [[1], [2]] = .ok u ∧
      (∀ proof, consistencyProof taggedHash t u.rootHash 2 proof = .ok true →
        ([[1]] : List Bytes) <+: [[1], [2]]) ∧
      (([[1]] : List Bytes) <+: [[1], [2]] → consistencyProof taggedHash t u.rootHash 2
        (subproof taggedHash.hashNodes 1 ([[1], [2]].map taggedHash.hashLeaf) true) = .ok true) :=
  consistencyProof_sound_complete taggedHash_collisionFree [[1]] [[1], [2]] (by simp) (by simp)

end MerkleTree
end SimpleAsset.Indy
