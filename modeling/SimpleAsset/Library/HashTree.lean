import SimpleAsset.Library.Levels

/-! Audit and consistency paths of RFC 6962, top down as the RFC writes them and level by level. -/
namespace SimpleAsset.Library
variable {α : Type*}

/-- Largest power of two below `n`, for `2 ≤ n`. -/
def splitPoint (n : ℕ) : ℕ := 2 ^ Nat.log 2 (n - 1)

theorem splitPoint_pos (n : ℕ) : 0 < splitPoint n := by
  unfold splitPoint
  positivity

theorem splitPoint_lt {n : ℕ} (hn : 2 ≤ n) : splitPoint n < n := by
  have h := Nat.pow_log_le_self 2 (show n - 1 ≠ 0 by omega)
  unfold splitPoint
  omega

@[simp] theorem splitPoint_two : splitPoint 2 = 1 := by
  simp [splitPoint]

theorem splitPoint_half {n : ℕ} (hn : 2 < n) : splitPoint n = 2 * splitPoint ((n + 1) / 2) := by
  have hlog := Nat.log_of_one_lt_of_le (b := 2) (n := n - 1) (by norm_num) (by omega)
  unfold splitPoint
  rw [hlog, pow_succ, mul_comm, show (n - 1) / 2 = (n + 1) / 2 - 1 by omega]

/-- The tree over a list is the tree over its first `splitPoint` entries beside the rest. -/
theorem root_split (f : α → α → α) {l : List α} {x y : α} (hl : 2 ≤ l.length)
    (hx : root f (l.take (splitPoint l.length)) = some x)
    (hy : root f (l.drop (splitPoint l.length)) = some y) : root f l = some (f x y) := by
  induction l using root.induct f with
  | case1 l hlen ih =>
    rcases Nat.lt_or_ge 2 l.length with h2 | h2
    · rw [splitPoint_half h2] at hx hy
      rw [← root_pairUp, pairUp_take] at hx
      rw [← root_pairUp, pairUp_drop] at hy
      rw [← root_pairUp]
      exact ih (by rw [length_pairUp]; omega) (by rwa [length_pairUp]) (by rwa [length_pairUp])
    · obtain ⟨a, b, rfl⟩ := List.length_eq_two.mp (show l.length = 2 by omega)
      simp only [List.length_cons, List.length_nil, Nat.reduceAdd, splitPoint_two,
        List.take_succ_cons,
        List.take_zero, List.drop_succ_cons, List.drop_zero, root_singleton, Option.some.injEq]
          at hx hy
      rw [← root_pairUp, hx, hy]
      exact root_singleton f _
  | case2 l hlen => omega

/-- Both parts of a tree with two or more entries have a root. -/
theorem exists_root_split (f : α → α → α) {l : List α} (hl : 1 < l.length) :
    ∃ x y, root f (l.take (splitPoint l.length)) = some x ∧
      root f (l.drop (splitPoint l.length)) = some y ∧ root f l = some (f x y) := by
  have hk := splitPoint_lt (n := l.length) hl
  have hk0 := splitPoint_pos l.length
  obtain ⟨x, hx⟩ := exists_root f (l := l.take (splitPoint l.length))
    (List.ne_nil_of_length_pos (by rw [List.length_take]; omega))
  obtain ⟨y, hy⟩ := exists_root f (l := l.drop (splitPoint l.length))
    (List.ne_nil_of_length_pos (by rw [List.length_drop]; omega))
  exact ⟨x, y, hx, hy, root_split f hl hx hy⟩

/-- `MTH(D[n])` of RFC 6962, 2.1, with the hashes of the empty list, of a leaf and of a node. -/
def treeHash {β : Type*} (empty : α) (leaf : β → α) (node : α → α → α) (d : List β) : α :=
  if 1 < d.length then
    node (treeHash empty leaf node (d.take (splitPoint d.length)))
      (treeHash empty leaf node (d.drop (splitPoint d.length)))
  else (d.head?.map leaf).getD empty
termination_by d.length
decreasing_by
  · have := splitPoint_lt (n := d.length) (by omega)
    rw [List.length_take]; omega
  · have := splitPoint_pos d.length
    rw [List.length_drop]; omega

/-- Building level by level gives the hash that RFC 6962 defines top down. -/
theorem root_eq_treeHash {β : Type*} (empty : α) (leaf : β → α) (node : α → α → α) {d : List β}
    (hd : d ≠ []) :
    root node (d.map leaf) = some (treeHash empty leaf node d) := by
  induction hn : d.length using Nat.strongRecOn generalizing d with
  | ind n ih =>
    subst hn
    have hpos := List.length_pos_of_ne_nil hd
    rw [treeHash]
    split_ifs with hlen
    · have hk := splitPoint_lt (n := d.length) hlen
      have hk0 := splitPoint_pos d.length
      have hleft := ih (d.take (splitPoint d.length)).length (by rw [List.length_take]; omega)
        (List.ne_nil_of_length_pos (by rw [List.length_take]; omega)) rfl
      have hright := ih (d.drop (splitPoint d.length)).length (by rw [List.length_drop]; omega)
        (List.ne_nil_of_length_pos (by rw [List.length_drop]; omega)) rfl
      apply root_split node (by rwa [List.length_map])
      · rw [List.length_map, ← List.map_take, hleft]
      · rw [List.length_map, ← List.map_drop, hright]
    · obtain ⟨v, rfl⟩ := List.length_eq_one_iff.mp (show d.length = 1 by omega)
      exact root_singleton node _

/-- Entry next to entry `i` on its level, if it has one. -/
def sibling? (i : ℕ) (l : List α) : Option α := if i % 2 = 1 then l[i - 1]? else l[i + 1]?

/-- Hashes beside the way from entry `i` to the root, lowest level first. -/
def auditPath (f : α → α → α) (i : ℕ) (l : List α) : List α :=
  if 1 < l.length then (sibling? i l).toList ++ auditPath f (i / 2) (pairUp f l) else []
termination_by l.length
decreasing_by rw [length_pairUp]; omega

theorem sibling?_take {l : List α} {i k : ℕ} (hi : i < 2 * k) :
    sibling? i (l.take (2 * k)) = sibling? i l := by
  unfold sibling?
  split <;> exact List.getElem?_take_of_lt (by omega)

theorem sibling?_drop {l : List α} {i k : ℕ} :
    sibling? i (l.drop (2 * k)) = sibling? (2 * k + i) l := by
  unfold sibling?
  rw [show (2 * k + i) % 2 = i % 2 by omega]
  split
  · rw [List.getElem?_drop, show 2 * k + (i - 1) = 2 * k + i - 1 by omega]
  · rw [List.getElem?_drop, Nat.add_assoc]

theorem auditPath_singleton (f : α → α → α) (i : ℕ) (a : α) : auditPath f i [a] = [] := by
  rw [auditPath]; simp

/-- RFC 6962, 2.1.1: the path of an entry of the left part ends with the root of the right part. -/
theorem auditPath_left (f : α → α → α) {l : List α} {i : ℕ} {y : α} (hl : 2 ≤ l.length)
    (hi : i < splitPoint l.length) (hy : root f (l.drop (splitPoint l.length)) = some y) :
    auditPath f i l = auditPath f i (l.take (splitPoint l.length)) ++ [y] := by
  induction l using root.induct f generalizing i with
  | case1 l hlen ih =>
    rcases Nat.lt_or_ge 2 l.length with h2 | h2
    · have hk := splitPoint_half h2
      have hlt := splitPoint_lt hl
      have hpos := splitPoint_pos ((l.length + 1) / 2)
      rw [hk] at hi hy ⊢
      rw [← root_pairUp, pairUp_drop] at hy
      have hup := ih (i := i / 2) (by rw [length_pairUp]; omega) (by rw [length_pairUp]; omega)
        (by rwa [length_pairUp])
      rw [length_pairUp] at hup
      rw [auditPath, if_pos hlen, hup, auditPath.eq_1 f i (l.take _),
        if_pos (by rw [List.length_take]; omega), sibling?_take hi, pairUp_take, List.append_assoc]
    · obtain ⟨a, b, rfl⟩ := List.length_eq_two.mp (show l.length = 2 by omega)
      simp only [List.length_cons, List.length_nil, Nat.reduceAdd, splitPoint_two,
        List.drop_succ_cons, List.drop_zero, root_singleton, Option.some.injEq] at hi hy
      obtain rfl : i = 0 := by omega
      rw [auditPath]
      simp [sibling?, pairUp, auditPath_singleton, hy]
  | case2 l hlen => omega

/-- RFC 6962, 2.1.1: the path of an entry of the right part ends with the root of the left part. -/
theorem auditPath_right (f : α → α → α) {l : List α} {i : ℕ} {x : α} (hl : 2 ≤ l.length)
    (hi : splitPoint l.length + i < l.length)
    (hx : root f (l.take (splitPoint l.length)) = some x) :
    auditPath f (splitPoint l.length + i) l = auditPath f i (l.drop (splitPoint l.length)) ++
    [x] := by
  induction l using root.induct f generalizing i with
  | case1 l hlen ih =>
    rcases Nat.lt_or_ge 2 l.length with h2 | h2
    · have hk := splitPoint_half h2
      have hpos := splitPoint_pos ((l.length + 1) / 2)
      rw [hk] at hi hx ⊢
      rw [← root_pairUp, pairUp_take] at hx
      have hup := ih (i := i / 2) (by rw [length_pairUp]; omega) (by rw [length_pairUp]; omega)
        (by rwa [length_pairUp])
      rw [length_pairUp] at hup
      rw [auditPath, if_pos hlen, show (2 * splitPoint ((l.length + 1) / 2) + i) / 2 =
        splitPoint ((l.length + 1) / 2) + i / 2 by omega, hup, ← sibling?_drop, ← pairUp_drop]
      rcases Nat.lt_or_ge 1 (l.drop (2 * splitPoint ((l.length + 1) / 2))).length with hd | hd
      · rw [auditPath.eq_1 f i (l.drop _), if_pos hd, List.append_assoc]
      · -- the right part is one entry, which moves up through every level
        rw [List.length_drop] at hd
        obtain ⟨a, ha⟩ := List.length_eq_one_iff.mp
          (show (l.drop (2 * splitPoint ((l.length + 1) / 2))).length =
            1 by rw [List.length_drop]; omega)
        have hi0 : i = 0 := by omega
        simp [ha, hi0, sibling?, pairUp, auditPath_singleton]
    · obtain ⟨a, b, rfl⟩ := List.length_eq_two.mp (show l.length = 2 by omega)
      simp only [List.length_cons, List.length_nil, Nat.reduceAdd, splitPoint_two,
        List.take_succ_cons, List.take_zero, root_singleton, Option.some.injEq] at hi hx
      obtain rfl : i = 0 := by omega
      simp only [List.length_cons, List.length_nil, Nat.reduceAdd, splitPoint_two]
      rw [auditPath]
      simp [sibling?, pairUp, auditPath_singleton, hx]
  | case2 l hlen => omega

/-- `SUBPROOF(m, D[n], b)` of RFC 6962, 2.1.2. -/
def subproof (f : α → α → α) (m : ℕ) (d : List α) (complete : Bool) : List α :=
  if m < d.length ∧ 1 < d.length then
    if m ≤ splitPoint d.length then
      subproof f m (d.take (splitPoint d.length)) complete ++
        (root f (d.drop (splitPoint d.length))).toList
    else
      subproof f (m - splitPoint d.length) (d.drop (splitPoint d.length)) false ++
        (root f (d.take (splitPoint d.length))).toList
  else if complete then [] else (root f d).toList
termination_by d.length
decreasing_by
  · have := splitPoint_lt (n := d.length) (by omega)
    rw [List.length_take]; omega
  · have := splitPoint_pos d.length
    rw [List.length_drop]; omega

/-- A consistency path for an even number of entries is one of the level above. -/
theorem subproof_pairUp (f : α → α → α) {m : ℕ} {d : List α} (complete : Bool) (hm : 0 < m)
    (hmd : 2 * m ≤ d.length) :
    subproof f (2 * m) d complete = subproof f m (pairUp f d) complete := by
  induction hn : d.length using Nat.strongRecOn generalizing m d complete with
  | ind n ih =>
    subst hn
    rw [subproof, subproof.eq_1 f m, length_pairUp]
    rcases Nat.lt_or_ge (2 * m) d.length with hlt | hge
    · have h2 : 2 < d.length := by omega
      have hk := splitPoint_half h2
      have hkd := splitPoint_lt (n := d.length) (by omega)
      have hkpos := splitPoint_pos ((d.length + 1) / 2)
      rw [if_pos (show 2 * m < d.length ∧ 1 < d.length by omega),
        if_pos (show m < (d.length + 1) / 2 ∧ 1 < (d.length + 1) / 2 by omega), hk]
      rw [hk] at hkd
      rcases Nat.lt_or_ge (splitPoint ((d.length + 1) / 2)) m with hmk | hmk
      · have hlen : (d.drop (2 * splitPoint ((d.length + 1) / 2))).length =
            d.length - 2 * splitPoint ((d.length + 1) / 2) := List.length_drop
        rw [if_neg (by omega), if_neg (by omega), ← Nat.mul_sub,
          ih _ (by omega) false (by omega) (by omega) hlen, pairUp_drop, ← pairUp_take, root_pairUp]
      · have hlen : (d.take (2 * splitPoint ((d.length + 1) / 2))).length =
            2 * splitPoint ((d.length + 1) / 2) := by rw [List.length_take]; omega
        rw [if_pos (by omega), if_pos (by omega),
          ih _ (by omega) complete hm (by omega) hlen, pairUp_take, ← pairUp_drop, root_pairUp]
    · rw [if_neg (show ¬ (2 * m < d.length ∧ 1 < d.length) by omega),
        if_neg (show ¬ (m < (d.length + 1) / 2 ∧ 1 < (d.length + 1) / 2) by omega), root_pairUp]

/-- For an odd number of entries the path is the last old entry with its audit path. -/
theorem subproof_odd (f : α → α → α) {m : ℕ} {d : List α} (complete : Bool) (hm : m % 2 = 1)
    (hmd : m < d.length ∨ m = 1 ∧ d.length = 1) :
    subproof f m d complete =
      (if complete ∧ m = 1 then [] else d[m - 1]?.toList) ++ auditPath f (m - 1) d := by
  induction hn : d.length using Nat.strongRecOn generalizing m d complete with
  | ind n ih =>
    subst hn
    rw [subproof]
    rcases Nat.lt_or_ge 1 d.length with h1 | h1
    · have hkd := splitPoint_lt (n := d.length) (by omega)
      have hkpos := splitPoint_pos d.length
      obtain ⟨x, y, hx, hy, -⟩ := exists_root_split f h1
      have hpar : d.length = 2 ∧ splitPoint d.length = 1 ∨ splitPoint d.length % 2 = 0 := by
        rcases Nat.lt_or_ge 2 d.length with h2 | h2
        · right
          rw [splitPoint_half h2]
          omega
        · have hd : d.length = 2 := by omega
          exact .inl ⟨hd, by rw [hd, splitPoint_two]⟩
      rw [if_pos (by omega), hx, hy]
      rcases Nat.lt_or_ge (splitPoint d.length) m with hmk | hmk
      · have hlen : (d.drop (splitPoint d.length)).length = d.length - splitPoint d.length :=
          List.length_drop
        have hpath := auditPath_right f (i := m - splitPoint d.length - 1) h1 (by omega) hx
        rw [show splitPoint d.length + (m - splitPoint d.length - 1) = m - 1 by omega] at hpath
        rw [if_neg (by omega), ih _ (by omega) false (by omega) (by omega) hlen, hpath,
          if_neg (by simp), if_neg (by omega), List.getElem?_drop,
          show splitPoint d.length + (m - splitPoint d.length - 1) = m - 1 by omega]
        simp
      · have hlen : (d.take (splitPoint d.length)).length = splitPoint d.length := by
          rw [List.length_take]; omega
        rw [if_pos hmk, ih _ hkd complete hm (by omega) hlen, auditPath_left f h1 (by omega) hy,
          List.getElem?_take_of_lt (by omega)]
        simp
    · obtain ⟨a, rfl⟩ := List.length_eq_one_iff.mp (show d.length = 1 by omega)
      obtain rfl : m = 1 := by omega
      cases complete <;> simp [root_singleton, auditPath_singleton]

end SimpleAsset.Library
