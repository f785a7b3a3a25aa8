import Mathlib.Data.List.Sort

/-! Lists in ascending order of a key: where a search in them ends, and when two of them are the
same. -/
namespace SimpleAsset.Library
variable {α κ : Type} [LinearOrder κ] {key : α → κ}

/-- No two elements have the same key. -/
def Ascending (key : α → κ) (l : List α) : Prop := l.Pairwise fun x y => key x < key y

theorem Ascending.filter {l : List α} (h : Ascending key l) (p : α → Bool) :
    Ascending key (l.filter p) :=
  List.Pairwise.filter p h

theorem ascending_map {β : Type} {key' : β → κ} {g : α → β} {l : List α} (h : Ascending key l)
    (hkey : ∀ x ∈ l, key' (g x) = key x) : Ascending key' (l.map g) := by
  rw [Ascending, List.pairwise_map]
  refine List.Pairwise.imp_of_mem ?_ h
  intro x y hx hy hlt
  rw [hkey x hx, hkey y hy]
  exact hlt

/-- Sorting leaves no ties where no two elements have the same key. -/
theorem ascending_mergeSort {l : List α} (hnodup : l.Nodup)
    (hinj : ∀ x ∈ l, ∀ y ∈ l, key x = key y → x = y) :
    Ascending key (l.mergeSort fun x y => key x ≤ key y) := by
  have hsorted : (l.mergeSort fun x y => key x ≤ key y).Pairwise fun x y => key x ≤ key y := by
    have htrans : ∀ x y z : α, decide (key x ≤ key y) = true → decide (key y ≤ key z) = true →
        decide (key x ≤ key z) = true := by
      intro x y z hxy hyz
      simp only [decide_eq_true_eq] at hxy hyz ⊢
      exact hxy.trans hyz
    have htotal : ∀ x y : α, (decide (key x ≤ key y) || decide (key y ≤ key x)) = true := by
      intro x y
      simpa using le_total (key x) (key y)
    have hpairs := List.pairwise_mergeSort htrans htotal l
    simpa only [decide_eq_true_eq] using hpairs
  have hne : (l.mergeSort fun x y => key x ≤ key y).Nodup :=
    (List.mergeSort_perm l _).nodup_iff.mpr hnodup
  refine List.Pairwise.imp_of_mem ?_ (hsorted.and hne)
  intro x y hx hy hxy
  refine lt_of_le_of_ne hxy.1 ?_
  intro heq
  exact hxy.2 (hinj x (List.mem_mergeSort.mp hx) y (List.mem_mergeSort.mp hy) heq)

theorem Ascending.eq_of_mem_iff {l l' : List α} (h : Ascending key l) (h' : Ascending key l')
    (hmem : ∀ x, x ∈ l ↔ x ∈ l') : l = l' := by
  have : Std.Irrefl fun x y : α => key x < key y := ⟨fun x => lt_irrefl (key x)⟩
  have : Std.Antisymm fun x y : α => key x < key y := ⟨fun x y hxy hyx => absurd hxy (lt_asymm hyx)⟩
  exact List.Pairwise.eq_of_mem_iff h h' hmem

theorem Ascending.takeWhile_lt {l : List α} (h : Ascending key l) (b : κ) :
    l.takeWhile (fun x => key x < b) = l.filter fun x => key x < b := by
  induction l with
  | nil => rfl
  | cons x l ih =>
    obtain ⟨hx, hl⟩ := List.pairwise_cons.mp h
    by_cases hlt : key x < b
    · rw [List.takeWhile_cons_of_pos (by simpa using hlt),
        List.filter_cons_of_pos (by simpa using hlt), ih hl]
    · rw [List.takeWhile_cons_of_neg (by simpa using hlt),
        List.filter_cons_of_neg (by simpa using hlt)]
      symm
      rw [List.filter_eq_nil_iff]
      intro y hy
      have hxy : key x < key y := hx y hy
      simpa using (not_lt.mp hlt).trans hxy.le

theorem Ascending.dropWhile_lt {l : List α} (h : Ascending key l) (b : κ) :
    l.dropWhile (fun x => key x < b) = l.filter fun x => b ≤ key x := by
  induction l with
  | nil => rfl
  | cons x l ih =>
    obtain ⟨hx, hl⟩ := List.pairwise_cons.mp h
    by_cases hlt : key x < b
    · rw [List.dropWhile_cons_of_pos (by simpa using hlt),
        List.filter_cons_of_neg (by simpa using hlt), ih hl]
    · rw [List.dropWhile_cons_of_neg (by simpa using hlt),
        List.filter_cons_of_pos (by simpa using hlt)]
      congr 1
      symm
      rw [List.filter_eq_self]
      intro y hy
      have hxy : key x < key y := hx y hy
      simpa using (not_lt.mp hlt).trans hxy.le

theorem drop_length_takeWhile (p : α → Bool) (l : List α) :
    l.drop (l.takeWhile p).length = l.dropWhile p := by
  nth_rewrite 2 [← List.takeWhile_append_dropWhile (p := p) (l := l)]
  rw [List.drop_left]

theorem take_length_takeWhile (p : α → Bool) (l : List α) :
    l.take (l.takeWhile p).length = l.takeWhile p := by
  nth_rewrite 2 [← List.takeWhile_append_dropWhile (p := p) (l := l)]
  rw [List.take_left]

/-- The first element that is not below the key has it exactly when any element does. -/
theorem Ascending.any_getElem?_iff {l : List α} (h : Ascending key l) (b : κ) :
    (l[(l.takeWhile fun x => key x < b).length]?.any fun x => key x = b) = true ↔
    ∃ x ∈ l, key x = b := by
  have hget : l[(l.takeWhile fun x => key x < b).length]? =
      (l.filter fun x => b ≤ key x).head? := by
    rw [← h.dropWhile_lt b, ← drop_length_takeWhile, List.head?_drop]
  rw [hget]
  have hasc := h.filter fun x => b ≤ key x
  have hmem : ∀ x, x ∈ (l.filter fun x => b ≤ key x) ↔ x ∈ l ∧ b ≤ key x := by
    intro x
    simp
  generalize (l.filter fun x => decide (b ≤ key x)) = rest at hasc hmem ⊢
  cases rest with
  | nil =>
    constructor
    · intro hany
      simp at hany
    · rintro ⟨x, hx, hkey⟩
      exact absurd ((hmem x).mpr ⟨hx, hkey.ge⟩) (by simp)
  | cons y rest =>
    obtain ⟨hy, -⟩ := List.pairwise_cons.mp hasc
    obtain ⟨hyl, hyb⟩ := (hmem y).mp (by simp)
    constructor
    · intro hany
      exact ⟨y, hyl, by simpa using hany⟩
    · rintro ⟨x, hx, hkey⟩
      have hle : key y ≤ key x := by
        rcases List.mem_cons.mp ((hmem x).mpr ⟨hx, hkey.ge⟩) with rfl | hrest
        · exact le_rfl
        · exact (hy x hrest).le
      have : key y = b := le_antisymm (hkey ▸ hle) hyb
      simpa using this

end SimpleAsset.Library
