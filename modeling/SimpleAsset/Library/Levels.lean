import Mathlib.Data.List.Induction
import Mathlib.Data.List.Infix
import Mathlib.Data.Nat.Log
import Mathlib.Logic.Function.Basic
import Mathlib.Tactic.Linarith

/-! Hash trees built level by level: neighbours are combined, an odd last entry moves up as it
is. -/
namespace SimpleAsset.Library
variable {α β : Type*}

/-- One level up. -/
def pairUp (f : α → α → α) : List α → List α
  | a :: b :: l => f a b :: pairUp f l
  | [a] => [a]
  | [] => []

@[simp] theorem length_pairUp (f : α → α → α) (l : List α) :
    (pairUp f l).length = (l.length + 1) / 2 := by
  induction l using List.twoStepInduction with
  | cons_cons a b l ih _ => simp only [pairUp, List.length_cons, ih]; omega
  | singleton a => simp [pairUp]
  | nil => simp [pairUp]

theorem pairUp_map {f : α → α → α} {g : β → β → β} {h : α → β}
    (hfg : ∀ a b, h (f a b) = g (h a) (h b)) (l : List α) :
    (pairUp f l).map h = pairUp g (l.map h) := by
  induction l using List.twoStepInduction with
  | cons_cons a b l ih _ => simp only [pairUp, List.map_cons, ih, hfg]
  | singleton a => simp [pairUp]
  | nil => simp [pairUp]

theorem pairUp_take (f : α → α → α) (l : List α) (k : ℕ) :
    pairUp f (l.take (2 * k)) = (pairUp f l).take k := by
  induction l using List.twoStepInduction generalizing k with
  | cons_cons a b l ih _ =>
    cases k with
    | zero => simp [pairUp]
    | succ k => simp only [pairUp, Nat.mul_succ, List.take_succ_cons, ih]
  | singleton a => cases k <;> simp [pairUp, Nat.mul_succ]
  | nil => simp [pairUp]

theorem pairUp_drop (f : α → α → α) (l : List α) (k : ℕ) :
    pairUp f (l.drop (2 * k)) = (pairUp f l).drop k := by
  induction l using List.twoStepInduction generalizing k with
  | cons_cons a b l ih _ =>
    cases k with
    | zero => simp
    | succ k => simp only [pairUp, Nat.mul_succ, List.drop_succ_cons, ih]
  | singleton a => cases k <;> simp [pairUp, Nat.mul_succ]
  | nil => simp [pairUp]

theorem getElem?_pairUp_pair (f : α → α → α) {l : List α} {i : ℕ} {x y : α}
    (hx : l[2 * i]? = some x) (hy : l[2 * i + 1]? = some y) : (pairUp f l)[i]? = some (f x y) := by
  induction l using List.twoStepInduction generalizing i with
  | cons_cons a b l ih _ =>
    cases i with
    | zero => simp_all [pairUp]
    | succ i =>
      simp only [Nat.mul_succ, List.getElem?_cons_succ] at hx hy
      simpa [pairUp] using ih hx hy
  | singleton a => simp at hy
  | nil => simp at hy

theorem getElem?_pairUp_last (f : α → α → α) {l : List α} {i : ℕ} (hi : l.length ≤ 2 * i + 1) :
    (pairUp f l)[i]? = l[2 * i]? := by
  induction l using List.twoStepInduction generalizing i with
  | cons_cons a b l ih _ =>
    cases i with
    | zero => simp at hi
    | succ i =>
      simp only [List.length_cons] at hi
      simpa [pairUp, Nat.mul_succ] using ih (i := i) (by omega)
  | singleton a => cases i <;> simp [pairUp, Nat.mul_succ]
  | nil => simp [pairUp]

/-- Pairs that agree one level up agree below. -/
theorem getElem?_eq_of_pairUp {f : α → α → α} (hf : Function.Injective2 f) {l m : List α} {i : ℕ}
    (hl : 2 * i + 1 < l.length) (hm : 2 * i + 1 < m.length)
    (h : (pairUp f l)[i]? = (pairUp f m)[i]?) :
    l[2 * i]? = m[2 * i]? ∧ l[2 * i + 1]? = m[2 * i + 1]? := by
  have hl' := getElem?_pairUp_pair f (List.getElem?_eq_getElem (show 2 * i < l.length by omega))
    (List.getElem?_eq_getElem hl)
  have hm' := getElem?_pairUp_pair f (List.getElem?_eq_getElem (show 2 * i < m.length by omega))
    (List.getElem?_eq_getElem hm)
  rw [hl', hm', Option.some.injEq] at h
  obtain ⟨h0, h1⟩ := hf h
  constructor
  · rw [List.getElem?_eq_getElem (by omega), List.getElem?_eq_getElem (by omega), h0]
  · rw [List.getElem?_eq_getElem hl, List.getElem?_eq_getElem hm, h1]

/-- Levels that agree on the first `k` entries one level up agree on the first `2 * k` below. -/
theorem agree_of_pairUp {f : α → α → α} (hf : Function.Injective2 f) {l m : List α} {k : ℕ}
    (hl : 2 * k ≤ l.length) (hm : 2 * k ≤ m.length)
    (h : ∀ j < k, (pairUp f l)[j]? = (pairUp f m)[j]?) : ∀ j < 2 * k, l[j]? = m[j]? := by
  intro j hj
  obtain ⟨h0, h1⟩ := getElem?_eq_of_pairUp hf (by omega) (by omega) (h (j / 2) (by omega))
  rcases Nat.mod_two_eq_zero_or_one j with hmod | hmod
  · rwa [show 2 * (j / 2) = j by omega] at h0
  · rwa [show 2 * (j / 2) + 1 = j by omega] at h1

theorem pairUp_agree (f : α → α → α) {l m : List α} {k : ℕ} (hl : 2 * k ≤ l.length)
    (h : ∀ j < 2 * k, l[j]? = m[j]?) : ∀ j < k, (pairUp f l)[j]? = (pairUp f m)[j]? := by
  intro j hj
  have h0 := List.getElem?_eq_getElem (l := l) (i := 2 * j) (by omega)
  have h1 := List.getElem?_eq_getElem (l := l) (i := 2 * j + 1) (by omega)
  rw [getElem?_pairUp_pair f h0 h1,
    getElem?_pairUp_pair f ((h _ (by omega)).symm.trans h0) ((h _ (by omega)).symm.trans h1)]

/-- A list of even length is a prefix when it is one after pairing. -/
theorem prefix_of_pairUp {f : α → α → α} (hf : Function.Injective2 f) {l m : List α}
    (heven : l.length % 2 = 0) (hlen : l.length ≤ m.length) (h : pairUp f l <+: pairUp f m) :
    l <+: m := by
  have hup : ∀ j < l.length / 2, (pairUp f l)[j]? = (pairUp f m)[j]? := by
    intro j hj
    have hp : j < (pairUp f l).length := by rw [length_pairUp]; omega
    rw [List.prefix_iff_getElem?.mp h j hp, List.getElem?_eq_getElem hp]
  rw [List.prefix_iff_getElem?]
  intro i hi
  rw [← agree_of_pairUp hf (by omega) (by omega) hup i (by omega), List.getElem?_eq_getElem hi]

/-- Top of the tree over a non-empty level. -/
def root (f : α → α → α) (l : List α) : Option α :=
  if 1 < l.length then root f (pairUp f l) else l.head?
termination_by l.length
decreasing_by rw [length_pairUp]; omega

theorem root_nil (f : α → α → α) : root f [] = none := by
  rw [root]; simp

theorem root_singleton (f : α → α → α) (a : α) : root f [a] = some a := by
  rw [root]; simp

theorem root_pairUp (f : α → α → α) (l : List α) : root f (pairUp f l) = root f l := by
  match l with
  | [] => rfl
  | [a] => rfl
  | a :: b :: l => rw [root.eq_1 f (a :: b :: l)]; simp

theorem exists_root (f : α → α → α) {l : List α} (hl : l ≠ []) : ∃ r, root f l = some r := by
  induction l using root.induct f with
  | case1 l hlen ih =>
    rw [← root_pairUp]
    apply ih
    intro h
    have := congrArg List.length h
    rw [length_pairUp, List.length_nil] at this
    omega
  | case2 l hlen =>
    obtain ⟨a, t, rfl⟩ := List.exists_cons_of_ne_nil hl
    exact ⟨a, by rw [root, if_neg hlen, List.head?_cons]⟩

theorem root_map {f : α → α → α} {g : β → β → β} {h : α → β}
    (hfg : ∀ a b, h (f a b) = g (h a) (h b)) (l : List α) :
    (root f l).map h = root g (l.map h) := by
  induction l using root.induct f with
  | case1 l hlen ih => rw [← root_pairUp, ih, pairUp_map hfg, root_pairUp]
  | case2 l hlen =>
    rw [root, if_neg hlen, root, if_neg (by simpa using hlen), List.head?_map]

/-- Trees of one size with one root are equal. -/
theorem eq_of_root_eq {f : α → α → α} (hf : Function.Injective2 f) {l m : List α}
    (hlen : l.length = m.length) (h : root f l = root f m) : l = m := by
  induction l using root.induct f generalizing m with
  | case1 l hl ih =>
    have hup : pairUp f l = pairUp f m := by
      apply ih
      · simp [hlen]
      · rw [root_pairUp, root_pairUp, h]
    apply List.ext_getElem?
    intro i
    rcases Nat.lt_or_ge i (2 * (l.length / 2)) with hi | hi
    · exact agree_of_pairUp hf (by omega) (by omega) (fun j _ => by rw [hup]) i hi
    · rcases Nat.lt_or_ge i l.length with hil | hil
      · have hl' := getElem?_pairUp_last f (l := l) (i := i / 2) (by omega)
        have hm' := getElem?_pairUp_last f (l := m) (i := i / 2) (by omega)
        rw [show i = 2 * (i / 2) by omega, ← hl', ← hm', hup]
      · rw [List.getElem?_eq_none hil, List.getElem?_eq_none (by omega)]
  | case2 l hl =>
    match l, m with
    | [], [] => rfl
    | [a], [b] =>
      rw [root_singleton, root_singleton, Option.some.injEq] at h
      rw [h]
    | _ :: _ :: _, _ => simp at hl

end SimpleAsset.Library
