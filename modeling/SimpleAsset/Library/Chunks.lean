import Mathlib.Data.List.Basic
import Mathlib.Data.Nat.Notation

/-! Cutting a list into pieces of one length, with what is left over as a last piece. -/
namespace SimpleAsset.Library
variable {α : Type}

/-- The pieces of length `n`, and the rest; there are none of length zero. -/
def cut (n : ℕ) (l : List α) : List (List α) :=
  if _h : 0 < n ∧ l ≠ [] then l.take n :: cut n (l.drop n) else []
termination_by l.length
decreasing_by
  have hpos := List.length_pos_of_ne_nil _h.2
  rw [List.length_drop]
  omega

variable {n : ℕ} {l : List α}

@[simp] theorem cut_nil (n : ℕ) : cut n ([] : List α) = [] := by
  rw [cut]
  simp

theorem cut_cons (hn : 0 < n) (hl : l ≠ []) : cut n l = l.take n :: cut n (l.drop n) := by
  rw [cut, dif_pos ⟨hn, hl⟩]

theorem cut_of_length_le (hn : 0 < n) (hl : l ≠ []) (hlength : l.length ≤ n) : cut n l = [l] := by
  rw [cut_cons hn hl, List.take_of_length_le hlength, List.drop_of_length_le hlength, cut_nil]

/-- A first piece of full length comes off. -/
theorem cut_append {p : List α} (hn : 0 < n) (hp : p.length = n) :
    cut n (p ++ l) = p :: cut n l := by
  have hne : p ++ l ≠ [] := by
    have hpos : p ≠ [] := List.ne_nil_of_length_pos (hp ▸ hn)
    simp [hpos]
  rw [cut_cons hn hne, List.take_left' hp, List.drop_left' hp]

theorem flatten_cut (hn : 0 < n) (l : List α) : (cut n l).flatten = l := by
  fun_induction cut n l with
  | case1 l h ih => rw [List.flatten_cons, ih, List.take_append_drop]
  | case2 l h =>
    have hl : l = [] := by tauto
    rw [hl]
    rfl

/-- There are no more pieces than entries. -/
theorem length_cut_le (n : ℕ) (l : List α) : (cut n l).length ≤ l.length := by
  fun_induction cut n l with
  | case1 l h ih =>
    have hpos := List.length_pos_of_ne_nil h.2
    rw [List.length_drop] at ih
    rw [List.length_cons]
    omega
  | case2 l h => exact Nat.zero_le _

theorem ne_nil_of_mem_cut {p : List α} (hp : p ∈ cut n l) : p ≠ [] := by
  fun_induction cut n l with
  | case1 l h ih =>
    rcases List.mem_cons.mp hp with rfl | hp
    · rw [Ne, List.take_eq_nil_iff, not_or]
      exact ⟨by omega, h.2⟩
    · exact ih hp
  | case2 l h => cases hp

/-- Pieces of one length stand at the multiples of it. -/
theorem slice_flatten {ps : List (List α)} (hps : ∀ p ∈ ps, p.length = n) (i : ℕ) :
    (ps.flatten.drop (n * i)).take n = ps.getD i [] := by
  induction ps generalizing i with
  | nil => simp
  | cons p ps ih =>
    have hp : p.length = n := hps p List.mem_cons_self
    cases i with
    | zero =>
      rw [Nat.mul_zero, List.drop_zero, List.flatten_cons, List.take_left' hp, List.getD_cons_zero]
    | succ i =>
      have hdrop : (p :: ps).flatten.drop (n * (i + 1)) = ps.flatten.drop (n * i) := by
        rw [List.flatten_cons, Nat.mul_succ, Nat.add_comm, ← List.drop_drop, List.drop_left' hp]
      rw [hdrop, List.getD_cons_succ]
      exact ih (fun q hq => hps q (List.mem_cons_of_mem p hq)) i

end SimpleAsset.Library
