import Mathlib.Data.Nat.Notation
import Mathlib.Data.Int.Notation
import Mathlib.Tactic.Common

/-! Decimal numerals: reading a digit string back gives the number it was rendered from. -/
namespace SimpleAsset.Library

/-- Value of a non-empty string of digits, the digits being those that `digit` knows. -/
def readNat (digit : Char → Option ℕ) (cs : List Char) : Option ℕ :=
  if cs.isEmpty then none
  else cs.foldlM (fun acc c => (digit c).map (10 * acc + ·)) 0

/-- The ten ASCII digits. -/
def asciiDigit (c : Char) : Option ℕ :=
  if c.isDigit then some (c.toNat - '0'.toNat) else none

/-- A digit function that reads the ASCII digits as usual. -/
def ReadsAscii (digit : Char → Option ℕ) : Prop :=
  ∀ c : Char, c.isDigit → digit c = some (c.toNat - '0'.toNat)

theorem readsAscii_asciiDigit : ReadsAscii asciiDigit := by
  intro c hc
  simp [asciiDigit, hc]

private theorem foldlM_digits {digit : Char → Option ℕ} (hd : ReadsAscii digit) (cs : List Char)
    (hcs : ∀ c ∈ cs, c.isDigit) (acc : ℕ) :
    cs.foldlM (fun acc c => (digit c).map (10 * acc + ·)) acc = some
      (Nat.ofDigitChars 10 cs acc) := by
  induction cs generalizing acc with
  | nil => rfl
  | cons c cs ih =>
    have hc := hd c (hcs c (by simp))
    simp only [List.foldlM_cons, hc, Option.map_some, Option.bind_eq_bind, Option.bind_some]
    rw [ih (fun c' h => hcs c' (by simp [h])), Nat.ofDigitChars_cons]

theorem readNat_toDigits {digit : Char → Option ℕ} (hd : ReadsAscii digit) (n : ℕ) :
    readNat digit (Nat.toDigits 10 n) = some n := by
  have hne : (Nat.toDigits 10 n).isEmpty = false := by simp [Nat.toDigits_ne_nil]
  have hds : ∀ c ∈ Nat.toDigits 10 n, c.isDigit :=
    fun c h => Nat.isDigit_of_mem_toDigits (by decide) (by decide) h
  rw [readNat, hne, if_neg (by simp), foldlM_digits hd _ hds, Nat.ofDigitChars_ten_toDigits]

theorem toDigits_inj {m n : ℕ} (h : Nat.toDigits 10 m = Nat.toDigits 10 n) : m = n := by
  have hread := readNat_toDigits readsAscii_asciiDigit m
  rw [h, readNat_toDigits readsAscii_asciiDigit] at hread
  exact (Option.some.inj hread).symm

theorem exists_cons_toDigits (n : ℕ) :
    ∃ c cs, Nat.toDigits 10 n = c :: cs ∧ c.isDigit := by
  cases h : Nat.toDigits 10 n with
  | nil => exact absurd h Nat.toDigits_ne_nil
  | cons c cs =>
    have hmem : c ∈ Nat.toDigits 10 n := by rw [h]; simp
    exact ⟨c, cs, rfl, Nat.isDigit_of_mem_toDigits (by decide) (by decide) hmem⟩

theorem toList_repr (n : ℕ) : n.repr.toList = Nat.toDigits 10 n := by
  simp [Nat.repr]

theorem toList_repr_ofNat (n : ℕ) : (Int.ofNat n).repr.toList = Nat.toDigits 10 n := toList_repr n

theorem toList_repr_negSucc (n : ℕ) :
    (Int.negSucc n).repr.toList = '-' :: Nat.toDigits 10 (n + 1) := by
  simp [Int.repr, Nat.repr]

/-- The digits of a number begin with no sign. -/
theorem toDigits_ne_minus (n : ℕ) (cs : List Char) : Nat.toDigits 10 n ≠ '-' :: cs := by
  intro heq
  obtain ⟨c, cs', hcs, hdigit⟩ := exists_cons_toDigits n
  rw [heq] at hcs
  rw [← (List.cons.inj hcs).1] at hdigit
  exact absurd hdigit (by decide)

theorem intText_inj {m n : ℤ} (h : m.repr.toList = n.repr.toList) : m = n := by
  cases m with
  | ofNat m =>
    cases n with
    | ofNat n =>
      rw [toList_repr_ofNat, toList_repr_ofNat] at h
      rw [toDigits_inj h]
    | negSucc n =>
      rw [toList_repr_ofNat, toList_repr_negSucc] at h
      exact absurd h (toDigits_ne_minus _ _)
  | negSucc m =>
    cases n with
    | ofNat n =>
      rw [toList_repr_ofNat, toList_repr_negSucc] at h
      exact absurd h.symm (toDigits_ne_minus _ _)
    | negSucc n =>
      rw [toList_repr_negSucc, toList_repr_negSucc] at h
      have hdigits := toDigits_inj (List.cons.inj h).2
      rw [Nat.succ.inj hdigits]

end SimpleAsset.Library
