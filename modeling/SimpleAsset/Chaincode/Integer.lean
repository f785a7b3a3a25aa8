import SimpleAsset.Library.Decimal
import Mathlib.Algebra.Order.Group.Int

/-! The parts of `java.lang` the chaincode computes with: 32-bit `int` arithmetic,
`Integer.parseInt`, `Integer.toString` and the exceptions its handlers tell apart. -/
namespace SimpleAsset.Chaincode
open SimpleAsset.Library

inductive JavaException where
  | numberFormat (message : String)
  | runtime (message : String)
  | illegalArgument (message : String)
  deriving DecidableEq, Repr

/-- `Throwable.toString`. -/
def JavaException.toString : JavaException → String
  | .numberFormat m => "java.lang.NumberFormatException: " ++ m
  | .runtime m => "java.lang.RuntimeException: " ++ m
  | .illegalArgument m => "java.lang.IllegalArgumentException: " ++ m

def maxInt : ℤ := 2147483647
def minInt : ℤ := -2147483648

def InRange (n : ℤ) : Prop := minInt ≤ n ∧ n ≤ maxInt

instance (n : ℤ) : Decidable (InRange n) := inferInstanceAs (Decidable (_ ∧ _))

/-- Result of an `int` operation whose exact value is `n`. -/
def wrapInt (n : ℤ) : ℤ := (n + 2147483648) % 4294967296 - 2147483648

theorem wrapInt_of_inRange {n : ℤ} (h : InRange n) : wrapInt n = n := by
  obtain ⟨hlo, hhi⟩ := h
  simp only [minInt, maxInt] at hlo hhi
  simp only [wrapInt]
  omega

theorem inRange_wrapInt (n : ℤ) : InRange (wrapInt n) := by
  simp only [InRange, minInt, maxInt, wrapInt]
  omega

/-- The zeros of the decimal digit blocks that fit one UTF-16 unit. `Integer.parseInt`
looks at one unit at a time, so digits outside the basic plane are never digits to it. -/
def decimalZeros : List ℕ :=
  [0x0030, 0x0660, 0x06F0, 0x07C0, 0x0966, 0x09E6, 0x0A66, 0x0AE6, 0x0B66, 0x0BE6, 0x0C66,
   0x0CE6, 0x0D66, 0x0E50, 0x0ED0, 0x0F20, 0x1040, 0x1090, 0x17E0, 0x1810, 0x1946, 0x19D0,
   0x1A80, 0x1A90, 0x1B50, 0x1BB0, 0x1C40, 0x1C50, 0xA620, 0xA8D0, 0xA900, 0xA9D0, 0xAA50,
   0xABF0, 0xFF10]

/-- `Character.digit(c, 10)`, with `none` for its -1. -/
def characterDigit (c : Char) : Option ℕ :=
  decimalZeros.findSome? fun z => if z ≤ c.toNat ∧ c.toNat < z +
    10 then some (c.toNat - z) else none

theorem readsAscii_characterDigit : ReadsAscii characterDigit := by
  intro c hc
  have hb : 0x30 ≤ c.toNat ∧ c.toNat < 0x30 + 10 := by
    simp only [Char.isDigit, ge_iff_le, Bool.and_eq_true, decide_eq_true_eq] at hc
    obtain ⟨h1, h2⟩ := hc
    have h1' : (48 : UInt32).toNat ≤ c.val.toNat := UInt32.le_iff_toNat_le.mp h1
    have h2' : c.val.toNat ≤ (57 : UInt32).toNat := UInt32.le_iff_toNat_le.mp h2
    simp only [UInt32.reduceToNat] at h1' h2'
    simp only [Char.toNat]
    omega
  simp [characterDigit, decimalZeros, hb]

/-- `NumberFormatException.forInputString`. -/
def forInputString (s : String) : JavaException :=
  .numberFormat ("For input string: \"" ++ s ++ "\"")

/-- `Integer.parseInt`; `none` is Java's null. -/
def parseInt : Option String → Except JavaException ℤ
  | none => .error (.numberFormat "null")
  | some s =>
    let value : Option ℤ := match s.toList with
      | '-' :: ds => (readNat characterDigit ds).map fun n => -(n : ℤ)
      | '+' :: ds => (readNat characterDigit ds).map fun n => (n : ℤ)
      | ds => (readNat characterDigit ds).map fun n => (n : ℤ)
    match value with
    | none => .error (forInputString s)
    | some n => if InRange n then .ok n else .error (forInputString s)

/-- `Integer.toString`. -/
def integerToString (n : ℤ) : String := n.repr

theorem parseInt_inRange {s : Option String} {n : ℤ} (h : parseInt s = .ok n) : InRange n := by
  cases s with
  | none => simp [parseInt] at h
  | some s =>
    simp only [parseInt] at h
    split at h
    · cases h
    · split_ifs at h with hr
      cases h
      exact hr

private theorem isDigit_ne_sign {c : Char} (h : c.isDigit) : c ≠ '-' ∧ c ≠ '+' := by
  constructor <;> (rintro rfl; simp at h)

/-- Every `int` survives being rendered and read back. -/
theorem parseInt_integerToString {n : ℤ} (h : InRange n) :
    parseInt (some (integerToString n)) = .ok n := by
  have hvalue : (match (integerToString n).toList with
      | '-' :: ds => (readNat characterDigit ds).map fun n => -(n : ℤ)
      | '+' :: ds => (readNat characterDigit ds).map fun n => (n : ℤ)
      | ds => (readNat characterDigit ds).map fun n => (n : ℤ)) = some n := by
    cases n with
    | ofNat m =>
      obtain ⟨c, cs, hcs, hc⟩ := exists_cons_toDigits m
      obtain ⟨hm, hp⟩ := isDigit_ne_sign hc
      have hl : (integerToString (Int.ofNat m)).toList = Nat.toDigits 10 m := toList_repr_ofNat m
      rw [hl, hcs]
      split
      · simp_all
      · simp_all
      · rw [← hcs, readNat_toDigits readsAscii_characterDigit]
        rfl
    | negSucc m =>
      have hl : (integerToString (Int.negSucc m)).toList = '-' :: Nat.toDigits 10 (m + 1) :=
        toList_repr_negSucc m
      rw [hl]
      simp only [readNat_toDigits readsAscii_characterDigit]
      rfl
  simp only [parseInt, hvalue, h, if_true]

end SimpleAsset.Chaincode
