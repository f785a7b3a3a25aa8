import SimpleAsset.Library.Decimal
import SimpleAsset.Library.HashTree
import SimpleAsset.Library.Fallible
import SimpleAsset.Indy.Result

/-! What the code uses of Rust's primitive types: 64-bit arithmetic (`u64`, and `usize` on a 64-bit
target), decimal parsing, whitespace and UTF-8. -/
namespace SimpleAsset.Indy
open SimpleAsset.Library

/-- `a - b` on 64 bits. -/
def subU64 (build : Build) (a b : ℕ) : Outcome ℕ :=
  if b ≤ a then .ok (a - b)
  else match build with
    | .debug => .error (.panic .overflow)
    | .release => .ok (a + 2 ^ 64 - b)

/-- `a - b` on 8 bits. -/
def subU8 (build : Build) (a b : ℕ) : Outcome ℕ :=
  if b ≤ a then .ok (a - b)
  else match build with
    | .debug => .error (.panic .overflow)
    | .release => .ok (a + 2 ^ 8 - b)

/-- `a + b` on 64 bits. -/
def addU64 (build : Build) (a b : ℕ) : Outcome ℕ :=
  if a + b < 2 ^ 64 then .ok (a + b)
  else match build with
    | .debug => .error (.panic .overflow)
    | .release => .ok (a + b - 2 ^ 64)

/-- Addition at `u32`. -/
def addU32 (build : Build) (a b : ℕ) : Outcome ℕ :=
  if a + b < 2 ^ 32 then .ok (a + b)
  else match build with
    | .debug => .error (.panic .overflow)
    | .release => .ok (a + b - 2 ^ 32)

/-- `u64::next_power_of_two`, which gives 0 on overflow in a release build. -/
def nextPowerOfTwo (build : Build) (n : ℕ) : Outcome ℕ :=
  if n ≤ 2 ^ 63 then .ok (2 ^ Nat.clog 2 n)
  else match build with
    | .debug => .error (.panic .overflow)
    | .release => .ok 0

/-- `isize::MAX`, the most elements that a vector can have. -/
def isizeMax : ℕ := 2 ^ 63 - 1

theorem subU64_of_le (build : Build) {a b : ℕ} (h : b ≤ a) : subU64 build a b = .ok (a - b) := by
  rw [subU64.eq_def, if_pos h]

/-- Half the next power of two is where a tree of `n` leaves splits. -/
theorem half_pow_clog {n : ℕ} (hn : 1 < n) : 2 ^ Nat.clog 2 n / 2 = splitPoint n := by
  have hpos : 0 < Nat.clog 2 n := Nat.clog_pos Nat.one_lt_two hn
  have hlo := Nat.pow_pred_clog_lt_self Nat.one_lt_two hn
  have hhi := Nat.le_pow_clog Nat.one_lt_two n
  have hlog : Nat.log 2 (n - 1) = Nat.clog 2 n - 1 := by
    apply Nat.log_eq_of_pow_le_of_lt_pow
    · rw [Nat.pred_eq_sub_one] at hlo
      omega
    · rw [Nat.sub_add_cancel hpos]
      omega
  unfold splitPoint
  rw [hlog, ← Nat.pow_div hpos (by omega), pow_one]

/-- `str::parse` at `u64` and `usize`: ASCII digits with an optional plus, below `2^64`. -/
def parseU64 (s : String) : Option ℕ :=
  let value := match s.toList with
    | '+' :: ds => readNat asciiDigit ds
    | ds => readNat asciiDigit ds
  value.filter (· < 2 ^ 64)

/-- `char::is_whitespace`. -/
def isWhitespace (c : Char) : Bool :=
  (9 ≤ c.toNat && c.toNat ≤ 13) || (8192 ≤ c.toNat && c.toNat ≤ 8202) ||
    [32, 133, 160, 5760, 8232, 8233, 8239, 8287, 12288].contains c.toNat

/-- `to_string` of an unsigned integer. -/
def u64ToString (n : ℕ) : String := String.ofList (Nat.toDigits 10 n)

theorem u64ToString_inj {m n : ℕ} (h : u64ToString m = u64ToString n) : m = n :=
  toDigits_inj (String.ofList_injective h)

theorem parseU64_u64ToString {n : ℕ} (hn : n < 2 ^ 64) : parseU64 (u64ToString n) = some n := by
  obtain ⟨c, cs, hcs, hc⟩ := exists_cons_toDigits n
  have hplus : c ≠ '+' := by
    intro h
    rw [h] at hc
    exact absurd hc (by decide)
  have hread := readNat_toDigits readsAscii_asciiDigit n
  rw [hcs] at hread
  simp only [parseU64, u64ToString, String.toList_ofList, hcs]
  split
  · rename_i ds heq
    exact absurd (List.cons.inj heq).1 hplus
  · rw [hread, Option.filter_some, if_pos (by simpa using hn)]

theorem parseU64_lt {s : String} {n : ℕ} (h : parseU64 s = some n) : n < 2 ^ 64 := by
  simp only [parseU64, Option.filter_eq_some_iff] at h
  simpa using h.2

/-- `std::str::from_utf8`. -/
def fromUtf8 (b : Bytes) : Option String := String.fromUTF8? ⟨b.toArray⟩

/-- `str::as_bytes`. -/
def asBytes (s : String) : Bytes := s.toByteArray.data.toList

@[simp] theorem fromUtf8_asBytes (s : String) : fromUtf8 (asBytes s) = some s := by
  have hb : (⟨(asBytes s).toArray⟩ : ByteArray) = s.toByteArray := by
    simp [asBytes]
  rw [fromUtf8, hb, String.fromUTF8?, dif_pos s.isValidUTF8]
  rfl

theorem asBytes_append (s t : String) : asBytes (s ++ t) = asBytes s ++ asBytes t := by
  simp [asBytes, String.toByteArray_append]

theorem asBytes_inj {s t : String} : asBytes s = asBytes t ↔ s = t := by
  constructor
  · intro h
    have hs := fromUtf8_asBytes s
    rw [h, fromUtf8_asBytes, Option.some.injEq] at hs
    exact hs.symm
  · exact congrArg asBytes

def hexDigit (n : ℕ) : Char := if n < 10 then Char.ofNat (48 + n) else Char.ofNat (87 + n)

/-- `hex::encode`, also Python's `hexdigest`. -/
def hexEncode (bytes : Bytes) : String :=
  String.ofList (bytes.flatMap fun b => [hexDigit (b.toNat / 16), hexDigit (b.toNat % 16)])

theorem hexDigit_inj {m n : ℕ} (hm : m < 16) (hn : n < 16) : hexDigit m = hexDigit n ↔ m = n := by
  have hall : ∀ m n : Fin 16, hexDigit m = hexDigit n → m = n := by decide
  constructor
  · intro h
    exact congrArg Fin.val (hall ⟨m, hm⟩ ⟨n, hn⟩ h)
  · exact congrArg hexDigit

theorem hexEncode_inj {a b : Bytes} : hexEncode a = hexEncode b ↔ a = b := by
  rw [hexEncode, hexEncode, String.ofList_inj]
  constructor
  · induction a generalizing b with
    | nil =>
      intro h
      cases b with
      | nil => rfl
      | cons y b => simp at h
    | cons x a ih =>
      intro h
      cases b with
      | nil => simp at h
      | cons y b =>
        simp only [List.flatMap_cons, List.cons_append, List.nil_append, List.cons.injEq] at h
        obtain ⟨hhigh, hlow, hrest⟩ := h
        have hx := x.toNat_lt
        have hy := y.toNat_lt
        rw [hexDigit_inj (by omega) (by omega)] at hhigh hlow
        have hxy : x = y := UInt8.toNat_inj.mp (by omega)
        rw [hxy, ih hrest]
  · intro h
    rw [h]

end SimpleAsset.Indy
