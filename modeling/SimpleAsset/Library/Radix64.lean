import Mathlib.Data.Nat.Notation
import Mathlib.Tactic.Common

/-! Base64 with padding: every three bytes are four symbols. -/
namespace SimpleAsset.Library.Radix64

def symbols : List Char := "ABCDEFGHIJKLMNOPQRSTUVWXYZabcdefghijklmnopqrstuvwxyz0123456789+/".toList

def symbol (n : ℕ) : Char := symbols.getD (n % 64) 'A'

/-- The number that a symbol stands for. -/
def digit (c : Char) : Option ℕ := symbols.idxOf? c

def encode : List UInt8 → List Char
  | [] => []
  | [a] =>
    let n := a.toNat * 16
    [symbol (n / 64), symbol n, '=', '=']
  | [a, b] =>
    let n := (a.toNat * 256 + b.toNat) * 4
    [symbol (n / 4096), symbol (n / 64), symbol n, '=']
  | a :: b :: c :: bytes =>
    let n := (a.toNat * 256 + b.toNat) * 256 + c.toNat
    symbol (n / 262144) :: symbol (n / 4096) :: symbol (n / 64) :: symbol n :: encode bytes

/-- The numbers of some symbols, as one number. -/
def number (cs : List Char) : Option ℕ :=
  (cs.mapM digit).map fun digits => digits.foldl (fun n d => 64 * n + d) 0

def decode : List Char → Option (List UInt8)
  | [] => some []
  | c :: d :: e :: f :: cs =>
    if f = '=' then
      if cs ≠ [] then none
      else if e = '=' then do
        let n ← number [c, d]
        if n % 16 = 0 then some [UInt8.ofNat (n / 16)] else none
      else do
        let n ← number [c, d, e]
        if n % 4 = 0 then some [UInt8.ofNat (n / 1024), UInt8.ofNat (n / 4)] else none
    else do
      let n ← number [c, d, e, f]
      let bytes ← decode cs
      some (UInt8.ofNat (n / 65536) :: UInt8.ofNat (n / 256) :: UInt8.ofNat n :: bytes)
  | _ => none

theorem digit_symbol (n : ℕ) : digit (symbol n) = some (n % 64) := by
  have hdigits : ∀ m < 64, digit (symbols.getD m 'A') = some m := by decide
  exact hdigits (n % 64) (Nat.mod_lt n (by decide))

theorem symbol_mem (n : ℕ) : symbol n ∈ symbols := by
  have hmem : ∀ m < 64, symbols.getD m 'A' ∈ symbols := by decide +kernel
  exact hmem (n % 64) (Nat.mod_lt n (by decide))

theorem symbol_ne_pad (n : ℕ) : symbol n ≠ '=' := by
  intro h
  exact absurd (h ▸ symbol_mem n) (by decide)

theorem number_symbols (ns : List ℕ) :
    number (ns.map symbol) = some (ns.foldl (fun n m => 64 * n + m % 64) 0) := by
  have hdigits : (ns.map symbol).mapM digit = some (ns.map (· % 64)) := by
    induction ns with
    | nil => rfl
    | cons n ns ih => simp [List.mapM_cons, digit_symbol, ih]
  rw [number, hdigits, Option.map_some, List.foldl_map]

theorem ofNat_eq {a : UInt8} {n : ℕ} (h : n % 256 = a.toNat) : UInt8.ofNat n = a := by
  rw [← UInt8.toNat_inj, UInt8.toNat_ofNat', h]

theorem decode_encode (bytes : List UInt8) : decode (encode bytes) = some bytes := by
  induction bytes using encode.induct with
  | case1 => rfl
  | case2 a =>
    have ha := a.toNat_lt
    have hnumber := number_symbols [a.toNat * 16 / 64, a.toNat * 16]
    simp only [List.map_cons, List.map_nil, List.foldl_cons, List.foldl_nil] at hnumber
    rw [encode, decode, if_pos rfl, if_neg (by simp), if_pos rfl, hnumber, Option.bind_eq_bind,
      Option.bind_some, if_pos (by omega), ofNat_eq (a := a) (by omega)]
  | case3 a b =>
    have ha := a.toNat_lt
    have hb := b.toNat_lt
    have hnumber :=
      number_symbols [(a.toNat * 256 + b.toNat) * 4 / 4096, (a.toNat * 256 + b.toNat) * 4 / 64,
      (a.toNat * 256 + b.toNat) * 4]
    simp only [List.map_cons, List.map_nil, List.foldl_cons, List.foldl_nil] at hnumber
    rw [encode, decode, if_pos rfl, if_neg (by simp), if_neg (symbol_ne_pad _), hnumber,
      Option.bind_eq_bind, Option.bind_some, if_pos (by omega), ofNat_eq (a := a) (by omega),
      ofNat_eq (a := b) (by omega)]
  | case4 a b c bytes ih =>
    have ha := a.toNat_lt
    have hb := b.toNat_lt
    have hc := c.toNat_lt
    have hnumber := number_symbols [((a.toNat * 256 + b.toNat) * 256 + c.toNat) / 262144,
      ((a.toNat * 256 + b.toNat) * 256 + c.toNat) / 4096,
      ((a.toNat * 256 + b.toNat) * 256 + c.toNat) / 64, (a.toNat * 256 + b.toNat) * 256 + c.toNat]
    simp only [List.map_cons, List.map_nil, List.foldl_cons, List.foldl_nil] at hnumber
    rw [encode, decode, if_neg (symbol_ne_pad _), hnumber, Option.bind_eq_bind,
      Option.bind_some, ih, Option.bind_eq_bind, Option.bind_some, ofNat_eq (a := a) (by omega),
      ofNat_eq (a := b) (by omega), ofNat_eq (a := c) (by omega)]

/-- Only symbols and padding are written. -/
theorem encode_all {p : Char → Bool} (hsymbols : symbols.all p = true) (hpad : p '=' = true)
    (bytes : List UInt8) :
    (encode bytes).all p = true := by
  have hsymbol : ∀ n, p (symbol n) = true := fun n => List.all_eq_true.mp hsymbols _ (symbol_mem n)
  induction bytes using encode.induct with
  | case1 => rfl
  | case2 a => simp [encode, hsymbol, hpad]
  | case3 a b => simp [encode, hsymbol, hpad]
  | case4 a b c bytes ih => simp [encode, hsymbol, ih]

end SimpleAsset.Library.Radix64
