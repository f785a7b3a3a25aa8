import Mathlib.Algebra.Order.Ring.Nat
import Mathlib.Data.Nat.ModEq
import Mathlib.Tactic.Ring

/-! Numbers as bytes, the lowest byte first. -/
namespace SimpleAsset.Library

/-- The number that bytes stand for. -/
def ofLe : List UInt8 → ℕ
  | [] => 0
  | b :: bs => b.toNat + 256 * ofLe bs

/-- The `k` lowest bytes of a number. -/
def toLe : ℕ → ℕ → List UInt8
  | 0, _ => []
  | k + 1, n => UInt8.ofNat (n % 256) :: toLe k (n / 256)

/-- One more, from the largest number to zero. -/
def incrementLe : List UInt8 → List UInt8
  | [] => []
  | b :: bs => if b = 255 then 0 :: incrementLe bs else (b + 1) :: bs

@[simp] theorem length_toLe (k n : ℕ) : (toLe k n).length = k := by
  induction k generalizing n with
  | zero => rfl
  | succ k ih => rw [toLe, List.length_cons, ih]

theorem ofLe_toLe (k n : ℕ) : ofLe (toLe k n) = n % 256 ^ k := by
  induction k generalizing n with
  | zero => simp [toLe, ofLe, Nat.mod_one]
  | succ k ih =>
    have hbyte : (UInt8.ofNat (n % 256)).toNat = n % 256 := by simp
    rw [toLe, ofLe, ih, hbyte, Nat.pow_succ', Nat.mod_mul]

theorem ofLe_toLe_of_lt {k n : ℕ} (h : n < 256 ^ k) : ofLe (toLe k n) = n := by
  rw [ofLe_toLe, Nat.mod_eq_of_lt h]

theorem toLe_ofLe (bs : List UInt8) : toLe bs.length (ofLe bs) = bs := by
  induction bs with
  | nil => rfl
  | cons b bs ih =>
    have hb := b.toNat_lt
    have hlow : (b.toNat + 256 * ofLe bs) % 256 = b.toNat := by omega
    have hhigh : (b.toNat + 256 * ofLe bs) / 256 = ofLe bs := by omega
    rw [ofLe, List.length_cons, toLe, hlow, hhigh, ih, UInt8.ofNat_toNat]

theorem ofLe_lt (bs : List UInt8) : ofLe bs < 256 ^ bs.length := by
  induction bs with
  | nil => simp [ofLe]
  | cons b bs ih =>
    have hb := b.toNat_lt
    rw [ofLe, List.length_cons, Nat.pow_succ']
    omega

@[simp] theorem length_incrementLe (bs : List UInt8) : (incrementLe bs).length = bs.length := by
  induction bs with
  | nil => rfl
  | cons b bs ih =>
    rw [incrementLe]
    split_ifs
    · rw [List.length_cons, List.length_cons, ih]
    · rfl

theorem ofLe_incrementLe (bs : List UInt8) :
    ofLe (incrementLe bs) = (ofLe bs + 1) % 256 ^ bs.length := by
  induction bs with
  | nil => simp [incrementLe, ofLe]
  | cons b bs ih =>
    have hbs := ofLe_lt bs
    rw [incrementLe, List.length_cons, Nat.pow_succ']
    split_ifs with hb
    · -- the carry goes on to the next byte
      have hsum : b.toNat + 256 * ofLe bs + 1 = 256 * (ofLe bs + 1) := by
        rw [hb]
        change 255 + 256 * ofLe bs + 1 = _
        ring
      rw [ofLe, ofLe, ih, hsum, Nat.mul_mod_mul_left]
      exact Nat.zero_add _
    · have hlt : b.toNat < 255 := by
        have hle := b.toNat_lt
        have hne : b.toNat ≠ 255 := fun heq => hb (UInt8.toNat_inj.mp heq)
        omega
      have hadd : (b + 1).toNat = b.toNat + 1 := by
        rw [UInt8.toNat_add]
        exact Nat.mod_eq_of_lt (by change b.toNat + 1 < 256; omega)
      rw [ofLe, ofLe, hadd, Nat.mod_eq_of_lt (by omega)]
      ring

theorem ofLe_iterate_incrementLe (bs : List UInt8) (i : ℕ) :
    (incrementLe^[i] bs).length = bs.length ∧
    ofLe (incrementLe^[i] bs) = (ofLe bs + i) % 256 ^ bs.length := by
  induction i with
  | zero => exact ⟨rfl, (Nat.mod_eq_of_lt (ofLe_lt bs)).symm⟩
  | succ i ih =>
    obtain ⟨hlength, hvalue⟩ := ih
    rw [Function.iterate_succ_apply']
    refine ⟨by rw [length_incrementLe, hlength], ?_⟩
    rw [ofLe_incrementLe, hlength, hvalue, Nat.mod_add_mod, Nat.add_assoc]

/-- Fewer increments than there are numbers do not come back to the same bytes. -/
theorem iterate_incrementLe_inj {bs : List UInt8} {i j : ℕ} (hi : i < 256 ^ bs.length)
    (hj : j < 256 ^ bs.length) (h : incrementLe^[i] bs = incrementLe^[j] bs) : i = j := by
  have hvalue : (ofLe bs + i) % 256 ^ bs.length = (ofLe bs + j) % 256 ^ bs.length := by
    rw [← (ofLe_iterate_incrementLe bs i).2, ← (ofLe_iterate_incrementLe bs j).2, h]
  have hmod : i ≡ j [MOD 256 ^ bs.length] := Nat.ModEq.add_left_cancel' _ hvalue
  exact hmod.eq_of_lt_of_lt hi hj

end SimpleAsset.Library
