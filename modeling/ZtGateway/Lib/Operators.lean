import Mathlib.Algebra.Order.Floor.Ring
import Mathlib.Data.Int.Log
import Mathlib.Data.Rat.Floor
import Mathlib.Tactic

/-! JavaScript's operators on numbers that are integers: the quotient is rounded to a double, and
the bit operators take their operands to 32-bit words, which are signed except for `>>>`. -/

namespace ZTG

namespace Js

def bitAnd (a b : ℤ) : ℤ := (BitVec.ofInt 32 a &&& BitVec.ofInt 32 b).toInt

def shiftLeft (a : ℤ) (k : ℕ) : ℤ := (BitVec.ofInt 32 a <<< k).toInt

def unsignedShiftRight (a : ℤ) (k : ℕ) : ℤ := ((BitVec.ofInt 32 a >>> k).toNat : ℤ)

/-- `a % b`, with the sign of `a` -/
def remainder (a b : ℤ) : ℤ := a.tmod b

def roundHalfEven (q : ℚ) : ℤ :=
  if Int.fract q < 1 / 2 ∨ (Int.fract q = 1 / 2 ∧ ⌊q⌋ % 2 = 0) then ⌊q⌋ else ⌊q⌋ + 1

/-- the double nearest to a number that does not overflow -/
def double (q : ℚ) : ℚ :=
  let unit : ℚ := 2 ^ max (Int.log 2 |q| - 52) (-1074)
  roundHalfEven (q / unit) * unit

/-- `a * b` of two numbers; 2^1024, which no double reaches, stands for `Infinity` -/
def multiply (a b : ℚ) : ℚ := max (-2 ^ 1024) (min (double (a * b)) (2 ^ 1024))

/-- `Math.floor(a / b)` -/
def floorDiv (a b : ℤ) : ℤ := ⌊double (a / b)⌋

theorem roundHalfEven_intCast (n : ℤ) : roundHalfEven n = n := by
  rw [roundHalfEven, Int.fract_intCast, Int.floor_intCast, if_pos (.inl (by norm_num))]

/-- A number with a significand of 53 bits is a double. -/
theorem double_exact {m e : ℤ} (hm : |m| < 2 ^ 53) (he : -1074 ≤ e) :
    double (m * 2 ^ e) = m * 2 ^ e := by
  by_cases hzero : m = 0
  · subst hzero
    have hround : roundHalfEven 0 = 0 := by simpa using roundHalfEven_intCast 0
    simp [double, hround]
  have hq : (m : ℚ) * 2 ^ e ≠ 0 :=
    mul_ne_zero (Int.cast_ne_zero.mpr hzero) (zpow_ne_zero e two_ne_zero)
  have hlog : Int.log 2 |(m : ℚ) * 2 ^ e| < 53 + e := by
    rw [← Int.lt_zpow_iff_log_lt one_lt_two (abs_pos.mpr hq), abs_mul,
      abs_of_pos (zpow_pos (two_pos : (0 : ℚ) < 2) e), Nat.cast_ofNat,
      zpow_add₀ (two_ne_zero : (2 : ℚ) ≠ 0)]
    refine mul_lt_mul_of_pos_right ?_ (zpow_pos two_pos e)
    exact_mod_cast hm
  unfold double
  dsimp only
  set u := max (Int.log 2 |(m : ℚ) * 2 ^ e| - 52) (-1074) with hu
  have hue : u ≤ e := max_le (by omega) he
  -- in units of the last place the number is an integer
  have hscaled : (m : ℚ) * 2 ^ e / 2 ^ u = ((m * 2 ^ (e - u).toNat : ℤ) : ℚ) := by
    have hsub : (2 : ℚ) ^ (e - u).toNat = 2 ^ e / 2 ^ u := by
      rw [← zpow_sub₀ two_ne_zero, ← zpow_natCast, Int.toNat_of_nonneg (by omega)]
    push_cast
    rw [hsub, mul_div_assoc]
  rw [hscaled, roundHalfEven_intCast, ← hscaled, div_mul_cancel₀ _ (zpow_ne_zero u two_ne_zero)]

theorem double_intCast {n : ℤ} (hn : |n| < 2 ^ 53) : double n = n := by
  have h := double_exact hn (show -1074 ≤ 0 by norm_num)
  rwa [zpow_zero, mul_one] at h

theorem multiply_intCast {a b : ℤ} (h : |a * b| < 2 ^ 53) : multiply a b = (a * b : ℤ) := by
  have hcast : |((a * b : ℤ) : ℚ)| < 2 ^ 53 := by exact_mod_cast h
  have hbound : (2 : ℚ) ^ 53 ≤ 2 ^ 1024 := pow_le_pow_right₀ one_le_two (by norm_num)
  obtain ⟨hlow, hhigh⟩ := abs_lt.mp (hcast.trans_le hbound)
  rw [multiply, ← Int.cast_mul, double_intCast h, min_eq_left hhigh.le, max_eq_right hlow.le]

-- the exact product of these two doubles is not an integer
example : multiply (double (1700000000002 / 1000)) 1000 = 1700000000002 ∧
    double (1700000000002 / 1000) * 1000 ≠ 1700000000002 := by
  decide +kernel

example : multiply (10 ^ 306) 1000 = 2 ^ 1024 := by decide +kernel

/-- Below 2^53 the quotient by a power of two needs no rounding. -/
theorem floorDiv_pow {a : ℤ} (ha : |a| < 2 ^ 53) {k : ℕ} (hk : k ≤ 1074) :
    floorDiv a (2 ^ k) = a / 2 ^ k := by
  have hquotient : ((a : ℚ) / ((2 ^ k : ℤ) : ℚ)) = a * 2 ^ (-(k : ℤ)) := by
    rw [zpow_neg, zpow_natCast, div_eq_mul_inv]
    push_cast
    rfl
  have hfloor : ⌊(a : ℚ) / ((2 ^ k : ℕ) : ℚ)⌋ = a / ((2 ^ k : ℕ) : ℤ) :=
    Rat.floor_intCast_div_natCast a (2 ^ k)
  rw [floorDiv, hquotient, double_exact ha (by omega), ← hquotient]
  push_cast at hfloor ⊢
  exact hfloor

/-- The mask of the low `k` bits takes the remainder, also of a word that is read as negative. -/
theorem bitAnd_mask (n : ℕ) {k : ℕ} (hk : k < 32) : bitAnd n (2 ^ k - 1 : ℕ) = (n % 2 ^ k : ℕ) := by
  have hpow : 2 ^ k ≤ 2 ^ 31 := Nat.pow_le_pow_right two_pos (by omega)
  have hpos : 0 < 2 ^ k := Nat.two_pow_pos k
  have hlt : n % 2 ^ k < 2 ^ k := Nat.mod_lt n hpos
  have hmask : 2 ^ k - 1 < 2 ^ 32 := by omega
  have hand : (BitVec.ofInt 32 n &&& BitVec.ofInt 32 (2 ^ k - 1 : ℕ)).toNat = n % 2 ^ k := by
    rw [BitVec.toNat_and, BitVec.ofInt_natCast, BitVec.ofInt_natCast, BitVec.toNat_ofNat,
      BitVec.toNat_ofNat, Nat.mod_eq_of_lt hmask, Nat.and_two_pow_sub_one_eq_mod,
      Nat.mod_mod_of_dvd n (pow_dvd_pow 2 (by omega))]
  rw [bitAnd, BitVec.toInt_eq_toNat_of_lt (by rw [hand]; omega), hand]

theorem bitAnd_bit (n : ℕ) {k : ℕ} (hk : k < 32) :
    bitAnd n (2 ^ k : ℕ) = 0 ↔ n / 2 ^ k % 2 = 0 := by
  have hbit : (BitVec.ofNat 32 n).getLsbD k = decide (n / 2 ^ k % 2 = 1) := by
    rw [BitVec.getLsbD_ofNat, decide_eq_true hk, Bool.true_and, Nat.testBit_eq_decide_div_mod_eq]
  have htwoPow : BitVec.ofNat 32 (2 ^ k) = BitVec.twoPow 32 k := by
    refine BitVec.eq_of_toNat_eq ?_
    rw [BitVec.toNat_ofNat, BitVec.toNat_twoPow]
  have hne : BitVec.twoPow 32 k ≠ 0#32 := by
    intro hzero
    have hnat := BitVec.toNat_twoPow_of_lt hk
    rw [hzero, BitVec.toNat_zero] at hnat
    exact absurd hnat.symm (Nat.two_pow_pos k).ne'
  have hzero : ∀ x : BitVec 32, x.toInt = 0 ↔ x = 0#32 := fun x => by
    rw [← BitVec.toInt_zero, BitVec.toInt_inj]
  rw [bitAnd, BitVec.ofInt_natCast, BitVec.ofInt_natCast, htwoPow, BitVec.and_twoPow, hbit, hzero]
  rcases Nat.mod_two_eq_zero_or_one (n / 2 ^ k) with hmod | hmod
  · simp [hmod]
  · simp [hmod, hne]

/-- A shift by one doubles as long as the sign bit stays clear. -/
theorem shiftLeft_one {n : ℕ} (hn : n < 2 ^ 30) : shiftLeft n 1 = (n * 2 : ℕ) := by
  have hshift : (BitVec.ofInt 32 n <<< 1).toNat = n * 2 := by
    rw [BitVec.toNat_shiftLeft, BitVec.ofInt_natCast, BitVec.toNat_ofNat,
      Nat.mod_eq_of_lt (show n < 2 ^ 32 by omega), Nat.shiftLeft_eq, pow_one,
      Nat.mod_eq_of_lt (show n * 2 < 2 ^ 32 by omega)]
  rw [shiftLeft, BitVec.toInt_eq_toNat_of_lt (by rw [hshift]; omega), hshift]

theorem unsignedShiftRight_zero (n : ℤ) : unsignedShiftRight n 0 = n % 2 ^ 32 := by
  rw [unsignedShiftRight, BitVec.ushiftRight_zero, BitVec.toNat_ofInt, Int.toNat_of_nonneg]
  · rfl
  · exact Int.emod_nonneg _ (by norm_num)

end Js

end ZTG
