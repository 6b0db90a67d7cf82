import Mathlib.Algebra.Order.Floor.Ring
import Mathlib.Data.Int.Log
import Mathlib.Data.Rat.Floor
import Mathlib.Tactic.Linarith
import Mathlib.Tactic.Positivity

/-!
# Decimal numbers

Arithmetic with a number of significant decimal digits, where ties go to the even digit, as in the module `decimal` of
Python. A number is its value; signed zeros, infinities and exponent limits are not modelled.
-/

namespace Decimal

/-- The nearest integer, the even one of two. -/
def halfEven (x : ℚ) : ℤ :=
  if 2 * Int.fract x < 1 ∨ (2 * Int.fract x = 1 ∧ ⌊x⌋ % 2 = 0) then ⌊x⌋ else ⌊x⌋ + 1

/-- The exponent of the last of so many significant digits. -/
def lastExponent (prec : ℕ) (x : ℚ) : ℤ := Int.log 10 |x| + 1 - prec

/-- The number with so many significant digits. -/
def rounded (prec : ℕ) (x : ℚ) : ℚ := halfEven (x / 10 ^ lastExponent prec x) * 10 ^ lastExponent prec x

def add (prec : ℕ) (x y : ℚ) : ℚ := rounded prec (x + y)

def mul (prec : ℕ) (x y : ℚ) : ℚ := rounded prec (x * y)

def div (prec : ℕ) (x y : ℚ) : ℚ := rounded prec (x / y)

/-- `quantize`: the number with so many places, unless it has too many digits. -/
def quantize (prec places : ℕ) (x : ℚ) : Option ℚ :=
  if (halfEven (x * 10 ^ places)).natAbs < 10 ^ prec then some (halfEven (x * 10 ^ places) / 10 ^ places) else none

variable {prec places : ℕ} {x y r : ℚ}

/-- Rounding half to even never goes below the floor. -/
lemma floor_le_halfEven (x : ℚ) : ⌊x⌋ ≤ halfEven x := by
  rw [halfEven]
  split
  · exact le_rfl
  · exact (lt_add_one _).le

/-- Rounding half to even goes above the floor by one at most. -/
lemma halfEven_le_floor_add_one (x : ℚ) : halfEven x ≤ ⌊x⌋ + 1 := by
  rw [halfEven]
  split
  · exact (lt_add_one _).le
  · exact le_rfl

/-- An integer is rounded to itself. -/
@[simp] lemma halfEven_intCast (n : ℤ) : halfEven n = n := by simp [halfEven]

/-- Rounding keeps the order. -/
lemma halfEven_mono (le : x ≤ y) : halfEven x ≤ halfEven y := by
  rcases (Int.floor_mono le).eq_or_lt with same | lt
  · -- between the same integers the larger number has the larger fraction
    have fractions : Int.fract x ≤ Int.fract y := by
      rw [Int.fract, Int.fract, same]
      exact sub_le_sub_right le _
    rw [halfEven, halfEven, same]
    split
    · split
      · exact le_rfl
      · exact (lt_add_one _).le
    · rename_i up
      rw [if_neg]
      rintro (below | ⟨half, even⟩)
      · exact up (.inl (by linarith))
      · rcases (show 2 * Int.fract x ≤ 1 by linarith).eq_or_lt with tie | below
        · exact up (.inr ⟨tie, even⟩)
        · exact up (.inl below)
  · calc halfEven x ≤ ⌊x⌋ + 1 := halfEven_le_floor_add_one x
      _ ≤ ⌊y⌋ := lt
      _ ≤ halfEven y := floor_le_halfEven y

/-- An integer above stays above after rounding. -/
lemma halfEven_le_of_le {n : ℤ} (le : x ≤ n) : halfEven x ≤ n :=
  (halfEven_mono le).trans (halfEven_intCast n).le

/-- An integer below stays below after rounding. -/
lemma le_halfEven_of_le {n : ℤ} (le : (n : ℚ) ≤ x) : n ≤ halfEven x :=
  (halfEven_intCast n).ge.trans (halfEven_mono le)

/-- Powers of ten are positive. -/
lemma ten_zpow_pos (e : ℤ) : (0 : ℚ) < 10 ^ e := zpow_pos (by norm_num) e

/-- What is not negative is not so after rounding to digits. -/
lemma rounded_nonneg (nonneg : 0 ≤ x) : 0 ≤ rounded prec x := by
  refine mul_nonneg ?_ (ten_zpow_pos _).le
  have coefficient : (0 : ℤ) ≤ halfEven (x / 10 ^ lastExponent prec x) :=
    le_halfEven_of_le (by simpa using div_nonneg nonneg (ten_zpow_pos _).le)
  exact Int.cast_nonneg coefficient

/-- What is not positive is not so after rounding to digits. -/
lemma rounded_nonpos (nonpos : x ≤ 0) : rounded prec x ≤ 0 := by
  refine mul_nonpos_of_nonpos_of_nonneg ?_ (ten_zpow_pos _).le
  have coefficient : halfEven (x / 10 ^ lastExponent prec x) ≤ 0 :=
    halfEven_le_of_le (by simpa using div_nonpos_of_nonpos_of_nonneg nonpos (ten_zpow_pos _).le)
  exact Int.cast_nonpos.2 coefficient

/-- A number is at most the power of ten after its digits. -/
lemma rounded_le_zpow (pos : 0 < x) : rounded prec x ≤ 10 ^ (Int.log 10 x + 1) := by
  have exponent : lastExponent prec x = Int.log 10 x + 1 - prec := by rw [lastExponent, abs_of_pos pos]
  have below : x < 10 ^ (Int.log 10 x + 1) := by
    simpa using Int.lt_zpow_succ_log_self (show 1 < 10 by decide) x
  have split : (10 : ℚ) ^ (Int.log 10 x + 1) = ((10 ^ prec : ℤ) : ℚ) * 10 ^ lastExponent prec x := by
    rw [exponent, Int.cast_pow, Int.cast_ofNat, ← zpow_natCast, ← zpow_add₀ (by norm_num)]
    congr 1
    omega
  rw [rounded, split]
  refine mul_le_mul_of_nonneg_right ?_ (ten_zpow_pos _).le
  refine Int.cast_le.2 (halfEven_le_of_le ?_)
  rw [div_le_iff₀ (ten_zpow_pos _), ← split]
  exact below.le

/-- A number is at least the power of ten of its first digit. -/
lemma zpow_le_rounded (digits : 0 < prec) (pos : 0 < x) : 10 ^ Int.log 10 x ≤ rounded prec x := by
  have exponent : lastExponent prec x = Int.log 10 x + 1 - prec := by rw [lastExponent, abs_of_pos pos]
  have above : 10 ^ Int.log 10 x ≤ x := by
    simpa using Int.zpow_log_le_self (show 1 < 10 by decide) pos
  have split : (10 : ℚ) ^ Int.log 10 x = ((10 ^ (prec - 1) : ℤ) : ℚ) * 10 ^ lastExponent prec x := by
    rw [exponent, Int.cast_pow, Int.cast_ofNat, ← zpow_natCast, ← zpow_add₀ (by norm_num)]
    congr 1
    omega
  rw [rounded, split]
  refine mul_le_mul_of_nonneg_right ?_ (ten_zpow_pos _).le
  refine Int.cast_le.2 (le_halfEven_of_le ?_)
  rw [le_div_iff₀ (ten_zpow_pos _), ← split]
  exact above

/-- Rounding to significant digits keeps the order, also where the number of places changes. -/
lemma rounded_mono (digits : 0 < prec) (nonneg : 0 ≤ x) (le : x ≤ y) : rounded prec x ≤ rounded prec y := by
  rcases nonneg.eq_or_lt with rfl | pos
  · have zero : rounded prec 0 = 0 := by simp [rounded, halfEven]
    rw [zero]
    exact rounded_nonneg le
  have pos' : 0 < y := pos.trans_le le
  rcases (Int.log_mono_right pos le : Int.log 10 x ≤ Int.log 10 y).eq_or_lt with same | lt
  · have exponent : lastExponent prec x = lastExponent prec y := by
      rw [lastExponent, lastExponent, abs_of_pos pos, abs_of_pos pos', same]
    rw [rounded, rounded, exponent]
    refine mul_le_mul_of_nonneg_right (Int.cast_le.2 (halfEven_mono ?_)) (ten_zpow_pos _).le
    exact div_le_div_of_nonneg_right le (ten_zpow_pos _).le
  · calc rounded prec x ≤ 10 ^ (Int.log 10 x + 1) := rounded_le_zpow pos
      _ ≤ 10 ^ Int.log 10 y := zpow_le_zpow_right₀ (by norm_num) lt
      _ ≤ rounded prec y := zpow_le_rounded digits pos'

/-- What is not negative is not so after quantizing. -/
lemma quantize_nonneg (nonneg : 0 ≤ x) (eq : quantize prec places x = some r) : 0 ≤ r := by
  rw [quantize] at eq
  split at eq
  · cases eq
    have coefficient : (0 : ℤ) ≤ halfEven (x * 10 ^ places) :=
      le_halfEven_of_le (by rw [Int.cast_zero]; positivity)
    exact div_nonneg (Int.cast_nonneg coefficient) (by positivity)
  · cases eq

/-- What is not positive is not so after quantizing. -/
lemma quantize_nonpos (nonpos : x ≤ 0) (eq : quantize prec places x = some r) : r ≤ 0 := by
  rw [quantize] at eq
  split at eq
  · cases eq
    have coefficient : halfEven (x * 10 ^ places) ≤ 0 :=
      halfEven_le_of_le (by simpa using mul_nonpos_of_nonpos_of_nonneg nonpos (by positivity))
    exact div_nonpos_of_nonpos_of_nonneg (Int.cast_nonpos.2 coefficient) (by positivity)
  · cases eq

/-- Quantizing keeps the order. -/
lemma quantize_mono {r' : ℚ} (le : x ≤ y) (eq : quantize prec places x = some r)
    (eq' : quantize prec places y = some r') : r ≤ r' := by
  rw [quantize] at eq eq'
  split at eq
  · split at eq'
    · cases eq
      cases eq'
      refine div_le_div_of_nonneg_right (Int.cast_le.2 (halfEven_mono ?_)) (by positivity)
      exact mul_le_mul_of_nonneg_right le (by positivity)
    · cases eq'
  · cases eq

end Decimal
