import Mathlib.Data.Int.Sqrt
import StellarFlow.Analytics.MathScaler
import StellarFlow.Lib.IntegerRoot

/-!
# Square roots of fixed-point numbers

Model of `sqrt_scaled`, `fixed_point_sqrt` and `calculate_slippage_variance` in `src/analytics/math_scaler.py`.
-/

namespace StellarFlow.Analytics
open IntegerRoot

/-- The loop of `sqrt_scaled`, from the estimate `x` on. -/
def newton (radicand x : ℕ) : ℕ :=
  if x ≤ newtonStep radicand x then x else newton radicand (newtonStep radicand x)
termination_by x
decreasing_by omega

/-- `sqrt_scaled`. -/
def sqrtScaled (value scale : IntArg) : Except PyError ℤ :=
  match value, scale with
  | .bool _, _ => .error (typeError "value must be an integer, not bool.")
  | .other, _ => .error (typeError "value must be a scaled integer.")
  | .int _, .bool _ | .int _, .other => .error (typeError "scale must be an integer.")
  | .int value, .int scale =>
    if value < 0 then .error (.valueError "Cannot calculate square root of a negative value.")
    else if scale ≤ 0 then .error (.valueError "scale must be positive.")
    else
      let radicand := (value / scale).toNat
      if radicand < 2 then .ok (radicand * scale)
      else .ok (newton radicand (1 <<< ((radicand.size + 1) / 2)) * scale)

/-- `fixed_point_sqrt`. -/
def fixedPointSqrt (value : IntArg) : Except PyError ℤ :=
  match value with
  | .bool _ => .error (typeError "value must be an integer, not bool.")
  | .other => .error (typeError "value must be a scaled integer.")
  | .int value =>
    if value < 0 then .error (.valueError "Cannot compute the fixed-point square root of a negative value.")
    else if value = 0 then .ok 0
    else sqrtScaled (.int value) (.int scale7)

/-- `calculate_slippage_variance`. -/
def calculateSlippageVariance (currentPrice expectedPrice : ℤ) : Except PyError ℤ :=
  if expectedPrice ≤ 0 then
    .error (.valueError "Expected price must be greater than zero for variance analytics.")
  else
    let delta := (currentPrice - expectedPrice) * scale7 / expectedPrice
    let varianceInput := delta * delta / scale7
    fixedPointSqrt (.int varianceInput)

/-- The relative deviation of a price in fixed-point units. -/
def relativeDeviation (currentPrice expectedPrice : ℤ) : ℤ := (currentPrice - expectedPrice) * scale7 / expectedPrice

/-- The square of a fixed-point number at its scale. -/
def fixedSquare (x : ℤ) : ℤ := x * x / scale7

/-- From an estimate that is not below the root the loop ends at the root. -/
lemma newton_eq {radicand x : ℕ} (pos : 0 < radicand) (above : Nat.sqrt radicand ≤ x) :
    newton radicand x = Nat.sqrt radicand := by
  have root : 0 < Nat.sqrt radicand := Nat.sqrt_pos.mpr pos
  induction x using Nat.strong_induction_on with
  | _ x ih =>
    have stops := le_newtonStep_iff above (root.trans_le above)
    rw [newton]
    split
    case isTrue stop => exact stops.mp stop
    case isFalse goes_on =>
      exact ih _ (not_le.mp goes_on) (sqrt_le_newtonStep (root.trans_le above))

/-- The first estimate is not below the root, and the roots of zero and one need no loop. -/
lemma sqrtScaled_nonneg {value scale : ℤ} (nonneg : 0 ≤ value) (pos : 0 < scale) :
    sqrtScaled (.int value) (.int scale) = .ok (Int.sqrt (value / scale) * scale) := by
  rw [sqrtScaled, if_neg nonneg.not_gt, if_neg pos.not_ge, Int.sqrt]
  generalize (value / scale).toNat = radicand
  dsimp only
  split
  case isTrue small =>
    have whole : Nat.sqrt radicand = radicand := by
      obtain rfl | rfl : radicand = 0 ∨ radicand = 1 := by omega
      · exact Nat.sqrt_zero
      · exact Nat.sqrt_one
    rw [whole]
  case isFalse large =>
    have above : Nat.sqrt radicand ≤ 1 <<< ((radicand.size + 1) / 2) := by
      rw [Nat.one_shiftLeft]
      exact (sqrt_lt_two_pow radicand).le
    rw [newton_eq (by omega) above]

/-- Every run of the loop ends, at the root rounded down; negative values are rejected. -/
theorem sqrtScaled_eq (value scale : ℤ) (pos : 0 < scale) :
    (0 ≤ value → sqrtScaled (.int value) (.int scale) = .ok (Int.sqrt (value / scale) * scale)) ∧
      (value < 0 → sqrtScaled (.int value) (.int scale) =
        .error (.valueError "Cannot calculate square root of a negative value.")) := by
  constructor
  · exact fun nonneg => sqrtScaled_nonneg nonneg pos
  · intro negative
    rw [sqrtScaled, if_pos negative]

/-- A hundred at scale ten. -/
theorem sqrtScaled_eq_ten : sqrtScaled (.int 100) (.int 10) = .ok 30 := by
  have root : Int.sqrt (100 / 10) = 3 := by
    rw [show (100 / 10 : ℤ) = (10 : ℕ) by decide, Int.sqrt_natCast]
    exact congrArg Nat.cast (Nat.eq_sqrt.mpr (by decide)).symm
  have returned := (sqrtScaled_eq 100 10 (by decide)).1 (by decide)
  rw [root] at returned
  exact returned

/-- The root is at its scale exactly where it is the root of the whole part. -/
lemma fixedPointSqrt_iff {v : ℤ} (nonneg : 0 ≤ v) :
    fixedPointSqrt (.int v) = .ok (Int.sqrt (v * scale7)) ↔
      ∃ k : ℕ, scale7 * k ^ 2 ≤ v ∧ v ≤ scale7 * k ^ 2 + 2 * k := by
  obtain ⟨n, rfl⟩ := Int.eq_ofNat_of_zero_le nonneg
  have pos : 0 < 10000000 := by decide
  have returned : fixedPointSqrt (.int n) = .ok (Nat.sqrt (n / 10000000) * 10000000 : ℕ) := by
    rw [fixedPointSqrt, if_neg nonneg.not_gt]
    split
    case isTrue zero =>
      obtain rfl : n = 0 := Int.natCast_eq_zero.mp zero
      rfl
    case isFalse nonzero =>
      rw [sqrtScaled_nonneg nonneg (by decide)]
      rfl
  have root : Int.sqrt (n * scale7) = (Nat.sqrt (n * 10000000) : ℕ) := rfl
  rw [returned, root, sqrt_div_scale pos]
  calc _ ↔ Nat.sqrt (n * 10000000) / 10000000 * 10000000 = Nat.sqrt (n * 10000000) := by
        rw [Except.ok.injEq, Nat.cast_inj]
    _ ↔ 10000000 ∣ Nat.sqrt (n * 10000000) := by
        rw [Nat.dvd_iff_div_mul_eq]
    _ ↔ ∃ k, 10000000 * k ^ 2 ≤ n ∧ n ≤ 10000000 * k ^ 2 + 2 * k := dvd_sqrt_iff pos
    _ ↔ _ := by
        refine exists_congr fun k => ?_
        rw [scale7]
        exact_mod_cast Iff.rfl

/-- The same for the square of a fixed-point number. -/
lemma fixedSquare_iff (x : ℤ) :
    (∃ k : ℕ, scale7 * k ^ 2 ≤ fixedSquare x ∧ fixedSquare x ≤ scale7 * k ^ 2 + 2 * k) ↔
      |x| ≤ 3162 ∨ |x| % scale7 ≤ 1 := by
  have square : fixedSquare x = |x| * |x| / scale7 := by rw [fixedSquare, abs_mul_abs_self]
  obtain ⟨m, size⟩ := Int.eq_ofNat_of_zero_le (abs_nonneg x)
  have small : m * m < 10000000 ↔ m ≤ 3162 := by
    constructor
    · intro lt
      by_contra large
      nlinarith only [lt, Nat.mul_le_mul (not_le.mp large) (not_le.mp large)]
    · intro le
      nlinarith only [Nat.mul_le_mul le le]
  rw [square, size, scale7]
  calc _ ↔ ∃ k, 10000000 * k ^ 2 ≤ m * m / 10000000 ∧ m * m / 10000000 ≤ 10000000 * k ^ 2 + 2 * k := by
        exact_mod_cast Iff.rfl
    _ ↔ m * m < 10000000 ∨ m % 10000000 ≤ 1 := exists_square_iff (by decide)
    _ ↔ _ := by
        rw [small]
        exact_mod_cast Iff.rfl

/-- The root has the scale of its argument exactly for the numbers a little above the squares of the whole numbers,
and the variance is right exactly for small deviations and those a little above whole ones. -/
theorem keeps_scale_iff (v : ℤ) (nonneg : 0 ≤ v) (currentPrice expectedPrice : ℤ) (pos : 0 < expectedPrice) :
    (fixedPointSqrt (.int v) = .ok (Int.sqrt (v * scale7)) ↔
      ∃ k : ℕ, scale7 * k ^ 2 ≤ v ∧ v ≤ scale7 * k ^ 2 + 2 * k) ∧
    (calculateSlippageVariance currentPrice expectedPrice =
        .ok (Int.sqrt (fixedSquare (relativeDeviation currentPrice expectedPrice) * scale7)) ↔
      |relativeDeviation currentPrice expectedPrice| ≤ 3162 ∨
        |relativeDeviation currentPrice expectedPrice| % scale7 ≤ 1) := by
  refine ⟨fixedPointSqrt_iff nonneg, ?_⟩
  have computed : calculateSlippageVariance currentPrice expectedPrice =
      fixedPointSqrt (.int (fixedSquare (relativeDeviation currentPrice expectedPrice))) := by
    rw [calculateSlippageVariance, if_neg pos.not_ge]
    rfl
  have square : 0 ≤ fixedSquare (relativeDeviation currentPrice expectedPrice) :=
    Int.ediv_nonneg (mul_self_nonneg _) (by decide)
  rw [computed, fixedPointSqrt_iff square, fixedSquare_iff]

/-- The root of 4 and a price that is twice the expected one. -/
theorem keeps_scale_iff_whole : fixedPointSqrt (.int 40000000) = .ok (Int.sqrt (40000000 * scale7)) ∧
    calculateSlippageVariance 2000000000 1000000000 =
      .ok (Int.sqrt (fixedSquare (relativeDeviation 2000000000 1000000000) * scale7)) := by
  have exactly := keeps_scale_iff 40000000 (by decide) 2000000000 1000000000 (by decide)
  exact ⟨exactly.1.2 ⟨2, by decide, by decide⟩, exactly.2.2 (.inr (by decide))⟩

/-- The root of 2 comes out as 1, and a deviation of five hundredths as none. -/
theorem scale_lost : fixedPointSqrt (.int 20000000) = .ok 10000000 ∧ Int.sqrt (20000000 * scale7) = 14142135 ∧
    calculateSlippageVariance 1050000000 1000000000 = .ok 0 ∧
    Int.sqrt (fixedSquare (relativeDeviation 1050000000 1000000000) * scale7) = 500000 := by
  have root {n r : ℕ} (low : r * r ≤ n) (high : n < (r + 1) * (r + 1)) : Int.sqrt n = r := by
    rw [Int.sqrt_natCast, ← Nat.eq_sqrt.mpr ⟨low, high⟩]
  refine ⟨?_, ?_, ?_, ?_⟩
  · have two : Int.sqrt (20000000 / scale7) = 1 := root (n := 2) (r := 1) (by decide) (by decide)
    show sqrtScaled (.int 20000000) (.int scale7) = _
    rw [sqrtScaled_nonneg (by decide) (by decide), two]
    rfl
  · exact root (n := 200000000000000) (r := 14142135) (by decide) (by decide)
  · have none_ : Int.sqrt (25000 / scale7) = 0 := root (n := 0) (r := 0) (by decide) (by decide)
    show sqrtScaled (.int 25000) (.int scale7) = _
    rw [sqrtScaled_nonneg (by decide) (by decide), none_]
    rfl
  · exact root (n := 250000000000) (r := 500000) (by decide) (by decide)

end StellarFlow.Analytics
