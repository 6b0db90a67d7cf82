import StellarFlow.Analytics.MathScaler
import StellarFlow.Lib.DecimalRounding

/-!
# Exactness of the conversions

`scale_up` after `scale_down`, and `fraction_to_scaled`, in `src/analytics/math_scaler.py`. The scales are powers of
ten, so a scaling keeps the digits, and what is lost is lost in the one division.
-/

namespace StellarFlow.Analytics
open Decimal

/-- The context has digits. -/
lemma precision_pos : 0 < precision := by decide

/-- Of a finite value and a positive factor, `scale_up` rounds the product in the context. -/
lemma scaleUp_finite {f : ℤ} (pos : 0 < f) (x : ℚ) (rounding : ℚ → ℤ) :
    scaleUp (.finite x) (.int f) rounding = .ok (rounding (mul precision x f)) := by
  rw [scaleUp, validatePositiveInt, if_neg pos.not_ge]
  rfl

/-- By a positive factor, `scale_down` divides in the context. -/
lemma scaleDown_eq {f : ℤ} (pos : 0 < f) (v : ℤ) : scaleDown v (.int f) = .ok (div precision v f) := by
  rw [scaleDown, validatePositiveInt, if_neg pos.not_ge]
  rfl

/-- The scales are powers of ten. -/
lemma scale_eq_zpow {f : ℤ} (scale : f = scale7 ∨ f = scale14) : 0 < f ∧ ∃ j : ℤ, (f : ℚ) = 10 ^ j := by
  rcases scale with rfl | rfl
  · exact ⟨by decide, 7, by norm_num [scale7]⟩
  · exact ⟨by decide, 14, by norm_num [scale14]⟩

/-- A quotient is rounded once before the last rounding. -/
lemma mul_div_eq {f : ℤ} (scale : f = scale7 ∨ f = scale14) (a b : ℚ) :
    mul precision (div precision a b) f = rounded precision (a / b * f) := by
  obtain ⟨-, j, power⟩ := scale_eq_zpow scale
  rw [mul, div, power, ← rounded_mul_zpow, rounded_rounded precision_pos]

/-- At both scales, `fraction_to_scaled` rounds twice: in the context, and then half to even. -/
lemma fractionToScaled_eq {f : ℤ} (scale : f = scale7 ∨ f = scale14) (x : ℚ) :
    fractionToScaled x (.int f) = .ok (halfEven (rounded precision (x * f))) := by
  rw [fractionToScaled, scaleUp_finite (scale_eq_zpow scale).1, mul_div_eq scale, Rat.num_div_den]

/-- Down and up again, a value is rounded to the digits of the context once. -/
lemma scaleUp_scaleDown {f : ℤ} (scale : f = scale7 ∨ f = scale14) (v : ℤ) :
    (scaleDown v (.int f) >>= fun d => scaleUp (.finite d) (.int f) halfEven) =
      .ok (halfEven (rounded precision v)) := by
  obtain ⟨pos, -⟩ := scale_eq_zpow scale
  have nonzero : (f : ℚ) ≠ 0 := Int.cast_ne_zero.mpr pos.ne'
  rw [scaleDown_eq pos]
  show scaleUp (.finite (div precision v f)) (.int f) halfEven = _
  rw [scaleUp_finite pos, mul_div_eq scale, div_mul_cancel₀ _ nonzero]

/-- A number with few digits and at most seven decimal places is scaled exactly. -/
lemma toFixed_eq {h : ℤ} (fits : Fits precision h) : toFixed (.finite (h / scale7)) = .ok h := by
  have nonzero : (scale7 : ℚ) ≠ 0 := by norm_num [scale7]
  rw [toFixed, scaleUp_finite (by decide), mul, div_mul_cancel₀ _ nonzero,
    (rounded_eq_self_iff precision_pos).mpr fits, halfEven_intCast]

/-- Rounding to the digits of the context gives an integer back just where it fits in them. -/
lemma halfEven_rounded_intCast_iff (v : ℤ) : halfEven (rounded precision v) = v ↔ Fits precision v := by
  constructor
  · intro same
    have twice : halfEven (rounded precision v) = halfEven v := by rw [same, halfEven_intCast]
    have fits := ((halfEven_rounded_iff precision_pos).mp twice).1
    rwa [halfEven_intCast] at fits
  · intro fits
    rw [(rounded_eq_self_iff precision_pos).mpr fits, halfEven_intCast]

/-- An integer comes back exactly when it has at most 28 digits before its zeros, and a fraction is rounded right
exactly when its integer has at most that many and the 28 digits of its quotient do not end on a half that goes to the
other side. -/
theorem conversions_exact_iff (f : ℤ) (scale : f = scale7 ∨ f = scale14) (v : ℤ) (x : ℚ) :
    ((scaleDown v (.int f) >>= fun d => scaleUp (.finite d) (.int f) halfEven) = .ok v ↔ Fits precision v) ∧
    (fractionToScaled x (.int f) = .ok (halfEven (x * f)) ↔
      Fits precision (halfEven (x * f)) ∧
        ∀ k : ℤ, NearHalf precision (x * f) k → halfEven (k + 1 / 2) = halfEven (x * f)) := by
  constructor
  · rw [scaleUp_scaleDown scale, Except.ok.injEq, halfEven_rounded_intCast_iff]
  · rw [fractionToScaled_eq scale, Except.ok.injEq, halfEven_rounded_iff precision_pos]

/-- A large integer with zeros at its end, and one half. -/
theorem conversions_exact_iff_digits :
    (scaleDown (123 * 10 ^ 33) (.int scale7) >>= fun d => scaleUp (.finite d) (.int scale7) halfEven) =
      .ok (123 * 10 ^ 33) ∧
    fractionToScaled (1 / 2) (.int scale7) = .ok 5000000 := by
  have exactly := conversions_exact_iff scale7 (.inl rfl) (123 * 10 ^ 33) (1 / 2)
  have product : (1 / 2 * (scale7 : ℚ) : ℚ) = (5000000 : ℤ) := by norm_num [scale7]
  have fits : Fits precision ((5000000 : ℤ) : ℚ) := ⟨5000000, 0, by norm_num, by norm_num [precision]⟩
  rw [product, halfEven_intCast] at exactly
  refine ⟨exactly.1.mpr ⟨123, 33, by norm_num, by norm_num [precision]⟩, exactly.2.mpr ⟨fits, fun k near => ?_⟩⟩
  -- an integer with so many digits is not rounded to a half
  have half := rounded_eq_half_iff.mpr near
  rw [(rounded_eq_self_iff precision_pos).mpr fits] at half
  exact absurd half.symm (half_ne_intCast k _)

/-- An integer of 29 digits loses the last, and a fraction a little above a half is rounded down. -/
theorem conversion_inexact :
    (scaleDown (10 ^ 28 + 1) (.int scale7) >>= fun d => scaleUp (.finite d) (.int scale7) halfEven) ≠
      .ok (10 ^ 28 + 1) ∧
    fractionToScaled ((1 / 2 + 1 / 10 ^ 30) / 10 ^ 7) (.int scale7) = .ok 0 ∧
    halfEven ((1 / 2 + 1 / 10 ^ 30) / 10 ^ 7 * (scale7 : ℚ)) = 1 := by
  have value : ((1 / 2 + 1 / 10 ^ 30) / 10 ^ 7 * (scale7 : ℚ) : ℚ) = 1 / 2 + 1 / 10 ^ 30 := by norm_num [scale7]
  refine ⟨?_, ?_, ?_⟩
  · rw [scaleUp_scaleDown (.inl rfl), ne_eq, Except.ok.injEq, halfEven_rounded_intCast_iff]
    intro fits
    have zeros : (10 : ℤ) ^ (0 + 1) ∣ 10 ^ 28 + 1 := fits.pow_dvd (by decide)
    exact absurd zeros (by decide)
  · have last : lastExponent precision (1 / 2 + 1 / 10 ^ 30) = -28 := by
      have nonzero : (1 / 2 + 1 / 10 ^ 30 : ℚ) ≠ 0 := by norm_num
      have upper : lastExponent precision (1 / 2 + 1 / 10 ^ 30) ≤ -28 :=
        (lastExponent_le_iff nonzero).mpr (by norm_num [precision])
      have lower : ¬lastExponent precision (1 / 2 + 1 / 10 ^ 30) ≤ -29 :=
        (lastExponent_le_iff nonzero).not.mpr (by norm_num [precision])
      omega
    have half : rounded precision (1 / 2 + 1 / 10 ^ 30) = (0 : ℤ) + 1 / 2 := by
      rw [rounded_eq_half_iff, NearHalf, last]
      norm_num
    rw [fractionToScaled_eq (.inl rfl), value, half, Except.ok.injEq, halfEven_eq_iff]
    norm_num
  · rw [value, halfEven_eq_iff]
    norm_num

end StellarFlow.Analytics
