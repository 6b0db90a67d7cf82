import StellarFlow.Lib.DecimalRounding

/-!
# Rounding half up

Decimal arithmetic whose ties go away from zero, to a number of significant digits as in `decimal.js`, and to a number
of places as in a column of the type `numeric`. A number that has no more digits or places stays as it is.
-/

namespace Decimal

/-- The nearest integer, the one away from zero of two. -/
def halfUp (x : ℚ) : ℤ := if 0 ≤ x then ⌊x + 1 / 2⌋ else ⌈x - 1 / 2⌉

/-- The number with so many significant digits. -/
def significant (prec : ℕ) (x : ℚ) : ℚ := halfUp (x / 10 ^ lastExponent prec x) * 10 ^ lastExponent prec x

/-- The number with so many places. -/
def toScale (scale : ℕ) (x : ℚ) : ℚ := halfUp (x * 10 ^ scale) / 10 ^ scale

/-- At most so many places. -/
def HasScale (scale : ℕ) (x : ℚ) : Prop := ∃ n : ℤ, x = n / 10 ^ scale

variable {prec scale : ℕ} {x y : ℚ}

/-- An integer stays. -/
@[simp] lemma halfUp_intCast (n : ℤ) : halfUp n = n := by
  have below : ⌊(n : ℚ) + 1 / 2⌋ = n := Int.floor_eq_iff.2 ⟨by linarith, by linarith⟩
  have above : ⌈(n : ℚ) - 1 / 2⌉ = n := Int.ceil_eq_iff.2 ⟨by linarith, by linarith⟩
  rw [halfUp, below, above, ite_self]

/-- A number with few digits stays. -/
lemma significant_of_fits (fits : Fits prec x) : significant prec x = x := by
  have whole := halfEven_div_of_fits fits
  rw [significant, ← whole, halfUp_intCast, whole, div_mul_cancel₀ _ (ten_zpow_pos _).ne']

/-- What has been rounded has few places. -/
lemma hasScale_toScale (scale : ℕ) (x : ℚ) : HasScale scale (toScale scale x) := ⟨_, rfl⟩

/-- A number with few places stays, and no other does. -/
lemma toScale_eq_self_iff : toScale scale x = x ↔ HasScale scale x := by
  constructor
  · intro same
    exact same ▸ hasScale_toScale scale x
  · rintro ⟨n, rfl⟩
    rw [toScale, div_mul_cancel₀ _ (by positivity), halfUp_intCast]

/-- Sums have no more places. -/
lemma HasScale.add (hasx : HasScale scale x) (hasy : HasScale scale y) : HasScale scale (x + y) := by
  obtain ⟨m, rfl⟩ := hasx
  obtain ⟨n, rfl⟩ := hasy
  exact ⟨m + n, by push_cast; ring⟩

/-- Zero has no places. -/
lemma hasScale_zero (scale : ℕ) : HasScale scale 0 := ⟨0, by simp⟩

instance : Decidable (HasScale scale x) := decidable_of_iff _ toScale_eq_self_iff

instance : Decidable (Fits (prec + 1) x) := decidable_of_iff _ (rounded_eq_self_iff prec.succ_pos)

end Decimal
