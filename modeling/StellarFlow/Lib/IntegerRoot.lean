import Mathlib.Algebra.Order.Ring.Nat
import Mathlib.Data.Nat.Size
import Mathlib.Data.Nat.Sqrt
import Mathlib.Tactic.Linarith
import Mathlib.Tactic.Ring

/-!
# Integer square roots

The step of Newton's iteration for the root of a natural number, rounded down. From above the root a step goes down,
and never below the root (`newtonStep_lt`, `sqrt_le_newtonStep`), so the iteration stops at the root and nowhere else
(`le_newtonStep_iff`). The power of two of half the number of bits, rounded up, is above the root.

A number may stand for a multiple of `1 / scale`. The root at the same scale is the root of `value * scale`;
`sqrt_div_scale` and `dvd_sqrt_iff` say how it is related to the root of the whole part.
-/

namespace IntegerRoot
variable {radicand x value scale : ℕ}

def newtonStep (radicand x : ℕ) : ℕ := (x + radicand / x) / 2

/-- The mean of a number and its quotient is not below the root. -/
lemma sqrt_le_newtonStep (pos : 0 < x) : Nat.sqrt radicand ≤ newtonStep radicand x := by
  have quotient : radicand < x * (radicand / x + 1) := Nat.lt_mul_div_succ radicand pos
  rw [newtonStep, Nat.le_div_iff_mul_le Nat.two_pos]
  by_contra low
  -- twice the root is more than the sum of two numbers whose product is more than the radicand
  have root : Nat.sqrt radicand * Nat.sqrt radicand ≤ radicand := Nat.sqrt_le radicand
  have sum : x + (radicand / x + 1) ≤ 2 * Nat.sqrt radicand := by omega
  have means : 4 * x * (radicand / x + 1) ≤ (x + (radicand / x + 1)) ^ 2 := four_mul_le_sq_add x (radicand / x + 1)
  nlinarith only [quotient, root, means, Nat.mul_le_mul sum sum]

/-- Above the root the quotient is below it. -/
lemma newtonStep_lt (above : Nat.sqrt radicand < x) : newtonStep radicand x < x := by
  have quotient : radicand / x < x := by
    rw [Nat.div_lt_iff_lt_mul (Nat.zero_lt_of_lt above)]
    exact Nat.sqrt_lt.mp above
  rw [newtonStep]
  omega

/-- From above the root, a step stops going down just at it. -/
lemma le_newtonStep_iff (above : Nat.sqrt radicand ≤ x) (pos : 0 < x) :
    x ≤ newtonStep radicand x ↔ x = Nat.sqrt radicand := by
  constructor
  · intro stops
    by_contra other
    exact absurd (newtonStep_lt (lt_of_le_of_ne above (Ne.symm other))) (not_lt.mpr stops)
  · rintro rfl
    exact sqrt_le_newtonStep pos

/-- A root has half as many bits. -/
lemma sqrt_lt_two_pow (radicand : ℕ) : Nat.sqrt radicand < 2 ^ ((radicand.size + 1) / 2) := by
  rw [Nat.sqrt_lt, ← pow_add]
  calc radicand < 2 ^ radicand.size := Nat.lt_size_self radicand
    _ ≤ 2 ^ ((radicand.size + 1) / 2 + (radicand.size + 1) / 2) := Nat.pow_le_pow_right Nat.two_pos (by omega)

/-- The root of the whole part is the whole part of the root. -/
lemma sqrt_div_scale (pos : 0 < scale) : Nat.sqrt (value / scale) = Nat.sqrt (value * scale) / scale := by
  refine eq_of_forall_le_iff fun k => ?_
  calc k ≤ Nat.sqrt (value / scale) ↔ k * k * scale ≤ value := by
        rw [Nat.le_sqrt, Nat.le_div_iff_mul_le pos]
    _ ↔ k * scale * (k * scale) ≤ value * scale := by
        rw [show k * scale * (k * scale) = k * k * scale * scale by ring, Nat.mul_le_mul_right_iff pos]
    _ ↔ k ≤ Nat.sqrt (value * scale) / scale := by
        rw [Nat.le_div_iff_mul_le pos, Nat.le_sqrt]

/-- The root is whole exactly a little above the squares of the whole numbers. -/
lemma dvd_sqrt_iff (pos : 0 < scale) :
    scale ∣ Nat.sqrt (value * scale) ↔ ∃ k, scale * k ^ 2 ≤ value ∧ value ≤ scale * k ^ 2 + 2 * k := by
  constructor
  · rintro ⟨k, root⟩
    obtain ⟨low, high⟩ := Nat.eq_sqrt.mp root.symm
    refine ⟨k, ?_, ?_⟩
    · exact Nat.le_of_mul_le_mul_right (by nlinarith only [low]) pos
    · exact Nat.le_of_mul_le_mul_right (by nlinarith only [high]) pos
  · rintro ⟨k, low, high⟩
    refine ⟨k, (Nat.eq_sqrt.mpr ⟨?_, ?_⟩).symm⟩
    · nlinarith only [Nat.mul_le_mul_right scale low]
    · nlinarith only [Nat.mul_le_mul_right scale high]

/-- The square of a number at its scale is a little above that of a whole number where the number is small or a little
above a whole one. -/
lemma exists_square_iff {x : ℕ} (pos : 0 < scale) :
    (∃ k, scale * k ^ 2 ≤ x * x / scale ∧ x * x / scale ≤ scale * k ^ 2 + 2 * k) ↔
      x * x < scale ∨ x % scale ≤ 1 := by
  have parts : scale * (x / scale) + x % scale = x := Nat.div_add_mod x scale
  constructor
  · rintro ⟨k, low, high⟩
    rw [Nat.le_div_iff_mul_le pos] at low
    rw [← Nat.lt_succ_iff, Nat.div_lt_iff_lt_mul pos] at high
    rcases Nat.eq_zero_or_pos k with rfl | whole
    · left
      simpa using high
    · right
      have below : scale * k ≤ x := by
        rw [← Nat.mul_self_le_mul_self_iff]
        linarith only [low]
      have above : x < scale * k + 2 := by
        by_contra far
        have square : (scale * k + 2) * (scale * k + 2) ≤ x * x := Nat.mul_self_le_mul_self (not_lt.mp far)
        nlinarith only [square, high, Nat.mul_le_mul_left scale whole]
      obtain ⟨r, rfl⟩ := Nat.exists_eq_add_of_le below
      rw [Nat.mul_add_mod]
      exact (Nat.mod_le _ _).trans (by omega)
  · rintro (small | near)
    · refine ⟨0, by simp, ?_⟩
      rw [Nat.div_eq_of_lt small]
      exact Nat.zero_le _
    · refine ⟨x / scale, ?_, ?_⟩
      · rw [Nat.le_div_iff_mul_le pos]
        nlinarith only [Nat.mul_self_le_mul_self (Nat.mul_div_le x scale)]
      · rw [← Nat.lt_succ_iff, Nat.div_lt_iff_lt_mul pos]
        have remainder : x % scale < scale := Nat.mod_lt x pos
        generalize x / scale = k at parts
        generalize x % scale = r at parts near remainder
        subst parts
        obtain rfl | rfl : r = 0 ∨ r = 1 := by omega
        · nlinarith only [pos, Nat.zero_le (scale * k)]
        · nlinarith only [remainder]

end IntegerRoot
