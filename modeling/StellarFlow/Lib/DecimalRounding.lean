import Mathlib.Algebra.Order.Round
import StellarFlow.Lib.Decimal

/-!
# Rounding of decimal numbers

What a rounding keeps. A number has so many digits when it is an integer with that many, times a power of ten; these are
the numbers that rounding to significant digits leaves as they are, and the ones it gives (`rounded_eq_self_iff`).
Multiplication by powers of ten commutes with it (`rounded_mul_zpow`).

A number that is rounded to significant digits and then to an integer is rounded twice. `halfEven_rounded_iff` says when
that is the same as once: the integer must have that many digits, and a half on which the number is rounded first must
go to the same side as the number.
-/

namespace Decimal
variable {prec : ℕ} {x y : ℚ} {n k : ℤ}

/-- The nearest integer is at most one half away, and an even one where it is one half. -/
lemma halfEven_spec (x : ℚ) :
    2 * |x - halfEven x| < 1 ∨ 2 * |x - halfEven x| = 1 ∧ halfEven x % 2 = 0 := by
  have parts : x = ⌊x⌋ + Int.fract x := (Int.floor_add_fract x).symm
  have nonneg := Int.fract_nonneg x
  have lt := Int.fract_lt_one x
  rw [halfEven]
  split
  case isTrue down =>
    have distance : |x - ⌊x⌋| = Int.fract x := by
      rw [Int.self_sub_floor, abs_of_nonneg nonneg]
    rw [distance]
    exact down
  case isFalse up =>
    push Not at up
    have distance : |x - (⌊x⌋ + 1 : ℤ)| = 1 - Int.fract x := by
      rw [abs_sub_comm, abs_of_nonneg] <;> push_cast <;> linarith only [parts, lt]
    rw [distance]
    rcases up.1.lt_or_eq with more | tie
    · left
      linarith only [more]
    · right
      have odd := up.2 tie.symm
      exact ⟨by linarith only [tie], by omega⟩

/-- There is one such integer. -/
lemma halfEven_eq_iff : halfEven x = n ↔ 2 * |x - n| < 1 ∨ 2 * |x - n| = 1 ∧ n % 2 = 0 := by
  constructor
  · rintro rfl
    exact halfEven_spec x
  · intro near
    have apart : |((halfEven x : ℤ) : ℚ) - n| ≤ |x - halfEven x| + |x - n| := by
      rw [abs_sub_comm x (halfEven x)]
      exact abs_sub_le _ _ _
    rw [← Int.cast_sub, ← Int.cast_abs] at apart
    rcases halfEven_spec x with close | ⟨tie, even⟩
    · have lt : |halfEven x - n| < 1 := by
        have : ((|halfEven x - n| : ℤ) : ℚ) < 1 := by rcases near with near | ⟨near, -⟩ <;> linarith
        exact_mod_cast this
      exact sub_eq_zero.mp (Int.abs_lt_one_iff.mp lt)
    · rcases near with near | ⟨near, even'⟩
      · have lt : |halfEven x - n| < 1 := by
          have : ((|halfEven x - n| : ℤ) : ℚ) < 1 := by linarith
          exact_mod_cast this
        exact sub_eq_zero.mp (Int.abs_lt_one_iff.mp lt)
      · -- two even numbers with one between them
        have le : |halfEven x - n| ≤ 1 := by
          have : ((|halfEven x - n| : ℤ) : ℚ) ≤ 1 := by linarith
          exact_mod_cast this
        rw [abs_le] at le
        omega

/-- At most so many digits. -/
def Fits (prec : ℕ) (x : ℚ) : Prop := ∃ m e : ℤ, x = m * 10 ^ e ∧ |m| < 10 ^ prec

/-- A power of ten has one digit. -/
lemma fits_of_le {m : ℤ} (digits : 0 < prec) (le : |m| ≤ 10 ^ prec) (e : ℤ) : Fits prec (m * 10 ^ e) := by
  rcases le.lt_or_eq with lt | eq
  · exact ⟨m, e, rfl, lt⟩
  · obtain ⟨p, rfl⟩ := Nat.exists_eq_succ_of_ne_zero digits.ne'
    have split : (10 : ℤ) ^ (p + 1) = 10 ^ p * 10 := pow_succ _ _
    have lt : (10 : ℤ) ^ p < 10 ^ (p + 1) := by
      rw [split]
      linarith only [show (0 : ℤ) < 10 ^ p by positivity]
    rcases abs_eq (by positivity) |>.mp eq with rfl | rfl
    · refine ⟨10 ^ p, e + 1, ?_, by rwa [abs_of_pos (by positivity)]⟩
      rw [split, zpow_add_one₀ (by norm_num)]
      push_cast
      ring
    · refine ⟨-10 ^ p, e + 1, ?_, by rwa [abs_neg, abs_of_pos (by positivity)]⟩
      rw [split, zpow_add_one₀ (by norm_num)]
      push_cast
      ring

/-- The last digit stands at or below an exponent where the value has no digit too many. -/
lemma lastExponent_le_iff (nonzero : x ≠ 0) {e : ℤ} : lastExponent prec x ≤ e ↔ |x| < 10 ^ (e + prec) := by
  have log : |x| < ((10 : ℕ) : ℚ) ^ (e + prec) ↔ Int.log 10 |x| < e + prec :=
    Int.lt_zpow_iff_log_lt (by decide) (abs_pos.mpr nonzero)
  rw [Nat.cast_ofNat] at log
  rw [log, lastExponent]
  omega

/-- A value is bounded by the place of its last digit. -/
lemma abs_lt_of_lastExponent_le {e : ℤ} (le : lastExponent prec x ≤ e) : |x| < 10 ^ (e + prec) := by
  rcases eq_or_ne x 0 with rfl | nonzero
  · rw [abs_zero]
    exact ten_zpow_pos _
  · exact (lastExponent_le_iff nonzero).mp le

/-- In units of its last digit a value has no more than the digits of the context. -/
lemma abs_div_lt (x : ℚ) : |x / 10 ^ lastExponent prec x| < 10 ^ prec := by
  rw [abs_div, abs_of_pos (ten_zpow_pos _), div_lt_iff₀ (ten_zpow_pos _), ← zpow_natCast, ← zpow_add₀ (by norm_num),
    add_comm]
  exact abs_lt_of_lastExponent_le le_rfl

/-- An integer bound stays one after rounding. -/
lemma abs_halfEven_le (bound : |x| ≤ n) : |halfEven x| ≤ n := by
  rw [abs_le] at bound ⊢
  exact ⟨le_halfEven_of_le (by exact_mod_cast bound.1), halfEven_le_of_le bound.2⟩

/-- A rounded value fits in the digits. -/
lemma fits_rounded (digits : 0 < prec) (x : ℚ) : Fits prec (rounded prec x) := by
  refine fits_of_le digits (abs_halfEven_le ?_) _
  exact_mod_cast (abs_div_lt x).le

/-- In units of its last digit a value that fits is an integer. -/
lemma halfEven_div_of_fits (fits : Fits prec x) :
    (halfEven (x / 10 ^ lastExponent prec x) : ℚ) = x / 10 ^ lastExponent prec x := by
  rcases eq_or_ne x 0 with rfl | nonzero
  · simp [halfEven]
  obtain ⟨m, e, rfl, digits⟩ := fits
  have le : lastExponent prec (m * 10 ^ e) ≤ e := by
    rw [lastExponent_le_iff nonzero, abs_mul, abs_of_pos (ten_zpow_pos e), zpow_add₀ (by norm_num), mul_comm,
      zpow_natCast]
    exact mul_lt_mul_of_pos_left (by exact_mod_cast digits) (ten_zpow_pos e)
  obtain ⟨j, exponent⟩ := Int.le.dest le
  have whole : (m * 10 ^ e : ℚ) / 10 ^ lastExponent prec (m * 10 ^ e : ℚ) = (m * 10 ^ j : ℤ) := by
    rw [div_eq_iff (ten_zpow_pos _).ne']
    push_cast
    rw [mul_assoc, ← zpow_natCast, ← zpow_add₀ (by norm_num), add_comm, exponent]
  rw [whole, halfEven_intCast]

/-- The numbers with so many digits stay as they are, and no others. -/
lemma rounded_eq_self_iff (digits : 0 < prec) : rounded prec x = x ↔ Fits prec x := by
  constructor
  · intro same
    rw [← same]
    exact fits_rounded digits x
  · intro fits
    rw [rounded, halfEven_div_of_fits fits, div_mul_cancel₀ _ (ten_zpow_pos _).ne']

/-- A power of ten moves the last digit. -/
lemma lastExponent_mul_zpow (nonzero : x ≠ 0) (j : ℤ) :
    lastExponent prec (x * 10 ^ j) = lastExponent prec x + j := by
  refine eq_of_forall_ge_iff fun e => ?_
  rw [lastExponent_le_iff (mul_ne_zero nonzero (ten_zpow_pos j).ne'), abs_mul, abs_of_pos (ten_zpow_pos j),
    ← lt_div_iff₀ (ten_zpow_pos j), ← zpow_sub₀ (by norm_num), show e + prec - j = e - j + prec by ring,
    ← lastExponent_le_iff nonzero]
  omega

/-- Rounding does not depend on the place of the point. -/
lemma rounded_mul_zpow (x : ℚ) (j : ℤ) : rounded prec (x * 10 ^ j) = rounded prec x * 10 ^ j := by
  rcases eq_or_ne x 0 with rfl | nonzero
  · simp [rounded, halfEven]
  · rw [rounded, rounded, lastExponent_mul_zpow nonzero, zpow_add₀ (by norm_num),
      mul_div_mul_right _ _ (ten_zpow_pos j).ne', mul_assoc]

/-- Rounding twice is rounding once. -/
lemma rounded_rounded (digits : 0 < prec) (x : ℚ) : rounded prec (rounded prec x) = rounded prec x :=
  (rounded_eq_self_iff digits).mpr (fits_rounded digits x)

/-- The digits of a large integer are followed by zeros. -/
lemma Fits.pow_dvd {d : ℕ} (fits : Fits prec n) (large : 10 ^ (prec + d) ≤ |n|) : 10 ^ (d + 1) ∣ n := by
  obtain ⟨m, e, eq, digits⟩ := fits
  have digits' : |(m : ℚ)| < 10 ^ prec := by exact_mod_cast digits
  have size : (10 ^ (prec + d) : ℚ) ≤ |(m : ℚ)| * 10 ^ e := by
    rw [← abs_of_pos (ten_zpow_pos e), ← abs_mul, ← eq]
    exact_mod_cast large
  have exponent : (d : ℤ) < e := by
    by_contra small
    have power : (10 : ℚ) ^ e ≤ 10 ^ d := by
      rw [← zpow_natCast]
      exact zpow_le_zpow_right₀ (by norm_num) (not_lt.mp small)
    have upper : |(m : ℚ)| * 10 ^ e < 10 ^ prec * 10 ^ d :=
      mul_lt_mul digits' power (ten_zpow_pos e) (by positivity)
    rw [← pow_add] at upper
    exact absurd size (not_le.mpr upper)
  obtain ⟨i, rfl⟩ := Int.le.dest (Int.add_one_le_of_lt exponent)
  refine ⟨m * 10 ^ i, ?_⟩
  have : (n : ℚ) = (10 ^ (d + 1) * (m * 10 ^ i) : ℤ) := by
    rw [eq, zpow_add₀ (by norm_num), zpow_add_one₀ (by norm_num), zpow_natCast, zpow_natCast]
    push_cast
    ring
  exact_mod_cast this

section Twice

/-- A half on which the number is rounded: it is within half a unit of the last digit, or at that distance where
the digit before is even. -/
def NearHalf (prec : ℕ) (y : ℚ) (k : ℤ) : Prop :=
  10 ^ lastExponent prec y < (1 : ℚ) ∧
    (2 * |y - (k + 1 / 2)| < 10 ^ lastExponent prec y ∨
      2 * |y - (k + 1 / 2)| = 10 ^ lastExponent prec y ∧ 10 ^ lastExponent prec y < (1 / 10 : ℚ))

/-- A half is no integer. -/
lemma half_ne_intCast (k n : ℤ) : (k + 1 / 2 : ℚ) ≠ n := by
  intro eq
  have double : (2 * k + 1 : ℤ) = 2 * n := by
    have : ((2 * k + 1 : ℤ) : ℚ) = ((2 * n : ℤ) : ℚ) := by
      push_cast
      linarith only [eq]
    exact_mod_cast this
  omega

/-- With digits behind the point the unit is a power of a tenth, and a half is an integral multiple of it. -/
lemma exists_half_eq (fraction : lastExponent prec y < 0) : ∃ j : ℕ,
    (10 ^ lastExponent prec y : ℚ) = 1 / (10 * 10 ^ j) ∧
      ∀ k : ℤ, (k + 1 / 2 : ℚ) = ((2 * k + 1) * 5 * 10 ^ j : ℤ) * 10 ^ lastExponent prec y := by
  obtain ⟨j, exponent⟩ : ∃ j : ℕ, lastExponent prec y = -(j + 1) := ⟨(-lastExponent prec y - 1).toNat, by omega⟩
  have unit : (10 ^ lastExponent prec y : ℚ) = 1 / (10 * 10 ^ j) := by
    rw [exponent, zpow_neg, zpow_add_one₀ (by norm_num), zpow_natCast, one_div, mul_comm]
  refine ⟨j, unit, fun k => ?_⟩
  rw [unit]
  push_cast
  field_simp
  ring

/-- From a unit on, rounding gives an integer. -/
lemma rounded_eq_intCast (whole : 0 ≤ lastExponent prec y) : ∃ n : ℤ, rounded prec y = n := by
  obtain ⟨j, exponent⟩ := Int.eq_ofNat_of_zero_le whole
  refine ⟨halfEven (y / 10 ^ lastExponent prec y) * 10 ^ j, ?_⟩
  rw [rounded, exponent]
  push_cast
  rfl

/-- A value is rounded to a half just when it is near it. -/
lemma rounded_eq_half_iff : rounded prec y = k + 1 / 2 ↔ NearHalf prec y k := by
  have pos := ten_zpow_pos (lastExponent prec y)
  rcases le_or_gt 0 (lastExponent prec y) with whole | fraction
  · have one : (1 : ℚ) ≤ 10 ^ lastExponent prec y := one_le_zpow₀ (by norm_num) whole
    obtain ⟨n, eq⟩ := rounded_eq_intCast whole
    refine iff_of_false ?_ fun near => absurd near.1 (not_lt.mpr one)
    rw [eq]
    exact (half_ne_intCast k n).symm
  · obtain ⟨j, unit, halves⟩ := exists_half_eq fraction
    have half := halves k
    have small : (10 ^ lastExponent prec y : ℚ) < 1 := zpow_lt_one_of_neg₀ (by norm_num) fraction
    -- the half is an even multiple of the unit from the second place on
    have even : ((2 * k + 1) * 5 * 10 ^ j : ℤ) % 2 = 0 ↔ 10 ^ lastExponent prec y < (1 / 10 : ℚ) := by
      rw [unit]
      cases j with
      | zero =>
        have odd : ((2 * k + 1) * 5 * 10 ^ 0 : ℤ) % 2 ≠ 0 := by
          rw [pow_zero]
          omega
        exact iff_of_false odd (by norm_num)
      | succ j =>
        have double : ((2 * k + 1) * 5 * 10 ^ (j + 1) : ℤ) = 2 * ((2 * k + 1) * 5 * 10 ^ j * 5) := by ring
        refine iff_of_true (by rw [double, Int.mul_emod_right]) ?_
        have power : (1 : ℚ) ≤ 10 ^ j := one_le_pow₀ (by norm_num)
        rw [pow_succ]
        exact one_div_lt_one_div_of_lt (by norm_num) (by linarith only [power])
    have distance : |y / 10 ^ lastExponent prec y - ((2 * k + 1) * 5 * 10 ^ j : ℤ)| =
        |y - (k + 1 / 2)| / 10 ^ lastExponent prec y := by
      rw [half, ← abs_of_pos pos, ← abs_div, abs_of_pos pos, sub_div, mul_div_cancel_right₀ _ pos.ne']
    calc rounded prec y = k + 1 / 2 ↔ halfEven (y / 10 ^ lastExponent prec y) = (2 * k + 1) * 5 * 10 ^ j := by
          rw [half, rounded, mul_left_inj' pos.ne', Int.cast_inj]
      _ ↔ NearHalf prec y k := by
          rw [halfEven_eq_iff, distance, even, NearHalf, and_iff_right small, ← mul_div_assoc, div_lt_one pos,
            div_eq_one_iff_eq pos.ne']

/-- Between the halves around an integer a number is rounded to it. -/
lemma halfEven_eq_of_between (below : (n - 1 / 2 : ℚ) < x) (above : x < n + 1 / 2) : halfEven x = n := by
  refine halfEven_eq_iff.mpr (.inl ?_)
  have distance : |x - n| < 1 / 2 := abs_lt.mpr ⟨by linarith only [below], by linarith only [above]⟩
  linarith only [distance]

/-- Rounding to significant digits does not pass a multiple of the unit. -/
lemma rounded_le_of_le {c : ℤ} (le : y ≤ c * 10 ^ lastExponent prec y) :
    rounded prec y ≤ c * 10 ^ lastExponent prec y := by
  have pos := ten_zpow_pos (lastExponent prec y)
  exact mul_le_mul_of_nonneg_right (Int.cast_le.mpr (halfEven_le_of_le ((div_le_iff₀ pos).mpr le))) pos.le

/-- A bound in units of the last digit stays one after rounding. -/
lemma le_rounded_of_le {c : ℤ} (le : c * 10 ^ lastExponent prec y ≤ y) :
    c * 10 ^ lastExponent prec y ≤ rounded prec y := by
  have pos := ten_zpow_pos (lastExponent prec y)
  exact mul_le_mul_of_nonneg_right (Int.cast_le.mpr (le_halfEven_of_le ((le_div_iff₀ pos).mpr le))) pos.le

/-- Rounding to digits behind the point and then to an integer gives the nearest integer, unless the number is on a half
in between. -/
lemma halfEven_rounded_of_no_half (fraction : lastExponent prec y < 0) (none_ : ∀ k : ℤ, rounded prec y ≠ k + 1 / 2) :
    halfEven (rounded prec y) = halfEven y := by
  obtain ⟨j, -, half⟩ := exists_half_eq fraction
  generalize rounding : halfEven (rounded prec y) = n
  have near : 2 * |rounded prec y - n| < 1 := by
    rcases halfEven_eq_iff.mp rounding with near | ⟨tie, -⟩
    · exact near
    · have distance : |rounded prec y - n| = 1 / 2 := by linarith only [tie]
      rcases (abs_eq (by norm_num)).mp distance with up | down
      · exact absurd (by linarith only [up]) (none_ n)
      · exact absurd (by push_cast; linarith only [down]) (none_ (n - 1))
  have close := abs_lt.mp (show |rounded prec y - n| < 1 / 2 by linarith only [near])
  have above : y < n + 1 / 2 := by
    by_contra beyond
    have passed := le_rounded_of_le (c := (2 * n + 1) * 5 * 10 ^ j) ((half n).symm.le.trans (not_lt.mp beyond))
    rw [← half n] at passed
    linarith only [passed, close.2]
  have below : (n - 1 / 2 : ℚ) < y := by
    have previous : (n - 1 / 2 : ℚ) = ((n - 1 : ℤ) + 1 / 2 : ℚ) := by
      push_cast
      ring
    by_contra beyond
    rw [previous] at beyond
    have passed := rounded_le_of_le (c := (2 * (n - 1) + 1) * 5 * 10 ^ j) ((not_lt.mp beyond).trans (half (n - 1)).le)
    rw [← half (n - 1), ← previous] at passed
    linarith only [passed, close.1]
  exact (halfEven_eq_of_between below above).symm

/-- An integer of few digits fits. -/
lemma fits_intCast {m : ℤ} (digits : 0 < prec) (le : |m| ≤ 10 ^ prec) : Fits prec m := by
  simpa using fits_of_le digits le 0

/-- An integer with so many digits that is nearest to a number of more is what the number is rounded to. -/
lemma rounded_eq_of_fits (digits : 0 < prec) (whole : 0 ≤ lastExponent prec y) (fits : Fits prec (halfEven y)) :
    rounded prec y = halfEven y := by
  obtain ⟨i, exponent⟩ := Int.eq_ofNat_of_zero_le whole
  cases i with
  | zero => simp [rounded, exponent]
  | succ i =>
    -- the integer has as many digits as the number
    have long : (10 ^ (i + prec) : ℚ) ≤ |y| := by
      by_contra short
      have nonzero : y ≠ 0 := by
        rintro rfl
        rw [lastExponent, abs_zero, Int.log_zero_right] at exponent
        push_cast at exponent
        omega
      have last : lastExponent prec y ≤ i := (lastExponent_le_iff nonzero).mpr (by exact_mod_cast not_le.mp short)
      rw [exponent] at last
      push_cast at last
      omega
    have long' : (10 ^ (i + prec) : ℤ) ≤ |halfEven y| := by
      rw [le_abs] at long ⊢
      rcases long with up | down
      · exact .inl (le_halfEven_of_le (by exact_mod_cast up))
      · right
        have : halfEven y ≤ -10 ^ (i + prec) := halfEven_le_of_le (by push_cast; linarith only [down])
        linarith only [this]
    have last : lastExponent prec y ≤ lastExponent prec (halfEven y : ℚ) := by
      by_contra fewer
      have lt : |(halfEven y : ℚ)| < 10 ^ ((i : ℤ) + prec) := abs_lt_of_lastExponent_le (by
        rw [exponent] at fewer
        push_cast at fewer
        omega)
      have lt' : |halfEven y| < 10 ^ (i + prec) := by exact_mod_cast lt
      exact absurd long' (not_le.mpr lt')
    obtain ⟨d, shift⟩ := Int.le.dest last
    have pos := ten_zpow_pos (lastExponent prec y)
    have multiple : (halfEven y : ℚ) / 10 ^ lastExponent prec y =
        (halfEven (halfEven y / 10 ^ lastExponent prec (halfEven y : ℚ)) * 10 ^ d : ℤ) := by
      push_cast
      rw [halfEven_div_of_fits fits, ← shift, zpow_add₀ (by norm_num), zpow_natCast]
      field_simp
    have unit : (10 : ℚ) ≤ 10 ^ lastExponent prec y := by
      rw [exponent, zpow_natCast]
      exact le_self_pow₀ (by norm_num) (Nat.succ_ne_zero i)
    -- the number is nearer to this multiple than half a unit
    have nearest : halfEven (y / 10 ^ lastExponent prec y) =
        halfEven (halfEven y / 10 ^ lastExponent prec (halfEven y : ℚ)) * 10 ^ d := by
      refine halfEven_eq_iff.mpr (.inl ?_)
      rw [← multiple, ← sub_div, abs_div, abs_of_pos pos, ← mul_div_assoc, div_lt_one pos]
      rcases halfEven_spec y with near | ⟨near, -⟩ <;> linarith only [near, unit]
    rw [rounded, nearest, ← multiple, div_mul_cancel₀ _ pos.ne']

/-- Rounding twice is rounding once: the integer has so many digits, and the half that comes in between, if any, is
rounded like the number. -/
theorem halfEven_rounded_iff (digits : 0 < prec) : halfEven (rounded prec y) = halfEven y ↔
    Fits prec (halfEven y) ∧ ∀ k : ℤ, NearHalf prec y k → halfEven (k + 1 / 2) = halfEven y := by
  rcases le_or_gt 0 (lastExponent prec y) with whole | fraction
  · have one : (1 : ℚ) ≤ 10 ^ lastExponent prec y := one_le_zpow₀ (by norm_num) whole
    obtain ⟨n, integral⟩ := rounded_eq_intCast whole
    rw [and_iff_left fun k near => absurd near.1 (not_lt.mpr one)]
    constructor
    · intro same
      rw [← same, integral, halfEven_intCast, ← integral]
      exact fits_rounded digits y
    · intro fits
      rw [rounded_eq_of_fits digits whole fits, halfEven_intCast]
  · have small : Fits prec (halfEven y) := by
      obtain ⟨p, rfl⟩ := Nat.exists_eq_succ_of_ne_zero digits.ne'
      have below : |y| < 10 ^ ((-1 : ℤ) + (p + 1 : ℕ)) := abs_lt_of_lastExponent_le (Int.le_sub_one_of_lt fraction)
      have below' : |y| ≤ (10 ^ p : ℤ) := by
        rw [show (-1 : ℤ) + (p + 1 : ℕ) = p by push_cast; ring, zpow_natCast] at below
        exact_mod_cast below.le
      refine fits_intCast digits ((abs_halfEven_le below').trans ?_)
      exact pow_le_pow_right₀ (by norm_num) (Nat.le_succ p)
    rw [and_iff_right small]
    constructor
    · intro same k near
      rw [← rounded_eq_half_iff.mpr near, same]
    · intro agree
      by_cases half : ∃ k : ℤ, rounded prec y = k + 1 / 2
      · obtain ⟨k, eq⟩ := half
        rw [eq]
        exact agree k (rounded_eq_half_iff.mp eq)
      · push Not at half
        exact halfEven_rounded_of_no_half fraction half

end Twice

end Decimal
