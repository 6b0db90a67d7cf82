import Mathlib.Algebra.Order.Field.Rat
import Mathlib.Algebra.Order.Ring.Rat
import Mathlib.Order.Bounds.Basic
import Mathlib.Tactic.Linarith
import Mathlib.Tactic.NormNum
import StellarFlow.Lib.While

/-!
# The capacity of a ring buffer

Model of `nextPowerOf2` in `src/queue/lockFreeRingBuffer.ts`, which both ring buffers have with the same text. The loop
doubles `power` with a shift of signed 32-bit integers: the powers of two up to `2 ^ 30` are followed by `-2 ^ 31` and
then by zeros for ever, so a capacity above `2 ^ 30` is never reached.
-/

namespace StellarFlow.Queue
open While

/-- `power <<= 1` on a JavaScript number: a shift of signed 32-bit integers. -/
def shiftLeftOne (power : ℤ) : ℤ := Int.bmod (2 * power) (2 ^ 32)

/-- The loop of `nextPowerOf2`; `none` when it takes more than `fuel` turns. -/
def nextPowerLoop (n : ℚ) : ℕ → ℤ → Option ℤ
  | 0, _ => none
  | fuel + 1, power =>
    if (power : ℚ) < n then nextPowerLoop n fuel (shiftLeftOne power) else some power

/-- `nextPowerOf2`; `none` when the loop never ends, which it does within 31 turns or not at all
(`nextPowerLoop_eq_none`). -/
def nextPowerOf2 (n : ℚ) : Option ℕ := (nextPowerLoop n 31 1).map Int.toNat

/-- Below 2^30 a shift doubles the power. -/
lemma shiftLeftOne_pow {k : ℕ} (lt : k < 30) : shiftLeftOne (2 ^ k) = 2 ^ (k + 1) := by
  have bound : (2 : ℤ) ^ (k + 1) ≤ 2 ^ 30 := pow_le_pow_right₀ (by decide) lt
  have pos : (0 : ℤ) < 2 ^ (k + 1) := by positivity
  rw [shiftLeftOne, ← pow_succ']
  apply Int.bmod_eq_of_le
  · norm_num
    omega
  · norm_num
    omega

/-- The values of `power`, turn by turn. -/
lemma iterate_shiftLeftOne (k : ℕ) :
    shiftLeftOne^[k] 1 = if k ≤ 30 then 2 ^ k else if k = 31 then -2 ^ 31 else 0 := by
  induction k with
  | zero => rfl
  | succ k ih =>
    rw [Function.iterate_succ_apply', ih]
    obtain lt | rfl | rfl | beyond : k < 30 ∨ k = 30 ∨ k = 31 ∨ 31 < k := by omega
    · rw [if_pos lt.le, if_pos (Nat.succ_le_of_lt lt), shiftLeftOne_pow lt]
    · decide
    · decide
    · rw [if_neg (by omega), if_neg (by omega), if_neg (by omega), if_neg (by omega)]
      decide

/-- Shifting one gives the powers up to 2^30. -/
lemma iterate_shiftLeftOne_of_le {k : ℕ} (le : k ≤ 30) : shiftLeftOne^[k] 1 = 2 ^ k := by
  rw [iterate_shiftLeftOne, if_pos le]

/-- Shifting one never gives more than 2^30. -/
lemma iterate_shiftLeftOne_le (k : ℕ) : shiftLeftOne^[k] 1 ≤ 2 ^ 30 := by
  rw [iterate_shiftLeftOne]
  split
  · rename_i le
    exact pow_le_pow_right₀ (by decide) le
  · split
    · decide
    · decide

section Loop
variable {n : ℚ} {turns : ℕ}

/-- The loop is the one of the library. -/
lemma nextPowerLoop_eq_run (n : ℚ) (turns : ℕ) (power : ℤ) :
    nextPowerLoop n turns power = run (fun power : ℤ => (power : ℚ) < n) shiftLeftOne turns power := by
  induction turns generalizing power with
  | zero => rfl
  | succ turns ih => rw [nextPowerLoop, run, ih]

/-- Above `2 ^ 30` the shift overflows, and the loop never ends. -/
lemma nextPowerLoop_eq_none (high : 2 ^ 30 < n) (turns : ℕ) : nextPowerLoop n turns 1 = none := by
  rw [nextPowerLoop_eq_run]
  refine run_eq_none_of_forall (fun k => ?_) turns
  have low : ((shiftLeftOne^[k] 1 : ℤ) : ℚ) ≤ 2 ^ 30 := by exact_mod_cast iterate_shiftLeftOne_le k
  exact lt_of_le_of_lt low high

/-- Up to there it ends in the turn after the least exponent whose power is at least `n`. -/
lemma nextPowerLoop_eq_some {k : ℕ} (le : k ≤ 30) (covers : n ≤ 2 ^ k) (least : ∀ m : ℕ, n ≤ 2 ^ m → k ≤ m)
    (enough : k < turns) : nextPowerLoop n turns 1 = some (2 ^ k) := by
  rw [nextPowerLoop_eq_run, run_eq_some_iff]
  refine ⟨k, enough, ⟨?_, fun j lt => ?_⟩, (iterate_shiftLeftOne_of_le le).symm⟩
  · rw [iterate_shiftLeftOne_of_le le]
    exact_mod_cast not_lt.2 covers
  · rw [iterate_shiftLeftOne_of_le (lt.le.trans le)]
    have below : ¬n ≤ 2 ^ j := fun covers => absurd (least j covers) (not_le.2 lt)
    exact_mod_cast not_le.1 below

end Loop

/-- There is a least power at or above the capacity. -/
lemma exists_least_exponent {n : ℚ} (high : n ≤ 2 ^ 30) :
    ∃ k : ℕ, k ≤ 30 ∧ n ≤ 2 ^ k ∧ ∀ m : ℕ, n ≤ 2 ^ m → k ≤ m := by
  have some_covers : ∃ k : ℕ, n ≤ 2 ^ k := ⟨30, high⟩
  exact ⟨Nat.find some_covers, Nat.find_min' some_covers high, Nat.find_spec some_covers,
    fun _ covers => Nat.find_min' some_covers covers⟩

/-- The least power at or above the capacity is found. -/
lemma nextPowerOf2_eq {n : ℚ} (high : n ≤ 2 ^ 30) :
    ∃ k : ℕ, nextPowerOf2 n = some (2 ^ k) ∧ n ≤ 2 ^ k ∧ ∀ m : ℕ, n ≤ 2 ^ m → k ≤ m := by
  obtain ⟨k, le, covers, least⟩ := exists_least_exponent high
  refine ⟨k, ?_, covers, least⟩
  rw [nextPowerOf2, nextPowerLoop_eq_some le covers least (Nat.lt_succ_of_le le), Option.map_some]
  norm_cast

/-- The loop ends, and with the least power of two that is at least `n`, exactly where `n` is at most `2 ^ 30`. -/
theorem nextPowerOf2_least_iff (n : ℕ) :
    (∃ turns power, nextPowerLoop n turns 1 = some power ∧
        IsLeast {q : ℤ | (∃ k : ℕ, q = 2 ^ k) ∧ (n : ℤ) ≤ q} power) ↔ n ≤ 2 ^ 30 := by
  constructor
  · rintro ⟨turns, power, ended, -⟩
    by_contra high
    have never : nextPowerLoop n turns 1 = none := nextPowerLoop_eq_none (by exact_mod_cast not_le.1 high) turns
    rw [never] at ended
    cases ended
  · intro le
    obtain ⟨k, bound, covers, least⟩ := exists_least_exponent (n := (n : ℚ)) (by exact_mod_cast le)
    refine ⟨31, 2 ^ k, nextPowerLoop_eq_some bound covers least (Nat.lt_succ_of_le bound), ⟨⟨k, rfl⟩, ?_⟩, ?_⟩
    · exact_mod_cast covers
    · rintro q ⟨⟨m, rfl⟩, covers'⟩
      exact pow_le_pow_right₀ (by decide) (least m (by exact_mod_cast covers'))

/-- The least capacity for which there is no array. -/
theorem nextPowerOf2_above_never_ends :
    (2 ^ 30 + 1 : ℕ) ≤ 2 ^ 32 - 1 ∧ ∀ turns, nextPowerLoop (2 ^ 30 + 1 : ℕ) turns 1 = none := by
  refine ⟨by norm_num, fun turns => nextPowerLoop_eq_none ?_ turns⟩
  norm_num

end StellarFlow.Queue
