import Mathlib.Algebra.Ring.Nat
import Mathlib.Data.List.Basic

/-!
# Numerals of a fixed width

The last `w` digits of a number in base `b`, most significant digit first, and the order of their texts: where the
digits are written by characters in ascending order, the texts of two numbers that fit are ordered as the numbers are.
The lemmas on the lexicographic order of lists are for any alphabet.
-/

namespace Numeral

/-- The last `w` digits of `n`. -/
def fixed (b : ℕ) : ℕ → ℕ → List ℕ
  | 0, _ => []
  | w + 1, n => fixed b w (n / b) ++ [n % b]

variable {b w n m : ℕ}

/-- A numeral of fixed width has that many digits. -/
@[simp] lemma length_fixed : ∀ w n, (fixed b w n).length = w
  | 0, _ => rfl
  | w + 1, n => by rw [fixed, List.length_append, length_fixed w, List.length_singleton]

section Order
variable {α : Type} [LT α] {xs ys us vs : List α}

/-- Lists of one length are ordered by the first difference, whatever follows. -/
lemma append_lt_append_of_lt (len : xs.length = ys.length) (lt : xs < ys) : xs ++ us < ys ++ vs := by
  induction xs generalizing ys with
  | nil =>
    rw [List.eq_nil_of_length_eq_zero len.symm] at lt
    cases lt
  | cons x xs ih =>
    cases ys with
    | nil => cases len
    | cons y ys =>
      rw [List.cons_append, List.cons_append, List.cons_lt_cons_iff]
      rcases List.cons_lt_cons_iff.1 lt with first | ⟨same, rest⟩
      · exact .inl first
      · exact .inr ⟨same, ih (Nat.succ.inj len) rest⟩

variable {f : ℕ → α}

/-- The texts of two numbers of one width are ordered as the numbers are, by induction on the width. -/
theorem map_fixed_lt (mono : ∀ x y, x < y → y < b → f x < f y) (lt : n < m) (fits : m < b ^ w) :
    (fixed b w n).map f < (fixed b w m).map f := by
  induction w generalizing n m with
  | zero =>
    rw [Nat.pow_zero, Nat.lt_one_iff] at fits
    exact absurd lt (fits ▸ Nat.not_lt_zero n)
  | succ w ih =>
    rw [Nat.pow_succ, Nat.mul_comm] at fits
    have base : 0 < b := Nat.pos_of_mul_pos_right (Nat.zero_lt_of_lt fits)
    rw [fixed, fixed, List.map_append, List.map_append]
    rcases Nat.lt_or_eq_of_le (Nat.div_le_div_right (Nat.le_of_lt lt)) with less | same
    · refine append_lt_append_of_lt ?_ (ih less (Nat.div_lt_of_lt_mul fits))
      rw [List.length_map, List.length_map, length_fixed, length_fixed]
    · rw [same]
      refine List.append_left_lt (List.cons_lt_cons_iff.2 (.inl (mono _ _ ?_ (Nat.mod_lt m base))))
      have before := Nat.div_add_mod n b
      have after := Nat.div_add_mod m b
      rw [same] at before
      omega

end Order

end Numeral
