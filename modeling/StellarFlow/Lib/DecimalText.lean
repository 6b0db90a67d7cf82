import Mathlib.Algebra.Ring.Nat
import StellarFlow.Lib.FixedWidth
import StellarFlow.Lib.IsoDate
import StellarFlow.Lib.PyValue

/-!
# Decimal texts

Python's `f"{n:0wd}"` and `int` of it. The text of a number that fits its width is its last digits, so such texts are
ordered as the numbers are and are read back.
-/

namespace DecimalText

/-- `f"{v:0wd}"`; with no width given, `w` is 0. -/
def format (w : ℕ) (v : ℤ) : List Char :=
  if v < 0 then '-' :: (Nat.toDigits 10 v.natAbs).leftpad (w - 1) '0' else (Nat.toDigits 10 v.natAbs).leftpad w '0'

variable {w n m : ℕ}

/-- Padding writes the digits of a numeral of fixed length. -/
lemma pad_eq_fixed (w n : ℕ) : IsoDate.pad w n = (Numeral.fixed 10 w n).map Nat.digitChar := by
  induction w generalizing n with
  | zero => rfl
  | succ w ih => rw [IsoDate.pad, Numeral.fixed, List.map_append, List.map_singleton, ih]

/-- Padded texts of one width are ordered as their numbers. -/
theorem pad_lt_pad (lt : n < m) (fits : m < 10 ^ w) : IsoDate.pad w n < IsoDate.pad w m := by
  rw [pad_eq_fixed, pad_eq_fixed]
  refine Numeral.map_fixed_lt ?_ lt fits
  intro x y less bound
  have all : ∀ y : Fin 10, ∀ x : Fin 10, x < y → Nat.digitChar x < Nat.digitChar y := by decide
  exact all ⟨y, bound⟩ ⟨x, less.trans bound⟩ less

/-- Zero is written as zeros. -/
lemma pad_zero (w : ℕ) : IsoDate.pad w 0 = List.replicate w '0' := by
  induction w with
  | zero => rfl
  | succ w ih =>
    rw [IsoDate.pad, ih, List.replicate_succ']
    rfl

/-- What `format` writes of a number that fits its width. -/
lemma leftpad_toDigits (pos : 0 < w) (fits : n < 10 ^ w) :
    (Nat.toDigits 10 n).leftpad w '0' = IsoDate.pad w n := by
  induction w generalizing n with
  | zero => exact absurd pos (Nat.lt_irrefl 0)
  | succ w ih =>
    rw [IsoDate.pad, Nat.toDigits_eq_if (by decide : 1 < 10)]
    split
    · rename_i digit
      rw [Nat.div_eq_of_lt digit, Nat.mod_eq_of_lt digit, pad_zero]
      rfl
    · rename_i more
      have fits' : n / 10 < 10 ^ w := by
        rw [Nat.pow_succ, Nat.mul_comm] at fits
        exact Nat.div_lt_of_lt_mul fits
      have wide : 0 < w := by
        refine Nat.pos_of_ne_zero fun zero => ?_
        rw [zero] at fits
        exact more fits
      rw [← ih wide fits', List.leftpad, List.leftpad, List.length_append, List.length_singleton, List.append_assoc]
      rw [Nat.add_sub_add_right]

/-- A number that fits is padded. -/
lemma format_eq_pad (pos : 0 < w) (fits : n < 10 ^ w) : format w n = IsoDate.pad w n := by
  have nonneg : ¬(n : ℤ) < 0 := Int.not_lt.2 (Int.natCast_nonneg n)
  rw [format, if_neg nonneg, Int.natAbs_natCast, leftpad_toDigits pos fits]

/-- Without a width, a number of exactly `w` digits. -/
lemma format_zero_eq_pad (low : 10 ^ w ≤ n) (fits : n < 10 ^ (w + 1)) : format 0 n = IsoDate.pad (w + 1) n := by
  have nonneg : ¬(n : ℤ) < 0 := Int.not_lt.2 (Int.natCast_nonneg n)
  have long : w + 1 ≤ (Nat.toDigits 10 n).length := by
    by_contra short
    rcases Nat.eq_zero_or_pos w with rfl | pos
    · have some := Nat.length_toDigits_pos (b := 10) (n := n)
      omega
    · have few : n < 10 ^ w := (Nat.length_toDigits_le_iff (by decide) pos).1 (by omega)
      omega
  have same : (Nat.toDigits 10 n).leftpad (w + 1) '0' = Nat.toDigits 10 n := by
    rw [List.leftpad, Nat.sub_eq_zero_of_le long]
    rfl
  rw [format, if_neg nonneg, Int.natAbs_natCast, ← leftpad_toDigits (Nat.succ_pos w) fits, same, List.leftpad,
    Nat.zero_sub]
  rfl

/-- Decimal digits are hexadecimal ones. -/
lemma isHex_pad (w n : ℕ) : HexText.IsHex (IsoDate.pad w n) := by
  induction w generalizing n with
  | zero => exact fun _ mem => absurd mem List.not_mem_nil
  | succ w ih =>
    have last : ∀ d : Fin 10, Nat.digitChar d ∈ HexText.lowerDigits := by decide
    exact List.forall_mem_append.2 ⟨ih (n / 10), List.forall_mem_singleton.2 (last ⟨n % 10, Nat.mod_lt n (by decide)⟩)⟩

/-- No other character is written. -/
lemma not_mem_pad {c : Char} (other : c.isDigit = false) (w n : ℕ) : c ∉ IsoDate.pad w n := by
  intro mem
  have digit := List.all_eq_true.1 (IsoDate.isDigit_pad w n) c mem
  exact absurd (other.symm.trans digit) (by decide)

/-- `int` reads a padded text back. -/
theorem intOfText_pad (pos : 0 < w) (short : w ≤ 4300) (fits : n < 10 ^ w) :
    Py.intOfText (String.ofList (IsoDate.pad w n)) = some (n : ℤ) := by
  have first : ∀ c, c.isDigit = false → (IsoDate.pad w n).head? ≠ some c := fun c other found =>
    not_mem_pad other w n (List.mem_of_mem_head? (found ▸ rfl))
  have one : (IsoDate.pad w n).splitOn '_' = [IsoDate.pad w n] :=
    List.splitOn_eq_singleton (not_mem_pad (by decide) w n)
  have nonempty : (IsoDate.pad w n).isEmpty = false := by
    rw [List.isEmpty_eq_false_iff, ← List.length_pos_iff_ne_nil, IsoDate.length_pad]
    exact pos
  rw [Py.intOfText, String.toList_ofList, HexText.strip_hex (isHex_pad w n)]
  rw [if_neg (first '-' (by decide)), if_neg (first '+' (by decide)), Py.readDecimal]
  simp only [one, List.all_cons, List.all_nil, nonempty, IsoDate.isDigit_pad, List.flatten_cons, List.flatten_nil,
    List.append_nil, IsoDate.length_pad, Bool.not_false, Bool.and_self, true_and, short, if_true,
    IsoDate.value_pad fits]
  rfl

end DecimalText
