import Mathlib.Algebra.Order.Field.Rat
import Mathlib.Data.List.DropRight
import Mathlib.Tactic.FieldSimp
import Mathlib.Tactic.Ring
import StellarFlow.Lib.IsoDate

/-!
# Decimal literals

Texts such as `-12.50` and `1.5e-7`, and their values. A text is scanned from the left; what is scanned is what is
written (`scanMantissa_text`, `scanExponent_iff`).

An integer number of units of `10 ^ -scale` has a shortest text without an exponent (`shortest`), which depends on its
value only (`shortest_congr`).
-/

namespace Scientific

/-- `e` or `E`, a sign if there is one, and digits. -/
structure Exponent where
  letter : Char
  sign : Option Char
  digits : List Char
  isLetter : letter = 'e' ∨ letter = 'E'
  isSign : ∀ c ∈ sign, c = '+' ∨ c = '-'
  isDigits : digits ≠ [] ∧ ∀ c ∈ digits, c.isDigit = true

/-- A sign if there is one, digits, and digits after a point if there is one. -/
structure Mantissa where
  negative : Bool
  whole : List Char
  fraction : List Char
  isWhole : whole ≠ [] ∧ ∀ c ∈ whole, c.isDigit = true
  isFraction : ∀ c ∈ fraction, c.isDigit = true

structure Literal where
  mantissa : Mantissa
  exponent : Option Exponent

def Exponent.text (e : Exponent) : List Char := e.letter :: (e.sign.toList ++ e.digits)

def Exponent.value (e : Exponent) : ℤ :=
  if e.sign = some '-' then -Nat.ofDigitChars 10 e.digits 0 else Nat.ofDigitChars 10 e.digits 0

def Mantissa.text (m : Mantissa) : List Char :=
  (if m.negative then ['-'] else []) ++ (m.whole ++ if m.fraction = [] then [] else '.' :: m.fraction)

/-- The number that all digits make, with the sign. -/
def Mantissa.units (m : Mantissa) : ℤ :=
  (if m.negative then -1 else 1) * Nat.ofDigitChars 10 (m.whole ++ m.fraction) 0

def Mantissa.value (m : Mantissa) : ℚ := m.units / 10 ^ m.fraction.length

def Literal.text (l : Literal) : List Char := l.mantissa.text ++ (l.exponent.map Exponent.text).getD []

def Literal.value (l : Literal) : ℚ := l.mantissa.value * 10 ^ (l.exponent.map Exponent.value).getD 0

/-- The digits at the front of a text, with the fraction if there is one, and the rest. -/
def scanDigits (negative : Bool) (cs : List Char) : Option (Mantissa × List Char) :=
  let after := cs.dropWhile Char.isDigit
  if some : cs.takeWhile Char.isDigit ≠ [] then
    if after.head? = '.' ∧ after.tail.takeWhile Char.isDigit ≠ [] then
      .some (⟨negative, cs.takeWhile Char.isDigit, after.tail.takeWhile Char.isDigit,
        ⟨some, fun _ => List.mem_takeWhile_imp⟩, fun _ => List.mem_takeWhile_imp⟩, after.tail.dropWhile Char.isDigit)
    else
      .some (⟨negative, cs.takeWhile Char.isDigit, [], ⟨some, fun _ => List.mem_takeWhile_imp⟩,
        fun _ mem => absurd mem List.not_mem_nil⟩, after)
  else none

/-- The mantissa at the front of a text, and the rest. -/
def scanMantissa (cs : List Char) : Option (Mantissa × List Char) :=
  if cs.head? = '-' then scanDigits true cs.tail else scanDigits false cs

def makeExponent (letter : Char) (sign : Option Char) (isSign : ∀ c ∈ sign, c = '+' ∨ c = '-') (digits : List Char) :
    Option Exponent :=
  if is : (letter = 'e' ∨ letter = 'E') ∧ digits ≠ [] ∧ digits.all Char.isDigit = true then
    some ⟨letter, sign, digits, is.1, isSign, is.2.1, List.all_eq_true.1 is.2.2⟩
  else none

/-- The exponent that a text is. -/
def scanExponent : List Char → Option Exponent
  | [] => none
  | letter :: cs =>
    if sign : cs.head? = some '+' ∨ cs.head? = some '-' then
      makeExponent letter cs.head? (fun _ head =>
        sign.imp (fun is => Option.mem_unique head is) fun is => Option.mem_unique head is) cs.tail
    else makeExponent letter none (fun _ mem => absurd mem (Option.not_mem_none _)) cs

variable {cs rest : List Char} {m : Mantissa} {e : Exponent}

/-- Digits before something else. -/
lemma span_digits {ds : List Char} (digits : ∀ c ∈ ds, c.isDigit = true)
    (stops : ∀ c ∈ rest.head?, c.isDigit = false) :
    (ds ++ rest).takeWhile Char.isDigit = ds ∧ (ds ++ rest).dropWhile Char.isDigit = rest := by
  have none : rest.takeWhile Char.isDigit = [] ∧ rest.dropWhile Char.isDigit = rest := by
    cases rest with
    | nil => exact ⟨rfl, rfl⟩
    | cons c rest =>
      have other : ¬c.isDigit = true := by simp [stops c rfl]
      exact ⟨List.takeWhile_cons_of_neg other, List.dropWhile_cons_of_neg other⟩
  rw [List.takeWhile_append_of_pos digits, List.dropWhile_append_of_pos digits, none.1, none.2, List.append_nil]
  exact ⟨rfl, rfl⟩

/-- A mantissa is scanned, if the rest goes on with neither a digit nor a point. -/
theorem scanMantissa_text (m : Mantissa) (stops : ∀ c ∈ rest.head?, c.isDigit = false ∧ c ≠ '.') :
    scanMantissa (m.text ++ rest) = some (m, rest) := by
  obtain ⟨negative, whole, fraction, ⟨some, isWhole⟩, isFraction⟩ := m
  have noDigit : ∀ c ∈ rest.head?, c.isDigit = false := fun c head => (stops c head).1
  have scanned : scanDigits negative (whole ++ ((if fraction = [] then [] else '.' :: fraction) ++ rest)) =
      .some (⟨negative, whole, fraction, ⟨some, isWhole⟩, isFraction⟩, rest) := by
    cases fraction with
    | nil =>
      obtain ⟨taken, dropped⟩ := span_digits isWhole noDigit
      have noPoint : ¬(rest.head? = '.' ∧ rest.tail.takeWhile Char.isDigit ≠ []) :=
        fun found => (stops '.' found.1).2 rfl
      simp only [if_true, List.nil_append, scanDigits, taken, dropped, dif_pos some, if_neg noPoint]
    | cons f fs =>
      have point : ∀ c ∈ ('.' :: (f :: fs ++ rest)).head?, c.isDigit = false := by simp
      obtain ⟨taken, dropped⟩ := span_digits isWhole point
      obtain ⟨taken', dropped'⟩ := span_digits isFraction noDigit
      have shown : ((if f :: fs = [] then [] else '.' :: f :: fs) ++ rest) = '.' :: (f :: fs ++ rest) := rfl
      have more : ('.' :: (f :: fs ++ rest)).head? = '.' ∧ f :: fs ≠ [] := ⟨rfl, List.cons_ne_nil _ _⟩
      simp only [shown, scanDigits, taken, dropped, List.tail_cons, taken', dropped', dif_pos some, if_pos more]
  cases negative with
  | true =>
    rw [Mantissa.text, scanMantissa, if_pos rfl]
    simpa using scanned
  | false =>
    obtain ⟨d, ds, rfl⟩ := List.exists_cons_of_ne_nil some
    have unsigned : ¬(Option.some d = Option.some '-') := by
      rintro ⟨⟩
      exact absurd (isWhole _ (List.mem_cons_self ..)) (by decide)
    rw [Mantissa.text, scanMantissa, if_neg (by exact unsigned)]
    simpa using scanned

/-- A mantissa is scanned to its end. -/
lemma scanMantissa_alone (m : Mantissa) : scanMantissa m.text = some (m, []) := by
  have stops : ∀ c ∈ ([] : List Char).head?, c.isDigit = false ∧ c ≠ '.' := by simp
  simpa using scanMantissa_text m stops

/-- What was scanned is the text up to the rest. -/
lemma text_of_scanDigits {negative : Bool} (found : scanDigits negative cs = some (m, rest)) :
    m.negative = negative ∧ cs = m.whole ++ ((if m.fraction = [] then [] else '.' :: m.fraction) ++ rest) := by
  have spanned := cs.takeWhile_append_dropWhile (p := Char.isDigit)
  rw [scanDigits] at found
  split at found
  · split at found
    · rename_i point
      cases found
      have after : cs.dropWhile Char.isDigit = '.' :: (cs.dropWhile Char.isDigit).tail :=
        (List.cons_head?_tail point.1).symm
      refine ⟨rfl, ?_⟩
      rw [if_neg point.2, List.cons_append, List.takeWhile_append_dropWhile, ← after, spanned]
    · cases found
      exact ⟨rfl, spanned.symm⟩
  · cases found

/-- What is scanned is the text. -/
lemma text_of_scanMantissa (found : scanMantissa cs = some (m, rest)) : cs = m.text ++ rest := by
  rw [scanMantissa] at found
  split at found
  · rename_i minus
    obtain ⟨sign, digits⟩ := text_of_scanDigits found
    rw [Mantissa.text, sign, if_pos rfl, List.append_assoc, List.append_assoc, ← digits]
    exact (List.cons_head?_tail minus).symm
  · obtain ⟨sign, digits⟩ := text_of_scanDigits found
    rw [Mantissa.text, sign, if_neg Bool.false_ne_true, List.nil_append, List.append_assoc, ← digits]

/-- An exponent has its letter, its sign and its digits. -/
lemma makeExponent_iff {letter : Char} {sign : Option Char} {isSign : ∀ c ∈ sign, c = '+' ∨ c = '-'}
    {digits : List Char} :
    makeExponent letter sign isSign digits = some e ↔ letter = e.letter ∧ sign = e.sign ∧ digits = e.digits := by
  rw [makeExponent]
  constructor
  · intro found
    split at found
    · cases found
      exact ⟨rfl, rfl, rfl⟩
    · cases found
  · rintro ⟨rfl, rfl, rfl⟩
    exact dif_pos ⟨e.isLetter, e.isDigits.1, List.all_eq_true.2 e.isDigits.2⟩

/-- A text is scanned to an exponent if and only if it is the text of it. -/
theorem scanExponent_iff : scanExponent cs = some e ↔ cs = e.text := by
  cases cs with
  | nil => exact iff_of_false (by simp [scanExponent]) (List.cons_ne_nil _ _).symm
  | cons letter cs =>
    rw [scanExponent, Exponent.text, List.cons.injEq]
    split
    · rename_i sign
      obtain ⟨c, head, is⟩ : ∃ c ∈ cs.head?, c = '+' ∨ c = '-' := by
        rcases sign with plus | minus
        · exact ⟨'+', plus, .inl rfl⟩
        · exact ⟨'-', minus, .inr rfl⟩
      obtain ⟨cs, rfl⟩ := List.head?_eq_some_iff.1 head
      rw [makeExponent_iff, List.head?_cons, List.tail_cons]
      refine and_congr_right fun _ => ⟨?_, fun same => ?_⟩
      · rintro ⟨signed, digits⟩
        rw [← signed, digits]
        rfl
      · cases signed : e.sign with
        | none =>
          rw [signed, Option.toList_none, List.nil_append] at same
          have digit := e.isDigits.2 c (same ▸ List.mem_cons_self ..)
          rcases is with rfl | rfl
          · exact absurd digit (by decide)
          · exact absurd digit (by decide)
        | some c' =>
          rw [signed, Option.toList_some, List.singleton_append, List.cons.injEq] at same
          exact ⟨congrArg some same.1, same.2⟩
    · rename_i unsigned
      rw [makeExponent_iff]
      refine and_congr_right fun _ => ⟨?_, fun same => ?_⟩
      · rintro ⟨signed, digits⟩
        rw [← signed, digits]
        rfl
      · cases signed : e.sign with
        | none =>
          rw [signed, Option.toList_none, List.nil_append] at same
          exact ⟨rfl, same⟩
        | some c =>
          rw [signed, Option.toList_some, List.singleton_append] at same
          have head : cs.head? = some c := same ▸ rfl
          exact absurd ((e.isSign c signed).imp (fun is => is ▸ head) fun is => is ▸ head) unsigned

/-- No mantissa goes on with an exponent. -/
lemma Exponent.stops (e : Exponent) : ∀ c ∈ e.text.head?, c.isDigit = false ∧ c ≠ '.' := by
  intro c head
  cases head
  rcases e.isLetter with letter | letter
  · rw [letter]
    decide
  · rw [letter]
    decide

/-- The literal that a text is. -/
def scanLiteral (cs : List Char) : Option Literal :=
  (scanMantissa cs).bind fun found =>
    if found.2 = [] then some ⟨found.1, none⟩ else (scanExponent found.2).map fun e => ⟨found.1, some e⟩

/-- A text is scanned to a literal if and only if it is the text of it. -/
theorem scanLiteral_iff {l : Literal} : scanLiteral cs = some l ↔ cs = l.text := by
  constructor
  · intro found
    obtain ⟨⟨m, rest⟩, scanned, found⟩ := Option.bind_eq_some_iff.1 found
    have written := text_of_scanMantissa scanned
    simp only at found
    split at found
    · rename_i stop
      cases found
      rw [written, stop]
      rfl
    · obtain ⟨e, read, rfl⟩ := Option.map_eq_some_iff.1 found
      rw [written, scanExponent_iff.1 read]
      rfl
  · rintro rfl
    obtain ⟨m, exponent⟩ := l
    cases exponent with
    | none =>
      rw [scanLiteral, Literal.text, Option.map_none, Option.getD_none, List.append_nil, scanMantissa_alone]
      rfl
    | some e =>
      rw [scanLiteral, Literal.text, Option.map_some, Option.getD_some, scanMantissa_text m e.stops, Option.bind_some,
        if_neg (show e.text ≠ [] from List.cons_ne_nil _ _), scanExponent_iff.2 rfl]
      rfl

/-- The value, from the number that all digits make. -/
lemma Literal.value_eq (l : Literal) : l.value =
    l.mantissa.units * 10 ^ ((l.exponent.map Exponent.value).getD 0 - l.mantissa.fraction.length) := by
  rw [Literal.value, Mantissa.value, zpow_sub₀ (by norm_num), zpow_natCast]
  ring

/-- Without an exponent the value is that of the mantissa. -/
lemma Mantissa.value_literal (m : Mantissa) : Literal.value ⟨m, none⟩ = m.value := by simp [Literal.value]

/-- The value counts units of the last digit. -/
lemma Mantissa.value_eq (m : Mantissa) : m.value = m.units * 10 ^ (-m.fraction.length : ℤ) := by
  rw [Mantissa.value, zpow_neg, zpow_natCast, div_eq_mul_inv]

/-- The shortest text of so many units of `10 ^ -scale`. -/
def shortest (units : ℤ) (scale : ℕ) : Mantissa where
  negative := units < 0
  whole := Nat.toDigits 10 (units.natAbs / 10 ^ scale)
  fraction := (IsoDate.pad scale (units.natAbs % 10 ^ scale)).rdropWhile (· = '0')
  isWhole := ⟨Nat.toDigits_ne_nil, fun _ => Nat.isDigit_of_mem_toDigits (by decide) (by decide)⟩
  isFraction := fun c mem =>
    List.all_eq_true.1 (IsoDate.isDigit_pad scale _) c ((List.rdropWhile_prefix ..).subset mem)

/-- Padding keeps the number. -/
lemma ofDigitChars_pad {w n : ℕ} (narrow : n < 10 ^ w) : Nat.ofDigitChars 10 (IsoDate.pad w n) 0 = n := by
  induction w generalizing n with
  | zero => exact (Nat.lt_one_iff.1 narrow).symm
  | succ w ih =>
    rw [IsoDate.pad, Nat.ofDigitChars_append, ih (Nat.div_lt_of_lt_mul (by rwa [← Nat.pow_succ'])),
      Nat.ofDigitChars_cons_digitChar_of_lt_ten (Nat.mod_lt n (by decide)), Nat.ofDigitChars_nil]
    exact Nat.div_add_mod n 10

/-- Padding a number times a power of ten writes zeros at the end. -/
lemma pad_append_zeros (w n k : ℕ) :
    IsoDate.pad (w + k) (n * 10 ^ k) = IsoDate.pad w n ++ List.replicate k '0' := by
  induction k with
  | zero => simp
  | succ k ih =>
    have shift : n * 10 ^ (k + 1) = n * 10 ^ k * 10 := by ring
    rw [← Nat.add_assoc, IsoDate.pad, shift, Nat.mul_div_cancel _ (by decide), Nat.mul_mod_left, ih,
      List.append_assoc, List.replicate_succ']
    rfl

/-- Zeros at the end are dropped. -/
lemma rdropWhile_append_zeros (ds : List Char) (k : ℕ) :
    (ds ++ List.replicate k '0').rdropWhile (· = '0') = ds.rdropWhile (· = '0') := by
  induction k with
  | zero => simp
  | succ k ih =>
    rw [List.replicate_succ', ← List.append_assoc, List.rdropWhile_concat_pos _ _ _ (by simp), ih]

/-- More places without more units change nothing. -/
lemma shortest_mul (units : ℤ) (scale k : ℕ) : shortest (units * 10 ^ k) (scale + k) = shortest units scale := by
  have size : (units * 10 ^ k).natAbs = units.natAbs * 10 ^ k := by simp [Int.natAbs_mul, Int.natAbs_pow]
  have pos : 0 < 10 ^ k := Nat.pos_of_ne_zero (by simp)
  have sign : units * 10 ^ k < 0 ↔ units < 0 := by
    rw [← not_le, ← not_le, mul_nonneg_iff_of_pos_right (by positivity)]
  simp only [shortest, size, sign, pow_add, Nat.mul_div_mul_right _ _ pos, Nat.mul_mod_mul_right, pad_append_zeros,
    rdropWhile_append_zeros]

/-- The shortest text depends on the value only. -/
theorem shortest_congr {units units' : ℤ} {scale scale' : ℕ}
    (same : (units : ℚ) / 10 ^ scale = units' / 10 ^ scale') : shortest units scale = shortest units' scale' := by
  wlog le : scale ≤ scale' generalizing units units' scale scale'
  · exact (this same.symm (Nat.le_of_not_le le)).symm
  obtain ⟨k, rfl⟩ := Nat.exists_eq_add_of_le le
  have scaled : (units' : ℚ) = (units * 10 ^ k : ℤ) := by
    rw [pow_add, div_eq_div_iff (by positivity) (by positivity)] at same
    push_cast
    have cancelled : (10 : ℚ) ^ scale * (units * 10 ^ k) = 10 ^ scale * units' := by linarith
    exact (mul_left_cancel₀ (by positivity) cancelled).symm
  rw [Int.cast_inj.1 scaled, shortest_mul]

/-- The shortest text is of the number itself. -/
theorem value_shortest (units : ℤ) (scale : ℕ) : (shortest units scale).value = units / 10 ^ scale := by
  have below := Nat.mod_lt units.natAbs (show 0 < 10 ^ scale by positivity)
  -- the zeros at the end
  obtain ⟨k, zeros⟩ : ∃ k, (IsoDate.pad scale (units.natAbs % 10 ^ scale)).rtakeWhile (· = '0') =
      List.replicate k '0' :=
    ⟨_, List.eq_replicate_of_mem fun c mem => by simpa using List.mem_rtakeWhile_imp mem⟩
  have padded : (shortest units scale).fraction ++ List.replicate k '0' =
      IsoDate.pad scale (units.natAbs % 10 ^ scale) := by
    rw [← zeros]
    exact List.rdropWhile_append_rtakeWhile ..
  have places : (shortest units scale).fraction.length + k = scale := by
    have length := congrArg List.length padded
    rwa [List.length_append, List.length_replicate, IsoDate.length_pad] at length
  have digits : Nat.ofDigitChars 10 ((shortest units scale).whole ++ (shortest units scale).fraction) 0 * 10 ^ k =
      units.natAbs := by
    have all : Nat.ofDigitChars 10 ((shortest units scale).whole ++ IsoDate.pad scale (units.natAbs % 10 ^ scale)) 0 =
        units.natAbs := by
      rw [Nat.ofDigitChars_append, Nat.ofDigitChars_eq_ofDigitChars_zero, ofDigitChars_pad below, IsoDate.length_pad]
      exact (congrArg (10 ^ scale * · + _) Nat.ofDigitChars_ten_toDigits).trans (Nat.div_add_mod ..)
    rw [← padded, ← List.append_assoc, Nat.ofDigitChars_append, Nat.ofDigitChars_replicate_zero, mul_comm] at all
    exact all
  have signed : (shortest units scale).units * 10 ^ k = units := by
    have cast : (Nat.ofDigitChars 10 ((shortest units scale).whole ++ (shortest units scale).fraction) 0 : ℤ) *
        10 ^ k = units.natAbs := by exact_mod_cast digits
    rw [Mantissa.units, mul_assoc, cast]
    by_cases negative : units < 0
    · rw [show (shortest units scale).negative = true from decide_eq_true negative, if_pos rfl]
      omega
    · rw [show (shortest units scale).negative = false from decide_eq_false negative, if_neg Bool.false_ne_true]
      omega
  have scaled : ((shortest units scale).units : ℚ) * 10 ^ k = units := by exact_mod_cast signed
  have power : (10 : ℚ) ^ scale = 10 ^ (shortest units scale).fraction.length * 10 ^ k := by rw [← pow_add, places]
  rw [Mantissa.value, power, ← scaled]
  exact (mul_div_mul_right _ _ (by positivity)).symm

/-- The digits of a number, filled up to one more than the places after the point. -/
lemma leftpad_toDigits (places n : ℕ) : (Nat.toDigits 10 n).leftpad (places + 1) '0' =
    Nat.toDigits 10 (n / 10 ^ places) ++ IsoDate.pad places (n % 10 ^ places) := by
  induction places generalizing n with
  | zero =>
    have some := Nat.length_toDigits_pos (b := 10) (n := n)
    rw [List.leftpad, Nat.zero_add, Nat.sub_eq_zero_of_le some, Nat.pow_zero, Nat.div_one]
    exact (List.append_nil _).symm
  | succ places ih =>
    have rest : n % 10 ^ (places + 1) / 10 = n / 10 % 10 ^ places := by
      rw [pow_succ', Nat.mod_mul_right_div_self]
    have last : n % 10 ^ (places + 1) % 10 = n % 10 := Nat.mod_mod_of_dvd _ (Dvd.intro_left _ (pow_succ _ _).symm)
    have more : (Nat.toDigits 10 n).leftpad (places + 2) '0' =
        (Nat.toDigits 10 (n / 10)).leftpad (places + 1) '0' ++ [Nat.digitChar (n % 10)] := by
      rw [Nat.toDigits_eq_if (by decide)]
      split
      · rename_i digit
        rw [Nat.div_eq_of_lt digit, Nat.mod_eq_of_lt digit, Nat.toDigits_zero]
        simp only [List.leftpad, List.length_singleton, Nat.add_sub_cancel, ← List.replicate_succ']
        rfl
      · rw [List.leftpad, List.leftpad, List.length_append, List.length_singleton, List.append_assoc,
          show places + 2 = places + 1 + 1 from rfl, Nat.add_sub_add_right]
    rw [more, ih, Nat.div_div_eq_div_mul, ← pow_succ', IsoDate.pad, rest, last, List.append_assoc]

end Scientific
