import Mathlib.Algebra.Order.Group.Abs
import StellarFlow.Lib.HexText

/-!
# ISO dates

Time values of JavaScript, `toISOString`, and `Date.parse` of the texts that it writes. Years, months and days follow
the Gregorian calendar as ECMAScript computes it.

A layout is a sequence of separators and numbers of fixed width; what is written in a layout is read back
(`read_write`), and so is a date (`parse_toISOString`).
-/

namespace IsoDate

/-- A separator, or a number of fixed width. -/
inductive Piece where
  | separator (c : Char)
  | number (width : ℕ)

/-- The last decimal digits of a number. -/
def pad : ℕ → ℕ → List Char
  | 0, _ => []
  | width + 1, n => pad width (n / 10) ++ [Nat.digitChar (n % 10)]

def write : List Piece → List ℕ → List Char
  | .separator c :: layout, ns => c :: write layout ns
  | .number width :: layout, n :: ns => pad width n ++ write layout ns
  | _, _ => []

/-- The numbers in a text that has the layout. -/
def read : List Piece → List Char → Option (List ℕ)
  | [], cs => if cs = [] then some [] else none
  | .separator c :: layout, cs => if cs.head? = some c then read layout cs.tail else none
  | .number width :: layout, cs =>
    let ds := cs.take width
    if ds.length = width ∧ ds.all Char.isDigit = true then
      (read layout (cs.drop width)).map fun ns => Numeral.value 10 (ds.map fun d => d.toNat - 48) :: ns
    else none

/-- The numbers are as many as the layout has, and no wider. -/
def fits : List Piece → List ℕ → Prop
  | [], ns => ns = []
  | .separator _ :: layout, ns => fits layout ns
  | .number _ :: _, [] => False
  | .number width :: layout, n :: ns => n < 10 ^ width ∧ fits layout ns

/-- Padding gives the width. -/
lemma length_pad (width n : ℕ) : (pad width n).length = width := by
  induction width generalizing n with
  | zero => rfl
  | succ width ih => rw [pad, List.length_append, ih, List.length_singleton]

/-- A digit is written as its character. -/
lemma isDigit_digitChar {n : ℕ} (lt : n < 10) :
    (Nat.digitChar n).isDigit = true ∧ (Nat.digitChar n).toNat - 48 = n := by
  have all : ∀ n : Fin 10, (Nat.digitChar n).isDigit = true ∧ (Nat.digitChar n).toNat - 48 = n.val := by decide
  exact all ⟨n, lt⟩

/-- Only digits are written. -/
lemma isDigit_pad (width n : ℕ) : (pad width n).all Char.isDigit = true := by
  induction width generalizing n with
  | zero => rfl
  | succ width ih =>
    have last := (isDigit_digitChar (Nat.mod_lt n (by decide : 0 < 10))).1
    rw [pad, List.all_append, ih, List.all_cons, last]
    rfl

/-- Padding keeps the value of a number that fits. -/
lemma value_pad {width n : ℕ} (narrow : n < 10 ^ width) :
    Numeral.value 10 ((pad width n).map fun d => d.toNat - 48) = n := by
  induction width generalizing n with
  | zero => exact (Nat.lt_one_iff.1 narrow).symm
  | succ width ih =>
    have last := (isDigit_digitChar (Nat.mod_lt n (by decide : 0 < 10))).2
    rw [pad, List.map_append, List.map_singleton, Numeral.value_append_singleton, last,
      ih (Nat.div_lt_of_lt_mul (by rwa [← Nat.pow_succ']))]
    exact Nat.div_add_mod n 10

/-- What is written in a layout that fits is read back. -/
theorem read_write {layout : List Piece} {ns : List ℕ} (fit : fits layout ns) :
    read layout (write layout ns) = some ns := by
  induction layout generalizing ns with
  | nil =>
    rw [fits] at fit
    rw [fit]
    rfl
  | cons piece layout ih =>
    cases piece with
    | separator c =>
      rw [write, read]
      exact (if_pos rfl).trans (ih fit)
    | number width =>
      cases ns with
      | nil => exact absurd fit id
      | cons n ns =>
        obtain ⟨narrow, fit⟩ := fit
        have first : (pad width n ++ write layout ns).take width = pad width n :=
          List.take_left' (length_pad width n)
        have others : (pad width n ++ write layout ns).drop width = write layout ns :=
          List.drop_left' (length_pad width n)
        rw [write, read]
        simp only [first, others]
        rw [if_pos ⟨length_pad width n, isDigit_pad width n⟩, ih fit, Option.map_some, value_pad narrow]

/-- Milliseconds from the beginning of 1970, in the range of dates. -/
structure TimeValue where
  ms : ℤ
  bound : |ms| ≤ 8640000000000000
  deriving DecidableEq

/-- The time value, where it is one. -/
def timeValue (ms : ℤ) : Option TimeValue :=
  if bound : |ms| ≤ 8640000000000000 then some ⟨ms, bound⟩ else none

/-- The first day of a year. -/
def dayFromYear (y : ℤ) : ℤ := 365 * (y - 1970) + (y - 1969) / 4 - (y - 1901) / 100 + (y - 1601) / 400

def isLeap (y : ℤ) : Bool := y % 4 = 0 && (y % 100 ≠ 0 || y % 400 = 0)

/-- The year in which a day is. -/
def yearFromDay (d : ℤ) : ℤ :=
  let y := 1970 + d * 400 / 146097
  if d < dayFromYear y then y - 1 else if dayFromYear (y + 1) ≤ d then y + 1 else y

/-- The days of a year before a month, counted from 0. -/
def monthStart (leap : Bool) (month : ℕ) : ℕ :=
  [0, 31, 59, 90, 120, 151, 181, 212, 243, 273, 304, 334, 365].getD month 0 +
    if leap = true ∧ 2 ≤ month then 1 else 0

/-- The months that are over on a day of the year. -/
def monthOfDay (leap : Bool) (n : ℕ) : ℕ := (List.range 12).countP fun month => monthStart leap (month + 1) ≤ n

/-- What `toISOString` writes, with a year of so many digits. -/
def layout (digits : ℕ) : List Piece :=
  [.number digits, .separator '-', .number 2, .separator '-', .number 2, .separator 'T', .number 2, .separator ':',
    .number 2, .separator ':', .number 2, .separator '.', .number 3, .separator 'Z']

/-- The numbers of a date: year, month, day, hours, minutes, seconds, milliseconds. -/
def numbers (t : TimeValue) : List ℕ :=
  let day := t.ms / 86400000
  let time := (t.ms % 86400000).toNat
  let year := yearFromDay day
  let n := (day - dayFromYear year).toNat
  let month := monthOfDay (isLeap year) n
  [year.natAbs, month + 1, n - monthStart (isLeap year) month + 1, time / 3600000, time / 60000 % 60, time / 1000 % 60,
    time % 1000]

/-- `date.toISOString()`. -/
def toISOString (t : TimeValue) : String :=
  let year := yearFromDay (t.ms / 86400000)
  if 0 ≤ year ∧ year ≤ 9999 then String.ofList (write (layout 4) (numbers t))
  else String.ofList ((if year < 0 then '-' else '+') :: write (layout 6) (numbers t))

/-- The date of a year and six numbers that are in their bounds. -/
def makeDate (year : ℤ) : List ℕ → Option TimeValue
  | [month, day, hour, minute, second, ms] =>
    let leap := isLeap year
    if (1 ≤ month ∧ month ≤ 12) ∧ (1 ≤ day ∧ monthStart leap (month - 1) + day ≤ monthStart leap month) ∧
        hour < 24 ∧ minute < 60 ∧ second < 60 then
      timeValue ((dayFromYear year + monthStart leap (month - 1) + (day - 1)) * 86400000 + hour * 3600000 +
        minute * 60000 + second * 1000 + ms)
    else none
  | _ => none

/-- `Date.parse` of a text that `toISOString` writes. -/
def parse (text : String) : Option TimeValue :=
  let cs := text.toList
  if cs.head? = some '-' ∨ cs.head? = some '+' then
    match read (layout 6) cs.tail with
    | some (year :: ns) => makeDate (if cs.head? = some '-' then -year else year) ns
    | _ => none
  else
    match read (layout 4) cs with
    | some (year :: ns) => makeDate year ns
    | _ => none

/-- A year has 365 days, or 366 when it is leap. -/
lemma dayFromYear_succ (y : ℤ) : dayFromYear (y + 1) = dayFromYear y + if isLeap y then 366 else 365 := by
  rw [dayFromYear, dayFromYear, isLeap]
  split
  case isTrue leap =>
    simp only [Bool.and_eq_true, Bool.or_eq_true, decide_eq_true_iff] at leap
    omega
  case isFalse leap =>
    simp only [Bool.and_eq_true, Bool.or_eq_true, decide_eq_true_iff, not_and_or, not_or, ne_eq, not_not] at leap
    omega

/-- A day is in its year. -/
lemma yearFromDay_spec (d : ℤ) : dayFromYear (yearFromDay d) ≤ d ∧ d < dayFromYear (yearFromDay d + 1) := by
  rw [yearFromDay]
  split
  case isTrue early =>
    rw [sub_add_cancel]
    simp only [dayFromYear] at early ⊢
    omega
  case isFalse late =>
    split
    case isTrue passed =>
      simp only [dayFromYear] at passed ⊢
      omega
    case isFalse within => omega

/-- A day of the year is in its month. -/
lemma monthOfDay_spec (leap : Bool) {n : ℕ} (lt : n < if leap then 366 else 365) :
    monthOfDay leap n < 12 ∧ monthStart leap (monthOfDay leap n) ≤ n ∧ n < monthStart leap (monthOfDay leap n + 1) := by
  have common : ∀ n : Fin 365, monthOfDay false n < 12 ∧ monthStart false (monthOfDay false n) ≤ n ∧
      n < monthStart false (monthOfDay false n + 1) := by decide +kernel
  have long : ∀ n : Fin 366, monthOfDay true n < 12 ∧ monthStart true (monthOfDay true n) ≤ n ∧
      n < monthStart true (monthOfDay true n + 1) := by decide +kernel
  cases leap with
  | false => exact common ⟨n, lt⟩
  | true => exact long ⟨n, lt⟩

/-- The day of a date in its year. -/
lemma day_of_year (d : ℤ) : dayFromYear (yearFromDay d) + (d - dayFromYear (yearFromDay d)).toNat = d ∧
    (d - dayFromYear (yearFromDay d)).toNat < if isLeap (yearFromDay d) then 366 else 365 := by
  obtain ⟨begun, goes⟩ := yearFromDay_spec d
  rw [dayFromYear_succ] at goes
  refine ⟨by omega, ?_⟩
  split
  case isTrue leap =>
    rw [leap, if_pos rfl] at goes
    omega
  case isFalse common =>
    rw [if_neg common] at goes
    omega

/-- The years of time values have six digits. -/
lemma year_bound (t : TimeValue) : (yearFromDay (t.ms / 86400000)).natAbs < 10 ^ 6 := by
  obtain ⟨begun, goes⟩ := yearFromDay_spec (t.ms / 86400000)
  obtain ⟨low, high⟩ := abs_le.1 t.bound
  rw [dayFromYear] at begun goes
  omega

/-- No month is longer than 31 days. -/
lemma month_length (leap : Bool) (month : ℕ) (lt : month < 12) :
    monthStart leap (month + 1) ≤ monthStart leap month + 31 := by
  have all : ∀ leap : Bool, ∀ month : Fin 12, monthStart leap (month + 1) ≤ monthStart leap month + 31 := by decide
  exact all leap ⟨month, lt⟩

/-- The numbers of a time value fit in the layout of its year. -/
lemma fits_numbers (t : TimeValue) {digits : ℕ} (narrow : (yearFromDay (t.ms / 86400000)).natAbs < 10 ^ digits) :
    fits (layout digits) (numbers t) := by
  obtain ⟨-, inYear⟩ := day_of_year (t.ms / 86400000)
  obtain ⟨month, begun, goes⟩ := monthOfDay_spec _ inYear
  -- no month has more than 31 days
  have short := month_length (isLeap (yearFromDay (t.ms / 86400000))) _ month
  simp only [layout, numbers, fits, and_true]
  refine ⟨narrow, ?_, ?_, ?_, ?_, ?_, ?_⟩
  all_goals omega

/-- A time value is read off its milliseconds. -/
lemma timeValue_of_eq {x : ℤ} {t : TimeValue} (same : x = t.ms) : timeValue x = some t := by
  rw [same, timeValue, dif_pos t.bound]

/-- The numbers of a date make the date. -/
lemma makeDate_numbers (t : TimeValue) :
    makeDate (yearFromDay (t.ms / 86400000)) (numbers t).tail = some t := by
  obtain ⟨day, inYear⟩ := day_of_year (t.ms / 86400000)
  obtain ⟨month, begun, goes⟩ := monthOfDay_spec _ inYear
  rw [numbers, List.tail_cons, makeDate]
  simp only [Nat.add_sub_cancel]
  rw [if_pos (by omega)]
  exact timeValue_of_eq (by omega)

/-- A date is read back. -/
theorem parse_toISOString (t : TimeValue) : parse (toISOString t) = some t := by
  have made := makeDate_numbers t
  have bound := year_bound t
  rw [toISOString]
  generalize sameYear : yearFromDay (t.ms / 86400000) = year at made bound ⊢
  have first : numbers t = year.natAbs :: (numbers t).tail := by rw [← sameYear]; rfl
  split
  case isTrue four =>
    have back := read_write (fits_numbers t (by rw [sameYear]; omega : _ < 10 ^ 4))
    -- a year of four digits begins with a digit, not with a sign
    have digit : ∀ c, (write (layout 4) (numbers t)).head? = some c → c.isDigit = true := by
      intro c eq
      rw [first] at eq
      have mem : c ∈ pad 4 year.natAbs := List.mem_of_head? eq
      exact List.all_eq_true.1 (isDigit_pad 4 year.natAbs) c mem
    have unsigned : ¬((write (layout 4) (numbers t)).head? = some '-' ∨
        (write (layout 4) (numbers t)).head? = some '+') := by
      rintro (minus | plus)
      · exact absurd (digit _ minus) (by decide)
      · exact absurd (digit _ plus) (by decide)
    have positive : (year.natAbs : ℤ) = year := by omega
    rw [parse, String.toList_ofList, if_neg unsigned, back, first]
    simp only [positive, made]
  case isFalse six =>
    have back := read_write (fits_numbers t (by rwa [sameYear]))
    rw [parse, String.toList_ofList, List.head?_cons, List.tail_cons, back, first]
    split
    case isTrue negative =>
      have sign : -(year.natAbs : ℤ) = year := by omega
      rw [if_pos (.inl rfl)]
      simp only [if_pos, sign, made]
    case isFalse positive =>
      have sign : (year.natAbs : ℤ) = year := by omega
      have plus : ¬some '+' = some '-' := by decide
      rw [if_pos (.inr rfl)]
      simp only [if_neg plus, sign, made]

end IsoDate
