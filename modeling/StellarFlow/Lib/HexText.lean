import Mathlib.Data.List.Basic
import Mathlib.Data.List.Induction
import Mathlib.Data.Nat.Digits.Lemmas
import Mathlib.Tactic.Ring

/-!
# Positional numerals and hexadecimal text

Big-endian numerals in a base (`value`), and the hexadecimal text functions of Python on lists of
characters: `intBase16` is `int(s, 16)`, `formatHex w` is the format `0<w>x`, `hexOfBytes` is
`bytes.hex` and `bytesOfHex` is `bytes.fromhex`. All four are defined on arbitrary text; the lemmas
relate them on lower-case hexadecimal text (`IsHex`), where reading and writing are mutually inverse.

`intBase16` follows CPython on ASCII text: surrounding white space, a sign, a `0x` prefix and single
underscores between digits are accepted.
-/

/-- The value of a list of digits in base `b`, most significant digit first. -/
def Numeral.value (b : ℕ) (ds : List ℕ) : ℕ :=
  ds.foldl (fun acc d => b * acc + d) 0

namespace Numeral
variable {b : ℕ}

/-- `value` reads the digits of Mathlib's little-endian numerals backwards. -/
lemma value_eq_ofDigits (ds : List ℕ) : value b ds = Nat.ofDigits b ds.reverse := by
  induction ds using List.reverseRecOn with
  | nil => rfl
  | append_singleton ds d ih =>
    rw [List.reverse_append, List.reverse_singleton, List.singleton_append, Nat.ofDigits_cons, ← ih]
    simp only [value, List.foldl_append, List.foldl_cons, List.foldl_nil]
    exact Nat.add_comm _ _

/-- One more digit at the end. -/
@[simp] lemma value_append_singleton (ds : List ℕ) (d : ℕ) :
    value b (ds ++ [d]) = b * value b ds + d := by
  simp [value]

/-- Zeros in front count nothing. -/
lemma value_replicate_zero_append (k : ℕ) (ds : List ℕ) :
    value b (List.replicate k 0 ++ ds) = value b ds := by
  simp [value_eq_ofDigits, Nat.ofDigits_append_replicate_zero]

/-- A numeral is below the power of its length. -/
lemma value_lt {ds : List ℕ} (base : 1 < b) (digits : ∀ d ∈ ds, d < b) :
    value b ds < b ^ ds.length := by
  rw [value_eq_ofDigits, ← List.length_reverse]
  exact Nat.ofDigits_lt_base_pow_length base (by simpa using digits)

/-- Numerals of one length tell their digits by their value. -/
lemma value_inj {ds es : List ℕ} (base : 1 < b) (len : ds.length = es.length)
    (digits : ∀ d ∈ ds, d < b) (digits' : ∀ d ∈ es, d < b) (eq : value b ds = value b es) :
    ds = es := by
  rw [value_eq_ofDigits, value_eq_ofDigits] at eq
  exact List.reverse_injective
    (Nat.ofDigits_inj_of_len_eq base (by simpa using len) (by simpa using digits)
      (by simpa using digits') eq)

end Numeral

namespace HexText
open Numeral

/-- The value of a hexadecimal digit of either case. -/
def digit? (c : Char) : Option ℕ :=
  if '0' ≤ c ∧ c ≤ '9' then some (c.toNat - 48)
  else if 'a' ≤ c ∧ c ≤ 'f' then some (c.toNat - 87)
  else if 'A' ≤ c ∧ c ≤ 'F' then some (c.toNat - 55)
  else none

/-- ASCII white space. -/
def isSpace (c : Char) : Bool :=
  c ∈ [' ', '\t', '\n', '\x0b', '\x0c', '\r']

/-- Digits with single underscores between them; `prev` tells whether a digit came just before. -/
def readDigits : Bool → ℕ → List Char → Option ℕ
  | prev, acc, [] => if prev then some acc else none
  | prev, acc, c :: cs =>
    if c = '_' then
      if prev then readDigits false acc cs else none
    else (digit? c).bind fun d => readDigits true (16 * acc + d) cs

/-- An unsigned literal with an optional `0x` prefix, which one underscore may follow. -/
def readMagnitude (cs : List Char) : Option ℕ :=
  if cs.take 2 = ['0', 'x'] ∨ cs.take 2 = ['0', 'X'] then
    let rest := cs.drop 2
    readDigits false 0 (if rest.head? = some '_' then rest.tail else rest)
  else readDigits false 0 cs

/-- White space removed from both ends. -/
def strip (cs : List Char) : List Char :=
  ((cs.dropWhile isSpace).reverse.dropWhile isSpace).reverse

/-- Python's `int(s, 16)`. -/
def intBase16 (cs : List Char) : Option ℤ :=
  let body := strip cs
  if body.head? = some '-' then (readMagnitude body.tail).map fun n => -(n : ℤ)
  else if body.head? = some '+' then (readMagnitude body.tail).map fun n => (n : ℤ)
  else (readMagnitude body).map fun n => (n : ℤ)

/-- Python's format `0<w>x`: zero-padded to `w` characters, the sign counted. -/
def formatHex (w : ℕ) (v : ℤ) : List Char :=
  if v < 0 then '-' :: (Nat.toDigits 16 v.natAbs).leftpad (w - 1) '0'
  else (Nat.toDigits 16 v.natAbs).leftpad w '0'

/-- Python's `bytes.hex`. -/
def hexOfBytes (bs : List UInt8) : List Char :=
  bs.flatMap fun b => [Nat.digitChar (b.toNat / 16), Nat.digitChar (b.toNat % 16)]

/-- Python's `bytes.fromhex`: digit pairs, with white space allowed between pairs. -/
def bytesOfHex : List Char → Option (List UInt8)
  | [] => some []
  | [c] => if isSpace c then some [] else none
  | c :: d :: cs =>
    if isSpace c then bytesOfHex (d :: cs)
    else do
      let hi ← digit? c
      let lo ← digit? d
      let rest ← bytesOfHex cs
      return UInt8.ofNat (16 * hi + lo) :: rest

/-- Node's `Buffer.from(s, "hex")`: digit pairs up to the first that is none. -/
def bufferOfHex : List Char → List UInt8
  | c :: d :: cs =>
    match digit? c, digit? d with
    | some hi, some lo => UInt8.ofNat (16 * hi + lo) :: bufferOfHex cs
    | _, _ => []
  | _ => []

/-- Python's `int.from_bytes(bs, "big")`. -/
def natOfBytes (bs : List UInt8) : ℕ :=
  value 256 (bs.map UInt8.toNat)

/-- The shortest big-endian bytes of a number, one zero byte for zero. -/
def bytesOfNat (n : ℕ) : List UInt8 :=
  if n = 0 then [0] else (Nat.digits 256 n).reverse.map UInt8.ofNat

/-- The digits `bytes.hex` and the format `x` write. -/
def lowerDigits : List Char :=
  ['0', '1', '2', '3', '4', '5', '6', '7', '8', '9', 'a', 'b', 'c', 'd', 'e', 'f']

/-- Lower-case hexadecimal text. -/
def IsHex (cs : List Char) : Prop :=
  ∀ c ∈ cs, c ∈ lowerDigits

instance (cs : List Char) : Decidable (IsHex cs) :=
  inferInstanceAs (Decidable (∀ c ∈ cs, c ∈ lowerDigits))

/-- The value of a digit, `0` for other characters. -/
def digitVal (c : Char) : ℕ :=
  (digit? c).getD 0

/-- The value of hexadecimal text. -/
def hexValue (cs : List Char) : ℕ :=
  value 16 (cs.map digitVal)

/-- Lower-case digits are read, by their value, and written back. -/
lemma digit_spec : ∀ c ∈ lowerDigits,
    digit? c = some (digitVal c) ∧ digitVal c < 16 ∧ Nat.digitChar (digitVal c) = c :=
  List.forall_iff_forall_mem.mp (by decide)

/-- Lower-case digits are neither white space nor a sign, an underscore or a prefix letter. -/
lemma digit_plain : ∀ c ∈ lowerDigits,
    isSpace c = false ∧ c ≠ '_' ∧ c ≠ '-' ∧ c ≠ '+' ∧ c ≠ 'x' ∧ c ≠ 'X' :=
  List.forall_iff_forall_mem.mp (by decide)

/-- A digit is written as its character. -/
lemma digitChar_spec : ∀ d < 16,
    Nat.digitChar d ∈ lowerDigits ∧ digitVal (Nat.digitChar d) = d := by
  decide

/-- The head of a hexadecimal text is a digit, and so is all the rest. -/
lemma IsHex.cons {c : Char} {cs : List Char} (hex : IsHex (c :: cs)) :
    c ∈ lowerDigits ∧ IsHex cs := by
  simpa [IsHex] using hex

/-- The digits are below sixteen. -/
lemma IsHex.digits {cs : List Char} (hex : IsHex cs) : ∀ d ∈ cs.map digitVal, d < 16 := by
  intro d mem
  obtain ⟨c, memc, rfl⟩ := List.mem_map.mp mem
  exact (digit_spec c (hex c memc)).2.1

/-- Texts of one length tell their digits by their value. -/
lemma hexValue_inj {cs ds : List Char} (hex : IsHex cs) (hex' : IsHex ds)
    (len : cs.length = ds.length) (eq : hexValue cs = hexValue ds) : cs = ds := by
  have maps : cs.map digitVal = ds.map digitVal :=
    value_inj (by decide) (by simpa using len) hex.digits hex'.digits eq
  have back : ∀ {es : List Char}, IsHex es → (es.map digitVal).map Nat.digitChar = es := by
    intro es hexe
    rw [List.map_map]
    conv_rhs => rw [← List.map_id es]
    exact List.map_congr_left (fun c mem => (digit_spec c (hexe c mem)).2.2)
  rw [← back hex, ← back hex', maps]

/-- A number is written in digits of its value. -/
lemma toDigits_spec (n : ℕ) : IsHex (Nat.toDigits 16 n) ∧ hexValue (Nat.toDigits 16 n) = n := by
  induction n using Nat.strong_induction_on with
  | _ n ih =>
    rw [Nat.toDigits_eq_if (by decide)]
    split
    · rename_i small
      obtain ⟨lower, val⟩ := digitChar_spec n small
      refine ⟨by simpa [IsHex] using lower, ?_⟩
      simp [hexValue, value, val]
    · obtain ⟨hex, val⟩ := ih (n / 16) (by omega)
      obtain ⟨lower, last⟩ := digitChar_spec (n % 16) (by omega)
      refine ⟨?_, ?_⟩
      · intro c mem
        rcases List.mem_append.mp mem with mem | mem
        · exact hex c mem
        · rwa [List.mem_singleton.mp mem]
      · simp only [hexValue, List.map_append, List.map_cons, List.map_nil, value_append_singleton]
          at val ⊢
        rw [val, last]
        omega

/-- With a width that fits, in as many digits. -/
lemma formatHex_spec {w n : ℕ} (pos : 0 < w) (fits : n < 16 ^ w) :
    IsHex (formatHex w n) ∧ (formatHex w n).length = w ∧ hexValue (formatHex w n) = n := by
  obtain ⟨hex, val⟩ := toDigits_spec n
  have len : (Nat.toDigits 16 n).length ≤ w := (Nat.length_toDigits_le_iff (by decide) pos).mpr fits
  have eq : formatHex w n = List.replicate (w - (Nat.toDigits 16 n).length) '0' ++ Nat.toDigits 16 n := by
    simp [formatHex, List.leftpad]
  rw [eq]
  refine ⟨?_, ?_, ?_⟩
  · intro c mem
    rcases List.mem_append.mp mem with mem | mem
    · rw [List.eq_of_mem_replicate mem]
      decide
    · exact hex c mem
  · simp only [List.length_append, List.length_replicate]
    omega
  · have zero : digitVal '0' = 0 := by decide
    rw [hexValue, List.map_append, List.map_replicate, zero, value_replicate_zero_append]
    exact val

/-- Text of `w` lower-case digits is the format `0<w>x` of its value. -/
lemma formatHex_hexValue {w : ℕ} {cs : List Char} (pos : 0 < w) (hex : IsHex cs)
    (len : cs.length = w) : formatHex w (hexValue cs) = cs := by
  have fits : hexValue cs < 16 ^ w := by
    have := value_lt (by decide) hex.digits
    rwa [List.length_map, len] at this
  obtain ⟨hexf, lenf, valf⟩ := formatHex_spec pos fits
  exact hexValue_inj hexf hex (lenf.trans len.symm) valf

/-- There are no blanks to strip. -/
lemma strip_hex {cs : List Char} (hex : IsHex cs) : strip cs = cs := by
  have keep : ∀ {es : List Char}, IsHex es → es.dropWhile isSpace = es := by
    intro es hexe
    cases es with
    | nil => rfl
    | cons c es => simp [(digit_plain c hexe.cons.1).1]
  have hexr : IsHex cs.reverse := fun c mem => hex c (List.mem_reverse.mp mem)
  rw [strip, keep hex, keep hexr, List.reverse_reverse]

/-- Digits are read as their value. -/
lemma readDigits_hex {cs : List Char} {prev : Bool} {acc : ℕ} (hex : IsHex cs)
    (nonempty : prev = true ∨ cs ≠ []) :
    readDigits prev acc cs = some ((cs.map digitVal).foldl (fun acc d => 16 * acc + d) acc) := by
  induction cs generalizing prev acc with
  | nil =>
    obtain prev | ne := nonempty
    · simp [readDigits, prev]
    · exact absurd rfl ne
  | cons c cs ih =>
    obtain ⟨lower, hexs⟩ := hex.cons
    have val := (digit_spec c lower).1
    have plain := (digit_plain c lower).2.1
    simp only [readDigits, if_neg plain, val, Option.bind_some, List.map_cons, List.foldl_cons]
    exact ih hexs (.inl rfl)

/-- Python reads non-empty lower-case text by its value. -/
lemma intBase16_hex {cs : List Char} (hex : IsHex cs) (nonempty : cs ≠ []) :
    intBase16 cs = some (hexValue cs : ℤ) := by
  have unprefixed : ¬ (cs.take 2 = ['0', 'x'] ∨ cs.take 2 = ['0', 'X']) := by
    rintro (eq | eq)
    · have mem : 'x' ∈ cs := List.mem_of_mem_take (i := 2) (by simp [eq])
      exact absurd rfl (digit_plain _ (hex _ mem)).2.2.2.2.1
    · have mem : 'X' ∈ cs := List.mem_of_mem_take (i := 2) (by simp [eq])
      exact absurd rfl (digit_plain _ (hex _ mem)).2.2.2.2.2
  have minus : cs.head? ≠ some '-' := fun eq =>
    absurd rfl (digit_plain _ (hex _ (List.mem_of_mem_head? eq))).2.2.1
  have plus : cs.head? ≠ some '+' := fun eq =>
    absurd rfl (digit_plain _ (hex _ (List.mem_of_mem_head? eq))).2.2.2.1
  simp only [intBase16, strip_hex hex, if_neg minus, if_neg plus, readMagnitude, if_neg unprefixed,
    readDigits_hex hex (.inr nonempty)]
  rfl

/-- `bytes.hex` writes two lower-case digits a byte and keeps the value. -/
lemma hexOfBytes_spec (bs : List UInt8) :
    IsHex (hexOfBytes bs) ∧ (hexOfBytes bs).length = 2 * bs.length ∧
      hexValue (hexOfBytes bs) = natOfBytes bs := by
  induction bs using List.reverseRecOn with
  | nil => exact ⟨by simp [IsHex, hexOfBytes], rfl, rfl⟩
  | append_singleton bs b ih =>
    obtain ⟨hex, len, val⟩ := ih
    have lt := b.toNat_lt
    obtain ⟨lowerHi, valHi⟩ := digitChar_spec (b.toNat / 16) (by omega)
    obtain ⟨lowerLo, valLo⟩ := digitChar_spec (b.toNat % 16) (by omega)
    have eq : hexOfBytes (bs ++ [b]) =
        (hexOfBytes bs ++ [Nat.digitChar (b.toNat / 16)]) ++ [Nat.digitChar (b.toNat % 16)] := by
      simp [hexOfBytes]
    rw [eq]
    refine ⟨?_, ?_, ?_⟩
    · intro c mem
      simp only [List.mem_append, List.mem_singleton] at mem
      obtain (mem | rfl) | rfl := mem
      · exact hex c mem
      · exact lowerHi
      · exact lowerLo
    · simp only [List.length_append, List.length_singleton, len]
      omega
    · simp only [hexValue, natOfBytes, List.map_append, List.map_cons, List.map_nil,
        value_append_singleton, valHi, valLo] at val ⊢
      rw [val]
      omega

/-- Node reads back the bytes that were written as digits. -/
lemma bufferOfHex_hexOfBytes (bs : List UInt8) : bufferOfHex (hexOfBytes bs) = bs := by
  have read : ∀ d < 16, digit? (Nat.digitChar d) = some d := by decide
  induction bs with
  | nil => rfl
  | cons b bs ih =>
    have lt := b.toNat_lt
    have whole : 16 * (b.toNat / 16) + b.toNat % 16 = b.toNat := Nat.div_add_mod ..
    rw [hexOfBytes, List.flatMap_cons, List.cons_append, List.cons_append, List.nil_append, bufferOfHex,
      read _ (by omega), read _ (Nat.mod_lt _ (by omega))]
    dsimp only
    rw [whole, UInt8.ofNat_toNat]
    exact congrArg (b :: ·) ih

/-- `bytes.fromhex` inverts `bytes.hex` on lower-case text of even length. -/
lemma bytesOfHex_spec {k : ℕ} {cs : List Char} (hex : IsHex cs) (len : cs.length = 2 * k) :
    ∃ bs, bytesOfHex cs = some bs ∧ bs.length = k ∧ hexOfBytes bs = cs := by
  induction k generalizing cs with
  | zero =>
    obtain rfl : cs = [] := List.eq_nil_of_length_eq_zero len
    exact ⟨[], rfl, rfl, rfl⟩
  | succ k ih =>
    match cs, len with
    | c :: d :: cs, len =>
      obtain ⟨lowerc, hexd⟩ := hex.cons
      obtain ⟨lowerd, hexs⟩ := hexd.cons
      obtain ⟨bs, read, lenb, back⟩ := ih hexs (by simp only [List.length_cons] at len; omega)
      obtain ⟨valc, ltc, charc⟩ := digit_spec c lowerc
      obtain ⟨vald, ltd, chard⟩ := digit_spec d lowerd
      have byte : (UInt8.ofNat (16 * digitVal c + digitVal d)).toNat =
          16 * digitVal c + digitVal d := by
        rw [UInt8.toNat_ofNat']
        exact Nat.mod_eq_of_lt (by omega)
      refine ⟨UInt8.ofNat (16 * digitVal c + digitVal d) :: bs, ?_, by simp [lenb], ?_⟩
      · simp [bytesOfHex, (digit_plain c lowerc).1, valc, vald, read]
      · have hi : (16 * digitVal c + digitVal d) / 16 = digitVal c := by omega
        have lo : (16 * digitVal c + digitVal d) % 16 = digitVal d := by omega
        simp only [hexOfBytes, List.flatMap_cons, byte, hi, lo, charc, chard] at back ⊢
        rw [back]
        rfl

/-- The shortest bytes of a number read back, and fit where the number does. -/
lemma bytesOfNat_spec {w n : ℕ} (pos : 0 < w) (fits : n < 256 ^ w) :
    natOfBytes (bytesOfNat n) = n ∧ (bytesOfNat n).length ≤ w := by
  by_cases zero : n = 0
  · subst zero
    exact ⟨rfl, pos⟩
  · have digits : ∀ d ∈ Nat.digits 256 n, d < 256 := fun d mem => Nat.digits_lt_base (by decide) mem
    have bytes : ((Nat.digits 256 n).reverse.map UInt8.ofNat).map UInt8.toNat =
        (Nat.digits 256 n).reverse := by
      rw [List.map_map]
      conv_rhs => rw [← List.map_id (Nat.digits 256 n).reverse]
      apply List.map_congr_left
      intro d mem
      exact Nat.mod_eq_of_lt (digits d (List.mem_reverse.mp mem))
    refine ⟨?_, ?_⟩
    · rw [bytesOfNat, if_neg zero, natOfBytes, bytes, value_eq_ofDigits, List.reverse_reverse,
        Nat.ofDigits_digits]
    · rw [bytesOfNat, if_neg zero, List.length_map, List.length_reverse]
      exact (Nat.digits_length_le_iff (by decide) n).mpr fits

end HexText
