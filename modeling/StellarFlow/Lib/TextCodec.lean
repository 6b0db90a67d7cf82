import Mathlib.Data.List.DropRight
import Mathlib.Algebra.Order.Ring.Nat

/-!
# Texts of bytes

Python's conversions between bytes and text: UTF-8 and ASCII with `errors="replace"`, `base64.b64encode`,
`base64.b32encode`, and the padding functions `ljust` and `rstrip` with NUL bytes.
-/

namespace TextCodec

/-- `bytes.ljust(n, b"\x00")`. -/
def ljust (bytes : List UInt8) (n : ℕ) : List UInt8 := bytes ++ List.replicate (n - bytes.length) 0

/-- `bytes.rstrip(b"\x00")`. -/
def rstrip (bytes : List UInt8) : List UInt8 := bytes.rdropWhile (· = 0)

/-- Bytes are filled up to the length. -/
lemma length_ljust {bytes : List UInt8} {n : ℕ} (le : bytes.length ≤ n) : (ljust bytes n).length = n := by
  rw [ljust, List.length_append, List.length_replicate]
  omega

/-- What does not end in a NUL comes back without its padding. -/
lemma rstrip_ljust {bytes : List UInt8} (last : bytes.getLast? ≠ some 0) (n : ℕ) :
    rstrip (ljust bytes n) = bytes := by
  rw [ljust]
  induction n - bytes.length with
  | zero =>
    rw [List.replicate_zero, List.append_nil, rstrip, List.rdropWhile_eq_self_iff]
    intro nonempty zero
    apply last
    rw [List.getLast?_eq_some_getLast nonempty, of_decide_eq_true zero]
  | succ k ih =>
    rw [List.replicate_succ', ← List.append_assoc, rstrip, List.rdropWhile_concat, if_pos (by simp)]
    exact ih

/-- Padding gives back the NULs that were stripped. -/
lemma ljust_rstrip {bytes : List UInt8} {n : ℕ} (le : bytes.length ≤ n) : ljust (rstrip bytes) n = ljust bytes n := by
  induction bytes using List.reverseRecOn with
  | nil => rfl
  | append_singleton bytes b ih =>
    rw [List.length_append, List.length_singleton] at le
    rw [rstrip, List.rdropWhile_concat]
    split
    case isTrue zero =>
      obtain ⟨k, room⟩ : ∃ k, n - bytes.length = k + 1 := ⟨n - bytes.length - 1, by omega⟩
      have less : n - (bytes ++ [b]).length = k := by
        rw [List.length_append, List.length_singleton]
        omega
      rw [← rstrip, ih (by omega), ljust, ljust, less, room, List.replicate_succ, of_decide_eq_true zero,
        List.append_assoc, List.singleton_append]
    case isFalse => rfl

/-- No zero is left at the end. -/
lemma getLast?_rstrip (bytes : List UInt8) : (rstrip bytes).getLast? ≠ some 0 := by
  intro zero
  have nonempty : rstrip bytes ≠ [] := by
    intro empty
    rw [empty] at zero
    cases zero
  rw [List.getLast?_eq_some_getLast nonempty] at zero
  exact List.rdropWhile_last_not _ _ nonempty (decide_eq_true (Option.some.inj zero))

/-- Stripping adds nothing. -/
lemma length_rstrip_le (bytes : List UInt8) : (rstrip bytes).length ≤ bytes.length :=
  (List.rdropWhile_prefix _ _).length_le

/-- `text.encode("utf-8")`. -/
def encodeUtf8 (text : String) : List UInt8 := text.toList.flatMap String.utf8EncodeChar

/-- The second byte goes on a sequence of three or four bytes that the first has begun. -/
def continues (first second : ℕ) : Bool :=
  (first = 0xe0 ∧ 0xa0 ≤ second ∧ second ≤ 0xbf) ∨
  (0xe1 ≤ first ∧ first ≤ 0xef ∧ first ≠ 0xed ∧ 0x80 ≤ second ∧ second ≤ 0xbf) ∨
  (first = 0xed ∧ 0x80 ≤ second ∧ second ≤ 0x9f) ∨
  (first = 0xf0 ∧ 0x90 ≤ second ∧ second ≤ 0xbf) ∨
  (0xf1 ≤ first ∧ first ≤ 0xf3 ∧ 0x80 ≤ second ∧ second ≤ 0xbf) ∨
  (first = 0xf4 ∧ 0x80 ≤ second ∧ second ≤ 0x8f)

/-- How many bytes one replacement character stands for: the longest beginning of a valid sequence, or
one. -/
def invalidLength : List UInt8 → ℕ
  | first :: second :: third :: _ =>
    if ¬ continues first.toNat second.toNat then 1
    else if 0xf0 ≤ first ∧ 0x80 ≤ third ∧ third ≤ 0xbf then 3
    else 2
  | [first, second] => if continues first.toNat second.toNat then 2 else 1
  | _ => 1

/-- The characters of at most `fuel` sequences. -/
def utf8Chars : ℕ → List UInt8 → List Char
  | 0, _ => []
  | fuel + 1, bytes =>
    if bytes.isEmpty then []
    else match bytes.toByteArray.utf8DecodeChar? 0 with
      | some c => c :: utf8Chars fuel (bytes.drop c.utf8Size)
      | none => Char.ofNat 0xfffd :: utf8Chars fuel (bytes.drop (invalidLength bytes))

/-- `bytes.decode("utf-8", errors="replace")`. -/
def decodeUtf8 (bytes : List UInt8) : String := String.ofList (utf8Chars bytes.length bytes)

/-- Characters are read back from UTF-8. -/
lemma utf8Chars_encode (cs : List Char) {fuel : ℕ} (enough : cs.length ≤ fuel) :
    utf8Chars fuel (cs.flatMap String.utf8EncodeChar) = cs := by
  induction cs generalizing fuel with
  | nil =>
    cases fuel with
    | zero => rfl
    | succ fuel => rfl
  | cons c cs ih =>
    cases fuel with
    | zero => exact absurd enough (Nat.not_succ_le_zero _)
    | succ fuel =>
      have length := String.length_utf8EncodeChar c
      have nonempty : (String.utf8EncodeChar c ++ cs.flatMap String.utf8EncodeChar).isEmpty = false := by
        have pos := c.utf8Size_pos
        rw [List.isEmpty_eq_false_iff_exists_mem, ← List.length_pos_iff_exists_mem, List.length_append, length]
        omega
      rw [List.flatMap_cons, utf8Chars, if_neg (by rw [nonempty]; decide), List.toByteArray_append,
        ByteArray.utf8DecodeChar?_utf8EncodeChar_append]
      show c :: utf8Chars fuel (List.drop c.utf8Size _) = c :: cs
      rw [← length, List.drop_left, ih (Nat.le_of_succ_le_succ enough)]

/-- Text comes back from its UTF-8 bytes. -/
lemma decodeUtf8_encodeUtf8 (text : String) : decodeUtf8 (encodeUtf8 text) = text := by
  have enough : ∀ cs : List Char, cs.length ≤ (cs.flatMap String.utf8EncodeChar).length := by
    intro cs
    induction cs with
    | nil => exact le_rfl
    | cons c cs ih =>
      have pos := c.utf8Size_pos
      rw [List.flatMap_cons, List.length_append, List.length_cons, String.length_utf8EncodeChar]
      omega
  rw [decodeUtf8, encodeUtf8, utf8Chars_encode _ (enough _), String.ofList_toList]

/-- `text.encode("ascii")` of ASCII text. -/
def encodeAscii (text : String) : List UInt8 := text.toList.map fun c => UInt8.ofNat c.toNat

/-- `bytes.decode("ascii", errors="replace")`. -/
def decodeAscii (bytes : List UInt8) : String :=
  String.ofList (bytes.map fun b => Char.ofNat (if b.toNat < 128 then b.toNat else 0xfffd))

/-- ASCII texts are read back. -/
lemma decodeAscii_encodeAscii {text : String} (ascii : ∀ c ∈ text.toList, c.toNat < 128) :
    decodeAscii (encodeAscii text) = text := by
  rw [decodeAscii, encodeAscii, List.map_map]
  have same : text.toList.map ((fun b : UInt8 => Char.ofNat (if b.toNat < 128 then b.toNat else 0xfffd)) ∘
      fun c => UInt8.ofNat c.toNat) = text.toList := by
    rw [List.map_congr_left, List.map_id]
    intro c mem
    have small := ascii c mem
    have byte : (UInt8.ofNat c.toNat).toNat = c.toNat := UInt8.toNat_ofNat_of_lt (by omega : c.toNat < 256)
    rw [Function.comp_apply, byte, if_pos small, Char.ofNat_toNat]
    rfl
  rw [same, String.ofList_toList]

/-- The digits of base 64. -/
def digits64 : List Char :=
  "ABCDEFGHIJKLMNOPQRSTUVWXYZabcdefghijklmnopqrstuvwxyz0123456789+/".toList

/-- The digits of base 32. -/
def digits32 : List Char := "ABCDEFGHIJKLMNOPQRSTUVWXYZ234567".toList

/-- One digit of base 64. -/
def digit64 (n : ℕ) : Char := digits64.getD n '='

/-- One digit of base 32. -/
def digit32 (n : ℕ) : Char := digits32.getD n '='

/-- `base64.b64encode`. -/
def b64encode : List UInt8 → List Char
  | [] => []
  | [a] => [digit64 (a.toNat / 4), digit64 (a.toNat % 4 * 16), '=', '=']
  | [a, b] =>
    [digit64 (a.toNat / 4), digit64 (a.toNat % 4 * 16 + b.toNat / 16), digit64 (b.toNat % 16 * 4), '=']
  | a :: b :: c :: rest =>
    digit64 (a.toNat / 4) :: digit64 (a.toNat % 4 * 16 + b.toNat / 16) ::
      digit64 (b.toNat % 16 * 4 + c.toNat / 64) :: digit64 (c.toNat % 64) :: b64encode rest

/-- The eight digits of five bytes. -/
def quantum32 (a b c d e : UInt8) : List Char :=
  [digit32 (a.toNat / 8), digit32 (a.toNat % 8 * 4 + b.toNat / 64), digit32 (b.toNat % 64 / 2),
    digit32 (b.toNat % 2 * 16 + c.toNat / 16), digit32 (c.toNat % 16 * 2 + d.toNat / 128),
    digit32 (d.toNat % 128 / 4), digit32 (d.toNat % 4 * 8 + e.toNat / 32), digit32 (e.toNat % 32)]

/-- `base64.b32encode`. -/
def b32encode : List UInt8 → List Char
  | [] => []
  | [a] => (quantum32 a 0 0 0 0).take 2 ++ List.replicate 6 '='
  | [a, b] => (quantum32 a b 0 0 0).take 4 ++ List.replicate 4 '='
  | [a, b, c] => (quantum32 a b c 0 0).take 5 ++ List.replicate 3 '='
  | [a, b, c, d] => (quantum32 a b c d 0).take 7 ++ List.replicate 1 '='
  | a :: b :: c :: d :: e :: rest => quantum32 a b c d e ++ b32encode rest

/-- No digit is the padding. -/
lemma digit64_ne {n : ℕ} (lt : n < 64) : digit64 n ≠ '=' := by
  have length : digits64.length = 64 := rfl
  have none : '=' ∉ digits64 := by decide
  have found : digits64[n]? = some (digit64 n) := by
    rw [digit64, List.getD_eq_getElem?_getD, List.getElem?_eq_getElem (length ▸ lt), Option.getD_some]
  intro eq
  exact none (eq ▸ List.mem_of_getElem? found)

/-- The padding makes up for the bytes that are missing to a whole group. -/
lemma b64encode_padding (bytes : List UInt8) :
    4 * (bytes.length + (b64encode bytes).count '=') = 3 * (b64encode bytes).length := by
  induction bytes using b64encode.induct with
  | case1 => rfl
  | case2 a =>
    have high := a.toNat_lt
    have one := digit64_ne (n := a.toNat / 4) (by omega)
    have two := digit64_ne (n := a.toNat % 4 * 16) (by omega)
    simp [b64encode, one, two]
  | case3 a b =>
    have high := a.toNat_lt
    have high' := b.toNat_lt
    have one := digit64_ne (n := a.toNat / 4) (by omega)
    have two := digit64_ne (n := a.toNat % 4 * 16 + b.toNat / 16) (by omega)
    have three := digit64_ne (n := b.toNat % 16 * 4) (by omega)
    simp [b64encode, one, two, three]
  | case4 a b c rest ih =>
    have high := a.toNat_lt
    have high' := b.toNat_lt
    have high'' := c.toNat_lt
    have one := digit64_ne (n := a.toNat / 4) (by omega)
    have two := digit64_ne (n := a.toNat % 4 * 16 + b.toNat / 16) (by omega)
    have three := digit64_ne (n := b.toNat % 16 * 4 + c.toNat / 64) (by omega)
    have four := digit64_ne (n := c.toNat % 64) (by omega)
    simp only [b64encode, List.length_cons, List.count_cons_of_ne one, List.count_cons_of_ne two,
      List.count_cons_of_ne three, List.count_cons_of_ne four]
    omega

/-- The base 64 text of a byte string determines its length. -/
lemma length_eq_of_b64encode {xs ys : List UInt8} (same : b64encode xs = b64encode ys) :
    xs.length = ys.length := by
  have left := b64encode_padding xs
  have right := b64encode_padding ys
  rw [same] at left
  omega

/-- A digit tells its value. -/
lemma digit32_inj {m n : ℕ} (low : m < 32) (low' : n < 32) (same : digit32 m = digit32 n) : m = n := by
  have inj : ∀ m : Fin 32, ∀ n : Fin 32, digit32 m = digit32 n → m = n := by decide
  exact congrArg Fin.val (inj ⟨m, low⟩ ⟨n, low'⟩ same)

/-- A digit is not the padding. -/
lemma digit32_ne {n : ℕ} (lt : n < 32) : digit32 n ≠ '=' := by
  have none : ∀ n : Fin 32, digit32 n ≠ '=' := by decide
  exact none ⟨n, lt⟩

/-- The numbers that the digits of five bytes stand for. -/
def fives (a b c d e : UInt8) : List ℕ :=
  [a.toNat / 8, a.toNat % 8 * 4 + b.toNat / 64, b.toNat % 64 / 2, b.toNat % 2 * 16 + c.toNat / 16,
    c.toNat % 16 * 2 + d.toNat / 128, d.toNat % 128 / 4, d.toNat % 4 * 8 + e.toNat / 32, e.toNat % 32]

/-- Five bytes are written as eight digits. -/
lemma quantum32_eq (a b c d e : UInt8) : quantum32 a b c d e = (fives a b c d e).map digit32 := rfl

/-- The digits of five bytes have five bits each. -/
lemma fives_lt (a b c d e : UInt8) : ∀ n ∈ fives a b c d e, n < 32 := by
  have := a.toNat_lt
  have := b.toNat_lt
  have := c.toNat_lt
  have := d.toNat_lt
  have := e.toNat_lt
  simp only [fives, List.forall_mem_cons, List.not_mem_nil, false_imp_iff, implies_true, and_true]
  omega

/-- Digits tell their values. -/
lemma map_digit32_inj {xs ys : List ℕ} (left : ∀ n ∈ xs, n < 32) (right : ∀ n ∈ ys, n < 32)
    (same : xs.map digit32 = ys.map digit32) : xs = ys := by
  induction xs generalizing ys with
  | nil => exact (List.map_eq_nil_iff.1 same.symm).symm
  | cons x xs ih =>
    cases ys with
    | nil => exact absurd same (List.cons_ne_nil _ _)
    | cons y ys =>
      obtain ⟨head, tail⟩ := List.cons.inj same
      rw [digit32_inj (left x List.mem_cons_self) (right y List.mem_cons_self) head,
        ih (fun n mem => left n (List.mem_cons_of_mem _ mem)) (fun n mem => right n (List.mem_cons_of_mem _ mem)) tail]

/-- Whole groups of five bytes are determined by their digits, none of which is a padding sign. -/
lemma b32encode_groups (count : ℕ) {xs ys : List UInt8} (left : xs.length = 5 * count)
    (right : ys.length = 5 * count) (same : b32encode xs = b32encode ys) : xs = ys := by
  induction count generalizing xs ys with
  | zero => rw [List.eq_nil_of_length_eq_zero left, List.eq_nil_of_length_eq_zero right]
  | succ count ih =>
    match xs, left with
    | a :: b :: c :: d :: e :: xs, left =>
      match ys, right with
      | a' :: b' :: c' :: d' :: e' :: ys, right =>
        simp only [List.length_cons] at left right
        have groups : (quantum32 a b c d e).length = (quantum32 a' b' c' d' e').length := rfl
        obtain ⟨first, rest⟩ := List.append_inj same groups
        rw [quantum32_eq, quantum32_eq] at first
        have numbers := map_digit32_inj (fives_lt a b c d e) (fives_lt a' b' c' d' e') first
        simp only [fives, List.cons.injEq, and_true] at numbers
        have tail := ih (by omega) (by omega) rest
        have := a.toNat_lt
        have := b.toNat_lt
        have := c.toNat_lt
        have := d.toNat_lt
        have := e.toNat_lt
        have := a'.toNat_lt
        have := b'.toNat_lt
        have := c'.toNat_lt
        have := d'.toNat_lt
        have := e'.toNat_lt
        rw [UInt8.toNat_inj.1 (by omega : a.toNat = a'.toNat), UInt8.toNat_inj.1 (by omega : b.toNat = b'.toNat),
          UInt8.toNat_inj.1 (by omega : c.toNat = c'.toNat), UInt8.toNat_inj.1 (by omega : d.toNat = d'.toNat),
          UInt8.toNat_inj.1 (by omega : e.toNat = e'.toNat), tail]

/-- Whole quanta need no padding. -/
lemma b32encode_no_padding (count : ℕ) {xs : List UInt8} (length : xs.length = 5 * count) :
    '=' ∉ b32encode xs := by
  induction count generalizing xs with
  | zero =>
    rw [List.eq_nil_of_length_eq_zero length]
    exact List.not_mem_nil
  | succ count ih =>
    match xs, length with
    | a :: b :: c :: d :: e :: xs, length =>
      simp only [List.length_cons] at length
      rw [b32encode, List.mem_append, quantum32_eq, List.mem_map]
      rintro (⟨n, mem, digit⟩ | mem)
      · exact digit32_ne (fives_lt a b c d e n mem) digit
      · exact ih (by omega) mem

end TextCodec
