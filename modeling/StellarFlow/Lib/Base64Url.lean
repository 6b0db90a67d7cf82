import Mathlib.Data.List.Basic
import Mathlib.Algebra.Order.Ring.Nat

/-!
# Base64url text

Node's `buffer.toString("base64url")`, which writes no padding, and `Buffer.from(text, "base64url")`, which reads the
digits of both alphabets and skips whatever else there is.
-/

namespace Base64Url

def alphabet : List Char := "ABCDEFGHIJKLMNOPQRSTUVWXYZabcdefghijklmnopqrstuvwxyz0123456789-_".toList

def digit (n : ℕ) : Char := alphabet.getD n '_'

/-- The number that a digit of either alphabet stands for. -/
def value (c : Char) : Option ℕ :=
  if c = '+' then some 62 else if c = '/' then some 63 else alphabet.idxOf? c

/-- Bytes in groups of six bits. -/
def sextets : List UInt8 → List ℕ
  | [] => []
  | [a] => [a.toNat / 4, a.toNat % 4 * 16]
  | [a, b] => [a.toNat / 4, a.toNat % 4 * 16 + b.toNat / 16, b.toNat % 16 * 4]
  | a :: b :: c :: rest =>
    a.toNat / 4 :: (a.toNat % 4 * 16 + b.toNat / 16) :: (b.toNat % 16 * 4 + c.toNat / 64) :: c.toNat % 64 ::
      sextets rest

/-- The whole bytes of groups of six bits. -/
def bytes : List ℕ → List UInt8
  | a :: b :: c :: d :: rest =>
    UInt8.ofNat (a * 4 + b / 16) :: UInt8.ofNat (b % 16 * 16 + c / 4) :: UInt8.ofNat (c % 4 * 64 + d) :: bytes rest
  | [a, b, c] => [UInt8.ofNat (a * 4 + b / 16), UInt8.ofNat (b % 16 * 16 + c / 4)]
  | [a, b] => [UInt8.ofNat (a * 4 + b / 16)]
  | _ => []

/-- `buffer.toString("base64url")`. -/
def encode (buffer : List UInt8) : String := String.ofList ((sextets buffer).map digit)

/-- `Buffer.from(text, "base64url")`. -/
def decode (text : String) : List UInt8 := bytes (text.toList.filterMap value)

/-- A digit has its value. -/
lemma value_digit {n : ℕ} (lt : n < 64) : value (digit n) = some n := by
  have all : ∀ n : Fin 64, value (digit n) = some n.val := by decide +kernel
  exact all ⟨n, lt⟩

/-- Sextets have six bits. -/
lemma sextets_lt (buffer : List UInt8) : ∀ n ∈ sextets buffer, n < 64 := by
  induction buffer using sextets.induct with
  | case1 => exact fun n mem => absurd mem List.not_mem_nil
  | case2 a =>
    have high := a.toNat_lt
    simp only [sextets, List.forall_mem_cons, List.not_mem_nil, false_imp_iff, implies_true, and_true]
    omega
  | case3 a b =>
    have high := a.toNat_lt
    have high' := b.toNat_lt
    simp only [sextets, List.forall_mem_cons, List.not_mem_nil, false_imp_iff, implies_true, and_true]
    omega
  | case4 a b c rest ih =>
    have high := a.toNat_lt
    have high' := b.toNat_lt
    have high'' := c.toNat_lt
    simp only [sextets, List.forall_mem_cons]
    exact ⟨by omega, by omega, by omega, by omega, ih⟩

/-- A byte is that of its value. -/
lemma ofNat_eq {n : ℕ} {a : UInt8} (same : n = a.toNat) : UInt8.ofNat n = a := by
  rw [same, UInt8.ofNat_toNat]

/-- The bytes are read back from the sextets. -/
lemma bytes_sextets (buffer : List UInt8) : bytes (sextets buffer) = buffer := by
  induction buffer using sextets.induct with
  | case1 => rfl
  | case2 a =>
    rw [sextets, bytes, ofNat_eq (a := a) (by omega)]
  | case3 a b =>
    have high := b.toNat_lt
    rw [sextets, bytes, ofNat_eq (a := a) (by omega), ofNat_eq (a := b) (by omega)]
  | case4 a b c rest ih =>
    have high := b.toNat_lt
    have high' := c.toNat_lt
    rw [sextets, bytes, ofNat_eq (a := a) (by omega), ofNat_eq (a := b) (by omega), ofNat_eq (a := c) (by omega), ih]

/-- Bytes come back from their text. -/
theorem decode_encode_bytes (buffer : List UInt8) : decode (encode buffer) = buffer := by
  have digits : ∀ ns : List ℕ, (∀ n ∈ ns, n < 64) → (ns.map digit).filterMap value = ns := by
    intro ns small
    rw [List.filterMap_map]
    refine (List.filterMap_congr fun n mem => value_digit (small n mem)).trans ?_
    exact List.filterMap_some
  rw [decode, encode, String.toList_ofList, digits _ (sextets_lt buffer), bytes_sextets]

end Base64Url
