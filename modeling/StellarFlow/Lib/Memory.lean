import Mathlib.Data.List.Basic
import Mathlib.Algebra.Order.Ring.Int
import Mathlib.Tactic.Positivity
import Mathlib.Tactic.Zify

/-!
# Flat byte memory

A block of memory is a list of cells. `slice` reads a range and `store` overwrites one, both clipped at
the end of the memory; the lemmas describe them cell by cell. `pack` and `unpack` are the unsigned
fixed-width integers of Python's `struct` in either byte order, `packSigned` and `unpackSigned` the signed
ones, and `around` is the position reached in a ring.
-/

namespace Memory
variable {α : Type}

/-- `mem[off : off + len]`. -/
def slice (mem : List α) (off len : ℕ) : List α :=
  (mem.drop off).take len

/-- `mem[off : off + len(block)] = block`, in memory of fixed size. -/
def store (mem : List α) (off : ℕ) (block : List α) : List α :=
  (mem.take off ++ block ++ mem.drop (off + block.length)).take mem.length

/-- Storing keeps the length. -/
@[simp] lemma length_store (mem : List α) (off : ℕ) (block : List α) :
    (store mem off block).length = mem.length := by
  simp only [store, List.length_take, List.length_append, List.length_drop]
  omega

/-- A slice that fits has its length. -/
lemma length_slice {mem : List α} {off len : ℕ} (fits : off + len ≤ mem.length) :
    (slice mem off len).length = len := by
  rw [slice, List.length_take, List.length_drop]
  omega

/-- The cells of a slice are those from the offset on. -/
lemma getElem?_slice (mem : List α) (off len i : ℕ) :
    (slice mem off len)[i]? = if i < len then mem[off + i]? else none := by
  simp only [slice, List.getElem?_take, List.getElem?_drop]

/-- A part of a range; it is empty where the part starts behind its end. -/
lemma slice_slice {mem : List α} {off len i j : ℕ} (le : j ≤ len) :
    slice (slice mem off len) i (j - i) = slice mem (off + i) (j - i) := by
  rw [slice, slice, slice, List.drop_take, List.take_take, List.drop_drop]
  congr 1
  omega

/-- The cells after a store that fits. -/
lemma getElem?_store {mem block : List α} {off : ℕ} (fits : off + block.length ≤ mem.length) (i : ℕ) :
    (store mem off block)[i]? =
      if off ≤ i ∧ i < off + block.length then block[i - off]? else mem[i]? := by
  have first : (mem.take off).length = off := by
    rw [List.length_take]
    omega
  simp only [store, List.getElem?_take, List.append_assoc]
  by_cases before : i < off
  · rw [if_pos (by omega), List.getElem?_append_left (by omega), List.getElem?_take, if_pos before,
      if_neg (by omega)]
  · rw [List.getElem?_append_right (by omega), first]
    by_cases inside : i < off + block.length
    · rw [if_pos (by omega), List.getElem?_append_left (by omega), if_pos ⟨by omega, inside⟩]
    · rw [if_neg (by omega : ¬ (off ≤ i ∧ i < off + block.length))]
      split
      · rw [List.getElem?_append_right (by omega), List.getElem?_drop]
        congr 1
        omega
      · rw [List.getElem?_eq_none (by omega)]

/-- What was stored is read. -/
lemma slice_store_self {mem block : List α} {off : ℕ} (fits : off + block.length ≤ mem.length) :
    slice (store mem off block) off block.length = block := by
  apply List.ext_getElem?
  intro i
  rw [getElem?_slice, getElem?_store fits]
  split
  · rw [if_pos (by omega), Nat.add_sub_cancel_left]
  · rw [List.getElem?_eq_none (by omega)]

/-- Beside what was stored nothing has changed. -/
lemma slice_store_of_disjoint {mem block : List α} {off off' len : ℕ}
    (fits : off + block.length ≤ mem.length)
    (disjoint : off' + len ≤ off ∨ off + block.length ≤ off') :
    slice (store mem off block) off' len = slice mem off' len := by
  apply List.ext_getElem?
  intro i
  rw [getElem?_slice, getElem?_slice]
  split
  · rw [getElem?_store fits, if_neg (by omega)]
  · rfl

/-- Behind a position in front of it, a store is a store. -/
lemma drop_store {mem block : List α} {off k : ℕ} (fits : off + block.length ≤ mem.length) (le : k ≤ off) :
    (store mem off block).drop k = store (mem.drop k) (off - k) block := by
  apply List.ext_getElem?
  intro i
  rw [List.getElem?_drop, getElem?_store fits, getElem?_store (by rw [List.length_drop]; omega), List.getElem?_drop]
  by_cases hit : off ≤ k + i ∧ k + i < off + block.length
  · rw [if_pos hit, if_pos (by omega)]
    congr 1
    omega
  · rw [if_neg hit, if_neg (by omega)]

/-- Storing nothing changes nothing. -/
lemma store_nil (mem : List α) (off : ℕ) : store mem off [] = mem := by
  rw [store, List.append_nil, List.length_nil, Nat.add_zero, List.take_append_drop, List.take_length]

/-- The byte order of packed integers. -/
inductive ByteOrder where
  | little
  | big
  deriving DecidableEq

/-- The bytes of a number, the lowest first. -/
def littleBytes : ℕ → ℕ → List UInt8
  | 0, _ => []
  | width + 1, n => UInt8.ofNat (n % 256) :: littleBytes width (n / 256)

/-- The number with these bytes, the lowest first. -/
def littleValue : List UInt8 → ℕ
  | [] => 0
  | b :: bs => b.toNat + 256 * littleValue bs

/-- `struct.pack` of an unsigned integer. -/
def pack (order : ByteOrder) (width n : ℕ) : List UInt8 :=
  match order with
  | .little => littleBytes width n
  | .big => (littleBytes width n).reverse

/-- `struct.unpack` of an unsigned integer. -/
def unpack (order : ByteOrder) (bytes : List UInt8) : ℕ :=
  match order with
  | .little => littleValue bytes
  | .big => littleValue bytes.reverse

/-- A number takes its width. -/
lemma length_littleBytes (width n : ℕ) : (littleBytes width n).length = width := by
  induction width generalizing n with
  | zero => rfl
  | succ width ih => rw [littleBytes, List.length_cons, ih]

/-- Bytes have a value below the power of their length. -/
lemma littleValue_lt (bytes : List UInt8) : littleValue bytes < 256 ^ bytes.length := by
  induction bytes with
  | nil => exact Nat.one_pos
  | cons b bytes ih =>
    have low := b.toNat_lt
    rw [littleValue, List.length_cons, Nat.pow_succ]
    omega

/-- A number that fits is read back. -/
lemma littleValue_littleBytes {width n : ℕ} (fits : n < 256 ^ width) :
    littleValue (littleBytes width n) = n := by
  induction width generalizing n with
  | zero =>
    rw [Nat.pow_zero] at fits
    exact (Nat.lt_one_iff.mp fits).symm
  | succ width ih =>
    have rest : n / 256 < 256 ^ width := by
      rw [Nat.div_lt_iff_lt_mul (by decide)]
      rwa [← Nat.pow_succ]
    have low : (UInt8.ofNat (n % 256)).toNat = n % 256 :=
      UInt8.toNat_ofNat_of_lt (Nat.mod_lt _ (by decide))
    rw [littleBytes, littleValue, ih rest, low]
    omega

/-- A packed number takes its width. -/
@[simp] lemma length_pack (order : ByteOrder) (width n : ℕ) : (pack order width n).length = width := by
  cases order with
  | little => exact length_littleBytes width n
  | big => rw [pack, List.length_reverse, length_littleBytes]

/-- A number that fits is read back. -/
lemma unpack_pack {order : ByteOrder} {width n : ℕ} (fits : n < 256 ^ width) :
    unpack order (pack order width n) = n := by
  cases order with
  | little => exact littleValue_littleBytes fits
  | big => rw [unpack, pack, List.reverse_reverse, littleValue_littleBytes fits]

/-- `struct.pack` of a signed integer. -/
def packSigned (order : ByteOrder) (width : ℕ) (n : ℤ) : List UInt8 :=
  pack order width (n % 256 ^ width).toNat

/-- `struct.unpack` of a signed integer. -/
def unpackSigned (order : ByteOrder) (width : ℕ) (bytes : List UInt8) : ℤ :=
  if 2 * unpack order bytes < 256 ^ width then unpack order bytes else unpack order bytes - 256 ^ width

/-- A packed signed number takes its width. -/
@[simp] lemma length_packSigned (order : ByteOrder) (width : ℕ) (n : ℤ) :
    (packSigned order width n).length = width :=
  length_pack ..

/-- A signed number that fits is read back. -/
lemma unpackSigned_packSigned {order : ByteOrder} {width : ℕ} {n : ℤ} (low : -256 ^ width ≤ 2 * n)
    (high : 2 * n < 256 ^ width) : unpackSigned order width (packSigned order width n) = n := by
  have pos : (0 : ℤ) < 256 ^ width := by positivity
  have nonneg := Int.emod_nonneg n (ne_of_gt pos)
  have below := Int.emod_lt_of_pos n pos
  have fits : (n % 256 ^ width).toNat < 256 ^ width := by
    zify
    rwa [Int.toNat_of_nonneg nonneg]
  have value : (unpack order (packSigned order width n) : ℤ) = n % 256 ^ width := by
    rw [packSigned, unpack_pack fits, Int.toNat_of_nonneg nonneg]
  have half : 2 * unpack order (packSigned order width n) < 256 ^ width ↔ 2 * (n % 256 ^ width) < 256 ^ width := by
    rw [← value]
    norm_cast
  rw [unpackSigned, value]
  by_cases negative : n < 0
  · have wrapped : n % 256 ^ width = n + 256 ^ width := by
      rw [← Int.add_emod_right, Int.emod_eq_of_lt (by omega) (by omega)]
    rw [if_neg (by omega), wrapped]
    omega
  · have same : n % 256 ^ width = n := Int.emod_eq_of_lt (by omega) (by omega)
    rw [if_pos (by omega), same]

/-- A step of at most one round in a ring. -/
lemma around {cap pos k : ℕ} (lt : pos < cap) (le : k ≤ cap) :
    pos + k < cap ∧ (pos + k) % cap = pos + k ∨ cap ≤ pos + k ∧ (pos + k) % cap + cap = pos + k := by
  by_cases before : pos + k < cap
  · exact .inl ⟨before, Nat.mod_eq_of_lt before⟩
  · have past := Nat.le_of_not_lt before
    refine .inr ⟨past, ?_⟩
    rw [Nat.mod_eq_sub_mod past, Nat.mod_eq_of_lt (by omega)]
    omega

end Memory
