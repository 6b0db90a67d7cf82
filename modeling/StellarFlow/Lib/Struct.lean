import StellarFlow.Lib.Memory
import StellarFlow.Lib.Python
import StellarFlow.Lib.TextCodec

/-!
# Packed records

Python's `struct.Struct` with standard sizes and no alignment: a format is a list of codes, each with its own
width, and packing checks every number against the range of its code. What has been packed is unpacked again,
up to the padding of byte strings.
-/

namespace PyStruct
open Memory TextCodec

/-- A format character: `ns`, or an integer of some width. -/
inductive Code where
  | bytes (n : ℕ)
  | signed (width : ℕ)
  | unsigned (width : ℕ)

/-- The bytes that a value of the code takes. -/
def Code.size : Code → ℕ
  | bytes n => n
  | signed width => width
  | unsigned width => width

/-- An argument of `pack`. -/
inductive Value where
  | bytes (data : List UInt8)
  | int (n : ℤ)

/-- `Struct.size`. -/
def size (format : List Code) : ℕ := (format.map Code.size).sum

/-- One argument of `pack`; a byte string is cut or padded with NUL bytes. -/
def packOne (order : ByteOrder) : Code → Value → Except PyError (List UInt8)
  | .bytes n, .bytes data => .ok (ljust (data.take n) n)
  | .signed width, .int n =>
    if -256 ^ width ≤ 2 * n ∧ 2 * n < 256 ^ width then .ok (packSigned order width n) else .error .structError
  | .unsigned width, .int n =>
    if 0 ≤ n ∧ n < 256 ^ width then .ok (Memory.pack order width n.toNat) else .error .structError
  | _, _ => .error .structError

/-- `Struct.pack`. -/
def pack (order : ByteOrder) : List Code → List Value → Except PyError (List UInt8)
  | [], [] => .ok []
  | code :: format, value :: values => do
    let first ← packOne order code value
    let rest ← pack order format values
    return first ++ rest
  | _, _ => .error .structError

/-- One item of the result of `unpack`. -/
def unpackOne (order : ByteOrder) : Code → List UInt8 → Value
  | .bytes _, data => .bytes data
  | .signed width, data => .int (unpackSigned order width data)
  | .unsigned _, data => .int (Memory.unpack order data)

/-- The items of the result of `unpack`, one after the other. -/
def unpackFrom (order : ByteOrder) : List Code → List UInt8 → List Value
  | [], _ => []
  | code :: format, data =>
    unpackOne order code (data.take code.size) :: unpackFrom order format (data.drop code.size)

/-- `Struct.unpack`. -/
def unpack (order : ByteOrder) (format : List Code) (data : List UInt8) : Except PyError (List Value) :=
  if data.length = size format then .ok (unpackFrom order format data) else .error .structError

/-- A value that its code neither refuses nor cuts nor pads. -/
def Fits : Code → Value → Prop
  | .bytes n, .bytes data => data.length = n
  | .signed width, .int n => -256 ^ width ≤ 2 * n ∧ 2 * n < 256 ^ width
  | .unsigned width, .int n => 0 ≤ n ∧ n < 256 ^ width
  | _, _ => False

variable (order : ByteOrder)

/-- A value that fits is packed, and unpacked as it was. -/
lemma packOne_of_fits {code : Code} {value : Value} (fits : Fits code value) :
    ∃ data, packOne order code value = .ok data ∧ data.length = code.size ∧ unpackOne order code data = value := by
  cases code with
  | bytes n =>
    cases value with
    | bytes data =>
      obtain rfl : data.length = n := fits
      have whole : ljust (data.take data.length) data.length = data := by
        rw [List.take_length, ljust, Nat.sub_self, List.replicate_zero, List.append_nil]
      refine ⟨data, ?_, rfl, rfl⟩
      rw [packOne, whole]
    | int n => exact fits.elim
  | signed width =>
    cases value with
    | bytes data => exact fits.elim
    | int n =>
      obtain ⟨low, high⟩ := fits
      refine ⟨packSigned order width n, ?_, length_packSigned order width n, ?_⟩
      · rw [packOne, if_pos ⟨low, high⟩]
      · rw [unpackOne, unpackSigned_packSigned low high]
  | unsigned width =>
    cases value with
    | bytes data => exact fits.elim
    | int n =>
      obtain ⟨low, high⟩ := fits
      have natural : n.toNat < 256 ^ width := by
        zify
        rwa [Int.toNat_of_nonneg low]
      refine ⟨Memory.pack order width n.toNat, ?_, length_pack order width n.toNat, ?_⟩
      · rw [packOne, if_pos ⟨low, high⟩]
      · rw [unpackOne, unpack_pack natural, Int.toNat_of_nonneg low]

/-- Values that fit their codes are packed into a block of the format's size and unpacked from it. -/
lemma pack_of_fits {format : List Code} {values : List Value} (fits : List.Forall₂ Fits format values) :
    ∃ data, pack order format values = .ok data ∧ data.length = size format ∧
      unpack order format data = .ok values := by
  suffices packed : ∃ data, pack order format values = .ok data ∧ data.length = size format ∧
      unpackFrom order format data = values by
    obtain ⟨data, bytes, length, back⟩ := packed
    refine ⟨data, bytes, length, ?_⟩
    rw [unpack, if_pos length, back]
  induction fits with
  | nil => exact ⟨[], rfl, rfl, rfl⟩
  | @cons code value format values head tail ih =>
    obtain ⟨first, one, width, back⟩ := packOne_of_fits order head
    obtain ⟨rest, bytes, length, values⟩ := ih
    refine ⟨first ++ rest, ?_, ?_, ?_⟩
    · rw [pack, one, bytes]
      rfl
    · rw [List.length_append, width, length, size, size, List.map_cons, List.sum_cons]
    · rw [unpackFrom, List.take_left' width, List.drop_left' width, back, values]

/-- A value that `pack` takes; byte strings are cut or padded. -/
def Accepts : Code → Value → Prop
  | .bytes _, .bytes _ => True
  | .signed width, .int n => -256 ^ width ≤ 2 * n ∧ 2 * n < 256 ^ width
  | .unsigned width, .int n => 0 ≤ n ∧ n < 256 ^ width
  | _, _ => False

instance : ∀ code value, Decidable (Accepts code value)
  | .bytes _, .bytes _ => inferInstanceAs (Decidable True)
  | .signed _, .int _ => inferInstanceAs (Decidable (_ ∧ _))
  | .unsigned _, .int _ => inferInstanceAs (Decidable (_ ∧ _))
  | .bytes _, .int _ => inferInstanceAs (Decidable False)
  | .signed _, .bytes _ => inferInstanceAs (Decidable False)
  | .unsigned _, .bytes _ => inferInstanceAs (Decidable False)

/-- A code of integers. -/
def Code.isInt : Code → Bool
  | bytes _ => false
  | signed _ | unsigned _ => true

/-- Integers that are taken are packed as they are. -/
lemma fits_of_accepts {format : List Code} {values : List Value} (ints : ∀ code ∈ format, code.isInt = true)
    (accepted : List.Forall₂ Accepts format values) : List.Forall₂ Fits format values := by
  induction accepted with
  | nil => exact .nil
  | @cons code value format values head tail ih =>
    have int := ints code List.mem_cons_self
    refine .cons ?_ (ih fun code mem => ints code (List.mem_cons_of_mem _ mem))
    cases code with
    | bytes n => cases int
    | signed width | unsigned width =>
      cases value with
      | bytes data => exact head.elim
      | int n => exact head

/-- A value is packed where its code accepts it. -/
lemma packOne_eq (code : Code) (value : Value) :
    packOne order code value = .error .structError ∧ ¬Accepts code value ∨
      ∃ data, packOne order code value = .ok data ∧ Accepts code value := by
  cases code with
  | bytes n =>
    cases value with
    | bytes data => exact .inr ⟨_, rfl, trivial⟩
    | int n => exact .inl ⟨rfl, id⟩
  | signed width | unsigned width =>
    cases value with
    | bytes data => exact .inl ⟨rfl, id⟩
    | int n =>
      rw [packOne]
      split
      case isTrue fits => exact .inr ⟨_, rfl, fits⟩
      case isFalse refused => exact .inl ⟨rfl, refused⟩

/-- Packing fails where some value is refused. -/
lemma pack_of_not_accepts {format : List Code} {values : List Value} (refused : ¬List.Forall₂ Accepts format values) :
    pack order format values = .error .structError := by
  induction format generalizing values with
  | nil =>
    cases values with
    | nil => exact absurd .nil refused
    | cons value values => rfl
  | cons code format ih =>
    cases values with
    | nil => rfl
    | cons value values =>
      obtain ⟨failed, -⟩ | ⟨data, first, accepted⟩ := packOne_eq order code value
      · rw [pack, failed]
        rfl
      · have rest := ih fun all => refused (.cons accepted all)
        rw [pack, first, rest]
        rfl

end PyStruct
