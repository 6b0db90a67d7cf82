import StellarFlow.Lib.Cursor
import StellarFlow.Lib.Memory
import StellarFlow.Lib.Python
import StellarFlow.Lib.TextCodec

/-!
# XDR primitives

Model of `XdrReader` in `src/ingestion/horizon_xdr.py` and of the writer `Xenc` in
`tests/_horizon_xdr_encoder.py`. A reader is a cursor; its methods are parsers. A writer's method is the
bytes that it appends, for the values that `struct.pack` accepts.
-/

namespace StellarFlow.Horizon
open Memory TextCodec

/-- The methods of a reader. -/
abbrev Decoder := Parser PyError

/-- `XdrDecodeError`. -/
def xdrDecodeError (msg : String) : PyError := .exception "XdrDecodeError" msg

/-- Caught by `except XdrDecodeError`. -/
def isXdrDecodeError : PyError → Bool
  | .exception name _ => name = "XdrDecodeError"
  | _ => false

namespace XdrReader

/-- `_take`; no caller asks for a negative length. -/
def take (n : ℕ) : Decoder (List UInt8) := fun r =>
  let available : ℤ := r.data.length - r.pos
  if r.data.length < r.pos + n then
    (.error (xdrDecodeError
      s!"truncated XDR: needed {n} bytes at offset {r.pos}, only {available} remaining"), r)
  else (.ok (slice r.data r.pos n), { r with pos := r.pos + n })

/-- `read_uint`. -/
def readUint : Decoder ℕ := do
  let chunk ← take 4
  return unpack .big chunk

/-- `read_int`. -/
def readInt : Decoder ℤ := do
  let chunk ← take 4
  return unpackSigned .big 4 chunk

/-- `read_hyper`. -/
def readHyper : Decoder ℤ := do
  let chunk ← take 8
  return unpackSigned .big 8 chunk

/-- `read_ulong`. -/
def readUlong : Decoder ℕ := do
  let chunk ← take 8
  return unpack .big chunk

/-- `read_bool`. -/
def readBool : Decoder Bool := do
  let value ← readUint
  if value = 0 then return false
  else if value = 1 then return true
  else Parser.fail (xdrDecodeError s!"invalid XDR bool value: {value}")

/-- `self.pos += n`. -/
def skip (n : ℕ) : Decoder Unit := fun r => (.ok (), { r with pos := r.pos + n })

/-- `(-n) % 4`. -/
def padding (n : ℕ) : ℕ := (4 - n % 4) % 4

/-- `read_var_opaque`. -/
def readVarOpaque (maxLen : Option ℕ) : Decoder (List UInt8) := do
  let n ← readUint
  if n > 2147483647 then Parser.fail (xdrDecodeError s!"opaque length out of range: {n}")
  else if maxLen.any (n > ·) then
    let most := maxLen.getD 0
    Parser.fail (xdrDecodeError s!"opaque length {n} exceeds declared maximum {most}")
  else do
    let data ← take n
    skip (padding n)
    return data

/-- `read_string` without a maximum. -/
def readString : Decoder String := do
  let raw ← readVarOpaque none
  return decodeUtf8 raw

/-- `read_optional`. -/
def readOptional {α : Type} (reader : Decoder α) : Decoder (Option α) := do
  let present ← readBool
  if present then do
    let value ← reader
    return some value
  else return none

end XdrReader

/-- Byte strings of a fixed length. -/
abbrev Opaque (n : ℕ) := { bytes : List UInt8 // bytes.length = n }

/-- Byte strings whose length is at most `n`. -/
abbrev VarOpaque (n : ℕ) := { bytes : List UInt8 // bytes.length ≤ n }

namespace Xenc

/-- `uint`. -/
def uint (value : UInt32) : List UInt8 := pack .big 4 value.toNat

/-- `int`. -/
def int (value : Int32) : List UInt8 := packSigned .big 4 value.toInt

/-- `hyper`. -/
def hyper (value : Int64) : List UInt8 := packSigned .big 8 value.toInt

/-- `ulong`. -/
def ulong (value : UInt64) : List UInt8 := pack .big 8 value.toNat

/-- `var_opaque`. -/
def varOpaque (data : List UInt8) : List UInt8 :=
  uint (UInt32.ofNat data.length) ++ data ++ List.replicate (XdrReader.padding data.length) 0

/-- `string`. -/
def string (text : String) : List UInt8 := varOpaque (encodeUtf8 text)

/-- `boolean`. -/
def boolean (value : Bool) : List UInt8 := uint (if value then 1 else 0)

/-- A flag and the value it announces. -/
def optional {α : Type} (write : α → List UInt8) : Option α → List UInt8
  | none => boolean false
  | some value => boolean true ++ write value

end Xenc

section Primitives
open XdrReader

/-- Bytes are read back. -/
lemma reads_take {bytes : List UInt8} {n : ℕ} (length : bytes.length = n) : Reads (take n) bytes bytes := by
  subst length
  intro before after
  have room : ¬ (before ++ bytes ++ after).length < before.length + bytes.length := by
    simp only [List.length_append]
    omega
  have cut : slice (before ++ bytes ++ after) before.length bytes.length = bytes := by
    rw [slice, List.append_assoc, List.drop_left, List.take_left]
  simp only [take, if_neg room, cut]

/-- Bytes of fixed length are read back. -/
lemma reads_fixed {n : ℕ} (value : Opaque n) : Reads (take n) value.1 value.1 := reads_take value.2

/-- Numbers of four bytes are read back. -/
lemma reads_uint (value : UInt32) : Reads readUint (Xenc.uint value) value.toNat := by
  have read := (reads_take (length_pack .big 4 value.toNat)).map (unpack .big)
  rwa [unpack_pack value.toNat_lt] at read

/-- Numbers of eight bytes are read back. -/
lemma reads_ulong (value : UInt64) : Reads readUlong (Xenc.ulong value) value.toNat := by
  have read := (reads_take (length_pack .big 8 value.toNat)).map (unpack .big)
  rwa [unpack_pack value.toNat_lt] at read

/-- Signed numbers of four bytes are read back. -/
lemma reads_int (value : Int32) : Reads readInt (Xenc.int value) value.toInt := by
  have low := value.le_toInt
  have high := value.toInt_lt
  have read := (reads_take (length_packSigned .big 4 value.toInt)).map (unpackSigned .big 4)
  rwa [unpackSigned_packSigned (by omega) (by omega)] at read

/-- Signed numbers of eight bytes are read back. -/
lemma reads_hyper (value : Int64) : Reads readHyper (Xenc.hyper value) value.toInt := by
  have low := value.le_toInt
  have high := value.toInt_lt
  have read := (reads_take (length_packSigned .big 8 value.toInt)).map (unpackSigned .big 8)
  rwa [unpackSigned_packSigned (by omega) (by omega)] at read

/-- A flag is read back. -/
lemma reads_bool (value : Bool) : Reads readBool (Xenc.boolean value) value := by
  refine (reads_uint _).last ?_
  cases value with
  | false => exact .pure false
  | true => exact .pure true

/-- Skipping reads any bytes of that length. -/
lemma reads_skip (bytes : List UInt8) : Reads (skip bytes.length) bytes () := fun _ _ => rfl

/-- Bytes of variable length are read back within the limit. -/
lemma reads_varOpaque {data : List UInt8} {maxLen : Option ℕ} (length : data.length < 2 ^ 31)
    (fits : ∀ most ∈ maxLen, data.length ≤ most) : Reads (readVarOpaque maxLen) (Xenc.varOpaque data) data := by
  have count : (UInt32.ofNat data.length).toNat = data.length :=
    UInt32.toNat_ofNat_of_lt (lt_trans length (by decide))
  have small : ¬ maxLen.any (data.length > ·) = true := by
    cases maxLen with
    | none => simp
    | some most => simpa using fits most rfl
  have pad : (List.replicate (padding data.length) (0 : UInt8)).length = padding data.length :=
    List.length_replicate
  rw [Xenc.varOpaque, List.append_assoc]
  refine (reads_uint _).bind ?_
  rw [count, if_neg (by omega), if_neg small]
  refine (reads_take rfl).bind ?_
  have skipped := (reads_skip (List.replicate (padding data.length) 0)).map fun _ => data
  rwa [pad] at skipped

/-- A text is read back decoded. -/
lemma reads_string {text : List UInt8} (length : text.length < 2 ^ 31) :
    Reads readString (Xenc.varOpaque text) (decodeUtf8 text) :=
  (reads_varOpaque length (by simp)).map decodeUtf8

/-- A value that may be missing is read back where the value is. -/
lemma reads_optional {α β : Type} {reader : Decoder β} {write : α → List UInt8} {value : α → β} (x : Option α)
    (reads : ∀ y ∈ x, Reads reader (write y) (value y)) :
    Reads (readOptional reader) (Xenc.optional write x) (x.map value) := by
  cases x with
  | none => exact (reads_bool false).last (.pure none)
  | some y => exact (reads_bool true).bind ((reads y rfl).map some)

end Primitives

end StellarFlow.Horizon
