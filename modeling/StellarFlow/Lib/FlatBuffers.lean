import Mathlib.Data.List.Basic
import Mathlib.Data.List.DropRight
import Mathlib.Data.List.Perm.Subperm
import StellarFlow.Lib.Memory
import StellarFlow.Lib.Python

/-!
# FlatBuffers

The builder and the accessors of the Python package, as far as a table with scalars and one byte vector needs them.
`Package` has the operations, and `Documented` says what they do: a `Draft` is what has been told to a builder so far,
and what a finished one puts out is read back by the accessors.

`wire` is a package that writes the binary format: the buffer grows from its end, offsets are counted from there, and
numbers are little endian and aligned. `wire_documented` shows that it does what is documented.
-/

namespace FlatBuffers
open Memory

/-- The types of the numbers that are read. -/
inductive Number where
  | int8
  | uint32
  | uint64
  | uoffset

/-- The methods of `Builder`, `encode.Get`, and the methods of `Table`, given its buffer and position. -/
structure Package where
  Builder : Type
  builder (initialSize : ℕ) : Builder
  forceDefaults (forced : Bool) (b : Builder) : Builder
  createByteVector (x : List UInt8) (b : Builder) : Except PyError (ℕ × Builder)
  startObject (numFields : ℕ) (b : Builder) : Except PyError Builder
  prependUOffsetTRelativeSlot (slot x default : ℕ) (b : Builder) : Except PyError Builder
  prependUint64Slot (slot : ℕ) (x default : ℤ) (b : Builder) : Except PyError Builder
  prependUint32Slot (slot : ℕ) (x default : ℤ) (b : Builder) : Except PyError Builder
  endObject (b : Builder) : Except PyError (ℕ × Builder)
  finish (rootTable : ℕ) (b : Builder) : Except PyError Builder
  output (b : Builder) : Except PyError (List UInt8)
  get (flags : Number) (buf : List UInt8) (pos : ℕ) : Except PyError ℤ
  offset (buf : List UInt8) (pos vtableOffset : ℕ) : Except PyError ℕ
  vectorLen (buf : List UInt8) (pos off : ℕ) : Except PyError ℕ
  vector (buf : List UInt8) (pos off : ℕ) : Except PyError ℕ

/-- The content of a slot. -/
inductive Field where
  | uint32 (n : ℤ)
  | uint64 (n : ℤ)
  | bytes (data : List UInt8)

/-- What has been told to a builder: its vector, the slots of its table, and that the table is closed or the root. -/
inductive Draft where
  | empty (forced : Bool)
  | vector (forced : Bool) (data : List UInt8) (off : ℕ)
  | table (forced : Bool) (data : List UInt8) (off numFields : ℕ) (fields : List (ℕ × Field))
  | closed (table : ℕ) (fields : List (ℕ × Field))
  | finished (fields : List (ℕ × Field))

/-- A byte as a signed number. -/
def int8 (byte : UInt8) : ℤ := if byte.toNat < 128 then byte.toNat else byte.toNat - 256

variable (fb : Package)

/-- The field at an offset from the position of a table is read. -/
def Reads (buf : List UInt8) (pos off : ℕ) : Field → Prop
  | .uint32 n => fb.get .uint32 buf (off + pos) = .ok n
  | .uint64 n => fb.get .uint64 buf (off + pos) = .ok n
  | .bytes data =>
    fb.vectorLen buf pos off = .ok data.length ∧
      ∃ a, fb.vector buf pos off = .ok a ∧
        ∀ i byte, data[i]? = some byte → fb.get .int8 buf (a + i) = .ok (int8 byte)

/-- What the operations do for small tables, each of whose slots is written once. `Drafts b d` says that the builder has
been told the draft. -/
structure Documented (Drafts : fb.Builder → Draft → Prop) : Prop where
  builder (size : ℕ) : Drafts (fb.builder size) (.empty false)
  forceDefaults {b : fb.Builder} {forced : Bool} (forced' : Bool) :
    Drafts b (.empty forced) → Drafts (fb.forceDefaults forced' b) (.empty forced')
  createByteVector {b : fb.Builder} {forced : Bool} {data : List UInt8} :
    Drafts b (.empty forced) → data.length < 2 ^ 16 →
      ∃ off b', fb.createByteVector data b = .ok (off, b') ∧ Drafts b' (.vector forced data off)
  startObject {b : fb.Builder} {forced : Bool} {data : List UInt8} {off numFields : ℕ} :
    Drafts b (.vector forced data off) → numFields ≤ 2 ^ 8 →
      ∃ b', fb.startObject numFields b = .ok b' ∧ Drafts b' (.table forced data off numFields [])
  offsetSlot {b : fb.Builder} {forced : Bool} {data : List UInt8} {off numFields slot : ℕ}
    {fields : List (ℕ × Field)} (default : ℕ) :
    Drafts b (.table forced data off numFields fields) → slot < numFields → slot ∉ fields.map Prod.fst →
      forced = true ∨ off ≠ default →
        ∃ b', fb.prependUOffsetTRelativeSlot slot off default b = .ok b' ∧
          Drafts b' (.table forced data off numFields ((slot, .bytes data) :: fields))
  uint64Slot {b : fb.Builder} {forced : Bool} {data : List UInt8} {off numFields slot : ℕ} {x : ℤ}
    {fields : List (ℕ × Field)} (default : ℤ) :
    Drafts b (.table forced data off numFields fields) → slot < numFields → slot ∉ fields.map Prod.fst →
      forced = true ∨ x ≠ default → 0 ≤ x → x < 2 ^ 64 →
        ∃ b', fb.prependUint64Slot slot x default b = .ok b' ∧
          Drafts b' (.table forced data off numFields ((slot, .uint64 x) :: fields))
  uint32Slot {b : fb.Builder} {forced : Bool} {data : List UInt8} {off numFields slot : ℕ} {x : ℤ}
    {fields : List (ℕ × Field)} (default : ℤ) :
    Drafts b (.table forced data off numFields fields) → slot < numFields → slot ∉ fields.map Prod.fst →
      forced = true ∨ x ≠ default → 0 ≤ x → x < 2 ^ 32 →
        ∃ b', fb.prependUint32Slot slot x default b = .ok b' ∧
          Drafts b' (.table forced data off numFields ((slot, .uint32 x) :: fields))
  endObject {b : fb.Builder} {forced : Bool} {data : List UInt8} {off numFields : ℕ} {fields : List (ℕ × Field)} :
    Drafts b (.table forced data off numFields fields) →
      ∃ table b', fb.endObject b = .ok (table, b') ∧ Drafts b' (.closed table fields)
  finish {b : fb.Builder} {table : ℕ} {fields : List (ℕ × Field)} :
    Drafts b (.closed table fields) → ∃ b', fb.finish table b = .ok b' ∧ Drafts b' (.finished fields)
  output {b : fb.Builder} {fields : List (ℕ × Field)} :
    Drafts b (.finished fields) → ∃ buf pos, fb.output b = .ok buf ∧ fb.get .uoffset buf 0 = .ok (pos : ℕ) ∧
      ∀ slot field, (slot, field) ∈ fields →
        ∃ off, fb.offset buf pos (4 + 2 * slot) = .ok off ∧ off ≠ 0 ∧ Reads fb buf pos off field

/-- A builder of the binary format. Its bytes are the end of the buffer. -/
structure Writer where
  bytes : List UInt8
  minAlign : ℕ
  forced : Bool
  vtable : List ℕ
  objectEnd : ℕ
  nested : Bool
  finished : Bool

namespace Writer
variable (w : Writer)

/-- `Builder.Prep`. -/
def prep (size additional : ℕ) : Writer :=
  let pad := (size - (w.bytes.length + additional) % size) % size
  { w with minAlign := max w.minAlign size, bytes := List.replicate pad 0 ++ w.bytes }

/-- Bytes in front of those that are written. -/
def write (block : List UInt8) : Writer := { w with bytes := block ++ w.bytes }

/-- `Builder.Place` of an unsigned number. -/
def place (width : ℕ) (x : ℤ) : Except PyError Writer :=
  if 0 ≤ x ∧ x < 256 ^ width then .ok (w.write (littleBytes width x.toNat))
  else .error (.exception "TypeError" "bad number")

/-- `Builder.Slot`. -/
def slot (i : ℕ) : Except PyError Writer :=
  if w.nested = false then .error (.exception "IsNotNestedError" "")
  else if i < w.vtable.length then .ok { w with vtable := w.vtable.set i w.bytes.length }
  else .error .indexError

def createByteVector (x : List UInt8) : Except PyError (ℕ × Writer) := do
  if w.nested then throw (.exception "IsNestedError" "")
  let w ← ((w.prep 4 x.length).write x).place 4 x.length
  return (w.bytes.length, w)

def startObject (numFields : ℕ) : Except PyError Writer :=
  if w.nested then .error (.exception "IsNestedError" "")
  else .ok { w with vtable := List.replicate numFields 0, objectEnd := w.bytes.length, nested := true }

/-- `Builder.PrependUOffsetTRelative`. -/
def prependRelative (off : ℕ) : Except PyError Writer :=
  let w := w.prep 4 0
  if off ≤ w.bytes.length then w.place 4 (w.bytes.length - off + 4)
  else .error (.exception "OffsetArithmeticError" "")

def prependOffsetSlot (i x default : ℕ) : Except PyError Writer :=
  if x ≠ default ∨ w.forced then do
    let w ← w.prependRelative x
    w.slot i
  else .ok w

/-- `Builder.PrependSlot` of an unsigned number. -/
def prependSlot (width i : ℕ) (x default : ℤ) : Except PyError Writer :=
  if x ≠ default ∨ w.forced then do
    let w ← (w.prep width 0).place width x
    w.slot i
  else .ok w

/-- The numbers of a vtable: its size, the size of the table, and where in the table each slot is. -/
def vtableOf (objectOffset : ℕ) : List ℕ :=
  let slots := w.vtable.rdropWhile (· = 0)
  2 * (slots.length + 2) :: (objectOffset - w.objectEnd) :: slots.map fun o => if o = 0 then 0 else objectOffset - o

/-- `Builder.EndObject` for the first table of a buffer. -/
def endObject : Except PyError (ℕ × Writer) :=
  if w.nested = false then .error (.exception "IsNotNestedError" "")
  else
    let w := w.prep 4 0
    let objectOffset := w.bytes.length + 4
    let numbers := w.vtableOf objectOffset
    if numbers.all (· < 2 ^ 16) then
      let w := (w.write (littleBytes 4 (2 * numbers.length))).write (numbers.flatMap (littleBytes 2))
      .ok (objectOffset, { w with nested := false })
    else .error (.exception "TypeError" "bad number")

def finish (rootTable : ℕ) : Except PyError Writer := do
  if w.nested then throw (.exception "IsNestedError" "")
  let w ← (w.prep w.minAlign 4).prependRelative rootTable
  return { w with finished := true }

def output : Except PyError (List UInt8) :=
  if w.finished then .ok w.bytes else .error (.exception "BuilderNotFinishedError" "")

end Writer

/-- The unsigned number of some width at a position. -/
def readAt (width : ℕ) (buf : List UInt8) (pos : ℕ) : Except PyError ℕ :=
  if pos + width ≤ buf.length then .ok (littleValue (slice buf pos width)) else .error .structError

/-- The binary format. -/
def wire : Package where
  Builder := Writer
  builder _ := {
    bytes := [], minAlign := 1, forced := false, vtable := [], objectEnd := 0, nested := false, finished := false }
  forceDefaults forced w := { w with forced }
  createByteVector x w := w.createByteVector x
  startObject numFields w := w.startObject numFields
  prependUOffsetTRelativeSlot i x default w := w.prependOffsetSlot i x default
  prependUint64Slot i x default w := w.prependSlot 8 i x default
  prependUint32Slot i x default w := w.prependSlot 4 i x default
  endObject w := w.endObject
  finish rootTable w := w.finish rootTable
  output w := w.output
  get flags buf pos :=
    match flags with
    | .int8 => (readAt 1 buf pos).map fun n : ℕ => if n < 128 then (n : ℤ) else n - 256
    | .uint32 => (readAt 4 buf pos).map fun n : ℕ => (n : ℤ)
    | .uint64 => (readAt 8 buf pos).map fun n : ℕ => (n : ℤ)
    | .uoffset => (readAt 4 buf pos).map fun n : ℕ => (n : ℤ)
  offset buf pos vtableOffset := do
    let back ← readAt 4 buf pos
    -- the offset to the vtable is signed
    let vtable : ℤ := if back < 2 ^ 31 then pos - back else pos - (back - 2 ^ 32)
    if vtable < 0 then throw (.exception "TypeError" "bad number")
    let vtableEnd ← readAt 2 buf vtable.toNat
    if vtableOffset < vtableEnd then readAt 2 buf (vtable.toNat + vtableOffset) else return 0
  vectorLen buf pos off := do
    let x ← readAt 4 buf (off + pos)
    readAt 4 buf (off + pos + x)
  vector buf pos off := do
    let x ← readAt 4 buf (off + pos)
    return off + pos + x + 4

/-- The block begins at an offset from the end of the buffer. -/
def Placed (buf : List UInt8) (off : ℕ) (block : List UInt8) : Prop :=
  ∃ pre post, buf = pre ++ (block ++ post) ∧ block.length + post.length = off

section Placed
variable {buf block block' : List UInt8} {off width n : ℕ}

/-- A block in front of a buffer is placed at its start. -/
lemma placed_head (block buf : List UInt8) : Placed (block ++ buf) (block.length + buf.length) block :=
  ⟨[], buf, rfl, rfl⟩

/-- What is written in front moves nothing. -/
lemma Placed.prepend (placed : Placed buf off block) (more : List UInt8) : Placed (more ++ buf) off block := by
  obtain ⟨pre, post, rfl, length⟩ := placed
  exact ⟨more ++ pre, post, (List.append_assoc ..).symm, length⟩

/-- The front part of a placed block is placed at its start. -/
lemma Placed.left (placed : Placed buf off (block ++ block')) : Placed buf off block := by
  obtain ⟨pre, post, rfl, length⟩ := placed
  refine ⟨pre, block' ++ post, by rw [List.append_assoc], ?_⟩
  rw [← length, List.length_append, List.length_append, Nat.add_assoc]

/-- The rest of a placed block is placed behind its front part. -/
lemma Placed.right (placed : Placed buf off (block ++ block')) : Placed buf (off - block.length) block' := by
  obtain ⟨pre, post, rfl, length⟩ := placed
  refine ⟨pre ++ block, post, by simp only [List.append_assoc], ?_⟩
  rw [← length, List.length_append]
  omega

/-- A placed block lies in the buffer. -/
lemma Placed.le (placed : Placed buf off block) : block.length ≤ off ∧ off ≤ buf.length := by
  obtain ⟨pre, post, rfl, length⟩ := placed
  rw [List.length_append, List.length_append]
  omega

/-- Each of its bytes is placed. -/
lemma Placed.byte {i : ℕ} {byte : UInt8} (placed : Placed buf off block) (found : block[i]? = some byte) :
    Placed buf (off - i) [byte] := by
  obtain ⟨lt, rfl⟩ := List.getElem?_eq_some_iff.1 found
  have split : block = block.take i ++ ([block[i]] ++ block.drop (i + 1)) := by
    rw [List.singleton_append, List.getElem_cons_drop, List.take_append_drop]
  rw [split] at placed
  have rest := placed.right.left
  rwa [List.length_take, Nat.min_eq_left lt.le] at rest

/-- A block is read from the position where it begins. -/
lemma Placed.readAt (placed : Placed buf off block) :
    readAt block.length buf (buf.length - off) = .ok (littleValue block) := by
  obtain ⟨pre, post, rfl, length⟩ := placed
  have start : (pre ++ (block ++ post)).length - off = pre.length := by
    rw [List.length_append, List.length_append]
    omega
  rw [FlatBuffers.readAt, start, if_pos, slice, List.drop_left, List.take_left]
  rw [List.length_append, List.length_append]
  omega

/-- A number that is placed is read. -/
lemma Placed.readNumber (placed : Placed buf off (littleBytes width n)) (fits : n < 256 ^ width) :
    FlatBuffers.readAt width buf (buf.length - off) = .ok n := by
  have read := placed.readAt
  rwa [length_littleBytes, littleValue_littleBytes fits] at read

end Placed

/-- A vector: its length and its bytes. -/
def vectorBlock (data : List UInt8) : List UInt8 := littleBytes 4 data.length ++ data

/-- A field is at an offset from the end of the buffer. -/
def FieldAt (buf : List UInt8) (off : ℕ) : Field → Prop
  | .uint32 n => 0 ≤ n ∧ n < 2 ^ 32 ∧ Placed buf off (littleBytes 4 n.toNat)
  | .uint64 n => 0 ≤ n ∧ n < 2 ^ 64 ∧ Placed buf off (littleBytes 8 n.toNat)
  | .bytes data =>
    ∃ vec, vec < off ∧ off - vec < 2 ^ 32 ∧ data.length < 2 ^ 16 ∧ Placed buf off (littleBytes 4 (off - vec)) ∧
      Placed buf vec (vectorBlock data)

/-- A vtable and its table, which is at an offset from the end of the buffer. -/
structure Laid (buf : List UInt8) (table vtableEnd : ℕ) (fields : List (ℕ × Field)) : Prop where
  small : vtableEnd < 2 ^ 16
  back : Placed buf table (littleBytes 4 vtableEnd)
  size : Placed buf (table + vtableEnd) (littleBytes 2 vtableEnd)
  slots : ∀ slot field, (slot, field) ∈ fields → ∃ off, 4 + 2 * slot < vtableEnd ∧ off < table ∧
    table - off < 2 ^ 16 ∧ Placed buf (table + vtableEnd - (4 + 2 * slot)) (littleBytes 2 (table - off)) ∧
      FieldAt buf off field

section Reading
variable {buf : List UInt8} {off table vtableEnd : ℕ} {fields : List (ℕ × Field)} {field : Field}

/-- Offsets count from the end, so a field stays where it was. -/
lemma FieldAt.prepend (there : FieldAt buf off field) (more : List UInt8) : FieldAt (more ++ buf) off field := by
  cases field with
  | uint32 n => exact ⟨there.1, there.2.1, there.2.2.prepend more⟩
  | uint64 n => exact ⟨there.1, there.2.1, there.2.2.prepend more⟩
  | bytes data =>
    obtain ⟨vec, before, near, short, placed, vector⟩ := there
    exact ⟨vec, before, near, short, placed.prepend more, vector.prepend more⟩

/-- A field lies in the buffer. -/
lemma FieldAt.le (there : FieldAt buf off field) : off ≤ buf.length := by
  cases field with
  | uint32 n => exact there.2.2.le.2
  | uint64 n => exact there.2.2.le.2
  | bytes data =>
    obtain ⟨vec, -, -, -, placed, -⟩ := there
    exact placed.le.2

/-- A table that is laid out stays so. -/
lemma Laid.prepend (laid : Laid buf table vtableEnd fields) (more : List UInt8) :
    Laid (more ++ buf) table vtableEnd fields where
  small := laid.small
  back := laid.back.prepend more
  size := laid.size.prepend more
  slots slot field mem := by
    obtain ⟨off, inside, before, near, placed, there⟩ := laid.slots slot field mem
    exact ⟨off, inside, before, near, placed.prepend more, there.prepend more⟩

section Numbers
variable {pos n : ℕ}

/-- An unsigned number. -/
lemma wire_unsigned {flags : Number} {width : ℕ}
    (unsigned : wire.get flags buf pos = (readAt width buf pos).map fun n : ℕ => (n : ℤ))
    (read : readAt width buf pos = .ok n) : wire.get flags buf pos = .ok n := by
  rw [unsigned, read]
  rfl

/-- A byte is read with its sign. -/
lemma wire_int8 {byte : UInt8} (read : readAt 1 buf pos = .ok byte.toNat) :
    wire.get .int8 buf pos = .ok (int8 byte) := by
  show (readAt 1 buf pos).map (fun n : ℕ => if n < 128 then (n : ℤ) else n - 256) = _
  rw [read]
  rfl

end Numbers

/-- A field in a table is read. -/
lemma FieldAt.reads (there : FieldAt buf off field) (before : off < table) (le : table ≤ buf.length) :
    Reads wire buf (buf.length - table) (table - off) field := by
  have here : table - off + (buf.length - table) = buf.length - off := by omega
  cases field with
  | uint32 n =>
    obtain ⟨nonneg, small, placed⟩ := there
    have fits : n.toNat < 256 ^ 4 := by omega
    have read : wire.get .uint32 buf _ = .ok _ := wire_unsigned rfl (placed.readNumber fits)
    rwa [← here, Int.toNat_of_nonneg nonneg] at read
  | uint64 n =>
    obtain ⟨nonneg, small, placed⟩ := there
    have fits : n.toNat < 256 ^ 8 := by omega
    have read : wire.get .uint64 buf _ = .ok _ := wire_unsigned rfl (placed.readNumber fits)
    rwa [← here, Int.toNat_of_nonneg nonneg] at read
  | bytes data =>
    obtain ⟨vec, earlier, near, short, placed, vector⟩ := there
    have pointer : readAt 4 buf (table - off + (buf.length - table)) = .ok (off - vec) := by
      rw [here]
      exact placed.readNumber near
    have target : table - off + (buf.length - table) + (off - vec) = buf.length - vec := by omega
    have block : 4 ≤ vec := by
      have le := vector.le.1
      rw [vectorBlock, List.length_append, length_littleBytes] at le
      omega
    refine ⟨?_, table - off + (buf.length - table) + (off - vec) + 4, ?_, fun i byte found => ?_⟩
    · show (readAt 4 buf (table - off + (buf.length - table)) >>= fun x =>
        readAt 4 buf (table - off + (buf.length - table) + x)) = _
      rw [pointer]
      show readAt 4 buf (table - off + (buf.length - table) + (off - vec)) = _
      rw [target]
      exact vector.left.readNumber (short.trans (by decide))
    · show (readAt 4 buf (table - off + (buf.length - table)) >>= fun x => _) = _
      rw [pointer]
      rfl
    · have body := vector.right
      rw [length_littleBytes] at body
      have single := (body.byte found).readAt
      have inside := (body.byte found).le.1
      have place : table - off + (buf.length - table) + (off - vec) + 4 + i = buf.length - (vec - 4 - i) := by
        have whole := vector.le.2
        rw [List.length_singleton] at inside
        omega
      rw [place]
      exact wire_int8 single

/-- The vtable leads to each slot. -/
lemma Laid.offset {slot : ℕ} (laid : Laid buf table vtableEnd fields) (mem : (slot, field) ∈ fields) :
    ∃ off, wire.offset buf (buf.length - table) (4 + 2 * slot) = .ok off ∧ off ≠ 0 ∧
      Reads wire buf (buf.length - table) off field := by
  obtain ⟨off, inside, before, near, placed, there⟩ := laid.slots slot field mem
  have small := laid.small
  have fits := laid.size.le.2
  have back : readAt 4 buf (buf.length - table) = .ok vtableEnd := laid.back.readNumber (small.trans (by decide))
  have size : readAt 2 buf (buf.length - (table + vtableEnd)) = .ok vtableEnd := laid.size.readNumber small
  have entry : readAt 2 buf (buf.length - (table + vtableEnd) + (4 + 2 * slot)) = .ok (table - off) := by
    have place : buf.length - (table + vtableEnd) + (4 + 2 * slot) =
        buf.length - (table + vtableEnd - (4 + 2 * slot)) := by omega
    rw [place]
    exact placed.readNumber near
  refine ⟨table - off, ?_, by omega, there.reads before (by omega)⟩
  have start : ((buf.length - table : ℕ) : ℤ) - vtableEnd = (buf.length - (table + vtableEnd) : ℕ) := by omega
  have signed : (if vtableEnd < 2 ^ 31 then ((buf.length - table : ℕ) : ℤ) - vtableEnd
      else (buf.length - table : ℕ) - (vtableEnd - 2 ^ 32)) = (buf.length - (table + vtableEnd) : ℕ) := by
    rw [if_pos (small.trans (by decide)), start]
  show (readAt 4 buf (buf.length - table) >>= fun back => _) = _
  rw [back]
  show ((if (if vtableEnd < 2 ^ 31 then ((buf.length - table : ℕ) : ℤ) - vtableEnd
      else (buf.length - table : ℕ) - (vtableEnd - 2 ^ 32)) < 0 then _ else _) : Except PyError ℕ) = _
  rw [signed, if_neg (by omega), Int.toNat_natCast]
  show (readAt 2 buf (buf.length - (table + vtableEnd)) >>= fun vtableEnd => _) = _
  rw [size]
  show (if 4 + 2 * slot < vtableEnd then _ else _) = _
  rw [if_pos inside, entry]

end Reading

/-- A builder with a vector. -/
structure VectorDraft (w : Writer) (forced : Bool) (data : List UInt8) (off : ℕ) : Prop where
  forced_eq : w.forced = forced
  idle : w.nested = false
  aligned : w.minAlign ≤ 8
  short : data.length < 2 ^ 16
  placed : Placed w.bytes off (vectorBlock data)
  size : w.bytes.length < 2 ^ 17

/-- A builder in a table. -/
structure TableDraft (w : Writer) (forced : Bool) (data : List UInt8) (off numFields : ℕ) (fields : List (ℕ × Field)) :
    Prop where
  forced_eq : w.forced = forced
  nested : w.nested = true
  aligned : w.minAlign ≤ 8
  short : data.length < 2 ^ 16
  placed : Placed w.bytes off (vectorBlock data)
  slots : w.vtable.length = numFields
  few : numFields ≤ 2 ^ 8
  distinct : (fields.map Prod.fst).Nodup
  below : ∀ slot ∈ fields.map Prod.fst, slot < numFields
  before : off ≤ w.objectEnd
  start : w.objectEnd < 2 ^ 17
  size : w.objectEnd ≤ w.bytes.length ∧ w.bytes.length ≤ w.objectEnd + 16 * fields.length
  entries : ∀ o ∈ w.vtable, o = 0 ∨ (w.objectEnd < o ∧ o ≤ w.bytes.length)
  written : ∀ slot field, (slot, field) ∈ fields →
    ∃ o, w.vtable[slot]? = some o ∧ w.objectEnd < o ∧ FieldAt w.bytes o field

/-- A builder of the binary format has been told a draft. -/
def Drafts (w : Writer) : Draft → Prop
  | .empty forced => w.bytes = [] ∧ w.forced = forced ∧ w.nested = false ∧ w.minAlign ≤ 8
  | .vector forced data off => VectorDraft w forced data off
  | .table forced data off numFields fields => TableDraft w forced data off numFields fields
  | .closed table fields =>
    w.nested = false ∧ w.minAlign ≤ 8 ∧ w.bytes.length < 2 ^ 20 ∧ ∃ vtableEnd, Laid w.bytes table vtableEnd fields
  | .finished fields =>
    w.finished = true ∧ ∃ table vtableEnd,
      Laid w.bytes table vtableEnd fields ∧ readAt 4 w.bytes 0 = .ok (w.bytes.length - table)

section Writing
variable {w w' : Writer} {forced : Bool} {data : List UInt8} {off numFields slot : ℕ} {fields : List (ℕ × Field)}
  {field : Field}

/-- Preparing pads with zeros. -/
lemma prep_bytes (w : Writer) (size additional : ℕ) :
    ∃ pad, pad ≤ size ∧ (w.prep size additional).bytes = List.replicate pad 0 ++ w.bytes ∧
      (w.prep size additional).bytes.length = pad + w.bytes.length := by
  refine ⟨_, (Nat.mod_le ..).trans (Nat.sub_le ..), rfl, ?_⟩
  exact List.length_append.trans (congrArg (· + w.bytes.length) List.length_replicate)

/-- A number that fits is placed. -/
lemma place_of_lt {width : ℕ} {x : ℤ} (nonneg : 0 ≤ x) (fits : x < 256 ^ width) :
    w.place width x = .ok (w.write (littleBytes width x.toNat)) := by
  rw [Writer.place, if_pos ⟨nonneg, fits⟩]

/-- The data is written as a vector. -/
lemma Drafts.createByteVector (draft : Drafts w (.empty forced)) (short : data.length < 2 ^ 16) :
    ∃ off w', w.createByteVector data = .ok (off, w') ∧ Drafts w' (.vector forced data off) := by
  obtain ⟨empty, forced_eq, idle, aligned⟩ := draft
  obtain ⟨pad, le, bytes, -⟩ := prep_bytes w 4 data.length
  have placed : ((w.prep 4 data.length).write data).place 4 data.length =
      .ok (((w.prep 4 data.length).write data).write (littleBytes 4 data.length)) :=
    place_of_lt (Int.natCast_nonneg _) (by omega)
  have written : (((w.prep 4 data.length).write data).write (littleBytes 4 data.length)).bytes =
      vectorBlock data ++ List.replicate pad 0 := by
    show littleBytes 4 data.length ++ (data ++ (w.prep 4 data.length).bytes) = _
    rw [bytes, empty, List.append_nil, ← List.append_assoc]
    rfl
  have length : (vectorBlock data ++ List.replicate pad 0).length = 4 + data.length + pad := by
    rw [vectorBlock, List.length_append, List.length_append, length_littleBytes, List.length_replicate]
  refine ⟨(vectorBlock data ++ List.replicate pad 0).length,
    ((w.prep 4 data.length).write data).write (littleBytes 4 data.length), ?_, ?_⟩
  · rw [Writer.createByteVector, idle, ← written]
    show (((w.prep 4 data.length).write data).place 4 data.length >>= fun w => _) = _
    rw [placed]
    rfl
  · refine ⟨forced_eq, idle, max_le aligned (by decide), short, ?_, ?_⟩
    · rw [written, List.length_append]
      exact placed_head ..
    · rw [written, length]
      omega

/-- A table is begun. -/
lemma Drafts.startObject (draft : Drafts w (.vector forced data off)) (few : numFields ≤ 2 ^ 8) :
    ∃ w', w.startObject numFields = .ok w' ∧ Drafts w' (.table forced data off numFields []) := by
  refine ⟨_, by rw [Writer.startObject, draft.idle]; rfl, ?_⟩
  exact {
    forced_eq := draft.forced_eq
    nested := rfl
    aligned := draft.aligned
    short := draft.short
    placed := draft.placed
    slots := List.length_replicate
    few
    distinct := List.nodup_nil
    below := fun _ mem => absurd mem List.not_mem_nil
    before := draft.placed.le.2
    start := draft.size
    size := ⟨le_rfl, le_rfl⟩
    entries := fun _ mem => .inl (List.eq_of_mem_replicate mem)
    written := fun _ _ mem => absurd mem List.not_mem_nil }

/-- A table has no more fields than slots. -/
lemma TableDraft.length_le (draft : TableDraft w forced data off numFields fields) : fields.length ≤ numFields := by
  have sub : fields.map Prod.fst ⊆ List.range numFields := fun slot mem => List.mem_range.2 (draft.below slot mem)
  have le := (draft.distinct.subperm sub).length_le
  rwa [List.length_map, List.length_range] at le

/-- A field that is put in front of a table, under a new slot. -/
lemma TableDraft.add (draft : TableDraft w forced data off numFields fields) (lt : slot < numFields)
    (new : slot ∉ fields.map Prod.fst) {more : List UInt8} (bytes : w'.bytes = more ++ w.bytes)
    (some_more : 0 < more.length) (few_more : more.length ≤ 16) (vtable : w'.vtable = w.vtable.set slot w'.bytes.length)
    (same : w'.forced = w.forced ∧ w'.nested = w.nested ∧ w'.objectEnd = w.objectEnd) (aligned : w'.minAlign ≤ 8)
    (there : FieldAt w'.bytes w'.bytes.length field) :
    TableDraft w' forced data off numFields ((slot, field) :: fields) := by
  obtain ⟨forced_eq, nested, objectEnd⟩ := same
  have length : w'.bytes.length = more.length + w.bytes.length := by rw [bytes, List.length_append]
  have size := draft.size
  refine {
    forced_eq := forced_eq.trans draft.forced_eq
    nested := nested.trans draft.nested
    aligned
    short := draft.short
    placed := bytes ▸ draft.placed.prepend more
    slots := by rw [vtable, List.length_set, draft.slots]
    few := draft.few
    distinct := List.nodup_cons.2 ⟨new, draft.distinct⟩
    below := List.forall_mem_cons.2 ⟨lt, draft.below⟩
    before := objectEnd ▸ draft.before
    start := objectEnd ▸ draft.start
    size := by
      rw [objectEnd, length, List.length_cons]
      omega
    entries := fun o mem => ?_
    written := fun slot' field' mem => ?_ }
  · rw [vtable] at mem
    rw [objectEnd, length]
    obtain old | rfl := List.mem_or_eq_of_mem_set mem
    · exact (draft.entries o old).imp id fun inside => ⟨inside.1, inside.2.trans (by omega)⟩
    · exact .inr ⟨by omega, length.le⟩
  · rw [vtable, objectEnd]
    obtain same | earlier := List.mem_cons.1 mem
    · cases same
      refine ⟨w'.bytes.length, List.getElem?_set_self (draft.slots ▸ lt), by omega, there⟩
    · obtain ⟨o, entry, inside, found⟩ := draft.written slot' field' earlier
      have other : slot ≠ slot' := fun eq => new (eq ▸ List.mem_map_of_mem earlier)
      exact ⟨o, by rw [List.getElem?_set_ne other, entry], inside, bytes ▸ found.prepend more⟩

/-- A slot of the table notes where its field is. -/
lemma slot_ok (lt : slot < w.vtable.length) (nested : w.nested = true) :
    w.slot slot = .ok { w with vtable := w.vtable.set slot w.bytes.length } := by
  rw [Writer.slot, nested, if_neg (by decide), if_pos lt]

/-- A block of at most eight bytes that is aligned, written, and put in a slot. -/
lemma TableDraft.write (draft : TableDraft w forced data off numFields fields) (lt : slot < numFields)
    (new : slot ∉ fields.map Prod.fst) {width : ℕ} {block : List UInt8} (length : block.length = width)
    (pos : 0 < width) (le : width ≤ 8)
    (there : FieldAt ((w.prep width 0).write block).bytes ((w.prep width 0).write block).bytes.length field) :
    ∃ w', ((w.prep width 0).write block).slot slot = .ok w' ∧
      TableDraft w' forced data off numFields ((slot, field) :: fields) := by
  obtain ⟨pad, few, bytes, -⟩ := prep_bytes w width 0
  have written : ((w.prep width 0).write block).bytes = (block ++ List.replicate pad 0) ++ w.bytes := by
    rw [List.append_assoc, ← bytes]
    rfl
  have more : (block ++ List.replicate pad (0 : UInt8)).length = width + pad := by
    rw [List.length_append, length, List.length_replicate]
  refine ⟨_, slot_ok (lt.trans_eq draft.slots.symm) draft.nested, ?_⟩
  refine draft.add lt new written ?_ ?_ rfl ⟨rfl, rfl, rfl⟩ (max_le draft.aligned le) there
  · omega
  · omega

/-- A number is written and noted in its slot, unless it is the default. -/
lemma TableDraft.prependSlot {width : ℕ} {x default : ℤ} (draft : TableDraft w forced data off numFields fields)
    (lt : slot < numFields) (new : slot ∉ fields.map Prod.fst) (put : forced = true ∨ x ≠ default)
    (nonneg : 0 ≤ x) (fits : x < 256 ^ width) (pos : 0 < width) (le : width ≤ 8)
    (there : ∀ buf, FieldAt (littleBytes width x.toNat ++ buf) (littleBytes width x.toNat ++ buf).length field) :
    ∃ w', w.prependSlot width slot x default = .ok w' ∧
      TableDraft w' forced data off numFields ((slot, field) :: fields) := by
  have slotted : x ≠ default ∨ w.forced = true := put.symm.imp id draft.forced_eq.trans
  obtain ⟨w', set, next⟩ := draft.write lt new (length_littleBytes width x.toNat) pos le (there _)
  refine ⟨w', ?_, next⟩
  rw [Writer.prependSlot, if_pos slotted, place_of_lt nonneg fits]
  exact set

/-- An offset is counted from the end of the four bytes that hold it. -/
lemma prependRelative_ok {target : ℕ} (le : target ≤ w.bytes.length) (small : w.bytes.length < 2 ^ 21) :
    w.prependRelative target =
      .ok ((w.prep 4 0).write (littleBytes 4 ((w.prep 4 0).bytes.length + 4 - target))) := by
  obtain ⟨pad, few, bytes, length⟩ := prep_bytes w 4 0
  have distance : (((w.prep 4 0).bytes.length : ℤ) - target + 4).toNat = (w.prep 4 0).bytes.length + 4 - target := by
    omega
  rw [Writer.prependRelative, if_pos (by omega), place_of_lt (by omega) (by omega), distance]

/-- The offset of the data is written and noted in its slot, unless it is the default. -/
lemma TableDraft.prependOffsetSlot {default : ℕ} (draft : TableDraft w forced data off numFields fields)
    (lt : slot < numFields) (new : slot ∉ fields.map Prod.fst) (put : forced = true ∨ off ≠ default) :
    ∃ w', w.prependOffsetSlot slot off default = .ok w' ∧
      TableDraft w' forced data off numFields ((slot, .bytes data) :: fields) := by
  have slotted : off ≠ default ∨ w.forced = true := put.symm.imp id draft.forced_eq.trans
  obtain ⟨pad, few, bytes, length⟩ := prep_bytes w 4 0
  have before := draft.before
  have start := draft.start
  have size := draft.size
  have count := draft.length_le
  have few' := draft.few
  have head := placed_head (littleBytes 4 ((w.prep 4 0).bytes.length + 4 - off)) (w.prep 4 0).bytes
  have whole : (littleBytes 4 ((w.prep 4 0).bytes.length + 4 - off) ++ (w.prep 4 0).bytes).length =
      (w.prep 4 0).bytes.length + 4 := by rw [List.length_append, length_littleBytes, Nat.add_comm]
  have there : FieldAt (littleBytes 4 ((w.prep 4 0).bytes.length + 4 - off) ++ (w.prep 4 0).bytes)
      (littleBytes 4 ((w.prep 4 0).bytes.length + 4 - off) ++ (w.prep 4 0).bytes).length (.bytes data) := by
    rw [← List.length_append, whole] at head
    rw [whole]
    refine ⟨off, by omega, by omega, draft.short, head, ?_⟩
    rw [bytes]
    exact (draft.placed.prepend _).prepend _
  obtain ⟨w', set, next⟩ := draft.write lt new (length_littleBytes 4 _) (by decide) (by decide) there
  refine ⟨w', ?_, next⟩
  rw [Writer.prependOffsetSlot, if_pos slotted, prependRelative_ok (by omega) (by omega)]
  exact set

/-- The slots of a vtable that are in use are not dropped. -/
lemma getElem?_rdropWhile {xs : List ℕ} {i o : ℕ} (found : xs[i]? = some o) (ne : o ≠ 0) :
    (xs.rdropWhile (· = 0))[i]? = some o := by
  induction xs using List.reverseRecOn with
  | nil => cases found
  | append_singleton xs x ih =>
    by_cases zero : x = 0
    · rw [List.rdropWhile_concat_pos (fun x => decide (x = 0)) _ _ (decide_eq_true zero)]
      refine ih ?_
      obtain before | last := lt_or_ge i xs.length
      · rwa [List.getElem?_append_left before] at found
      · rw [List.getElem?_append_right last, List.getElem?_singleton] at found
        split at found
        · cases found
          exact absurd zero ne
        · cases found
    · rw [List.rdropWhile_concat_neg _ _ _ (by simpa using zero)]
      exact found

/-- Slots take two bytes each. -/
lemma length_flatMap_littleBytes (numbers : List ℕ) :
    (numbers.flatMap (littleBytes 2)).length = 2 * numbers.length := by
  induction numbers with
  | nil => rfl
  | cons n numbers ih =>
    rw [List.flatMap_cons, List.length_append, length_littleBytes, ih, List.length_cons]
    omega

/-- One of the numbers of a vtable. -/
lemma Placed.number {buf : List UInt8} {numbers : List ℕ} {k n : ℕ}
    (placed : Placed buf off (numbers.flatMap (littleBytes 2))) (found : numbers[k]? = some n) :
    Placed buf (off - 2 * k) (littleBytes 2 n) := by
  obtain ⟨lt, rfl⟩ := List.getElem?_eq_some_iff.1 found
  have split : numbers = numbers.take k ++ ([numbers[k]] ++ numbers.drop (k + 1)) := by
    rw [List.singleton_append, List.getElem_cons_drop, List.take_append_drop]
  rw [split, List.flatMap_append, List.flatMap_append, List.flatMap_singleton] at placed
  have rest := placed.right.left
  rwa [length_flatMap_littleBytes, List.length_take, Nat.min_eq_left lt.le] at rest

/-- The numbers of a vtable fit into two bytes each. -/
lemma TableDraft.vtableOf_small (draft : TableDraft w forced data off numFields fields) {objectOffset : ℕ}
    (le : objectOffset ≤ w.bytes.length + 8) : ∀ n ∈ w.vtableOf objectOffset, n < 2 ^ 16 := by
  have count := draft.length_le
  have few := draft.few
  have size := draft.size
  have kept : (w.vtable.rdropWhile (· = 0)).length ≤ numFields :=
    (List.rdropWhile_prefix ..).length_le.trans_eq draft.slots
  rw [Writer.vtableOf]
  refine List.forall_mem_cons.2 ⟨by omega, List.forall_mem_cons.2 ⟨by omega, ?_⟩⟩
  intro n mem
  obtain ⟨o, used, rfl⟩ := List.mem_map.1 mem
  split
  · decide
  · have inside := draft.entries o ((List.rdropWhile_prefix ..).subset used)
    omega

/-- The vtable of a draft, its table behind it. -/
lemma TableDraft.laid (draft : TableDraft w forced data off numFields fields) {objectOffset : ℕ}
    (eq : objectOffset = (w.prep 4 0).bytes.length + 4) :
    Laid ((w.vtableOf objectOffset).flatMap (littleBytes 2) ++
        (littleBytes 4 (2 * (w.vtableOf objectOffset).length) ++ (w.prep 4 0).bytes))
      objectOffset (2 * (w.vtableOf objectOffset).length) fields := by
  obtain ⟨pad, few, bytes, length⟩ := prep_bytes w 4 0
  have small : ∀ n ∈ w.vtableOf objectOffset, n < 2 ^ 16 := draft.vtableOf_small (by omega)
  have back := placed_head (littleBytes 4 (2 * (w.vtableOf objectOffset).length)) (w.prep 4 0).bytes
  have vtable := placed_head ((w.vtableOf objectOffset).flatMap (littleBytes 2))
    (littleBytes 4 (2 * (w.vtableOf objectOffset).length) ++ (w.prep 4 0).bytes)
  have start : ((w.vtableOf objectOffset).flatMap (littleBytes 2)).length +
      (littleBytes 4 (2 * (w.vtableOf objectOffset).length) ++ (w.prep 4 0).bytes).length =
        objectOffset + 2 * (w.vtableOf objectOffset).length := by
    rw [length_flatMap_littleBytes, List.length_append, length_littleBytes]
    omega
  rw [start] at vtable
  rw [length_littleBytes, Nat.add_comm, ← eq] at back
  have first : (w.vtableOf objectOffset)[0]? = some (2 * (w.vtableOf objectOffset).length) := by
    simp [Writer.vtableOf]
  refine {
    small := small _ (List.mem_of_getElem? first)
    back := back.prepend _
    size := vtable.number first
    slots := fun slot field mem => ?_ }
  obtain ⟨o, entry, inside, there⟩ := draft.written slot field mem
  have used : o ≠ 0 := by omega
  have number : (w.vtableOf objectOffset)[slot + 2]? = some (objectOffset - o) := by
    rw [Writer.vtableOf]
    show ((w.vtable.rdropWhile (· = 0)).map fun o => if o = 0 then 0 else objectOffset - o)[slot]? = _
    rw [List.getElem?_map, getElem?_rdropWhile entry used]
    exact congrArg some (if_neg used)
  have le := there.le
  have place := vtable.number number
  rw [Nat.mul_add, Nat.add_comm (2 * slot)] at place
  obtain ⟨lt, -⟩ := List.getElem?_eq_some_iff.1 number
  refine ⟨o, by omega, by omega, small _ (List.mem_of_getElem? number), place, ?_⟩
  rw [bytes]
  exact ((there.prepend _).prepend _).prepend _

/-- The table is closed with its slots. -/
lemma TableDraft.endObject (draft : TableDraft w forced data off numFields fields) :
    ∃ table w', w.endObject = .ok (table, w') ∧ Drafts w' (.closed table fields) := by
  obtain ⟨pad, few, bytes, length⟩ := prep_bytes w 4 0
  obtain ⟨table, eq⟩ : ∃ table, table = (w.prep 4 0).bytes.length + 4 := ⟨_, rfl⟩
  have small : ∀ n ∈ w.vtableOf table, n < 2 ^ 16 := draft.vtableOf_small (by omega)
  have all : (w.vtableOf table).all (· < 2 ^ 16) = true := List.all_eq_true.2 fun n mem => decide_eq_true (small n mem)
  have start := draft.start
  have size := draft.size
  have count := draft.length_le
  have few' := draft.few
  have laid := draft.laid eq
  have end_small := laid.small
  refine ⟨table, { ((w.prep 4 0).write (littleBytes 4 (2 * (w.vtableOf table).length))).write
    ((w.vtableOf table).flatMap (littleBytes 2)) with nested := false }, ?_, rfl, max_le draft.aligned (by decide), ?_,
    _, laid⟩
  · rw [Writer.endObject, draft.nested, if_neg (by decide)]
    subst eq
    exact if_pos all
  · show ((w.vtableOf table).flatMap (littleBytes 2) ++
      (littleBytes 4 (2 * (w.vtableOf table).length) ++ (w.prep 4 0).bytes)).length < 2 ^ 20
    rw [List.length_append, length_flatMap_littleBytes, List.length_append, length_littleBytes]
    omega

/-- The buffer is finished with the offset of its table. -/
lemma Drafts.finish {table : ℕ} (draft : Drafts w (.closed table fields)) :
    ∃ w', w.finish table = .ok w' ∧ Drafts w' (.finished fields) := by
  obtain ⟨idle, aligned, small, vtableEnd, laid⟩ := draft
  obtain ⟨pad, few, bytes, length⟩ := prep_bytes w w.minAlign 4
  obtain ⟨pad', few', bytes', length'⟩ := prep_bytes (w.prep w.minAlign 4) 4 0
  have inside := laid.back.le.2
  obtain ⟨target, eq⟩ : ∃ target, target = ((w.prep w.minAlign 4).prep 4 0).bytes.length + 4 - table := ⟨_, rfl⟩
  have pointed : (w.prep w.minAlign 4).prependRelative table =
      .ok (((w.prep w.minAlign 4).prep 4 0).write (littleBytes 4 target)) := by
    rw [eq]
    exact prependRelative_ok (by omega) (by omega)
  have whole : (littleBytes 4 target ++ ((w.prep w.minAlign 4).prep 4 0).bytes).length = target + table := by
    rw [List.length_append, length_littleBytes]
    omega
  refine ⟨{ ((w.prep w.minAlign 4).prep 4 0).write (littleBytes 4 target) with finished := true }, ?_, rfl, table,
    vtableEnd, ?_, ?_⟩
  · rw [Writer.finish, idle]
    show ((w.prep w.minAlign 4).prependRelative table >>= fun w => _) = _
    rw [pointed]
    rfl
  · show Laid (littleBytes 4 target ++ ((w.prep w.minAlign 4).prep 4 0).bytes) table vtableEnd fields
    rw [bytes', bytes]
    exact ((laid.prepend _).prepend _).prepend _
  · show readAt 4 (littleBytes 4 target ++ ((w.prep w.minAlign 4).prep 4 0).bytes) 0 =
      .ok ((littleBytes 4 target ++ ((w.prep w.minAlign 4).prep 4 0).bytes).length - table)
    have read := (placed_head (littleBytes 4 target) ((w.prep w.minAlign 4).prep 4 0).bytes).readNumber
      (show target < 256 ^ 4 by omega)
    rw [← List.length_append, Nat.sub_self] at read
    rw [read, whole, Nat.add_sub_cancel]

end Writing

/-- The binary format does what is documented. -/
theorem wire_documented : Documented wire Drafts where
  builder _ := ⟨rfl, rfl, rfl, (by decide : 1 ≤ 8)⟩
  forceDefaults _ draft := ⟨draft.1, rfl, draft.2.2.1, draft.2.2.2⟩
  createByteVector := Drafts.createByteVector
  startObject := Drafts.startObject
  offsetSlot _ := TableDraft.prependOffsetSlot
  uint64Slot _ draft lt new put nonneg fits := draft.prependSlot lt new put nonneg fits (by decide) (by decide)
    fun _ => ⟨nonneg, fits, List.length_append ▸ placed_head ..⟩
  uint32Slot _ draft lt new put nonneg fits := draft.prependSlot lt new put nonneg fits (by decide) (by decide)
    fun _ => ⟨nonneg, fits, List.length_append ▸ placed_head ..⟩
  endObject := TableDraft.endObject
  finish := Drafts.finish
  output := by
    rintro w fields ⟨finished, table, vtableEnd, laid, root⟩
    refine ⟨w.bytes, w.bytes.length - table, if_pos finished, wire_unsigned rfl root, ?_⟩
    exact fun slot field mem => laid.offset mem

end FlatBuffers
