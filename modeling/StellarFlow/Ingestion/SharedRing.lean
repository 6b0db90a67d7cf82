import StellarFlow.Lib.Memory
import StellarFlow.Lib.Python

/-!
# The shared-memory ring buffer

Model of `SharedMemoryRingBuffer` in `src/ingestion/stream_buffer.py`: a metadata block with the write
position, the read position and the capacity, and a data area in which each frame is a four-byte length
followed by the payload. The payload wraps at the end of the area; the length prefix does not, and
`struct.pack_into` raises where fewer than four bytes are left.

`Holds ring queue` relates a ring to the queue of payloads in it, and the lemmas `Holds.write_full`,
`Holds.write_ok`, `Holds.write_raises`, `Holds.read_empty` and `Holds.read_cons` say what each call does
to that queue.
-/

namespace StellarFlow.Ingestion
open Memory

/-- `_METADATA_SIZE`. -/
def metadataSize : ℕ := 16

/-- `_WRITE_POS_OFFSET`. -/
def writePosOffset : ℕ := 0

/-- `_READ_POS_OFFSET`. -/
def readPosOffset : ℕ := 4

/-- `_CAPACITY_OFFSET`. -/
def capacityOffset : ℕ := 8

/-- `SharedMemoryRingBuffer` over a segment of exactly the size it asks for; `order` is the native byte
order. -/
structure SharedRing where
  order : ByteOrder
  capacity : ℕ
  buf : List UInt8
  exact : buf.length = metadataSize + capacity

namespace SharedRing

/-- `struct.pack_into("I", buf, off, n)`. -/
def packInto (ring : SharedRing) (off n : ℕ) : Except PyError SharedRing :=
  if off + 4 ≤ ring.buf.length ∧ n < 256 ^ 4 then
    .ok { ring with
      buf := store ring.buf off (pack ring.order 4 n)
      exact := (length_store ..).trans ring.exact }
  else .error .structError

/-- `struct.unpack_from("I", buf, off)`. -/
def unpackFrom (ring : SharedRing) (off : ℕ) : Except PyError ℕ :=
  if off + 4 ≤ ring.buf.length then .ok (unpack ring.order (slice ring.buf off 4))
  else .error .structError

/-- `self._buf[off : off + len(block)] = block`; the slice must be as long as the block. -/
def setSlice (ring : SharedRing) (off : ℕ) (block : List UInt8) : Except PyError SharedRing :=
  if off + block.length ≤ ring.buf.length then
    .ok { ring with
      buf := store ring.buf off block
      exact := (length_store ..).trans ring.exact }
  else .error (.valueError "memoryview assignment: lvalue and rvalue have different structures")

/-- `SharedMemoryRingBuffer.__init__` with `create=True`; a new segment is all zeros. -/
def init (order : ByteOrder) (size : ℕ) : Except PyError SharedRing := do
  let ring : SharedRing :=
    { order, capacity := size, buf := List.replicate (metadataSize + size) 0
      exact := List.length_replicate }
  let ring ← ring.packInto writePosOffset 0
  let ring ← ring.packInto readPosOffset 0
  ring.packInto capacityOffset size

/-- `SharedMemoryRingBuffer._get_positions`. -/
def getPositions (ring : SharedRing) : Except PyError (ℕ × ℕ) := do
  let writePos ← ring.unpackFrom writePosOffset
  let readPos ← ring.unpackFrom readPosOffset
  return (writePos, readPos)

/-- `SharedMemoryRingBuffer._available_space`. -/
def availableSpace (ring : SharedRing) (writePos readPos : ℕ) : ℤ :=
  if writePos ≥ readPos then ring.capacity - ((writePos : ℤ) - readPos) - 1
  else (readPos : ℤ) - writePos - 1

/-- The payload part of `write`, split where it wraps. `remaining` is not negative, since the length
prefix has been stored before the end of the area. -/
def writePayload (ring : SharedRing) (writePos : ℕ) (data : List UInt8) : Except PyError SharedRing := do
  let payloadStart := metadataSize + writePos + 4
  let remaining := ring.capacity - (writePos + 4)
  if remaining ≥ data.length then ring.setSlice payloadStart data
  else
    let ring ← ring.setSlice payloadStart (data.take remaining)
    ring.setSlice metadataSize (data.drop remaining)

/-- The part of `write` after the space check. -/
def writeFrame (ring : SharedRing) (writePos : ℕ) (data : List UInt8) : Except PyError SharedRing := do
  let ring ← ring.packInto (metadataSize + writePos) data.length
  let ring ← ring.writePayload writePos data
  ring.packInto writePosOffset ((writePos + (data.length + 4)) % ring.capacity)

/-- `SharedMemoryRingBuffer.write`: the answer and the ring after it. -/
def write (ring : SharedRing) (data : List UInt8) : Except PyError (Bool × SharedRing) := do
  let (writePos, readPos) ← ring.getPositions
  if ((data.length + 4 : ℕ) : ℤ) > ring.availableSpace writePos readPos then return (false, ring)
  else
    let ring ← ring.writeFrame writePos data
    return (true, ring)

/-- The payload part of `read`, joined where it wraps. -/
def readPayload (ring : SharedRing) (readPos payloadLen : ℕ) : List UInt8 :=
  let payloadStart := metadataSize + readPos + 4
  let remaining := ring.capacity - (readPos + 4)
  if remaining ≥ payloadLen then slice ring.buf payloadStart payloadLen
  else slice ring.buf payloadStart remaining ++ slice ring.buf metadataSize (payloadLen - remaining)

/-- `SharedMemoryRingBuffer.read`: the payload and the ring after it. -/
def read (ring : SharedRing) : Except PyError (Option (List UInt8) × SharedRing) := do
  let (writePos, readPos) ← ring.getPositions
  if writePos = readPos then return (none, ring)
  else
    let payloadLen ← ring.unpackFrom (metadataSize + readPos)
    let payload := ring.readPayload readPos payloadLen
    let ring ← ring.packInto readPosOffset ((readPos + (4 + payloadLen)) % ring.capacity)
    return (some payload, ring)

/-- The write position in the metadata. -/
def writePos (ring : SharedRing) : ℕ := unpack ring.order (slice ring.buf writePosOffset 4)

/-- The read position in the metadata. -/
def readPos (ring : SharedRing) : ℕ := unpack ring.order (slice ring.buf readPosOffset 4)

/-- The positions can always be read. -/
lemma getPositions_eq (ring : SharedRing) : ring.getPositions = .ok (ring.writePos, ring.readPos) := by
  have len := ring.exact
  have first : writePosOffset + 4 ≤ ring.buf.length := by
    rw [len, writePosOffset, metadataSize]
    omega
  have second : readPosOffset + 4 ≤ ring.buf.length := by
    rw [len, readPosOffset, metadataSize]
    omega
  simp only [getPositions, unpackFrom, if_pos first, if_pos second]
  rfl

/-- The two rings have the same shape. -/
structure Framed (ring ring' : SharedRing) : Prop where
  order : ring'.order = ring.order
  capacity : ring'.capacity = ring.capacity

/-- Storing the payload part of a frame that fits. -/
lemma writePayload_spec {ring : SharedRing} {pos : ℕ} {data : List UInt8} (fits : pos + 4 ≤ ring.capacity)
    (small : data.length + 4 ≤ ring.capacity) :
    ∃ ring', ring.writePayload pos data = .ok ring' ∧ Framed ring ring' ∧
      (∀ off, off + 4 ≤ metadataSize → slice ring'.buf off 4 = slice ring.buf off 4) ∧
      ∀ j, j < ring.capacity → ring'.buf[metadataSize + j]? =
        if pos + 4 ≤ j ∧ j < pos + 4 + data.length then data[j - (pos + 4)]?
        else if j + ring.capacity < pos + 4 + data.length then data[j + ring.capacity - (pos + 4)]?
        else ring.buf[metadataSize + j]? := by
  have len := ring.exact
  simp only [writePayload]
  split
  · -- the payload ends before the data area does
    rename_i straight
    have fits' : metadataSize + pos + 4 + data.length ≤ ring.buf.length := by omega
    rw [setSlice, if_pos fits']
    refine ⟨_, rfl, ⟨rfl, rfl⟩, fun off le => ?_, fun j lt => ?_⟩
    · exact slice_store_of_disjoint fits' (by omega)
    · rw [getElem?_store fits']
      by_cases inside : pos + 4 ≤ j ∧ j < pos + 4 + data.length
      · rw [if_pos (by omega), if_pos inside]
        congr 1
        omega
      · rw [if_neg (by omega), if_neg inside, if_neg (by omega)]
  · -- the payload goes on at the start of the data area
    rename_i wraps
    set remaining := ring.capacity - (pos + 4) with rem
    have lenTake : (data.take remaining).length = remaining := by
      rw [List.length_take]
      omega
    have fits₁ : metadataSize + pos + 4 + (data.take remaining).length ≤ ring.buf.length := by omega
    have fits₂ : metadataSize + (data.drop remaining).length ≤
        (store ring.buf (metadataSize + pos + 4) (data.take remaining)).length := by
      rw [length_store, List.length_drop]
      omega
    rw [setSlice, if_pos fits₁]
    refine ⟨_, if_pos fits₂, ⟨rfl, rfl⟩, fun off le => ?_, fun j lt => ?_⟩
    · rw [slice_store_of_disjoint fits₂ (by omega), slice_store_of_disjoint fits₁ (by omega)]
    · rw [getElem?_store fits₂, getElem?_store fits₁, lenTake, List.length_drop, List.getElem?_drop,
        List.getElem?_take]
      by_cases front : j < data.length - remaining
      · rw [if_pos (by omega), if_neg (by omega), if_pos (by omega)]
        congr 1
        omega
      · rw [if_neg (by omega)]
        by_cases inside : pos + 4 ≤ j
        · rw [if_pos (by omega), if_pos (by omega), if_pos (by omega)]
          congr 1
          omega
        · rw [if_neg (by omega), if_neg (by omega), if_neg (by omega)]

/-- A length that fits is packed. -/
lemma packInto_ok (ring : SharedRing) {off n : ℕ} (fits : off + 4 ≤ metadataSize + ring.capacity)
    (small : n < 256 ^ 4) :
    ∃ ring', ring.packInto off n = .ok ring' ∧ Framed ring ring' ∧
      ring'.buf = store ring.buf off (pack ring.order 4 n) := by
  rw [packInto, if_pos ⟨ring.exact ▸ fits, small⟩]
  exact ⟨_, rfl, ⟨rfl, rfl⟩, rfl⟩

/-- The bytes of a payload in the data area. -/
def frame (order : ByteOrder) (data : List UInt8) : List UInt8 :=
  pack order 4 data.length ++ data

/-- A frame has its prefix and its payload. -/
@[simp] lemma length_frame (order : ByteOrder) (data : List UInt8) :
    (frame order data).length = data.length + 4 := by
  rw [frame, List.length_append, length_pack, Nat.add_comm]

/-- Storing a frame whose length prefix fits: the next cells of the ring are the frame, the others are
as before. -/
lemma writeFrame_spec {ring : SharedRing} {pos : ℕ} {data : List UInt8} (fits : pos + 4 ≤ ring.capacity)
    (room : data.length + 4 < ring.capacity) (small : ring.capacity < 256 ^ 4) :
    ∃ ring', ring.writeFrame pos data = .ok ring' ∧ Framed ring ring' ∧
      ring'.writePos = (pos + (data.length + 4)) % ring.capacity ∧ ring'.readPos = ring.readPos ∧
      ∀ k, k < ring.capacity → ring'.buf[metadataSize + (pos + k) % ring.capacity]? =
        if k < data.length + 4 then (frame ring.order data)[k]?
        else ring.buf[metadataSize + (pos + k) % ring.capacity]? := by
  have len := ring.exact
  have header : metadataSize = 16 := rfl
  obtain ⟨ring₁, stored₁, ⟨order₁, capacity₁⟩, buf₁⟩ :=
    packInto_ok ring (show metadataSize + pos + 4 ≤ metadataSize + ring.capacity by omega)
      (show data.length < 256 ^ 4 by omega)
  have fits₁ : metadataSize + pos + (pack ring.order 4 data.length).length ≤ ring.buf.length := by
    rw [length_pack]
    omega
  obtain ⟨ring₂, stored₂, ⟨order₂, capacity₂⟩, header₂, cells₂⟩ :=
    writePayload_spec (show pos + 4 ≤ ring₁.capacity by omega)
      (show data.length + 4 ≤ ring₁.capacity by omega)
  have lt : (pos + (data.length + 4)) % ring₂.capacity < 256 ^ 4 :=
    (Nat.mod_lt _ (by omega)).trans (by omega)
  obtain ⟨ring₃, stored₃, ⟨order₃, capacity₃⟩, buf₃⟩ :=
    packInto_ok ring₂ (show writePosOffset + 4 ≤ _ by rw [writePosOffset]; omega) lt
  have fits₃ : writePosOffset + (pack ring₂.order 4
      ((pos + (data.length + 4)) % ring₂.capacity)).length ≤ ring₂.buf.length := by
    rw [length_pack, ring₂.exact, writePosOffset]
    omega
  refine ⟨ring₃, ?_, ⟨by rw [order₃, order₂, order₁], by rw [capacity₃, capacity₂, capacity₁]⟩, ?_, ?_, ?_⟩
  · simp only [writeFrame, stored₁, bind, Except.bind, stored₂, stored₃]
  · have back := slice_store_self fits₃
    rw [length_pack] at back
    rw [writePos, buf₃, back, order₃, unpack_pack lt, capacity₂, capacity₁]
  · have apart : slice ring₃.buf readPosOffset 4 = slice ring.buf readPosOffset 4 := by
      rw [buf₃, slice_store_of_disjoint fits₃ (by rw [length_pack, writePosOffset, readPosOffset]; omega),
        header₂ readPosOffset (by rw [readPosOffset]; omega), buf₁,
        slice_store_of_disjoint fits₁ (by rw [readPosOffset]; omega)]
    rw [readPos, readPos, apart, order₃, order₂, order₁]
  · -- a cell counted from the frame's start is in the prefix, in the payload or past the frame
    intro k bound
    have around' := around (k := k) (show pos < ring.capacity by omega) bound.le
    have inArea : (pos + k) % ring.capacity < ring.capacity := Nat.mod_lt _ (by omega)
    rw [buf₃, getElem?_store fits₃, length_pack, writePosOffset, if_neg (by omega),
      cells₂ _ (by omega), buf₁, getElem?_store fits₁, length_pack, capacity₁]
    generalize (pos + k) % ring.capacity = j at around' inArea
    by_cases inFrame : k < data.length + 4
    · rw [if_pos inFrame, frame]
      by_cases inPrefix : k < 4
      · rw [List.getElem?_append_left (by rw [length_pack]; exact inPrefix), if_neg (by omega),
          if_neg (by omega), if_pos (by omega)]
        congr 1
        omega
      · rw [List.getElem?_append_right (by rw [length_pack]; omega), length_pack]
        by_cases straight : pos + k < ring.capacity
        · rw [if_pos (by omega)]
          congr 1
          omega
        · rw [if_neg (by omega), if_pos (by omega)]
          congr 1
          omega
    · rw [if_neg inFrame, if_neg (by omega), if_neg (by omega), if_neg (by omega)]

/-- The bytes a queue of payloads takes. -/
def used (queue : List (List UInt8)) : ℕ := (queue.map fun data => data.length + 4).sum

/-- The frames of a queue, one after another. -/
def frames (order : ByteOrder) (queue : List (List UInt8)) : List UInt8 := queue.flatMap (frame order)

/-- The frames take the cells used. -/
@[simp] lemma length_frames (order : ByteOrder) (queue : List (List UInt8)) :
    (frames order queue).length = used queue := by
  induction queue with
  | nil => rfl
  | cons data queue ih =>
    rw [frames, List.flatMap_cons, List.length_append, length_frame]
    exact congrArg (data.length + 4 + ·) ih

/-- A payload at the end takes its frame. -/
lemma used_snoc (queue : List (List UInt8)) (data : List UInt8) :
    used (queue ++ [data]) = used queue + (data.length + 4) := by
  simp [used]

/-- A payload at the front takes its frame. -/
lemma used_cons (queue : List (List UInt8)) (data : List UInt8) :
    used (data :: queue) = data.length + 4 + used queue := by
  simp [used]

/-- From the given position on, every length prefix of the queue lies before the end of the area. -/
def Aligned (cap : ℕ) : ℕ → List (List UInt8) → Prop
  | _, [] => True
  | pos, data :: queue => pos + 4 ≤ cap ∧ Aligned cap ((pos + (data.length + 4)) % cap) queue

/-- The position after a step, and then another. -/
lemma mod_add_assoc (pos a b cap : ℕ) : ((pos + a) % cap + b) % cap = (pos + (a + b)) % cap := by
  rw [Nat.mod_add_mod, Nat.add_assoc]

/-- A prefix that fits keeps the queue aligned. -/
lemma aligned_snoc {cap pos : ℕ} {queue : List (List UInt8)} (data : List UInt8) (lt : pos < cap)
    (aligned : Aligned cap pos queue) (fits : (pos + used queue) % cap + 4 ≤ cap) :
    Aligned cap pos (queue ++ [data]) := by
  induction queue generalizing pos with
  | nil =>
    have start : (pos + used []) % cap = pos := Nat.mod_eq_of_lt lt
    rw [start] at fits
    exact ⟨fits, trivial⟩
  | cons first queue ih =>
    refine ⟨aligned.1, ih (Nat.mod_lt _ (by omega)) aligned.2 ?_⟩
    rw [mod_add_assoc, ← used_cons]
    exact fits

/-- The ring holds a queue of payloads: from the read position on its cells are their frames, and the
write position is where these end. -/
structure Holds (ring : SharedRing) (queue : List (List UInt8)) : Prop where
  small : ring.capacity < 256 ^ 4
  inArea : ring.readPos < ring.capacity
  ends : ring.writePos = (ring.readPos + used queue) % ring.capacity
  room : used queue < ring.capacity
  cells : ∀ k, k < used queue →
    ring.buf[metadataSize + (ring.readPos + k) % ring.capacity]? = (frames ring.order queue)[k]?
  aligned : Aligned ring.capacity ring.readPos queue

namespace Holds
variable {ring : SharedRing} {queue : List (List UInt8)} {data : List UInt8}

/-- The available space is what the queue leaves of the area, less one byte. -/
lemma availableSpace_eq (holds : Holds ring queue) :
    ring.availableSpace ring.writePos ring.readPos = (ring.capacity : ℤ) - 1 - used queue := by
  have pos := around holds.inArea holds.room.le
  rw [← holds.ends] at pos
  have inArea := holds.inArea
  have room := holds.room
  rw [availableSpace]
  split
  · omega
  · omega

/-- A full ring refuses the payload. -/
lemma write_full (holds : Holds ring queue) (full : ring.capacity < used queue + (data.length + 4) + 1) :
    ring.write data = .ok (false, ring) := by
  have exceeds : ((data.length + 4 : ℕ) : ℤ) > ring.availableSpace ring.writePos ring.readPos := by
    rw [holds.availableSpace_eq]
    omega
  simp only [write, getPositions_eq, bind, Except.bind, if_pos exceeds, pure, Except.pure]

/-- A write that fits goes on to store its frame. -/
lemma write_of_fits (holds : Holds ring queue)
    (fits : used queue + (data.length + 4) + 1 ≤ ring.capacity) :
    ring.write data = (ring.writeFrame ring.writePos data).map (true, ·) := by
  have under : ¬ ((data.length + 4 : ℕ) : ℤ) > ring.availableSpace ring.writePos ring.readPos := by
    rw [holds.availableSpace_eq]
    omega
  simp only [write, getPositions_eq, bind, Except.bind, if_neg under, pure, Except.pure]
  cases ring.writeFrame ring.writePos data with
  | ok ring' => rfl
  | error e => rfl

/-- A write that fits but has no room for its length prefix before the end of the area. -/
lemma write_raises (holds : Holds ring queue)
    (fits : used queue + (data.length + 4) + 1 ≤ ring.capacity)
    (short : ring.capacity < ring.writePos + 4) : ring.write data = .error .structError := by
  have len := ring.exact
  have out : ¬ (metadataSize + ring.writePos + 4 ≤ ring.buf.length ∧ data.length < 256 ^ 4) := by omega
  rw [holds.write_of_fits fits, writeFrame, packInto, if_neg out]
  rfl

/-- A ring with room takes it. -/
lemma write_ok (holds : Holds ring queue) (fits : used queue + (data.length + 4) + 1 ≤ ring.capacity)
    (prefixFits : ring.writePos + 4 ≤ ring.capacity) :
    ∃ ring', ring.write data = .ok (true, ring') ∧ Holds ring' (queue ++ [data]) ∧
      ring'.capacity = ring.capacity := by
  obtain ⟨ring', stored, ⟨order, capacity⟩, writePos, readPos, cells⟩ :=
    writeFrame_spec prefixFits (show data.length + 4 < ring.capacity by omega) holds.small
  refine ⟨ring', by rw [holds.write_of_fits fits, stored]; rfl, ?_, capacity⟩
  constructor
  · rw [capacity]
    exact holds.small
  · rw [readPos, capacity]
    exact holds.inArea
  · rw [writePos, readPos, capacity, holds.ends, mod_add_assoc, used_snoc]
  · rw [capacity, used_snoc]
    omega
  · intro k lt
    rw [used_snoc] at lt
    rw [readPos, capacity, order, frames, List.flatMap_append, List.flatMap_singleton]
    by_cases old : k < used queue
    · rw [List.getElem?_append_left (by rw [← frames, length_frames]; exact old), ← frames,
        ← holds.cells k old]
      -- counted from the write position, the cell lies past the new frame
      have cell := cells (ring.capacity - used queue + k) (by omega)
      have whole : used queue + (ring.capacity - used queue + k) = k + ring.capacity := by omega
      rw [holds.ends, mod_add_assoc, whole, ← Nat.add_assoc, Nat.add_mod_right,
        if_neg (by omega)] at cell
      exact cell
    · rw [List.getElem?_append_right (by rw [← frames, length_frames]; omega), ← frames, length_frames]
      have cell := cells (k - used queue) (by omega)
      rw [holds.ends, mod_add_assoc, Nat.add_sub_cancel' (by omega), if_pos (by omega)] at cell
      exact cell
  · rw [readPos, capacity]
    refine aligned_snoc data holds.inArea holds.aligned ?_
    rw [← holds.ends]
    exact prefixFits

/-- Nothing is read of an empty ring. -/
lemma read_empty (holds : Holds ring []) : ring.read = .ok (none, ring) := by
  have same : ring.writePos = ring.readPos := holds.ends.trans (Nat.mod_eq_of_lt holds.inArea)
  simp only [read, getPositions_eq, bind, Except.bind, if_pos same, pure, Except.pure]

/-- The cells from the read position on are the first frame. -/
lemma cell_first (holds : Holds ring (data :: queue)) {k : ℕ} (lt : k < data.length + 4) :
    ring.buf[metadataSize + (ring.readPos + k) % ring.capacity]? = (frame ring.order data)[k]? := by
  rw [holds.cells k (by rw [used_cons]; omega), frames, List.flatMap_cons,
    List.getElem?_append_left (by rw [length_frame]; exact lt)]

/-- The prefix of the first frame is the length of its payload. -/
lemma prefix_first (holds : Holds ring (data :: queue)) :
    slice ring.buf (metadataSize + ring.readPos) 4 = pack ring.order 4 data.length := by
  have fits : ring.readPos + 4 ≤ ring.capacity := holds.aligned.1
  apply List.ext_getElem?
  intro i
  rw [getElem?_slice]
  split
  · rename_i lt
    have cell := holds.cell_first (k := i) (by omega)
    rw [Nat.mod_eq_of_lt (by omega), frame,
      List.getElem?_append_left (by rw [length_pack]; exact lt)] at cell
    rw [Nat.add_assoc]
    exact cell
  · rw [List.getElem?_eq_none (by rw [length_pack]; omega)]

/-- Behind the first prefix is its payload. -/
lemma readPayload_first (holds : Holds ring (data :: queue)) :
    ring.readPayload ring.readPos data.length = data := by
  have fits : ring.readPos + 4 ≤ ring.capacity := holds.aligned.1
  have room := holds.room
  rw [used_cons] at room
  have cell : ∀ i, i < data.length →
      ring.buf[metadataSize + (ring.readPos + (4 + i)) % ring.capacity]? = data[i]? := by
    intro i lt
    rw [holds.cell_first (by omega), frame, List.getElem?_append_right (by rw [length_pack]; omega),
      length_pack, Nat.add_sub_cancel_left]
  have len := ring.exact
  apply List.ext_getElem?
  intro i
  simp only [readPayload]
  split
  · rw [getElem?_slice]
    split
    · rename_i lt
      have pos := around (k := 4 + i) holds.inArea (by omega)
      rw [← cell i lt]
      congr 1
      omega
    · rw [List.getElem?_eq_none (by omega)]
  · set remaining := ring.capacity - (ring.readPos + 4) with rem
    have first : (slice ring.buf (metadataSize + ring.readPos + 4) remaining).length = remaining :=
      length_slice (by omega)
    by_cases front : i < remaining
    · have pos := around (k := 4 + i) holds.inArea (by omega)
      rw [List.getElem?_append_left (by omega), getElem?_slice, if_pos front, ← cell i (by omega)]
      congr 1
      omega
    · rw [List.getElem?_append_right (by omega), first, getElem?_slice]
      split
      · have pos := around (k := 4 + i) holds.inArea (by omega)
        rw [← cell i (by omega)]
        congr 1
        omega
      · rw [List.getElem?_eq_none (by omega)]

/-- The first payload is read. -/
lemma read_cons (holds : Holds ring (data :: queue)) :
    ∃ ring', ring.read = .ok (some data, ring') ∧ Holds ring' queue ∧
      ring'.capacity = ring.capacity := by
  have len := ring.exact
  have header : metadataSize = 16 := rfl
  have fits : ring.readPos + 4 ≤ ring.capacity := holds.aligned.1
  have room := holds.room
  have small := holds.small
  have ends := holds.ends
  rw [used_cons] at room ends
  -- the queue never fills the area, so equal positions mean an empty ring
  have nonempty : ring.writePos ≠ ring.readPos := by
    have pos := around (k := data.length + 4 + used queue) holds.inArea (by omega)
    rw [ends]
    omega
  have length : ring.unpackFrom (metadataSize + ring.readPos) = .ok data.length := by
    rw [unpackFrom, if_pos (by omega), holds.prefix_first, unpack_pack (by omega)]
  have lt : (ring.readPos + (4 + data.length)) % ring.capacity < 256 ^ 4 :=
    (Nat.mod_lt _ (by omega)).trans small
  obtain ⟨ring', stored, ⟨order, capacity⟩, buf⟩ :=
    packInto_ok ring (show readPosOffset + 4 ≤ _ by rw [readPosOffset]; omega) lt
  have fits' : readPosOffset + (pack ring.order 4
      ((ring.readPos + (4 + data.length)) % ring.capacity)).length ≤ ring.buf.length := by
    rw [length_pack, readPosOffset]
    omega
  have readPos : ring'.readPos = (ring.readPos + (data.length + 4)) % ring.capacity := by
    have back := slice_store_self fits'
    rw [length_pack] at back
    rw [SharedRing.readPos, buf, back, order, unpack_pack lt, Nat.add_comm 4]
  have writePos : ring'.writePos = ring.writePos := by
    rw [SharedRing.writePos, SharedRing.writePos, buf, order,
      slice_store_of_disjoint fits' (by rw [writePosOffset, readPosOffset]; omega)]
  refine ⟨ring', ?_, ?_, capacity⟩
  · simp only [read, getPositions_eq, bind, Except.bind, if_neg nonempty, length, stored,
      holds.readPayload_first, pure, Except.pure]
  · constructor
    · rw [capacity]
      exact small
    · rw [readPos, capacity]
      exact Nat.mod_lt _ (by omega)
    · rw [writePos, readPos, capacity, ends, mod_add_assoc]
    · rw [capacity]
      omega
    · intro k bound
      have cell := holds.cells (data.length + 4 + k) (by rw [used_cons]; omega)
      rw [frames, List.flatMap_cons, List.getElem?_append_right (by rw [length_frame]; omega),
        length_frame, Nat.add_sub_cancel_left] at cell
      rw [readPos, capacity, order, mod_add_assoc, buf, getElem?_store fits', length_pack,
        readPosOffset, if_neg (by omega)]
      exact cell
    · rw [readPos, capacity]
      exact holds.aligned.2

end Holds

/-- What is packed fits. -/
lemma packInto_eq_ok {ring ring' : SharedRing} {off n : ℕ} (stored : ring.packInto off n = .ok ring') :
    n < 256 ^ 4 ∧ Framed ring ring' ∧ off + (pack ring.order 4 n).length ≤ ring.buf.length ∧
      ring'.buf = store ring.buf off (pack ring.order 4 n) := by
  rw [packInto] at stored
  split at stored
  · rename_i fits
    cases stored
    exact ⟨fits.2, ⟨rfl, rfl⟩, by rw [length_pack]; exact fits.1, rfl⟩
  · cases stored

/-- A new ring is empty. -/
lemma init_holds {order : ByteOrder} {size : ℕ} {ring : SharedRing} (pos : 1 ≤ size)
    (created : init order size = .ok ring) : Holds ring [] := by
  simp only [init, Py.bind_eq_ok] at created
  obtain ⟨ring₁, stored₁, ring₂, stored₂, stored₃⟩ := created
  obtain ⟨-, ⟨order₁, capacity₁⟩, fits₁, buf₁⟩ := packInto_eq_ok stored₁
  obtain ⟨-, ⟨order₂, capacity₂⟩, fits₂, buf₂⟩ := packInto_eq_ok stored₂
  obtain ⟨small, ⟨order₃, capacity₃⟩, fits₃, buf₃⟩ := packInto_eq_ok stored₃
  have capacity : ring.capacity = size := by rw [capacity₃, capacity₂, capacity₁]
  have back₁ := slice_store_self fits₁
  have back₂ := slice_store_self fits₂
  rw [length_pack, ← buf₁] at back₁
  rw [length_pack, ← buf₂] at back₂
  have writePos : ring.writePos = 0 := by
    rw [SharedRing.writePos, buf₃,
      slice_store_of_disjoint fits₃ (by rw [writePosOffset, capacityOffset]; omega), buf₂,
      slice_store_of_disjoint fits₂ (by rw [writePosOffset, readPosOffset]; omega), back₁, order₃, order₂,
      order₁, unpack_pack (by decide)]
  have readPos : ring.readPos = 0 := by
    rw [SharedRing.readPos, buf₃,
      slice_store_of_disjoint fits₃ (by rw [readPosOffset, capacityOffset]; omega), back₂, order₃, order₂,
      unpack_pack (by decide)]
  constructor
  · rw [capacity]
    exact small
  · rw [readPos, capacity]
    exact pos
  · rw [writePos, readPos]
    exact (Nat.zero_mod _).symm
  · rw [capacity]
    exact pos
  · intro k lt
    exact absurd lt (Nat.not_lt_zero k)
  · trivial

end SharedRing

end StellarFlow.Ingestion
