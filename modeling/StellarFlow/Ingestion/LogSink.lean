import StellarFlow.Ingestion.StreamBuffer
import StellarFlow.Lib.Cyclic

/-!
# The memory-mapped log sink

Model of `MmapLogSink` in `src/ingestion/stream_buffer.py`: a file of fixed size whose first 24 bytes
hold the write cursor and the number of wraps, and whose payload region is a ring of log entries. The
mapped file is a list of bytes, the content of the file before it is opened is an argument of `init`,
and maps are larger than their header.

Written as one stream, the entries of a run go round and round the payload region. `Rings` states this
for one state, `writeEntry_eq` keeps it for one frame, and `writeBatches_ring` follows for whole runs.
-/

namespace StellarFlow.Ingestion
open Memory Cyclic

/-- `_HEADER_SIZE`. -/
def headerSize : ℕ := 24

/-- `_CURSOR_OFFSET`. -/
def cursorOffset : ℕ := 8

/-- `_WRAP_OFFSET`. -/
def wrapOffset : ℕ := 16

/-- `_MAGIC`: the bytes of `SFMMAP`, 0 and 1. -/
def magic : List UInt8 := [83, 70, 77, 77, 65, 80, 0, 1]

/-- `MmapLogSink`, with the bytes of the mapped file. -/
structure MmapLogSink where
  mapSize : ℕ
  mm : List UInt8
  cursor : ℕ
  wrapCount : ℕ
  closed : Bool
  room : headerSize < mapSize
  exact : mm.length = mapSize

namespace MmapLogSink

/-- `_payload_size`. -/
def payloadSize (s : MmapLogSink) : ℕ := s.mapSize - headerSize

/-- `mv[off : off + len(block)] = block` on the mapped file. -/
def setSlice (s : MmapLogSink) (off : ℕ) (block : List UInt8) : Except PyError MmapLogSink :=
  if off + block.length ≤ s.mm.length then
    .ok { s with mm := store s.mm off block, exact := (length_store _ _ _).trans s.exact }
  else
    .error (.valueError "memoryview assignment: lvalue and rvalue have different structures")

/-- `struct.pack("<Q", n)`. -/
def packQ (n : ℕ) : Except PyError (List UInt8) :=
  if n < 256 ^ 8 then .ok (pack .little 8 n) else .error .structError

/-- `struct.unpack_from("<Q", mv, off)`. -/
def unpackQ (s : MmapLogSink) (off : ℕ) : ℕ := unpack .little (slice s.mm off 8)

/-- `MmapLogSink._flush_header`. -/
def flushHeader (s : MmapLogSink) : Except PyError MmapLogSink := do
  let cursor ← packQ s.cursor
  let flushed ← s.setSlice cursorOffset cursor
  let wraps ← packQ s.wrapCount
  flushed.setSlice wrapOffset wraps

/-- The magic and a zero header, as `_open_or_create` and `_read_header` write them. -/
def writeNewHeader (s : MmapLogSink) : Except PyError MmapLogSink := do
  let s ← s.setSlice 0 magic
  let zero ← packQ 0
  let s ← s.setSlice cursorOffset zero
  s.setSlice wrapOffset zero

/-- The mapped file, extended with zero bytes where it is too short. -/
def mapped (mapSize : ℕ) (room : headerSize < mapSize) (content : List UInt8) : MmapLogSink where
  mapSize := mapSize
  mm := (content ++ List.replicate (mapSize - content.length) 0).take mapSize
  cursor := 0
  wrapCount := 0
  closed := false
  room := room
  exact := by
    rw [List.length_take, List.length_append, List.length_replicate]
    omega

/-- `MmapLogSink._open_or_create` on a file with the given content, `none` when it does not exist; a
size of `2 ^ 63` or more overflows `os.ftruncate`. -/
def openOrCreate (mapSize : ℕ) (room : headerSize < mapSize) (file : Option (List UInt8)) :
    Except PyError MmapLogSink :=
  if 2 ^ 63 ≤ mapSize then
    .error (.exception "OverflowError" "Python int too large to convert to C long")
  else
    let content := file.getD []
    let s := mapped mapSize room content
    if file.isNone ∨ content.length < headerSize then s.writeNewHeader else .ok s

/-- `MmapLogSink._read_header`. -/
def readHeader (s : MmapLogSink) : Except PyError MmapLogSink :=
  if slice s.mm 0 8 ≠ magic then do
    let s ← s.writeNewHeader
    return { s with cursor := 0, wrapCount := 0 }
  else
    let cursor := s.unpackQ cursorOffset
    let wraps := s.unpackQ wrapOffset
    .ok { s with cursor := if cursor ≥ s.payloadSize then 0 else cursor, wrapCount := wraps }

/-- `MmapLogSink.__init__`. -/
def init (mapSize : ℕ) (room : headerSize < mapSize) (file : Option (List UInt8)) :
    Except PyError MmapLogSink := do
  let s ← openOrCreate mapSize room file
  s.readHeader

/-- The entry `write_batch` makes of a frame: ended by a newline, and cut to the payload region. -/
def entryOf (payloadSize : ℕ) (raw : List UInt8) : List UInt8 :=
  let entry := if raw.getLast? = some newline then raw else raw ++ [newline]
  if entry.length > payloadSize then entry.take (payloadSize - 1) ++ [newline] else entry

/-- The body of the loop of `write_batch`. -/
def writeEntry (s : MmapLogSink) (raw : List UInt8) : Except PyError MmapLogSink :=
  let entry := entryOf s.payloadSize raw
  let writePos := headerSize + s.cursor
  if s.cursor + entry.length ≤ s.payloadSize then do
    let written ← s.setSlice writePos entry
    return { written with cursor := s.cursor + entry.length }
  else do
    let tailSpace := s.payloadSize - s.cursor
    let written ← s.setSlice writePos (entry.take tailSpace)
    let remainder := entry.drop tailSpace
    let written ← written.setSlice headerSize remainder
    return { written with cursor := remainder.length, wrapCount := s.wrapCount + 1 }

/-- `MmapLogSink.write_batch`. -/
def writeBatch (s : MmapLogSink) (frames : List (List UInt8)) : Except PyError MmapLogSink :=
  if s.closed ∨ frames = [] then .ok s
  else do
    let s ← frames.foldlM writeEntry s
    s.flushHeader

/-- `MmapLogSink.write`. -/
def write (s : MmapLogSink) (raw : List UInt8) : Except PyError MmapLogSink := s.writeBatch [raw]

/-- A block that fits is stored. -/
lemma setSlice_of_fits {s : MmapLogSink} {off : ℕ} {block : List UInt8}
    (fits : off + block.length ≤ s.mm.length) :
    s.setSlice off block =
      .ok { s with mm := store s.mm off block, exact := (length_store _ _ _).trans s.exact } :=
  if_pos fits

/-- An entry is cut to the payload. -/
lemma length_entryOf {payloadSize : ℕ} (pos : 0 < payloadSize) (raw : List UInt8) :
    (entryOf payloadSize raw).length ≤ payloadSize := by
  rw [entryOf]
  generalize (if raw.getLast? = some newline then raw else raw ++ [newline]) = entry
  show (if entry.length > payloadSize then _ else entry).length ≤ payloadSize
  split
  · rw [List.length_append, List.length_take, List.length_singleton]
    omega
  · omega

/-- What `_flush_header` leaves: the header says what the fields say, and the rest is as before. -/
structure Flushed (s s' : MmapLogSink) : Prop where
  mapSize : s'.mapSize = s.mapSize
  cursor : s'.cursor = s.cursor
  wrapCount : s'.wrapCount = s.wrapCount
  closed : s'.closed = s.closed
  magicField : slice s'.mm 0 8 = slice s.mm 0 8
  cursorField : s'.unpackQ cursorOffset = s.cursor
  wrapField : s'.unpackQ wrapOffset = s.wrapCount
  cells : ∀ j, s'.mm[headerSize + j]? = s.mm[headerSize + j]?

/-- Counters that fit are flushed. -/
lemma flushHeader_ok {s : MmapLogSink} (low : s.cursor < 256 ^ 8) (few : s.wrapCount < 256 ^ 8) :
    ∃ s', s.flushHeader = .ok s' ∧ Flushed s s' := by
  have len := s.exact
  have room := s.room
  have header : headerSize = 24 := rfl
  have fits₁ : cursorOffset + (pack .little 8 s.cursor).length ≤ s.mm.length := by
    rw [length_pack, cursorOffset]
    omega
  have fits₂ : wrapOffset + (pack .little 8 s.wrapCount).length ≤
      (store s.mm cursorOffset (pack .little 8 s.cursor)).length := by
    rw [length_pack, length_store, wrapOffset]
    omega
  have first := setSlice_of_fits fits₁
  simp only [flushHeader, packQ, if_pos low, if_pos few, first, bind, Except.bind]
  rw [setSlice_of_fits fits₂]
  refine ⟨_, rfl, rfl, rfl, rfl, rfl, ?_, ?_, ?_, fun j => ?_⟩
  · simp only
    rw [slice_store_of_disjoint fits₂ (.inl (by decide)), slice_store_of_disjoint fits₁ (.inl (by decide))]
  · have back := slice_store_self fits₁
    rw [length_pack] at back
    simp only [unpackQ]
    rw [slice_store_of_disjoint fits₂ (.inl le_rfl), back, unpack_pack low]
  · have back := slice_store_self fits₂
    rw [length_pack] at back
    simp only [unpackQ]
    rw [back, unpack_pack few]
  · rw [getElem?_store fits₂, if_neg (by rw [length_pack, wrapOffset]; omega), getElem?_store fits₁,
      if_neg (by rw [length_pack, cursorOffset]; omega)]

/-- Wraps that do not fit raise. -/
lemma flushHeader_raises {s : MmapLogSink} (low : s.cursor < 256 ^ 8) (many : 256 ^ 8 ≤ s.wrapCount) :
    s.flushHeader = .error .structError := by
  have len := s.exact
  have room := s.room
  have header : headerSize = 24 := rfl
  have fits : cursorOffset + (pack .little 8 s.cursor).length ≤ s.mm.length := by
    rw [length_pack, cursorOffset]
    omega
  simp only [flushHeader, packQ, if_pos low, if_neg (Nat.not_lt.mpr many), setSlice_of_fits fits, bind,
    Except.bind]

/-- What one frame does to a sink whose cursor is inside the payload region. -/
lemma writeEntry_cases {P : ℕ} {s : MmapLogSink} (size : s.payloadSize = P) (inside : s.cursor ≤ P)
    (raw : List UInt8) :
    ∃ s', s.writeEntry raw = .ok s' ∧ s'.mapSize = s.mapSize ∧ s'.closed = s.closed ∧
      ((s.cursor + (entryOf P raw).length ≤ P ∧ s'.mm = store s.mm (headerSize + s.cursor) (entryOf P raw) ∧
          s'.cursor = s.cursor + (entryOf P raw).length ∧ s'.wrapCount = s.wrapCount) ∨
        (P < s.cursor + (entryOf P raw).length ∧
          s'.mm = store (store s.mm (headerSize + s.cursor) ((entryOf P raw).take (P - s.cursor))) headerSize
            ((entryOf P raw).drop (P - s.cursor)) ∧
          s'.cursor = ((entryOf P raw).drop (P - s.cursor)).length ∧ s'.wrapCount = s.wrapCount + 1)) := by
  have len : s.mm.length = headerSize + P := by
    have room := s.room
    rw [payloadSize] at size
    rw [s.exact]
    omega
  have pos : 0 < P := by
    have room := s.room
    rw [payloadSize] at size
    omega
  have round := length_entryOf pos raw
  rw [writeEntry, size]
  split
  · rename_i fits
    rw [setSlice_of_fits (show headerSize + s.cursor + (entryOf P raw).length ≤ _ by omega)]
    exact ⟨_, rfl, rfl, rfl, .inl ⟨fits, rfl, rfl, rfl⟩⟩
  · rename_i wraps
    have tail : ((entryOf P raw).take (P - s.cursor)).length = P - s.cursor := by
      rw [List.length_take]
      omega
    have rest : ((entryOf P raw).drop (P - s.cursor)).length = (entryOf P raw).length - (P - s.cursor) :=
      List.length_drop
    have first : s.setSlice (headerSize + s.cursor) ((entryOf P raw).take (P - s.cursor)) = _ :=
      setSlice_of_fits (by omega)
    simp only [first, bind, Except.bind]
    rw [setSlice_of_fits (show _ ≤ (store s.mm _ _).length by rw [length_store]; omega)]
    exact ⟨_, rfl, rfl, rfl, .inr ⟨by omega, rfl, rfl, rfl⟩⟩

/-- The payload region is a ring of `P` cells into which the stream has been written. -/
structure Rings (P : ℕ) (stream : List UInt8) (s : MmapLogSink) : Prop where
  size : s.payloadSize = P
  count : s.cursor + s.wrapCount * P = stream.length
  inside : s.cursor ≤ P
  cells : ∀ j, j < P → s.mm[headerSize + j]? = some (lastAt 0 P stream j)

namespace Rings
variable {P : ℕ} {stream : List UInt8} {s : MmapLogSink}

/-- The mapping has its header and its payload. -/
lemma length_mm (rings : Rings P stream s) : s.mm.length = headerSize + P ∧ 0 < P := by
  have size := rings.size
  have room := s.room
  rw [payloadSize] at size
  rw [s.exact]
  omega

/-- The cell of a position counted from the cursor. -/
lemma position (rings : Rings P stream s) (k : ℕ) : (stream.length + k) % P = (s.cursor + k) % P := by
  rw [← rings.count, Nat.add_right_comm, Nat.add_mul_mod_self_right]

/-- An entry that fits before the end of the region. -/
lemma cells_straight (rings : Rings P stream s) {entry : List UInt8} (fits : s.cursor + entry.length ≤ P)
    {j : ℕ} (lt : j < P) :
    (store s.mm (headerSize + s.cursor) entry)[headerSize + j]? =
      some (lastAt 0 P (stream ++ entry) j) := by
  have len := rings.length_mm.1
  rw [getElem?_store (by omega)]
  by_cases hit : s.cursor ≤ j ∧ j < s.cursor + entry.length
  · have cell := @lastAt_append_of_hit _ 0 P stream entry (by omega) (j - s.cursor) (by omega)
    rw [rings.position, Nat.add_sub_cancel' hit.1, Nat.mod_eq_of_lt lt] at cell
    rw [if_pos (by omega), cell, List.getElem?_eq_getElem (by omega)]
    congr 2
    omega
  · rw [if_neg (by omega), rings.cells j lt, lastAt_append_of_miss]
    intro k ltk
    rw [rings.position, Nat.mod_eq_of_lt (by omega)]
    omega

/-- An entry that goes on at the start of the region. -/
lemma cells_wrapped (rings : Rings P stream s) {entry : List UInt8} (wraps : P < s.cursor + entry.length)
    (round : entry.length ≤ P) {j : ℕ} (lt : j < P) :
    (store (store s.mm (headerSize + s.cursor) (entry.take (P - s.cursor))) headerSize
        (entry.drop (P - s.cursor)))[headerSize + j]? = some (lastAt 0 P (stream ++ entry) j) := by
  have len := rings.length_mm.1
  have inside := rings.inside
  have tail : (entry.take (P - s.cursor)).length = P - s.cursor := by
    rw [List.length_take]
    omega
  rw [getElem?_store (by rw [length_store, List.length_drop]; omega), getElem?_store (by omega), tail,
    List.length_drop, List.getElem?_drop, List.getElem?_take]
  have cell := fun k (ltk : k < entry.length) => @lastAt_append_of_hit _ 0 P stream entry round k ltk
  simp only [rings.position] at cell
  by_cases front : j < entry.length - (P - s.cursor)
  · have hit := cell (P - s.cursor + j) (by omega)
    rw [← Nat.add_assoc, Nat.add_sub_cancel' inside, Nat.add_mod_left, Nat.mod_eq_of_lt lt] at hit
    rw [if_pos (by omega), hit, List.getElem?_eq_getElem (by omega)]
    congr 2
    omega
  · rw [if_neg (by omega)]
    by_cases back : s.cursor ≤ j
    · have hit := cell (j - s.cursor) (by omega)
      rw [Nat.add_sub_cancel' back, Nat.mod_eq_of_lt lt] at hit
      rw [if_pos (by omega), if_pos (by omega), hit, List.getElem?_eq_getElem (by omega)]
      congr 2
      omega
    · rw [if_neg (by omega), rings.cells j lt, lastAt_append_of_miss]
      intro k ltk
      rw [rings.position]
      -- past the end of the region the entry covers the first cells only
      by_cases before : s.cursor + k < P
      · rw [Nat.mod_eq_of_lt before]
        omega
      · rw [Nat.mod_eq_sub_mod (by omega), Nat.mod_eq_of_lt (by omega)]
        omega

end Rings

/-- One frame extends the stream by its entry. -/
lemma writeEntry_eq {P : ℕ} {stream : List UInt8} {s : MmapLogSink} (rings : Rings P stream s)
    (raw : List UInt8) :
    ∃ s', s.writeEntry raw = .ok s' ∧ Rings P (stream ++ entryOf P raw) s' ∧ s'.closed = s.closed := by
  obtain ⟨len, pos⟩ := rings.length_mm
  have round := length_entryOf pos raw
  have count := rings.count
  have inside := rings.inside
  obtain ⟨s', wrote, size, closed, ⟨fits, mm, cursor, wraps⟩ | ⟨past, mm, cursor, wraps⟩⟩ :=
    writeEntry_cases rings.size inside raw
  · refine ⟨s', wrote, ⟨(congrArg (· - headerSize) size).trans rings.size, ?_, by omega, fun j lt => ?_⟩, closed⟩
    · rw [List.length_append, ← count, cursor, wraps]
      exact Nat.add_right_comm _ _ _
    · rw [mm]
      exact rings.cells_straight fits lt
  · have rest : ((entryOf P raw).drop (P - s.cursor)).length = (entryOf P raw).length - (P - s.cursor) :=
      List.length_drop
    refine ⟨s', wrote, ⟨(congrArg (· - headerSize) size).trans rings.size, ?_, by omega, fun j lt => ?_⟩, closed⟩
    · rw [cursor, wraps, rest, List.length_append, ← count, Nat.succ_mul]
      omega
    · rw [mm]
      exact rings.cells_wrapped past round lt

/-- An open sink between two batches: the header says what the fields say. -/
structure Logged (P : ℕ) (stream : List UInt8) (s : MmapLogSink) : Prop extends Rings P stream s where
  opened : s.closed = false
  cursorField : s.unpackQ cursorOffset = s.cursor
  wrapField : s.unpackQ wrapOffset = s.wrapCount

/-- The header can be written as long as the wraps fit their field. -/
lemma flushHeader_eq {P : ℕ} {stream : List UInt8} {s : MmapLogSink} (rings : Rings P stream s)
    (opened : s.closed = false) (small : P < 256 ^ 8) (few : s.wrapCount < 256 ^ 8) :
    ∃ s', s.flushHeader = .ok s' ∧ Logged P stream s' := by
  obtain ⟨s', flushed, same⟩ := flushHeader_ok (rings.inside.trans_lt small) few
  refine ⟨s', flushed, ⟨(congrArg (· - headerSize) same.mapSize).trans rings.size, ?_, ?_, fun j lt => ?_⟩,
    same.closed.trans opened, same.cursorField.trans same.cursor.symm, same.wrapField.trans same.wrapCount.symm⟩
  · rw [same.cursor, same.wrapCount, rings.count]
  · rw [same.cursor]
    exact rings.inside
  · rw [same.cells]
    exact rings.cells j lt

/-- Entries are written around the ring. -/
lemma foldlM_writeEntry {P : ℕ} {stream : List UInt8} {s : MmapLogSink} (rings : Rings P stream s)
    (frames : List (List UInt8)) :
    ∃ s', frames.foldlM writeEntry s = .ok s' ∧
      Rings P (stream ++ (frames.map (entryOf P)).flatten) s' ∧ s'.closed = s.closed := by
  induction frames generalizing stream s with
  | nil => exact ⟨s, rfl, by rw [List.map_nil, List.flatten_nil, List.append_nil]; exact rings, rfl⟩
  | cons raw frames ih =>
    obtain ⟨s₁, wrote, rings₁, closed₁⟩ := writeEntry_eq rings raw
    obtain ⟨s₂, rest, rings₂, closed₂⟩ := ih rings₁
    refine ⟨s₂, ?_, ?_, closed₂.trans closed₁⟩
    · rw [List.foldlM_cons, wrote]
      exact rest
    · rw [List.map_cons, List.flatten_cons, ← List.append_assoc]
      exact rings₂

/-- A batch is logged, unless the wraps have outgrown their header field. -/
lemma writeBatch_cases {P : ℕ} {stream : List UInt8} {s : MmapLogSink} (logged : Logged P stream s)
    (small : P < 256 ^ 8) (frames : List (List UInt8)) :
    (∃ s', s.writeBatch frames = .ok s' ∧ Logged P (stream ++ (frames.map (entryOf P)).flatten) s') ∨
    ((∃ e, s.writeBatch frames = .error e) ∧
      256 ^ 8 * P ≤ (stream ++ (frames.map (entryOf P)).flatten).length) := by
  by_cases empty : frames = []
  · subst empty
    left
    refine ⟨s, if_pos (.inr rfl), ?_⟩
    rw [List.map_nil, List.flatten_nil, List.append_nil]
    exact logged
  · have proceed : ¬ (s.closed = true ∨ frames = []) := by
      rw [logged.opened]
      simpa using empty
    obtain ⟨s₁, wrote, rings, closed⟩ := foldlM_writeEntry logged.toRings frames
    rw [writeBatch, if_neg proceed, wrote]
    by_cases few : s₁.wrapCount < 256 ^ 8
    · left
      exact flushHeader_eq rings (closed.trans logged.opened) small few
    · right
      refine ⟨⟨.structError, flushHeader_raises (rings.inside.trans_lt small) (Nat.le_of_not_lt few)⟩, ?_⟩
      rw [← rings.count]
      exact (Nat.mul_le_mul_right P (Nat.le_of_not_lt few)).trans (Nat.le_add_left _ _)

/-- A new header has the magic and empty counters. -/
lemma writeNewHeader_eq (s : MmapLogSink) :
    ∃ s', s.writeNewHeader = .ok s' ∧ s'.mapSize = s.mapSize ∧ s'.closed = s.closed ∧
      slice s'.mm 0 8 = magic ∧ s'.unpackQ cursorOffset = 0 ∧ s'.unpackQ wrapOffset = 0 ∧
      ∀ j, s'.mm[headerSize + j]? = s.mm[headerSize + j]? := by
  have len := s.exact
  have room := s.room
  have header : headerSize = 24 := rfl
  have zeros : (pack .little 8 0).length = 8 := length_pack _ _ _
  have fits₁ : 0 + magic.length ≤ s.mm.length := by
    show 0 + 8 ≤ _
    omega
  have fits₂ : cursorOffset + (pack .little 8 0).length ≤ (store s.mm 0 magic).length := by
    rw [zeros, length_store, cursorOffset]
    omega
  have fits₃ : wrapOffset + (pack .little 8 0).length ≤
      (store (store s.mm 0 magic) cursorOffset (pack .little 8 0)).length := by
    rw [zeros, length_store, length_store, wrapOffset]
    omega
  have zero : packQ 0 = .ok (pack .little 8 0) := if_pos (by decide)
  simp only [writeNewHeader, setSlice_of_fits fits₁, zero, bind, Except.bind]
  rw [setSlice_of_fits fits₂]
  simp only []
  rw [setSlice_of_fits fits₃]
  refine ⟨_, rfl, rfl, rfl, ?_, ?_, ?_, fun j => ?_⟩
  · have back := slice_store_self fits₁
    simp only
    rw [slice_store_of_disjoint fits₃ (.inl (by decide)), slice_store_of_disjoint fits₂ (.inl (by decide))]
    exact back
  · have back := slice_store_self fits₂
    rw [zeros] at back
    simp only [unpackQ]
    rw [slice_store_of_disjoint fits₃ (.inl le_rfl), back]
    decide
  · have back := slice_store_self fits₃
    rw [zeros] at back
    simp only [unpackQ]
    rw [back]
    decide
  · simp only
    rw [getElem?_store fits₃, if_neg (by rw [zeros, wrapOffset]; omega), getElem?_store fits₂,
      if_neg (by rw [zeros, cursorOffset]; omega), getElem?_store fits₁,
      if_neg (by show ¬ (_ ∧ _ < 0 + 8); omega)]

/-- A sink on a new file: nothing has been written. -/
lemma init_fresh {mapSize : ℕ} {room : headerSize < mapSize} {s : MmapLogSink}
    (created : init mapSize room none = .ok s) :
    Logged (mapSize - headerSize) [] s ∧ mapSize < 2 ^ 63 := by
  rw [init, openOrCreate] at created
  split at created
  · cases created
  · rename_i small
    obtain ⟨s₀, wrote, size, closed, valid, cursor, wraps, cells⟩ :=
      writeNewHeader_eq (mapped mapSize room [])
    have payload : s₀.payloadSize = mapSize - headerSize := congrArg (· - headerSize) size
    simp only [Option.isNone_none, true_or, if_true, Option.getD_none, wrote, bind, Except.bind,
      readHeader, valid, ne_eq, not_true_eq_false, if_false, cursor, wraps, ite_self] at created
    cases created
    refine ⟨⟨⟨payload, ?_, Nat.zero_le _, fun j lt => ?_⟩, closed, cursor, wraps⟩, Nat.lt_of_not_le small⟩
    · rw [Nat.zero_mul]
      rfl
    · rw [cells, lastAt_nil]
      show (List.take mapSize ([] ++ List.replicate (mapSize - 0) 0))[headerSize + j]? = _
      rw [List.nil_append, Nat.sub_zero, List.take_of_length_le List.length_replicate.le,
        List.getElem?_replicate, if_pos (by omega)]

end MmapLogSink

open MmapLogSink

/-- The log of a run on a new file is a byte ring. With `S` the entries of all frames one after another
and `P` the size of the payload region: the cursor and the wraps count the bytes of `S`, each payload
byte is the last byte of `S` written to its place, and the header holds both counters. Every batch can be
written as long as the number of wraps fits its header field. -/
theorem writeBatches_ring (mapSize : ℕ) (room : headerSize < mapSize) (sink : MmapLogSink)
    (created : MmapLogSink.init mapSize room none = .ok sink) (batches : List (List (List UInt8)))
    (P : ℕ) (payload : P = mapSize - headerSize) (S : List UInt8)
    (entries : S = (batches.flatten.map (entryOf P)).flatten) :
    (∀ s, batches.foldlM writeBatch sink = .ok s →
      s.cursor + s.wrapCount * P = S.length ∧ s.cursor ≤ P ∧
      (∀ j, j < P → s.mm[headerSize + j]? = some (lastAt 0 P S j)) ∧
      s.unpackQ cursorOffset = s.cursor ∧ s.unpackQ wrapOffset = s.wrapCount) ∧
    (S.length < 2 ^ 64 * P → ∃ s, batches.foldlM writeBatch sink = .ok s) := by
  obtain ⟨start, below⟩ := init_fresh created
  rw [← payload] at start
  have small : P < 256 ^ 8 := by omega
  have run : (∃ s, batches.foldlM writeBatch sink = .ok s ∧ Logged P S s) ∨
      ((∃ e, batches.foldlM writeBatch sink = .error e) ∧ 256 ^ 8 * P ≤ S.length) := by
    subst entries
    induction batches using List.reverseRecOn with
    | nil => exact .inl ⟨sink, rfl, start⟩
    | append_singleton past frames ih =>
      rw [List.foldlM_append, List.flatten_append, List.flatten_singleton, List.map_append,
        List.flatten_append]
      obtain ⟨s, ran, logged⟩ | ⟨⟨e, raised⟩, long⟩ := ih
      · rw [ran]
        obtain ⟨s', wrote, logged'⟩ | ⟨⟨e, raised⟩, long⟩ := writeBatch_cases logged small frames
        · left
          exact ⟨s', by simp only [bind, Except.bind, List.foldlM_cons, List.foldlM_nil, wrote]; rfl, logged'⟩
        · right
          exact ⟨⟨e, by simp only [bind, Except.bind, List.foldlM_cons, raised]⟩, long⟩
      · right
        refine ⟨⟨e, by rw [raised]; rfl⟩, ?_⟩
        rw [List.length_append]
        exact long.trans (Nat.le_add_right _ _)
  obtain ⟨s, ran, logged⟩ | ⟨⟨e, raised⟩, long⟩ := run
  · refine ⟨fun s' ran' => ?_, fun _ => ⟨s, ran⟩⟩
    obtain rfl := Except.ok.inj (ran.symm.trans ran')
    exact ⟨logged.count, logged.inside, logged.cells, logged.cursorField, logged.wrapField⟩
  · refine ⟨fun s' ran' => ?_, fun short => ?_⟩
    · rw [raised] at ran'
      cases ran'
    · omega

/-- A region of five bytes: the first entry fills it to the end, the next one starts over. -/
theorem writeBatches_ring_exact_fit :
    ∃ sink, MmapLogSink.init 29 (by decide) none = .ok sink ∧
      (([[[1, 2, 3, 4]], [[5]]].foldlM writeBatch sink).toOption.map fun s =>
        (s.cursor, s.wrapCount, slice s.mm headerSize 5)) = some (2, 1, [5, 10, 3, 4, 10]) ∧
      ∀ s, [[[1, 2, 3, 4]], [[5]]].foldlM writeBatch sink = .ok s →
        s.cursor + s.wrapCount * 5 = 7 ∧
        ∀ j, j < 5 → s.mm[headerSize + j]? = some (lastAt 0 5 [1, 2, 3, 4, 10, 5, 10] j) := by
  refine ⟨_, rfl, by decide, fun s ran => ?_⟩
  obtain ⟨ring, -⟩ := writeBatches_ring 29 (by decide) _ rfl [[[1, 2, 3, 4]], [[5]]] 5 rfl
    [1, 2, 3, 4, 10, 5, 10] (by decide)
  obtain ⟨count, -, cells, -, -⟩ := ring s ran
  exact ⟨count, cells⟩

end StellarFlow.Ingestion
