import StellarFlow.Ingestion.LogSink

/-!
# Restarting the log sink

`MmapLogSink.close` flushes the header, and a sink opened on the same file reads it back. A cursor at the very
end of the payload region is one that `write_batch` leaves, but `_read_header` takes it for a damaged one and
puts zero in its place, without the wrap that the next entry would have counted.

`LogState` is what is compared: the payload bytes, the cursor and the wraps. `LogState.batch` writes a batch to
it, `writeBatch_simulates` connects it to the sink, and `Lags` relates a restarted log to one that went on.
-/

namespace StellarFlow.Ingestion
open Memory

namespace MmapLogSink

/-- An entry has at least its line feed. -/
lemma entryOf_pos (P : ℕ) (raw : List UInt8) : 0 < (entryOf P raw).length := by
  have ended : 0 < (if raw.getLast? = some newline then raw else raw ++ [newline]).length := by
    split
    · rename_i last
      exact List.length_pos_of_mem (List.mem_of_getLast? last)
    · rw [List.length_append]
      exact Nat.succ_pos _
  rw [entryOf]
  generalize (if raw.getLast? = some newline then raw else raw ++ [newline]) = entry at ended ⊢
  show 0 < (if entry.length > P then _ else entry).length
  split
  · rw [List.length_append]
    exact Nat.succ_pos _
  · exact ended

/-- `MmapLogSink.close`. -/
def close (s : MmapLogSink) : Except PyError MmapLogSink :=
  if s.closed then .ok s else flushHeader { s with closed := true }

/-- A sink that writes `A` and is closed, and one on the same file that writes `B`; the file is longer than the
map by the bytes of `rest`. -/
def restarted (rest : List UInt8) (s : MmapLogSink) (A B : List (List (List UInt8))) : Except PyError MmapLogSink := do
  let s ← A.foldlM writeBatch s
  let s ← s.close
  let t ← init s.mapSize s.room (some (s.mm ++ rest))
  B.foldlM writeBatch t

end MmapLogSink

/-- The payload bytes, the cursor and the number of wraps of a log. -/
@[ext] structure LogState where
  payload : List UInt8
  cursor : ℕ
  wrapCount : ℕ
  deriving DecidableEq

namespace LogState

/-- One entry written round a ring of `P` bytes. -/
def enter (P : ℕ) (l : LogState) (entry : List UInt8) : LogState :=
  if l.cursor + entry.length ≤ P then
    { l with payload := store l.payload l.cursor entry, cursor := l.cursor + entry.length }
  else
    { payload := store (store l.payload l.cursor (entry.take (P - l.cursor))) 0 (entry.drop (P - l.cursor))
      cursor := (entry.drop (P - l.cursor)).length
      wrapCount := l.wrapCount + 1 }

/-- The entries of frames one after another. -/
def enters (P : ℕ) (l : LogState) (frames : List (List UInt8)) : LogState :=
  (frames.map (MmapLogSink.entryOf P)).foldl (enter P) l

/-- One batch; its wraps have to fit their field of the header. -/
def batch (P : ℕ) (l : LogState) (frames : List (List UInt8)) : Except PyError LogState :=
  if frames = [] then .ok l
  else if (l.enters P frames).wrapCount < 256 ^ 8 then .ok (l.enters P frames)
  else .error .structError

/-- What the next sink reads. -/
def reread (P : ℕ) (l : LogState) : LogState :=
  { l with cursor := if l.cursor ≥ P then 0 else l.cursor }

/-- An entry that fits is stored behind the last one. -/
lemma enter_of_fits {P : ℕ} {l : LogState} {entry : List UInt8} (fits : l.cursor + entry.length ≤ P) :
    l.enter P entry =
      { l with payload := store l.payload l.cursor entry, cursor := l.cursor + entry.length } :=
  if_pos fits

/-- One that does not wraps around. -/
lemma enter_of_wraps {P : ℕ} {l : LogState} {entry : List UInt8} (past : P < l.cursor + entry.length) :
    l.enter P entry =
      { payload := store (store l.payload l.cursor (entry.take (P - l.cursor))) 0 (entry.drop (P - l.cursor))
        cursor := (entry.drop (P - l.cursor)).length
        wrapCount := l.wrapCount + 1 } :=
  if_neg (Nat.not_le.mpr past)

/-- The cursor and the wraps count the bytes, and the cursor is behind the last of them. -/
lemma enter_count {P : ℕ} {l : LogState} {entry : List UInt8} (inside : l.cursor ≤ P) (some : 0 < entry.length)
    (round : entry.length ≤ P) :
    0 < (l.enter P entry).cursor ∧ (l.enter P entry).cursor ≤ P ∧
      (l.enter P entry).cursor + (l.enter P entry).wrapCount * P =
        l.cursor + l.wrapCount * P + entry.length := by
  rw [enter]
  split
  · rename_i fits
    refine ⟨?_, fits, ?_⟩
    · show 0 < l.cursor + entry.length
      omega
    · exact Nat.add_right_comm _ _ _
  · show 0 < (entry.drop (P - l.cursor)).length ∧ (entry.drop (P - l.cursor)).length ≤ P ∧
      (entry.drop (P - l.cursor)).length + (l.wrapCount + 1) * P = _
    rw [List.length_drop, Nat.succ_mul]
    omega

/-- A batch is written where the wraps fit in their field. -/
lemma batch_ok_iff {P : ℕ} {l m : LogState} {frames : List (List UInt8)} :
    l.batch P frames = .ok m ↔ m = l.enters P frames ∧ (frames ≠ [] → m.wrapCount < 256 ^ 8) := by
  rw [batch]
  by_cases empty : frames = []
  · subst empty
    rw [if_pos rfl, Except.ok.injEq]
    exact ⟨fun same => ⟨same.symm, absurd rfl⟩, fun same => same.1.symm⟩
  · rw [if_neg empty]
    by_cases few : (l.enters P frames).wrapCount < 256 ^ 8
    · rw [if_pos few, Except.ok.injEq]
      constructor
      · rintro rfl
        exact ⟨rfl, fun _ => few⟩
      · exact fun same => same.1.symm
    · rw [if_neg few]
      constructor
      · intro raised
        cases raised
      · rintro ⟨rfl, fits⟩
        exact absurd (fits empty) few

/-- Batches write the frames of all of them. -/
lemma batches_ok {P : ℕ} {l m : LogState} {batches : List (List (List UInt8))}
    (wrote : batches.foldlM (batch P) l = .ok m) : m = l.enters P batches.flatten := by
  induction batches generalizing l with
  | nil =>
    cases wrote
    rfl
  | cons frames batches ih =>
    rw [List.foldlM_cons] at wrote
    obtain ⟨mid, first, rest⟩ := Py.bind_eq_ok.mp wrote
    obtain ⟨rfl, -⟩ := batch_ok_iff.mp first
    rw [ih rest, enters, enters, enters, List.flatten_cons, List.map_append, List.foldl_append]

/-- The cursor and the wraps count the bytes written. -/
lemma enters_count {P : ℕ} {l : LogState} (pos : 0 < P) (inside : l.cursor ≤ P) (frames : List (List UInt8)) :
    (l.enters P frames).cursor ≤ P ∧ (frames ≠ [] → 0 < (l.enters P frames).cursor) ∧
      (l.enters P frames).cursor + (l.enters P frames).wrapCount * P =
        l.cursor + l.wrapCount * P + (frames.map (MmapLogSink.entryOf P)).flatten.length := by
  induction frames generalizing l with
  | nil => exact ⟨inside, absurd rfl, rfl⟩
  | cons raw frames ih =>
    obtain ⟨some, inside₁, count₁⟩ := enter_count inside (MmapLogSink.entryOf_pos P raw)
      (MmapLogSink.length_entryOf pos raw)
    obtain ⟨inside₂, more, count₂⟩ := ih inside₁
    refine ⟨inside₂, fun _ => ?_, ?_⟩
    · cases frames with
      | nil => exact some
      | cons next frames => exact more (List.cons_ne_nil next frames)
    · rw [List.map_cons, List.flatten_cons, List.length_append, ← Nat.add_assoc, ← count₁]
      exact count₂

/-- The cursor stands at the end of the region exactly when the bytes written fill it up. -/
lemma enters_full_iff {P : ℕ} {l : LogState} (inside : l.cursor < P) (frames : List (List UInt8)) :
    (l.enters P frames).cursor = P ↔
      frames ≠ [] ∧ P ∣ l.cursor + (frames.map (MmapLogSink.entryOf P)).flatten.length := by
  obtain ⟨le, some, count⟩ := enters_count (Nat.zero_lt_of_lt inside) inside.le frames
  rw [Nat.add_right_comm] at count
  constructor
  · intro full
    constructor
    · rintro rfl
      exact absurd full inside.ne
    · apply (Nat.dvd_add_left (Nat.dvd_mul_left P l.wrapCount)).mp
      rw [← count, full]
      exact Nat.dvd_add (Nat.dvd_refl P) (Nat.dvd_mul_left P _)
  · rintro ⟨nonempty, whole⟩
    have divides : P ∣ (l.enters P frames).cursor := by
      apply (Nat.dvd_add_left (Nat.dvd_mul_left P (l.enters P frames).wrapCount)).mp
      rw [count]
      exact Nat.dvd_add whole (Nat.dvd_mul_left P _)
    exact Nat.le_antisymm le (Nat.le_of_dvd (some nonempty) divides)

/-- Within the area the next sink reads the log as it is. -/
lemma reread_of_lt {P : ℕ} {l : LogState} (inside : l.cursor < P) : l.reread P = l := by
  rw [reread, if_neg (Nat.not_le.mpr inside)]

/-- A restarted log against one that went on: it has one wrap less, or it will when both write on. -/
structure Lags (P : ℕ) (l l' : LogState) : Prop where
  payload : l.payload = l'.payload
  counters : (l.cursor = l'.cursor ∧ l.wrapCount + 1 = l'.wrapCount) ∨
    (l.cursor = 0 ∧ l'.cursor = P ∧ l.wrapCount = l'.wrapCount)

/-- At the end of the area it starts one wrap behind. -/
lemma lags_reread {P : ℕ} {l : LogState} (full : l.cursor = P) : Lags P (l.reread P) l :=
  ⟨rfl, .inr ⟨if_pos full.ge, full, rfl⟩⟩

/-- A log that lags differs. -/
lemma Lags.ne {P : ℕ} {l l' : LogState} (lags : Lags P l l') (pos : 0 < P) : l ≠ l' := by
  rintro rfl
  obtain ⟨-, wraps⟩ | ⟨zero, full, -⟩ := lags.counters
  · omega
  · omega

/-- An entry written to both logs keeps the lag. -/
lemma Lags.enter {P : ℕ} {l l' : LogState} (lags : Lags P l l') {entry : List UInt8} (some : 0 < entry.length)
    (round : entry.length ≤ P) : Lags P (l.enter P entry) (l'.enter P entry) := by
  obtain ⟨payload, ⟨cursor, wraps⟩ | ⟨zero, full, wraps⟩⟩ := lags
  · rw [LogState.enter, LogState.enter, payload, cursor]
    split
    · exact ⟨rfl, .inl ⟨rfl, wraps⟩⟩
    · exact ⟨rfl, .inl ⟨rfl, congrArg (· + 1) wraps⟩⟩
  · -- the restarted log starts at the front, where the other one arrives by a wrap
    rw [enter_of_fits (by omega), enter_of_wraps (by omega), full, Nat.sub_self, List.take_zero, store_nil,
      List.drop_zero, zero, payload]
    exact ⟨rfl, .inl ⟨Nat.zero_add _, congrArg (· + 1) wraps⟩⟩

/-- Entries written to both logs keep the lag. -/
lemma Lags.enters {P : ℕ} {l l' : LogState} (lags : Lags P l l') (pos : 0 < P) (frames : List (List UInt8)) :
    Lags P (l.enters P frames) (l'.enters P frames) := by
  induction frames generalizing l l' with
  | nil => exact lags
  | cons raw frames ih =>
    exact ih (lags.enter (MmapLogSink.entryOf_pos P raw) (MmapLogSink.length_entryOf pos raw))

/-- A batch written to both logs keeps the lag. -/
lemma Lags.batch {P : ℕ} {l l' m' : LogState} (lags : Lags P l l') (pos : 0 < P) {frames : List (List UInt8)}
    (wrote : l'.batch P frames = .ok m') : ∃ m, l.batch P frames = .ok m ∧ Lags P m m' := by
  obtain ⟨rfl, few⟩ := batch_ok_iff.mp wrote
  have after := lags.enters pos frames
  refine ⟨_, batch_ok_iff.mpr ⟨rfl, fun some => ?_⟩, after⟩
  have fits := few some
  obtain ⟨-, wraps⟩ | ⟨-, -, wraps⟩ := after.counters
  · omega
  · omega

/-- Batches written to both logs keep the lag. -/
lemma Lags.batches {P : ℕ} {l l' m' : LogState} (lags : Lags P l l') (pos : 0 < P)
    {batches : List (List (List UInt8))} (wrote : batches.foldlM (LogState.batch P) l' = .ok m') :
    ∃ m, batches.foldlM (LogState.batch P) l = .ok m ∧ Lags P m m' := by
  induction batches generalizing l l' with
  | nil =>
    cases wrote
    exact ⟨l, rfl, lags⟩
  | cons frames batches ih =>
    rw [List.foldlM_cons] at wrote
    obtain ⟨mid', first', rest'⟩ := Py.bind_eq_ok.mp wrote
    obtain ⟨mid, first, after⟩ := lags.batch pos first'
    obtain ⟨m, rest, after'⟩ := ih after rest'
    refine ⟨m, ?_, after'⟩
    rw [List.foldlM_cons, first]
    exact rest

end LogState

namespace MmapLogSink
variable {P : ℕ} {s : MmapLogSink}

/-- What is compared of a sink. -/
def observe (s : MmapLogSink) : LogState := ⟨s.mm.drop headerSize, s.cursor, s.wrapCount⟩

/-- An open sink whose payload region has `P` bytes. -/
structure Writable (P : ℕ) (s : MmapLogSink) : Prop where
  size : s.payloadSize = P
  opened : s.closed = false
  magicField : slice s.mm 0 8 = magic
  inside : s.cursor ≤ P

namespace Writable

/-- The mapping has its header and its payload. -/
lemma length_mm (writable : Writable P s) : s.mm.length = headerSize + P ∧ 0 < P := by
  have size := writable.size
  have room := s.room
  rw [payloadSize] at size
  rw [s.exact]
  omega

/-- One frame enters the log. -/
lemma writeEntry (writable : Writable P s) (raw : List UInt8) :
    ∃ s', s.writeEntry raw = .ok s' ∧ observe s' = (observe s).enter P (entryOf P raw) ∧ Writable P s' ∧
      s'.mapSize = s.mapSize := by
  obtain ⟨len, pos⟩ := writable.length_mm
  have inside := writable.inside
  have round := length_entryOf pos raw
  have header : headerSize = 24 := rfl
  obtain ⟨s', wrote, size, closed, ⟨fits, mm, cursor, wraps⟩ | ⟨past, mm, cursor, wraps⟩⟩ :=
    writeEntry_cases writable.size inside raw
  · have room : headerSize + s.cursor + (entryOf P raw).length ≤ s.mm.length := by omega
    refine ⟨s', wrote, ?_, ⟨(congrArg (· - headerSize) size).trans writable.size, closed.trans writable.opened,
      ?_, by omega⟩, size⟩
    · rw [LogState.enter_of_fits (l := observe s) fits]
      apply LogState.ext _ cursor wraps
      show s'.mm.drop headerSize = store (s.mm.drop headerSize) s.cursor (entryOf P raw)
      rw [mm, drop_store room (Nat.le_add_right _ _), Nat.add_sub_cancel_left]
    · rw [mm, slice_store_of_disjoint room (.inl (by omega)), writable.magicField]
  · have tail : ((entryOf P raw).take (P - s.cursor)).length = P - s.cursor := by
      rw [List.length_take]
      omega
    have rest : ((entryOf P raw).drop (P - s.cursor)).length = (entryOf P raw).length - (P - s.cursor) :=
      List.length_drop
    have room : headerSize + s.cursor + ((entryOf P raw).take (P - s.cursor)).length ≤ s.mm.length := by omega
    have room' : headerSize + ((entryOf P raw).drop (P - s.cursor)).length ≤
        (store s.mm (headerSize + s.cursor) ((entryOf P raw).take (P - s.cursor))).length := by
      rw [length_store]
      omega
    refine ⟨s', wrote, ?_, ⟨(congrArg (· - headerSize) size).trans writable.size, closed.trans writable.opened,
      ?_, by omega⟩, size⟩
    · rw [LogState.enter_of_wraps (l := observe s) past]
      apply LogState.ext _ cursor wraps
      show s'.mm.drop headerSize = store (store (s.mm.drop headerSize) s.cursor _) 0 _
      rw [mm, drop_store room' le_rfl, Nat.sub_self, drop_store room (Nat.le_add_right _ _),
        Nat.add_sub_cancel_left]
      rfl
    · rw [mm, slice_store_of_disjoint room' (.inl (by omega)), slice_store_of_disjoint room (.inl (by omega)),
        writable.magicField]

/-- Writing entries to the sink writes them to its log. -/
lemma writeEntries (writable : Writable P s) (frames : List (List UInt8)) :
    ∃ s', frames.foldlM MmapLogSink.writeEntry s = .ok s' ∧
      observe s' = (observe s).enters P frames ∧ Writable P s' ∧ s'.mapSize = s.mapSize := by
  induction frames generalizing s with
  | nil => exact ⟨s, rfl, rfl, writable, rfl⟩
  | cons raw frames ih =>
    obtain ⟨s₁, wrote, entered, writable₁, size₁⟩ := writable.writeEntry raw
    obtain ⟨s₂, rest, entered₂, writable₂, size₂⟩ := ih writable₁
    refine ⟨s₂, ?_, ?_, writable₂, size₂.trans size₁⟩
    · rw [List.foldlM_cons, wrote]
      exact rest
    · rw [entered₂, entered]
      rfl

/-- The header of a sink is written without changing the log. -/
lemma flushed {s' : MmapLogSink} (writable : Writable P s) (same : Flushed s s') :
    Writable P s' ∧ observe s' = observe s := by
  constructor
  · refine ⟨(congrArg (· - headerSize) same.mapSize).trans writable.size, same.closed.trans writable.opened, ?_, ?_⟩
    · rw [same.magicField, writable.magicField]
    · rw [same.cursor]
      exact writable.inside
  · have payload : s'.mm.drop headerSize = s.mm.drop headerSize := by
      apply List.ext_getElem?
      intro j
      rw [List.getElem?_drop, List.getElem?_drop]
      exact same.cells j
    rw [observe, payload, same.cursor, same.wrapCount]
    rfl

end Writable

/-- A sink between two batches: its wraps fit their field. -/
structure Steady (P : ℕ) (s : MmapLogSink) : Prop extends Writable P s where
  few : s.wrapCount < 256 ^ 8

/-- A batch does to a sink what it does to its log, also where it raises. -/
lemma Steady.writeBatch_cases (steady : Steady P s) (small : P < 256 ^ 8) (frames : List (List UInt8)) :
    (∃ s', s.writeBatch frames = .ok s' ∧ (observe s).batch P frames = .ok (observe s') ∧ Steady P s' ∧
        s'.mapSize = s.mapSize) ∨
      (s.writeBatch frames = .error .structError ∧ (observe s).batch P frames = .error .structError) := by
  rw [writeBatch, LogState.batch]
  by_cases empty : frames = []
  · left
    exact ⟨s, if_pos (.inr empty), if_pos empty, steady, rfl⟩
  · have proceed : ¬(s.closed = true ∨ frames = []) := by
      rw [steady.opened]
      simpa using empty
    obtain ⟨s₁, wrote, entered, writable, size⟩ := steady.toWritable.writeEntries frames
    have low : s₁.cursor < 256 ^ 8 := writable.inside.trans_lt small
    rw [if_neg proceed, if_neg empty, wrote, ← entered]
    by_cases few : s₁.wrapCount < 256 ^ 8
    · left
      obtain ⟨s₂, written, same⟩ := flushHeader_ok low few
      obtain ⟨writable₂, observed⟩ := writable.flushed same
      refine ⟨s₂, written, ?_, ⟨writable₂, same.wrapCount.trans_lt few⟩, same.mapSize.trans size⟩
      rw [observed]
      exact if_pos few
    · right
      exact ⟨flushHeader_raises low (Nat.le_of_not_lt few), if_neg few⟩

/-- A run of batches on a sink is one on its log. -/
lemma Steady.writeBatches_cases (steady : Steady P s) (small : P < 256 ^ 8) (batches : List (List (List UInt8))) :
    (∃ s', batches.foldlM writeBatch s = .ok s' ∧
        batches.foldlM (LogState.batch P) (observe s) = .ok (observe s') ∧ Steady P s' ∧
        s'.mapSize = s.mapSize) ∨
      (batches.foldlM writeBatch s = .error .structError ∧
        batches.foldlM (LogState.batch P) (observe s) = .error .structError) := by
  induction batches generalizing s with
  | nil => exact .inl ⟨s, rfl, rfl, steady, rfl⟩
  | cons frames batches ih =>
    rw [List.foldlM_cons, List.foldlM_cons]
    obtain ⟨s₁, wrote, logged, steady₁, size₁⟩ | ⟨raised, raised'⟩ := steady.writeBatch_cases small frames
    · rw [wrote, logged]
      obtain ⟨s₂, rest, rest', steady₂, size₂⟩ | failed := ih steady₁
      · exact .inl ⟨s₂, rest, rest', steady₂, size₂.trans size₁⟩
      · exact .inr failed
    · right
      rw [raised, raised']
      exact ⟨rfl, rfl⟩

/-- A steady sink writes batches as its log does. -/
lemma Steady.simulates (steady : Steady P s) (small : P < 256 ^ 8) (batches : List (List (List UInt8))) :
    (batches.foldlM writeBatch s).map observe = batches.foldlM (LogState.batch P) (observe s) := by
  obtain ⟨s', ran, logged, -, -⟩ | ⟨raised, raised'⟩ := steady.writeBatches_cases small batches
  · rw [ran, logged]
    rfl
  · rw [raised, raised']
    rfl

/-- A field of eight bytes is below its bound. -/
lemma unpackQ_lt (s : MmapLogSink) {off : ℕ} (fits : off + 8 ≤ headerSize) : s.unpackQ off < 256 ^ 8 := by
  have len := s.exact
  have room := s.room
  have width : (slice s.mm off 8).length = 8 := length_slice (by omega)
  have bound := littleValue_lt (slice s.mm off 8)
  rw [width] at bound
  exact bound

/-- A sink that has read its header is ready, with its cursor before the end of the region. -/
lemma readHeader_ok {s t : MmapLogSink} (opened : s.closed = false) (read : s.readHeader = .ok t) :
    Steady (s.mapSize - headerSize) t ∧ t.mapSize = s.mapSize ∧ t.cursor < s.mapSize - headerSize := by
  have pos : 0 < s.mapSize - headerSize := Nat.sub_pos_of_lt s.room
  rw [readHeader] at read
  split at read
  · obtain ⟨s₁, wrote, size, closed, valid, -⟩ := writeNewHeader_eq s
    rw [wrote] at read
    cases read
    exact ⟨⟨⟨congrArg (· - headerSize) size, closed.trans opened, valid, Nat.zero_le _⟩, Nat.pow_pos (by decide)⟩,
      size, pos⟩
  · rename_i valid
    cases read
    have below : (if s.unpackQ cursorOffset ≥ s.payloadSize then 0 else s.unpackQ cursorOffset) <
        s.mapSize - headerSize := by
      split
      · exact pos
      · rename_i inside
        exact Nat.lt_of_not_le inside
    exact ⟨⟨⟨rfl, opened, not_not.mp valid, below.le⟩, s.unpackQ_lt (by decide)⟩, rfl, below⟩

/-- A sink that is created is steady, with its cursor inside. -/
lemma init_ok {mapSize : ℕ} {room : headerSize < mapSize} {file : Option (List UInt8)}
    (created : init mapSize room file = .ok s) :
    Steady (mapSize - headerSize) s ∧ s.mapSize = mapSize ∧ s.cursor < mapSize - headerSize ∧
      mapSize < 2 ^ 63 := by
  rw [init, Py.bind_eq_ok] at created
  obtain ⟨s₀, opened, read⟩ := created
  rw [openOrCreate] at opened
  split at opened
  · cases opened
  · rename_i small
    have ready : s₀.mapSize = mapSize ∧ s₀.closed = false := by
      obtain ⟨s₁, wrote, size, closed, -⟩ := writeNewHeader_eq (mapped mapSize room (file.getD []))
      simp only [wrote] at opened
      split at opened
      · cases opened
        exact ⟨size, closed⟩
      · cases opened
        exact ⟨rfl, rfl⟩
    obtain ⟨size, opened⟩ := ready
    obtain ⟨steady, size', below⟩ := readHeader_ok opened read
    rw [size] at steady size' below
    exact ⟨steady, size', below, Nat.lt_of_not_le small⟩

/-- A sink opened on the file of another one. -/
lemma init_reopened {c : MmapLogSink} (valid : slice c.mm 0 8 = magic) (below : c.mapSize < 2 ^ 63)
    (rest : List UInt8) :
    init c.mapSize c.room (some (c.mm ++ rest)) = .ok { c with
      cursor := if c.unpackQ cursorOffset ≥ c.payloadSize then 0 else c.unpackQ cursorOffset
      wrapCount := c.unpackQ wrapOffset
      closed := false } := by
  have len := c.exact
  have room := c.room
  have image : mapped c.mapSize c.room (c.mm ++ rest) = { c with cursor := 0, wrapCount := 0, closed := false } := by
    have front : (c.mm ++ rest ++ List.replicate (c.mapSize - (c.mm ++ rest).length) 0).take c.mapSize = c.mm := by
      rw [List.append_assoc, ← c.exact, List.take_left]
    rw [mapped, MmapLogSink.mk.injEq]
    exact ⟨rfl, front, rfl, rfl, rfl⟩
  have long : ¬((some (c.mm ++ rest)).isNone ∨ (c.mm ++ rest).length < headerSize) := by
    rw [List.length_append]
    simp
    omega
  simp only [init, openOrCreate, if_neg (Nat.not_le.mpr below), Option.getD_some, if_neg long, image, readHeader, bind,
    Except.bind, valid, ne_eq, not_true_eq_false, if_false]
  rfl

/-- Closing a sink and opening its file again rereads the log. -/
lemma Steady.reopens (steady : Steady P s) (small : P < 256 ^ 8) (below : s.mapSize < 2 ^ 63) (rest : List UInt8) :
    ∃ c t, s.close = .ok c ∧ init c.mapSize c.room (some (c.mm ++ rest)) = .ok t ∧ Steady P t ∧
      observe t = (observe s).reread P := by
  have proceed : ¬s.closed = true := by
    rw [steady.opened]
    exact Bool.false_ne_true
  obtain ⟨c, written, same⟩ := @flushHeader_ok { s with closed := true } (steady.inside.trans_lt small) steady.few
  have valid : slice c.mm 0 8 = magic := same.magicField.trans steady.magicField
  have size : c.mapSize = s.mapSize := same.mapSize
  have reopened := init_reopened valid (size ▸ below) rest
  have pos : 0 < P := steady.length_mm.2
  have payload : c.payloadSize = P := (congrArg (· - headerSize) size).trans steady.size
  refine ⟨c, _, (if_neg proceed).trans written, reopened, ⟨⟨payload, rfl, valid, ?_⟩, ?_⟩, ?_⟩
  · show (if c.unpackQ cursorOffset ≥ c.payloadSize then 0 else c.unpackQ cursorOffset) ≤ P
    rw [payload]
    split
    · exact Nat.zero_le _
    · omega
  · exact (same.wrapField).trans_lt steady.few
  · apply LogState.ext
    · apply List.ext_getElem?
      intro j
      show (c.mm.drop headerSize)[j]? = (s.mm.drop headerSize)[j]?
      rw [List.getElem?_drop, List.getElem?_drop]
      exact same.cells j
    · show (if c.unpackQ cursorOffset ≥ c.payloadSize then 0 else c.unpackQ cursorOffset) = _
      rw [payload, same.cursorField]
      rfl
    · exact same.wrapField

/-- A restart in the middle of a run, as the log sees it. -/
lemma Steady.restarted_eq (steady : Steady P s) (small : P < 256 ^ 8) (below : s.mapSize < 2 ^ 63)
    (rest : List UInt8) (A B : List (List (List UInt8))) :
    (restarted rest s A B).map observe =
      (A.foldlM (LogState.batch P) (observe s)).bind fun m => B.foldlM (LogState.batch P) (m.reread P) := by
  obtain ⟨s₁, ran, logged, steady₁, size⟩ | ⟨raised, raised'⟩ := steady.writeBatches_cases small A
  · obtain ⟨c, t, closed, opened, steadyT, reread⟩ := steady₁.reopens small (size ▸ below) rest
    rw [restarted, ran, logged]
    simp only [closed, opened, bind, Except.bind]
    rw [steadyT.simulates small, reread]
  · rw [restarted, raised, raised']
    rfl

end MmapLogSink

open MmapLogSink

/-- A restart between two lists of batches leaves the log that one sink leaves unless the first list ends exactly
at the end of the payload region, and then it never does: the wrap of the next entry, or the cursor itself, is
lost. -/
theorem restart_invisible_iff (mapSize : ℕ) (room : headerSize < mapSize) (file : Option (List UInt8))
    (sink : MmapLogSink) (created : MmapLogSink.init mapSize room file = .ok sink) (rest : List UInt8)
    (A B : List (List (List UInt8))) (P : ℕ) (payload : P = mapSize - headerSize) :
    (¬(A.flatten ≠ [] ∧ P ∣ sink.cursor + (A.flatten.map (entryOf P)).flatten.length) →
      (restarted rest sink A B).map observe = ((A ++ B).foldlM writeBatch sink).map observe) ∧
    ∀ s, (A ++ B).foldlM writeBatch sink = .ok s →
      ((restarted rest sink A B).map observe = .ok (observe s) ↔
        ¬(A.flatten ≠ [] ∧ P ∣ sink.cursor + (A.flatten.map (entryOf P)).flatten.length)) := by
  obtain ⟨steady, size, inside, below⟩ := init_ok created
  rw [← payload] at steady inside
  have small : P < 256 ^ 8 := by omega
  have straight := steady.simulates small (A ++ B)
  have again := steady.restarted_eq small (size ▸ below) rest A B
  have full := LogState.enters_full_iff (l := observe sink) inside A.flatten
  have first : ¬(A.flatten ≠ [] ∧ P ∣ sink.cursor + (A.flatten.map (entryOf P)).flatten.length) →
      (restarted rest sink A B).map observe = ((A ++ B).foldlM writeBatch sink).map observe := by
    intro apart
    rw [straight, again, List.foldlM_append]
    cases ran : A.foldlM (LogState.batch P) (observe sink) with
    | error e => rfl
    | ok m =>
      have cursor : m.cursor < P := by
        obtain ⟨le, -⟩ := LogState.enters_count (Nat.zero_lt_of_lt inside)
          (show (observe sink).cursor ≤ P from inside.le) A.flatten
        rw [LogState.batches_ok ran]
        exact Nat.lt_of_le_of_ne le fun eq => apart (full.mp eq)
      show B.foldlM (LogState.batch P) (m.reread P) = B.foldlM (LogState.batch P) m
      rw [LogState.reread_of_lt cursor]
  refine ⟨first, fun s completed => ⟨fun same ends => ?_, fun apart => ?_⟩⟩
  · rw [completed, List.foldlM_append] at straight
    obtain ⟨m, ran, rest'⟩ := Py.bind_eq_ok.mp straight.symm
    have cursor : m.cursor = P := by
      rw [LogState.batches_ok ran]
      exact full.mpr ends
    have pos : 0 < P := Nat.zero_lt_of_lt inside
    -- the two logs go on side by side, and stay apart
    obtain ⟨r, ran', lags⟩ := (LogState.lags_reread cursor).batches pos rest'
    rw [ran] at again
    have reached : (restarted rest sink A B).map observe = .ok r := again.trans ran'
    rw [reached] at same
    exact lags.ne pos (Except.ok.inj same)
  · rw [first apart, completed]
    rfl

/-- A region of eight bytes: the first run leaves the cursor at 7, and the second one wraps. -/
theorem restart_invisible_iff_wrapped :
    ∃ sink, MmapLogSink.init 32 (by decide) none = .ok sink ∧
      (([[[1, 2], [3, 4, 5]], [[6, 7, 8]]].foldlM writeBatch sink).map observe).toOption =
        some ⟨[7, 8, 10, 3, 4, 5, 10, 6], 3, 1⟩ ∧
      ∀ s, [[[1, 2], [3, 4, 5]], [[6, 7, 8]]].foldlM writeBatch sink = .ok s →
        (restarted [] sink [[[1, 2], [3, 4, 5]]] [[[6, 7, 8]]]).map observe = .ok (observe s) := by
  refine ⟨_, rfl, by decide, fun s ran => ?_⟩
  exact ((restart_invisible_iff 32 (by decide) none _ rfl [] [[[1, 2], [3, 4, 5]]] [[[6, 7, 8]]] 8 rfl).2 s ran).mpr
    (by decide)

/-- A region of five bytes that the first entry fills: without a restart the next one counts a wrap. -/
theorem restart_loses_wrap :
    ∃ sink s t, MmapLogSink.init 29 (by decide) none = .ok sink ∧
      [[[1, 2, 3, 4]], [[5]]].foldlM writeBatch sink = .ok s ∧ s.wrapCount = 1 ∧
      restarted [] sink [[[1, 2, 3, 4]]] [[[5]]] = .ok t ∧ t.wrapCount = 0 :=
  ⟨_, _, _, rfl, rfl, by decide, rfl, by decide⟩

end StellarFlow.Ingestion
