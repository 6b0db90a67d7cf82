import Mathlib.Data.List.Induction
import StellarFlow.Lib.Framing
import StellarFlow.Lib.Memory
import StellarFlow.Lib.Python

/-!
# The rolling stream buffer

Model of `StreamBuffer` in `src/ingestion/stream_buffer.py`: a pre-allocated buffer in which the bytes
that no newline has ended yet are kept between two calls of `feed`. `_decode` is the parameter `decode`.
A generator that the caller exhausts is the list of the values it yields together with the exception
that ends it, if any; the buffer has its final state before the first value is yielded.

`feed_eq` says what one call does to the retained bytes, and `feedAll_eq_frames` that any chunking of a
stream yields the frames of the whole stream.
-/

namespace StellarFlow.Ingestion
open Memory Framing

/-- `_NEWLINE`. -/
def newline : UInt8 := 10

/-- `StreamBuffer`; the retained bytes lie inside the backing buffer, at its front when there are none. -/
structure StreamBuffer where
  buf : List UInt8
  start : ℕ
  size : ℕ
  capacity : ℕ
  exact : buf.length = capacity
  inside : start + size ≤ capacity
  emptied : size = 0 → start = 0

namespace StreamBuffer

/-- `StreamBuffer.__init__`. -/
def init (bufferSize : ℤ) : Except PyError StreamBuffer :=
  if bufferSize ≤ 0 then .error (.valueError "buffer size must be positive")
  else .ok {
    buf := List.replicate bufferSize.toNat 0
    start := 0
    size := 0
    capacity := bufferSize.toNat
    exact := List.length_replicate
    inside := Nat.zero_le _
    emptied := fun _ => rfl }

/-- The view of the retained bytes. -/
def retained (b : StreamBuffer) : List UInt8 := slice b.buf b.start b.size

/-- A new buffer retains nothing. -/
lemma init_empty {bufferSize : ℤ} {b : StreamBuffer} (created : init bufferSize = .ok b) :
    (b.capacity : ℤ) = bufferSize ∧ b.retained = [] := by
  rw [init] at created
  split at created
  · cases created
  · cases created
    exact ⟨Int.toNat_of_nonneg (by omega), rfl⟩

/-- The size is the length of what is retained. -/
@[simp] lemma length_retained (b : StreamBuffer) : b.retained.length = b.size :=
  length_slice (b.exact.symm ▸ b.inside)

/-- `StreamBuffer._compact`. -/
def compact (b : StreamBuffer) : StreamBuffer :=
  if b.size = 0 ∨ b.start = 0 then b
  else { b with
    buf := store b.buf 0 b.retained
    start := 0
    exact := (length_store _ _ _).trans b.exact
    inside := (Nat.zero_add _).trans_le ((Nat.le_add_left _ _).trans b.inside)
    emptied := fun _ => rfl }

/-- After compaction the data starts at the front. -/
lemma compact_start (b : StreamBuffer) : b.compact.start = 0 := by
  rw [compact]
  split
  · rename_i front
    exact front.elim b.emptied id
  · rfl

/-- The new bytes stored behind the retained ones, in a buffer whose retained bytes are at the front. -/
def write (b : StreamBuffer) (data : List UInt8) (front : b.start = 0)
    (fits : ¬ data.length > b.capacity - b.size) : StreamBuffer where
  buf := store b.buf (b.start + b.size) data
  start := b.start
  size := b.size + data.length
  capacity := b.capacity
  exact := (length_store _ _ _).trans b.exact
  inside := by
    have inside := b.inside
    omega
  emptied := fun _ => front

/-- One turn of the scan of `feed`, on the frames found and the start of the current one. -/
def scanStep (view : List UInt8) (acc : List (List UInt8) × ℕ) (i : ℕ) : List (List UInt8) × ℕ :=
  let (rawFrames, start) := acc
  if view[i]? = some newline then
    (if i > start then rawFrames ++ [slice view start (i - start)] else rawFrames, i + 1)
  else acc

/-- The scan of `feed`: the complete frames and the number of bytes consumed. -/
def scan (view : List UInt8) : List (List UInt8) × ℕ :=
  (List.range view.length).foldl (scanStep view) ([], 0)

/-- After `k` turns the frames of the first `k` bytes are found, and the current frame is what these
leave unterminated. -/
lemma foldl_scanStep (view : List UInt8) {k : ℕ} (le : k ≤ view.length) :
    ∃ start, (List.range k).foldl (scanStep view) ([], 0) = (frames newline (view.take k), start) ∧
      start ≤ k ∧ (view.take k).drop start = unterminated newline (view.take k) := by
  induction k with
  | zero => exact ⟨0, rfl, le_rfl, rfl⟩
  | succ k ih =>
    obtain ⟨start, run, low, open_⟩ := ih (Nat.le_of_succ_le le)
    have cell : view[k]? = some (view[k]) := List.getElem?_eq_getElem le
    have next : view.take (k + 1) = view.take k ++ [view[k]] := by
      rw [List.take_add_one, cell]
      rfl
    rw [List.range_succ, List.foldl_append, run, List.foldl_cons, List.foldl_nil, scanStep, cell, next]
    by_cases ends : view[k] = newline
    · rw [if_pos (congrArg some ends), ends, frames_snoc_self, (cut_snoc_self newline _).2, ← open_]
      have length : ((view.take k).drop start).length = k - start := by
        rw [List.length_drop, List.length_take]
        omega
      refine ⟨k + 1, ?_, le_rfl, ?_⟩
      · by_cases more : k > start
        · have nonempty : (view.take k).drop start ≠ [] := by
            rw [← List.length_pos_iff]
            omega
          rw [if_pos more, if_neg nonempty, List.drop_take]
          rfl
        · have empty : (view.take k).drop start = [] := by
            rw [← List.length_eq_zero_iff]
            omega
          rw [if_neg more, if_pos empty]
      · apply List.drop_eq_nil_of_le
        rw [List.length_append, List.length_take, List.length_singleton]
        omega
    · rw [if_neg (fun eq => ends (Option.some.inj eq)), frames_snoc_of_ne newline ends,
        (cut_snoc_of_ne newline ends _).2, ← open_]
      refine ⟨start, rfl, Nat.le_succ_of_le low, ?_⟩
      rw [List.drop_append_of_le_length]
      rw [List.length_take]
      omega

/-- The scan finds the frames, and stops before the unterminated rest. -/
lemma scan_spec (view : List UInt8) :
    (scan view).1 = frames newline view ∧ (scan view).2 ≤ view.length ∧
      view.drop (scan view).2 = unterminated newline view := by
  obtain ⟨start, run, low, open_⟩ := foldl_scanStep view le_rfl
  rw [List.take_length] at run open_
  rw [scan, run]
  exact ⟨rfl, low, open_⟩

/-- The end of the buffer update of `feed`: the consumed bytes are dropped. -/
def consume (b : StreamBuffer) (consumed : ℕ) (le : consumed ≤ b.size) : StreamBuffer :=
  if consumed = 0 then b
  else if left : b.size - consumed = 0 then
    { b with start := 0, size := 0, inside := Nat.zero_le _, emptied := fun _ => rfl }
  else
    { b with
      start := b.start + consumed
      size := b.size - consumed
      inside := by
        have inside := b.inside
        omega
      emptied := fun empty => absurd empty left }

variable {V : Type} (decode : List UInt8 → Except PyError V)

/-- The last loop of `feed`: the values yielded before a frame fails to decode, and its exception. -/
def decodeAll : List (List UInt8) → List V × Option PyError
  | [] => ([], none)
  | frame :: rest =>
    match decode frame with
    | .error e => ([], some e)
    | .ok value =>
      let (values, ended) := decodeAll rest
      (value :: values, ended)

/-- `StreamBuffer.feed`, with the generator exhausted. -/
def feed (b : StreamBuffer) (data : List UInt8) : (List V × Option PyError) × StreamBuffer :=
  if data = [] then (([], none), b)
  else if exceeds : data.length > b.compact.capacity - b.compact.size then
    (([], some (.valueError "stream chunk exceeds pre-allocated buffer capacity")), b.compact)
  else
    let b := b.compact.write data b.compact_start exceeds
    (decodeAll decode (scan b.retained).1,
      b.consume (scan b.retained).2 ((scan_spec b.retained).2.1.trans_eq b.length_retained))

/-- `StreamBuffer.reset`. -/
def reset (b : StreamBuffer) : StreamBuffer :=
  { b with start := 0, size := 0, inside := Nat.zero_le _, emptied := fun _ => rfl }

/-- One more chunk, unless an exception has ended the feeding. -/
def feedNext (acc : (List V × Option PyError) × StreamBuffer) (data : List UInt8) :
    (List V × Option PyError) × StreamBuffer :=
  match acc with
  | ((values, some e), b) => ((values, some e), b)
  | ((values, none), b) =>
    let ((more, ended), b) := feed decode b data
    ((values ++ more, ended), b)

/-- The chunks of a stream fed one after another. -/
def feedAll (b : StreamBuffer) (chunks : List (List UInt8)) : (List V × Option PyError) × StreamBuffer :=
  chunks.foldl (feedNext decode) (([], none), b)

/-- Compaction keeps the capacity. -/
@[simp] lemma compact_capacity (b : StreamBuffer) : b.compact.capacity = b.capacity := by
  rw [compact]
  split
  · rfl
  · rfl

/-- Compaction moves the retained bytes and keeps them. -/
lemma compact_retained (b : StreamBuffer) : b.compact.retained = b.retained := by
  rw [compact]
  split
  · rfl
  · have fits : 0 + b.retained.length ≤ b.buf.length := by
      have inside := b.inside
      rw [b.exact, length_retained]
      omega
    have back := slice_store_self fits
    rw [length_retained] at back
    exact back

/-- Data that fits is retained behind the rest. -/
lemma write_retained {b : StreamBuffer} {data : List UInt8} (front : b.start = 0)
    (fits : ¬ data.length > b.capacity - b.size) :
    (b.write data front fits).retained = b.retained ++ data := by
  have len := b.exact
  have inside := b.inside
  have room : b.start + b.size + data.length ≤ b.buf.length := by omega
  apply List.ext_getElem?
  intro i
  show (slice (store b.buf (b.start + b.size) data) b.start (b.size + data.length))[i]? = _
  rw [getElem?_slice, getElem?_store room, front]
  by_cases old : i < b.size
  · rw [if_pos (by omega), if_neg (by omega), List.getElem?_append_left (by rw [length_retained]; exact old),
      retained, getElem?_slice, if_pos old, front]
  · rw [List.getElem?_append_right (by rw [length_retained]; omega), length_retained]
    split
    · rw [if_pos (by omega)]
      congr 1
      omega
    · rw [List.getElem?_eq_none (by omega)]

/-- What is consumed is dropped. -/
lemma consume_retained (b : StreamBuffer) {consumed : ℕ} (le : consumed ≤ b.size) :
    (b.consume consumed le).retained = b.retained.drop consumed := by
  rw [consume]
  split
  · rename_i none_
    rw [none_, List.drop_zero]
  · split
    · rename_i left
      rw [List.drop_eq_nil_of_le (by rw [length_retained]; omega)]
      rfl
    · simp only [retained, slice, List.drop_take, List.drop_drop]

/-- Consuming keeps the capacity. -/
@[simp] lemma consume_capacity (b : StreamBuffer) {consumed : ℕ} (le : consumed ≤ b.size) :
    (b.consume consumed le).capacity = b.capacity := by
  rw [consume]
  split
  · rfl
  · split
    · rfl
    · rfl

/-- A chunk that fits: the frames it completes are decoded, and what is left open is retained. -/
lemma feed_eq {b : StreamBuffer} {past data : List UInt8} (open_ : b.retained = unterminated newline past)
    (fits : b.size + data.length ≤ b.capacity) :
    ∃ b', feed decode b data = (decodeAll decode (frames newline (unterminated newline past ++ data)), b') ∧
      b'.retained = unterminated newline (past ++ data) ∧ b'.capacity = b.capacity := by
  rw [feed]
  split
  · rename_i empty
    subst empty
    refine ⟨b, ?_, ?_, rfl⟩
    · rw [List.append_nil, frames_unterminated]
      rfl
    · rw [List.append_nil, open_]
  · have size : b.compact.size = b.size := by
      rw [← length_retained, compact_retained, length_retained]
    have room : ¬ data.length > b.compact.capacity - b.compact.size := by
      rw [size, compact_capacity]
      omega
    rw [dif_neg room]
    have view := write_retained b.compact_start room
    rw [compact_retained, open_] at view
    obtain ⟨found, -, left⟩ := scan_spec (b.compact.write data b.compact_start room).retained
    refine ⟨_, Prod.ext ?_ rfl, ?_, ?_⟩
    · exact congrArg (decodeAll decode) (found.trans (congrArg (frames newline) view))
    · rw [consume_retained, left, view, ← unterminated_append]
    · rw [consume_capacity]
      exact b.compact_capacity

/-- Frames that can all be decoded are. -/
lemma decodeAll_ok {fs : List (List UInt8)} (decodable : ∀ frame ∈ fs, ∃ value, decode frame = .ok value) :
    ∃ values, decodeAll decode fs = (values, none) ∧ fs.map decode = values.map .ok := by
  induction fs with
  | nil => exact ⟨[], rfl, rfl⟩
  | cons frame rest ih =>
    obtain ⟨value, decoded⟩ := decodable frame List.mem_cons_self
    obtain ⟨values, yielded, same⟩ := ih (fun f mem => decodable f (List.mem_cons_of_mem _ mem))
    refine ⟨value :: values, ?_, ?_⟩
    · rw [decodeAll, decoded, yielded]
    · rw [List.map_cons, decoded, same, List.map_cons]

end StreamBuffer

open StreamBuffer

/-- Feeding a stream chunk by chunk yields the decoded frames of the whole stream and leaves the bytes
after its last newline in the buffer, wherever the stream is cut. -/
theorem feedAll_eq_frames {V : Type} (decode : List UInt8 → Except PyError V) (bufferSize : ℤ)
    (buffer : StreamBuffer) (created : StreamBuffer.init bufferSize = .ok buffer) (stream : List UInt8)
    (decodable : ∀ frame ∈ frames newline stream, ∃ value, decode frame = .ok value)
    (chunks : List (List UInt8)) (split : chunks.flatten = stream)
    (fits : ∀ k (lt : k < chunks.length),
      (unterminated newline (chunks.take k).flatten).length + (chunks[k].length : ℤ) ≤ bufferSize) :
    ∃ values buffer', feedAll decode buffer chunks = ((values, none), buffer') ∧
      (frames newline stream).map decode = values.map .ok ∧
      buffer'.retained = unterminated newline stream := by
  have capacity := init_empty created
  subst split
  -- every prefix of the chunks leaves the buffer with the open end of its bytes
  suffices run : ∃ values buffer', feedAll decode buffer chunks = ((values, none), buffer') ∧
      (frames newline chunks.flatten).map decode = values.map .ok ∧
      buffer'.retained = unterminated newline chunks.flatten ∧ buffer'.capacity = buffer.capacity by
    obtain ⟨values, buffer', fed, same, left, -⟩ := run
    exact ⟨values, buffer', fed, same, left⟩
  induction chunks using List.reverseRecOn with
  | nil => exact ⟨[], buffer, rfl, rfl, capacity.2, rfl⟩
  | append_singleton past chunk ih =>
    rw [List.flatten_append, List.flatten_singleton, frames_append] at decodable
    obtain ⟨values, b, fed, same, left, cap⟩ := ih
      (fun k lt => by
        have bound := fits k (by rw [List.length_append]; omega)
        rw [List.take_append_of_le_length lt.le, List.getElem_append_left lt] at bound
        exact bound)
      (fun frame mem => decodable frame (List.mem_append_left _ mem))
    have room : b.size + chunk.length ≤ b.capacity := by
      have bound := fits past.length (by rw [List.length_append, List.length_singleton]; omega)
      rw [List.take_left, List.getElem_concat_length rfl, ← left, length_retained] at bound
      omega
    obtain ⟨b', yielded, left', cap'⟩ := feed_eq decode left room
    obtain ⟨more, decoded, same'⟩ := decodeAll_ok decode
      (fun frame mem => decodable frame (List.mem_append_right _ mem))
    refine ⟨values ++ more, b', ?_, ?_, ?_, cap'.trans cap⟩
    · rw [feedAll, List.foldl_append, ← feedAll, fed, List.foldl_cons, List.foldl_nil, feedNext,
        yielded, decoded]
    · rw [List.flatten_append, List.flatten_singleton, frames_append, List.map_append, same, same',
        List.map_append]
    · rw [List.flatten_append, List.flatten_singleton, left']

/-- A decoder of the natural numbers of JSON. -/
def decodeNumber (frame : List UInt8) : Except PyError ℕ :=
  if frame ≠ [] ∧ frame.all (fun byte => 48 ≤ byte && byte ≤ 57) ∧ (frame.head? = some 48 → frame.length = 1) then
    .ok (frame.foldl (fun n byte => 10 * n + (byte.toNat - 48)) 0)
  else .error (.valueError "Expecting value")

/-- A frame cut in two and an empty line, in a buffer of eight bytes. -/
theorem feedAll_eq_frames_cut_frame :
    ∃ buffer, StreamBuffer.init 8 = .ok buffer ∧
      ∃ values buffer',
        feedAll decodeNumber buffer [[49], [50, 10, 10, 51], [10, 52]] = ((values, none), buffer') ∧
        (frames newline [49, 50, 10, 10, 51, 10, 52]).map decodeNumber = values.map .ok ∧
        buffer'.retained = unterminated newline [49, 50, 10, 10, 51, 10, 52] := by
  refine ⟨_, rfl, ?_⟩
  have decodable : ∀ frame ∈ frames newline [49, 50, 10, 10, 51, 10, 52], ∃ value, decodeNumber frame = .ok value :=
    List.forall_mem_cons.2 ⟨⟨12, rfl⟩, List.forall_mem_singleton.2 ⟨3, rfl⟩⟩
  apply feedAll_eq_frames decodeNumber 8 _ rfl _ decodable _ rfl
  decide

end StellarFlow.Ingestion
