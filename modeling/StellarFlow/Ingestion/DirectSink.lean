import StellarFlow.Ingestion.StreamBuffer

/-!
# The direct write sink

Model of `DirectIOSink` in `src/ingestion/stream_buffer.py`, on a file that is a list of bytes. A write
appends all of its bytes; `O_DIRECT`, under which the file system may refuse a buffer, is left out. Each batch is
padded with null bytes to whole blocks, and the frames are meant to be read back the way `StreamBuffer.feed` finds
them. The padding follows the last newline of its batch, so the reader finds it in front of the first frame of the
next one.
-/

namespace StellarFlow.Ingestion
open Framing

/-- `DirectIOSink`, with the content of its file. -/
structure DirectIOSink where
  alignment : ℕ
  closed : Bool
  bytesWritten : ℕ
  file : List UInt8
  positive : 0 < alignment
  powerOfTwo : alignment &&& (alignment - 1) = 0

namespace DirectIOSink

/-- `DirectIOSink.__init__` on a file with the given content. -/
def init (file : List UInt8) (alignment : ℤ) : Except PyError DirectIOSink :=
  if h : 0 < alignment.toNat ∧ alignment.toNat &&& (alignment.toNat - 1) = 0 then
    .ok {
      alignment := alignment.toNat
      closed := false
      bytesWritten := 0
      file := file
      positive := h.1
      powerOfTwo := h.2 }
  else .error (.valueError s!"alignment must be a positive power of two, got {alignment}")

/-- `DirectIOSink._pad_to_alignment`. -/
def padToAlignment (alignment : ℕ) (data : List UInt8) : List UInt8 :=
  let remainder := data.length % alignment
  if remainder = 0 then data else data ++ List.replicate (alignment - remainder) 0

/-- The line `_write_batch_sync` makes of a frame. -/
def line (f : List UInt8) : List UInt8 :=
  if f.getLast? = some newline then f else f ++ [newline]

/-- `DirectIOSink._write_batch_sync`. -/
def writeBatchSync (s : DirectIOSink) (fs : List (List UInt8)) : Except PyError (ℕ × DirectIOSink) :=
  if fs = [] then .ok (0, s)
  else
    let combined := (fs.map line).flatten
    if s.closed then .error (.runtimeError "DirectIOSink is closed")
    else
      let padded := padToAlignment s.alignment combined
      .ok (padded.length, { s with
        file := s.file ++ padded
        bytesWritten := s.bytesWritten + padded.length })

/-- `DirectIOSink.write_batch`, without its answer. -/
def writeBatch (s : DirectIOSink) (fs : List (List UInt8)) : Except PyError DirectIOSink :=
  (s.writeBatchSync fs).map Prod.snd

/-- What one batch adds to the file. -/
def block (alignment : ℕ) (fs : List (List UInt8)) : List UInt8 :=
  if fs = [] then [] else padToAlignment alignment (fs.map line).flatten

/-- An open sink appends the block of the batch. -/
lemma writeBatch_eq {s : DirectIOSink} (opened : s.closed = false) (fs : List (List UInt8)) :
    ∃ s', s.writeBatch fs = .ok s' ∧ s'.file = s.file ++ block s.alignment fs ∧
      s'.alignment = s.alignment ∧ s'.closed = false := by
  rw [writeBatch, writeBatchSync, block]
  split
  · exact ⟨s, rfl, (List.append_nil _).symm, rfl, opened⟩
  · have proceed : ¬s.closed = true := by
      rw [opened]
      exact Bool.false_ne_true
    rw [if_neg proceed]
    exact ⟨_, rfl, rfl, rfl, opened⟩

/-- An open sink writes one block for each batch. -/
lemma foldlM_writeBatch {s : DirectIOSink} (opened : s.closed = false) (batches : List (List (List UInt8))) :
    ∃ s', batches.foldlM writeBatch s = .ok s' ∧
      s'.file = s.file ++ batches.flatMap (block s.alignment) := by
  induction batches generalizing s with
  | nil => exact ⟨s, rfl, (List.append_nil _).symm⟩
  | cons fs batches ih =>
    obtain ⟨s₁, wrote, file₁, alignment₁, opened₁⟩ := writeBatch_eq opened fs
    obtain ⟨s₂, ran, file₂⟩ := ih opened₁
    refine ⟨s₂, ?_, ?_⟩
    · rw [List.foldlM_cons, wrote]
      exact ran
    · rw [file₂, file₁, alignment₁, List.flatMap_cons, List.append_assoc]

/-- The padding of a block. -/
lemma padToAlignment_eq {alignment : ℕ} (pos : 0 < alignment) (data : List UInt8) :
    ∃ k, padToAlignment alignment data = data ++ List.replicate k 0 ∧ (k = 0 ↔ alignment ∣ data.length) := by
  rw [padToAlignment]
  have lt := Nat.mod_lt data.length pos
  split
  · rename_i whole
    exact ⟨0, (List.append_nil _).symm, iff_of_true rfl (Nat.dvd_of_mod_eq_zero whole)⟩
  · rename_i rest
    refine ⟨_, rfl, iff_of_false (by omega) fun whole => rest (Nat.mod_eq_zero_of_dvd whole)⟩

end DirectIOSink

open DirectIOSink

/-- A frame that can be told apart from what the sink adds. -/
structure PlainFrame (f : List UInt8) : Prop where
  nonempty : f ≠ []
  noNewline : newline ∉ f
  noNull : (0 : UInt8) ∉ f

/-- A plain frame is written as its line. -/
lemma line_eq {f : List UInt8} (plain : PlainFrame f) : line f = f ++ [newline] := by
  apply if_neg
  intro ends
  exact plain.noNewline (List.mem_of_getLast? ends)

/-- Whole lines in front of the rest of a stream. -/
lemma frames_lines {fs : List (List UInt8)} (plain : ∀ f ∈ fs, PlainFrame f) (rest : List UInt8) :
    frames newline ((fs.map line).flatten ++ rest) = fs ++ frames newline rest := by
  induction fs with
  | nil => rfl
  | cons f fs ih =>
    obtain ⟨first, others⟩ := List.forall_mem_cons.mp plain
    rw [List.map_cons, List.flatten_cons, line_eq first, List.append_assoc, List.append_assoc,
      List.singleton_append, frames_line newline first.noNewline first.nonempty, ih others, List.cons_append]

/-- The lines of a batch behind `k` null bytes: these become part of its first frame. -/
lemma frames_padded {f : List UInt8} {fs : List (List UInt8)} (plain : ∀ g ∈ f :: fs, PlainFrame g) (k : ℕ)
    (rest : List UInt8) :
    frames newline (List.replicate k 0 ++ (((f :: fs).map line).flatten ++ rest)) =
      (List.replicate k 0 ++ f) :: (fs ++ frames newline rest) := by
  obtain ⟨first, others⟩ := List.forall_mem_cons.mp plain
  have clean : newline ∉ List.replicate k 0 ++ f := by
    rw [List.mem_append, not_or]
    refine ⟨fun mem => ?_, first.noNewline⟩
    exact absurd (List.eq_of_mem_replicate mem) (by decide)
  have nonempty : List.replicate k 0 ++ f ≠ [] := fun empty => first.nonempty (List.append_eq_nil_iff.mp empty).2
  rw [List.map_cons, List.flatten_cons, line_eq first, List.append_assoc, List.append_assoc,
    ← List.append_assoc (List.replicate k 0), List.singleton_append, frames_line newline clean nonempty,
    frames_lines others]

/-- Only whole blocks may be followed by more frames. -/
def WholeBlocks (alignment : ℕ) (batches : List (List (List UInt8))) : Prop :=
  batches.Pairwise fun earlier later => later ≠ [] → alignment ∣ (earlier.map line).flatten.length

/-- The frames found in a file behind `k` null bytes are those of the batches exactly when these bytes are
not in front of a frame, and neither is the padding of any batch. -/
lemma frames_blocks_iff {alignment : ℕ} (pos : 0 < alignment) {batches : List (List (List UInt8))}
    (plain : ∀ fs ∈ batches, ∀ f ∈ fs, PlainFrame f) (k : ℕ) :
    frames newline (List.replicate k 0 ++ batches.flatMap (block alignment)) = batches.flatten ↔
      (∀ later ∈ batches, later ≠ [] → k = 0) ∧ WholeBlocks alignment batches := by
  induction batches generalizing k with
  | nil =>
    have none_ : frames newline (List.replicate k 0) = [] := by
      have clean : newline ∉ List.replicate k (0 : UInt8) := fun mem =>
        absurd (List.eq_of_mem_replicate mem) (by decide)
      rw [frames, terminated, List.splitOn_eq_singleton clean]
      rfl
    simp [WholeBlocks, none_]
  | cons fs batches ih =>
    obtain ⟨plain₁, others⟩ := List.forall_mem_cons.mp plain
    rw [List.flatMap_cons, List.flatten_cons, WholeBlocks, List.pairwise_cons, ← WholeBlocks,
      List.forall_mem_cons]
    cases fs with
    | nil =>
      rw [block, if_pos rfl, List.nil_append, List.nil_append, ih others k]
      simp
    | cons f fs =>
      obtain ⟨pad, padded, whole⟩ := padToAlignment_eq pos ((f :: fs).map line).flatten
      rw [block, if_neg (List.cons_ne_nil f fs), padded, List.append_assoc, frames_padded plain₁,
        List.cons_append, List.cons.injEq, List.append_cancel_left_eq, ih others pad, ← whole]
      have bare : List.replicate k 0 ++ f = f ↔ k = 0 := by
        rw [List.append_left_eq_self, List.replicate_eq_nil_iff]
      rw [bare]
      constructor
      · rintro ⟨front, rest⟩
        exact ⟨⟨fun _ => front, fun _ _ _ => front⟩, rest⟩
      · rintro ⟨⟨front, -⟩, rest⟩
        exact ⟨front (List.cons_ne_nil f fs), rest⟩

/-- The frames that `StreamBuffer.feed` finds in the file of a sink are those of all batches, in order,
exactly when every batch that is followed by another frame fills whole blocks. -/
theorem directSink_replays_iff (alignment : ℤ) (sink : DirectIOSink)
    (created : DirectIOSink.init [] alignment = .ok sink) (batches : List (List (List UInt8)))
    (plain : ∀ fs ∈ batches, ∀ f ∈ fs, PlainFrame f) :
    (∃ s, batches.foldlM writeBatch sink = .ok s ∧ frames newline s.file = batches.flatten) ↔
      WholeBlocks alignment.toNat batches := by
  have fresh : sink.alignment = alignment.toNat ∧ sink.closed = false ∧ sink.file = [] := by
    rw [DirectIOSink.init] at created
    split at created
    · cases created
      exact ⟨rfl, rfl, rfl⟩
    · cases created
  obtain ⟨same, opened, empty⟩ := fresh
  obtain ⟨s, ran, file⟩ := foldlM_writeBatch opened batches
  rw [empty, List.nil_append] at file
  have found := frames_blocks_iff sink.positive plain 0
  rw [List.replicate_zero, List.nil_append, ← file] at found
  rw [← same]
  constructor
  · rintro ⟨s', ran', replayed⟩
    obtain rfl := Except.ok.inj (ran.symm.trans ran')
    exact (found.mp replayed).2
  · intro whole
    exact ⟨s, ran, found.mpr ⟨fun _ _ _ => rfl, whole⟩⟩

/-- A frame that fills half of a block of 512 bytes with its newline. -/
def longFrame : List UInt8 := List.replicate 255 97

/-- Blocks of 512 bytes: a batch that fills one of them, an empty one, and a last one that is padded. -/
theorem directSink_replays_iff_whole :
    ∃ sink, DirectIOSink.init [] 512 = .ok sink ∧
      (∃ s, [[longFrame, longFrame], [], [[103]]].foldlM writeBatch sink = .ok s ∧
        frames newline s.file = [longFrame, longFrame, [103]]) := by
  refine ⟨_, rfl, ?_⟩
  have plain : ∀ fs ∈ [[longFrame, longFrame], [], [[103]]], ∀ f ∈ fs, PlainFrame f := by
    have all : ∀ fs ∈ [[longFrame, longFrame], [], [[(103 : UInt8)]]], ∀ f ∈ fs,
        f ≠ [] ∧ newline ∉ f ∧ (0 : UInt8) ∉ f := by decide +kernel
    intro fs mem f mem'
    obtain ⟨nonempty, noNewline, noNull⟩ := all fs mem f mem'
    exact ⟨nonempty, noNewline, noNull⟩
  apply (directSink_replays_iff 512 _ rfl _ plain).mpr
  rw [WholeBlocks]
  decide +kernel

/-- Two batches of one frame each in blocks of 512 bytes: the second frame is read behind 510 null bytes. -/
theorem directSink_padded_frame :
    ∃ sink s, DirectIOSink.init [] 512 = .ok sink ∧ [[[97]], [[98]]].foldlM writeBatch sink = .ok s ∧
      frames newline s.file = [[97], List.replicate 510 0 ++ [98]] ∧
      frames newline s.file ≠ [[[97]], [[98]]].flatten :=
  ⟨_, _, rfl, rfl, by decide +kernel, by decide +kernel⟩

end StellarFlow.Ingestion
