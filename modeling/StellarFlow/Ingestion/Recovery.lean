import Mathlib.Algebra.Order.BigOperators.Group.List
import StellarFlow.Ingestion.StreamBuffer

/-!
# Going on after a malformed frame

A caller of `StreamBuffer.feed` who catches the exception of a frame that does not decode and goes on with
the next chunk. `feed` has removed every complete frame of the chunk from the buffer by then, and its
generator is dead, so the frames behind the malformed one are lost if the same chunk completed them.
-/

namespace StellarFlow.Ingestion
open Framing StreamBuffer
variable {V : Type} (decode : List UInt8 → Except PyError V)

/-- The decodings of the frames that decode. -/
def decodings (fs : List (List UInt8)) : List V :=
  fs.filterMap fun frame => (decode frame).toOption

/-- No frame that decodes comes after one that does not. -/
def FailsLast (fs : List (List UInt8)) : Prop :=
  fs.Pairwise fun earlier later => (decode later).toOption.isSome → (decode earlier).toOption.isSome

instance (fs : List (List UInt8)) : Decidable (FailsLast decode fs) :=
  inferInstanceAs (Decidable (fs.Pairwise _))

/-- The frames that each chunk completes, behind the bytes of `past`. -/
def completed (past : List UInt8) : List (List UInt8) → List (List (List UInt8))
  | [] => []
  | chunk :: rest => frames newline (unterminated newline past ++ chunk) :: completed (past ++ chunk) rest

/-- One more chunk, with the exception of the call caught. -/
def feedCatching (acc : List V × StreamBuffer) (data : List UInt8) : List V × StreamBuffer :=
  let ((values, _), b) := feed decode acc.2 data
  (acc.1 ++ values, b)

/-- The values collected over a stream that is fed chunk by chunk. -/
def collected (b : StreamBuffer) (chunks : List (List UInt8)) : List V :=
  (chunks.foldl (feedCatching decode) ([], b)).1

/-- Each chunk fits into the buffer next to the open end of the bytes before it. -/
def Fits (capacity : ℤ) (past : List UInt8) (chunks : List (List UInt8)) : Prop :=
  ∀ k (lt : k < chunks.length),
    (unterminated newline (past ++ (chunks.take k).flatten)).length + (chunks[k].length : ℤ) ≤ capacity

/-- The first chunk fits, and the rest fits behind it. -/
lemma fits_cons {capacity : ℤ} {past chunk : List UInt8} {rest : List (List UInt8)}
    (fits : Fits capacity past (chunk :: rest)) :
    (unterminated newline past).length + (chunk.length : ℤ) ≤ capacity ∧
      Fits capacity (past ++ chunk) rest := by
  constructor
  · have first := fits 0 (Nat.succ_pos _)
    rw [List.take_zero, List.flatten_nil, List.append_nil] at first
    exact first
  · intro k lt
    have next := fits (k + 1) (Nat.succ_lt_succ lt)
    rw [List.take_succ_cons, List.flatten_cons, ← List.append_assoc] at next
    exact next

/-- The frames of the chunks are those that each one completes. -/
lemma frames_flatten (past : List UInt8) (chunks : List (List UInt8)) :
    frames newline (past ++ chunks.flatten) = frames newline past ++ (completed past chunks).flatten := by
  induction chunks generalizing past with
  | nil => simp [completed]
  | cons chunk rest ih =>
    rw [List.flatten_cons, ← List.append_assoc, ih, frames_append, completed, List.flatten_cons,
      List.append_assoc]

/-- The values a call yields are some of the decodings of its frames. -/
lemma decodeAll_sublist (fs : List (List UInt8)) : (decodeAll decode fs).1.Sublist (decodings decode fs) := by
  induction fs with
  | nil => exact List.Sublist.refl _
  | cons frame rest ih =>
    rw [decodeAll, decodings]
    cases decoded : decode frame with
    | error e => exact List.nil_sublist _
    | ok value =>
      rw [List.filterMap_cons_some (by rw [decoded]; rfl)]
      exact ih.cons_cons value

/-- The call yields them all exactly when the frames that fail come last. -/
lemma decodeAll_eq_iff (fs : List (List UInt8)) :
    (decodeAll decode fs).1 = decodings decode fs ↔ FailsLast decode fs := by
  induction fs with
  | nil => simp [decodeAll, decodings, FailsLast]
  | cons frame rest ih =>
    rw [FailsLast, List.pairwise_cons, ← FailsLast, decodeAll, decodings]
    cases decoded : decode frame with
    | error e =>
      rw [List.filterMap_cons_none (by rw [decoded]; rfl)]
      constructor
      · intro empty
        have failing : ∀ later ∈ rest, (decode later).toOption = none := List.filterMap_eq_nil_iff.mp empty.symm
        refine ⟨fun later mem decodes => ?_, ?_⟩
        · rw [failing later mem] at decodes
          cases decodes
        · apply List.Pairwise.imp_of_mem (R := fun _ _ => True) _ (List.pairwise_of_forall fun _ _ => trivial)
          intro earlier later _ mem _ decodes
          rw [failing later mem] at decodes
          cases decodes
      · rintro ⟨first, -⟩
        refine (List.filterMap_eq_nil_iff.mpr fun later mem => ?_).symm
        cases found : (decode later).toOption with
        | none => rfl
        | some value => exact absurd (first later mem (by rw [found]; rfl)) Bool.false_ne_true
    | ok value =>
      rw [List.filterMap_cons_some (by rw [decoded]; rfl)]
      constructor
      · intro same
        exact ⟨fun _ _ _ => rfl, ih.mp (List.cons.inj same).2⟩
      · rintro ⟨-, last⟩
        exact congrArg (value :: ·) (ih.mpr last)

/-- Where the chunks fit, each call yields what its own frames give before one fails. -/
lemma collected_eq {b : StreamBuffer} {past : List UInt8} {chunks : List (List UInt8)}
    (open_ : b.retained = unterminated newline past) (fits : Fits b.capacity past chunks) :
    collected decode b chunks = (completed past chunks).flatMap fun fs => (decodeAll decode fs).1 := by
  -- the values so far stand in front of what the remaining chunks yield
  suffices run : ∀ values, (chunks.foldl (feedCatching decode) (values, b)).1 =
      values ++ (completed past chunks).flatMap fun fs => (decodeAll decode fs).1 from run []
  induction chunks generalizing b past with
  | nil =>
    intro values
    simp [completed]
  | cons chunk rest ih =>
    intro values
    obtain ⟨first, later⟩ := fits_cons fits
    have room : b.size + chunk.length ≤ b.capacity := by
      rw [← open_, length_retained] at first
      omega
    obtain ⟨b', fed, left, same⟩ := feed_eq decode open_ room
    rw [← same] at later
    rw [List.foldl_cons, feedCatching, fed, ih left later, completed, List.flatMap_cons, List.append_assoc]

/-- Parts that are sublists make up the same whole only if each is the same. -/
lemma flatMap_eq_iff {ι : Type} {f g : ι → List V} (sub : ∀ i, (f i).Sublist (g i)) (is : List ι) :
    is.flatMap f = is.flatMap g ↔ ∀ i ∈ is, f i = g i := by
  induction is with
  | nil => simp
  | cons i is ih =>
    rw [List.flatMap_cons, List.flatMap_cons, List.forall_mem_cons, ← ih]
    constructor
    · intro same
      have shorter : (is.flatMap f).length ≤ (is.flatMap g).length := by
        rw [List.length_flatMap, List.length_flatMap]
        exact List.sum_le_sum fun i _ => (sub i).length_le
      have total := congrArg List.length same
      rw [List.length_append, List.length_append] at total
      have head := (sub i).length_le
      exact List.append_inj same (by omega)
    · rintro ⟨head, tail⟩
      rw [head, tail]

/-- One chunking collects the decodings of all frames exactly when no chunk completes a frame that decodes
behind one that does not. -/
lemma collected_eq_iff {b : StreamBuffer} {chunks : List (List UInt8)} (empty : b.retained = [])
    (fits : Fits b.capacity [] chunks) :
    collected decode b chunks = decodings decode (frames newline chunks.flatten) ↔
      ∀ fs ∈ completed [] chunks, FailsLast decode fs := by
  have whole : decodings decode (frames newline chunks.flatten) =
      (completed [] chunks).flatMap (decodings decode) := by
    have all := frames_flatten [] chunks
    rw [List.nil_append] at all
    rw [all, show frames newline ([] : List UInt8) = [] from rfl, List.nil_append, decodings,
      List.filterMap_flatten]
    rfl
  rw [collected_eq decode empty fits, whole, flatMap_eq_iff (decodeAll_sublist decode)]
  exact forall₂_congr fun fs _ => decodeAll_eq_iff decode fs

/-- Two chunkings of a stream that fit the buffer both collect the decodings of all frames that decode exactly
when in neither of them a chunk completes a frame that decodes behind one that does not. -/
theorem collected_complete_iff (bufferSize : ℤ) (buffer : StreamBuffer)
    (created : StreamBuffer.init bufferSize = .ok buffer) (stream : List UInt8) (chunks chunks' : List (List UInt8))
    (split : chunks.flatten = stream) (split' : chunks'.flatten = stream)
    (fits : Fits bufferSize [] chunks) (fits' : Fits bufferSize [] chunks') :
    (collected decode buffer chunks = collected decode buffer chunks' ∧
        collected decode buffer chunks = decodings decode (frames newline stream)) ↔
      (∀ fs ∈ completed [] chunks, FailsLast decode fs) ∧ ∀ fs ∈ completed [] chunks', FailsLast decode fs := by
  obtain ⟨capacity, empty⟩ := init_empty created
  rw [← capacity] at fits fits'
  have here := collected_eq_iff decode empty fits
  have there := collected_eq_iff decode empty fits'
  rw [split] at here
  rw [split'] at there
  rw [← here, ← there]
  constructor
  · rintro ⟨same, all⟩
    exact ⟨all, same.symm.trans all⟩
  · rintro ⟨all, all'⟩
    exact ⟨all.trans all'.symm, all⟩

/-- The frames `1`, `x`, `2` with the malformed one at the end of its chunk, or alone in it. -/
theorem collected_complete_iff_digits :
    ∃ buffer, StreamBuffer.init 16 = .ok buffer ∧
      ((collected decodeNumber buffer [[49, 10, 120, 10], [50, 10]] =
            collected decodeNumber buffer [[49, 10], [120], [10], [50, 10]] ∧
          collected decodeNumber buffer [[49, 10, 120, 10], [50, 10]] =
            decodings decodeNumber (frames newline [49, 10, 120, 10, 50, 10])) ↔
        (∀ fs ∈ completed [] [[49, 10, 120, 10], [50, 10]], FailsLast decodeNumber fs) ∧
          ∀ fs ∈ completed [] [[49, 10], [120], [10], [50, 10]], FailsLast decodeNumber fs) ∧
      ∀ fs ∈ completed [] [[49, 10, 120, 10], [50, 10]], FailsLast decodeNumber fs := by
  refine ⟨_, rfl, ?_, by decide⟩
  exact collected_complete_iff decodeNumber 16 _ rfl [49, 10, 120, 10, 50, 10] _ _ rfl rfl
    (by rw [Fits]; decide) (by rw [Fits]; decide)

/-- The frames `x` and `2` in one chunk lose the second; in two chunks they do not. -/
theorem collected_loses_frame :
    ∃ buffer, StreamBuffer.init 16 = .ok buffer ∧
      Fits 16 [] [[120, 10, 50, 10]] ∧ Fits 16 [] [[120, 10], [50, 10]] ∧
      collected decodeNumber buffer [[120, 10, 50, 10]] = [] ∧
      collected decodeNumber buffer [[120, 10], [50, 10]] = [2] ∧
      decodings decodeNumber (frames newline [120, 10, 50, 10]) = [2] := by
  refine ⟨_, rfl, ?_, ?_, by decide, by decide, by decide⟩
  · rw [Fits]
    decide
  · rw [Fits]
    decide

end StellarFlow.Ingestion
