import StellarFlow.Database.Writer

/-!
# The asynchronous writer

Model of `AsyncRelationalWriter` in `src/database/writer.py`. A flush takes all rows out of the buffer and either copies
them to the table in one statement or, with a statement pool, inserts them one by one, each on its own. When anything
raises, the whole batch is put back, which repeats the rows that were inserted before.
-/

namespace StellarFlow.AsyncWriter
open Writer

/-- Where a flush stands: none runs; the batch was taken; its rows are inserted one by one; an error was caught. The
rows that are not in the table yet come last. -/
inductive Phase (V : Type) where
  | idle
  | taken (batch : List (Row V))
  | inserting (batch rest : List (Row V))
  | failed (batch rest : List (Row V))

/-- The rows that the flush took out of the buffer. -/
def Phase.batch {V : Type} : Phase V → List (Row V)
  | .idle => []
  | .taken batch => batch
  | .inserting batch _ => batch
  | .failed batch _ => batch

/-- Those of them that are not in the table. -/
def Phase.rest {V : Type} : Phase V → List (Row V)
  | .idle => []
  | .taken batch => batch
  | .inserting _ rest => rest
  | .failed _ rest => rest

/-- The writer with its table, and the rows that `save` has accepted. -/
structure System (V : Type) where
  columns : Option (List String)
  buffer : List (Row V)
  phase : Phase V
  table : List (Record V)
  accepted : List (Row V)

inductive Move (V : Type) where
  | save (row : Row V)
  | flush
  | getOrPrepare (succeeds : Bool)
  | fetch (succeeds : Bool)
  | finish
  | copy (succeeds : Bool)
  | requeue

variable {V : Type}

/-- `save`; says whether the buffer is full. -/
def System.save (batchSize : ℕ) (s : System V) (row : Row V) : Except String (System V × Bool) :=
  if s.columns.any fun columns => row.keys ≠ columns then .error "All records must have the same columns"
  else
    let buffer := s.buffer ++ [row]
    .ok ({ s with columns := row.keys, buffer := buffer, accepted := s.accepted ++ [row] }, batchSize ≤ buffer.length)

/-- One step. A flush may begin at any time: the loop of `_run`, a full buffer and `shutdown` all call it. -/
def System.step (hasPool : Bool) (batchSize : ℕ) (s : System V) : Move V → Option (System V)
  | .save row =>
    match s.save batchSize row with
    | .ok (s', _) => some s'
    | .error _ => some s
  | .flush =>
    match s.phase with
    | .idle => some (if s.buffer = [] then s else { s with buffer := [], phase := .taken s.buffer })
    | _ => none
  | .getOrPrepare succeeds =>
    match s.phase with
    | .taken batch =>
      if hasPool then
        some { s with phase := if succeeds then .inserting batch batch else .failed batch batch }
      else none
    | _ => none
  | .fetch succeeds =>
    match s.phase with
    | .inserting batch (row :: rest) =>
      some (if succeeds then
          { s with phase := .inserting batch rest, table := s.table ++ [record (s.columns.getD []) row] }
        else { s with phase := .failed batch (row :: rest) })
    | _ => none
  | .finish =>
    match s.phase with
    | .inserting _ [] => some { s with phase := .idle }
    | _ => none
  | .copy succeeds =>
    match s.phase with
    | .taken batch =>
      if hasPool then none
      else some (if succeeds then
          { s with phase := .idle, table := s.table ++ batch.map (record (s.columns.getD [])) }
        else { s with phase := .failed batch batch })
    | _ => none
  | .requeue =>
    match s.phase with
    | .failed batch _ => some { s with buffer := batch ++ s.buffer, phase := .idle }
    | _ => none

def System.initial : System V := ⟨none, [], .idle, [], []⟩

/-- While no flush runs, the rows of the table and of the buffer are the accepted ones, each once. -/
def Accounted (s : System V) : Prop :=
  s.phase = .idle → (s.table ++ s.buffer.map (·.entries)).Perm (s.accepted.map (·.entries))

/-- No batch is put back of which a row is in the table. -/
def System.isSafe (s : System V) : Move V → Bool
  | .requeue => s.phase.batch.length = s.phase.rest.length
  | _ => true

/-- What every run keeps as long as no row is repeated. -/
structure Sound (s : System V) : Prop where
  perm : (s.table ++ (s.phase.rest ++ s.buffer).map (·.entries)).Perm (s.accepted.map (·.entries))
  columns : ∀ row ∈ s.phase.batch ++ s.buffer, s.columns = some row.keys
  suffix : s.phase.rest <:+ s.phase.batch

variable {s s' : System V} {m : Move V} {hasPool : Bool} {batchSize : ℕ}

/-- The record by a row's own columns is the row. -/
lemma record_keys (row : Row V) : record row.keys row = row.entries := by
  rw [record, Dict.keys, List.filterMap_map]
  refine (List.filterMap_congr fun e mem => ?_).trans List.filterMap_some
  rw [Function.comp_apply, Dict.get?_of_mem mem]
  rfl

/-- Rows of the same columns are written whole. -/
lemma map_record {columns : Option (List String)} {rows : List (Row V)}
    (same : ∀ row ∈ rows, columns = some row.keys) : rows.map (record (columns.getD [])) = rows.map (·.entries) := by
  refine List.map_congr_left fun row mem => ?_
  rw [same row mem, Option.getD_some, record_keys]

/-- In a sound state each row is in one place. -/
lemma accounted_of_sound (sound : Sound s) : Accounted s := by
  intro idle
  have perm := sound.perm
  rw [idle, Phase.rest, List.nil_append] at perm
  exact perm

/-- The next rows of the flush go to the table. -/
lemma sound_insert (rows : List (Row V)) (phase : Phase V) (sound : Sound s)
    (next : s.phase.rest = rows ++ phase.rest) (suffix : phase.rest <:+ phase.batch)
    (sub : phase.batch ⊆ s.phase.batch) :
    Sound { s with phase := phase, table := s.table ++ rows.map (record (s.columns.getD [])) } := by
  have taken : ∀ row ∈ rows, s.columns = some row.keys := by
    intro row mem
    refine sound.columns row (List.mem_append_left _ (sound.suffix.subset ?_))
    rw [next]
    exact List.mem_append_left _ mem
  have perm := sound.perm
  rw [next, List.append_assoc, List.map_append, ← List.append_assoc] at perm
  refine ⟨?_, fun row mem => ?_, suffix⟩
  · rw [map_record taken]
    exact perm
  · obtain mem | mem := List.mem_append.1 mem
    · exact sound.columns row (List.mem_append_left _ (sub mem))
    · exact sound.columns row (List.mem_append_right _ mem)

/-- A flush goes on without an insertion. -/
lemma sound_phase {phase : Phase V} (sound : Sound s) (rest : phase.rest = s.phase.rest)
    (suffix : phase.rest <:+ phase.batch) (sub : phase.batch ⊆ s.phase.batch) : Sound { s with phase := phase } := by
  have same := sound_insert [] phase sound (by rw [rest, List.nil_append]) suffix sub
  rw [List.map_nil, List.append_nil] at same
  exact same

/-- The moves of the writer, case by case. -/
inductive Step (hasPool : Bool) (batchSize : ℕ) (s : System V) : Move V → System V → Prop where
  | idle {m : Move V} (safe : s.isSafe m = true) : Step hasPool batchSize s m s
  | save {row : Row V} {s' : System V} {full : Bool} (saved : s.save batchSize row = .ok (s', full)) :
      Step hasPool batchSize s (.save row) s'
  | flush (idle : s.phase = .idle) :
      Step hasPool batchSize s .flush { s with buffer := [], phase := .taken s.buffer }
  | prepared {batch : List (Row V)} (pool : hasPool = true) (taken : s.phase = .taken batch) :
      Step hasPool batchSize s (.getOrPrepare true) { s with phase := .inserting batch batch }
  | unprepared {batch : List (Row V)} (pool : hasPool = true) (taken : s.phase = .taken batch) :
      Step hasPool batchSize s (.getOrPrepare false) { s with phase := .failed batch batch }
  | fetched {batch rest : List (Row V)} {row : Row V} (inserting : s.phase = .inserting batch (row :: rest)) :
      Step hasPool batchSize s (.fetch true)
        { s with phase := .inserting batch rest, table := s.table ++ [record (s.columns.getD []) row] }
  | unfetched {batch rest : List (Row V)} {row : Row V} (inserting : s.phase = .inserting batch (row :: rest)) :
      Step hasPool batchSize s (.fetch false) { s with phase := .failed batch (row :: rest) }
  | finish {batch : List (Row V)} (inserting : s.phase = .inserting batch []) :
      Step hasPool batchSize s .finish { s with phase := .idle }
  | copied {batch : List (Row V)} (taken : s.phase = .taken batch) :
      Step hasPool batchSize s (.copy true)
        { s with phase := .idle, table := s.table ++ batch.map (record (s.columns.getD [])) }
  | uncopied {batch : List (Row V)} (taken : s.phase = .taken batch) :
      Step hasPool batchSize s (.copy false) { s with phase := .failed batch batch }
  | requeue {batch rest : List (Row V)} (failed : s.phase = .failed batch rest) :
      Step hasPool batchSize s .requeue { s with buffer := batch ++ s.buffer, phase := .idle }

/-- Each step of the model is one of those named. -/
lemma step_cases (taken : s.step hasPool batchSize m = some s') : Step hasPool batchSize s m s' := by
  cases m with
  | save row =>
    rw [System.step] at taken
    split at taken
    case h_1 saved => cases taken; exact .save saved
    case h_2 => cases taken; exact .idle rfl
  | flush =>
    rw [System.step] at taken
    split at taken
    case h_1 idle =>
      cases taken
      split
      case isTrue => exact .idle rfl
      case isFalse => exact .flush idle
    case h_2 => cases taken
  | getOrPrepare succeeds =>
    rw [System.step] at taken
    split at taken
    case h_1 phase =>
      split at taken
      case isTrue pool =>
        cases taken
        cases succeeds with
        | true => exact .prepared pool phase
        | false => exact .unprepared pool phase
      case isFalse => cases taken
    case h_2 => cases taken
  | fetch succeeds =>
    rw [System.step] at taken
    split at taken
    case h_1 phase =>
      cases taken
      cases succeeds with
      | true => exact .fetched phase
      | false => exact .unfetched phase
    case h_2 => cases taken
  | finish =>
    rw [System.step] at taken
    split at taken
    case h_1 phase => cases taken; exact .finish phase
    case h_2 => cases taken
  | copy succeeds =>
    rw [System.step] at taken
    split at taken
    case h_1 phase =>
      split at taken
      case isTrue => cases taken
      case isFalse =>
        cases taken
        cases succeeds with
        | true => exact .copied phase
        | false => exact .uncopied phase
    case h_2 => cases taken
  | requeue =>
    rw [System.step] at taken
    split at taken
    case h_1 phase => cases taken; exact .requeue phase
    case h_2 => cases taken

/-- A row is put in the buffer. -/
lemma sound_save {row : Row V} {full : Bool} (sound : Sound s) (saved : s.save batchSize row = .ok (s', full)) :
    Sound s' := by
  rw [System.save] at saved
  split at saved
  case isTrue => cases saved
  case isFalse known =>
    cases saved
    refine ⟨?_, fun other mem => ?_, sound.suffix⟩
    · show (s.table ++ (s.phase.rest ++ (s.buffer ++ [row])).map (·.entries)).Perm
        ((s.accepted ++ [row]).map (·.entries))
      have perm := sound.perm.append_right ([row].map (·.entries))
      rw [List.append_assoc, ← List.map_append, ← List.map_append, List.append_assoc] at perm
      exact perm
    · show some row.keys = some other.keys
      rw [← List.append_assoc] at mem
      obtain old | new := List.mem_append.1 mem
      · have columns := sound.columns other old
        rw [columns, Option.any_some] at known
        rw [not_not.1 fun differ => known (decide_eq_true differ)]
      · rw [List.mem_singleton.1 new]

/-- A flush takes the buffer. -/
lemma sound_flush (sound : Sound s) (idle : s.phase = .idle) :
    Sound { s with buffer := [], phase := .taken s.buffer } := by
  have perm := sound.perm
  have columns := sound.columns
  rw [idle] at perm columns
  refine ⟨?_, fun row mem => ?_, List.suffix_refl _⟩
  · rw [Phase.rest, List.append_nil]
    exact perm
  · rw [Phase.batch, List.append_nil] at mem
    exact columns row mem

/-- Where no row of the batch is in the table, it is put back as it was taken. -/
lemma sound_requeue {batch rest : List (Row V)} (sound : Sound s) (failed : s.phase = .failed batch rest)
    (whole : batch.length = rest.length) : Sound { s with buffer := batch ++ s.buffer, phase := .idle } := by
  have perm := sound.perm
  have columns := sound.columns
  have suffix := sound.suffix
  rw [failed] at perm columns suffix
  have same : rest = batch := suffix.eq_of_length whole.symm
  refine ⟨?_, columns, List.suffix_refl _⟩
  rw [← same]
  exact perm

/-- Otherwise there are more rows than were accepted. -/
lemma not_accounted_of_repeated {batch rest : List (Row V)} (sound : Sound s) (failed : s.phase = .failed batch rest)
    (part : batch.length ≠ rest.length) : ¬Accounted { s with buffer := batch ++ s.buffer, phase := .idle } := by
  intro accounted
  have whole := (accounted rfl).length_eq
  have parts := sound.perm.length_eq
  have shorter := sound.suffix.length_le
  rw [failed, Phase.rest] at parts shorter
  rw [Phase.batch] at shorter
  simp only [List.length_append, List.length_map] at whole parts
  omega

/-- A flush goes on with the rows it has left, or fails with them. -/
lemma sound_go {phase : Phase V} (sound : Sound s) (batch : phase.batch = s.phase.batch)
    (rest : phase.rest = s.phase.rest) : Sound { s with phase := phase } := by
  refine sound_phase sound rest ?_ ?_
  · rw [rest, batch]
    exact sound.suffix
  · rw [batch]
    exact List.Subset.refl _

/-- A statement inserts the first row that is left. -/
lemma sound_fetched {batch rest : List (Row V)} {row : Row V} (sound : Sound s)
    (inserting : s.phase = .inserting batch (row :: rest)) :
    Sound { s with phase := .inserting batch rest, table := s.table ++ [record (s.columns.getD []) row] } := by
  have suffix := sound.suffix
  rw [inserting] at suffix
  refine sound_insert [row] _ sound ?_ ((List.suffix_cons row rest).trans suffix) ?_
  · rw [inserting]
    rfl
  · rw [inserting]
    exact List.Subset.refl _

/-- The batch was copied into the table. -/
lemma sound_copied {batch : List (Row V)} (sound : Sound s) (taken : s.phase = .taken batch) :
    Sound { s with phase := .idle, table := s.table ++ batch.map (record (s.columns.getD [])) } := by
  refine sound_insert batch _ sound ?_ (List.suffix_refl _) (List.nil_subset _)
  rw [taken]
  exact (List.append_nil _).symm

/-- A safe step repeats nothing; another one ends a flush with more rows than were accepted. -/
lemma step_spec (sound : Sound s) (taken : s.step hasPool batchSize m = some s') :
    (s.isSafe m = true → Sound s') ∧ (s.isSafe m = false → ¬Accounted s') := by
  cases step_cases taken with
  | idle safe => exact ⟨fun _ => sound, fun other => absurd (safe.symm.trans other) (by decide)⟩
  | save saved => exact ⟨fun _ => sound_save sound saved, Bool.noConfusion⟩
  | flush idle => exact ⟨fun _ => sound_flush sound idle, Bool.noConfusion⟩
  | prepared _ phase => exact ⟨fun _ => sound_go sound (by rw [phase]; rfl) (by rw [phase]; rfl), Bool.noConfusion⟩
  | unprepared _ phase => exact ⟨fun _ => sound_go sound (by rw [phase]; rfl) (by rw [phase]; rfl), Bool.noConfusion⟩
  | fetched phase => exact ⟨fun _ => sound_fetched sound phase, Bool.noConfusion⟩
  | unfetched phase => exact ⟨fun _ => sound_go sound (by rw [phase]; rfl) (by rw [phase]; rfl), Bool.noConfusion⟩
  | finish phase =>
    have done : Sound { s with phase := .idle } :=
      sound_phase sound (by rw [phase]; rfl) (List.suffix_refl _) (List.nil_subset _)
    exact ⟨fun _ => done, Bool.noConfusion⟩
  | copied phase => exact ⟨fun _ => sound_copied sound phase, Bool.noConfusion⟩
  | uncopied phase => exact ⟨fun _ => sound_go sound (by rw [phase]; rfl) (by rw [phase]; rfl), Bool.noConfusion⟩
  | requeue phase =>
    rw [System.isSafe, phase, decide_eq_true_iff, decide_eq_false_iff_not]
    exact ⟨sound_requeue sound phase, not_accounted_of_repeated sound phase⟩

/-- At the start nothing was saved. -/
lemma sound_initial : Sound (System.initial : System V) :=
  ⟨List.Perm.refl _, fun _ mem => absurd mem List.not_mem_nil, List.suffix_refl _⟩

/-- No row of the flush is in the table yet. -/
def Phase.Whole : Phase V → Prop
  | .idle => True
  | .taken _ => True
  | .inserting _ _ => False
  | .failed batch rest => rest = batch

/-- Saving does not touch the flush under way. -/
lemma phase_save {row : Row V} {full : Bool} (saved : s.save batchSize row = .ok (s', full)) : s'.phase = s.phase := by
  rw [System.save] at saved
  split at saved
  case isTrue => cases saved
  case isFalse => cases saved; rfl

/-- Without a statement pool the rows of a batch come into the table all at once. -/
lemma whole_step (whole : s.phase.Whole) (taken : s.step false batchSize m = some s') : s'.phase.Whole := by
  cases step_cases taken with
  | idle => exact whole
  | save saved =>
    rw [phase_save saved]
    exact whole
  | flush => exact trivial
  | prepared pool => cases pool
  | unprepared pool => cases pool
  | fetched phase =>
    rw [phase] at whole
    exact absurd whole not_false
  | unfetched phase =>
    rw [phase] at whole
    exact absurd whole not_false
  | finish => exact trivial
  | copied => exact trivial
  | uncopied => rfl
  | requeue => exact trivial

/-- A step from a whole phase is safe. -/
lemma isSafe_of_whole (whole : s.phase.Whole) : s.isSafe m = true := by
  cases m with
  | requeue =>
    rw [System.isSafe, decide_eq_true_iff]
    cases phase : s.phase with
    | idle => rfl
    | taken batch => rfl
    | inserting batch rest => rw [phase] at whole; exact absurd whole not_false
    | failed batch rest =>
      rw [phase] at whole
      rw [show rest = batch from whole]
      rfl
  | _ => rfl

/-- Throughout a run, whenever no flush runs, the rows of the table and of the buffer are the accepted ones, if and only
if no batch is put back of which a row is in the table; and without a statement pool none is. -/
theorem once_iff_safe {trace : List (Move V)} {s : System V}
    (run : Machine.exec (System.step hasPool batchSize) System.initial trace = some s) :
    (Machine.Always (System.step hasPool batchSize) Accounted System.initial trace ↔
      Machine.Guarded (System.step hasPool batchSize) (fun s m => s.isSafe m = true) System.initial trace) ∧
    (hasPool = false → Machine.Always (System.step hasPool batchSize) Accounted System.initial trace) := by
  have exactly : Machine.Always (System.step hasPool batchSize) Accounted System.initial trace ↔
      Machine.Guarded (System.step hasPool batchSize) (fun s m => s.isSafe m = true) System.initial trace := by
    refine Machine.always_iff_guarded_of_entails (I := Sound) sound_initial (fun s sound => accounted_of_sound sound)
      (fun s m s' sound safe taken => (step_spec sound taken).1 safe) (fun s m s' sound doubling taken => ?_) run
    exact (step_spec sound taken).2 (eq_false_of_ne_true doubling)
  refine ⟨exactly, fun noPool => exactly.2 ?_⟩
  rw [noPool]
  intro pre m t _ reached
  refine isSafe_of_whole (Machine.exec_invariant (I := fun s => s.phase.Whole) trivial ?_ reached)
  exact fun s m s' whole taken => whole_step whole taken

def row (value : ℕ) : Row ℕ := ⟨[("value", value)], List.nodup_singleton _⟩

/-- A statement fails at once; later both rows are inserted, one by one. -/
def retriedTrace : List (Move ℕ) :=
  [.save (row 1), .save (row 2), .flush, .getOrPrepare true, .fetch false, .requeue, .flush, .getOrPrepare true,
    .fetch true, .fetch true, .finish]

/-- A copy that failed before it wrote, and is made again. -/
theorem once_iff_safe_retried :
    Machine.Always (System.step true 50) Accounted (System.initial : System ℕ) retriedTrace := by
  have run : (Machine.exec (System.step true 50) System.initial retriedTrace).isSome = true := by decide
  obtain ⟨s, reached⟩ := Option.isSome_iff_exists.1 run
  exact (once_iff_safe reached).1.2 (by decide)

/-- The second of two statements fails. -/
def halfTrace : List (Move ℕ) :=
  [.save (row 1), .save (row 2), .flush, .getOrPrepare true, .fetch true, .fetch false, .requeue]

/-- The first row is in the table and in the buffer. -/
theorem row_repeated_after_failure :
    ¬Machine.Always (System.step true 50) Accounted (System.initial : System ℕ) halfTrace := by
  intro always
  have twice := always halfTrace ⟨some ["value"], [row 1, row 2], .idle, [[("value", 1)]], [row 1, row 2]⟩
    (List.prefix_refl _) rfl rfl
  exact absurd twice.length_eq (by decide)

end StellarFlow.AsyncWriter
