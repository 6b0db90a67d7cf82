import Mathlib.Algebra.BigOperators.Group.List.Basic
import Mathlib.Algebra.Order.BigOperators.Group.List
import Mathlib.Algebra.Order.Group.Nat
import Mathlib.Algebra.Ring.Nat
import Mathlib.Data.List.Perm.Subperm
import StellarFlow.Lib.Dict
import StellarFlow.Lib.Machine

/-!
# The buffered writer

Model of `RelationalWriter` in `src/database/writer.py`: rows are saved to a buffer, and one flush at a time takes all
of them out, reads their columns, opens a cursor, inserts and commits. Savers go on meanwhile, and each call to the
database may fail.

A flush puts its batch back when the insert or the commit failed and the rollback did not. What fails before the insert,
or in the rollback, loses the batch; and of each row only the columns of the first row of the batch are inserted.
-/

namespace StellarFlow.Writer

/-- A saved row: a dictionary from columns to values. -/
abbrev Row (V : Type) := Dict String V

/-- A row of the table, by its columns. -/
abbrev Record (V : Type) := List (String × V)

variable {V : Type}

/-- `tuple(row[col] for col in columns)`, with the columns. -/
def record (columns : List String) (row : Row V) : Record V :=
  columns.filterMap fun column => (row.get? column).map fun value => (column, value)

/-- No `row[col]` raises. -/
def hasColumns (columns : List String) (row : Row V) : Bool := columns.all fun column => column ∈ row.keys

/-- `list(batch[0].keys())`. -/
def columnsOf (batch : List (Row V)) : List String := (batch.head?.map Dict.keys).getD []

/-- Where a flush stands: none runs; the batch was taken; its values were read; the cursor is open; they are inserted;
an error was caught; it was rolled back. -/
inductive Phase (V : Type) where
  | idle
  | taken (batch : List (Row V))
  | prepared (batch : List (Row V))
  | opened (batch : List (Row V))
  | executed (batch : List (Row V))
  | failed (batch : List (Row V))
  | rolledBack (batch : List (Row V))

/-- The rows that are with the flush. -/
def Phase.batch : Phase V → List (Row V)
  | .idle => []
  | .taken batch => batch
  | .prepared batch => batch
  | .opened batch => batch
  | .executed batch => batch
  | .failed batch => batch
  | .rolledBack batch => batch

/-- The writer with its table, and the rows saved so far. -/
structure System (V : Type) where
  buffer : List (Row V)
  phase : Phase V
  table : List (Record V)
  saved : List (Row V)

inductive Move (V : Type) where
  | save (row : Row V)
  | flush
  | prepare
  | cursor (succeeds : Bool)
  | execute (succeeds : Bool)
  | commit (succeeds : Bool)
  | rollback (succeeds : Bool)
  | requeue

/-- `save`; says whether the buffer is full. -/
def System.save (batchSize : ℕ) (s : System V) (row : Row V) : System V × Bool :=
  let buffer := s.buffer ++ [row]
  ({ s with buffer := buffer, saved := s.saved ++ [row] }, batchSize ≤ buffer.length)

/-- One step. A flush may begin at any time: the timer, a full buffer and `shutdown` all call it. -/
def System.step (batchSize : ℕ) (s : System V) : Move V → Option (System V)
  | .save row => some (s.save batchSize row).1
  | .flush =>
    match s.phase with
    | .idle => some (if s.buffer = [] then s else { s with buffer := [], phase := .taken s.buffer })
    | _ => none
  | .prepare =>
    match s.phase with
    | .taken batch =>
      some { s with phase := if batch.all (hasColumns (columnsOf batch)) then .prepared batch else .idle }
    | _ => none
  | .cursor succeeds =>
    match s.phase with
    | .prepared batch => some { s with phase := if succeeds then .opened batch else .idle }
    | _ => none
  | .execute succeeds =>
    match s.phase with
    | .opened batch => some { s with phase := if succeeds then .executed batch else .failed batch }
    | _ => none
  | .commit succeeds =>
    match s.phase with
    | .executed batch =>
      some (if succeeds then { s with phase := .idle, table := s.table ++ batch.map (record (columnsOf batch)) }
        else { s with phase := .failed batch })
    | _ => none
  | .rollback succeeds =>
    match s.phase with
    | .failed batch => some { s with phase := if succeeds then .rolledBack batch else .idle }
    | _ => none
  | .requeue =>
    match s.phase with
    | .rolledBack batch => some { s with buffer := batch ++ s.buffer, phase := .idle }
    | _ => none

def System.initial : System V := ⟨[], .idle, [], []⟩

/-- While no flush runs, each saved row is in the buffer or in the table, once and with all its columns, and the rows of
the table stand in the order in which they were saved. -/
def Accounted (s : System V) : Prop :=
  s.phase = .idle → ∃ rows : List (Row V), s.table.Forall₂ (fun r row => r.Perm row.entries) rows ∧
    rows.Sublist s.saved ∧ (rows ++ s.buffer).Perm s.saved

/-- No row of a batch lacks a column of the first one, no call for a cursor and no rollback fails, and no row that is
committed has a column that the first one of its batch lacks. -/
def System.isSafe (s : System V) : Move V → Bool
  | .prepare => s.phase.batch.all (hasColumns (columnsOf s.phase.batch))
  | .cursor succeeds => succeeds
  | .commit succeeds => !succeeds || s.phase.batch.all fun row => row.keys.all fun k => k ∈ columnsOf s.phase.batch
  | .rollback succeeds => succeeds
  | _ => true

/-- The values of the batch have been read. -/
def Phase.isRead : Phase V → Bool
  | .prepared _ => true
  | .opened _ => true
  | .executed _ => true
  | _ => false

/-- What every run keeps as long as no batch was lost: the rows of the table, those with the flush and those in the
buffer are what was saved, in this order. -/
structure Sound (s : System V) : Prop where
  split : ∃ rows : List (Row V), s.table.Forall₂ (fun r row => r.Perm row.entries) rows ∧
    s.saved = rows ++ s.phase.batch ++ s.buffer
  nonempty : s.phase ≠ .idle → s.phase.batch ≠ []
  read : s.phase.isRead = true → s.phase.batch.all (hasColumns (columnsOf s.phase.batch)) = true

section Records
variable {columns : List String} {row : Row V}

/-- A record has the columns that the row has. -/
lemma mem_record {e : String × V} : e ∈ record columns row ↔ e.1 ∈ columns ∧ row.get? e.1 = some e.2 := by
  rw [record, List.mem_filterMap]
  constructor
  · rintro ⟨column, mem, found⟩
    obtain ⟨value, here, rfl⟩ := Option.map_eq_some_iff.1 found
    exact ⟨mem, here⟩
  · rintro ⟨mem, here⟩
    exact ⟨e.1, mem, by rw [here]; rfl⟩

/-- Where no column is missing, the record has exactly the columns. -/
lemma map_fst_record (has : hasColumns columns row = true) : (record columns row).map Prod.fst = columns := by
  induction columns with
  | nil => rfl
  | cons column columns ih =>
    obtain ⟨here, rest⟩ := Bool.and_eq_true_iff.1 has
    obtain ⟨value, found⟩ := Dict.mem_keys_iff.1 (of_decide_eq_true here)
    rw [record, List.filterMap_cons_some (b := (column, value)) (by rw [found]; rfl), List.map_cons]
    exact congrArg (column :: ·) (ih rest)

/-- A record has no more than its row. -/
lemma record_subperm (nodup : columns.Nodup) (has : hasColumns columns row = true) :
    (record columns row).Subperm row.entries := by
  have distinct : (record columns row).Nodup := by
    refine List.Nodup.of_map Prod.fst ?_
    rw [map_fst_record has]
    exact nodup
  exact distinct.subperm fun e mem => Dict.get?_eq_some (mem_record.1 mem).2

/-- A record has as many values as there are columns. -/
lemma length_record (has : hasColumns columns row = true) : (record columns row).length = columns.length := by
  rw [← List.length_map (f := Prod.fst), map_fst_record has]

/-- A record has all columns of its row exactly where the row has no other columns. -/
lemma record_perm_iff (nodup : columns.Nodup) (has : hasColumns columns row = true) :
    (record columns row).Perm row.entries ↔ (row.keys.all fun k => k ∈ columns) = true := by
  rw [List.all_eq_true]
  constructor
  · intro perm k mem
    rw [Dict.keys, ← (perm.map Prod.fst).mem_iff, map_fst_record has] at mem
    exact decide_eq_true mem
  · intro known
    refine (record_subperm nodup has).perm_of_length_le ?_
    rw [length_record has, ← List.length_map (f := Prod.fst)]
    exact (row.nodup.subperm fun k mem => of_decide_eq_true (known k mem)).length_le

/-- Otherwise it is shorter. -/
lemma length_record_lt (nodup : columns.Nodup) (has : hasColumns columns row = true)
    (drops : ¬(row.keys.all fun k => k ∈ columns) = true) : (record columns row).length < row.entries.length := by
  refine lt_of_le_of_ne (record_subperm nodup has).length_le fun same => drops ?_
  exact (record_perm_iff nodup has).1 ((record_subperm nodup has).perm_of_length_le same.ge)

end Records

/-- The number of rows and values. -/
def weight (records : List (Record V)) : ℕ := (records.map fun r => r.length + 1).sum

/-- Weights add up over an append. -/
lemma weight_append (records more : List (Record V)) : weight (records ++ more) = weight records + weight more := by
  rw [weight, List.map_append, List.sum_append]
  rfl

/-- Records that carry their rows weigh what these do. -/
lemma weight_eq_of_forall₂ {records : List (Record V)} {rows : List (Row V)}
    (carries : records.Forall₂ (fun r row => r.Perm row.entries) rows) :
    weight records = weight (rows.map (·.entries)) := by
  induction carries with
  | nil => rfl
  | cons here _ ih => simp only [weight, List.map_cons, List.sum_cons] at ih ⊢; rw [here.length_eq, ih]

/-- Rows weigh something. -/
lemma weight_pos {rows : List (Row V)} (nonempty : rows ≠ []) : 0 < weight (rows.map (·.entries)) := by
  cases rows with
  | nil => exact absurd rfl nonempty
  | cons row rows =>
    simp only [weight, List.map_cons, List.sum_cons]
    omega

variable {s s' : System V} {m : Move V} {batchSize : ℕ}

/-- What is accounted for has the weight of what was saved. -/
lemma weight_of_accounted (accounted : Accounted s) (idle : s.phase = .idle) :
    weight s.table + weight (s.buffer.map (·.entries)) = weight (s.saved.map (·.entries)) := by
  obtain ⟨rows, carries, -, perm⟩ := accounted idle
  rw [weight_eq_of_forall₂ carries, ← weight_append, ← List.map_append]
  exact (((perm.map _).map _).sum_eq)

/-- In a sound state nothing saved has lost weight. -/
lemma weight_of_sound (sound : Sound s) : weight s.table + weight (s.phase.batch.map (·.entries)) +
    weight (s.buffer.map (·.entries)) = weight (s.saved.map (·.entries)) := by
  obtain ⟨rows, carries, saved⟩ := sound.split
  rw [saved, List.map_append, List.map_append, weight_append, weight_append, weight_eq_of_forall₂ carries]

/-- In a sound state each row is accounted for. -/
lemma accounted_of_sound (sound : Sound s) : Accounted s := by
  intro idle
  obtain ⟨rows, carries, saved⟩ := sound.split
  rw [idle, Phase.batch, List.append_nil] at saved
  refine ⟨rows, carries, ?_, ?_⟩
  · rw [saved]
    exact List.sublist_append_left ..
  · rw [saved]

/-- A batch that is lost is not accounted for. -/
lemma not_accounted_of_lost (sound : Sound s) (busy : s.phase ≠ .idle) : ¬Accounted { s with phase := .idle } := by
  intro accounted
  have whole : weight s.table + weight (s.buffer.map (·.entries)) = weight (s.saved.map (·.entries)) :=
    weight_of_accounted (s := { s with phase := .idle }) accounted rfl
  have parts := weight_of_sound sound
  have some := weight_pos (sound.nonempty busy)
  omega

/-- The columns of a batch are listed once. -/
lemma nodup_columnsOf (batch : List (Row V)) : (columnsOf batch).Nodup := by
  cases batch with
  | nil => exact List.nodup_nil
  | cons row rows => exact row.nodup

/-- Where no row has a column that is missing, the records carry their rows. -/
lemma forall₂_records {columns : List String} {batch : List (Row V)} (nodup : columns.Nodup)
    (has : ∀ row ∈ batch, hasColumns columns row = true)
    (known : ∀ row ∈ batch, (row.keys.all fun k => k ∈ columns) = true) :
    (batch.map (record columns)).Forall₂ (fun r row => r.Perm row.entries) batch := by
  rw [List.forall₂_map_left_iff, List.forall₂_same]
  exact fun row mem => (record_perm_iff nodup (has row mem)).2 (known row mem)

/-- A column that is dropped makes the records lighter than the rows. -/
lemma weight_records_lt {columns : List String} {batch : List (Row V)} (nodup : columns.Nodup)
    (has : ∀ row ∈ batch, hasColumns columns row = true) {row : Row V} (mem : row ∈ batch)
    (drops : ¬(row.keys.all fun k => k ∈ columns) = true) :
    weight (batch.map (record columns)) < weight (batch.map (·.entries)) := by
  rw [weight, weight, List.map_map, List.map_map]
  refine List.sum_lt_sum _ _ (fun row mem => ?_) ⟨row, mem, ?_⟩
  · exact Nat.succ_le_succ (record_subperm nodup (has row mem)).length_le
  · exact Nat.succ_lt_succ (length_record_lt nodup (has row mem) drops)

section Commit
variable {batch : List (Row V)}

/-- The batch is committed with all columns. -/
lemma sound_commit (sound : Sound s) (executed : s.phase = .executed batch)
    (known : ∀ row ∈ batch, (row.keys.all fun k => k ∈ columnsOf batch) = true) :
    Sound { s with phase := .idle, table := s.table ++ batch.map (record (columnsOf batch)) } := by
  obtain ⟨rows, carries, saved⟩ := sound.split
  have has := sound.read (by rw [executed]; rfl)
  rw [executed, Phase.batch, List.all_eq_true] at has
  rw [executed, Phase.batch] at saved
  refine ⟨⟨rows ++ batch, List.rel_append carries (forall₂_records (nodup_columnsOf batch) has known), ?_⟩,
    fun busy => absurd rfl busy, Bool.noConfusion⟩
  rw [saved, Phase.batch, List.append_nil]

/-- A column that is dropped is accounted for nowhere. -/
lemma not_accounted_of_dropped (sound : Sound s) (executed : s.phase = .executed batch)
    (drops : ¬∀ row ∈ batch, (row.keys.all fun k => k ∈ columnsOf batch) = true) :
    ¬Accounted { s with phase := .idle, table := s.table ++ batch.map (record (columnsOf batch)) } := by
  intro accounted
  have whole : weight (s.table ++ batch.map (record (columnsOf batch))) + weight (s.buffer.map (·.entries)) =
      weight (s.saved.map (·.entries)) := weight_of_accounted accounted rfl
  have parts := weight_of_sound sound
  have has := sound.read (by rw [executed]; rfl)
  rw [executed, Phase.batch, List.all_eq_true] at has
  rw [executed, Phase.batch] at parts
  obtain ⟨row, unknown⟩ := not_forall.1 drops
  obtain ⟨mem, unknown⟩ := Classical.not_imp.1 unknown
  have lighter := weight_records_lt (nodup_columnsOf batch) has mem unknown
  rw [weight_append] at whole
  omega

end Commit

/-- A flush goes on with its batch. -/
lemma sound_phase {phase : Phase V} (sound : Sound s) (batch : phase.batch = s.phase.batch)
    (busy : s.phase ≠ .idle) (read : phase.isRead = true →
      s.phase.batch.all (hasColumns (columnsOf s.phase.batch)) = true) : Sound { s with phase := phase } := by
  obtain ⟨rows, carries, saved⟩ := sound.split
  refine ⟨⟨rows, carries, ?_⟩, fun _ => ?_, fun isRead => ?_⟩
  · show s.saved = rows ++ phase.batch ++ s.buffer
    rw [batch]
    exact saved
  · show phase.batch ≠ []
    rw [batch]
    exact sound.nonempty busy
  · show phase.batch.all (hasColumns (columnsOf phase.batch)) = true
    rw [batch]
    exact read isRead

/-- A row is put in the buffer. -/
lemma sound_save {row : Row V} (sound : Sound s) : Sound (s.save batchSize row).1 := by
  obtain ⟨rows, carries, saved⟩ := sound.split
  refine ⟨⟨rows, carries, ?_⟩, sound.nonempty, sound.read⟩
  show s.saved ++ [row] = rows ++ s.phase.batch ++ (s.buffer ++ [row])
  rw [saved, List.append_assoc]

/-- A flush takes the buffer. -/
lemma sound_flush (sound : Sound s) (idle : s.phase = .idle) (some : s.buffer ≠ []) :
    Sound { s with buffer := [], phase := .taken s.buffer } := by
  obtain ⟨rows, carries, saved⟩ := sound.split
  refine ⟨⟨rows, carries, ?_⟩, fun _ => some, Bool.noConfusion⟩
  rw [saved, idle]
  simp [Phase.batch]

/-- After a rollback the batch goes back before the rows that came since. -/
lemma sound_requeue {batch : List (Row V)} (sound : Sound s) (rolledBack : s.phase = .rolledBack batch) :
    Sound { s with buffer := batch ++ s.buffer, phase := .idle } := by
  obtain ⟨rows, carries, saved⟩ := sound.split
  refine ⟨⟨rows, carries, ?_⟩, fun busy => absurd rfl busy, Bool.noConfusion⟩
  rw [saved, rolledBack]
  simp [Phase.batch]

/-- What succeeds keeps the batch; what fails ends the flush without it. -/
lemma kept_or_lost {phase : Phase V} {succeeds : Bool} (sound : Sound s) (busy : s.phase ≠ .idle)
    (batch : phase.batch = s.phase.batch) (read : succeeds = true → phase.isRead = true →
      s.phase.batch.all (hasColumns (columnsOf s.phase.batch)) = true) :
    (succeeds = true → Sound { s with phase := if succeeds then phase else .idle }) ∧
      (succeeds = false → ¬Accounted { s with phase := if succeeds then phase else .idle }) := by
  cases succeeds with
  | true => exact ⟨fun _ => sound_phase sound batch busy (read rfl), Bool.noConfusion⟩
  | false => exact ⟨Bool.noConfusion, fun _ => not_accounted_of_lost sound busy⟩

/-- A commit keeps the batch where no column is dropped. -/
lemma commit_spec {batch : List (Row V)} {succeeds : Bool} (sound : Sound s) (executed : s.phase = .executed batch)
    (taken : s.step batchSize (.commit succeeds) = some s') :
    (s.isSafe (.commit succeeds) = true → Sound s') ∧ (s.isSafe (.commit succeeds) = false → ¬Accounted s') := by
  rw [System.step, executed] at taken
  rw [System.isSafe, executed, Phase.batch]
  cases taken
  cases succeeds with
  | true =>
    rw [Bool.not_true, Bool.false_or]
    refine ⟨fun known => sound_commit sound executed (List.all_eq_true.1 known), fun unknown => ?_⟩
    refine not_accounted_of_dropped sound executed fun known => ?_
    rw [List.all_eq_true.2 known] at unknown
    cases unknown
  | false =>
    refine ⟨fun _ => sound_phase sound ?_ ?_ Bool.noConfusion, Bool.noConfusion⟩
    · rw [executed]
      rfl
    · simp [executed]

/-- A safe step loses nothing; another one ends a flush whose rows are not accounted for. -/
lemma step_spec (sound : Sound s) (taken : s.step batchSize m = some s') :
    (s.isSafe m = true → Sound s') ∧ (s.isSafe m = false → ¬Accounted s') := by
  cases m with
  | save row => cases taken; exact ⟨fun _ => sound_save sound, Bool.noConfusion⟩
  | flush =>
    rw [System.step] at taken
    split at taken
    case h_1 idle =>
      cases taken
      refine ⟨fun _ => ?_, Bool.noConfusion⟩
      split
      case isTrue => exact sound
      case isFalse some => exact sound_flush sound idle some
    case h_2 => cases taken
  | prepare =>
    rw [System.step] at taken
    split at taken
    case h_1 batch phase =>
      cases taken
      rw [System.isSafe, phase, Phase.batch]
      refine kept_or_lost sound (by simp [phase]) (by rw [phase]; rfl) fun has _ => ?_
      rw [phase]
      exact has
    case h_2 => cases taken
  | cursor succeeds =>
    rw [System.step] at taken
    split at taken
    case h_1 batch phase =>
      cases taken
      have read := sound.read (by rw [phase]; rfl)
      exact kept_or_lost sound (by simp [phase]) (by rw [phase]; rfl) fun _ _ => read
    case h_2 => cases taken
  | execute succeeds =>
    rw [System.step] at taken
    split at taken
    case h_1 batch phase =>
      cases taken
      have read := sound.read (by rw [phase]; rfl)
      refine ⟨fun _ => sound_phase sound ?_ (by simp [phase]) fun _ => read, Bool.noConfusion⟩
      rw [phase]
      cases succeeds with
      | true => rfl
      | false => rfl
    case h_2 => cases taken
  | commit succeeds =>
    cases phase : s.phase with
    | executed batch => exact commit_spec sound phase taken
    | _ =>
      rw [System.step, phase] at taken
      cases taken
  | rollback succeeds =>
    rw [System.step] at taken
    split at taken
    case h_1 batch phase =>
      cases taken
      exact kept_or_lost sound (by simp [phase]) (by rw [phase]; rfl) fun _ => Bool.noConfusion
    case h_2 => cases taken
  | requeue =>
    rw [System.step] at taken
    split at taken
    case h_1 batch phase => cases taken; exact ⟨fun _ => sound_requeue sound phase, Bool.noConfusion⟩
    case h_2 => cases taken

/-- At the start nothing was saved. -/
lemma sound_initial : Sound (System.initial : System V) :=
  ⟨⟨[], .nil, rfl⟩, fun busy => absurd rfl busy, Bool.noConfusion⟩

/-- Throughout a run, whenever no flush runs, each saved row is in the buffer or in the table, if and only if every step
of the flushes is safe. -/
theorem kept_iff_safe {trace : List (Move V)} {s : System V}
    (run : Machine.exec (System.step batchSize) System.initial trace = some s) :
    Machine.Always (System.step batchSize) Accounted System.initial trace ↔
      Machine.Guarded (System.step batchSize) (fun s m => s.isSafe m = true) System.initial trace := by
  refine Machine.always_iff_guarded_of_entails (I := Sound) sound_initial (fun s sound => accounted_of_sound sound)
    (fun s m s' sound safe taken => (step_spec sound taken).1 safe) (fun s m s' sound lossy taken => ?_) run
  exact (step_spec sound taken).2 (eq_false_of_ne_true lossy)

/-- Rows with one and with two columns. -/
def price : Row ℕ := ⟨[("price", 12345)], by decide⟩

def stamped : Row ℕ := ⟨[("price", 12345), ("ts", 1700000000)], by decide⟩

/-- A row is saved while a flush fails; its batch is put back and committed later, with the new row. -/
def retriedTrace : List (Move ℕ) :=
  [.save price, .flush, .prepare, .cursor true, .save price, .execute false, .rollback true, .requeue, .flush, .prepare,
    .cursor true, .execute true, .commit true]

/-- A commit that fails, and is made again. -/
theorem kept_iff_safe_retried :
    Machine.Always (System.step 50) Accounted (System.initial : System ℕ) retriedTrace := by
  have run : (Machine.exec (System.step 50) System.initial retriedTrace).isSome = true := by decide
  obtain ⟨s, reached⟩ := Option.isSome_iff_exists.1 run
  exact (kept_iff_safe reached).2 (by decide)

/-- A row with two columns is saved before one that lacks the second. -/
def mixedTrace : List (Move ℕ) := [.save stamped, .save price, .flush, .prepare]

/-- Both rows are gone. -/
theorem rows_lost_by_missing_column :
    ¬Machine.Always (System.step 50) Accounted (System.initial : System ℕ) mixedTrace := by
  intro always
  obtain ⟨rows, carries, -, perm⟩ := always mixedTrace ⟨[], .idle, [], [stamped, price]⟩ (List.prefix_refl _) rfl rfl
  cases carries
  exact absurd perm.length_eq (by decide)

end StellarFlow.Writer
