import StellarFlow.Governance.Results
import StellarFlow.Lib.Machine

/-!
# Publishing the results of votes

`governanceResultExportWorker.ts`: any number of workers, each in its own process, take proposals of a final status
from the table, publish a snapshot of each, and note its address in the row. The table is shared with the other
services, which add proposals and change rows, but not the columns of the export. A step is what happens between two
awaits of a worker. A statement of the database may take effect although its answer is an error; the node's answer is
part of the label.

`published` is a log of the contents that the node has taken, with the rows they were made from. The hash of a content
is a parameter.
-/

open IsoDate Machine

namespace StellarFlow.GovernanceResult

def FINAL_RESULT_STATUSES : List String := ["Executed", "Cancelled"]

def ERROR_MESSAGE_MAX_LENGTH : ℕ := 500

/-- The options of the workers, and `sha256Hex`. -/
structure Options where
  batchSize : ℕ
  maxAttempts : ℕ
  sha256Hex : String → String

/-- A row of the table `GovernanceProposal`, with its votes. -/
structure Row where
  proposal : SnapshotProposalInput
  votes : List GovernanceVoteRecord
  updatedAt : ℤ
  resultExportCid : Option String
  resultExportContentHash : Option String
  resultExportedAt : Option TimeValue
  resultExportAttempts : ℕ
  resultExportError : Option (List ℕ)

/-- What a worker reads of a row. -/
structure ExportableProposalRow where
  proposal : SnapshotProposalInput
  votes : List GovernanceVoteRecord
  resultExportAttempts : ℕ

abbrev Store := Dict String Row

/-- The code units of an error's text; a text that is too long is cut. -/
def truncate (value : String) (maxLength : ℕ) : List ℕ :=
  if maxLength < (Js.codeUnits value).length then (Js.codeUnits value).take maxLength else Js.codeUnits value

/-- The `where` of `findMany`. -/
def Row.isPending (cfg : Options) (row : Row) : Bool :=
  row.proposal.status ∈ FINAL_RESULT_STATUSES && row.resultExportCid.isNone &&
    row.resultExportAttempts < cfg.maxAttempts

/-- The answers of `findMany`: as many rows as there are, or as may be, the least recently updated ones in order. -/
def IsBatch (cfg : Options) (store : Store) (ids : List String) : Prop :=
  let pending := store.entries.filter fun e => e.2.isPending cfg
  let dates := ids.filterMap fun id => (store.get? id).map Row.updatedAt
  ids.Nodup ∧ (∀ id ∈ ids, id ∈ pending.map Prod.fst) ∧ ids.length = min cfg.batchSize pending.length ∧
    dates.Pairwise (· ≤ ·) ∧ ∀ e ∈ pending, e.1 ∉ ids → ∀ date ∈ dates, date ≤ e.2.updatedAt

instance (cfg : Options) (store : Store) (ids : List String) : Decidable (IsBatch cfg store ids) :=
  inferInstanceAs (Decidable (_ ∧ _))

def Row.exportable (row : Row) : ExportableProposalRow := ⟨row.proposal, row.votes, row.resultExportAttempts⟩

/-- `updateMany` where the proposal is the given one and `resultExportCid` is null. -/
def updateMany (store : Store) (proposalId : String) (data : Row → Row) (now : ℤ) : Store :=
  store.modify proposalId fun row =>
    if row.resultExportCid = none then { data row with updatedAt := now } else row

/-- The data of a success. -/
def Row.exported (cid contentHash : String) (exportedAt : TimeValue) (row : Row) : Row :=
  { row with
    resultExportCid := some cid, resultExportContentHash := some contentHash, resultExportedAt := some exportedAt,
    resultExportAttempts := 0, resultExportError := none }

/-- The data of a failure. -/
def Row.failed (attempts : ℕ) (details : List ℕ) (row : Row) : Row :=
  { row with resultExportAttempts := attempts, resultExportError := some details }

/-- Where the export of a row waits: for the node, for the database, or for the database after a failure. -/
inductive Stage where
  | adding (text : String)
  | storing (text cid : String)
  | recording (message : String)

structure Worker where
  running : Bool
  current : Option (ExportableProposalRow × Stage)
  pending : List ExportableProposalRow

structure Published where
  row : ExportableProposalRow
  text : String
  cid : String

structure State where
  store : Store
  workers : List Worker
  published : List Published

/-- What a worker does between two awaits. A process that is killed starts again with nothing. -/
inductive Action where
  | find (reply : Option (List String))
  | build (generatedAt : TimeValue)
  | add (reply : Except String String)
  | store (reply : Option String) (applied : Bool) (exportedAt : TimeValue) (now : ℤ)
  | record (applied : Bool) (now : ℤ)
  | finish
  | killed

/-- What happens next: other services create and edit rows. -/
inductive Move where
  | create (proposal : SnapshotProposalInput) (now : ℤ)
  | edit (proposal : SnapshotProposalInput) (votes : List GovernanceVoteRecord) (now : ℤ)
  | turn (i : ℕ) (a : Action)

def Worker.idle : Worker := ⟨false, none, []⟩

/-- The worker, the table, and what the node has newly taken. -/
def Worker.act (cfg : Options) (table : Store) : Worker → Action → Option (Worker × Store × List Published)
  | ⟨false, none, []⟩, .find none => some (.idle, table, [])
  | ⟨false, none, []⟩, .find (some ids) =>
    if IsBatch cfg table ids then
      some (⟨true, none, ids.filterMap fun id => (table.get? id).map Row.exportable⟩, table, [])
    else none
  | ⟨true, none, row :: pending⟩, .build generatedAt =>
    match content row.proposal row.votes generatedAt with
    | .ok text => some (⟨true, some (row, .adding text), pending⟩, table, [])
    | .error message => some (⟨true, some (row, .recording message), pending⟩, table, [])
  | ⟨true, some (row, .adding text), pending⟩, .add (.ok cid) =>
    some (⟨true, some (row, .storing text cid), pending⟩, table, [⟨row, text, cid⟩])
  | ⟨true, some (row, .adding _), pending⟩, .add (.error message) =>
    some (⟨true, some (row, .recording message), pending⟩, table, [])
  | ⟨true, some (row, .storing text cid), pending⟩, .store reply applied exportedAt now =>
    let stored := updateMany table row.proposal.proposalId (Row.exported cid (cfg.sha256Hex text) exportedAt) now
    match reply with
    | none => some (⟨true, none, pending⟩, stored, [])
    | some message =>
      some (⟨true, some (row, .recording message), pending⟩, if applied then stored else table, [])
  | ⟨true, some (row, .recording message), pending⟩, .record applied now =>
    let recorded := updateMany table row.proposal.proposalId
      (Row.failed (row.resultExportAttempts + 1) (truncate message ERROR_MESSAGE_MAX_LENGTH)) now
    some (⟨true, none, pending⟩, if applied then recorded else table, [])
  | ⟨true, none, []⟩, .finish => some (.idle, table, [])
  | _, .killed => some (.idle, table, [])
  | _, _ => none

def State.step (cfg : Options) (s : State) : Move → Option State
  | .create proposal now =>
    if proposal.proposalId ∈ s.store.keys then none
    else some { s with store := s.store.set proposal.proposalId ⟨proposal, [], now, none, none, none, 0, none⟩ }
  | .edit proposal votes now =>
    some { s with store := s.store.modify proposal.proposalId fun row =>
      { row with proposal := proposal, votes := votes, updatedAt := now } }
  | .turn i a => do
    let w ← s.workers[i]?
    let (w', table, added) ← w.act cfg s.store a
    return ⟨table, s.workers.set i w', s.published ++ added⟩

/-- So many workers and no proposals. -/
def State.initial (n : ℕ) : State := ⟨Dict.empty, List.replicate n .idle, []⟩

/-- The columns of the export. -/
def Row.result (row : Row) : Option String × Option String × Option TimeValue × ℕ × Option (List ℕ) :=
  (row.resultExportCid, row.resultExportContentHash, row.resultExportedAt, row.resultExportAttempts,
    row.resultExportError)

/-- The rows that a worker has in hand. -/
def Worker.rows (w : Worker) : List ExportableProposalRow := w.current.toList.map Prod.fst ++ w.pending

/-- What holds of a row that waits. -/
def Stage.Sound (published : List Published) (row : ExportableProposalRow) : Stage → Prop
  | .adding text => ∃ generatedAt, content row.proposal row.votes generatedAt = .ok text
  | .storing text cid => ⟨row, text, cid⟩ ∈ published
  | .recording _ => True

structure Worker.Sound (cfg : Options) (published : List Published) (w : Worker) : Prop where
  rows : ∀ r ∈ w.rows, r.proposal.status ∈ FINAL_RESULT_STATUSES ∧ r.resultExportAttempts < cfg.maxAttempts
  stage : ∀ c ∈ w.current, c.2.Sound published c.1

/-- A content is a snapshot of a row of a final status. -/
def Published.Sound (p : Published) : Prop :=
  p.row.proposal.status ∈ FINAL_RESULT_STATUSES ∧
    ∃ generatedAt, content p.row.proposal p.row.votes generatedAt = .ok p.text

/-- An address in a row is that of a content of the proposal, whose hash is beside it. -/
structure Row.Sound (cfg : Options) (published : List Published) (proposalId : String) (row : Row) : Prop where
  key : row.proposal.proposalId = proposalId
  attempts : row.resultExportAttempts ≤ cfg.maxAttempts
  error : ∀ details ∈ row.resultExportError, details.length ≤ ERROR_MESSAGE_MAX_LENGTH
  result : ∀ cid, row.resultExportCid = some cid → row.resultExportAttempts = 0 ∧ row.resultExportError = none ∧
    ∃ p ∈ published, p.row.proposal.proposalId = proposalId ∧ p.cid = cid ∧
      row.resultExportContentHash = some (cfg.sha256Hex p.text)

structure Sound (cfg : Options) (s : State) : Prop where
  rows : ∀ proposalId row, s.store.get? proposalId = some row → row.Sound cfg s.published proposalId
  workers : ∀ w ∈ s.workers, w.Sound cfg s.published
  published : ∀ p ∈ s.published, p.Sound

/-- What the worker's statements do to the table. -/
inductive Effect (cfg : Options) (published : List Published) (table : Store) : Store → Prop where
  | same : Effect cfg published table table
  | exported {p : Published} (mem : p ∈ published) (exportedAt : TimeValue) (now : ℤ) :
    Effect cfg published table (updateMany table p.row.proposal.proposalId
      (Row.exported p.cid (cfg.sha256Hex p.text) exportedAt) now)
  | failed (proposalId : String) {attempts : ℕ} (le : attempts ≤ cfg.maxAttempts) {details : List ℕ}
    (short : details.length ≤ ERROR_MESSAGE_MAX_LENGTH) (now : ℤ) :
    Effect cfg published table (updateMany table proposalId (Row.failed attempts details) now)

/-- The row in the table is as it was read. -/
def State.Stands (s : State) (r : ExportableProposalRow) : Prop :=
  ∃ row, s.store.get? r.proposal.proposalId = some row ∧ row.proposal = r.proposal ∧ row.votes = r.votes

/-- After a final status "the vote result can no longer change": other services leave such rows as they are. -/
def Settled (s : State) : Move → Prop
  | .edit proposal votes _ => ∀ row, s.store.get? proposal.proposalId = some row →
    row.proposal.status ∈ FINAL_RESULT_STATUSES → proposal = row.proposal ∧ votes = row.votes
  | .create .. | .turn .. => True

/-- All that was read is as it was read. -/
structure Frozen (s : State) : Prop where
  rows : ∀ w ∈ s.workers, ∀ r ∈ w.rows, s.Stands r
  published : ∀ p ∈ s.published, s.Stands p.row

variable {cfg : Options} {table table' : Store} {published added : List Published} {w w' : Worker} {a : Action}
  {s s' : State} {m : Move} {r : ExportableProposalRow}

/-- A truncated text fits. -/
lemma length_truncate (value : String) (maxLength : ℕ) : (truncate value maxLength).length ≤ maxLength := by
  rw [truncate]
  split
  · exact List.length_take_le ..
  · omega

/-- An update changes the row of one proposal, unless it has been exported. -/
lemma get?_updateMany (table : Store) (proposalId x : String) (data : Row → Row) (now : ℤ) :
    (updateMany table proposalId data now).get? x = if x = proposalId then (table.get? proposalId).map fun row =>
      if row.resultExportCid = none then { data row with updatedAt := now } else row else table.get? x :=
  Dict.get?_modify ..

/-- More contents published leave a stage sound. -/
lemma Stage.Sound.mono {row : ExportableProposalRow} {stage : Stage} (sound : stage.Sound published row) :
    stage.Sound (published ++ added) row := by
  cases stage with
  | adding text => exact sound
  | storing text cid => exact List.mem_append_left _ sound
  | recording message => trivial

/-- More contents published leave a worker sound. -/
lemma Worker.Sound.mono (sound : w.Sound cfg published) : w.Sound cfg (published ++ added) :=
  ⟨sound.rows, fun c mem => (sound.stage c mem).mono⟩

/-- A worker between two rows. -/
lemma Worker.Sound.between {running : Bool} {pending : List ExportableProposalRow}
    (rows : ∀ r ∈ pending, r.proposal.status ∈ FINAL_RESULT_STATUSES ∧ r.resultExportAttempts < cfg.maxAttempts) :
    Worker.Sound cfg published ⟨running, none, pending⟩ :=
  ⟨rows, fun _ mem => absurd mem (Option.not_mem_none _)⟩

/-- More contents published leave a row sound. -/
lemma Row.Sound.mono {proposalId : String} {row : Row} (sound : row.Sound cfg published proposalId) :
    row.Sound cfg (published ++ added) proposalId := by
  refine ⟨sound.key, sound.attempts, sound.error, fun cid is => ?_⟩
  obtain ⟨attempts, error, p, mem, rest⟩ := sound.result cid is
  exact ⟨attempts, error, p, List.mem_append_left _ mem, rest⟩

/-- A statement keeps what a row was made from, and a row that has an address as it is. -/
lemma Effect.keeps (effect : Effect cfg published table table') {x : String} {row : Row}
    (found : table.get? x = some row) : ∃ row', table'.get? x = some row' ∧ row'.proposal = row.proposal ∧
      row'.votes = row.votes ∧ (row.resultExportCid ≠ none → row' = row) := by
  have updated (proposalId : String) (data : Row → Row) (now : ℤ)
      (same : ∀ row, (data row).proposal = row.proposal ∧ (data row).votes = row.votes) :
      ∃ row', (updateMany table proposalId data now).get? x = some row' ∧ row'.proposal = row.proposal ∧
        row'.votes = row.votes ∧ (row.resultExportCid ≠ none → row' = row) := by
    rw [get?_updateMany]
    by_cases here : x = proposalId
    · subst here
      rw [if_pos rfl, found]
      refine ⟨_, rfl, ?_⟩
      beta_reduce
      split
      · rename_i free
        exact ⟨(same row).1, (same row).2, fun taken => absurd free taken⟩
      · exact ⟨rfl, rfl, fun _ => rfl⟩
    · rw [if_neg here]
      exact ⟨row, found, rfl, rfl, fun _ => rfl⟩
  cases effect with
  | same => exact ⟨row, found, rfl, rfl, fun _ => rfl⟩
  | exported mem exportedAt now => exact updated _ _ now fun _ => ⟨rfl, rfl⟩
  | failed proposalId le short now => exact updated _ _ now fun _ => ⟨rfl, rfl⟩

/-- A statement keeps the rows sound. -/
lemma Effect.sound (effect : Effect cfg published table table')
    (sound : ∀ proposalId row, table.get? proposalId = some row → row.Sound cfg published proposalId) :
    ∀ proposalId row, table'.get? proposalId = some row → row.Sound cfg published proposalId := by
  have updated (proposalId : String) (data : Row → Row) (now : ℤ)
      (new : ∀ row, table.get? proposalId = some row → row.resultExportCid = none → row.Sound cfg published proposalId →
        Row.Sound cfg published proposalId { data row with updatedAt := now }) :
      ∀ x row, (updateMany table proposalId data now).get? x = some row → row.Sound cfg published x := by
    intro x row found
    rw [get?_updateMany] at found
    split at found
    · rename_i here
      subst here
      obtain ⟨old, was, rfl⟩ := Option.map_eq_some_iff.1 found
      split
      · rename_i free
        exact new old was free (sound x old was)
      · exact sound x old was
    · exact sound x row found
  cases effect with
  | same => exact sound
  | @exported p mem exportedAt now =>
    refine updated _ _ now fun row _ free was => ⟨was.key, Nat.zero_le _, fun _ is => absurd is (Option.not_mem_none _),
      fun cid is => ?_⟩
    cases is
    exact ⟨rfl, rfl, p, mem, rfl, rfl, rfl⟩
  | failed proposalId le short now =>
    refine updated _ _ now fun row _ free was => ⟨was.key, le, fun _ is => Option.some.inj is ▸ short, fun cid is => ?_⟩
    rw [show row.resultExportCid = some cid from is] at free
    cases free

/-- What `findMany` answers are rows of the table, of a final status and with attempts left. -/
lemma rows_of_batch {ids : List String} (batch : IsBatch cfg table ids) :
    ∀ r ∈ ids.filterMap fun id => (table.get? id).map Row.exportable,
      (r.proposal.status ∈ FINAL_RESULT_STATUSES ∧ r.resultExportAttempts < cfg.maxAttempts) ∧
        ∃ proposalId row, table.get? proposalId = some row ∧ row.exportable = r := by
  intro r mem
  obtain ⟨id, asked, is⟩ := List.mem_filterMap.1 mem
  obtain ⟨row, found, rfl⟩ := Option.map_eq_some_iff.1 is
  refine ⟨?_, id, row, found, rfl⟩
  obtain ⟨e, pending, rfl⟩ := List.mem_map.1 (batch.2.1 id asked)
  obtain ⟨entry, isPending⟩ := List.mem_filter.1 pending
  rw [Dict.get?_of_mem entry] at found
  cases found
  rw [Row.isPending, Bool.and_eq_true, Bool.and_eq_true, decide_eq_true_iff, decide_eq_true_iff] at isPending
  exact ⟨isPending.1.1, isPending.2⟩

/-- What a worker does in one go. -/
lemma act_spec (taken : w.act cfg table a = some (w', table', added))
    (sound : w.Sound cfg published) :
    w'.Sound cfg (published ++ added) ∧ Effect cfg published table table' ∧ (∀ p ∈ added, p.Sound) ∧
      (∀ r ∈ w'.rows, r ∈ w.rows ∨ ∃ proposalId row, table.get? proposalId = some row ∧ row.exportable = r) ∧
        ∀ p ∈ added, p.row ∈ w.rows := by
  have idle : Worker.idle.Sound cfg (published ++ []) := .between fun _ mem => absurd mem List.not_mem_nil
  have nothing (P : Published → Prop) : ∀ p ∈ ([] : List Published), P p := fun _ mem => absurd mem List.not_mem_nil
  have none (P : ExportableProposalRow → Prop) : ∀ r ∈ Worker.idle.rows, P r := fun _ mem => absurd mem List.not_mem_nil
  unfold Worker.act at taken
  split at taken
  · cases taken
    exact ⟨idle, .same, nothing _, none _, nothing _⟩
  · rename_i ids
    split at taken
    · rename_i batch
      cases taken
      exact ⟨.between fun r mem => (rows_of_batch batch r mem).1, .same, nothing _,
        fun r mem => .inr (rows_of_batch batch r mem).2, nothing _⟩
    · cases taken
  · rename_i row pending generatedAt
    split at taken
    · rename_i text built
      cases taken
      refine ⟨⟨sound.rows, fun c mem => ?_⟩, .same, nothing _, fun r mem => .inl mem, nothing _⟩
      cases mem
      exact ⟨generatedAt, built⟩
    · cases taken
      refine ⟨⟨sound.rows, fun c mem => ?_⟩, .same, nothing _, fun r mem => .inl mem, nothing _⟩
      cases mem
      trivial
  · rename_i row text pending cid
    cases taken
    have here := sound.rows row (List.mem_cons_self ..)
    refine ⟨⟨sound.rows, fun c mem => ?_⟩, .same, ?_, fun r mem => .inl mem, ?_⟩
    · cases mem
      exact List.mem_append_right _ (List.mem_singleton_self _)
    · exact List.forall_mem_singleton.2 ⟨here.1, sound.stage _ rfl⟩
    · exact List.forall_mem_singleton.2 (List.mem_cons_self ..)
  · cases taken
    refine ⟨⟨sound.rows, fun c mem => ?_⟩, .same, nothing _, fun r mem => .inl mem, nothing _⟩
    cases mem
    trivial
  · rename_i row text cid pending reply applied exportedAt now
    have stored : Effect cfg published table (updateMany table row.proposal.proposalId
        (Row.exported cid (cfg.sha256Hex text) exportedAt) now) :=
      .exported (p := ⟨row, text, cid⟩) (sound.stage _ rfl) exportedAt now
    split at taken
    · cases taken
      exact ⟨.between fun r mem => sound.rows r (List.mem_cons_of_mem _ mem), stored, nothing _,
        fun r mem => .inl (List.mem_cons_of_mem _ mem), nothing _⟩
    · cases taken
      refine ⟨⟨sound.rows, fun c mem => ?_⟩, ?_, nothing _, fun r mem => .inl mem, nothing _⟩
      · cases mem
        trivial
      · split
        · exact stored
        · exact .same
  · rename_i row message pending applied now
    cases taken
    refine ⟨.between fun r mem => sound.rows r (List.mem_cons_of_mem _ mem), ?_, nothing _,
      fun r mem => .inl (List.mem_cons_of_mem _ mem), nothing _⟩
    split
    · exact .failed _ (sound.rows row (List.mem_cons_self ..)).2 (length_truncate ..) _
    · exact .same
  · cases taken
    exact ⟨idle, .same, nothing _, none _, nothing _⟩
  · cases taken
    exact ⟨idle, .same, nothing _, none _, nothing _⟩
  · cases taken

/-- A turn lets one worker act on the table. -/
lemma turn_eq {i : ℕ} (taken : s.step cfg (.turn i a) = some s') : ∃ w w' table added, s.workers[i]? = some w ∧
    w.act cfg s.store a = some (w', table, added) ∧ s' = ⟨table, s.workers.set i w', s.published ++ added⟩ := by
  obtain ⟨w, found, rest⟩ := Option.bind_eq_some_iff.1 taken
  obtain ⟨⟨w', table, added⟩, acts, same⟩ := Option.bind_eq_some_iff.1 rest
  cases same
  exact ⟨w, w', table, added, found, acts, rfl⟩

/-- Each step keeps soundness. -/
lemma Sound.step (sound : Sound cfg s) (taken : s.step cfg m = some s') : Sound cfg s' := by
  cases m with
  | create proposal now =>
    rw [State.step] at taken
    split at taken
    · cases taken
    · cases taken
      refine ⟨fun proposalId row found => ?_, sound.workers, sound.published⟩
      rw [Dict.get?_set] at found
      split at found
      · rename_i here
        cases found
        exact ⟨here.symm, Nat.zero_le _, fun _ is => absurd is (Option.not_mem_none _),
          fun _ is => absurd is (Option.some_ne_none _).symm⟩
      · exact sound.rows proposalId row found
  | edit proposal votes now =>
    cases taken
    refine ⟨fun proposalId row found => ?_, sound.workers, sound.published⟩
    rw [Dict.get?_modify] at found
    split at found
    · rename_i here
      obtain ⟨old, was, rfl⟩ := Option.map_eq_some_iff.1 found
      have before := sound.rows _ old was
      exact ⟨here.symm, before.attempts, before.error, here ▸ before.result⟩
    · exact sound.rows proposalId row found
  | turn i a =>
    obtain ⟨w, w', table, added, found, acts, rfl⟩ := turn_eq taken
    obtain ⟨next, effect, new, -, -⟩ := act_spec acts (sound.workers w (List.mem_of_getElem? found))
    refine ⟨fun proposalId row got => (effect.sound sound.rows proposalId row got).mono, fun u mem => ?_,
      List.forall_mem_append.2 ⟨sound.published, new⟩⟩
    exact forall_set found (fun u mem => (sound.workers u mem).mono) (fun _ => next) mem

/-- At the start nothing is published. -/
lemma sound_initial (n : ℕ) : Sound cfg (.initial n) := by
  refine ⟨fun _ _ found => absurd found (Option.some_ne_none _).symm, fun w mem => ?_,
    fun _ mem => absurd mem List.not_mem_nil⟩
  rw [List.eq_of_mem_replicate mem]
  exact .between fun _ mem => absurd mem List.not_mem_nil

/-- A step keeps a row, and the columns of the export once they are there. Who edits the row writes it as it is. -/
lemma row_step (sound : Sound cfg s) (taken : s.step cfg m = some s') {proposalId : String} {row : Row}
    (found : s.store.get? proposalId = some row) : ∃ row', s'.store.get? proposalId = some row' ∧
      (row.resultExportCid ≠ none → row'.result = row.result) ∧
        (Settled s m → row.proposal.status ∈ FINAL_RESULT_STATUSES →
          row'.proposal = row.proposal ∧ row'.votes = row.votes) := by
  cases m with
  | create proposal now =>
    rw [State.step] at taken
    split at taken
    · cases taken
    · rename_i new
      cases taken
      have other : proposalId ≠ proposal.proposalId := fun same => new (Dict.mem_keys_iff.2 ⟨row, same ▸ found⟩)
      refine ⟨row, ?_, fun _ => rfl, fun _ _ => ⟨rfl, rfl⟩⟩
      rw [Dict.get?_set, if_neg other]
      exact found
  | edit proposal votes now =>
    cases taken
    rw [Dict.get?_modify]
    by_cases here : proposalId = proposal.proposalId
    · subst here
      rw [if_pos rfl, found]
      exact ⟨_, rfl, fun _ => rfl, fun settled final => settled row found final⟩
    · rw [if_neg here]
      exact ⟨row, found, fun _ => rfl, fun _ _ => ⟨rfl, rfl⟩⟩
  | turn i a =>
    obtain ⟨w, w', table, added, at_i, acts, rfl⟩ := turn_eq taken
    obtain ⟨-, effect, -⟩ := act_spec acts (sound.workers w (List.mem_of_getElem? at_i))
    obtain ⟨row', found', proposal, votes, same⟩ := effect.keeps found
    exact ⟨row', found', fun exported => congrArg Row.result (same exported), fun _ _ => ⟨proposal, votes⟩⟩

/-- A recorded result stands while its proposal is settled. -/
lemma State.Stands.step (stands : s.Stands r) (final : r.proposal.status ∈ FINAL_RESULT_STATUSES)
    (sound : Sound cfg s) (settled : Settled s m) (taken : s.step cfg m = some s') : s'.Stands r := by
  obtain ⟨row, found, proposal, votes⟩ := stands
  obtain ⟨row', found', -, same⟩ := row_step sound taken found
  have kept := same settled (proposal ▸ final)
  exact ⟨row', found', kept.1.trans proposal, kept.2.trans votes⟩

/-- Settled proposals keep their contents. -/
lemma Frozen.step (frozen : Frozen s) (sound : Sound cfg s) (settled : Settled s m) (taken : s.step cfg m = some s') :
    Frozen s' := by
  have kept {r : ExportableProposalRow} (final : r.proposal.status ∈ FINAL_RESULT_STATUSES) (stands : s.Stands r) :
      s'.Stands r := stands.step final sound settled taken
  have rows (w : Worker) (mem : w ∈ s.workers) (r : ExportableProposalRow) (has : r ∈ w.rows) : s'.Stands r :=
    kept ((sound.workers w mem).rows r has).1 (frozen.rows w mem r has)
  have published (p : Published) (mem : p ∈ s.published) : s'.Stands p.row :=
    kept (sound.published p mem).1 (frozen.published p mem)
  cases m with
  | create proposal now =>
    rw [State.step] at taken
    split at taken
    · cases taken
    · cases taken
      exact ⟨rows, published⟩
  | edit proposal votes now =>
    cases taken
    exact ⟨rows, published⟩
  | turn i a =>
    obtain ⟨w, w', table, added, found, acts, rfl⟩ := turn_eq taken
    have own := List.mem_of_getElem? found
    obtain ⟨next, -, new, read, made⟩ := act_spec acts (sound.workers w own)
    refine ⟨fun u mem => ?_, List.forall_mem_append.2 ⟨published, fun p mem => ?_⟩⟩
    · rcases List.mem_or_eq_of_mem_set mem with old | rfl
      · exact rows u old
      · intro r has
        refine kept (next.rows r has).1 ?_
        rcases read r has with had | ⟨proposalId, row, found, rfl⟩
        · exact frozen.rows w own r had
        · exact ⟨row, (sound.rows _ row found).key ▸ found, rfl, rfl⟩
    · exact kept (new p mem).1 (frozen.rows w own p.row (made p mem))

/-- At the start no content is computed. -/
lemma frozen_initial (n : ℕ) : Frozen (.initial n) := by
  refine ⟨fun w mem => ?_, fun _ mem => absurd mem List.not_mem_nil⟩
  rw [List.eq_of_mem_replicate mem]
  exact fun _ mem => absurd mem List.not_mem_nil

/-- With any number of workers, whatever the database and the node answer: a row counts at most so many failures, and
the text of the last one is short; an address in a row is that of a published snapshot of the proposal in a final
status, whose hash is beside it, and of the row as it stands where final results do not change; and it is never
replaced. -/
theorem recorded_once {n : ℕ} {moves : List Move}
    (run : exec (State.step cfg) (.initial n) moves = some s) {proposalId : String} {row : Row}
    (found : s.store.get? proposalId = some row) :
    row.resultExportAttempts ≤ cfg.maxAttempts ∧
      (∀ details ∈ row.resultExportError, details.length ≤ ERROR_MESSAGE_MAX_LENGTH) ∧
      ∀ cid, row.resultExportCid = some cid →
        (row.resultExportAttempts = 0 ∧ row.resultExportError = none ∧ ∃ p ∈ s.published,
          p.row.proposal.proposalId = proposalId ∧ p.cid = cid ∧
          row.resultExportContentHash = some (cfg.sha256Hex p.text) ∧
          p.row.proposal.status ∈ FINAL_RESULT_STATUSES ∧
          (∃ generatedAt, content p.row.proposal p.row.votes generatedAt = .ok p.text) ∧
          (Guarded (State.step cfg) Settled (.initial n) moves →
            row.proposal = p.row.proposal ∧ row.votes = p.row.votes)) ∧
        ∀ more s', exec (State.step cfg) s more = some s' →
          ∃ row', s'.store.get? proposalId = some row' ∧ row'.result = row.result := by
  have sound : Sound cfg s := exec_invariant (sound_initial n) (fun _ _ _ sound => sound.step) run
  have here := sound.rows proposalId row found
  refine ⟨here.attempts, here.error, fun cid is => ⟨?_, fun more s' later => ?_⟩⟩
  · obtain ⟨attempts, error, p, mem, key, same, hash⟩ := here.result cid is
    obtain ⟨final, made⟩ := sound.published p mem
    refine ⟨attempts, error, p, mem, key, same, hash, final, made, fun guarded => ?_⟩
    have both := always_of_guarded (I := fun s => Sound cfg s ∧ Frozen s) ⟨sound_initial n, frozen_initial n⟩
      (fun _ _ _ inv settled taken => ⟨inv.1.step taken, inv.2.step inv.1 settled taken⟩) guarded
    obtain ⟨row', found', proposal, votes⟩ := (both moves s (List.prefix_refl moves) run).2.published p mem
    rw [key, found] at found'
    cases found'
    exact ⟨proposal, votes⟩
  · have kept (s' : State) (m : Move) (s'' : State) (inv : Sound cfg s' ∧ ∃ row', s'.store.get? proposalId = some row' ∧
        row'.result = row.result) (taken : s'.step cfg m = some s'') :
        Sound cfg s'' ∧ ∃ row', s''.store.get? proposalId = some row' ∧ row'.result = row.result := by
      obtain ⟨sound, row', found, same⟩ := inv
      obtain ⟨row'', found', result, -⟩ := row_step sound taken found
      have exported : row'.resultExportCid ≠ none := by
        rw [show row'.resultExportCid = some cid from (congrArg Prod.fst same).trans is]
        exact Option.some_ne_none cid
      exact ⟨sound.step taken, row'', found', (result exported).trans same⟩
    exact (exec_invariant ⟨sound, row, found, rfl⟩ kept later).2

/-- What is published of the sample. -/
def sampleContent : String :=
  "\x7b\"schema\":\"stellarflow.governance.proposal_result_snapshot\",\"version\":1,\"generatedAt\":" ++
    "\"1970-01-01T00:00:00.000Z\",\"proposal\":\x7b\"proposalId\":\"42\",\"contractId\":\"C\",\"title\":null," ++
    "\"actionType\":null,\"status\":\"Executed\",\"expiresAt\":\"1970-01-01T00:00:00.000Z\",\"queuedAt\":null," ++
    "\"executedAt\":\"1970-01-01T00:00:00.000Z\",\"cancelledAt\":null,\"transactionHash\":null\x7d," ++
    "\"tally\":\x7b\"totalVoters\":0,\"totalWeight\":\"0\",\"byChoice\":\x7b\x7d\x7d,\"voters\":[]\x7d"

/-- Its digest. -/
def sampleHash : String := "2e05d900844899dd86c8a22f7e66a305e23d8472551cfd57bb49742b1228f680"

def sampleOptions : Options := ⟨10, 5, fun text => if text = sampleContent then sampleHash else ""⟩

/-- Two workers publish the result of one proposal, after a failure. -/
def sampleMoves : List Move :=
  [.create { sampleProposal with status := "Queued" } 0, .edit sampleProposal [] 1,
    .turn 0 (.find (some ["42"])), .turn 0 (.build epoch), .turn 0 (.add (.error "timeout")), .turn 0 (.record true 2),
    .turn 0 .finish, .turn 0 (.find (some ["42"])), .turn 1 (.find (some ["42"])), .turn 0 (.build epoch),
    .turn 1 (.build epoch), .turn 0 (.add (.ok "Qm0")), .turn 1 (.add (.ok "Qm1")), .turn 1 (.store none true epoch 3),
    .turn 0 (.store none true epoch 4)]

/-- The row has the address and the digest of what the second worker published. -/
theorem recorded_once_sample : ∃ s row, exec (State.step sampleOptions) (.initial 2) sampleMoves = some s ∧
    s.store.get? "42" = some row ∧ row.resultExportCid = some "Qm1" ∧ row.resultExportAttempts = 0 ∧
    ∃ p ∈ s.published, p.cid = "Qm1" ∧ row.resultExportContentHash = some (sampleOptions.sha256Hex p.text) := by
  have reached : (exec (State.step sampleOptions) (.initial 2) sampleMoves).bind
      (fun s => (s.store.get? "42").bind Row.resultExportCid) = some "Qm1" := by
    decide +kernel
  obtain ⟨s, run, rest⟩ := Option.bind_eq_some_iff.1 reached
  obtain ⟨row, found, cid⟩ := Option.bind_eq_some_iff.1 rest
  obtain ⟨attempts, -, p, mem, -, same, hash, -⟩ := ((recorded_once run found).2.2 "Qm1" cid).1
  exact ⟨s, row, run, found, cid, attempts, p, mem, same, hash⟩

end StellarFlow.GovernanceResult
