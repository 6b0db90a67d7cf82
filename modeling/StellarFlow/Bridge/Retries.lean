import StellarFlow.Bridge.MintQueue

/-!
# How often a mint is retried

`submitStagedMintTransaction` in `src/services/bridgeMintingService.ts` and `retryFailedOperations` in
`src/services/bridgeQueueService.ts` both increment `retryCount`, here over runs in which the calls of `processQueue`
and `retryFailedOperations` do not overlap, with the submissions that ended in a failure beside the queue.

A failure and the requeueing after it count twice for one submission (`Attempts.Halved`), so an operation that keeps
failing is given up after two submissions.
-/

namespace StellarFlow.Bridge

/-- The queue, and the operations of the submissions that ended in a failure. -/
structure Attempts where
  queue : Queue
  failed : List String

/-- The calls of `processQueue` and `retryFailedOperations` do not overlap. -/
def Queue.sequential (s : Queue) : Move → Bool
  | .find _ => s.held.isEmpty
  | .retryFailedOperations => s.held.isEmpty
  | _ => true

/-- The submission that ends in a failure. -/
def Queue.failure (s : Queue) : Move → List String
  | .fail i _ => (s.ticks[i]?.map Tick.id).toList
  | _ => []

/-- One move of a sequential run. -/
def Attempts.step (rt : Runtime) (a : Attempts) (m : Move) : Option Attempts :=
  if a.queue.sequential m then
    (a.queue.step rt m).map fun queue => ⟨queue, a.failed ++ a.queue.failure m⟩
  else none

def Attempts.initial (operations : Dict String BridgeOperation) (events : Dict ℕ BridgeEvent) : Attempts :=
  ⟨.initial operations events, []⟩

/-- The submissions of an operation that ended in a failure. -/
def Attempts.failures (a : Attempts) (id : String) : ℕ := a.failed.count id

def Attempts.get? (a : Attempts) (id : String) : Option BridgeOperation := a.queue.operations.get? id

/-- `retryCount` counts the failed submissions, and an operation that is given up has failed three times. -/
structure Attempts.Counted (a : Attempts) : Prop where
  counts : ∀ id, ∀ row ∈ a.get? id, row.retryCount = a.failures id
  exhausted : ∀ id, ∀ row ∈ a.get? id, row.queueStatus = .failed → row.retriable = false → a.failures id = 3

/-- The failure handler writes the operation, and there is nothing to queue again. -/
def CountsOnce (a : Attempts) : Move → Prop
  | .fail _ updates => updates = true
  | .retryFailedOperations => ∀ e ∈ a.queue.operations.entries, e.2.retriable = false
  | _ => True

instance decidableCountsOnce (a : Attempts) : (m : Move) → Decidable (CountsOnce a m)
  | .fail _ updates => inferInstanceAs (Decidable (updates = true))
  | .retryFailedOperations =>
    inferInstanceAs (Decidable (∀ e ∈ a.queue.operations.entries, e.2.retriable = false))
  | .enqueue _ _ _ => isTrue trivial
  | .find _ => isTrue trivial
  | .read _ => isTrue trivial
  | .process _ => isTrue trivial
  | .send _ _ _ => isTrue trivial
  | .complete _ => isTrue trivial
  | .completeEvent _ => isTrue trivial
  | .error _ => isTrue trivial

variable {rt : Runtime} {a a' : Attempts} {m : Move} {i : ℕ} {id : String} {phase phase' : Phase}

/-- A step is a sequential step of the queue, with the failure it makes added to the list. -/
lemma Attempts.step_eq_some : a.step rt m = some a' ↔
    a.queue.sequential m = true ∧ a.queue.step rt m = some a'.queue ∧ a'.failed = a.failed ++ a.queue.failure m := by
  rw [Attempts.step]
  constructor
  · intro taken
    split at taken
    case isTrue sequential =>
      obtain ⟨queue, moved, rfl⟩ := Option.map_eq_some_iff.1 taken
      exact ⟨sequential, moved, rfl⟩
    case isFalse => cases taken
  · rintro ⟨sequential, moved, failed⟩
    rw [if_pos sequential, moved, Option.map_some, ← failed]

/-- The failure handler's UPDATE. -/
def BridgeOperation.fail (row : BridgeOperation) : BridgeOperation :=
  { row with queueStatus := .failed, retryCount := row.retryCount + 1 }

/-- The UPDATE of `retryFailedOperations`. -/
def BridgeOperation.requeue (row : BridgeOperation) : BridgeOperation :=
  if row.retriable then { row with queueStatus := .queued, retryCount := row.retryCount + 1 } else row

/-- What a move of a sequential run does to the rows, the ticks and the failures. -/
inductive Attempts.Effect (a a' : Attempts) : Move → Prop where
  | enqueue {id : String} {params : BridgeOperationParams} {now : ℤ} (new : id ∉ a.queue.operations.keys)
      (rows : ∀ x, a'.get? x = if x = id then some (params.operation now) else a.get? x)
      (ticks : a'.queue.ticks = a.queue.ticks) (failed : a'.failed = a.failed) : Effect a a' (.enqueue id params now)
  | find {id : String} {row : BridgeOperation} (idle : a.queue.held = []) (found : a.get? id = some row)
      (eligible : row.eligible = true) (rows : ∀ x, a'.get? x = a.get? x)
      (ticks : a'.queue.ticks = a.queue.ticks ++ [⟨id, .found⟩]) (failed : a'.failed = a.failed) :
      Effect a a' (.find id)
  | works {m : Move} {i : ℕ} {id : String} {phase phase' : Phase} {f : BridgeOperation → BridgeOperation}
      (found : a.queue.ticks[i]? = some ⟨id, phase⟩) (holds : Tick.held ⟨id, phase⟩ = some id)
      (rows : ∀ x, a'.get? x = if x = id then (a.get? id).map f else a.get? x)
      (counter : ∀ row, (f row).retryCount = row.retryCount)
      (status : ∀ row, row.queueStatus ≠ .failed → (f row).queueStatus ≠ .failed)
      (ticks : a'.queue.ticks = a.queue.ticks.set i ⟨id, phase'⟩) (failed : a'.failed = a.failed)
      (free : CountsOnce a m) : Effect a a' m
  | fails {i : ℕ} {id : String} {updates : Bool} (found : a.queue.ticks[i]? = some ⟨id, .failing⟩)
      (rows : ∀ x, a'.get? x = if x = id ∧ updates = true then (a.get? id).map BridgeOperation.fail else a.get? x)
      (ticks : a'.queue.ticks = a.queue.ticks.set i ⟨id, .finished⟩) (failed : a'.failed = a.failed ++ [id]) :
      Effect a a' (.fail i updates)
  | retry (idle : a.queue.held = []) (rows : ∀ x, a'.get? x = (a.get? x).map BridgeOperation.requeue)
      (ticks : a'.queue.ticks = a.queue.ticks) (failed : a'.failed = a.failed) : Effect a a' .retryFailedOperations

/-- Where the rows are left alone, each one is what it was. -/
lemma get?_same {a a' : Attempts} (operations : a'.queue.operations = a.queue.operations) (x : String) :
    a'.get? x = if x = id then (a.get? id).map (fun row => row) else a.get? x := by
  rw [Attempts.get?, operations]
  split
  case isTrue same => rw [same, Option.map_id', Attempts.get?]
  case isFalse => rfl

/-- Each step of the queue has one of these effects. -/
lemma Attempts.effect (taken : a.step rt m = some a') : Attempts.Effect a a' m := by
  obtain ⟨sequential, moved, failed⟩ := Attempts.step_eq_some.1 taken
  obtain ⟨queue, failures⟩ := a'
  change a.queue.step rt m = some queue at moved
  change failures = _ at failed
  have working (none : a.queue.failure m = []) : failures = a.failed := by rw [failed, none, List.append_nil]
  have processing_ne : QueueStatus.processing ≠ .failed := by decide
  have completed_ne : QueueStatus.completed ≠ .failed := by decide
  cases Queue.step_cases moved with
  | enqueue new => exact .enqueue new (fun x => Dict.get?_set ..) rfl (working rfl)
  | @find id next =>
    obtain ⟨present, first⟩ := (Option.any_eq_true_iff_get _ _).1 next
    obtain ⟨row, found⟩ := Option.isSome_iff_exists.1 present
    rw [Bool.and_eq_true] at first
    simp only [found, Option.get_some] at first
    exact .find (List.isEmpty_iff.1 sequential) found first.1 (fun _ => rfl) rfl (working rfl)
  | missing found =>
    exact .works found rfl (get?_same rfl) (fun _ => rfl) (fun _ busy => busy) rfl (working rfl) trivial
  | read operation event found =>
    exact .works found rfl (get?_same rfl) (fun _ => rfl) (fun _ busy => busy) rfl (working rfl) trivial
  | process found =>
    exact .works found rfl (fun _ => Dict.get?_modify ..) (fun _ => rfl) (fun _ _ => processing_ne) rfl (working rfl)
      trivial
  | send mint found =>
    exact .works found rfl (get?_same rfl) (fun _ => rfl) (fun _ busy => busy) rfl (working rfl) trivial
  | complete found =>
    exact .works found rfl (fun _ => Dict.get?_modify ..) (fun _ => rfl) (fun _ _ => completed_ne) rfl (working rfl)
      trivial
  | completeEvent found =>
    exact .works found rfl (get?_same rfl) (fun _ => rfl) (fun _ busy => busy) rfl (working rfl) trivial
  | error found holds =>
    exact .works found holds (get?_same rfl) (fun _ => rfl) (fun _ busy => busy) rfl (working rfl) trivial
  | @fail i id found =>
    refine .fails found (fun x => ?_) rfl ?_
    · refine (Dict.get?_modify ..).trans ?_
      simp only [and_true]
      rfl
    · rw [failed, Queue.failure, found]
      rfl
  | @failLost i id found =>
    refine .fails found (fun x => ?_) rfl ?_
    · rw [if_neg fun both => Bool.false_ne_true both.2]
      rfl
    · rw [failed, Queue.failure, found]
      rfl
  | retry => exact .retry (List.isEmpty_iff.1 sequential) (fun _ => Dict.get?_mapValues ..) rfl (working rfl)

/-- The ticks and the failures are those of operations. -/
structure Attempts.Known (a : Attempts) : Prop where
  ticks : ∀ t ∈ a.queue.ticks, ∃ row, a.get? t.id = some row
  failed : ∀ id ∈ a.failed, ∃ row, a.get? id = some row

/-- No effect removes a row. -/
lemma Attempts.Effect.remains (effect : Attempts.Effect a a' m) {x : String} (was : ∃ row, a.get? x = some row) :
    ∃ row, a'.get? x = some row := by
  obtain ⟨row, was⟩ := was
  cases effect with
  | enqueue new rows =>
    rw [rows]
    split
    · exact ⟨_, rfl⟩
    · exact ⟨row, was⟩
  | find idle found eligible rows => exact ⟨row, (rows x).trans was⟩
  | works found holds rows =>
    rw [rows]
    split
    case isTrue same => exact ⟨_, by rw [← same, was, Option.map_some]⟩
    case isFalse => exact ⟨row, was⟩
  | fails found rows =>
    rw [rows]
    split
    case isTrue same => exact ⟨_, by rw [← same.1, was, Option.map_some]⟩
    case isFalse => exact ⟨row, was⟩
  | retry idle rows => exact ⟨_, by rw [rows, was, Option.map_some]⟩

/-- Failures stay those of rows that are there. -/
lemma Attempts.Known.step (known : a.Known) (effect : Attempts.Effect a a' m) : a'.Known := by
  have ticks : ∀ t ∈ a.queue.ticks, ∃ row, a'.get? t.id = some row := fun t mem => effect.remains (known.ticks t mem)
  have failed : ∀ id ∈ a.failed, ∃ row, a'.get? id = some row := fun id mem => effect.remains (known.failed id mem)
  have works {i : ℕ} {id : String} {phase phase' : Phase} (found : a.queue.ticks[i]? = some ⟨id, phase⟩) :
      ∀ t ∈ a.queue.ticks.set i ⟨id, phase'⟩, ∃ row, a'.get? t.id = some row := by
    intro t mem
    refine Machine.forall_set (P := fun t => ∃ row, a'.get? t.id = some row) found ticks (fun was => ?_) mem
    exact was
  cases effect with
  | enqueue new rows same none => exact ⟨same ▸ ticks, none ▸ failed⟩
  | find idle found eligible rows joins none =>
    refine ⟨joins ▸ Machine.forall_snoc ticks ⟨_, (rows _).trans found⟩, none ▸ failed⟩
  | works found holds rows counter status goes none => exact ⟨goes ▸ works found, none ▸ failed⟩
  | fails found rows goes more =>
    refine ⟨goes ▸ works found, more ▸ Machine.forall_snoc failed ?_⟩
    exact ticks _ (List.mem_of_getElem? found)
  | retry idle rows same none => exact ⟨same ▸ ticks, none ▸ failed⟩

/-- At the start there are no failures. -/
lemma Attempts.known_initial (operations : Dict String BridgeOperation) (events : Dict ℕ BridgeEvent) :
    (Attempts.initial operations events).Known :=
  ⟨fun _ mem => absurd mem List.not_mem_nil, fun _ mem => absurd mem List.not_mem_nil⟩

/-- An operation that is not there has not failed. -/
lemma Attempts.Known.failures_eq_zero (known : a.Known) (new : id ∉ a.queue.operations.keys) : a.failures id = 0 :=
  List.count_eq_zero.2 fun mem => new (Dict.mem_keys_iff.2 (known.failed id mem))

/-- The failures of an operation are read from the list alone. -/
lemma failures_congr (failed : a'.failed = a.failed) (x : String) : a'.failures x = a.failures x := by
  rw [Attempts.failures, failed, Attempts.failures]

/-- A failure more of one operation. -/
lemma failures_snoc (failed : a'.failed = a.failed ++ [id]) (x : String) :
    a'.failures x = a.failures x + if x = id then 1 else 0 := by
  rw [Attempts.failures, failed, List.count_append, List.count_singleton]
  by_cases same : x = id
  · rw [if_pos same, same, beq_self_eq_true, if_pos rfl]
    rfl
  · rw [if_neg same, if_neg fun is => same (eq_of_beq is).symm]
    rfl

/-- `retryCount` counts the failures. -/
def Attempts.Counts (a : Attempts) : Prop := ∀ id, ∀ row ∈ a.get? id, row.retryCount = a.failures id

/-- A move keeps the count exactly when it counts once. -/
lemma Attempts.Effect.counts_iff (effect : Attempts.Effect a a' m) (known : a.Known) (counts : a.Counts) :
    a'.Counts ↔ CountsOnce a m := by
  cases effect with
  | @enqueue id params now new rows ticks failed =>
    refine iff_of_true (fun x row found => ?_) trivial
    rw [failures_congr failed]
    rw [rows] at found
    split at found
    case isTrue same =>
      cases found
      exact same ▸ (known.failures_eq_zero new).symm
    case isFalse => exact counts x row found
  | find idle found eligible rows ticks failed =>
    refine iff_of_true (fun x row found => ?_) trivial
    rw [failures_congr failed]
    exact counts x row ((rows x).symm.trans found)
  | works found holds rows counter status ticks failed free =>
    refine iff_of_true (fun x row found => ?_) free
    rw [failures_congr failed]
    rw [rows] at found
    split at found
    case isTrue same =>
      obtain ⟨old, was, rfl⟩ := Option.map_eq_some_iff.1 found
      rw [counter]
      exact same ▸ counts _ old was
    case isFalse => exact counts x row found
  | @fails i id updates found rows ticks failed =>
    obtain ⟨row, was⟩ := known.ticks _ (List.mem_of_getElem? found)
    constructor
    · intro after
      by_contra lost
      have same := after id row ((rows id).trans ((if_neg fun both => lost both.2).trans was))
      rw [failures_snoc failed, if_pos rfl, counts id row was] at same
      omega
    · intro updates x row' found'
      rw [rows] at found'
      rw [failures_snoc failed]
      by_cases same : x = id
      · rw [if_pos ⟨same, updates⟩] at found'
        obtain ⟨old, was, rfl⟩ := Option.map_eq_some_iff.1 found'
        rw [if_pos same, same]
        exact congrArg (· + 1) (counts id old was)
      · rw [if_neg fun both => same both.1] at found'
        rw [if_neg same]
        exact counts x row' found'
  | retry idle rows ticks failed =>
    constructor
    · intro after e mem
      by_contra retriable
      have found := Dict.get?_of_mem mem
      have same := after e.1 e.2.requeue ((rows e.1).trans ((congrArg _ found).trans (Option.map_some ..)))
      rw [Bool.not_eq_false] at retriable
      rw [BridgeOperation.requeue, if_pos retriable, failures_congr failed] at same
      have before := counts e.1 e.2 found
      change e.2.retryCount + 1 = _ at same
      omega
    · intro none x row found
      rw [rows] at found
      obtain ⟨old, was, rfl⟩ := Option.map_eq_some_iff.1 found
      rw [BridgeOperation.requeue, if_neg (Bool.eq_false_iff.1 (none (x, old) (Dict.get?_eq_some was)))]
      rw [failures_congr failed]
      exact counts x old was

/-- A submission and a requeueing each count one, so the counter is twice the failures, less the requeueing to come. At
most one tick works on an operation, which has failed once at most. -/
structure Attempts.Halved (a : Attempts) : Prop where
  alone : a.queue.held.length ≤ 1
  rows : ∀ id, ∀ row ∈ a.get? id,
    row.retryCount + (if row.queueStatus = .failed then 1 else 0) = 2 * a.failures id ∧ a.failures id ≤ 2
  working : ∀ id ∈ a.queue.held, ∀ row ∈ a.get? id, row.queueStatus ≠ .failed ∧ a.failures id ≤ 1

/-- The tick that goes on is the only one that works. -/
lemma held_alone {s : Queue} (alone : s.held.length ≤ 1) (found : s.ticks[i]? = some ⟨id, phase⟩)
    (holds : Tick.held ⟨id, phase⟩ = some id) (t : Tick) :
    s.held = [id] ∧ (s.ticks.set i t).filterMap Tick.held = t.held.toList := by
  obtain ⟨pre, post, ticks, set⟩ := Machine.split_set found
  have held : s.held = pre.filterMap Tick.held ++ id :: post.filterMap Tick.held := by
    rw [Queue.held, ticks, List.filterMap_append, List.filterMap_cons_some holds]
  rw [held, List.length_append, List.length_cons] at alone
  have before : pre.filterMap Tick.held = [] := List.length_eq_zero_iff.1 (by omega)
  have behind : post.filterMap Tick.held = [] := List.length_eq_zero_iff.1 (by omega)
  constructor
  · rw [held, before, behind]
    rfl
  · rw [set, List.filterMap_append, before, List.filterMap_cons, behind]
    cases t.held with
    | none => rfl
    | some x => rfl

/-- A tick works on an operation of the table. -/
lemma Attempts.Known.row_of_held (known : a.Known) (works : id ∈ a.queue.held) : ∃ row, a.get? id = some row := by
  obtain ⟨t, tick, holds⟩ := List.mem_filterMap.1 works
  rcases t.held_eq with none | some
  · cases holds.symm.trans none
  · exact Option.some.inj (some.symm.trans holds) ▸ known.ticks t tick

/-- While a tick works on an operation, all its failures were followed by a requeueing. -/
lemma Attempts.Halved.retryCount_of_working (inv : a.Halved) (works : id ∈ a.queue.held) {row : BridgeOperation}
    (found : a.get? id = some row) : row.retryCount = 2 * a.failures id := by
  have account := inv.rows id row found
  rw [if_neg (inv.working id works row found).1] at account
  exact account.1

/-- Without a tick that works only the rows count. -/
lemma Attempts.halved_of_idle (held : a.queue.held = [])
    (rows : ∀ id, ∀ row ∈ a.get? id,
      row.retryCount + (if row.queueStatus = .failed then 1 else 0) = 2 * a.failures id ∧ a.failures id ≤ 2) :
    a.Halved :=
  ⟨held ▸ Nat.zero_le 1, rows, fun _ mem => absurd (held ▸ mem) List.not_mem_nil⟩

/-- A step whose failure is written keeps the counters at twice the failures, less a requeueing to come. -/
lemma Attempts.Halved.step (inv : a.Halved) (known : a.Known) (effect : Attempts.Effect a a' m)
    (written : ∀ i, m ≠ .fail i false) : a'.Halved := by
  cases effect with
  | @enqueue id params now new rows ticks failed =>
    have held : a'.queue.held = a.queue.held := congrArg (List.filterMap Tick.held) ticks
    refine ⟨held ▸ inv.alone, fun x row found => ?_, fun x mem row found => ?_⟩
    · rw [failures_congr failed]
      rw [rows] at found
      split at found
      case isTrue same =>
        cases found
        rw [same, known.failures_eq_zero new]
        exact ⟨rfl, Nat.zero_le 2⟩
      case isFalse => exact inv.rows x row found
    · rw [failures_congr failed]
      rw [rows] at found
      rw [held] at mem
      split at found
      case isTrue same => exact absurd (Dict.mem_keys_iff.2 (same ▸ known.row_of_held mem)) new
      case isFalse => exact inv.working x mem row found
  | @find id row idle found eligible rows ticks failed =>
    have held : a'.queue.held = [id] := by
      rw [Queue.held, ticks, List.filterMap_append, ← Queue.held, idle]
      rfl
    refine ⟨held ▸ le_rfl, fun x row found => ?_, fun x mem row' found' => ?_⟩
    · rw [failures_congr failed]
      exact inv.rows x row ((rows x).symm.trans found)
    · obtain rfl := List.mem_singleton.1 (held ▸ mem)
      obtain rfl := Option.some.inj (found.symm.trans ((rows x).symm.trans found'))
      rw [BridgeOperation.eligible, Bool.and_eq_true, decide_eq_true_iff, decide_eq_true_iff] at eligible
      have account := inv.rows x row found
      rw [eligible.1, if_neg (by decide)] at account
      rw [failures_congr failed, eligible.1]
      exact ⟨(by decide), by omega⟩
  | @works m i id phase phase' f found holds rows counter status ticks failed free =>
    obtain ⟨was, now⟩ := held_alone inv.alone found holds ⟨id, phase'⟩
    have held : a'.queue.held = (Tick.held ⟨id, phase'⟩).toList := (congrArg (List.filterMap Tick.held) ticks).trans now
    have own : ∀ row ∈ a'.get? id, row.queueStatus ≠ .failed ∧ a.failures id ≤ 1 ∧
        row.retryCount = 2 * a.failures id := by
      intro row found
      rw [rows, if_pos rfl] at found
      obtain ⟨old, present, rfl⟩ := Option.map_eq_some_iff.1 found
      have works : id ∈ a.queue.held := was ▸ List.mem_singleton_self id
      obtain ⟨busy, once⟩ := inv.working id works old present
      exact ⟨status old busy, once, (counter old).trans (inv.retryCount_of_working works present)⟩
    refine ⟨?_, fun x row present => ?_, fun x mem row present => ?_⟩
    · rw [held]
      exact Option.length_toList_le
    · rw [failures_congr failed]
      by_cases same : x = id
      · subst same
        obtain ⟨busy, once, account⟩ := own row present
        rw [if_neg busy]
        exact ⟨account, once.trans (by decide)⟩
      · rw [rows, if_neg same] at present
        exact inv.rows x row present
    · rw [held, Option.mem_toList] at mem
      rcases Tick.held_eq ⟨id, phase'⟩ with none | some
      · cases mem.symm.trans none
      · obtain rfl := Option.some.inj (mem.symm.trans some)
        rw [failures_congr failed]
        exact ⟨(own row present).1, (own row present).2.1⟩
  | @fails i id updates found rows ticks failed =>
    obtain ⟨was, now⟩ := held_alone inv.alone found rfl ⟨id, .finished⟩
    have held : a'.queue.held = [] := (congrArg (List.filterMap Tick.held) ticks).trans now
    have writes : updates = true := by
      cases updates with
      | true => rfl
      | false => exact absurd rfl (written i)
    refine Attempts.halved_of_idle held fun x row found => ?_
    rw [failures_snoc failed]
    by_cases same : x = id
    · rw [rows, if_pos ⟨same, writes⟩] at found
      obtain ⟨old, present, rfl⟩ := Option.map_eq_some_iff.1 found
      have works : id ∈ a.queue.held := was ▸ List.mem_singleton_self id
      have once := (inv.working id works old present).2
      have account := inv.retryCount_of_working works present
      rw [if_pos same, same]
      show old.retryCount + 1 + 1 = _ ∧ _
      omega
    · rw [rows, if_neg fun both => same both.1] at found
      rw [if_neg same]
      exact inv.rows x row found
  | retry idle rows ticks failed =>
    have held : a'.queue.held = [] := (congrArg (List.filterMap Tick.held) ticks).trans idle
    refine Attempts.halved_of_idle held fun x row found => ?_
    rw [failures_congr failed]
    rw [rows] at found
    obtain ⟨old, present, rfl⟩ := Option.map_eq_some_iff.1 found
    have account := inv.rows x old present
    rw [BridgeOperation.requeue]
    split
    case isTrue retriable =>
      rw [BridgeOperation.retriable, Bool.and_eq_true, decide_eq_true_iff] at retriable
      rw [if_pos retriable.1] at account
      exact account
    case isFalse => exact account

/-- Operations that were not submitted yet. -/
def Unsubmitted (operations : Dict String BridgeOperation) : Prop :=
  ∀ id, ∀ row ∈ operations.get? id, row.queueStatus = .queued ∧ row.retryCount = 0

/-- What was never submitted has neither failures nor counts. -/
lemma Unsubmitted.halved {operations : Dict String BridgeOperation} (new : Unsubmitted operations)
    (events : Dict ℕ BridgeEvent) : (Attempts.initial operations events).Halved := by
  refine ⟨Nat.zero_le 1, fun id row found => ?_, fun _ mem => absurd mem List.not_mem_nil⟩
  obtain ⟨queued, zero⟩ := new id row found
  rw [queued, zero]
  exact ⟨rfl, Nat.zero_le 2⟩

section Runs
variable {operations : Dict String BridgeOperation} {events : Dict ℕ BridgeEvent} {trace : List Move}

/-- Along a run whose failures are written, each counter is twice the failures, less a requeueing to come. -/
lemma always_halved (new : Unsubmitted operations)
    (written : Machine.Guarded (Attempts.step rt) (fun _ m => ∀ i, m ≠ .fail i false)
      (.initial operations events) trace) :
    Machine.Always (Attempts.step rt) (fun a => a.Halved ∧ a.Known) (.initial operations events) trace := by
  refine Machine.always_of_guarded (I := fun a => a.Halved ∧ a.Known)
    ⟨new.halved events, Attempts.known_initial operations events⟩ (fun a m a' inv met taken => ?_) written
  have effect := Attempts.effect taken
  exact ⟨inv.1.step inv.2 effect met, inv.2.step effect⟩

/-- An operation that is given up has been submitted twice, not three times, when every failure is written. -/
theorem failures_of_exhausted (new : Unsubmitted operations)
    (written : Machine.Guarded (Attempts.step rt) (fun _ m => ∀ i, m ≠ .fail i false)
      (.initial operations events) trace) :
    Machine.Always (Attempts.step rt)
      (fun a => ∀ id, ∀ row ∈ a.get? id, row.queueStatus = .failed → row.retriable = false → a.failures id = 2)
      (.initial operations events) trace := by
  intro pre a le reached id row found failed exhausted
  obtain ⟨account, twice⟩ := (always_halved new written pre a le reached).1.rows id row found
  rw [BridgeOperation.retriable, failed, decide_eq_true rfl, Bool.true_and, decide_eq_false_iff_not] at exhausted
  rw [failed, if_pos rfl] at account
  omega

/-- Over a sequential run `retryCount` is the number of failed submissions of each operation, and one that is given up
has failed three times, exactly when every failure is written and nothing is ever queued again. -/
theorem retryCount_counts_failures_iff (new : Unsubmitted operations) {a : Attempts}
    (run : Machine.exec (Attempts.step rt) (.initial operations events) trace = some a) :
    Machine.Always (Attempts.step rt) Attempts.Counted (.initial operations events) trace ↔
      Machine.Guarded (Attempts.step rt) CountsOnce (.initial operations events) trace := by
  have counts : Machine.Always (Attempts.step rt) Attempts.Counts (.initial operations events) trace ↔
      Machine.Guarded (Attempts.step rt) CountsOnce (.initial operations events) trace := by
    refine Machine.always_iff_guarded (I := Attempts.Known) (Attempts.known_initial operations events) ?_ ?_ ?_ run
    · exact fun id row found => (new id row found).2
    · exact fun _ _ _ known _ taken => known.step (Attempts.effect taken)
    · exact fun _ _ _ known counts taken => (Attempts.effect taken).counts_iff known counts
  constructor
  · intro counted
    exact counts.1 fun pre a le reached => (counted pre a le reached).counts
  · intro guarded pre a le reached
    have written : Machine.Guarded (Attempts.step rt) (fun _ m => ∀ i, m ≠ .fail i false)
        (.initial operations events) trace := by
      rintro pre m a le reached i rfl
      exact absurd (guarded pre _ a le reached) Bool.false_ne_true
    have all := counts.2 guarded pre a le reached
    refine ⟨all, fun id row found failed exhausted => ?_⟩
    -- twice the failures less one is the failures, so the operation has failed once and is retriable
    have account := ((always_halved new written pre a le reached).1.rows id row found).1
    rw [failed, if_pos rfl, all id row found] at account
    rw [BridgeOperation.retriable, failed, decide_eq_true rfl, Bool.true_and, decide_eq_false_iff_not,
      all id row found] at exhausted
    omega

end Runs

/-- The sample has one operation, which is new. -/
lemma unsubmitted_sample : Unsubmitted sampleOperations := by
  intro id row found
  obtain rfl : row = (BridgeOperationParams.mk 1 "contract" 5 "recipient" none).operation 0 :=
    congrArg Prod.snd (List.mem_singleton.1 (Dict.get?_eq_some found))
  exact ⟨rfl, rfl⟩

/-- One failure, which is written. -/
def sampleFailure : List Move := [.find "op", .error 0, .fail 0 true]

/-- One failure, which is written. -/
theorem retryCount_counts_failures_sample : ∃ a,
    Machine.exec (Attempts.step sampleRuntime) (.initial sampleOperations sampleBridgeEvents) sampleFailure = some a ∧
    Machine.Always (Attempts.step sampleRuntime) Attempts.Counted (.initial sampleOperations sampleBridgeEvents)
      sampleFailure := by
  have run : ((Machine.exec (Attempts.step sampleRuntime) (.initial sampleOperations sampleBridgeEvents)
      sampleFailure).map Attempts.failed) = some ["op"] := by decide +kernel
  have once : Machine.Guarded (Attempts.step sampleRuntime) CountsOnce
      (.initial sampleOperations sampleBridgeEvents) sampleFailure := by decide +kernel
  obtain ⟨a, reached, -⟩ := Option.map_eq_some_iff.1 run
  exact ⟨a, reached, (retryCount_counts_failures_iff unsubmitted_sample reached).2 once⟩

/-- The operation fails, is queued again and fails again: it is `FAILED` with a count of three after two submissions. -/
def sampleExhausted : List Move :=
  [.find "op", .error 0, .fail 0 true, .retryFailedOperations, .find "op", .error 1, .fail 1 true]

/-- After two failures the counter is at three, and the operation is not tried again. -/
theorem retryCount_after_two_failures : ∃ a row,
    Machine.exec (Attempts.step sampleRuntime) (.initial sampleOperations sampleBridgeEvents) sampleExhausted =
      some a ∧
    a.get? "op" = some row ∧ row.queueStatus = .failed ∧ row.retryCount = 3 ∧ row.retriable = false ∧
    a.failures "op" = 2 := by
  have run : ((Machine.exec (Attempts.step sampleRuntime) (.initial sampleOperations sampleBridgeEvents)
      sampleExhausted).bind fun a => (a.get? "op").map fun row =>
        (row.queueStatus, row.retryCount, row.retriable, a.failures "op")) = some (.failed, 3, false, 2) := by
    decide +kernel
  obtain ⟨a, reached, seen⟩ := Option.bind_eq_some_iff.1 run
  obtain ⟨row, found, seen⟩ := Option.map_eq_some_iff.1 seen
  simp only [Prod.mk.injEq] at seen
  obtain ⟨failed, count, exhausted, failures⟩ := seen
  exact ⟨a, row, reached, found, failed, count, exhausted, failures⟩

end StellarFlow.Bridge
