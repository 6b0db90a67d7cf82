import StellarFlow.Bridge.Events
import StellarFlow.Lib.Machine

/-!
# The queue of mints

Model of `processQueue` and `retryFailedOperations` in `src/services/bridgeQueueService.ts` and of
`submitStagedMintTransaction` in `src/services/bridgeMintingService.ts`. The ticks of `processQueue` run interleaved,
one statement or remote answer at a time; each may throw, and whether a transaction that was sent lands is independent
of what its polling sees.

A tick finds an operation before it marks it, so two ticks can find the same one, and an operation that failed after
its transaction was sent is queued again. An operation is minted once where no tick finds an operation that another one
holds, and none is queued again whose mint has landed.
-/

namespace StellarFlow.Bridge

/-- Where a tick stands with its operation: it has found it, read it with its event, marked it, sent the transaction,
seen its success, or it has an error to record. -/
inductive Phase where
  | found
  | read (operation : BridgeOperation) (event : BridgeEvent)
  | processing (operation : BridgeOperation) (event : BridgeEvent)
  | sent (hash : String) (bridgeEventId : ℕ)
  | completed (bridgeEventId : ℕ)
  | failing
  | finished

/-- A run of `processQueue` that has found an operation. -/
structure Tick where
  id : String
  phase : Phase

/-- A transaction that was sent for an operation, and whether it lands. -/
structure Transaction where
  operationId : String
  mint : Mint
  hash : String
  lands : Bool

structure Queue where
  operations : Dict String BridgeOperation
  events : Dict ℕ BridgeEvent
  ticks : List Tick
  sent : List Transaction

/-- The arguments of `enqueue`. -/
structure BridgeOperationParams where
  bridgeEventId : ℕ
  sorobanContract : String
  mintAmount : ℚ
  recipientAddress : String
  priority : Option ℤ

inductive Move where
  | enqueue (id : String) (params : BridgeOperationParams) (now : ℤ)
  | find (id : String)
  | read (i : ℕ)
  | process (i : ℕ)
  | send (i : ℕ) (hash : String) (lands : Bool)
  | complete (i : ℕ)
  | completeEvent (i : ℕ)
  | error (i : ℕ)
  | fail (i : ℕ) (updates : Bool)
  | retryFailedOperations

/-- The row that `enqueue` creates. -/
def BridgeOperationParams.operation (params : BridgeOperationParams) (now : ℤ) : BridgeOperation where
  bridgeEventId := params.bridgeEventId
  sorobanContract := some params.sorobanContract
  mintAmount := params.mintAmount
  recipientAddress := params.recipientAddress
  stellarTxHash := none
  queueStatus := .queued
  priority := if params.priority.getD 0 = 0 then 5 else params.priority.getD 0
  retryCount := 0
  queuedAt := now

/-- `prisma.bridgeOperation.create`, which throws for an amount that does not fit the column. -/
def BridgeOperationParams.create (params : BridgeOperationParams) (now : ℤ) : Option BridgeOperation :=
  (decimalColumn params.mintAmount).map fun mintAmount => { params with mintAmount := mintAmount }.operation now

/-- The WHERE of `processQueue`. -/
def BridgeOperation.eligible (operation : BridgeOperation) : Bool :=
  operation.queueStatus = .queued && operation.retryCount < 3

/-- The ORDER BY of `processQueue`. -/
def BridgeOperation.before (a b : BridgeOperation) : Bool :=
  a.priority < b.priority || a.priority = b.priority && a.queuedAt < b.queuedAt

/-- The WHERE of `retryFailedOperations`. -/
def BridgeOperation.retriable (operation : BridgeOperation) : Bool :=
  operation.queueStatus = .failed && operation.retryCount < 3

/-- `findFirst` may return the operation. -/
def Queue.isNext (s : Queue) (id : String) : Bool :=
  (s.operations.get? id).any fun operation =>
    operation.eligible && s.operations.entries.all fun e => !(e.2.eligible && e.2.before operation)

/-- The tick goes on. -/
def Queue.advance (s : Queue) (i : ℕ) (id : String) (phase : Phase) : Queue :=
  { s with ticks := s.ticks.set i ⟨id, phase⟩ }

/-- An UPDATE of an operation. -/
def Queue.update (s : Queue) (id : String) (f : BridgeOperation → BridgeOperation) : Queue :=
  { s with operations := s.operations.modify id f }

/-- One move. -/
def Queue.step (rt : Runtime) (s : Queue) : Move → Option Queue
  | .enqueue id params now =>
    if id ∈ s.operations.keys then none
    else some { s with operations := s.operations.set id (params.operation now) }
  | .find id => if s.isNext id then some { s with ticks := s.ticks ++ [⟨id, .found⟩] } else none
  | .read i =>
    match s.ticks[i]? with
    | some ⟨id, .found⟩ =>
      match s.operations.get? id with
      | none => some (s.advance i id .finished)
      | some operation =>
        match s.events.get? operation.bridgeEventId with
        | none => none
        | some event => some (s.advance i id (.read operation event))
    | _ => none
  | .process i =>
    match s.ticks[i]? with
    | some ⟨id, .read operation event⟩ =>
      some ((s.update id fun row => { row with queueStatus := .processing }).advance i id (.processing operation event))
    | _ => none
  | .send i hash lands =>
    match s.ticks[i]? with
    | some ⟨id, .processing operation event⟩ =>
      (operation.mint rt event).map fun mint =>
        { s.advance i id (.sent hash operation.bridgeEventId) with sent := s.sent ++ [⟨id, mint, hash, lands⟩] }
    | _ => none
  | .complete i =>
    match s.ticks[i]? with
    | some ⟨id, .sent hash bridgeEventId⟩ =>
      some ((s.update id fun row => { row with queueStatus := .completed, stellarTxHash := some hash }).advance i id
        (.completed bridgeEventId))
    | _ => none
  | .completeEvent i =>
    match s.ticks[i]? with
    | some ⟨id, .completed bridgeEventId⟩ =>
      some { s.advance i id .finished with
        events := s.events.modify bridgeEventId fun event => { event with status := .completed } }
    | _ => none
  | .error i =>
    match s.ticks[i]? with
    | some ⟨_, .failing⟩ => none
    | some ⟨_, .finished⟩ => none
    | some ⟨id, _⟩ => some (s.advance i id .failing)
    | none => none
  | .fail i updates =>
    match s.ticks[i]? with
    | some ⟨id, .failing⟩ =>
      let failed :=
        if updates then s.update id fun row => { row with queueStatus := .failed, retryCount := row.retryCount + 1 }
        else s
      some (failed.advance i id .finished)
    | _ => none
  | .retryFailedOperations =>
    some { s with
      operations := s.operations.mapValues fun row =>
        if row.retriable then { row with queueStatus := .queued, retryCount := row.retryCount + 1 } else row }

/-- Operations without ticks, and nothing sent. -/
def Queue.initial (operations : Dict String BridgeOperation) (events : Dict ℕ BridgeEvent) : Queue :=
  ⟨operations, events, [], []⟩

/-- The mints of an operation that land. -/
def Queue.landed (s : Queue) (id : String) : ℕ := s.sent.countP fun tx => tx.operationId = id && tx.lands

/-- The operation that a tick works on. -/
def Tick.held (t : Tick) : Option String :=
  match t.phase with
  | .finished => none
  | _ => some t.id

def Queue.held (s : Queue) : List String := s.ticks.filterMap Tick.held

/-- A tick finds an operation only when no other one holds it, and an operation is queued again only when no mint of it
has landed. -/
def Exclusive (s : Queue) : Move → Prop
  | .find id => id ∉ s.held
  | .retryFailedOperations => ∀ e ∈ s.operations.entries, e.2.retriable = true → s.landed e.1 = 0
  | _ => True

instance decidableExclusive (s : Queue) : (m : Move) → Decidable (Exclusive s m)
  | .find id => inferInstanceAs (Decidable (id ∉ s.held))
  | .retryFailedOperations =>
    inferInstanceAs (Decidable (∀ e ∈ s.operations.entries, e.2.retriable = true → s.landed e.1 = 0))
  | .enqueue _ _ _ => isTrue trivial
  | .read _ => isTrue trivial
  | .process _ => isTrue trivial
  | .send _ _ _ => isTrue trivial
  | .complete _ => isTrue trivial
  | .completeEvent _ => isTrue trivial
  | .error _ => isTrue trivial
  | .fail _ _ => isTrue trivial

def Queue.status (s : Queue) (id : String) : Option QueueStatus := (s.operations.get? id).map (·.queueStatus)

/-- The transaction of the tick is still to be sent. -/
def Tick.isUnsent (t : Tick) : Bool :=
  match t.phase with
  | .found => true
  | .read _ _ => true
  | .processing _ _ => true
  | _ => false

def Tick.isProcessing (t : Tick) : Bool :=
  match t.phase with
  | .processing _ _ => true
  | _ => false

/-- The ticks hold different operations. One that is queued, or whose transaction is still to be sent, has not been
minted; one that a tick has marked is not queued. -/
structure Queue.OneMint (s : Queue) : Prop where
  nodup : s.held.Nodup
  rows : ∀ t ∈ s.ticks, t.id ∈ s.operations.keys
  known : ∀ id, s.landed id ≠ 0 → id ∈ s.operations.keys
  queued : ∀ id, s.status id = some .queued → s.landed id = 0
  unsent : ∀ t ∈ s.ticks, t.isUnsent = true → s.landed t.id = 0
  marked : ∀ t ∈ s.ticks, t.isProcessing = true → s.status t.id = some .processing
  once : ∀ id, s.landed id ≤ 1

variable {rt : Runtime} {s s' : Queue} {m : Move} {i : ℕ} {id : String} {phase phase' : Phase}

/-- The moves of the queue, case by case. -/
inductive Queue.Step (rt : Runtime) (s : Queue) : Move → Queue → Prop where
  | enqueue {id : String} {params : BridgeOperationParams} {now : ℤ} (new : id ∉ s.operations.keys) :
      Step rt s (.enqueue id params now) { s with operations := s.operations.set id (params.operation now) }
  | find {id : String} (next : s.isNext id = true) :
      Step rt s (.find id) { s with ticks := s.ticks ++ [⟨id, .found⟩] }
  | missing {i : ℕ} {id : String} (found : s.ticks[i]? = some ⟨id, .found⟩) :
      Step rt s (.read i) (s.advance i id .finished)
  | read {i : ℕ} {id : String} (operation : BridgeOperation) (event : BridgeEvent)
      (found : s.ticks[i]? = some ⟨id, .found⟩) : Step rt s (.read i) (s.advance i id (.read operation event))
  | process {i : ℕ} {id : String} {operation : BridgeOperation} {event : BridgeEvent}
      (found : s.ticks[i]? = some ⟨id, .read operation event⟩) :
      Step rt s (.process i) ((s.update id fun row => { row with queueStatus := .processing }).advance i id
        (.processing operation event))
  | send {i : ℕ} {hash : String} {lands : Bool} {id : String} {operation : BridgeOperation} {event : BridgeEvent}
      (mint : Mint) (found : s.ticks[i]? = some ⟨id, .processing operation event⟩) :
      Step rt s (.send i hash lands) { s.advance i id (.sent hash operation.bridgeEventId) with
        sent := s.sent ++ [⟨id, mint, hash, lands⟩] }
  | complete {i : ℕ} {id hash : String} {bridgeEventId : ℕ}
      (found : s.ticks[i]? = some ⟨id, .sent hash bridgeEventId⟩) :
      Step rt s (.complete i)
        ((s.update id fun row => { row with queueStatus := .completed, stellarTxHash := some hash }).advance i id
          (.completed bridgeEventId))
  | completeEvent {i : ℕ} {id : String} {bridgeEventId : ℕ}
      (found : s.ticks[i]? = some ⟨id, .completed bridgeEventId⟩) :
      Step rt s (.completeEvent i) { s.advance i id .finished with
        events := s.events.modify bridgeEventId fun event => { event with status := .completed } }
  | error {i : ℕ} {id : String} {phase : Phase} (found : s.ticks[i]? = some ⟨id, phase⟩)
      (holds : Tick.held ⟨id, phase⟩ = some id) : Step rt s (.error i) (s.advance i id .failing)
  | fail {i : ℕ} {id : String} (found : s.ticks[i]? = some ⟨id, .failing⟩) :
      Step rt s (.fail i true)
        ((s.update id fun row => { row with queueStatus := .failed, retryCount := row.retryCount + 1 }).advance i id
          .finished)
  | failLost {i : ℕ} {id : String} (found : s.ticks[i]? = some ⟨id, .failing⟩) :
      Step rt s (.fail i false) (s.advance i id .finished)
  | retry : Step rt s .retryFailedOperations { s with
      operations := s.operations.mapValues fun row =>
        if row.retriable then { row with queueStatus := .queued, retryCount := row.retryCount + 1 } else row }

/-- Each step of the model is one of those named. -/
lemma Queue.step_cases (taken : s.step rt m = some s') : Queue.Step rt s m s' := by
  cases m with
  | enqueue id params now =>
    rw [Queue.step] at taken
    split at taken
    case isTrue => cases taken
    case isFalse new =>
      cases taken
      exact .enqueue new
  | find id =>
    rw [Queue.step] at taken
    split at taken
    case isTrue next =>
      cases taken
      exact .find next
    case isFalse => cases taken
  | read i =>
    rw [Queue.step] at taken
    split at taken
    case h_1 id found =>
      split at taken
      case h_1 =>
        cases taken
        exact .missing found
      case h_2 operation _ =>
        split at taken
        case h_1 => cases taken
        case h_2 event _ =>
          cases taken
          exact .read operation event found
    case h_2 => cases taken
  | process i =>
    rw [Queue.step] at taken
    split at taken
    case h_1 id operation event found =>
      cases taken
      exact .process found
    case h_2 => cases taken
  | send i hash lands =>
    rw [Queue.step] at taken
    split at taken
    case h_1 id operation event found =>
      obtain ⟨mint, -, rfl⟩ := Option.map_eq_some_iff.1 taken
      exact .send mint found
    case h_2 => cases taken
  | complete i =>
    rw [Queue.step] at taken
    split at taken
    case h_1 id hash bridgeEventId found =>
      cases taken
      exact .complete found
    case h_2 => cases taken
  | completeEvent i =>
    rw [Queue.step] at taken
    split at taken
    case h_1 id bridgeEventId found =>
      cases taken
      exact .completeEvent found
    case h_2 => cases taken
  | error i =>
    rw [Queue.step] at taken
    split at taken
    case h_1 => cases taken
    case h_2 => cases taken
    case h_3 id phase failing finished found =>
      cases taken
      refine .error found ?_
      cases phase with
      | finished => exact absurd rfl finished
      | found => rfl
      | read => rfl
      | processing => rfl
      | sent => rfl
      | completed => rfl
      | failing => rfl
    case h_4 => cases taken
  | fail i updates =>
    rw [Queue.step] at taken
    split at taken
    case h_1 id found =>
      cases updates with
      | true =>
        cases taken
        exact .fail found
      | false =>
        cases taken
        exact .failLost found
    case h_2 => cases taken
  | retryFailedOperations =>
    cases taken
    exact .retry

/-- A tick holds no operation but its own. -/
lemma Tick.held_eq (t : Tick) : t.held = none ∨ t.held = some t.id := by
  obtain ⟨id, phase⟩ := t
  cases phase with
  | finished => exact .inl rfl
  | found => exact .inr rfl
  | read => exact .inr rfl
  | processing => exact .inr rfl
  | sent => exact .inr rfl
  | completed => exact .inr rfl
  | failing => exact .inr rfl

/-- A tick that has ended is about to send nothing, and marks nothing. -/
lemma Tick.held_of_isUnsent {t : Tick} (unsent : t.isUnsent = true) : t.held = some t.id := by
  obtain ⟨id, phase⟩ := t
  cases phase with
  | finished => cases unsent
  | found => rfl
  | read => rfl
  | processing => rfl
  | sent => cases unsent
  | completed => cases unsent
  | failing => cases unsent

/-- What is marked as processing is not sent yet. -/
lemma Tick.isUnsent_of_isProcessing {t : Tick} (marked : t.isProcessing = true) : t.isUnsent = true := by
  obtain ⟨id, phase⟩ := t
  cases phase with
  | processing => rfl
  | finished => cases marked
  | found => cases marked
  | read => cases marked
  | sent => cases marked
  | completed => cases marked
  | failing => cases marked

/-- A tick goes on, and nothing changes but its operation. -/
lemma Queue.OneMint.replaced (inv : s.OneMint) (found : s.ticks[i]? = some ⟨id, phase⟩)
    (holds : Tick.held ⟨id, phase⟩ = some id) (ticks : s'.ticks = s.ticks.set i ⟨id, phase'⟩)
    (others : ∀ x, x ≠ id → s'.status x = s.status x ∧ s'.landed x = s.landed x)
    (keys : ∀ x, x ∈ s.operations.keys → x ∈ s'.operations.keys)
    (queued : s'.status id = some .queued → s'.landed id = 0)
    (unsent : Tick.isUnsent ⟨id, phase'⟩ = true → s'.landed id = 0)
    (marked : Tick.isProcessing ⟨id, phase'⟩ = true → s'.status id = some .processing) (once : s'.landed id ≤ 1) :
    s'.OneMint := by
  -- no other tick works on the operation
  have other : ∀ u ∈ s'.ticks, u.isUnsent = true → u = ⟨id, phase'⟩ ∨ u ∈ s.ticks ∧ u.id ≠ id := by
    intro u mem is
    rw [ticks] at mem
    refine (Machine.mem_set_of_held found inv.nodup holds mem).imp_right fun old => ⟨old.1, fun same => old.2 ?_⟩
    rw [Tick.held_of_isUnsent is, same]
  have row : id ∈ s'.operations.keys := keys id (inv.rows _ (List.mem_of_getElem? found))
  refine ⟨?_, ?_, ?_, ?_, ?_, ?_, ?_⟩
  · rw [Queue.held, ticks]
    refine Machine.nodup_held_set found inv.nodup fun r held => .inl ?_
    rcases Tick.held_eq ⟨id, phase'⟩ with none | same
    · cases held.symm.trans none
    · rw [holds, ← same, held]
  · intro u mem
    rw [ticks] at mem
    exact Machine.forall_set (P := fun u => u.id ∈ s'.operations.keys) found
      (fun u old => keys u.id (inv.rows u old)) (fun _ => row) mem
  · intro x landed
    by_cases same : x = id
    · exact same ▸ row
    · rw [(others x same).2] at landed
      exact keys x (inv.known x landed)
  · intro x status
    by_cases same : x = id
    · exact same ▸ queued (same ▸ status)
    · rw [(others x same).1] at status
      rw [(others x same).2]
      exact inv.queued x status
  · intro u mem is
    rcases other u mem is with rfl | ⟨old, ne⟩
    · exact unsent is
    · rw [(others u.id ne).2]
      exact inv.unsent u old is
  · intro u mem is
    rcases other u mem (Tick.isUnsent_of_isProcessing is) with rfl | ⟨old, ne⟩
    · exact marked is
    · rw [(others u.id ne).1]
      exact inv.marked u old is
  · intro x
    by_cases same : x = id
    · exact same ▸ once
    · rw [(others x same).2]
      exact inv.once x

/-- An update changes the status of one row. -/
lemma Queue.status_update (s : Queue) (f : BridgeOperation → BridgeOperation) (x : String) :
    (s.update id f).status x =
      if x = id then (s.operations.get? id).map fun row => (f row).queueStatus else s.status x := by
  rw [Queue.status, Queue.update, Dict.get?_modify]
  by_cases same : x = id
  · rw [if_pos same, if_pos same, Option.map_map]
    rfl
  · rw [if_neg same, if_neg same]
    rfl

/-- A tick goes on and writes nothing. -/
lemma Queue.OneMint.advance (inv : s.OneMint) (found : s.ticks[i]? = some ⟨id, phase⟩)
    (holds : Tick.held ⟨id, phase⟩ = some id)
    (unsent : Tick.isUnsent ⟨id, phase'⟩ = true → Tick.isUnsent ⟨id, phase⟩ = true)
    (marked : Tick.isProcessing ⟨id, phase'⟩ = false) : (s.advance i id phase').OneMint := by
  refine inv.replaced found holds rfl (fun _ _ => ⟨rfl, rfl⟩) (fun _ mem => mem) (inv.queued id) ?_ ?_ (inv.once id)
  · exact fun is => inv.unsent _ (List.mem_of_getElem? found) (unsent is)
  · rw [marked]
    exact (nomatch ·)

/-- A tick writes its operation. -/
lemma Queue.OneMint.updated (inv : s.OneMint) (found : s.ticks[i]? = some ⟨id, phase⟩)
    (holds : Tick.held ⟨id, phase⟩ = some id) {f : BridgeOperation → BridgeOperation} {status : QueueStatus}
    (writes : ∀ row, (f row).queueStatus = status) (busy : status ≠ .queued)
    (unsent : Tick.isUnsent ⟨id, phase'⟩ = true → Tick.isUnsent ⟨id, phase⟩ = true)
    (marked : Tick.isProcessing ⟨id, phase'⟩ = true → status = .processing) :
    ((s.update id f).advance i id phase').OneMint := by
  obtain ⟨row, present⟩ := Dict.mem_keys_iff.1 (inv.rows _ (List.mem_of_getElem? found))
  have now : ((s.update id f).advance i id phase').status id = some status := by
    refine (s.status_update f id).trans ?_
    rw [if_pos rfl, present, Option.map_some, writes]
  refine inv.replaced found holds rfl ?_ (fun _ => Dict.mem_keys_modify.2) ?_ ?_ ?_ (inv.once id)
  · exact fun x ne => ⟨(s.status_update f x).trans (if_neg ne), rfl⟩
  · intro queued
    rw [now] at queued
    exact absurd (Option.some.inj queued) busy
  · exact fun is => inv.unsent _ (List.mem_of_getElem? found) (unsent is)
  · intro is
    rw [now, marked is]

/-- A new operation is queued without a mint. -/
lemma Queue.OneMint.enqueue (inv : s.OneMint) {params : BridgeOperationParams} {now : ℤ}
    (new : id ∉ s.operations.keys) :
    Queue.OneMint { s with operations := s.operations.set id (params.operation now) } := by
  have status : ∀ x, x ≠ id → Queue.status { s with operations := s.operations.set id (params.operation now) } x =
      s.status x := by
    intro x ne
    rw [Queue.status, Dict.get?_set, if_neg ne]
    rfl
  have unminted : s.landed id = 0 := by
    by_contra landed
    exact new (inv.known id landed)
  refine ⟨inv.nodup, ?_, ?_, ?_, inv.unsent, ?_, inv.once⟩
  · exact fun t mem => Dict.mem_keys_set.2 (.inr (inv.rows t mem))
  · exact fun x landed => Dict.mem_keys_set.2 (.inr (inv.known x landed))
  · intro x queued
    by_cases same : x = id
    · exact same ▸ unminted
    · rw [status x same] at queued
      exact inv.queued x queued
  · intro t mem is
    have other : t.id ≠ id := fun same => new (same ▸ inv.rows t mem)
    rw [status t.id other]
    exact inv.marked t mem is

/-- A tick takes up an operation that no other one holds. -/
lemma Queue.OneMint.find (inv : s.OneMint) (next : s.isNext id = true) (free : id ∉ s.held) :
    Queue.OneMint { s with ticks := s.ticks ++ [⟨id, .found⟩] } := by
  obtain ⟨present, first⟩ := (Option.any_eq_true_iff_get _ _).1 next
  obtain ⟨operation, found⟩ := Option.isSome_iff_exists.1 present
  have queued : s.status id = some .queued := by
    rw [Bool.and_eq_true, BridgeOperation.eligible, Bool.and_eq_true] at first
    rw [Queue.status, found, Option.map_some]
    have status := of_decide_eq_true first.1.1
    simp only [found, Option.get_some] at status
    rw [status]
  have held : Queue.held { s with ticks := s.ticks ++ [⟨id, .found⟩] } = s.held ++ [id] := List.filterMap_append
  refine ⟨?_, ?_, inv.known, inv.queued, ?_, ?_, inv.once⟩
  · rw [held, List.nodup_append]
    refine ⟨inv.nodup, List.nodup_singleton id, ?_⟩
    rintro x old _ last rfl
    exact free (List.mem_singleton.1 last ▸ old)
  · exact Machine.forall_snoc inv.rows (Dict.mem_keys_iff.2 ⟨operation, found⟩)
  · exact Machine.forall_snoc inv.unsent fun _ => inv.queued id queued
  · refine Machine.forall_snoc inv.marked fun is => ?_
    cases is

/-- The one transaction that a tick sends. -/
lemma Queue.OneMint.send (inv : s.OneMint) {hash : String} {lands : Bool} {operation : BridgeOperation}
    {event : BridgeEvent} (mint : Mint) (found : s.ticks[i]? = some ⟨id, .processing operation event⟩) :
    Queue.OneMint { s.advance i id (.sent hash operation.bridgeEventId) with
      sent := s.sent ++ [⟨id, mint, hash, lands⟩] } := by
  have task := List.mem_of_getElem? found
  have landed : ∀ x, Queue.landed { s.advance i id (.sent hash operation.bridgeEventId) with
      sent := s.sent ++ [⟨id, mint, hash, lands⟩] } x = s.landed x + if (id = x && lands) = true then 1 else 0 := by
    intro x
    rw [Queue.landed, List.countP_append, List.countP_singleton]
    rfl
  refine inv.replaced found rfl rfl ?_ (fun _ mem => mem) ?_ (nomatch ·) (nomatch ·) ?_
  · intro x ne
    refine ⟨rfl, ?_⟩
    rw [landed, decide_eq_false (Ne.symm ne)]
    rfl
  · intro queued
    have marked : s.status id = some .processing := inv.marked _ task rfl
    rw [show s.status id = some .queued from queued] at marked
    cases marked
  · rw [landed, show s.landed id = 0 from inv.unsent _ task rfl]
    split
    · exact le_rfl
    · exact Nat.zero_le 1

/-- An operation is queued again that has not been minted. -/
lemma Queue.OneMint.retry (inv : s.OneMint) (exclusive : Exclusive s .retryFailedOperations) :
    Queue.OneMint { s with
      operations := s.operations.mapValues fun row =>
        if row.retriable then { row with queueStatus := .queued, retryCount := row.retryCount + 1 } else row } := by
  have keys : (s.operations.mapValues fun row =>
      if row.retriable then { row with queueStatus := .queued, retryCount := row.retryCount + 1 } else row).keys =
      s.operations.keys := List.map_map
  refine ⟨inv.nodup, ?_, ?_, ?_, inv.unsent, ?_, inv.once⟩
  · exact fun t mem => keys ▸ inv.rows t mem
  · exact fun x landed => keys ▸ inv.known x landed
  · intro x queued
    rw [Queue.status, Dict.get?_mapValues, Option.map_map, Option.map_eq_some_iff] at queued
    obtain ⟨row, found, status⟩ := queued
    by_cases retriable : row.retriable = true
    · exact exclusive (x, row) (Dict.get?_eq_some found) retriable
    · rw [Function.comp_apply, if_neg retriable] at status
      exact inv.queued x (by rw [Queue.status, found, Option.map_some, status])
  · intro t mem is
    -- a row that is marked is not `FAILED`, so it keeps its status
    obtain ⟨row, found, status⟩ := Option.map_eq_some_iff.1 (inv.marked t mem is)
    have kept : ¬ row.retriable = true := by
      rw [BridgeOperation.retriable, status]
      exact (nomatch ·)
    rw [Queue.status, Dict.get?_mapValues, found, Option.map_some, Option.map_some, if_neg kept, status]

/-- A step of ticks that do not overlap keeps that each operation is minted once at most. -/
lemma oneMint_step (inv : s.OneMint) (exclusive : Exclusive s m) (taken : s.step rt m = some s') : s'.OneMint := by
  cases Queue.step_cases taken with
  | enqueue new => exact inv.enqueue new
  | find next => exact inv.find next exclusive
  | missing found => exact inv.advance found rfl (nomatch ·) rfl
  | read operation event found => exact inv.advance found rfl (fun _ => rfl) rfl
  | process found => exact inv.updated found rfl (fun _ => rfl) (nomatch ·) (fun _ => rfl) fun _ => rfl
  | send mint found => exact inv.send mint found
  | complete found => exact inv.updated found rfl (fun _ => rfl) (nomatch ·) (nomatch ·) (nomatch ·)
  | @completeEvent i id bridgeEventId found =>
    have ended : (s.advance i id .finished).OneMint := inv.advance found rfl (nomatch ·) rfl
    exact ⟨ended.nodup, ended.rows, ended.known, ended.queued, ended.unsent, ended.marked, ended.once⟩
  | error found holds => exact inv.advance found holds (nomatch ·) rfl
  | fail found => exact inv.updated found rfl (fun _ => rfl) (nomatch ·) (nomatch ·) (nomatch ·)
  | failLost found => exact inv.advance found rfl (nomatch ·) rfl
  | retry => exact inv.retry exclusive

/-- In an exclusive run at most one mint lands for each operation. -/
theorem minted_once {operations : Dict String BridgeOperation} {events : Dict ℕ BridgeEvent} {trace : List Move}
    (exclusive : Machine.Guarded (Queue.step rt) Exclusive (Queue.initial operations events) trace) :
    Machine.Always (Queue.step rt) (fun s => ∀ id, s.landed id ≤ 1) (Queue.initial operations events) trace := by
  have init : (Queue.initial operations events).OneMint :=
    ⟨List.nodup_nil, fun _ mem => absurd mem List.not_mem_nil, fun _ landed => absurd rfl landed, fun _ _ => rfl,
      fun _ mem => absurd mem List.not_mem_nil, fun _ mem => absurd mem List.not_mem_nil, fun _ => Nat.zero_le 1⟩
  have inv := Machine.always_of_guarded init (fun _ _ _ inv met taken => oneMint_step inv met taken) exclusive
  exact fun pre s le reached => (inv pre s le reached).once

def sampleOperations : Dict String BridgeOperation where
  entries := [("op", (BridgeOperationParams.mk 1 "contract" 5 "recipient" none).operation 0)]
  nodup := by decide

/-- The mint of one tick lands. -/
theorem minted_once_sample : ∃ s,
    Machine.exec (Queue.step sampleRuntime) (Queue.initial sampleOperations sampleBridgeEvents)
      [.find "op", .read 0, .process 0, .send 0 "hash" true, .complete 0, .completeEvent 0] = some s ∧
    s.landed "op" = 1 ∧ ∀ id, s.landed id ≤ 1 := by
  have run : (Machine.exec (Queue.step sampleRuntime) (Queue.initial sampleOperations sampleBridgeEvents)
      [.find "op", .read 0, .process 0, .send 0 "hash" true, .complete 0, .completeEvent 0]).map
        (fun s => s.landed "op") = some 1 := by decide +kernel
  have exclusive : Machine.Guarded (Queue.step sampleRuntime) Exclusive
      (Queue.initial sampleOperations sampleBridgeEvents)
      [.find "op", .read 0, .process 0, .send 0 "hash" true, .complete 0, .completeEvent 0] := by decide +kernel
  obtain ⟨s, reached, landed⟩ := Option.map_eq_some_iff.1 run
  exact ⟨s, reached, landed, minted_once exclusive _ s (List.prefix_refl _) reached⟩

/-- Two ticks find the operation before one of them marks it; and a mint that lands after the polling has given up is
sent again. -/
theorem minted_twice :
    (Machine.exec (Queue.step sampleRuntime) (Queue.initial sampleOperations sampleBridgeEvents)
      [.find "op", .find "op", .read 0, .read 1, .process 0, .process 1, .send 0 "hash" true,
        .send 1 "other" true]).map (fun s => s.landed "op") = some 2 ∧
    (Machine.exec (Queue.step sampleRuntime) (Queue.initial sampleOperations sampleBridgeEvents)
      [.find "op", .read 0, .process 0, .send 0 "hash" true, .error 0, .fail 0 true, .retryFailedOperations,
        .find "op", .read 1, .process 1, .send 1 "other" true]).map (fun s => s.landed "op") = some 2 := by
  constructor
  · decide +kernel
  · decide +kernel

end StellarFlow.Bridge
