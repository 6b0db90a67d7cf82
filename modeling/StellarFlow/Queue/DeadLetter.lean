import Mathlib.Algebra.Order.Ring.Int
import StellarFlow.Lib.Machine

/-!
# The dead-letter queue

Model of `RedisDLQ.retry_with_backoff`, `push`, `list_entries`, `get_entry` and `purge` and of `handle_dlq_replay` in
`app/queue/dlq.py`, over one list in Redis. Any number of calls and requests run at once, in any number of processes,
and other producers push to the list; each call of the processor, each command to Redis and each sleep is a step.
-/

namespace StellarFlow.DeadLetter

abbrev Payload := List UInt8

/-- `type(exc).__name__` and `str(exc)`. -/
structure Error where
  type : String
  message : String
  deriving DecidableEq

/-- `payload` is what `raw_payload` decodes to; it raises where the text is not base 64. -/
structure DLQEntry where
  entryId : ℤ
  payload : Option Payload
  errorType : String
  errorMessage : String
  source : String
  attempt : ℕ
  maxAttempts : ℤ
  permanentlyFailed : Bool
  deriving DecidableEq

/-- A text of the list, by the entry that `from_json` makes of it; or one it does not read. -/
inductive Item where
  | entry (e : DLQEntry)
  | unreadable (text : String)
  deriving DecidableEq

/-- `RetryPolicy.max_attempts` and `max_size`. -/
structure Config where
  maxAttempts : ℤ := 3
  maxSize : ℕ := 10000

/-- `RetryPolicy.exhausted`. -/
def Config.exhausted (config : Config) (attempt : ℕ) : Bool := config.maxAttempts ≤ attempt

/-- `DLQEntry.create`. -/
def Config.create (config : Config) (entryId : ℤ) (payload : Payload) (exc : Option Error) (source : String)
    (attempt : ℕ) : DLQEntry where
  entryId := entryId
  payload := some payload
  errorType := (exc.map (·.type)).getD "UnknownError"
  errorMessage := (exc.map (·.message)).getD "No exception captured"
  source := source
  attempt := attempt
  maxAttempts := config.maxAttempts
  permanentlyFailed := config.exhausted attempt

/-- How many items LTRIM with `-max_size` drops at the left. -/
def Config.excess (config : Config) (queue : List Item) : ℕ :=
  if config.maxSize = 0 then 0 else queue.length - config.maxSize

/-- RPUSH and LTRIM: what is dropped, and the list after it. -/
def Config.push (config : Config) (queue : List Item) (item : Item) : List Item × List Item :=
  let pushed := queue ++ [item]
  (pushed.take (config.excess pushed), pushed.drop (config.excess pushed))

/-- `from_json`. -/
def Item.read : Item → Option DLQEntry
  | .entry e => some e
  | .unreadable _ => none

/-- `list_entries(include_permanently_failed=False)`. -/
def listPending (queue : List Item) : List DLQEntry :=
  ((queue.take 100).filterMap Item.read).filter (!·.permanentlyFailed)

def getEntry (queue : List Item) (entryId : ℤ) : Option DLQEntry :=
  (queue.filterMap Item.read).find? (·.entryId = entryId)

/-- Where the loop of `retry_with_backoff` is: the processor runs, `push` is to come, or the sleep. -/
inductive Attempt where
  | processing (attempt : ℕ)
  | pushing (attempt : ℕ) (exc : Error)
  | sleeping (attempt : ℕ)

/-- A call of `retry_with_backoff`. -/
structure Retry where
  payload : Payload
  source : String
  state : Attempt

/-- The processor returns or raises; a command is answered (a sleep ends), or raises and was executed or not. -/
inductive Event where
  | processed (exc : Option Error)
  | ok
  | failed (executed : Bool)

/-- The loop goes on, or the call has returned or raised. -/
inductive Progress where
  | going (state : Attempt)
  | returned (success : Bool)
  | raised

/-- What a step of the loop has done. -/
inductive Effect where
  | nothing
  | succeeded
  | numbered
  | pushed (entry : DLQEntry)

/-- The head of the loop. -/
def Config.attempt (config : Config) (attempt : ℕ) : Progress :=
  if attempt ≤ config.maxAttempts then .going (.processing attempt) else .returned false

/-- A step of the loop; `seq` is the counter of the process. -/
def Retry.next (config : Config) (seq : ℕ) (retry : Retry) (event : Event) : Option (Progress × Effect) :=
  match retry.state, event with
  | .processing _, .processed none => some (.returned true, .succeeded)
  | .processing attempt, .processed (some exc) => some (.going (.pushing attempt exc), .nothing)
  | .pushing attempt exc, .ok =>
    some (if config.exhausted attempt then .returned false else .going (.sleeping attempt),
      .pushed (config.create (seq + 1) retry.payload (some exc) retry.source attempt))
  | .pushing attempt exc, .failed executed =>
    some (.raised,
      if executed then .pushed (config.create (seq + 1) retry.payload (some exc) retry.source attempt) else .numbered)
  | .sleeping attempt, .ok => some (config.attempt (attempt + 1), .nothing)
  | _, _ => none

/-- A request of `handle_dlq_replay` that has read its entries. `listed`, `pushed` and `processed` record what it read,
pushed and processed, and `before` what was processed when it read. -/
structure Replay where
  entryId : Option ℤ
  purgeOnSuccess : Bool
  results : List (ℤ × Bool)
  listed : List DLQEntry
  pushed : List DLQEntry
  processed : List Payload
  before : List Payload

structure Response where
  success : Bool
  error : Option String
  message : String
  results : List (ℤ × Bool)

/-- A call of `retry_with_backoff`, or a request of `handle_dlq_replay`: before it reads, in a retry, before LLEN and
DEL of `purge`; or at its end. -/
inductive Point where
  | retrying (retry : Retry)
  | reading (entryId : Option ℤ) (purgeOnSuccess : Bool)
  | replaying (replay : Replay) (entry : DLQEntry) (retry : Retry) (rest : List DLQEntry)
  | counting (replay : Replay)
  | deleting (replay : Replay) (count : ℕ)
  | returned (success : Bool)
  | responded (response : Response)
  | raised

structure Task where
  process : ℕ
  point : Point

def notFound (entryId : ℤ) : Response :=
  { success := false, error := some "NOT_FOUND", message := s!"DLQ entry {entryId} not found.", results := [] }

def Replay.succeeded (replay : Replay) : ℕ := replay.results.countP (·.2)

def Replay.failed (replay : Replay) : ℕ := replay.results.length - replay.succeeded

def Replay.complete (replay : Replay) : Response :=
  { success := true
    error := none
    message := s!"Replay complete: {replay.succeeded} succeeded, {replay.failed} failed."
    results := replay.results }

def Replay.purgedResponse (replay : Replay) (purged : ℕ) : Response :=
  { success := true
    error := none
    message := s!"Replayed {replay.results.length} entries; DLQ purged ({purged} entries removed)."
    results := replay.results }

/-- After the loop over the entries. -/
def Replay.finish (replay : Replay) : Point :=
  if replay.entryId.isNone && replay.purgeOnSuccess && replay.results.all (·.2) then .counting replay
  else .responded replay.complete

/-- The entry's result. -/
def Replay.add (replay : Replay) (entry : DLQEntry) (success : Bool) : Replay :=
  { replay with results := replay.results ++ [(entry.entryId, success)] }

/-- The loop over the entries goes on. -/
def Replay.goOn (config : Config) (replay : Replay) : List DLQEntry → Point
  | [] => replay.finish
  | entry :: rest =>
    match entry.payload with
    | none => .raised
    | some payload =>
      match config.attempt 1 with
      | .going state => .replaying replay entry { payload, source := entry.source, state } rest
      | .returned success => Replay.goOn config (replay.add entry success) rest
      | .raised => .raised

/-- What a step of a retry adds to the record. -/
def Replay.record (replay : Replay) (payload : Payload) : Effect → Replay
  | .succeeded => { replay with processed := replay.processed ++ [payload] }
  | .pushed entry => { replay with pushed := replay.pushed ++ [entry] }
  | _ => replay

/-- The call after a step of its loop. -/
def Retry.after (retry : Retry) : Progress → Point
  | .going state => .retrying { retry with state }
  | .returned success => .returned success
  | .raised => .raised

/-- `retry_with_backoff` up to the first call of the processor. -/
def Config.retryWithBackoff (config : Config) (payload : Payload) (source : String) : Point :=
  Retry.after { payload, source, state := .processing 1 } (config.attempt 1)

/-- The request after a step of a retry. -/
def Replay.after (config : Config) (replay : Replay) (entry : DLQEntry) (retry : Retry) (rest : List DLQEntry) :
    Progress → Point
  | .going state => .replaying replay entry { retry with state } rest
  | .returned success => (replay.add entry success).goOn config rest
  | .raised => .raised

/-- The list, the counters of the processes, and the calls and requests; `submitted` and `processed` record the payloads
that were submitted, and those on which the processor has succeeded. -/
structure System where
  queue : List Item
  seq : ℕ → ℕ
  tasks : List Task
  submitted : List Payload
  processed : List Payload

/-- A call or a request begins, goes on or is cancelled; or another producer pushes an item. -/
inductive Move where
  | submit (process : ℕ) (payload : Payload) (source : String)
  | replay (process : ℕ) (entryId : Option ℤ) (purgeOnSuccess : Bool)
  | produce (item : Item)
  | advance (task : ℕ) (event : Event)
  | cancel (task : ℕ)

/-- The payload of an entry, where there is one. -/
def Item.payload : Item → Option Payload
  | .entry e => e.payload
  | .unreadable _ => none

namespace System

/-- A list, whose payloads count as submitted. -/
def init (queue : List Item) : System :=
  { queue, seq := fun _ => 0, tasks := [], submitted := queue.filterMap Item.payload, processed := [] }

variable (config : Config) (s : System)

/-- What a step of a retry does. -/
def apply (process : ℕ) (payload : Payload) : Effect → System
  | .nothing => s
  | .succeeded => { s with processed := s.processed ++ [payload] }
  | .numbered => { s with seq := fun p => if p = process then s.seq p + 1 else s.seq p }
  | .pushed entry =>
    { s with
      queue := (config.push s.queue (.entry entry)).2
      seq := fun p => if p = process then s.seq p + 1 else s.seq p }

/-- A request reads its entries. -/
def read (entryId : Option ℤ) (purgeOnSuccess : Bool) : Point :=
  let replay (listed : List DLQEntry) : Replay :=
    { entryId, purgeOnSuccess, results := [], listed, pushed := [], processed := [], before := s.processed }
  match entryId with
  | some id =>
    match getEntry s.queue id with
    | none => .responded (notFound id)
    | some entry => (replay [entry]).goOn config [entry]
  | none => (replay (listPending s.queue)).goOn config (listPending s.queue)

/-- Task `k` goes on. -/
def advance (k : ℕ) (task : Task) (event : Event) : Option System :=
  let at_ (s : System) (point : Point) : System := { s with tasks := s.tasks.set k { task with point } }
  match task.point, event with
  | .retrying retry, event =>
    (retry.next config (s.seq task.process) event).map fun next =>
      at_ (s.apply config task.process retry.payload next.2) (retry.after next.1)
  | .reading entryId purgeOnSuccess, .ok => some (at_ s (s.read config entryId purgeOnSuccess))
  | .reading .., .failed _ => some (at_ s .raised)
  | .replaying replay entry retry rest, event =>
    (retry.next config (s.seq task.process) event).map fun next =>
      at_ (s.apply config task.process retry.payload next.2)
        ((replay.record retry.payload next.2).after config entry retry rest next.1)
  | .counting replay, .ok => some (at_ s (.deleting replay s.queue.length))
  | .counting _, .failed _ => some (at_ s .raised)
  | .deleting replay count, .ok => some (at_ { s with queue := [] } (.responded (replay.purgedResponse count)))
  | .deleting .., .failed executed => some (at_ (if executed then { s with queue := [] } else s) .raised)
  | _, _ => none

def step : Move → Option System
  | .submit process payload source =>
    some { s with
      submitted := s.submitted ++ [payload]
      tasks := s.tasks ++ [{ process, point := config.retryWithBackoff payload source }] }
  | .replay process entryId purgeOnSuccess =>
    some { s with tasks := s.tasks ++ [{ process, point := .reading entryId purgeOnSuccess }] }
  | .produce item =>
    some { s with queue := (config.push s.queue item).2, submitted := s.submitted ++ item.payload.toList }
  | .advance k event => do
    let task ← s.tasks[k]?
    s.advance config k task event
  | .cancel k => do
    let task ← s.tasks[k]?
    some { s with tasks := s.tasks.set k { task with point := .raised } }

end System

/-- Whether a command was executed. -/
def Event.executed : Event → Bool
  | .processed _ => false
  | .ok => true
  | .failed executed => executed

/-- The retry in a task. -/
def Point.retry? : Point → Option Retry
  | .retrying retry => some retry
  | .replaying _ _ retry _ => some retry
  | _ => none

/-- A task at another point. -/
def System.move (s : System) (k : ℕ) (task : Task) (point : Point) : System :=
  { s with tasks := s.tasks.set k { task with point } }

/-- The moves of the system, case by case. -/
inductive Step (config : Config) (s : System) : Move → System → Prop where
  | submit (process : ℕ) (payload : Payload) (source : String) :
      Step config s (.submit process payload source)
        { s with
          submitted := s.submitted ++ [payload]
          tasks := s.tasks ++ [{ process, point := config.retryWithBackoff payload source }] }
  | replay (process : ℕ) (entryId : Option ℤ) (purgeOnSuccess : Bool) :
      Step config s (.replay process entryId purgeOnSuccess)
        { s with tasks := s.tasks ++ [{ process, point := .reading entryId purgeOnSuccess }] }
  | produce (item : Item) :
      Step config s (.produce item)
        { s with queue := (config.push s.queue item).2, submitted := s.submitted ++ item.payload.toList }
  | retry {k : ℕ} {task : Task} {retry : Retry} {event : Event} {progress : Progress} {effect : Effect}
      (at_ : s.tasks[k]? = some task) (point : task.point = .retrying retry)
      (next : retry.next config (s.seq task.process) event = some (progress, effect)) :
      Step config s (.advance k event)
        ((s.apply config task.process retry.payload effect).move k task (retry.after progress))
  | replaying {k : ℕ} {task : Task} {replay : Replay} {entry : DLQEntry} {retry : Retry} {rest : List DLQEntry}
      {event : Event} {progress : Progress} {effect : Effect} (at_ : s.tasks[k]? = some task)
      (point : task.point = .replaying replay entry retry rest)
      (next : retry.next config (s.seq task.process) event = some (progress, effect)) :
      Step config s (.advance k event)
        ((s.apply config task.process retry.payload effect).move k task
          ((replay.record retry.payload effect).after config entry retry rest progress))
  | read {k : ℕ} {task : Task} {entryId : Option ℤ} {purgeOnSuccess : Bool} (at_ : s.tasks[k]? = some task)
      (point : task.point = .reading entryId purgeOnSuccess) :
      Step config s (.advance k .ok) (s.move k task (s.read config entryId purgeOnSuccess))
  | count {k : ℕ} {task : Task} {replay : Replay} (at_ : s.tasks[k]? = some task)
      (point : task.point = .counting replay) :
      Step config s (.advance k .ok) (s.move k task (.deleting replay s.queue.length))
  | purge {k count : ℕ} {task : Task} {replay : Replay} {event : Event} (at_ : s.tasks[k]? = some task)
      (point : task.point = .deleting replay count) (executed : event.executed = true) (response : Option Response) :
      Step config s (.advance k event)
        ({ s with queue := [] }.move k task ((response.map Point.responded).getD .raised))
  | failed {k : ℕ} {task : Task} {executed : Bool} (at_ : s.tasks[k]? = some task) (none : task.point.retry? = none)
      (skipped : executed = true → ∀ replay count, task.point ≠ .deleting replay count) :
      Step config s (.advance k (.failed executed)) (s.move k task .raised)
  | cancel {k : ℕ} {task : Task} (at_ : s.tasks[k]? = some task) : Step config s (.cancel k) (s.move k task .raised)

variable {config : Config} {s t : System} {move : Move}

/-- An advance of a task is one of the steps named. -/
lemma advance_cases {k : ℕ} {task : Task} {event : Event} (at_ : s.tasks[k]? = some task)
    (next : s.advance config k task event = some t) : Step config s (.advance k event) t := by
  obtain ⟨process, point⟩ := task
  cases point with
  | retrying retry =>
    obtain ⟨⟨progress, effect⟩, made, rfl⟩ := Option.map_eq_some_iff.1 next
    exact .retry at_ rfl made
  | replaying replay entry retry rest =>
    obtain ⟨⟨progress, effect⟩, made, rfl⟩ := Option.map_eq_some_iff.1 next
    exact .replaying at_ rfl made
  | reading entryId purgeOnSuccess =>
    cases event with
    | processed exc => cases next
    | ok =>
      cases next
      exact .read at_ rfl
    | failed executed =>
      cases next
      exact .failed at_ rfl (by simp)
  | counting replay =>
    cases event with
    | processed exc => cases next
    | ok =>
      cases next
      exact .count at_ rfl
    | failed executed =>
      cases next
      exact .failed at_ rfl (by simp)
  | deleting replay count =>
    cases event with
    | processed exc => cases next
    | ok =>
      cases next
      exact .purge at_ rfl rfl (some _)
    | failed executed =>
      cases next
      cases executed with
      | false => exact .failed at_ rfl (by simp)
      | true => exact .purge at_ rfl rfl none
  | returned success => cases event <;> cases next
  | responded response => cases event <;> cases next
  | raised => cases event <;> cases next

/-- Each step of the model is one of those named. -/
lemma step_cases (next : s.step config move = some t) : Step config s move t := by
  cases move with
  | submit process payload source =>
    cases next
    exact .submit process payload source
  | replay process entryId purgeOnSuccess =>
    cases next
    exact .replay process entryId purgeOnSuccess
  | produce item =>
    cases next
    exact .produce item
  | advance k event =>
    simp only [System.step, Option.bind_eq_bind, Option.bind_eq_some_iff] at next
    obtain ⟨task, at_, next⟩ := next
    exact advance_cases at_ next
  | cancel k =>
    simp only [System.step, Option.bind_eq_bind, Option.bind_eq_some_iff] at next
    obtain ⟨task, at_, next⟩ := next
    cases next
    exact .cancel at_

/-! ## What a push drops -/

/-- A push drops from the front what is too much, and keeps the rest. -/
lemma push_split (queue : List Item) (item : Item) :
    (config.push queue item).1 ++ (config.push queue item).2 = queue ++ [item] := List.take_append_drop ..

/-- What the list has after a push it had before, or it is new. -/
lemma mem_push {queue : List Item} {item x : Item} (mem : x ∈ (config.push queue item).2) : x ∈ queue ∨ x = item := by
  have there : x ∈ queue ++ [item] := List.mem_of_mem_drop mem
  rwa [List.mem_append, List.mem_singleton] at there

/-- What was pushed is there. -/
lemma self_mem_push (queue : List Item) (item : Item) : item ∈ (config.push queue item).2 := by
  have room : config.excess (queue ++ [item]) ≤ queue.length := by
    rw [Config.excess, List.length_append, List.length_singleton]
    split <;> omega
  show item ∈ (queue ++ [item]).drop _
  rw [List.drop_append_of_le_length room]
  exact List.mem_append_right _ (List.mem_singleton_self item)

/-! ## What a request reads -/

/-- What is read stands in the list. -/
lemma mem_of_read {queue : List Item} {e : DLQEntry} (mem : e ∈ queue.filterMap Item.read) : Item.entry e ∈ queue := by
  obtain ⟨item, there, read⟩ := List.mem_filterMap.1 mem
  cases item with
  | entry e' =>
    cases read
    exact there
  | unreadable text => cases read

/-- A pending entry stands in the list and has not failed for good. -/
lemma mem_listPending {queue : List Item} {e : DLQEntry} (mem : e ∈ listPending queue) :
    Item.entry e ∈ queue ∧ e.permanentlyFailed = false := by
  obtain ⟨there, pending⟩ := List.mem_filter.1 mem
  exact ⟨List.mem_of_mem_take (mem_of_read there), by simpa using pending⟩

end StellarFlow.DeadLetter
