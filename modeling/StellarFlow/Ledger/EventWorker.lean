import StellarFlow.Lib.ConsumerGroup
import StellarFlow.Lib.Json
import StellarFlow.Lib.Machine

/-!
# Workers on the stream of ledger events

Model of `LedgerEventStreamWorker` in `src/services/ledgerEventStreamWorker.ts`. Any number of workers read the stream
of ledger events as consumers of one group; an event whose handling has failed often enough goes to a second stream, the
dead letters. Each command to Redis and each call of the handler is a step, with what follows it up to the next one.

`loses_nothing_iff` says when an event leaves the pending ones only after it was handled or became a dead letter: not
when `moveToDeadLetterQueue` finds the client closed, and the acknowledgement that follows is executed all the same.
-/

open Machine ConsumerGroup

namespace StellarFlow.Ledger

/-- `LEDGER_EVENTS_STREAM`. -/
def ledgerEventsStream : String := "stream:ledger-events"

/-- What `sendCommand` returns. -/
inductive Reply where
  | nil
  | text (s : String)
  | integer (n : ℕ)
  | array (items : List Reply)

structure StreamMessage where
  id : String
  fields : Dict String String

/-- The loop over names and values in `asStreamMessages`. -/
def parseFields : List Reply → Dict String String → Dict String String
  | .text key :: .text fieldValue :: rest, parsed => parseFields rest (parsed.set key fieldValue)
  | _ :: _ :: rest, parsed => parseFields rest parsed
  | _, parsed => parsed

/-- One entry in `asStreamMessages`. -/
def asStreamMessage : Reply → Option StreamMessage
  | .array (.text id :: .array fields :: _) => some { id, fields := parseFields fields Dict.empty }
  | _ => none

def asStreamMessages : Reply → List StreamMessage
  | .array entries => entries.filterMap asStreamMessage
  | _ => []

/-- One stream in `parseReadResponse`. -/
def streamMessages : Reply → List StreamMessage
  | .array (_ :: entries :: _) => asStreamMessages entries
  | _ => []

def parseReadResponse : Reply → List StreamMessage
  | .array streams => streams.flatMap streamMessages
  | _ => []

/-- `message.fields.payload ?? "{}"`. -/
def StreamMessage.payload (message : StreamMessage) : String := (message.fields.get? "payload").getD "\x7b\x7d"

def isString : Js.Value → Bool
  | .string _ => true
  | _ => false

/-- `parseEvent`; `syntaxError` is the message of the error that `JSON.parse` throws for a text. -/
def parseEvent (syntaxError : String → String) (message : StreamMessage) : Except String Js.Value :=
  match Json.parse message.payload with
  | none => .error (syntaxError message.payload)
  | some parsed =>
    if parsed.isObject && isString (parsed.property "type") && (parsed.property "payload").isObject then .ok parsed
    else .error "Ledger event must contain a type and payload"

structure WorkerOptions where
  consumerName : String
  batchSize : ℕ := 10
  claimIdleMs : ℕ := 60000
  maxDeliveries : ℤ := 3

structure Worker where
  options : WorkerOptions
  running : Bool
  lastPendingCount : ℕ

/-- An entry of the stream of dead letters. -/
structure DeadLetter where
  originalStream : String
  originalId : String
  payload : String
  error : String
  failedAt : ℕ
  deriving DecidableEq

/-- Which loop over messages is running: that of `claimPendingMessages` or that of `consumeLoop`. -/
inductive Phase where
  | claimed
  | read

/-- A message in `processMessage`, and those that come after it. -/
structure Job where
  phase : Phase
  message : StreamMessage
  rest : List StreamMessage

/-- Where a call of `start` is, and then the loop it starts; `lastAck` knows whether a dead letter was appended. -/
inductive Point where
  | starting
  | connecting
  | top
  | claiming
  | reading
  | processing (job : Job)
  | handling (job : Job) (event : Js.Value)
  | acking (job : Job)
  | caught (job : Job) (error : String)
  | deadLettering (job : Job) (error : String)
  | lastAck (job : Job) (appended : Bool)
  | refreshing
  | sleeping
  | ended

/-- What a step meets: a client that is not open, a command that is executed (a handler that resolves), or one that
fails, executed or not (a handler that rejects). -/
inductive Answer where
  | closed
  | ok (now : ℕ)
  | failed (executed : Bool) (now : ℕ) (error : String)

/-- What a step does to what the workers share, or to its worker. -/
inductive Action where
  | nothing
  | run
  | refresh
  | claim (now : ℕ)
  | read (now : ℕ)
  | handle (id : String)
  | ack (id : String)
  | deadLetter (letter : DeadLetter)

abbrev Event := Entry String (List (String × String))

abbrev Events := Log String (List (String × String))

/-- XAUTOCLAIM as the worker sends it. -/
def Worker.autoClaim (worker : Worker) (stream : Events) (now : ℕ) : Events × List (Event) :=
  stream.autoClaim worker.options.consumerName worker.options.claimIdleMs worker.options.batchSize now

/-- An entry in a reply. -/
def entryReply (entry : Event) : Reply :=
  .array [.text entry.id, .array (entry.fields.flatMap fun field => [.text field.1, .text field.2])]

/-- The reply to XREADGROUP. -/
def readReply (entries : List (Event)) : Reply :=
  if entries.isEmpty then .nil
  else .array [.array [.text ledgerEventsStream, .array (entries.map entryReply)]]

/-- Item 1 of the reply to XAUTOCLAIM. -/
def claimReply (entries : List (Event)) : Reply := .array (entries.map entryReply)

/-- The loop over messages goes on, or what comes after it. -/
def goOn (phase : Phase) : List StreamMessage → Point
  | message :: rest => .processing { phase, message, rest }
  | [] =>
    match phase with
    | .claimed => .reading
    | .read => .refreshing

/-- `processMessage` returns. -/
def Job.next (job : Job) : Point := goOn job.phase job.rest

/-- After `getDeliveryCount`. -/
def afterCount (options : WorkerOptions) (job : Job) (error : String) (deliveries : ℕ) : Point :=
  if options.maxDeliveries ≤ deliveries then .deadLettering job error else job.next

/-- The entry `moveToDeadLetterQueue` appends. -/
def deadLetter (message : StreamMessage) (error : String) (now : ℕ) : DeadLetter :=
  { originalStream := ledgerEventsStream
    originalId := message.id
    payload := message.payload
    error
    failedAt := now }

/-- The action of a command, where it was executed. -/
def Action.when (action : Action) : Bool → Action
  | true => action
  | false => .nothing

/-- The next point of a loop, and what the step does. -/
def Point.next (syntaxError : String → String) (worker : Worker) (stream : Events) :
    Point → Answer → Option (Point × Action)
  | .starting, .closed => some (.ended, .nothing)
  | .starting, .ok _ => some (.connecting, .nothing)
  | .starting, .failed .. => some (.ended, .nothing)
  | .connecting, .ok _ => some (.top, .run)
  | .connecting, .failed .. => some (.ended, .nothing)
  | .top, .ok _ => some (if worker.running then .claiming else .ended, .nothing)
  | .claiming, .closed => some (.reading, .nothing)
  | .claiming, .ok now =>
    -- COUNT must be positive
    if worker.options.batchSize = 0 then none
    else
      some (goOn .claimed (asStreamMessages (claimReply (worker.autoClaim stream now).2)), .claim now)
  | .claiming, .failed executed now _ =>
    some (.sleeping, Action.when (.claim now) (executed && worker.options.batchSize ≠ 0))
  | .reading, .closed => some (goOn .read [], .nothing)
  | .reading, .ok now =>
    some (goOn .read (parseReadResponse (readReply (stream.unread worker.options.batchSize))), .read now)
  | .reading, .failed executed now _ => some (.sleeping, Action.when (.read now) executed)
  | .processing job, .closed => some (job.next, .nothing)
  | .processing job, .ok _ =>
    match parseEvent syntaxError job.message with
    | .ok event => some (.handling job event, .nothing)
    | .error error => some (.caught job error, .nothing)
  | .handling job _, .ok _ => some (.acking job, .handle job.message.id)
  | .handling job _, .failed _ _ error => some (.caught job error, .nothing)
  | .acking job, .ok _ => some (job.next, .ack job.message.id)
  | .acking job, .failed executed _ error => some (.caught job error, Action.when (.ack job.message.id) executed)
  | .caught job error, .closed => some (afterCount worker.options job error 1, .nothing)
  | .caught job error, .ok _ =>
    some (afterCount worker.options job error ((stream.deliveries? job.message.id).getD 1), .nothing)
  | .caught .., .failed .. => some (.sleeping, .nothing)
  | .deadLettering job _, .closed => some (.lastAck job false, .nothing)
  | .deadLettering job error, .ok now => some (.lastAck job true, .deadLetter (deadLetter job.message error now))
  | .deadLettering job error, .failed executed now _ =>
    some (.sleeping, Action.when (.deadLetter (deadLetter job.message error now)) executed)
  | .lastAck job _, .ok _ => some (job.next, .ack job.message.id)
  | .lastAck job _, .failed executed _ _ => some (.sleeping, Action.when (.ack job.message.id) executed)
  | .refreshing, .closed => some (.top, .nothing)
  | .refreshing, .ok _ => some (.top, .refresh)
  | .refreshing, .failed .. => some (.sleeping, .nothing)
  | .sleeping, .ok _ => some (.top, .nothing)
  | _, _ => none

/-- A loop of a worker. -/
structure Loop where
  worker : ℕ
  point : Point

/-- The stream with its group, the dead letters, the workers and their loops; `handled` records the ids for which the
handler has completed. -/
structure LedgerSystem where
  stream : Events
  deadLetters : List DeadLetter
  workers : List Worker
  loops : List Loop
  handled : List String

/-- A producer adds an entry; a worker is made, started or stopped; a loop crashes, or takes its next step. -/
inductive LedgerMove where
  | add (id : String) (fields : List (String × String))
  | create (options : WorkerOptions)
  | start (worker : ℕ)
  | stop (worker : ℕ)
  | crash (loop : ℕ)
  | advance (loop : ℕ) (answer : Answer)

namespace LedgerSystem

/-- No entries and no workers. -/
def init : LedgerSystem := { stream := Log.empty, deadLetters := [], workers := [], loops := [], handled := [] }

variable (s : LedgerSystem)

/-- The action of worker `w`. -/
def apply (w : ℕ) (worker : Worker) : Action → LedgerSystem
  | .nothing => s
  | .run => { s with workers := s.workers.set w { worker with running := true } }
  | .refresh => { s with workers := s.workers.set w { worker with lastPendingCount := s.stream.pending.length } }
  | .claim now => { s with stream := (worker.autoClaim s.stream now).1 }
  | .read now => { s with stream := s.stream.readGroup worker.options.consumerName worker.options.batchSize now }
  | .handle id => { s with handled := s.handled ++ [id] }
  | .ack id => { s with stream := s.stream.ack id }
  | .deadLetter letter => { s with deadLetters := s.deadLetters ++ [letter] }

def step (syntaxError : String → String) : LedgerMove → Option LedgerSystem
  | .add id fields =>
    if fresh : id ∉ s.stream.entries.map (·.id) then some { s with stream := s.stream.add ⟨id, fields⟩ fresh } else none
  | .create options =>
    some { s with workers := s.workers ++ [{ options, running := false, lastPendingCount := 0 }] }
  | .start w => do
    let worker ← s.workers[w]?
    if worker.running then some s else some { s with loops := s.loops ++ [{ worker := w, point := .starting }] }
  | .stop w => do
    let worker ← s.workers[w]?
    some { s with workers := s.workers.set w { worker with running := false } }
  | .crash k => do
    let loop ← s.loops[k]?
    some { s with loops := s.loops.set k { loop with point := .ended } }
  | .advance k answer => do
    let loop ← s.loops[k]?
    let worker ← s.workers[loop.worker]?
    let (point, action) ← loop.point.next syntaxError worker s.stream answer
    some { s.apply loop.worker worker action with loops := s.loops.set k { loop with point } }

end LedgerSystem

/-! ## The replies are read back -/

/-- An entry as `asStreamMessages` reads it. -/
def messageOf (entry : Event) : StreamMessage :=
  { id := entry.id
    fields := entry.fields.foldl (fun parsed field => parsed.set field.1 field.2) Dict.empty }

/-- The fields of a reply are set in their order. -/
lemma parseFields_flatMap (fields : List (String × String)) (parsed : Dict String String) :
    parseFields (fields.flatMap fun field => [.text field.1, .text field.2]) parsed =
      fields.foldl (fun parsed field => parsed.set field.1 field.2) parsed := by
  induction fields generalizing parsed with
  | nil => rfl
  | cons field fields ih =>
    exact ih (parsed.set field.1 field.2)

/-- A claim is read as the messages of its entries. -/
lemma asStreamMessages_claimReply (entries : List (Event)) :
    asStreamMessages (claimReply entries) = entries.map messageOf := by
  rw [claimReply, asStreamMessages, List.filterMap_map, ← List.filterMap_eq_map]
  congr 1
  funext entry
  show some _ = some _
  rw [parseFields_flatMap]
  rfl

/-- A read is parsed as the messages of its entries. -/
lemma parseReadResponse_readReply (entries : List (Event)) :
    parseReadResponse (readReply entries) = entries.map messageOf := by
  rw [readReply]
  split
  · rename_i none_
    rw [List.isEmpty_iff.1 none_]
    rfl
  · show streamMessages _ ++ [] = _
    rw [List.append_nil]
    exact asStreamMessages_claimReply entries

/-! ## Nothing is lost -/

/-- The message is one of the stream's entries. -/
def Known (stream : Events) (message : StreamMessage) : Prop := ∃ entry ∈ stream.entries, messageOf entry = message

def Job.Known (stream : Events) (job : Job) : Prop := ∀ message ∈ job.message :: job.rest, Ledger.Known stream message

/-- Whether a command was executed. -/
def Answer.executed : Answer → Bool
  | .closed => false
  | .ok _ => true
  | .failed executed _ _ => executed

namespace LedgerSystem
variable (s : LedgerSystem)

/-- The handler has completed for the message, or there is a dead letter with its id and payload. -/
def Settled (message : StreamMessage) : Prop :=
  message.id ∈ s.handled ∨
    ∃ letter ∈ s.deadLetters, letter.originalId = message.id ∧ letter.payload = message.payload

instance (message : StreamMessage) : Decidable (s.Settled message) := by
  unfold Settled
  infer_instance

/-- The messages of a loop are known, and one that is about to be acknowledged is settled, unless no dead letter was
appended. -/
def Sound : Point → Prop
  | .processing job | .handling job _ | .caught job _ | .deadLettering job _ | .lastAck job false => job.Known s.stream
  | .acking job | .lastAck job true => job.Known s.stream ∧ s.Settled job.message
  | _ => True

/-- An event that leaves the pending ones in this step is settled. -/
def Keeps (syntaxError : String → String) (move : LedgerMove) : Prop :=
  ∀ t, s.step syntaxError move = some t → ∀ entry ∈ s.stream.entries, entry.id ∈ s.stream.pendingIds →
    entry.id ∉ t.stream.pendingIds → s.Settled (messageOf entry)

/-- An acknowledgement after a `moveToDeadLetterQueue` that found the client closed is executed only when the event is
not pending any more, or is settled. -/
def CarefulAt (answer : Answer) : Option Point → Prop
  | some (.lastAck job false) =>
    answer.executed = true → job.message.id ∈ s.stream.pendingIds → s.Settled job.message
  | _ => True

def Careful : LedgerMove → Prop
  | .advance k answer => s.CarefulAt answer (s.loops[k]?.map Loop.point)
  | _ => True

instance (answer : Answer) (point : Option Point) : Decidable (s.CarefulAt answer point) := by
  unfold CarefulAt
  split <;> infer_instance

instance (move : LedgerMove) : Decidable (s.Careful move) := by
  unfold Careful
  split <;> infer_instance

/-- Every event that was handed out is pending or settled. -/
def Accounted : Prop := ∀ entry ∈ s.stream.handedOut, entry.id ∈ s.stream.pendingIds ∨ s.Settled (messageOf entry)

/-- What was there is still there. -/
structure Grows (s t : LedgerSystem) : Prop where
  entries : s.stream.entries ⊆ t.stream.entries
  handled : s.handled ⊆ t.handled
  deadLetters : s.deadLetters ⊆ t.deadLetters

variable {s} {t : LedgerSystem} {message : StreamMessage} {w : ℕ} {worker : Worker} {action : Action}

/-- What a job knows is still there. -/
lemma Grows.known (grows : s.Grows t) {job : Job} (known : job.Known s.stream) : job.Known t.stream := by
  intro message mem
  obtain ⟨entry, there, rfl⟩ := known message mem
  exact ⟨entry, grows.entries there, rfl⟩

/-- What is settled stays so. -/
lemma Grows.settled (grows : s.Grows t) (settled : s.Settled message) : t.Settled message := by
  obtain handled | ⟨letter, mem, same⟩ := settled
  · exact .inl (grows.handled handled)
  · exact .inr ⟨letter, grows.deadLetters mem, same⟩

/-- A point that was sound stays so. -/
lemma Grows.sound (grows : s.Grows t) {point : Point} (sound : s.Sound point) : t.Sound point := by
  cases point with
  | processing job => exact grows.known sound
  | handling job event => exact grows.known sound
  | caught job error => exact grows.known sound
  | deadLettering job error => exact grows.known sound
  | acking job => exact ⟨grows.known sound.1, grows.settled sound.2⟩
  | lastAck job appended =>
    cases appended with
    | false => exact grows.known sound
    | true => exact ⟨grows.known sound.1, grows.settled sound.2⟩
  | _ => trivial

/-- No action takes anything away. -/
lemma grows_apply (action : Action) : s.Grows (s.apply w worker action) := by
  cases action with
  | handle id => exact ⟨List.Subset.refl _, List.subset_append_left _ _, List.Subset.refl _⟩
  | deadLetter letter => exact ⟨List.Subset.refl _, List.Subset.refl _, List.subset_append_left _ _⟩
  | _ => exact ⟨List.Subset.refl _, List.Subset.refl _, List.Subset.refl _⟩

/-- Messages of the stream are taken up soundly. -/
lemma sound_goOn {phase : Phase} {messages : List StreamMessage} (known : ∀ m ∈ messages, Known s.stream m) :
    s.Sound (goOn phase messages) := by
  cases messages with
  | cons message rest => exact known
  | nil => cases phase <;> trivial

/-- A job goes on with the next message. -/
lemma sound_next {job : Job} (known : job.Known s.stream) : s.Sound job.next :=
  sound_goOn fun m mem => known m (List.mem_cons_of_mem _ mem)

/-- What follows a count is sound. -/
lemma sound_afterCount {options : WorkerOptions} {job : Job} (known : job.Known s.stream) (error : String)
    (deliveries : ℕ) : s.Sound (afterCount options job error deliveries) := by
  rw [afterCount]
  split
  · exact known
  · exact sound_next known

/-- The messages of a claim are known. -/
lemma sound_claimed (now : ℕ) :
    s.Sound (goOn .claimed (asStreamMessages (claimReply (worker.autoClaim s.stream now).2))) := by
  refine sound_goOn fun m mem => ?_
  rw [asStreamMessages_claimReply] at mem
  obtain ⟨entry, there, rfl⟩ := List.mem_map.1 mem
  exact ⟨entry, Log.mem_of_autoClaim there, rfl⟩

/-- The messages of a read are known. -/
lemma sound_read (count : ℕ) : s.Sound (goOn .read (parseReadResponse (readReply (s.stream.unread count)))) := by
  refine sound_goOn fun m mem => ?_
  rw [parseReadResponse_readReply] at mem
  obtain ⟨entry, there, rfl⟩ := List.mem_map.1 mem
  exact ⟨entry, Log.mem_of_unread there, rfl⟩

/-- One step of a loop. -/
lemma sound_of_next {syntaxError : String → String} {point point' : Point} {answer : Answer} (sound : s.Sound point)
    (next : point.next syntaxError worker s.stream answer = some (point', action)) :
    (s.apply w worker action).Sound point' := by
  have grows : s.Grows (s.apply w worker action) := grows_apply action
  cases point with
  | starting => cases answer <;> (cases next; trivial)
  | connecting =>
    cases answer with
    | closed => cases next
    | _ => cases next; trivial
  | top =>
    cases answer <;> cases next
    rw [apply]
    split <;> trivial
  | claiming =>
    cases answer with
    | ok now =>
      simp only [Point.next] at next
      split at next
      · cases next
      · cases next
        exact grows.sound (sound_claimed now)
    | _ => cases next; trivial
  | reading =>
    cases answer with
    | ok now =>
      cases next
      exact grows.sound (sound_read _)
    | _ => cases next; trivial
  | processing job =>
    cases answer with
    | closed =>
      cases next
      exact sound_next sound
    | ok now =>
      simp only [Point.next] at next
      split at next <;> (cases next; exact sound)
    | failed => cases next
  | handling job event =>
    cases answer with
    | closed => cases next
    | ok now =>
      cases next
      exact ⟨grows.known sound, .inl (List.mem_append_right _ (List.mem_singleton_self _))⟩
    | failed =>
      cases next
      exact sound
  | acking job =>
    cases answer with
    | closed => cases next
    | ok now =>
      cases next
      exact grows.sound (sound_next sound.1)
    | failed =>
      cases next
      exact @Grows.sound s _ grows (.caught job _) sound.1
  | caught job error =>
    cases answer with
    | failed =>
      cases next
      trivial
    | _ =>
      cases next
      exact sound_afterCount sound _ _
  | deadLettering job error =>
    cases answer with
    | closed =>
      cases next
      exact sound
    | ok now =>
      cases next
      exact ⟨grows.known sound, .inr ⟨_, List.mem_append_right _ (List.mem_singleton_self _), rfl, rfl⟩⟩
    | failed =>
      cases next
      trivial
  | lastAck job appended =>
    have known : job.Known s.stream := by
      cases appended with
      | false => exact sound
      | true => exact sound.1
    cases answer with
    | closed => cases next
    | ok now =>
      cases next
      exact grows.sound (sound_next known)
    | failed =>
      cases next
      trivial
  | refreshing => cases answer <;> (cases next; trivial)
  | sleeping =>
    cases answer with
    | ok now => cases next; trivial
    | _ => cases next
  | ended => cases next

/-- Only an acknowledgement takes an event from the pending ones. -/
lemma ack_of_leaves {id : String} (pending : id ∈ s.stream.pendingIds)
    (gone : id ∉ (s.apply w worker action).stream.pendingIds) : action = .ack id := by
  cases action with
  | claim now => exact absurd (Log.pendingIds_autoClaim (s := s.stream) ▸ pending) gone
  | read now => exact absurd (Log.pendingIds_readGroup (s := s.stream) ▸ List.mem_append_left _ pending) gone
  | ack other =>
    by_cases same : id = other
    · rw [same]
    · exact absurd (Log.mem_pendingIds_ack.2 ⟨same, pending⟩) gone
  | _ => exact absurd pending gone

/-- Which points acknowledge. -/
lemma point_of_ack {syntaxError : String → String} {point point' : Point} {answer : Answer} {id : String}
    (next : point.next syntaxError worker s.stream answer = some (point', .ack id)) :
    answer.executed = true ∧
      ∃ job, job.message.id = id ∧ (point = .acking job ∨ ∃ appended, point = .lastAck job appended) := by
  cases point with
  | acking job =>
    cases answer with
    | closed => cases next
    | ok now =>
      cases next
      exact ⟨rfl, job, rfl, .inl rfl⟩
    | failed executed =>
      cases executed <;> cases next
      exact ⟨rfl, job, rfl, .inl rfl⟩
  | lastAck job appended =>
    cases answer with
    | closed => cases next
    | ok now =>
      cases next
      exact ⟨rfl, job, rfl, .inr ⟨appended, rfl⟩⟩
    | failed executed =>
      cases executed <;> cases next
      exact ⟨rfl, job, rfl, .inr ⟨appended, rfl⟩⟩
  | claiming =>
    cases answer with
    | closed => cases next
    | ok now =>
      simp only [Point.next] at next
      split at next <;> cases next
    | failed executed now error =>
      simp only [Point.next] at next
      generalize (executed && decide (worker.options.batchSize ≠ 0)) = claimed at next
      cases claimed <;> cases next
  | processing job =>
    cases answer with
    | closed => cases next
    | ok now =>
      simp only [Point.next] at next
      split at next <;> cases next
    | failed => cases next
  | reading =>
    cases answer with
    | failed executed => cases executed <;> cases next
    | _ => cases next
  | deadLettering job error =>
    cases answer with
    | failed executed => cases executed <;> cases next
    | _ => cases next
  | _ => cases answer <;> cases next

/-- What a step that is no section of a loop leaves. -/
structure Apart (s t : LedgerSystem) : Prop where
  grows : s.Grows t
  pendingIds : t.stream.pendingIds = s.stream.pendingIds
  handedOut : t.stream.handedOut = s.stream.handedOut
  loops : ∀ loop ∈ t.loops, loop ∈ s.loops ∨ loop.point = .starting ∨ loop.point = .ended

/-- A step beside the loops leaves the record. -/
lemma apart_of_eq (stream : t.stream = s.stream) (handled : t.handled = s.handled)
    (deadLetters : t.deadLetters = s.deadLetters)
    (loops : ∀ loop ∈ t.loops, loop ∈ s.loops ∨ loop.point = .starting ∨ loop.point = .ended) : s.Apart t where
  grows := ⟨stream ▸ List.Subset.refl _, handled ▸ List.Subset.refl _, deadLetters ▸ List.Subset.refl _⟩
  pendingIds := by rw [stream]
  handedOut := by rw [stream]
  loops := loops

/-- A step is one beside the loops or an advance of one of them. -/
lemma step_cases {syntaxError : String → String} {move : LedgerMove} (next : s.step syntaxError move = some t) :
    (s.Apart t ∧ s.Careful move) ∨
      ∃ k answer loop worker point action, move = .advance k answer ∧ s.loops[k]? = some loop ∧
        loop.point.next syntaxError worker s.stream answer = some (point, action) ∧
          t = { s.apply loop.worker worker action with loops := s.loops.set k { loop with point } } := by
  cases move with
  | add id fields =>
    simp only [step] at next
    split at next
    · rename_i fresh
      cases next
      exact .inl ⟨⟨⟨List.subset_append_left _ _, List.Subset.refl _, List.Subset.refl _⟩, rfl,
        @Log.handedOut_add _ _ _ ⟨id, fields⟩ fresh, fun _ => .inl⟩, trivial⟩
    · cases next
  | create options =>
    cases next
    exact .inl ⟨apart_of_eq rfl rfl rfl fun _ => .inl, trivial⟩
  | start w =>
    simp only [step, Option.bind_eq_bind, Option.bind_eq_some_iff] at next
    obtain ⟨worker, -, next⟩ := next
    split at next
    · cases next
      exact .inl ⟨apart_of_eq rfl rfl rfl fun _ => .inl, trivial⟩
    · cases next
      refine .inl ⟨apart_of_eq rfl rfl rfl fun loop mem => ?_, trivial⟩
      obtain mem | rfl := (List.mem_append.1 mem).imp_right List.mem_singleton.1
      · exact .inl mem
      · exact .inr (.inl rfl)
  | stop w =>
    simp only [step, Option.bind_eq_bind, Option.bind_eq_some_iff] at next
    obtain ⟨worker, -, next⟩ := next
    cases next
    exact .inl ⟨apart_of_eq rfl rfl rfl fun _ => .inl, trivial⟩
  | crash k =>
    simp only [step, Option.bind_eq_bind, Option.bind_eq_some_iff] at next
    obtain ⟨loop, -, next⟩ := next
    cases next
    refine .inl ⟨apart_of_eq rfl rfl rfl fun loop mem => ?_, trivial⟩
    obtain mem | rfl := List.mem_or_eq_of_mem_set mem
    · exact .inl mem
    · exact .inr (.inr rfl)
  | advance k answer =>
    simp only [step, Option.bind_eq_bind, Option.bind_eq_some_iff, Prod.exists] at next
    obtain ⟨loop, at_, worker, -, point, action, made, next⟩ := next
    cases next
    exact .inr ⟨k, answer, loop, worker, point, action, rfl, at_, made, rfl⟩

/-- Every loop is sound. -/
def Inv (s : LedgerSystem) : Prop := ∀ loop ∈ s.loops, s.Sound loop.point

/-- At the start there are no loops. -/
lemma inv_init : init.Inv := by
  intro loop mem
  cases mem

/-- Each step keeps the invariant. -/
lemma Inv.step {syntaxError : String → String} {move : LedgerMove} (inv : s.Inv)
    (next : s.step syntaxError move = some t) : t.Inv := by
  intro loop mem
  obtain ⟨apart, -⟩ | ⟨k, answer, old, worker, point, action, -, at_, made, rfl⟩ := step_cases next
  · obtain mem | starting | ended := apart.loops loop mem
    · exact apart.grows.sound (inv loop mem)
    · rw [starting]
      trivial
    · rw [ended]
      trivial
  · have sound := inv old (List.mem_of_getElem? at_)
    obtain mem | rfl := List.mem_or_eq_of_mem_set mem
    · exact (grows_apply action).sound (inv loop mem)
    · exact sound_of_next sound made

/-- The message of an entry is the one message with its id. -/
lemma settled_of_known (known : Known s.stream message) (settled : s.Settled message)
    {entry : Event} (mem : entry ∈ s.stream.entries) (same : message.id = entry.id) :
    s.Settled (messageOf entry) := by
  obtain ⟨entry', mem', rfl⟩ := known
  rwa [Log.eq_of_id mem mem' same.symm]

/-- A careful step keeps, and only a careful one does. -/
lemma keeps_iff_careful {syntaxError : String → String} {move : LedgerMove} (inv : s.Inv)
    (next : s.step syntaxError move = some t) : s.Keeps syntaxError move ↔ s.Careful move := by
  obtain ⟨apart, careful⟩ | ⟨k, answer, loop, worker, point, action, rfl, at_, made, rfl⟩ := step_cases next
  · refine iff_of_true (fun t' next' entry _ pending gone => ?_) careful
    cases next.symm.trans next'
    exact absurd (apart.pendingIds ▸ pending) gone
  · have sound := inv loop (List.mem_of_getElem? at_)
    constructor
    · intro keeps
      simp only [Careful, CarefulAt, at_, Option.map_some]
      split
      case h_1 job here =>
        -- what `lastAck` acknowledges leaves
        intro executed pending
        rw [Option.some.inj here] at made sound
        obtain ⟨entry, mem, eq⟩ := sound job.message List.mem_cons_self
        have acks : action = .ack job.message.id := by
          cases answer with
          | closed => cases executed
          | ok now =>
            cases made
            rfl
          | failed executed' =>
            cases executed
            cases made
            rfl
        subst acks
        rw [← eq] at pending ⊢
        refine keeps _ next entry mem pending fun still => ?_
        rw [← eq] at still
        exact (Log.mem_pendingIds_ack.1 still).1 rfl
      case h_2 => trivial
    · intro careful t' next' entry mem pending gone
      cases next.symm.trans next'
      obtain rfl := ack_of_leaves pending gone
      obtain ⟨executed, job, same, acking | ⟨appended, last⟩⟩ := point_of_ack made
      · rw [acking] at sound
        exact settled_of_known (sound.1 _ List.mem_cons_self) sound.2 mem same
      · rw [last] at sound
        cases appended with
        | true => exact settled_of_known (sound.1 _ List.mem_cons_self) sound.2 mem same
        | false =>
          simp only [Careful, CarefulAt, at_, Option.map_some, last] at careful
          exact settled_of_known (sound _ List.mem_cons_self) (careful executed (same ▸ pending)) mem same

/-- An event that is handed out in this step is pending after it. -/
lemma handedOut_step {syntaxError : String → String} {move : LedgerMove} (next : s.step syntaxError move = some t)
    {entry : Event} (mem : entry ∈ t.stream.handedOut) :
    entry ∈ s.stream.handedOut ∨ entry.id ∈ t.stream.pendingIds := by
  obtain ⟨apart, -⟩ | ⟨k, answer, loop, worker, point, action, -, -, -, rfl⟩ := step_cases next
  · exact .inl (apart.handedOut ▸ mem)
  · cases action with
    | read now =>
      change entry ∈ (s.stream.readGroup _ _ now).handedOut at mem
      rw [Log.handedOut_readGroup, List.mem_append] at mem
      refine mem.imp_right fun new => ?_
      show entry.id ∈ (s.stream.readGroup _ _ now).pendingIds
      rw [Log.pendingIds_readGroup]
      exact List.mem_append_right _ (List.mem_map_of_mem new)
    | _ => exact .inl mem

/-- No step takes anything away. -/
lemma grows_step {syntaxError : String → String} {move : LedgerMove} (next : s.step syntaxError move = some t) :
    s.Grows t := by
  obtain ⟨apart, -⟩ | ⟨k, answer, loop, worker, point, action, -, -, -, rfl⟩ := step_cases next
  · exact apart.grows
  · obtain ⟨entries, handled, deadLetters⟩ := @grows_apply s loop.worker worker action
    exact ⟨entries, handled, deadLetters⟩

/-- A step that keeps its message leaves every message accounted for. -/
lemma Accounted.step {syntaxError : String → String} {move : LedgerMove} (accounted : s.Accounted)
    (keeps : s.Keeps syntaxError move) (next : s.step syntaxError move = some t) : t.Accounted := by
  intro entry mem
  obtain old | pending := handedOut_step next mem
  · obtain pending | settled := accounted entry old
    · by_cases still : entry.id ∈ t.stream.pendingIds
      · exact .inl still
      · exact .inr ((grows_step next).settled (keeps t next entry (List.mem_of_mem_take old) pending still))
    · exact .inr ((grows_step next).settled settled)
  · exact .inl pending

/-- In a run an event leaves the pending ones only after it was handled or became a dead letter exactly when each of its
steps is careful, and then every event that was handed out is accounted for at all times. -/
theorem loses_nothing_iff (syntaxError : String → String) {trace : List LedgerMove} {last : LedgerSystem}
    (run : exec (step · syntaxError) init trace = some last) :
    (Guarded (step · syntaxError) (Keeps · syntaxError) init trace ↔
        Guarded (step · syntaxError) Careful init trace) ∧
      (Guarded (step · syntaxError) Careful init trace → Always (step · syntaxError) Accounted init trace) := by
  have always : Always (step · syntaxError) Inv init trace :=
    always_of_invariant inv_init (fun _ _ _ inv next => inv.step next) trace
  have same : Guarded (step · syntaxError) (Keeps · syntaxError) init trace ↔
      Guarded (step · syntaxError) Careful init trace :=
    guarded_congr run always fun _ _ _ inv next => keeps_iff_careful inv next
  refine ⟨same, fun careful => ?_⟩
  exact always_of_guarded (I := Accounted) (fun _ mem => absurd mem List.not_mem_nil)
    (fun _ _ _ accounted keeps next => accounted.step keeps next) (same.2 careful)

/-- What `JSON.parse` says of the text `x`. -/
def unexpectedToken (_ : String) : String := "Unexpected token x in JSON at position 0"

/-- An event that cannot be parsed is delivered three times; the third time the worker is about to move it to the dead
letters. -/
def poisonTrace : List LedgerMove :=
  [LedgerMove.add "1-0" [("payload", "x")], .create { consumerName := "backend-1" }, .start 0] ++
    List.replicate 7 (LedgerMove.advance 0 (.ok 0)) ++ List.replicate 7 (LedgerMove.advance 0 (.ok 60000)) ++
    List.replicate 4 (LedgerMove.advance 0 (.ok 120000))

/-- The client is closed when `moveToDeadLetterQueue` looks, and open again when the acknowledgement is sent. -/
theorem unrecorded_run :
    ∃ s, exec (step · unexpectedToken) init (poisonTrace ++ [.advance 0 .closed]) = some s ∧
      ¬s.Keeps unexpectedToken (.advance 0 (.ok 120001)) := by
  refine ⟨_, rfl, fun keeps => ?_⟩
  have settled := keeps _ rfl _ List.mem_cons_self (by decide +kernel) (by decide +kernel)
  revert settled
  decide +kernel

/-- The client is open, and the event becomes a dead letter. -/
theorem loses_nothing_dead_letter :
    Guarded (step · unexpectedToken) (Keeps · unexpectedToken) init
      (poisonTrace ++ [.advance 0 (.ok 120000), .advance 0 (.ok 120001)]) :=
  (@loses_nothing_iff unexpectedToken _ _ rfl).1.2 (by decide +kernel)

end LedgerSystem

end StellarFlow.Ledger
