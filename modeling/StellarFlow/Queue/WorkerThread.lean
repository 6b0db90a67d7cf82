import StellarFlow.Lib.Dict
import StellarFlow.Lib.Machine
import StellarFlow.Queue.RingBuffer

/-!
# The worker thread channel

Model of `src/queue/workerThreadChannel.ts` over `LockFreeIngestionChannel` of `src/queue/lockFreeRingBuffer.ts`: the
client of the main thread, the handler inside the worker and the two message ports between them. A step is one event of
one side: a call on the client, a timer, a message taken from a port, `terminate()` taking effect. The ports keep the
order of their messages, and what the worker sent is drained before its `exit` event. The id of a request is the
pair of numbers its text is made of. Packets are values of any type; latency samples are left out, and so is the
pool of channels by name.
-/

namespace StellarFlow.Queue
open Machine BoundedQueue

/-- `MPSCRingBuffer.getMetrics`. -/
def MPSCRingBuffer.getMetrics {T : Type} (r : MPSCRingBuffer T) : RingBufferMetrics × MPSCRingBuffer T :=
  (r.measured.metrics, r.measured)

/-- `LockFreeIngestionChannel`. -/
structure LockFreeIngestionChannel (Packet : Type) where
  ringBuffer : MPSCRingBuffer Packet
  enableBatching : Bool
  batchSize : ℤ

namespace LockFreeIngestionChannel
variable {Packet : Type}

/-- The constructor; `none` when the capacity is never reached. -/
def new (capacity : ℚ) (enableBatching : Bool) (batchSize : ℤ) : Option (LockFreeIngestionChannel Packet) := do
  let ringBuffer ← MPSCRingBuffer.new capacity
  return { ringBuffer, enableBatching, batchSize }

variable (c : LockFreeIngestionChannel Packet)

/-- `LockFreeIngestionChannel.publish`. -/
def publish (packet : Packet) : Bool × LockFreeIngestionChannel Packet :=
  let (success, ringBuffer) := c.ringBuffer.tryEnqueue packet
  (success, { c with ringBuffer })

/-- The number of items `subscribe` asks for, with its `maxItems || 1`. -/
def requested (maxItems : Option ℤ) : ℤ :=
  match if c.enableBatching ∧ maxItems = none then some c.batchSize else maxItems with
  | none => 1
  | some maxItems => if maxItems = 0 then 1 else maxItems

/-- `LockFreeIngestionChannel.subscribe`. -/
def subscribe (maxItems : Option ℤ) : List Packet × LockFreeIngestionChannel Packet :=
  let (items, ringBuffer) := c.ringBuffer.tryDequeueBatch (c.requested maxItems)
  (items, { c with ringBuffer })

/-- `LockFreeIngestionChannel.getMetrics`. -/
def getMetrics : RingBufferMetrics × LockFreeIngestionChannel Packet :=
  let (metrics, ringBuffer) := c.ringBuffer.getMetrics
  (metrics, { c with ringBuffer })

end LockFreeIngestionChannel

/-- `WorkerChannelConfig`. -/
structure WorkerChannelConfig where
  bufferSize : ℚ
  batchSize : ℤ

/-- The id made by `generateMessageId` of the counter and the clock. -/
structure MessageId where
  counter : ℕ
  time : ℕ
  deriving DecidableEq

/-- What a promise of the client is resolved with. -/
inductive MessageData (Packet : Type) where
  | flag (value : Bool)
  | success (value : Bool)
  | packets (values : List Packet)
  | metrics (value : RingBufferMetrics)
  | null

/-- A message to the worker. -/
inductive Request (Packet : Type) where
  | publish (data : Packet) (id : MessageId)
  | subscribe (id : MessageId)
  | metrics (id : MessageId)
  | shutdown

/-- A message of type `ACK` from the worker. -/
structure Reply (Packet : Type) where
  data : MessageData Packet
  id : Option MessageId

/-- `WorkerChannelHandler`. -/
structure WorkerChannelHandler (Packet : Type) where
  channel : LockFreeIngestionChannel Packet
  running : Bool

namespace WorkerChannelHandler
variable {Packet : Type}

/-- The constructor of `WorkerChannelHandler`. -/
def new (config : WorkerChannelConfig) : Option (WorkerChannelHandler Packet) := do
  let channel ← LockFreeIngestionChannel.new config.bufferSize true config.batchSize
  return { channel, running := true }

variable (h : WorkerChannelHandler Packet)

/-- `sendAck`, whose message has no id. -/
def sendAck (success : Bool) : Reply Packet := ⟨.success success, none⟩

/-- `handlePublish`. -/
def handlePublish (packet : Packet) : Reply Packet × WorkerChannelHandler Packet :=
  let (success, channel) := h.channel.publish packet
  (sendAck success, { h with channel })

/-- `handleSubscribe`. -/
def handleSubscribe (requestId : MessageId) : Reply Packet × WorkerChannelHandler Packet :=
  let (packets, channel) := h.channel.subscribe none
  (⟨.packets packets, some requestId⟩, { h with channel })

/-- `handleMetrics`. -/
def handleMetrics (requestId : MessageId) : Reply Packet × WorkerChannelHandler Packet :=
  let (metrics, channel) := h.channel.getMetrics
  (⟨.metrics metrics, some requestId⟩, { h with channel })

/-- `handleShutdown`. -/
def handleShutdown : Reply Packet × WorkerChannelHandler Packet := (sendAck true, { h with running := false })

/-- The switch over the message types. -/
def respond : Request Packet → Reply Packet × WorkerChannelHandler Packet
  | .publish packet _ => h.handlePublish packet
  | .subscribe id => h.handleSubscribe id
  | .metrics id => h.handleMetrics id
  | .shutdown => h.handleShutdown

/-- The message handler of the worker: what it posts, and its state after that. -/
def onMessage (message : Request Packet) : List (Reply Packet) × WorkerChannelHandler Packet :=
  if h.running then ([(h.respond message).1], (h.respond message).2) else ([], h)

end WorkerChannelHandler

/-- The three calls that wait for the worker. -/
inductive RequestKind where
  | publish
  | subscribe
  | getMetrics
  deriving DecidableEq

/-- What the call resolves with when the worker is not running, and what its timer resolves it with. -/
def RequestKind.fallback {Packet : Type} : RequestKind → MessageData Packet
  | .publish => .flag false
  | .subscribe => .packets []
  | .getMetrics => .null

/-- A promise that has been resolved; calls that find no running worker make no id. -/
structure Settlement (Packet : Type) where
  id : Option MessageId
  kind : RequestKind
  value : MessageData Packet

/-- `WorkerThreadChannel`, with the kind of the call that waits under each id in place of its resolver. -/
structure WorkerThreadChannel where
  worker : Bool
  running : Bool
  messageId : ℕ
  pendingRequests : Dict MessageId RequestKind

/-- The client, the worker thread (if there is one) with the ports to it and from it, whether `stop` waits for
`terminate()`, and the promises resolved so far. -/
structure ThreadSystem (Packet : Type) where
  client : WorkerThreadChannel
  thread : Option (WorkerChannelHandler Packet)
  toWorker : List (Request Packet)
  toMain : List (Reply Packet)
  stopping : Bool
  settled : List (Settlement Packet)

/-- What can happen. -/
inductive ThreadEvent (Packet : Type) where
  | start
  | publish (packet : Packet) (now : ℕ)
  | subscribe (now : ℕ)
  | getMetrics (now : ℕ)
  | timeout (id : MessageId)
  | handle
  | receive
  | stop
  | exit

namespace ThreadSystem
variable {Packet : Type}

/-- A new `WorkerThreadChannel`, before `start`. -/
def new : ThreadSystem Packet where
  client := { worker := false, running := false, messageId := 0, pendingRequests := .empty }
  thread := none
  toWorker := []
  toMain := []
  stopping := false
  settled := []

variable (s : ThreadSystem Packet)

/-- `isActive`, the check of the calls. -/
def isActive : Bool := s.client.running && s.client.worker

/-- A promise resolved. -/
def settle (id : Option MessageId) (kind : RequestKind) (value : MessageData Packet) : ThreadSystem Packet :=
  { s with settled := s.settled ++ [⟨id, kind, value⟩] }

/-- The body of the three calls: register the resolver under a new id and post the message. -/
def request (kind : RequestKind) (message : MessageId → Request Packet) (now : ℕ) : ThreadSystem Packet :=
  if s.isActive then
    let id : MessageId := ⟨s.client.messageId, now⟩
    { s with
      client :=
        { s.client with
          messageId := s.client.messageId + 1
          pendingRequests := s.client.pendingRequests.set id kind }
      toWorker := s.toWorker ++ [message id] }
  else s.settle none kind kind.fallback

/-- A resolver found under an id, removed and called. -/
def resolve (id : MessageId) (value : RequestKind → MessageData Packet) : ThreadSystem Packet :=
  match s.client.pendingRequests.get? id with
  | none => s
  | some kind =>
    { s with client := { s.client with pendingRequests := s.client.pendingRequests.pop id } }.settle (some id) kind
      (value kind)

/-- `handleWorkerMessage`. -/
def handleWorkerMessage (message : Reply Packet) : ThreadSystem Packet :=
  match message.id with
  | none => s
  | some id => s.resolve id fun _ => message.data

/-- One event. A `start` with a `bufferSize` over 2^30, whose ring never comes to be, is no step, and a `postMessage`
that raises is left out. -/
def step (config : WorkerChannelConfig) (s : ThreadSystem Packet) : ThreadEvent Packet → Option (ThreadSystem Packet)
  | .start =>
    if s.client.running then some s
    else do
      let handler ← WorkerChannelHandler.new config
      return { s with
        client := { s.client with worker := true, running := true }
        thread := some handler }
  | .publish packet now => some (s.request .publish (.publish packet) now)
  | .subscribe now => some (s.request .subscribe .subscribe now)
  | .getMetrics now => some (s.request .getMetrics .metrics now)
  | .timeout id => some (s.resolve id RequestKind.fallback)
  | .handle =>
    match s.thread, s.toWorker with
    | some handler, message :: toWorker =>
      let (replies, handler) := handler.onMessage message
      some { s with thread := some handler, toWorker, toMain := s.toMain ++ replies }
    | _, _ => none
  | .receive =>
    match s.toMain with
    | message :: toMain => some ({ s with toMain }.handleWorkerMessage message)
    | [] => none
  | .stop =>
    if s.isActive then some { s with toWorker := s.toWorker ++ [.shutdown], stopping := true }
    else some s
  | .exit =>
    if s.thread.isSome ∧ s.toMain.isEmpty then
      let client := { s.client with running := false }
      some { s with
        client := if s.stopping then { client with worker := false, pendingRequests := .empty } else client
        thread := none
        toWorker := []
        stopping := false }
    else none

end ThreadSystem

section Settlements
variable {Packet : Type} {config : WorkerChannelConfig}

/-- The id and the kind of call a message to the worker comes from. -/
def Request.asks : Request Packet → Option (MessageId × RequestKind)
  | .publish _ id => some (id, .publish)
  | .subscribe id => some (id, .subscribe)
  | .metrics id => some (id, .getMetrics)
  | .shutdown => none

/-- A value the call may be resolved with: `publish` only with `false`. -/
def RequestKind.Fits : RequestKind → MessageData Packet → Prop
  | .publish, value => value = .flag false
  | .subscribe, value => ∃ packets, value = .packets packets
  | .getMetrics, value => value = .null ∨ ∃ metrics, value = .metrics metrics

/-- What a timeout answers is of the kind asked for. -/
lemma RequestKind.fits_fallback (kind : RequestKind) : kind.Fits (kind.fallback : MessageData Packet) := by
  cases kind with
  | publish => exact rfl
  | subscribe => exact ⟨[], rfl⟩
  | getMetrics => exact .inl rfl

/-- A reply with an id answers a call of that id, and fits it. -/
lemma WorkerChannelHandler.onMessage_answers {h : WorkerChannelHandler Packet} {message : Request Packet}
    {reply : Reply Packet} {id : MessageId} (mem : reply ∈ (h.onMessage message).1) (named : reply.id = some id) :
    ∃ kind, message.asks = some (id, kind) ∧ kind.Fits reply.data := by
  rw [onMessage] at mem
  split at mem
  · obtain rfl := List.mem_singleton.1 mem
    cases message with
    | publish packet i => cases named
    | subscribe i =>
      cases named
      exact ⟨.subscribe, rfl, _, rfl⟩
    | metrics i =>
      cases named
      exact ⟨.getMetrics, rfl, .inr ⟨_, rfl⟩⟩
    | shutdown => cases named
  · cases mem

namespace ThreadSystem
variable {s t : ThreadSystem Packet} {id : MessageId} {kind : RequestKind}

/-- The ids of the promises resolved so far. -/
def settledIds (s : ThreadSystem Packet) : List MessageId := s.settled.filterMap Settlement.id

/-- The id has been made. -/
def Issued (s : ThreadSystem Packet) (id : MessageId) : Prop := id.counter < s.client.messageId

/-- An id that a message carries: it has been made, and a call that waits under it is of a kind. -/
def Names (s : ThreadSystem Packet) (id : MessageId) (p : RequestKind → Prop) : Prop :=
  s.Issued id ∧ ∀ kind, (id, kind) ∈ s.client.pendingRequests.entries → p kind

/-- The requests that wait and the messages about them. -/
structure Consistent (s : ThreadSystem Packet) : Prop where
  issued : ∀ id ∈ s.client.pendingRequests.keys, s.Issued id
  settledIssued : ∀ id ∈ s.settledIds, s.Issued id
  apart : ∀ id ∈ s.client.pendingRequests.keys, id ∉ s.settledIds
  once : s.settledIds.Nodup
  asked : ∀ message ∈ s.toWorker, ∀ id kind, message.asks = some (id, kind) → s.Names id (· = kind)
  answered : ∀ reply ∈ s.toMain, ∀ id, reply.id = some id → s.Names id fun kind => kind.Fits reply.data
  fits : ∀ x ∈ s.settled, x.kind.Fits x.value

/-- A request is settled under its id. -/
lemma settledIds_settle (s : ThreadSystem Packet) (id : Option MessageId) (kind : RequestKind)
    (value : MessageData Packet) : (s.settle id kind value).settledIds = s.settledIds ++ id.toList := by
  rw [settledIds, settle, List.filterMap_append]
  cases id with
  | none => rfl
  | some id => rfl

/-- A promise resolved that waits under no id. -/
lemma Consistent.settle_none (inv : s.Consistent) (kind : RequestKind) :
    (s.settle none kind kind.fallback).Consistent := by
  have same : (s.settle none kind kind.fallback).settledIds = s.settledIds := by
    rw [settledIds_settle]
    exact List.append_nil _
  refine ⟨inv.issued, ?_, ?_, ?_, inv.asked, inv.answered, ?_⟩
  · rw [same]
    exact inv.settledIssued
  · rw [same]
    exact inv.apart
  · rw [same]
    exact inv.once
  · exact List.forall_mem_append.2 ⟨inv.fits, List.forall_mem_singleton.2 kind.fits_fallback⟩

/-- A new id is past all that have been made. -/
lemma Consistent.fresh (inv : s.Consistent) (now : ℕ) :
    (⟨s.client.messageId, now⟩ : MessageId) ∉ s.client.pendingRequests.keys ∧
      (⟨s.client.messageId, now⟩ : MessageId) ∉ s.settledIds :=
  ⟨fun mem => Nat.lt_irrefl _ (inv.issued _ mem), fun mem => Nat.lt_irrefl _ (inv.settledIssued _ mem)⟩

/-- A request that is made keeps the requests consistent. -/
lemma Consistent.request (inv : s.Consistent) {message : MessageId → Request Packet} (now : ℕ)
    (asks : ∀ id, (message id).asks = some (id, kind)) : (s.request kind message now).Consistent := by
  rw [ThreadSystem.request]
  split
  · obtain ⟨free, unsettled⟩ := inv.fresh now
    -- the ids in messages under way were made before
    have names : ∀ {id p}, s.Names id p → ∀ other,
        (id, other) ∈ (s.client.pendingRequests.set ⟨s.client.messageId, now⟩ kind).entries → p other := by
      rintro id p ⟨made, all⟩ other mem
      rcases Dict.mem_entries_set mem with new | ⟨old, -⟩
      · obtain ⟨rfl, -⟩ := Prod.mk.inj new
        exact absurd made (Nat.lt_irrefl _)
      · exact all other old
    refine ⟨?_, fun id mem => Nat.lt_succ_of_lt (inv.settledIssued id mem), ?_, inv.once, ?_, ?_, inv.fits⟩
    · intro id mem
      rcases Dict.mem_keys_set.1 mem with rfl | old
      · exact Nat.lt_succ_self _
      · exact Nat.lt_succ_of_lt (inv.issued id old)
    · intro id mem
      rcases Dict.mem_keys_set.1 mem with rfl | old
      · exact unsettled
      · exact inv.apart id old
    · refine List.forall_mem_append.2 ⟨fun m mem id other eq => ?_, List.forall_mem_singleton.2 fun id other eq => ?_⟩
      · have old := inv.asked m mem id other eq
        exact ⟨Nat.lt_succ_of_lt old.1, names old⟩
      · obtain ⟨rfl, rfl⟩ := Prod.mk.inj (Option.some.inj ((asks _).symm.trans eq))
        refine ⟨Nat.lt_succ_self _, fun other mem => ?_⟩
        rcases Dict.mem_entries_set mem with new | ⟨-, ne⟩
        · exact (Prod.mk.inj new).2
        · exact absurd rfl ne
    · intro reply mem id eq
      have old := inv.answered reply mem id eq
      exact ⟨Nat.lt_succ_of_lt old.1, names old⟩
  · exact inv.settle_none kind

/-- A request that is settled keeps the requests consistent. -/
lemma Consistent.resolve (inv : s.Consistent) {value : RequestKind → MessageData Packet}
    (fits : ∀ kind, (id, kind) ∈ s.client.pendingRequests.entries → kind.Fits (value kind)) :
    (s.resolve id value).Consistent := by
  rw [ThreadSystem.resolve]
  cases found : s.client.pendingRequests.get? id with
  | none => exact inv
  | some kind =>
    have entry := Dict.get?_eq_some found
    have waits : id ∈ s.client.pendingRequests.keys := List.mem_map_of_mem entry
    have fewer : ∀ {i k}, (i, k) ∈ (s.client.pendingRequests.pop id).entries →
        (i, k) ∈ s.client.pendingRequests.entries :=
      fun mem => List.mem_of_mem_filter mem
    have ids := settledIds_settle
      { s with client := { s.client with pendingRequests := s.client.pendingRequests.pop id } } (some id) kind
      (value kind)
    refine ⟨?_, ?_, ?_, ?_, ?_, ?_, ?_⟩
    · exact fun i mem => inv.issued i (Dict.mem_keys_pop.1 mem).2
    · rw [ids]
      exact List.forall_mem_append.2 ⟨inv.settledIssued, List.forall_mem_singleton.2 (inv.issued id waits)⟩
    · intro i mem
      obtain ⟨ne, old⟩ := Dict.mem_keys_pop.1 mem
      rw [ids, List.mem_append, not_or]
      exact ⟨inv.apart i old, fun last => ne (List.mem_singleton.1 last)⟩
    · rw [ids]
      refine List.nodup_append.2 ⟨inv.once, List.nodup_singleton id, ?_⟩
      rintro i mem j last rfl
      exact inv.apart id waits (List.mem_singleton.1 last ▸ mem)
    · exact fun m mem i k eq =>
        ⟨(inv.asked m mem i k eq).1, fun other mem' => (inv.asked m mem i k eq).2 other (fewer mem')⟩
    · exact fun reply mem i eq =>
        ⟨(inv.answered reply mem i eq).1, fun other mem' => (inv.answered reply mem i eq).2 other (fewer mem')⟩
    · exact List.forall_mem_append.2 ⟨inv.fits, List.forall_mem_singleton.2 (fits kind entry)⟩

/-- At the start there is none. -/
lemma Consistent.new : (new : ThreadSystem Packet).Consistent where
  issued := fun _ mem => absurd mem List.not_mem_nil
  settledIssued := fun _ mem => absurd mem List.not_mem_nil
  apart := fun _ mem => absurd mem List.not_mem_nil
  once := List.nodup_nil
  asked := fun _ mem => absurd mem List.not_mem_nil
  answered := fun _ mem => absurd mem List.not_mem_nil
  fits := fun _ mem => absurd mem List.not_mem_nil

/-- Messages taken from the ports or dropped. -/
lemma Consistent.drop (inv : s.Consistent) {toWorker : List (Request Packet)} {toMain : List (Reply Packet)}
    (asked : ∀ message ∈ toWorker, message.asks = none ∨ message ∈ s.toWorker) (answered : toMain ⊆ s.toMain)
    (thread : Option (WorkerChannelHandler Packet)) (stopping : Bool) :
    { s with thread, toWorker, toMain, stopping }.Consistent where
  issued := inv.issued
  settledIssued := inv.settledIssued
  apart := inv.apart
  once := inv.once
  asked := by
    intro message mem id kind eq
    rcases asked message mem with silent | old
    · exact absurd (silent.symm.trans eq) (by simp)
    · exact inv.asked message old id kind eq
  answered := fun reply mem => inv.answered reply (answered mem)
  fits := inv.fits

/-- The requests forgotten when `stop` is through. -/
lemma Consistent.clear (inv : s.Consistent) (worker running : Bool) :
    { s with client := { s.client with worker, running, pendingRequests := .empty } }.Consistent where
  issued := fun _ mem => absurd mem List.not_mem_nil
  settledIssued := inv.settledIssued
  apart := fun _ mem => absurd mem List.not_mem_nil
  once := inv.once
  asked := fun message mem id kind eq =>
    ⟨(inv.asked message mem id kind eq).1, fun _ mem => absurd mem List.not_mem_nil⟩
  answered := fun reply mem id eq => ⟨(inv.answered reply mem id eq).1, fun _ mem => absurd mem List.not_mem_nil⟩
  fits := inv.fits

/-- Each event keeps the requests consistent. -/
lemma Consistent.step (inv : s.Consistent) {event : ThreadEvent Packet} (taken : step config s event = some t) :
    t.Consistent := by
  cases event with
  | start =>
    rw [ThreadSystem.step] at taken
    split at taken
    · exact Option.some.inj taken ▸ inv
    · obtain ⟨handler, -, rfl⟩ := Option.bind_eq_some_iff.1 taken |>.imp fun _ both => both.imp_right Option.some.inj
      exact ⟨inv.issued, inv.settledIssued, inv.apart, inv.once, inv.asked, inv.answered, inv.fits⟩
  | publish packet now =>
    cases taken
    exact inv.request now fun _ => rfl
  | subscribe now =>
    cases taken
    exact inv.request now fun _ => rfl
  | getMetrics now =>
    cases taken
    exact inv.request now fun _ => rfl
  | timeout id =>
    cases taken
    exact inv.resolve fun kind _ => kind.fits_fallback
  | handle =>
    rw [ThreadSystem.step] at taken
    split at taken
    · rename_i handler message toWorker _ queued
      cases taken
      have rest : ∀ m ∈ toWorker, m.asks = none ∨ m ∈ s.toWorker :=
        fun m mem => .inr (queued ▸ List.mem_cons_of_mem _ mem)
      have dropped := inv.drop rest (List.Subset.refl _) (some (handler.onMessage message).2) s.stopping
      refine { dropped with answered := List.forall_mem_append.2 ⟨dropped.answered, fun reply mem id named => ?_⟩ }
      obtain ⟨kind, asks, fits⟩ := WorkerChannelHandler.onMessage_answers mem named
      obtain ⟨made, only⟩ := inv.asked message (queued ▸ List.mem_cons_self ..) id kind asks
      exact ⟨made, fun other mem => only other mem ▸ fits⟩
    · cases taken
  | receive =>
    rw [ThreadSystem.step] at taken
    split at taken
    · rename_i reply toMain queued
      cases taken
      have dropped := inv.drop (fun m mem => .inr mem) (fun r mem => queued ▸ List.mem_cons_of_mem reply mem) s.thread
        s.stopping
      rw [handleWorkerMessage]
      split
      · exact dropped
      · rename_i id named
        exact dropped.resolve (inv.answered reply (queued ▸ List.mem_cons_self ..) id named).2
    · cases taken
  | stop =>
    rw [ThreadSystem.step] at taken
    split at taken
    · cases taken
      refine inv.drop (List.forall_mem_append.2 ⟨fun m mem => .inr mem, ?_⟩) (List.Subset.refl _) s.thread true
      exact List.forall_mem_singleton.2 (.inl rfl)
    · exact Option.some.inj taken ▸ inv
  | exit =>
    rw [ThreadSystem.step] at taken
    split at taken
    · cases taken
      have dropped := inv.drop (fun m mem => absurd mem List.not_mem_nil) (List.Subset.refl _) none false
      by_cases stopped : s.stopping = true
      · simp only [stopped, if_true]
        exact dropped.clear false false
      · simp only [stopped]
        exact ⟨dropped.issued, dropped.settledIssued, dropped.apart, dropped.once, dropped.asked, dropped.answered,
          dropped.fits⟩
    · cases taken

/-- A request that waits no longer and has not been resolved. -/
structure Abandoned (s : ThreadSystem Packet) (id : MessageId) : Prop where
  issued : s.Issued id
  gone : id ∉ s.client.pendingRequests.keys
  unsettled : id ∉ s.settledIds

/-- No other request takes an abandoned id. -/
lemma Abandoned.request (left : s.Abandoned id) (message : MessageId → Request Packet) (now : ℕ) :
    (s.request kind message now).Abandoned id := by
  rw [ThreadSystem.request]
  split
  · refine ⟨Nat.lt_succ_of_lt left.issued, fun mem => ?_, left.unsettled⟩
    rcases Dict.mem_keys_set.1 mem with rfl | old
    · exact Nat.lt_irrefl _ left.issued
    · exact left.gone old
  · refine ⟨left.issued, left.gone, ?_⟩
    rw [settledIds_settle, Option.toList_none, List.append_nil]
    exact left.unsettled

/-- No other answer settles an abandoned id. -/
lemma Abandoned.resolve (left : s.Abandoned id) (other : MessageId) (value : RequestKind → MessageData Packet) :
    (s.resolve other value).Abandoned id := by
  rw [ThreadSystem.resolve]
  cases found : s.client.pendingRequests.get? other with
  | none => exact left
  | some kind =>
    have waits : other ∈ s.client.pendingRequests.keys := List.mem_map_of_mem (Dict.get?_eq_some found)
    refine ⟨left.issued, fun mem => left.gone (Dict.mem_keys_pop.1 mem).2, ?_⟩
    show id ∉ settledIds (settle _ _ _ _)
    rw [settledIds_settle, List.mem_append, not_or]
    exact ⟨left.unsettled, fun last => left.gone (List.mem_singleton.1 last ▸ waits)⟩

/-- An abandoned id stays so. -/
lemma Abandoned.step (left : s.Abandoned id) {event : ThreadEvent Packet} (taken : step config s event = some t) :
    t.Abandoned id := by
  cases event with
  | start =>
    rw [ThreadSystem.step] at taken
    split at taken
    · exact Option.some.inj taken ▸ left
    · obtain ⟨handler, -, rfl⟩ := Option.bind_eq_some_iff.1 taken |>.imp fun _ both => both.imp_right Option.some.inj
      exact ⟨left.issued, left.gone, left.unsettled⟩
  | publish packet now => exact Option.some.inj taken ▸ left.request _ now
  | subscribe now => exact Option.some.inj taken ▸ left.request _ now
  | getMetrics now => exact Option.some.inj taken ▸ left.request _ now
  | timeout other => exact Option.some.inj taken ▸ left.resolve other _
  | handle =>
    rw [ThreadSystem.step] at taken
    split at taken
    · exact Option.some.inj taken ▸ ⟨left.issued, left.gone, left.unsettled⟩
    · cases taken
  | receive =>
    rw [ThreadSystem.step] at taken
    split at taken
    · rename_i reply toMain queued
      have kept : { s with toMain }.Abandoned id := ⟨left.issued, left.gone, left.unsettled⟩
      rw [handleWorkerMessage] at taken
      split at taken
      · exact Option.some.inj taken ▸ kept
      · exact Option.some.inj taken ▸ kept.resolve _ _
    · cases taken
  | stop =>
    rw [ThreadSystem.step] at taken
    split at taken
    · exact Option.some.inj taken ▸ ⟨left.issued, left.gone, left.unsettled⟩
    · exact Option.some.inj taken ▸ left
  | exit =>
    rw [ThreadSystem.step] at taken
    split at taken
    · cases taken
      refine ⟨?_, ?_, left.unsettled⟩
      · unfold Issued
        split
        · exact left.issued
        · exact left.issued
      · dsimp only
        split
        · exact List.not_mem_nil
        · exact left.gone
    · cases taken

end ThreadSystem

open ThreadSystem in
/-- In every run each request is resolved at most once and with a value of its kind, `publish` never with anything but
`false`; and the requests that wait when `stop` is through are never resolved. -/
theorem requests_settle_once (config : WorkerChannelConfig) {trace : List (ThreadEvent Packet)}
    {s : ThreadSystem Packet}
    (run : exec (step config) new trace = some s) :
    s.settledIds.Nodup ∧ (∀ x ∈ s.settled, x.kind.Fits x.value) ∧
      ∀ t, s.stopping = true → step config s .exit = some t → ∀ id ∈ s.client.pendingRequests.keys,
        ∀ more u, exec (step config) t more = some u → id ∉ u.settledIds := by
  have inv : s.Consistent := exec_invariant Consistent.new (fun _ _ _ inv taken => inv.step taken) run
  refine ⟨inv.once, inv.fits, fun t stopped left id waits more u later => ?_⟩
  have gone : t.Abandoned id := by
    rw [step] at left
    split at left
    · cases left
      exact ⟨inv.issued id waits, List.not_mem_nil, inv.apart id waits⟩
    · cases left
  have kept := exec_invariant (I := fun u : ThreadSystem Packet => u.Abandoned id) gone
    (fun _ _ _ left taken => left.step taken) later
  exact kept.unsettled

open ThreadSystem in
/-- A request that is settled before the stop. -/
theorem requests_settle_once_stopped :
    ∃ s : ThreadSystem ℕ, exec (step ⟨2, 1⟩) new [.start, .publish 7 0, .handle, .receive, .stop] = some s ∧
      s.settledIds.Nodup ∧ (∀ x ∈ s.settled, x.kind.Fits x.value) ∧
        ∀ t, s.stopping = true → step ⟨2, 1⟩ s .exit = some t → ∀ id ∈ s.client.pendingRequests.keys,
          ∀ more u, exec (step ⟨2, 1⟩) t more = some u → id ∉ u.settledIds := by
  obtain ⟨s, run⟩ := Option.isSome_iff_exists.1 (show (exec (step ⟨2, 1⟩) (new : ThreadSystem ℕ)
    [.start, .publish 7 0, .handle, .receive, .stop]).isSome = true by decide +kernel)
  exact ⟨s, run, requests_settle_once ⟨2, 1⟩ run⟩

end Settlements

section Transit
variable {Packet : Type} {config : WorkerChannelConfig}

/-- The packets a value hands over. -/
def MessageData.handed : MessageData Packet → List Packet
  | .packets values => values
  | _ => []

/-- The packet a message to the worker brings. -/
def Request.brought : Request Packet → List Packet
  | .publish packet _ => [packet]
  | _ => []

/-- The packets of the calls to `publish`. -/
def ThreadEvent.published : ThreadEvent Packet → List Packet
  | .publish packet _ => [packet]
  | _ => []

/-- The packets in a buffer: what a batch of its size takes. -/
def MPSCRingBuffer.contents (r : MPSCRingBuffer Packet) : List Packet := (r.tryDequeueBatch r.size).1

namespace ThreadSystem

/-- The packets the promises of `subscribe` were resolved with, in the order they were. -/
def received (s : ThreadSystem Packet) : List Packet := s.settled.flatMap fun x => x.value.handed

/-- The packets in the buffer of the worker. -/
def buffered (s : ThreadSystem Packet) : List Packet :=
  match s.thread with
  | none => []
  | some handler => handler.channel.ringBuffer.contents

/-- The packets on their way: in replies to the client, in the buffer, in messages to the worker. -/
def inTransit (s : ThreadSystem Packet) : List Packet :=
  s.toMain.flatMap (fun reply => reply.data.handed) ++ s.buffered ++ s.toWorker.flatMap Request.brought

/-- The event loses no packet: the worker is there, its buffer has room, and the batch has a caller that waits. -/
def Lossless (s : ThreadSystem Packet) : ThreadEvent Packet → Prop
  | .publish _ _ => s.isActive
  | .handle => ∀ handler ∈ s.thread, ∀ message ∈ s.toWorker.head?, message.brought = [] ∨
      handler.running ∧ handler.channel.ringBuffer.isFull = false
  | .receive => ∀ reply ∈ s.toMain.head?, reply.data.handed = [] ∨
      ∃ id ∈ s.client.pendingRequests.keys, reply.id = some id
  | .exit => s.inTransit = []
  | _ => True

end ThreadSystem

section Buffer
variable {cap : ℕ} {queue : List Packet} {r : MPSCRingBuffer Packet}

namespace MPSCRingBuffer

/-- What the ring holds is the queue it represents. -/
lemma contents_eq (holds : Holds cap r queue) : r.contents = queue := by
  have size : r.size = queue.length := Represents.size holds
  rw [contents, (tryDequeueBatch_eq r.size holds).1, size]
  exact List.take_length

/-- A buffer that represents some queue. -/
def Sound (r : MPSCRingBuffer Packet) : Prop := ∃ cap queue, Holds cap r queue

/-- A new ring is empty. -/
lemma sound_new {capacity : ℚ} (made : new capacity = some r) : r.Sound ∧ r.contents = [] := by
  obtain ⟨size, found, same⟩ := Option.bind_eq_some_iff.1 made
  by_cases high : capacity ≤ 2 ^ 30
  · obtain ⟨k, found', -⟩ := nextPowerOf2_eq high
    obtain rfl : size = 2 ^ k := Option.some.inj (found.symm.trans found')
    have holds : Holds (2 ^ k) r [] := Option.some.inj same ▸ Represents.empty k
    exact ⟨⟨_, _, holds⟩, contents_eq holds⟩
  · rw [nextPowerOf2, nextPowerLoop_eq_none (not_le.1 high)] at found
    cases found

/-- A packet goes to the end, unless the buffer is full. -/
lemma tryEnqueue_contents (sound : r.Sound) (item : Packet) :
    (r.tryEnqueue item).2.Sound ∧
      (r.tryEnqueue item).2.contents = if r.isFull then r.contents else r.contents ++ [item] := by
  obtain ⟨cap, queue, holds⟩ := sound
  have full : r.isFull = decide (queue.length = cap) := decide_eq_decide.2 (Represents.full_iff holds)
  have bounded := holds.layout.bounded
  have next := (tryEnqueue_eq holds item).2
  refine ⟨⟨cap, _, next⟩, ?_⟩
  rw [contents_eq next, contents_eq holds, enqueue, full]
  by_cases room : queue.length < cap
  · have below : ¬queue.length = cap := Nat.ne_of_lt room
    simp [room, below]
  · have filled : queue.length = cap := by omega
    simp [filled]

/-- A batch is taken from the front. -/
lemma tryDequeueBatch_contents (sound : r.Sound) (maxItems : ℤ) :
    (r.tryDequeueBatch maxItems).2.Sound ∧
      (r.tryDequeueBatch maxItems).1 ++ (r.tryDequeueBatch maxItems).2.contents = r.contents := by
  obtain ⟨cap, queue, holds⟩ := sound
  obtain ⟨taken, next⟩ := tryDequeueBatch_eq maxItems holds
  refine ⟨⟨cap, _, next⟩, ?_⟩
  rw [taken, contents_eq next, contents_eq holds]
  exact List.take_append_drop _ _

/-- The metrics change nothing in the ring. -/
lemma getMetrics_contents (sound : r.Sound) :
    r.getMetrics.2.Sound ∧ r.getMetrics.2.contents = r.contents := by
  obtain ⟨cap, queue, holds⟩ := sound
  have next : Holds cap r.getMetrics.2 queue := holds
  exact ⟨⟨cap, queue, next⟩, (contents_eq next).trans (contents_eq holds).symm⟩

end MPSCRingBuffer

end Buffer

namespace ThreadSystem
variable {s t : ThreadSystem Packet} {id : MessageId}

/-- The buffer of the worker is sound, and a client that does not run has no worker. -/
structure Sound (s : ThreadSystem Packet) : Prop where
  buffer : ∀ handler ∈ s.thread, handler.channel.ringBuffer.Sound
  idle : s.client.running = false → s.thread = none

/-- The packets received and in transit, in their order. -/
def flow (s : ThreadSystem Packet) : List Packet := s.received ++ s.inTransit

/-- What one event does to the packets: those it publishes join the flow, and it may lose some. -/
structure Moves (s t : ThreadSystem Packet) (new : List Packet) (lossless : Prop) : Prop where
  sound : t.Sound
  ordered : t.flow.Sublist (s.flow ++ new)
  complete : lossless → t.flow = s.flow ++ new

/-- What flows is what flowed before, with what is new. -/
lemma Moves.of_eq {new : List Packet} {lossless : Prop} (sound : t.Sound) (eq : t.flow = s.flow ++ new) :
    Moves s t new lossless :=
  ⟨sound, eq ▸ List.Sublist.refl _, fun _ => eq⟩

/-- A settled poll hands out its packets. -/
lemma received_settle (s : ThreadSystem Packet) (named : Option MessageId) (kind : RequestKind)
    (value : MessageData Packet) : (s.settle named kind value).received = s.received ++ value.handed := by
  rw [received, settle, List.flatMap_append, List.flatMap_singleton]
  rfl

/-- A timeout hands out none. -/
lemma handed_fallback (kind : RequestKind) : (kind.fallback : MessageData Packet).handed = [] := by
  cases kind with
  | publish => rfl
  | subscribe => rfl
  | getMetrics => rfl

/-- A message handled: the packets of the reply, then those of the buffer. -/
lemma moves_onMessage {handler : WorkerChannelHandler Packet} (sound : handler.channel.ringBuffer.Sound)
    (message : Request Packet) :
    (handler.onMessage message).2.channel.ringBuffer.Sound ∧
      ((handler.onMessage message).1.flatMap (fun reply => reply.data.handed) ++
        (handler.onMessage message).2.channel.ringBuffer.contents).Sublist
          (handler.channel.ringBuffer.contents ++ message.brought) ∧
      (message.brought = [] ∨ handler.running ∧ handler.channel.ringBuffer.isFull = false →
        (handler.onMessage message).1.flatMap (fun reply => reply.data.handed) ++
          (handler.onMessage message).2.channel.ringBuffer.contents =
            handler.channel.ringBuffer.contents ++ message.brought) := by
  rw [WorkerChannelHandler.onMessage]
  by_cases running : handler.running = true
  · rw [if_pos running, List.flatMap_singleton]
    cases message with
    | publish packet id =>
      obtain ⟨sound', contents⟩ := MPSCRingBuffer.tryEnqueue_contents sound packet
      refine ⟨sound', ?_, ?_⟩
      · show (handler.channel.ringBuffer.tryEnqueue packet).2.contents.Sublist _
        rw [contents]
        split
        · exact List.sublist_append_left ..
        · exact List.Sublist.refl _
      · rintro (empty | ⟨-, room⟩)
        · cases empty
        · show (handler.channel.ringBuffer.tryEnqueue packet).2.contents = _
          rw [contents, room]
          rfl
    | subscribe id =>
      obtain ⟨sound', contents⟩ := MPSCRingBuffer.tryDequeueBatch_contents sound (handler.channel.requested none)
      have eq := contents.trans (List.append_nil _).symm
      exact ⟨sound', eq ▸ List.Sublist.refl _, fun _ => eq⟩
    | metrics id =>
      obtain ⟨sound', contents⟩ := MPSCRingBuffer.getMetrics_contents sound
      have eq := contents.trans (List.append_nil _).symm
      exact ⟨sound', eq ▸ List.Sublist.refl _, fun _ => eq⟩
    | shutdown =>
      have eq := (List.append_nil handler.channel.ringBuffer.contents).symm
      exact ⟨sound, eq ▸ List.Sublist.refl _, fun _ => eq⟩
  · -- after `SHUTDOWN` nothing is handled
    rw [if_neg running]
    refine ⟨sound, List.sublist_append_left .., ?_⟩
    rintro (empty | ⟨running', -⟩)
    · rw [empty, List.append_nil]
      rfl
    · exact absurd running' running

/-- The worker handles a message. -/
lemma moves_handle (sound : s.Sound) {handler : WorkerChannelHandler Packet} (thread : s.thread = some handler)
    {message : Request Packet} {toWorker : List (Request Packet)} (queued : s.toWorker = message :: toWorker) :
    Moves s
      { s with
        thread := some (handler.onMessage message).2
        toWorker
        toMain := s.toMain ++ (handler.onMessage message).1 } [] (s.Lossless .handle) := by
  obtain ⟨sound', ordered, complete⟩ := moves_onMessage (sound.buffer handler thread) message
  have before : s.flow = s.received ++ (s.toMain.flatMap (fun reply => reply.data.handed) ++
      (handler.channel.ringBuffer.contents ++ message.brought ++ toWorker.flatMap Request.brought)) := by
    simp only [flow, inTransit, buffered, thread, queued, List.flatMap_cons, List.append_assoc]
  have after : flow { s with
        thread := some (handler.onMessage message).2
        toWorker
        toMain := s.toMain ++ (handler.onMessage message).1 } =
      s.received ++ (s.toMain.flatMap (fun reply => reply.data.handed) ++
        ((handler.onMessage message).1.flatMap (fun reply => reply.data.handed) ++
          (handler.onMessage message).2.channel.ringBuffer.contents ++ toWorker.flatMap Request.brought)) := by
    simp only [flow, inTransit, buffered, List.flatMap_append, List.append_assoc]
    rfl
  refine ⟨?_, ?_, fun met => ?_⟩
  · refine ⟨fun other same => ?_, fun idle => absurd (thread.symm.trans (sound.idle idle)) (by simp)⟩
    cases same
    exact sound'
  · rw [before, after, List.append_nil]
    exact ((ordered.append_right _).append_left _).append_left _
  · rw [before, after, List.append_nil, complete (met handler thread message (queued ▸ rfl))]

/-- A call: its message joins the port to the worker, or no worker runs. -/
lemma moves_request (sound : s.Sound) (kind : RequestKind) {message : MessageId → Request Packet} {new : List Packet}
    (now : ℕ) (brought : ∀ id, (message id).brought = new) {lossless : Prop}
    (needs : lossless → new = [] ∨ s.isActive) : Moves s (s.request kind message now) new lossless := by
  rw [ThreadSystem.request]
  by_cases active : s.isActive = true
  · rw [if_pos active]
    refine Moves.of_eq ⟨sound.buffer, sound.idle⟩ ?_
    simp only [flow, received, inTransit, buffered, List.flatMap_append, List.flatMap_singleton, brought,
      List.append_assoc]
  · rw [if_neg active]
    have same : (s.settle none kind kind.fallback).flow = s.flow := by
      rw [flow, received_settle, handed_fallback, List.append_nil]
      rfl
    refine ⟨⟨sound.buffer, sound.idle⟩, same ▸ List.sublist_append_left .., fun met => ?_⟩
    rcases needs met with rfl | active'
    · rw [same, List.append_nil]
    · exact absurd active' active

/-- A resolver called: the packets of its value are received if it waits. -/
lemma flow_resolve (sound : s.Sound) (id : MessageId) (value : RequestKind → MessageData Packet) :
    (s.resolve id value).Sound ∧ (s.resolve id value).inTransit = s.inTransit ∧
      (s.resolve id value).received =
        s.received ++ ((s.client.pendingRequests.get? id).elim [] fun kind => (value kind).handed) := by
  rw [resolve]
  cases found : s.client.pendingRequests.get? id with
  | none => exact ⟨sound, rfl, (List.append_nil _).symm⟩
  | some kind => exact ⟨⟨sound.buffer, sound.idle⟩, rfl, received_settle _ _ _ _⟩

/-- A request times out. -/
lemma moves_timeout (sound : s.Sound) (id : MessageId) (lossless : Prop) :
    Moves s (s.resolve id RequestKind.fallback) [] lossless := by
  obtain ⟨sound', transit, got⟩ := flow_resolve sound id RequestKind.fallback
  refine Moves.of_eq sound' ?_
  have none : ((s.client.pendingRequests.get? id).elim [] fun kind =>
      (kind.fallback : MessageData Packet).handed) = [] := by
    cases s.client.pendingRequests.get? id with
    | none => rfl
    | some kind => exact handed_fallback kind
  rw [flow, transit, got, none, List.append_nil, List.append_nil]
  rfl

/-- A message of the worker: its packets are received if its id waits, and lost otherwise. -/
lemma moves_receive (sound : s.Sound) {reply : Reply Packet} {toMain : List (Reply Packet)}
    (queued : s.toMain = reply :: toMain) :
    Moves s ({ s with toMain }.handleWorkerMessage reply) [] (s.Lossless .receive) := by
  have before : s.flow = s.received ++ (reply.data.handed ++ { s with toMain }.inTransit) := by
    simp only [flow, inTransit, queued, List.flatMap_cons, List.append_assoc, buffered]
  have taken : { s with toMain }.Sound := ⟨sound.buffer, sound.idle⟩
  rw [handleWorkerMessage]
  cases named : reply.id with
  | none =>
    refine ⟨taken, ?_, fun met => ?_⟩
    · rw [before, List.append_nil]
      exact List.Sublist.append_left (List.sublist_append_right ..) _
    · rcases met reply (queued ▸ rfl) with empty | ⟨id, -, other⟩
      · rw [before, empty, List.append_nil]
        rfl
      · exact absurd (named.symm.trans other) (by simp)
  | some id =>
    obtain ⟨sound', transit, got⟩ := flow_resolve taken id fun _ => reply.data
    dsimp only
    cases found : s.client.pendingRequests.get? id with
    | none =>
      have after : ({ s with toMain }.resolve id fun _ => reply.data).flow =
          s.received ++ { s with toMain }.inTransit := by
        rw [flow, transit, got, found]
        exact congrArg (· ++ _) (List.append_nil _)
      refine ⟨sound', ?_, fun met => ?_⟩
      · rw [after, before, List.append_nil]
        exact List.Sublist.append_left (List.sublist_append_right ..) _
      · rcases met reply (queued ▸ rfl) with empty | ⟨other, waits, same⟩
        · rw [after, before, empty, List.append_nil]
          rfl
        · obtain rfl : id = other := Option.some.inj (named.symm.trans same)
          obtain ⟨kind, found'⟩ := Dict.mem_keys_iff.1 waits
          exact absurd (found.symm.trans found') (by simp)
    | some kind =>
      refine Moves.of_eq sound' ?_
      rw [flow, transit, got, found, before, List.append_nil]
      exact List.append_assoc ..

/-- The worker exits. -/
lemma moves_exit (client : WorkerThreadChannel) (stopping : Bool) (drained : s.toMain = []) :
    Moves s { s with client, thread := none, toWorker := [], stopping } [] (s.Lossless .exit) := by
  have after : flow { s with client, thread := none, toWorker := [], stopping } = s.received := by
    simp only [flow, inTransit, buffered, drained, List.flatMap_nil, List.append_nil]
    rfl
  refine ⟨⟨fun _ mem => absurd mem (by simp), fun _ => rfl⟩, ?_, fun met => ?_⟩
  · rw [after, List.append_nil]
    exact List.sublist_append_left ..
  · rw [after, flow, met, List.append_nil, List.append_nil]

/-- The worker is started. -/
lemma moves_start (sound : s.Sound) (idle : s.client.running = false) {handler : WorkerChannelHandler Packet}
    (made : WorkerChannelHandler.new config = some handler) (lossless : Prop) :
    Moves s { s with client := { s.client with worker := true, running := true }, thread := some handler } []
      lossless := by
  obtain ⟨channel, madeChannel, rfl⟩ :=
    Option.bind_eq_some_iff.1 made |>.imp fun _ both => both.imp_right Option.some.inj
  obtain ⟨ring, madeRing, rfl⟩ :=
    Option.bind_eq_some_iff.1 madeChannel |>.imp fun _ both => both.imp_right Option.some.inj
  obtain ⟨soundRing, empty⟩ := MPSCRingBuffer.sound_new madeRing
  refine Moves.of_eq ⟨?_, fun stopped => absurd stopped (by simp)⟩ ?_
  · rintro _ same
    cases same
    exact soundRing
  · simp only [flow, inTransit, buffered, sound.idle idle, empty, List.append_nil]
    rfl

/-- What every event does to the packets. -/
lemma moves_step (sound : s.Sound) {event : ThreadEvent Packet} (taken : step config s event = some t) :
    Moves s t event.published (s.Lossless event) := by
  cases event with
  | start =>
    rw [ThreadSystem.step] at taken
    split at taken
    · cases taken
      exact Moves.of_eq sound (List.append_nil _).symm
    · rename_i idle
      obtain ⟨handler, made, rfl⟩ := Option.bind_eq_some_iff.1 taken |>.imp fun _ both => both.imp_right Option.some.inj
      exact moves_start sound (Bool.eq_false_iff.2 idle) made _
  | publish packet now =>
    exact Option.some.inj taken ▸ moves_request sound .publish now (fun _ => rfl) fun met => .inr met
  | subscribe now => exact Option.some.inj taken ▸ moves_request sound .subscribe now (fun _ => rfl) fun _ => .inl rfl
  | getMetrics now => exact Option.some.inj taken ▸ moves_request sound .getMetrics now (fun _ => rfl) fun _ => .inl rfl
  | timeout id => exact Option.some.inj taken ▸ moves_timeout sound id _
  | handle =>
    rw [ThreadSystem.step] at taken
    split at taken
    · rename_i handler message toWorker thread queued
      exact Option.some.inj taken ▸ moves_handle sound thread queued
    · cases taken
  | receive =>
    rw [ThreadSystem.step] at taken
    split at taken
    · rename_i reply toMain queued
      exact Option.some.inj taken ▸ moves_receive sound queued
    · cases taken
  | stop =>
    rw [ThreadSystem.step] at taken
    split at taken
    · cases taken
      refine Moves.of_eq ⟨sound.buffer, sound.idle⟩ ?_
      simp only [flow, inTransit, buffered, List.flatMap_append, List.flatMap_singleton, ThreadEvent.published,
        Request.brought, List.append_nil]
      rfl
    · cases taken
      exact Moves.of_eq sound (List.append_nil _).symm
  | exit =>
    rw [ThreadSystem.step] at taken
    split at taken
    · rename_i drained
      exact Option.some.inj taken ▸ moves_exit _ false (List.isEmpty_iff.1 drained.2)
    · cases taken

end ThreadSystem

open ThreadSystem in
/-- In every run, with workers that start, stop and exit at any time, the packets the subscribers received and those in
transit are published packets, in the order of the calls to `publish` and none twice; and they are all of them where no
event of the run loses one. -/
theorem packets_in_order (config : WorkerChannelConfig) {trace : List (ThreadEvent Packet)} {s : ThreadSystem Packet}
    (run : exec (step config) new trace = some s) :
    (s.received ++ s.inTransit).Sublist (trace.flatMap ThreadEvent.published) ∧
      (Guarded (step config) Lossless new trace →
        s.received ++ s.inTransit = trace.flatMap ThreadEvent.published) := by
  suffices all : s.Sound ∧ s.flow.Sublist (trace.flatMap ThreadEvent.published) ∧
      (Guarded (step config) Lossless new trace → s.flow = trace.flatMap ThreadEvent.published) from all.2
  induction trace using List.reverseRecOn generalizing s with
  | nil =>
    cases run
    exact ⟨⟨fun _ mem => absurd mem (by simp [new]), fun _ => rfl⟩, List.Sublist.refl _, fun _ => rfl⟩
  | append_singleton trace event ih =>
    obtain ⟨u, before, last⟩ := exec_snoc.1 run
    obtain ⟨sound, ordered, complete⟩ := ih before
    have moves := moves_step sound last
    rw [List.flatMap_append, List.flatMap_singleton]
    refine ⟨moves.sound, moves.ordered.trans (ordered.append_right _), fun guarded => ?_⟩
    obtain ⟨earlier, met⟩ := guarded.of_snoc before
    rw [moves.complete met, complete earlier]

open ThreadSystem in
/-- A packet that is published, and received by a subscription. -/
theorem packets_in_order_subscribed :
    ∃ s : ThreadSystem ℕ,
      exec (step ⟨2, 1⟩) new [.start, .publish 7 0, .handle, .subscribe 1, .handle, .receive, .receive] = some s ∧
      (s.received ++ s.inTransit).Sublist [7] ∧
        (Guarded (step ⟨2, 1⟩) Lossless new [.start, .publish 7 0, .handle, .subscribe 1, .handle, .receive, .receive] →
          s.received ++ s.inTransit = [7]) := by
  obtain ⟨s, run⟩ := Option.isSome_iff_exists.1 (show (exec (step ⟨2, 1⟩) (new : ThreadSystem ℕ)
    [.start, .publish 7 0, .handle, .subscribe 1, .handle, .receive, .receive]).isSome = true by decide +kernel)
  exact ⟨s, run, packets_in_order ⟨2, 1⟩ run⟩

end Transit

end StellarFlow.Queue
