import Mathlib.Algebra.BigOperators.Group.List.Basic
import Mathlib.Algebra.GroupWithZero.Nat
import Mathlib.Algebra.Order.Ring.Rat
import Mathlib.Data.List.Perm.Basic
import Mathlib.Data.List.TakeWhile
import StellarFlow.Lib.Machine

/-!
# The Redis stream publisher

Model of `RedisStreamPublisher` in `src/ingestion/horizon_worker.py`. The calls may be made by any number of tasks; a
task runs without interruption up to its next `await` of Redis, so a step is a call up to there, the end of a
connection attempt, one `XADD`, or the end of `aclose`. The lock is only held between two such points and never
contended. An event of the stream stands for its entry, the trimming of the stream is left out. An `XADD` whose answer
is lost, or whose task is cancelled, may have been stored.
-/

namespace StellarFlow.Ingestion
open Machine

/-- The arguments of the constructor that the calls read. -/
structure PublisherConfig where
  batch_size : ℕ
  flush_interval_secs : ℚ

/-- The counters of `_stats`. -/
structure PublisherStats where
  published : ℕ
  batches : ℕ
  errors : ℕ
  connected : Bool

/-- `RedisStreamPublisher`; `redis` is whether there is a client. -/
structure RedisStreamPublisher (Event : Type) where
  redis : Bool
  pending : List Event
  closed : Bool
  last_flush : ℚ
  stats : PublisherStats

/-- What a call waits for; or it is through. -/
inductive CallPhase where
  | connecting
  | writing
  | disconnecting
  | through
  deriving DecidableEq

/-- A call to `flush`, or one to `connect`, whose batch is empty: the rest of its batch, the number published so far,
what it waits for, and whether it is the `flush` of `close`. -/
structure FlushCall (Event : Type) where
  batch : List Event
  published : ℕ
  phase : CallPhase
  closing : Bool

/-- The publisher, the calls (those that are through keep their place) and the stream. -/
structure PublisherSystem (Event : Type) where
  publisher : RedisStreamPublisher Event
  calls : List (FlushCall Event)
  stream : List Event

/-- How an `XADD` ends. -/
inductive XaddOutcome where
  | stored
  | refused
  | unanswered

/-- What can happen; `stored` is whether an `XADD` that waits for its answer has been executed. -/
inductive PublisherEvent (Event : Type) where
  | connect
  | publish (event : Event) (now : ℚ)
  | flush
  | close
  | connected (call : ℕ)
  | connectFailed (call : ℕ)
  | xadd (call : ℕ) (outcome : XaddOutcome)
  | disconnected (call : ℕ)
  | disconnectFailed (call : ℕ)
  | cancelled (call : ℕ) (stored : Bool)

variable {Event : Type}

/-- A publisher, with an injected client or without one. -/
def RedisStreamPublisher.new (client : Bool) : RedisStreamPublisher Event where
  redis := client
  pending := []
  closed := false
  last_flush := 0
  stats := { published := 0, batches := 0, errors := 0, connected := false }

namespace PublisherSystem

/-- A new publisher, no call and an empty stream. -/
def new (client : Bool) : PublisherSystem Event := { publisher := .new client, calls := [], stream := [] }

variable (s : PublisherSystem Event)

/-- A call goes on. -/
def put (i : ℕ) (call : FlushCall Event) : PublisherSystem Event := { s with calls := s.calls.set i call }

/-- `stats` with the flag of the connection. -/
def setConnected (connected : Bool) : PublisherSystem Event :=
  { s with publisher := { s.publisher with stats := { s.publisher.stats with connected } } }

/-- A call that is through with `flush`, by its return or by an exception; `close` goes on to its `finally`. -/
def leave (i : ℕ) (call : FlushCall Event) : PublisherSystem Event :=
  let left := { call with batch := [], published := 0 }
  if call.closing then
    (s.setConnected false).put i { left with phase := if s.publisher.redis then .disconnecting else .through }
  else s.put i { left with phase := .through }

/-- The end of `flush`, once the loop is through. -/
def finish (i : ℕ) (call : FlushCall Event) : PublisherSystem Event :=
  let stats := { s.publisher.stats with
    published := s.publisher.stats.published + call.published
    batches := s.publisher.stats.batches + 1 }
  { s with publisher := { s.publisher with stats } }.leave i call

/-- The `except` of the loop. -/
def countError : PublisherSystem Event :=
  { s with
    publisher := { s.publisher with stats := { s.publisher.stats with errors := s.publisher.stats.errors + 1 } } }

variable (dumps : Event → Bool)

/-- The loop of `flush` goes on with the rest of the batch, up to the `XADD`. `json.dumps` stands before the `try`, and
`dumps` is whether it takes an event: where it raises, `flush` does. -/
def proceed (i : ℕ) (call : FlushCall Event) : PublisherSystem Event :=
  match call.batch with
  | [] => s.finish i call
  | event :: _ => if dumps event then s.put i { call with phase := .writing } else s.leave i call

/-- `flush` up to its first `await`: it returns when nothing is pending, and `connect` raises when the publisher is
closed. -/
def beginFlush (closing : Bool) : PublisherSystem Event :=
  let call : FlushCall Event := { batch := s.publisher.pending, published := 0, phase := .connecting, closing }
  let entered := { s with publisher := { s.publisher with pending := [] }, calls := s.calls ++ [call] }
  if s.publisher.pending.isEmpty then entered.leave s.calls.length call
  else if s.publisher.redis then entered.proceed dumps s.calls.length call
  else if s.publisher.closed then entered.leave s.calls.length call
  else entered

/-- `publish` up to its first `await`. -/
def publish (config : PublisherConfig) (event : Event) (now : ℚ) : PublisherSystem Event :=
  if s.publisher.closed then s
  else
    let pending := s.publisher.pending ++ [event]
    let queued := { s with publisher := { s.publisher with pending } }
    if pending.length ≥ config.batch_size then queued.beginFlush dumps false
    else if config.flush_interval_secs > 0 ∧ now - s.publisher.last_flush ≥ config.flush_interval_secs then
      { queued with publisher := { queued.publisher with last_flush := now } }.beginFlush dumps false
    else queued

/-- `close` up to its first `await`. -/
def close : PublisherSystem Event :=
  { s with publisher := { s.publisher with closed := true } }.beginFlush dumps true

/-- `connect` up to its `await`. -/
def connect : PublisherSystem Event :=
  if s.publisher.redis then s.setConnected true
  else if s.publisher.closed then s
  else { s with calls := s.calls ++ [{ batch := [], published := 0, phase := .connecting, closing := false }] }

/-- The end of a `connect`, after which `flush` begins its loop. -/
def connected (i : ℕ) (call : FlushCall Event) : PublisherSystem Event :=
  let made := { s with publisher := { s.publisher with redis := true } }.setConnected true
  match call.batch with
  | [] => made.put i { call with phase := .through }
  | _ :: _ => made.proceed dumps i call

/-- A `connect` that raises, and so does the `flush` it is for. -/
def connectRaises (i : ℕ) (call : FlushCall Event) : PublisherSystem Event :=
  match call.batch with
  | [] => s.put i { call with phase := .through }
  | _ :: _ => s.leave i call

/-- One turn of the loop; without a client the attribute access raises. -/
def xadd (i : ℕ) (call : FlushCall Event) (event : Event) (rest : List Event) (outcome : XaddOutcome) :
    PublisherSystem Event :=
  if s.publisher.redis then
    match outcome with
    | .stored =>
      { s with stream := s.stream ++ [event] }.proceed dumps i
        { call with batch := rest, published := call.published + 1 }
    | .refused => s.countError.proceed dumps i { call with batch := rest }
    | .unanswered =>
      { s.countError with stream := s.stream ++ [event] }.proceed dumps i { call with batch := rest }
  else s.countError.proceed dumps i { call with batch := rest }

/-- The task of a call is cancelled at its `await`. -/
def cancel (i : ℕ) (call : FlushCall Event) (stored : Bool) : Option (PublisherSystem Event) :=
  match call.phase, call.batch with
  | .connecting, _ => some (s.connectRaises i call)
  | .writing, event :: rest =>
    if stored && s.publisher.redis then
      some ({ s with stream := s.stream ++ [event] }.leave i { call with batch := rest })
    else some (s.leave i call)
  | .disconnecting, _ => some (s.put i { call with phase := .through })
  | _, _ => none

/-- One step. -/
def step (config : PublisherConfig) (s : PublisherSystem Event) : PublisherEvent Event → Option (PublisherSystem Event)
  | .connect => some s.connect
  | .publish event now => some (s.publish dumps config event now)
  | .flush => some (s.beginFlush dumps false)
  | .close => some (s.close dumps)
  | .connected i => do
    let call ← s.calls[i]?
    if call.phase = .connecting then some (s.connected dumps i call) else none
  | .connectFailed i => do
    let call ← s.calls[i]?
    if call.phase = .connecting then some (s.connectRaises i call) else none
  | .xadd i outcome => do
    let call ← s.calls[i]?
    match call.phase, call.batch with
    | .writing, event :: rest => some (s.xadd dumps i call event rest outcome)
    | _, _ => none
  | .disconnected i => do
    let call ← s.calls[i]?
    if call.phase = .disconnecting then
      some ({ s with publisher := { s.publisher with redis := false } }.put i { call with phase := .through })
    else none
  | .disconnectFailed i => do
    let call ← s.calls[i]?
    if call.phase = .disconnecting then some (s.put i { call with phase := .through }) else none
  | .cancelled i stored => do
    let call ← s.calls[i]?
    s.cancel i call stored

end PublisherSystem

/-- Whether the step is a `close`. -/
def PublisherEvent.closes : PublisherEvent Event → Bool
  | .close => true
  | _ => false

/-- The event of a call to `publish`. -/
def PublisherEvent.published : PublisherEvent Event → List Event
  | .publish event _ => [event]
  | _ => []

/-- The events of the calls to `publish` before the first `close`: the later calls raise. -/
def accepted (trace : List (PublisherEvent Event)) : List Event :=
  (trace.takeWhile fun a => !a.closes).flatMap PublisherEvent.published

namespace PublisherSystem
variable {config : PublisherConfig} {dumps : Event → Bool} {s t u : PublisherSystem Event}

/-- The events taken from the buffer and not yet tried. -/
def inFlight (s : PublisherSystem Event) : List Event := s.calls.flatMap FlushCall.batch

/-- The events counted as published, with those of the calls under way. -/
def counted (s : PublisherSystem Event) : ℕ :=
  s.publisher.stats.published + (s.calls.map FlushCall.published).sum

/-- The events in the stream, on their way there and in the buffer. -/
def held (s : PublisherSystem Event) : List Event := s.stream ++ s.inFlight ++ s.publisher.pending

/-- No `connect` of a `flush` raises, no `flush` with events left is cancelled, and `json.dumps` takes every event. -/
def Sane (dumps : Event → Bool) (s : PublisherSystem Event) : PublisherEvent Event → Prop
  | .publish event _ => dumps event = true
  | .close => s.publisher.pending = [] ∨ s.publisher.redis = true
  | .connectFailed i | .cancelled i _ => ∀ call ∈ s.calls[i]?, call.batch = []
  | _ => True

instance [DecidableEq Event] (event : PublisherEvent Event) : Decidable (s.Sane dumps event) := by
  cases event <;> unfold Sane <;> infer_instance

/-- The call is made when no other is under way. -/
def Alone (s : PublisherSystem Event) : PublisherEvent Event → Prop
  | .publish _ _ | .flush | .close => s.inFlight = []
  | _ => True

instance [DecidableEq Event] (event : PublisherEvent Event) : Decidable (s.Alone event) := by
  cases event <;> unfold Alone <;> infer_instance

/-- All accepted events are somewhere: published, counted as errors, on their way or in the buffer. -/
def tally (s : PublisherSystem Event) : ℕ :=
  s.counted + s.publisher.stats.errors + s.inFlight.length + s.publisher.pending.length

/-- At most one call has events left. -/
def Single (s : PublisherSystem Event) : Prop := s.calls.Pairwise fun a b => a.batch = [] ∨ b.batch = []

/-- What a step does to the events, of which it accepts some. -/
structure Moves (s t : PublisherSystem Event) (joined : List Event) (sane alone : Prop) : Prop where
  kept : ∃ lost, (s.held ++ joined).Perm (t.held ++ lost) ∧
    (sane → lost.length + s.publisher.stats.errors ≤ t.publisher.stats.errors)
  counts : t.counted + s.stream.length ≤ s.counted + t.stream.length
  tallies : sane → t.tally = s.tally + joined.length
  ordered : alone → s.Single → t.Single ∧ t.held.Sublist (s.held ++ joined)

variable {joined more : List Event} {sane alone : Prop}

/-- Nothing happens. -/
lemma Moves.refl (s : PublisherSystem Event) : Moves s s [] sane alone where
  kept := ⟨[], .refl _, fun _ => by rw [List.length_nil, Nat.zero_add]⟩
  counts := Nat.le_refl _
  tallies := fun _ => rfl
  ordered := fun _ single => ⟨single, by rw [List.append_nil]⟩

/-- Less is promised under more. -/
lemma Moves.mono {sane' alone' : Prop} (moves : Moves s t joined sane alone) (sane_of : sane' → sane)
    (alone_of : alone' → alone) : Moves s t joined sane' alone' where
  kept := by
    obtain ⟨lost, perm, few⟩ := moves.kept
    exact ⟨lost, perm, fun met => few (sane_of met)⟩
  counts := moves.counts
  tallies := fun met => moves.tallies (sane_of met)
  ordered := fun met => moves.ordered (alone_of met)

/-- One thing after the other. -/
lemma Moves.trans {alone' : Prop} (first : Moves s t joined sane alone) (second : Moves t u more sane alone')
    (still : alone → alone') : Moves s u (joined ++ more) sane alone where
  kept := by
    obtain ⟨lost, perm, few⟩ := first.kept
    obtain ⟨lost', perm', few'⟩ := second.kept
    refine ⟨lost' ++ lost, ?_, fun met => ?_⟩
    · have swap : (t.held ++ lost ++ more).Perm (t.held ++ more ++ lost) := by
        rw [List.append_assoc, List.append_assoc]
        exact List.perm_append_comm.append_left _
      rw [← List.append_assoc, ← List.append_assoc]
      exact ((perm.append_right more).trans swap).trans (perm'.append_right lost)
    · have a := few met
      have b := few' met
      rw [List.length_append]
      omega
  counts := by
    have a := first.counts
    have b := second.counts
    omega
  tallies := fun met => by rw [second.tallies met, first.tallies met, List.length_append, Nat.add_assoc]
  ordered := fun met single => by
    obtain ⟨single', ordered⟩ := first.ordered met single
    obtain ⟨single'', ordered'⟩ := second.ordered (still met) single'
    rw [← List.append_assoc]
    exact ⟨single'', ordered'.trans (ordered.append_right _)⟩

/-- The calls with one replaced. -/
lemma inFlight_set {i : ℕ} {call : FlushCall Event} (found : s.calls[i]? = some call) :
    ∃ pre post, s.inFlight = pre ++ call.batch ++ post ∧ (s.Single → call.batch ≠ [] → pre = [] ∧ post = []) ∧
      ∀ call' : FlushCall Event, (s.calls.set i call').flatMap FlushCall.batch = pre ++ call'.batch ++ post ∧
        ((s.calls.set i call').map FlushCall.published).sum + call.published =
          (s.calls.map FlushCall.published).sum + call'.published ∧
        (s.Single → call.batch ≠ [] ∨ call'.batch = [] →
          (s.calls.set i call').Pairwise fun a b => a.batch = [] ∨ b.batch = []) := by
  obtain ⟨pre, post, split, set⟩ := split_set found
  refine ⟨pre.flatMap FlushCall.batch, post.flatMap FlushCall.batch, ?_, fun single busy => ?_,
    fun call' => ⟨?_, ?_, ?_⟩⟩
  · rw [inFlight, split, List.flatMap_append, List.flatMap_cons, List.append_assoc]
  · rw [Single, split, List.pairwise_append, List.pairwise_cons] at single
    obtain ⟨-, ⟨after, -⟩, before⟩ := single
    exact ⟨List.flatMap_eq_nil_iff.2 fun c mem => (before c mem call (List.mem_cons_self ..)).resolve_right busy,
      List.flatMap_eq_nil_iff.2 fun c mem => (after c mem).resolve_left busy⟩
  · rw [set, List.flatMap_append, List.flatMap_cons, List.append_assoc]
  · rw [set, split, List.map_append, List.map_append, List.map_cons, List.map_cons, List.sum_append, List.sum_append,
      List.sum_cons, List.sum_cons]
    omega
  · intro single idle
    rw [Single, split, List.pairwise_append, List.pairwise_cons] at single
    obtain ⟨left, ⟨after, right⟩, before⟩ := single
    rw [set, List.pairwise_append, List.pairwise_cons]
    refine ⟨left, ⟨fun c mem => ?_, right⟩, fun c mem d mem' => ?_⟩
    · exact idle.elim (fun busy => .inr ((after c mem).resolve_left busy)) .inl
    · rcases List.mem_cons.1 mem' with rfl | later
      · exact idle.elim (fun busy => .inl ((before c mem call (List.mem_cons_self ..)).resolve_right busy)) .inr
      · exact before c mem d (List.mem_cons_of_mem _ later)

/-- An event that joins the buffer. -/
lemma queue_moves (s : PublisherSystem Event) (event : Event) (last_flush : ℚ) :
    Moves s { s with publisher := { s.publisher with pending := s.publisher.pending ++ [event], last_flush } } [event]
      sane alone where
  kept := by
    refine ⟨[], ?_, fun _ => by rw [List.length_nil, Nat.zero_add]⟩
    rw [List.append_nil, held, List.append_assoc]
    exact .refl _
  counts := Nat.le_refl _
  tallies := fun _ => by
    simp only [tally, counted, inFlight, List.length_append]
    omega
  ordered := fun _ single => ⟨single, by
    simp only [held, inFlight, List.append_assoc]
    exact .refl _⟩

/-- A call that keeps its events and its count, which may be added to the statistics. -/
lemma same_moves {i : ℕ} {call : FlushCall Event} (found : s.calls[i]? = some call) (call' : FlushCall Event)
    (batch : call'.batch = call.batch) (calls : t.calls = s.calls.set i call') (stream : t.stream = s.stream)
    (pending : t.publisher.pending = s.publisher.pending)
    (stats : t.publisher.stats.published + call'.published = s.publisher.stats.published + call.published)
    (errors : t.publisher.stats.errors = s.publisher.stats.errors) : Moves s t [] sane alone := by
  obtain ⟨pre, post, before, -, after⟩ := inFlight_set found
  obtain ⟨flat, total, single⟩ := after call'
  have inFlight' : t.inFlight = s.inFlight := by rw [before, ← batch, inFlight, calls, flat]
  have counted' : t.counted = s.counted := by
    rw [counted, counted, calls]
    omega
  have held' : t.held = s.held := by rw [held, held, stream, inFlight', pending]
  refine ⟨⟨[], ?_, fun _ => ?_⟩, ?_, fun _ => ?_, fun _ one => ⟨?_, ?_⟩⟩
  · rw [held']
  · rw [errors, List.length_nil, Nat.zero_add]
  · rw [counted', stream]
  · rw [tally, tally, counted', errors, inFlight', pending]
    rfl
  · rw [Single, calls]
    refine single one ?_
    by_cases busy : call.batch = []
    · exact .inr (batch.trans busy)
    · exact .inl busy
  · rw [held', List.append_nil]

/-- A step that changes no event and no count. -/
lemma still_moves (calls : t.calls = s.calls) (stream : t.stream = s.stream)
    (pending : t.publisher.pending = s.publisher.pending)
    (stats : t.publisher.stats.published = s.publisher.stats.published)
    (errors : t.publisher.stats.errors = s.publisher.stats.errors) : Moves s t [] sane alone := by
  have same : Moves s s [] sane alone := .refl s
  have held' : t.held = s.held := by rw [held, held, inFlight, inFlight, calls, stream, pending]
  have counted' : t.counted = s.counted := by rw [counted, counted, calls, stats]
  refine ⟨?_, ?_, fun _ => ?_, fun met => ?_⟩
  · rw [held', errors]
    exact same.kept
  · rw [counted', stream]
  · rw [tally, tally, counted', errors, inFlight, inFlight, calls, pending]
    rfl
  · rw [held', Single, Single, calls]
    exact same.ordered met

/-- A call that gives its events up. -/
lemma drop_moves {i : ℕ} {call : FlushCall Event} (found : s.calls[i]? = some call)
    (idle : sane → call.batch = [] ∧ call.published = 0) {call' : FlushCall Event} (batch : call'.batch = [])
    (published : call'.published = 0) (calls : t.calls = s.calls.set i call') (stream : t.stream = s.stream)
    (pending : t.publisher.pending = s.publisher.pending)
    (stats : t.publisher.stats.published = s.publisher.stats.published)
    (errors : t.publisher.stats.errors = s.publisher.stats.errors) : Moves s t [] sane alone := by
  obtain ⟨pre, post, before, -, after⟩ := inFlight_set found
  obtain ⟨flat, total, single⟩ := after call'
  have inFlight' : t.inFlight = pre ++ [] ++ post := by rw [inFlight, calls, flat, batch]
  have held' : t.held = s.stream ++ (pre ++ [] ++ post) ++ s.publisher.pending := by
    rw [held, stream, inFlight', pending]
  have held₀ : s.held = s.stream ++ (pre ++ call.batch ++ post) ++ s.publisher.pending := by rw [held, before]
  have counted' : t.counted + call.published = s.counted := by
    rw [counted, counted, calls, stats]
    omega
  refine ⟨⟨call.batch, ?_, fun met => ?_⟩, ?_, fun met => ?_, fun _ one => ⟨?_, ?_⟩⟩
  · classical
    rw [held', held₀]
    refine List.perm_iff_count.2 fun e => ?_
    simp only [List.count_append, List.count_nil]
    omega
  · rw [(idle met).1, errors, List.length_nil, Nat.zero_add]
  · rw [stream]
    omega
  · obtain ⟨none, zero⟩ := idle met
    rw [tally, tally, errors, inFlight', before, pending, none, List.length_nil]
    omega
  · rw [Single, calls]
    exact single one (.inr batch)
  · rw [held', held₀, List.append_nil, List.append_nil]
    exact (((List.sublist_append_left ..).append_right _).append_left _).append_right _

/-- A call leaves, with its counts added to those of the publisher. -/
lemma leave_moves {i : ℕ} {call : FlushCall Event} (found : s.calls[i]? = some call)
    (idle : sane → call.batch = [] ∧ call.published = 0) : Moves s (s.leave i call) [] sane alone := by
  rw [leave]
  split
  · exact drop_moves found idle rfl rfl rfl rfl rfl rfl rfl
  · exact drop_moves found idle rfl rfl rfl rfl rfl rfl rfl

/-- The end of `flush` adds the count of its call to the statistics. -/
lemma finish_moves {i : ℕ} {call : FlushCall Event} (found : s.calls[i]? = some call) (empty : call.batch = []) :
    Moves s (s.finish i call) [] sane alone := by
  rw [finish, leave]
  split
  · exact same_moves found _ empty.symm rfl rfl rfl rfl rfl
  · exact same_moves found _ empty.symm rfl rfl rfl rfl rfl

/-- A call goes on to its next event, or leaves. -/
lemma proceed_moves {i : ℕ} {call : FlushCall Event} (found : s.calls[i]? = some call)
    (clean : sane → ∀ event ∈ call.batch, dumps event = true) : Moves s (s.proceed dumps i call) [] sane alone := by
  rw [proceed]
  split
  · rename_i empty
    exact finish_moves found empty
  · rename_i event rest first
    split
    · exact same_moves found { call with phase := .writing } rfl rfl rfl rfl rfl rfl
    · rename_i raises
      refine leave_moves found fun met => absurd (clean met event ?_) raises
      rw [first]
      exact List.mem_cons_self

/-- One event tried: it joins the stream (`add`) or is counted as an error (`err`). -/
lemma turn_moves {i : ℕ} {call : FlushCall Event} {event : Event} (found : s.calls[i]? = some call)
    (call' : FlushCall Event) (first : call.batch = event :: call'.batch) (calls : t.calls = s.calls.set i call')
    (pending : t.publisher.pending = s.publisher.pending)
    (published : t.publisher.stats.published = s.publisher.stats.published) {add : List Event} {err : ℕ}
    (stream : t.stream = s.stream ++ add) (errors : t.publisher.stats.errors = s.publisher.stats.errors + err)
    (ends : add = [event] ∨ add = [] ∧ err = 1) (count : sane → call'.published + err = call.published + 1)
    (honest : call'.published ≤ call.published + add.length) :
    Moves s t [] sane alone := by
  obtain ⟨pre, post, before, alone, after⟩ := inFlight_set found
  obtain ⟨flat, total, single⟩ := after call'
  have inFlight' : t.inFlight = pre ++ call'.batch ++ post := by rw [inFlight, calls, flat]
  have held' : t.held = s.stream ++ add ++ (pre ++ call'.batch ++ post) ++ s.publisher.pending := by
    rw [held, stream, inFlight', pending]
  have held₀ : s.held = s.stream ++ (pre ++ event :: call'.batch ++ post) ++ s.publisher.pending := by
    rw [held, before, first]
  have counted' : t.counted + call.published = s.counted + call'.published := by
    rw [counted, counted, calls, published]
    omega
  refine ⟨?_, ?_, fun met => ?_, fun _ one => ⟨?_, ?_⟩⟩
  · classical
    rw [List.append_nil, held', held₀, errors]
    rcases ends with rfl | ⟨rfl, rfl⟩
    · refine ⟨[], List.perm_iff_count.2 fun e => ?_, fun _ => by rw [List.length_nil]; omega⟩
      simp only [List.count_append, List.count_cons, List.count_nil]
      omega
    · refine ⟨[event], List.perm_iff_count.2 fun e => ?_, fun _ => by rw [List.length_singleton]; omega⟩
      simp only [List.count_append, List.count_cons, List.count_nil]
      omega
  · rw [stream, List.length_append]
    omega
  · have one := count met
    rw [tally, tally, errors, inFlight', before, pending, first]
    simp only [List.length_append, List.length_cons, List.length_nil]
    omega
  · rw [Single, calls]
    exact single one (.inl (by rw [first]; simp))
  · -- no other call has events left, so the event goes from the front of what is in flight to the end of the stream
    obtain ⟨rfl, rfl⟩ := alone one (by rw [first]; simp)
    rw [List.append_nil, held', held₀]
    rcases ends with rfl | ⟨rfl, -⟩
    · simp only [List.nil_append, List.append_nil, List.append_assoc, List.cons_append]
      exact .refl _
    · simp only [List.nil_append, List.append_nil]
      exact ((List.sublist_cons_self event _).append_left _).append_right _

/-- What replaces a call twice. -/
lemma put_put (s : PublisherSystem Event) (i : ℕ) (call call' : FlushCall Event) :
    (s.put i call).put i call' = s.put i call' := by
  rw [put, put, put, List.set_set]

/-- Leaving forgets what was put there. -/
lemma leave_put (s : PublisherSystem Event) (i : ℕ) (call : FlushCall Event) :
    (s.put i call).leave i call = s.leave i call := by
  rw [leave, leave]
  split
  · exact put_put (s.setConnected false) i call _
  · exact put_put s i call _

/-- Going on forgets what was put there. -/
lemma proceed_put (s : PublisherSystem Event) (i : ℕ) (call : FlushCall Event) :
    (s.put i call).proceed dumps i call = s.proceed dumps i call := by
  rw [proceed, proceed]
  split
  · exact leave_put { s with publisher := { s.publisher with stats := { s.publisher.stats with
      published := s.publisher.stats.published + call.published, batches := s.publisher.stats.batches + 1 } } } i call
  · split
    · exact put_put s i call _
    · exact leave_put s i call

/-- The call that has been put there. -/
lemma found_put {v : PublisherSystem Event} {i : ℕ} {call : FlushCall Event} (found : s.calls[i]? = some call)
    (calls : v.calls = s.calls) (call' : FlushCall Event) : (v.put i call').calls[i]? = some call' := by
  obtain ⟨lt, -⟩ := List.getElem?_eq_some_iff.1 found
  rw [put, calls]
  exact List.getElem?_set_self lt

/-- An answer to `xadd` counts its event, or loses it where that is told. -/
lemma xadd_moves {i : ℕ} {call : FlushCall Event} {event : Event} {rest : List Event} (found : s.calls[i]? = some call)
    (first : call.batch = event :: rest) (clean : sane → ∀ event ∈ call.batch, dumps event = true)
    (outcome : XaddOutcome) : Moves s (s.xadd dumps i call event rest outcome) [] sane alone := by
  have clean' : sane → ∀ event ∈ rest, dumps event = true := fun met e mem =>
    clean met e (first ▸ List.mem_cons_of_mem _ mem)
  have refused : Moves s (s.countError.proceed dumps i { call with batch := rest }) [] sane alone := by
    rw [← proceed_put]
    have tried : Moves s (s.countError.put i { call with batch := rest }) [] sane alone :=
      turn_moves found { call with batch := rest } first rfl rfl rfl (List.append_nil _).symm rfl (.inr ⟨rfl, rfl⟩)
        (fun _ => rfl) (Nat.le_refl _)
    exact tried.trans (proceed_moves (found_put found rfl _) clean') id
  rw [xadd.eq_def]
  split
  · cases outcome with
    | stored =>
      have added : s.stream ++ [event] = s.stream ++ [event] := rfl
      have none : s.publisher.stats.errors = s.publisher.stats.errors + 0 := rfl
      have tried : Moves s ({ s with stream := s.stream ++ [event] }.put i
          { call with batch := rest, published := call.published + 1 }) [] sane alone :=
        turn_moves found _ first rfl rfl rfl added none (.inl rfl) (fun _ => rfl) (Nat.le_refl _)
      dsimp only
      rw [← proceed_put]
      exact tried.trans (proceed_moves (found_put found rfl _) clean') id
    | refused => exact refused
    | unanswered =>
      have added : s.stream ++ [event] = s.stream ++ [event] := rfl
      have tried : Moves s ({ s.countError with stream := s.stream ++ [event] }.put i { call with batch := rest }) []
          sane alone :=
        turn_moves found _ first rfl rfl rfl added rfl (.inl rfl) (fun _ => rfl) (Nat.le_succ _)
      dsimp only
      rw [← proceed_put]
      exact tried.trans (proceed_moves (found_put found rfl _) clean') id
  · exact refused

/-- A `connect` that raises loses a batch that was not empty. -/
lemma connectRaises_moves {i : ℕ} {call : FlushCall Event} (found : s.calls[i]? = some call)
    (idle : sane → call.batch = []) : Moves s (s.connectRaises i call) [] sane alone := by
  rw [connectRaises]
  split
  · exact same_moves found { call with phase := .through } rfl rfl rfl rfl rfl rfl
  · rename_i event rest first
    exact leave_moves found fun met => absurd (first.symm.trans (idle met)) (by simp)

/-- A client is there, and the batch is sent. -/
lemma connected_moves {i : ℕ} {call : FlushCall Event} (found : s.calls[i]? = some call)
    (clean : sane → ∀ event ∈ call.batch, dumps event = true) : Moves s (s.connected dumps i call) [] sane alone := by
  have made : Moves s ({ s with publisher := { s.publisher with redis := true } }.setConnected true) [] sane alone :=
    still_moves rfl rfl rfl rfl rfl
  rw [connected]
  split
  · exact same_moves found { call with phase := .through } rfl rfl rfl rfl rfl rfl
  · exact made.trans (proceed_moves found clean) id

/-- A call that is cancelled loses its batch. -/
lemma cancel_moves {i : ℕ} {call : FlushCall Event} (found : s.calls[i]? = some call) (idle : sane → call.batch = [])
    {stored : Bool} (cancelled : s.cancel i call stored = some t) : Moves s t [] sane alone := by
  rw [cancel.eq_def] at cancelled
  split at cancelled
  · exact Option.some.inj cancelled ▸ connectRaises_moves found idle
  · rename_i event rest _ first
    have busy : ¬sane := fun met => absurd (first.symm.trans (idle met)) (by simp)
    split at cancelled
    · have added : s.stream ++ [event] = s.stream ++ [event] := rfl
      have none : s.publisher.stats.errors = s.publisher.stats.errors + 0 := rfl
      have tried : Moves s ({ s with stream := s.stream ++ [event] }.put i { call with batch := rest }) [] sane alone :=
        turn_moves found _ first rfl rfl rfl added none (.inl rfl) (fun met => absurd met busy) (Nat.le_succ _)
      rw [← Option.some.inj cancelled, ← leave_put]
      exact tried.trans (leave_moves (found_put found rfl _) fun met => absurd met busy) id
    · exact Option.some.inj cancelled ▸ leave_moves found fun met => absurd met busy
  · cases cancelled
    exact same_moves found { call with phase := .through } rfl rfl rfl rfl rfl rfl
  · cases cancelled

/-- What is pending becomes the batch of a call. -/
lemma enter_moves (s : PublisherSystem Event) (closing : Bool) (phase : CallPhase) :
    Moves s { s with
      publisher := { s.publisher with pending := [] }
      calls := s.calls ++ [{ batch := s.publisher.pending, published := 0, phase, closing }] } [] sane
      (s.inFlight = []) := by
  let call : FlushCall Event := { batch := s.publisher.pending, published := 0, phase, closing }
  let t := { s with publisher := { s.publisher with pending := [] }, calls := s.calls ++ [call] }
  have held' : t.held = s.held := by
    simp only [held, inFlight, t, call, List.flatMap_append, List.flatMap_singleton, List.append_nil, List.append_assoc]
  refine ⟨⟨[], ?_, fun _ => by rw [List.length_nil, Nat.zero_add]⟩, ?_, fun _ => ?_, fun empty _ => ⟨?_, ?_⟩⟩
  · rw [List.append_nil, List.append_nil, held']
  · simp only [counted, List.map_append, List.sum_append, List.map_singleton, List.sum_singleton]
    exact Nat.le_refl _
  · simp only [tally, counted, inFlight, List.map_append, List.sum_append, List.map_singleton, List.sum_singleton,
      List.flatMap_append, List.flatMap_singleton, List.length_append, List.length_nil]
    omega
  · have idle := List.flatMap_eq_nil_iff.1 empty
    refine List.pairwise_append.2 ⟨?_, List.pairwise_singleton .., fun c mem _ _ => .inl (idle c mem)⟩
    exact List.pairwise_of_forall_mem_list fun c mem _ _ => .inl (idle c mem)
  · rw [held', List.append_nil]

/-- A flush takes what is pending. -/
lemma beginFlush_moves (s : PublisherSystem Event) (closing : Bool)
    (open' : sane → s.publisher.pending = [] ∨ s.publisher.redis = true ∨ s.publisher.closed = false)
    (clean : sane → ∀ event ∈ s.publisher.pending, dumps event = true) :
    Moves s (s.beginFlush dumps closing) [] sane (s.inFlight = []) := by
  have entered := @enter_moves Event sane s closing .connecting
  have found : (s.calls ++ [(⟨s.publisher.pending, 0, .connecting, closing⟩ : FlushCall Event)])[s.calls.length]? =
      some ⟨s.publisher.pending, 0, .connecting, closing⟩ := List.getElem?_concat_length
  rw [beginFlush]
  split
  · rename_i empty
    exact entered.trans (leave_moves found fun _ => ⟨List.isEmpty_iff.1 empty, rfl⟩) fun _ => trivial
  · rename_i busy
    split
    · exact entered.trans (proceed_moves found clean) fun _ => trivial
    · rename_i clientless
      split
      · -- `connect` raises, and the batch is lost
        rename_i closed
        refine entered.trans (leave_moves found fun met => ?_) fun _ => trivial
        rcases open' met with empty | client | opened
        · exact absurd (List.isEmpty_iff.2 empty) busy
        · exact absurd client clientless
        · exact absurd (closed.symm.trans opened) (by decide)
      · exact entered

/-- A connection touches no event. -/
lemma connect_moves (s : PublisherSystem Event) : Moves s s.connect [] sane alone := by
  rw [connect]
  split
  · exact still_moves rfl rfl rfl rfl rfl
  · split
    · exact .refl s
    · have held' : held { s with calls := s.calls ++ [⟨[], 0, .connecting, false⟩] } = s.held := by
        simp only [held, inFlight, List.flatMap_append, List.flatMap_singleton, List.append_nil]
      refine ⟨⟨[], ?_, fun _ => by rw [List.length_nil, Nat.zero_add]⟩, ?_, fun _ => ?_, fun _ single => ⟨?_, ?_⟩⟩
      · rw [held']
      · simp only [counted, List.map_append, List.sum_append, List.map_singleton, List.sum_singleton]
        exact Nat.le_refl _
      · simp only [tally, counted, inFlight, List.map_append, List.sum_append, List.map_singleton, List.sum_singleton,
          List.flatMap_append, List.flatMap_singleton, List.length_append, List.length_nil]
        omega
      · refine List.pairwise_append.2 ⟨single, List.pairwise_singleton .., fun _ _ c mem => .inr ?_⟩
        rw [List.mem_singleton.1 mem]
      · rw [held', List.append_nil]

/-- The events a step accepts. -/
def takes (s : PublisherSystem Event) (event : PublisherEvent Event) : List Event :=
  if s.publisher.closed then [] else event.published

/-- Only `publish` brings an event. -/
lemma takes_of_silent {event : PublisherEvent Event} (silent : event.published = []) : s.takes event = [] := by
  rw [takes, silent, ite_self]

/-- The steps of the system, case by case. -/
inductive Step (dumps : Event → Bool) (config : PublisherConfig) (s : PublisherSystem Event) :
    PublisherEvent Event → PublisherSystem Event → Prop where
  | connect : Step dumps config s .connect s.connect
  | publish (event : Event) (now : ℚ) : Step dumps config s (.publish event now) (s.publish dumps config event now)
  | flush : Step dumps config s .flush (s.beginFlush dumps false)
  | close : Step dumps config s .close (s.close dumps)
  | connected {i : ℕ} {call : FlushCall Event} (found : s.calls[i]? = some call) :
      Step dumps config s (.connected i) (s.connected dumps i call)
  | connectFailed {i : ℕ} {call : FlushCall Event} (found : s.calls[i]? = some call) :
      Step dumps config s (.connectFailed i) (s.connectRaises i call)
  | xadd {i : ℕ} {call : FlushCall Event} {event : Event} {rest : List Event} (found : s.calls[i]? = some call)
      (first : call.batch = event :: rest) (outcome : XaddOutcome) :
      Step dumps config s (.xadd i outcome) (s.xadd dumps i call event rest outcome)
  | disconnected {i : ℕ} {call : FlushCall Event} (found : s.calls[i]? = some call) :
      Step dumps config s (.disconnected i)
        ({ s with publisher := { s.publisher with redis := false } }.put i { call with phase := .through })
  | disconnectFailed {i : ℕ} {call : FlushCall Event} (found : s.calls[i]? = some call) :
      Step dumps config s (.disconnectFailed i) (s.put i { call with phase := .through })
  | cancelled {i : ℕ} {call : FlushCall Event} {stored : Bool} {t : PublisherSystem Event}
      (found : s.calls[i]? = some call) (cancelled : s.cancel i call stored = some t) :
      Step dumps config s (.cancelled i stored) t

/-- Each step of the model is one of those named. -/
lemma step_cases {event : PublisherEvent Event} (taken : step dumps config s event = some t) :
    Step dumps config s event t := by
  cases event with
  | connect => exact Option.some.inj taken ▸ .connect
  | publish event now => exact Option.some.inj taken ▸ .publish event now
  | flush => exact Option.some.inj taken ▸ .flush
  | close => exact Option.some.inj taken ▸ .close
  | connected i =>
    obtain ⟨call, found, made⟩ := Option.bind_eq_some_iff.1 taken
    split at made
    · exact Option.some.inj made ▸ .connected found
    · cases made
  | connectFailed i =>
    obtain ⟨call, found, made⟩ := Option.bind_eq_some_iff.1 taken
    split at made
    · exact Option.some.inj made ▸ .connectFailed found
    · cases made
  | xadd i outcome =>
    obtain ⟨call, found, made⟩ := Option.bind_eq_some_iff.1 taken
    split at made
    · rename_i first
      exact Option.some.inj made ▸ .xadd found first outcome
    · cases made
  | disconnected i =>
    obtain ⟨call, found, made⟩ := Option.bind_eq_some_iff.1 taken
    split at made
    · exact Option.some.inj made ▸ .disconnected found
    · cases made
  | disconnectFailed i =>
    obtain ⟨call, found, made⟩ := Option.bind_eq_some_iff.1 taken
    split at made
    · exact Option.some.inj made ▸ .disconnectFailed found
    · cases made
  | cancelled i stored =>
    obtain ⟨call, found, made⟩ := Option.bind_eq_some_iff.1 taken
    exact .cancelled found made

/-- A closed publisher has nothing pending. -/
def Emptied (s : PublisherSystem Event) : Prop := s.publisher.closed = true → s.publisher.pending = []

/-- `json.dumps` takes all events on their way and in the buffer. -/
def Clean (dumps : Event → Bool) (s : PublisherSystem Event) : Prop :=
  ∀ event ∈ s.inFlight ++ s.publisher.pending, dumps event = true

/-- Where all is clean, a batch is. -/
lemma Clean.batch (clean : s.Clean dumps) {i : ℕ} {call : FlushCall Event} (found : s.calls[i]? = some call) :
    ∀ event ∈ call.batch, dumps event = true := fun event mem =>
  clean event (List.mem_append_left _ (List.mem_flatMap.2 ⟨call, List.mem_of_getElem? found, mem⟩))

/-- Each step moves the events as told. -/
lemma step_moves (emptied : s.Emptied) {event : PublisherEvent Event} (met : sane → s.Sane dumps event)
    (clean : sane → s.Clean dumps) (taken : Step dumps config s event t) :
    Moves s t (s.takes event) sane (s.Alone event) := by
  have open' : s.publisher.pending = [] ∨ s.publisher.redis = true ∨ s.publisher.closed = false := by
    by_cases closed : s.publisher.closed = true
    · exact .inl (emptied closed)
    · exact .inr (.inr (Bool.eq_false_iff.2 closed))
  have waiting : sane → ∀ e ∈ s.publisher.pending, dumps e = true := fun holds e mem =>
    clean holds e (List.mem_append_right _ mem)
  cases taken with
  | connect =>
    rw [takes_of_silent rfl]
    exact connect_moves s
  | publish event now =>
    rw [publish, takes]
    by_cases closed : s.publisher.closed = true
    · rw [if_pos closed, if_pos closed]
      exact Moves.refl s
    · rw [if_neg closed, if_neg closed]
      dsimp only
      have opened := Bool.eq_false_iff.2 closed
      have all : sane → ∀ e ∈ s.publisher.pending ++ [event], dumps e = true := by
        intro holds e mem
        obtain old | new := List.mem_append.1 mem
        · exact waiting holds e old
        · exact List.mem_singleton.1 new ▸ met holds
      split
      · exact (queue_moves s event s.publisher.last_flush).trans
          (beginFlush_moves _ false (fun _ => .inr (.inr opened)) all) id
      · split
        · exact (queue_moves s event now).trans (beginFlush_moves _ false (fun _ => .inr (.inr opened)) all) id
        · exact queue_moves s event s.publisher.last_flush
  | flush =>
    rw [takes_of_silent rfl]
    exact beginFlush_moves s false (fun _ => open') waiting
  | close =>
    rw [takes_of_silent rfl]
    have shut : Moves s { s with publisher := { s.publisher with closed := true } } [] sane
        (s.Alone .close) := still_moves rfl rfl rfl rfl rfl
    exact shut.trans (beginFlush_moves _ true (fun holds => Or.imp_right .inl (met holds)) waiting) id
  | connected found =>
    rw [takes_of_silent rfl]
    exact connected_moves found fun holds => (clean holds).batch found
  | connectFailed found =>
    rw [takes_of_silent rfl]
    exact connectRaises_moves found fun holds => met holds _ found
  | xadd found first outcome =>
    rw [takes_of_silent rfl]
    exact xadd_moves found first (fun holds => (clean holds).batch found) outcome
  | @disconnected i call found =>
    rw [takes_of_silent rfl]
    exact same_moves found { call with phase := .through } rfl rfl rfl rfl rfl rfl
  | @disconnectFailed i call found =>
    rw [takes_of_silent rfl]
    exact same_moves found { call with phase := .through } rfl rfl rfl rfl rfl rfl
  | cancelled found cancelled =>
    rw [takes_of_silent rfl]
    exact cancel_moves found (fun holds => met holds _ found) cancelled

/-- Whether the publisher is closed and what is pending stay the same. -/
def Stays (s t : PublisherSystem Event) : Prop :=
  t.publisher.closed = s.publisher.closed ∧ t.publisher.pending = s.publisher.pending

/-- A call that leaves changes nothing in the buffer. -/
lemma leave_stays (s : PublisherSystem Event) (i : ℕ) (call : FlushCall Event) : s.Stays (s.leave i call) := by
  rw [leave]
  split
  · exact ⟨rfl, rfl⟩
  · exact ⟨rfl, rfl⟩

/-- A call that goes on changes nothing in the buffer. -/
lemma proceed_stays (s : PublisherSystem Event) (i : ℕ) (call : FlushCall Event) :
    s.Stays (s.proceed dumps i call) := by
  rw [proceed]
  split
  · exact leave_stays _ i call
  · split
    · exact ⟨rfl, rfl⟩
    · exact leave_stays s i call

/-- A call that cannot connect changes nothing in the buffer. -/
lemma connectRaises_stays (s : PublisherSystem Event) (i : ℕ) (call : FlushCall Event) :
    s.Stays (s.connectRaises i call) := by
  rw [connectRaises]
  split
  · exact ⟨rfl, rfl⟩
  · exact leave_stays s i call

/-- A call that has connected changes nothing in the buffer. -/
lemma connected_stays (s : PublisherSystem Event) (i : ℕ) (call : FlushCall Event) :
    s.Stays (s.connected dumps i call) := by
  rw [connected]
  split
  · exact ⟨rfl, rfl⟩
  · exact proceed_stays _ i call

/-- An answer to `xadd` changes nothing in the buffer. -/
lemma xadd_stays (s : PublisherSystem Event) (i : ℕ) (call : FlushCall Event) (event : Event) (rest : List Event)
    (outcome : XaddOutcome) : s.Stays (s.xadd dumps i call event rest outcome) := by
  rw [xadd.eq_def]
  split
  · cases outcome with
    | stored => exact proceed_stays _ i _
    | refused => exact proceed_stays _ i _
    | unanswered => exact proceed_stays _ i _
  · exact proceed_stays _ i _

/-- A call that is cancelled changes nothing in the buffer. -/
lemma cancel_stays {i : ℕ} {call : FlushCall Event} {stored : Bool} (cancelled : s.cancel i call stored = some t) :
    s.Stays t := by
  rw [cancel.eq_def] at cancelled
  split at cancelled
  · exact Option.some.inj cancelled ▸ connectRaises_stays s i call
  · split at cancelled
    · exact Option.some.inj cancelled ▸ leave_stays _ i _
    · exact Option.some.inj cancelled ▸ leave_stays s i call
  · cases cancelled
    exact ⟨rfl, rfl⟩
  · cases cancelled

/-- A flush empties the buffer, and closes nothing. -/
lemma beginFlush_closed (s : PublisherSystem Event) (closing : Bool) :
    (s.beginFlush dumps closing).publisher.closed = s.publisher.closed ∧
      (s.beginFlush dumps closing).publisher.pending = [] := by
  rw [beginFlush]
  split
  · exact leave_stays _ _ _
  · split
    · exact proceed_stays _ _ _
    · split
      · exact leave_stays _ _ _
      · exact ⟨rfl, rfl⟩

/-- Only `close` closes, and what is pending then is taken. -/
lemma closed_step {event : PublisherEvent Event} (emptied : s.Emptied) (taken : Step dumps config s event t) :
    t.Emptied ∧ t.publisher.closed = (s.publisher.closed || event.closes) := by
  have same : s.Stays t → t.Emptied ∧ t.publisher.closed = (s.publisher.closed || false) := by
    rintro ⟨closed, pending⟩
    rw [Emptied, closed, pending, Bool.or_false]
    exact ⟨emptied, rfl⟩
  cases taken with
  | connect =>
    refine same ?_
    rw [connect]
    split
    · exact ⟨rfl, rfl⟩
    · split
      · exact ⟨rfl, rfl⟩
      · exact ⟨rfl, rfl⟩
  | publish event now =>
    rw [publish] at same ⊢
    by_cases closed : s.publisher.closed = true
    · rw [if_pos closed]
      exact ⟨emptied, (Bool.or_false _).symm⟩
    · have flushed : ∀ v : PublisherSystem Event, v.publisher.closed = s.publisher.closed →
          (v.beginFlush dumps false).Emptied ∧
            (v.beginFlush dumps false).publisher.closed = (s.publisher.closed || false) := by
        intro v eq
        obtain ⟨closed', pending'⟩ := @beginFlush_closed Event dumps v false
        exact ⟨fun _ => pending', (closed'.trans eq).trans (Bool.or_false _).symm⟩
      rw [if_neg closed]
      dsimp only
      split
      · exact flushed _ rfl
      · split
        · exact flushed _ rfl
        · exact ⟨fun closed' => absurd closed' closed, (Bool.or_false _).symm⟩
  | flush =>
    obtain ⟨closed, pending⟩ := @beginFlush_closed Event dumps s false
    exact ⟨fun _ => pending, closed.trans (Bool.or_false _).symm⟩
  | close =>
    obtain ⟨closed, pending⟩ :=
      @beginFlush_closed Event dumps { s with publisher := { s.publisher with closed := true } } true
    exact ⟨fun _ => pending, closed.trans (Bool.or_true _).symm⟩
  | connected found => exact same (connected_stays s _ _)
  | connectFailed found => exact same (connectRaises_stays s _ _)
  | xadd found first outcome => exact same (xadd_stays s _ _ _ _ outcome)
  | disconnected found => exact same ⟨rfl, rfl⟩
  | disconnectFailed found => exact same ⟨rfl, rfl⟩
  | cancelled found cancelled => exact same (cancel_stays cancelled)

/-- One more event is accepted where the publisher is open. -/
lemma accepted_snoc {trace : List (PublisherEvent Event)}
    (closed : s.publisher.closed = trace.any PublisherEvent.closes)
    (event : PublisherEvent Event) : accepted (trace ++ [event]) = accepted trace ++ s.takes event := by
  rw [accepted, accepted, takes, closed]
  by_cases shut : trace.any PublisherEvent.closes = true
  · have short : ¬(trace.takeWhile fun a => !a.closes).length = trace.length := by
      intro whole
      have all : ∀ a ∈ trace, (!a.closes) = true :=
        List.takeWhile_eq_self_iff.1 ((List.takeWhile_prefix _).eq_of_length whole)
      obtain ⟨a, mem, closes⟩ := List.any_eq_true.1 shut
      exact absurd (all a mem) (by rw [closes]; decide)
    rw [if_pos shut, List.takeWhile_append, if_neg short, List.append_nil]
  · have all : ∀ a ∈ trace, (!a.closes) = true := by
      intro a mem
      rw [Bool.not_eq_true']
      exact Bool.eq_false_iff.2 fun closes => shut (List.any_eq_true.2 ⟨a, mem, closes⟩)
    rw [if_neg shut, List.takeWhile_append_of_pos all, List.takeWhile_eq_self_iff.2 all, List.flatMap_append]
    cases event with
    | publish event now => rfl
    | _ => rfl

/-- What a step accepts where the events can be written. -/
lemma dumps_of_takes {event : PublisherEvent Event} (met : s.Sane dumps event) :
    ∀ e ∈ s.takes event, dumps e = true := by
  intro e mem
  rw [takes] at mem
  split at mem
  · cases mem
  · cases event with
    | publish event now => exact List.mem_singleton.1 mem ▸ met
    | _ => cases mem

variable {client : Bool}

/-- The steps of a run put together. -/
lemma run_moves {trace : List (PublisherEvent Event)} (run : exec (step dumps config) (new client) trace = some s) :
    s.Emptied ∧ s.publisher.closed = trace.any PublisherEvent.closes ∧
      (Guarded (step dumps config) (Sane dumps) (new client) trace → ∀ e ∈ accepted trace, dumps e = true) ∧
      Moves (new client) s (accepted trace) (Guarded (step dumps config) (Sane dumps) (new client) trace)
        (Guarded (step dumps config) Alone (new client) trace) := by
  induction trace using List.reverseRecOn generalizing s with
  | nil =>
    cases run
    exact ⟨fun _ => rfl, rfl, nofun, Moves.refl (new client)⟩
  | append_singleton trace event ih =>
    obtain ⟨u, before, last⟩ := exec_snoc.1 run
    obtain ⟨emptied, closed, written, moves⟩ := ih before
    obtain ⟨emptied', closed'⟩ := closed_step emptied (step_cases last)
    have sane := fun met : Guarded (step dumps config) (Sane dumps) (new client) (trace ++ [event]) =>
      met.of_snoc before
    have alone := fun met : Guarded (step dumps config) Alone (new client) (trace ++ [event]) => met.of_snoc before
    have clean : Guarded (step dumps config) (Sane dumps) (new client) (trace ++ [event]) → u.Clean dumps := by
      intro met e mem
      obtain ⟨lost, perm, -⟩ := moves.kept
      refine written (sane met).1 e (perm.mem_iff.2 (List.mem_append_left _ ?_))
      rw [held, List.append_assoc]
      exact List.mem_append_right _ mem
    rw [accepted_snoc closed]
    refine ⟨emptied', ?_, fun met e mem => ?_, ?_⟩
    · rw [closed', closed, List.any_append, List.any_cons, List.any_nil, Bool.or_false]
    · obtain old | new := List.mem_append.1 mem
      · exact written (sane met).1 e old
      · exact dumps_of_takes (sane met).2 e new
    · have weaker : Moves (new client) u (accepted trace)
          (Guarded (step dumps config) (Sane dumps) (new client) (trace ++ [event]))
          (Guarded (step dumps config) Alone (new client) (trace ++ [event])) :=
        moves.mono (fun met => (sane met).1) fun met => (alone met).1
      have one := step_moves emptied (fun met => (sane met).2) clean (step_cases last)
      exact weaker.trans one fun met => (alone met).2

end PublisherSystem

open PublisherSystem in
/-- In every run, with an injected client or without one and however the calls interleave, the accepted events are those
in the stream, in flight, in the buffer and some that were lost. What is counted as published is in the stream. Where no
`connect` of a `flush` raises, no `flush` with events left is cancelled and `json.dumps` takes every event, an event is
only lost with an error, and the counters and what is left account for every accepted event. Where each call is made
when no other is under way, the stream has the events in the order they were published. -/
theorem publisher_conserves (dumps : Event → Bool) (config : PublisherConfig) (client : Bool)
    {trace : List (PublisherEvent Event)} {s : PublisherSystem Event}
    (run : exec (step dumps config) (new client) trace = some s) :
    s.counted ≤ s.stream.length ∧
      (∃ lost, (accepted trace).Perm (s.stream ++ s.inFlight ++ s.publisher.pending ++ lost) ∧
        (Guarded (step dumps config) (Sane dumps) (new client) trace → lost.length ≤ s.publisher.stats.errors ∧
          (accepted trace).length =
            s.counted + s.publisher.stats.errors + s.inFlight.length + s.publisher.pending.length)) ∧
      (Guarded (step dumps config) Alone (new client) trace →
        (s.stream ++ s.inFlight ++ s.publisher.pending).Sublist (accepted trace)) := by
  obtain ⟨-, -, -, moves⟩ := run_moves run
  obtain ⟨lost, perm, few⟩ := moves.kept
  have counts := moves.counts
  refine ⟨counts.trans (Nat.le_of_eq (Nat.zero_add _)), ⟨lost, perm, fun met => ⟨few met, ?_⟩⟩, fun met => ?_⟩
  · have tally := moves.tallies met
    exact (tally.trans (Nat.zero_add _)).symm
  · exact (moves.ordered met List.Pairwise.nil).2

/-- A publisher that connects, fills a batch, of which Redis refuses one event, and is closed with an event pending. -/
def closedTrace : List (PublisherEvent ℕ) :=
  [.connect, .connected 0, .publish 3 1, .publish 4 1, .xadd 1 .stored, .xadd 1 .refused, .publish 5 2, .close,
    .xadd 2 .stored, .disconnected 2]

open PublisherSystem in
/-- The run of `closedTrace`: one event is lost, with one error, and the order is kept. -/
theorem publisher_conserves_closed :
    ∃ s : PublisherSystem ℕ, exec (step (fun _ => true) ⟨2, 0⟩) (new false) closedTrace = some s ∧
      s.counted ≤ s.stream.length ∧
      (∃ lost, [3, 4, 5].Perm (s.stream ++ s.inFlight ++ s.publisher.pending ++ lost) ∧
        lost.length ≤ s.publisher.stats.errors ∧
          3 = s.counted + s.publisher.stats.errors + s.inFlight.length + s.publisher.pending.length) ∧
      (s.stream ++ s.inFlight ++ s.publisher.pending).Sublist [3, 4, 5] := by
  obtain ⟨s, run⟩ := Option.isSome_iff_exists.1
    (show (exec (step (fun _ => true) ⟨2, 0⟩) (new false) closedTrace).isSome = true by decide +kernel)
  obtain ⟨counted, ⟨lost, perm, sane⟩, ordered⟩ := publisher_conserves (fun _ => true) ⟨2, 0⟩ false run
  exact ⟨s, run, counted, ⟨lost, perm, sane (by decide +kernel)⟩, ordered (by decide +kernel)⟩

end StellarFlow.Ingestion
