import StellarFlow.Lib.Machine

/-!
# The bounded queue with waiting producers and consumers

Model of `AsyncBoundedQueue` in `src/flow_control/backpressure.ts`, before it is closed. A waiting producer is the item
that its callback will push, a waiting consumer a name; `received` is not part of the code: what the callbacks of
consumers were called with.

`tryGet` calls a waiting producer when it has made room, `get` does not. So no wake-up is lost as long as no `get` is
made while producers wait.
-/

namespace StellarFlow.Queue
variable {α γ : Type}

structure AsyncBoundedQueue (α γ : Type) where
  queue : List α
  waitingConsumers : List γ
  waitingProducers : List α
  received : List (γ × Option α)
  deriving DecidableEq

namespace AsyncBoundedQueue

def empty : AsyncBoundedQueue α γ := ⟨[], [], [], []⟩

/-- `consumer(this.queue.shift()!)` for the first waiting consumer, if there is one. -/
def handOver (q : AsyncBoundedQueue α γ) : Option (AsyncBoundedQueue α γ) :=
  match q.waitingConsumers with
  | [] => none
  | consumer :: waitingConsumers =>
    some { q with
      queue := q.queue.tail
      waitingConsumers := waitingConsumers
      received := q.received ++ [(consumer, q.queue.head?)] }

variable (maxSize : ℕ)

/-- `notifyProducer` with these waiting producers; the callback pushes its item and calls `notifyConsumer`, which calls
`notifyProducer` again when it has handed an item over. -/
def notifyProducers (waitingProducers : List α) (q : AsyncBoundedQueue α γ) : AsyncBoundedQueue α γ :=
  match waitingProducers with
  | [] => { q with waitingProducers := [] }
  | item :: waitingProducers =>
    if q.queue.length < maxSize then
      let pushed := { q with queue := q.queue ++ [item], waitingProducers := waitingProducers }
      match pushed.handOver with
      | none => pushed
      | some q => notifyProducers waitingProducers q
    else { q with waitingProducers := item :: waitingProducers }

def notifyProducer (q : AsyncBoundedQueue α γ) : AsyncBoundedQueue α γ := notifyProducers maxSize q.waitingProducers q

def notifyConsumer (q : AsyncBoundedQueue α γ) : AsyncBoundedQueue α γ :=
  match q.handOver with
  | none => q
  | some q => q.notifyProducer maxSize

/-- `put`, whose promise stays open where the item waits. -/
def put (q : AsyncBoundedQueue α γ) (item : α) : AsyncBoundedQueue α γ :=
  if q.queue.length < maxSize then notifyConsumer maxSize { q with queue := q.queue ++ [item] }
  else { q with waitingProducers := q.waitingProducers ++ [item] }

/-- `tryPut` and its answer. -/
def tryPut (q : AsyncBoundedQueue α γ) (item : α) : Bool × AsyncBoundedQueue α γ :=
  if maxSize ≤ q.queue.length then (false, q)
  else (true, notifyConsumer maxSize { q with queue := q.queue ++ [item] })

/-- `get`; no answer where the consumer waits. -/
def get (q : AsyncBoundedQueue α γ) (consumer : γ) : Option α × AsyncBoundedQueue α γ :=
  match q.queue with
  | item :: queue => (some item, { q with queue := queue })
  | [] => (none, { q with waitingConsumers := q.waitingConsumers ++ [consumer] })

/-- `tryGet` and its answer. -/
def tryGet (q : AsyncBoundedQueue α γ) : Option α × AsyncBoundedQueue α γ :=
  match q.queue with
  | item :: queue => (some item, notifyProducer maxSize { q with queue := queue })
  | [] => (none, q)

inductive Call (α γ : Type) where
  | put (item : α)
  | tryPut (item : α)
  | get (consumer : γ)
  | tryGet

def apply (q : AsyncBoundedQueue α γ) : Call α γ → AsyncBoundedQueue α γ
  | .put item => q.put maxSize item
  | .tryPut item => (q.tryPut maxSize item).2
  | .get consumer => (q.get consumer).2
  | .tryGet => (q.tryGet maxSize).2

def step (q : AsyncBoundedQueue α γ) (call : Call α γ) : Option (AsyncBoundedQueue α γ) := some (q.apply maxSize call)

/-- No lost wake-ups: the bound, no producer waits beside free space, and no consumer beside an item. -/
structure Awake (q : AsyncBoundedQueue α γ) : Prop where
  bounded : q.queue.length ≤ maxSize
  producers : q.waitingProducers ≠ [] → maxSize ≤ q.queue.length
  consumers : q.waitingConsumers ≠ [] → q.queue = []

/-- The call is not a `get` beside waiting producers. -/
def wakes (q : AsyncBoundedQueue α γ) : Call α γ → Bool
  | .get _ => q.waitingProducers.isEmpty
  | _ => true

variable {maxSize} {q : AsyncBoundedQueue α γ} {item : α}

/-- A push into free space: a waiting consumer takes the item, as the queue was empty. -/
lemma Awake.push (awake : q.Awake maxSize) (room : q.queue.length < maxSize) :
    (notifyConsumer maxSize { q with queue := q.queue ++ [item] }).Awake maxSize := by
  have free : q.waitingProducers = [] := by
    by_contra waiting
    exact absurd room (Nat.not_lt.2 (awake.producers waiting))
  obtain ⟨queue, waitingConsumers, waitingProducers, received⟩ := q
  cases free
  cases waitingConsumers with
  | nil =>
    refine ⟨?_, fun waiting => absurd rfl waiting, fun waiting => absurd rfl waiting⟩
    change (queue ++ [item]).length ≤ maxSize
    rw [List.length_append]
    exact room
  | cons consumer waitingConsumers =>
    -- the item is handed over at once
    cases awake.consumers (List.cons_ne_nil _ _)
    exact ⟨Nat.zero_le _, fun waiting => absurd rfl waiting, fun _ => rfl⟩

/-- A `put` leaves no one asleep who could go on. -/
lemma Awake.put (awake : q.Awake maxSize) : (q.put maxSize item).Awake maxSize := by
  rw [AsyncBoundedQueue.put]
  split
  case isTrue room => exact awake.push room
  case isFalse full => exact ⟨awake.bounded, fun _ => Nat.not_lt.1 full, awake.consumers⟩

/-- A `tryPut` leaves no one asleep who could go on. -/
lemma Awake.tryPut (awake : q.Awake maxSize) : (q.tryPut maxSize item).2.Awake maxSize := by
  rw [AsyncBoundedQueue.tryPut]
  split
  case isTrue => exact awake
  case isFalse room => exact awake.push (Nat.not_le.1 room)

/-- The room that is made goes to the first waiting producer; no consumer waits, as there was an item. -/
lemma Awake.tryGet (awake : q.Awake maxSize) : (q.tryGet maxSize).2.Awake maxSize := by
  obtain ⟨queue, waitingConsumers, waitingProducers, received⟩ := q
  cases queue with
  | nil => exact awake
  | cons item queue =>
    have none : waitingConsumers = [] := by
      by_contra waiting
      cases awake.consumers waiting
    subst none
    cases waitingProducers with
    | nil =>
      exact ⟨Nat.le_of_succ_le awake.bounded, fun waiting => absurd rfl waiting, fun waiting => absurd rfl waiting⟩
    | cons item' waitingProducers =>
      have full : maxSize ≤ queue.length + 1 := awake.producers (List.cons_ne_nil _ _)
      have woken : (AsyncBoundedQueue.tryGet maxSize ⟨item :: queue, [], item' :: waitingProducers, received⟩).2 =
          (⟨queue ++ [item'], [], waitingProducers, received⟩ : AsyncBoundedQueue α γ) := if_pos awake.bounded
      rw [woken]
      refine ⟨?_, fun _ => ?_, fun waiting => absurd rfl waiting⟩
      · rw [List.length_append]
        exact awake.bounded
      · rw [List.length_append]
        exact full

/-- A `get` keeps the property exactly where no producer waits. -/
lemma Awake.get_iff (pos : 1 ≤ maxSize) (awake : q.Awake maxSize) (consumer : γ) :
    (q.get consumer).2.Awake maxSize ↔ q.waitingProducers = [] := by
  obtain ⟨queue, waitingConsumers, waitingProducers, received⟩ := q
  cases queue with
  | nil =>
    refine ⟨fun _ => ?_, fun _ => ⟨awake.bounded, awake.producers, fun _ => rfl⟩⟩
    -- producers wait beside a full queue, and this one is empty
    by_contra waiting
    exact absurd (awake.producers waiting) (Nat.not_le.2 pos)
  | cons item queue =>
    constructor
    · intro woken
      -- the item is gone and the producers still wait
      by_contra waiting
      exact absurd (woken.producers waiting) (Nat.not_le.2 awake.bounded)
    · intro free
      refine ⟨Nat.le_of_succ_le awake.bounded, fun waiting => absurd free waiting, fun waiting => ?_⟩
      cases awake.consumers waiting

/-- A call leaves no one asleep just where it wakes whom it should. -/
lemma Awake.apply_iff (pos : 1 ≤ maxSize) (awake : q.Awake maxSize) (call : Call α γ) :
    (q.apply maxSize call).Awake maxSize ↔ q.wakes call = true := by
  cases call with
  | put item => exact iff_of_true awake.put rfl
  | tryPut item => exact iff_of_true awake.tryPut rfl
  | get consumer => exact (awake.get_iff pos consumer).trans List.isEmpty_iff.symm
  | tryGet => exact iff_of_true awake.tryGet rfl

/-- A run loses no wake-up if and only if it makes no `get` while producers wait. -/
theorem awake_iff (pos : 1 ≤ maxSize) (trace : List (Call α γ)) :
    Machine.Always (step maxSize) (Awake maxSize) (empty : AsyncBoundedQueue α γ) trace ↔
      Machine.Guarded (step maxSize) (fun q call => q.wakes call = true) (empty : AsyncBoundedQueue α γ) trace := by
  have init : (empty : AsyncBoundedQueue α γ).Awake maxSize :=
    ⟨Nat.zero_le _, fun waiting => absurd rfl waiting, fun _ => rfl⟩
  refine Machine.always_iff_guarded (I := fun _ => True) trivial init (fun _ _ _ _ _ _ => trivial) ?_
    (Machine.exec_total (apply maxSize) empty trace)
  intro q call q' _ awake taken
  obtain rfl := Option.some.inj taken
  exact awake.apply_iff pos call

/-- A full queue of one item with a waiting producer, from which a `tryGet` takes. -/
theorem awake_iff_sample :
    Machine.Always (step 1) (Awake 1) (empty : AsyncBoundedQueue ℕ ℕ) [.put 5, .put 6, .tryGet] :=
  (awake_iff (Nat.le_refl 1) _).2 (by decide)

/-- A `get` in its place leaves the producer waiting beside an empty queue. -/
theorem wakeup_lost :
    ¬Machine.Always (step 1) (Awake 1) (empty : AsyncBoundedQueue ℕ ℕ) [.put 5, .put 6, .get 0] := by
  intro always
  have awake := always [.put 5, .put 6, .get 0] ⟨[], [], [6], []⟩ (List.prefix_refl _) rfl
  exact absurd (awake.producers (List.cons_ne_nil _ _)) (by decide)

end AsyncBoundedQueue
end StellarFlow.Queue
