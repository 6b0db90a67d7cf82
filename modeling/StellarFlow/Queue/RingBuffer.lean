import Mathlib.Algebra.Order.Ring.Rat
import Mathlib.Algebra.Order.Field.Rat
import Mathlib.Tactic.Linarith
import Mathlib.Tactic.NormNum
import StellarFlow.Lib.BoundedQueue
import StellarFlow.Lib.Machine
import StellarFlow.Queue.PowerOfTwo

/-!
# The lock-free ring buffers

Model of `LockFreeRingBuffer` and `MPSCRingBuffer` in `src/queue/lockFreeRingBuffer.ts`. Items are
neither `null` nor `undefined`, so a slot is an `Option`: `none` is `undefined` in the first class and
`null` in the second. The positions are `bigint`s that only grow; the slot of a position is its value
under the mask. The two classes name the positions the other way round: `head` is the write position of
the first and the read position of the second. Latency samples are left out.

Both classes answer every sequence of calls as the bounded FIFO queue does
(`ringBuffers_eq_boundedQueue`).
-/

namespace StellarFlow.Queue
open BoundedQueue Machine

/-- `RingBufferMetrics`, as far as the queue operations set it. -/
structure RingBufferMetrics where
  size : ℤ
  utilization : ℚ
  totalEnqueued : ℕ
  totalDequeued : ℕ
  enqueueFailures : ℕ
  dequeueFailures : ℕ
  batchesProcessed : ℕ

/-- The metrics of a new buffer. -/
def RingBufferMetrics.zero : RingBufferMetrics := ⟨0, 0, 0, 0, 0, 0, 0⟩

/-- `LockFreeRingBuffer`. -/
structure LockFreeRingBuffer (T : Type) where
  buffer : List (Option T)
  capacity : ℕ
  mask : ℕ
  head : ℕ
  tail : ℕ
  metrics : RingBufferMetrics

namespace LockFreeRingBuffer
variable {T : Type}

/-- The constructor of `LockFreeRingBuffer`. -/
def new (capacity : ℚ) : Option (LockFreeRingBuffer T) := do
  let capacity ← nextPowerOf2 capacity
  return { buffer := List.replicate capacity none, capacity, mask := capacity - 1, head := 0, tail := 0,
           metrics := .zero }

variable (r : LockFreeRingBuffer T)

/-- `LockFreeRingBuffer.size`. -/
def size : ℤ := (r.head : ℤ) - r.tail

/-- `LockFreeRingBuffer.isEmpty`. -/
def isEmpty : Bool := r.head = r.tail

/-- `LockFreeRingBuffer.isFull`. -/
def isFull : Bool := (r.head : ℤ) - r.tail ≥ r.capacity

/-- The size and utilization recomputed after a change. -/
def measured : LockFreeRingBuffer T :=
  { r with metrics := { r.metrics with size := r.size, utilization := r.size / r.capacity } }

/-- `LockFreeRingBuffer.tryEnqueue`. -/
def tryEnqueue (item : T) : Bool × LockFreeRingBuffer T :=
  if (r.head : ℤ) - r.tail ≥ r.capacity then
    (false, { r with metrics := { r.metrics with enqueueFailures := r.metrics.enqueueFailures + 1 } })
  else
    let index := r.head &&& r.mask
    (true, measured { r with
      buffer := r.buffer.set index (some item)
      head := r.head + 1
      metrics := { r.metrics with totalEnqueued := r.metrics.totalEnqueued + 1 } })

/-- `LockFreeRingBuffer.tryDequeue`. -/
def tryDequeue : Option T × LockFreeRingBuffer T :=
  if r.tail ≥ r.head then
    (none, { r with metrics := { r.metrics with dequeueFailures := r.metrics.dequeueFailures + 1 } })
  else
    let index := r.tail &&& r.mask
    let item := (r.buffer[index]?).getD none
    (item, measured { r with
      buffer := r.buffer.set index none
      tail := r.tail + 1
      metrics := { r.metrics with totalDequeued := r.metrics.totalDequeued + 1 } })

end LockFreeRingBuffer

/-- `MPSCRingBuffer`. -/
structure MPSCRingBuffer (T : Type) where
  buffer : List (Option T)
  capacity : ℕ
  mask : ℕ
  head : ℕ
  tail : ℕ
  metrics : RingBufferMetrics

namespace MPSCRingBuffer
variable {T : Type}

/-- The constructor of `MPSCRingBuffer`. -/
def new (capacity : ℚ) : Option (MPSCRingBuffer T) := do
  let capacity ← nextPowerOf2 capacity
  return { buffer := List.replicate capacity none, capacity, mask := capacity - 1, head := 0, tail := 0,
           metrics := .zero }

variable (r : MPSCRingBuffer T)

/-- `MPSCRingBuffer.size`. -/
def size : ℤ := (r.tail : ℤ) - r.head

/-- `MPSCRingBuffer.isEmpty`. -/
def isEmpty : Bool := r.head = r.tail

/-- `MPSCRingBuffer.isFull`. -/
def isFull : Bool := (r.tail : ℤ) - r.head ≥ r.capacity

/-- The size and utilization recomputed after a change. -/
def measured : MPSCRingBuffer T :=
  { r with metrics := { r.metrics with size := r.size, utilization := r.size / r.capacity } }

/-- One more failed `tryEnqueue`. -/
def enqueueFailed : Bool × MPSCRingBuffer T :=
  (false, { r with metrics := { r.metrics with enqueueFailures := r.metrics.enqueueFailures + 1 } })

/-- One more failed `tryDequeue`. -/
def dequeueFailed : Option T × MPSCRingBuffer T :=
  (none, { r with metrics := { r.metrics with dequeueFailures := r.metrics.dequeueFailures + 1 } })

/-- `MPSCRingBuffer.tryEnqueue`, with its check that the slot is `null`. -/
def tryEnqueue (item : T) : Bool × MPSCRingBuffer T :=
  if (r.tail : ℤ) - r.head ≥ r.capacity then r.enqueueFailed
  else
    let index := r.tail &&& r.mask
    if ((r.buffer[index]?).getD none).isSome then r.enqueueFailed
    else
      (true, measured { r with
        buffer := r.buffer.set index (some item)
        tail := r.tail + 1
        metrics := { r.metrics with totalEnqueued := r.metrics.totalEnqueued + 1 } })

/-- `MPSCRingBuffer.tryDequeue`. -/
def tryDequeue : Option T × MPSCRingBuffer T :=
  if r.head ≥ r.tail then r.dequeueFailed
  else
    let index := r.head &&& r.mask
    match (r.buffer[index]?).getD none with
    | none => r.dequeueFailed
    | some item =>
      (some item, measured { r with
        buffer := r.buffer.set index none
        head := r.head + 1
        metrics := { r.metrics with totalDequeued := r.metrics.totalDequeued + 1 } })

/-- The loop of `tryDequeueBatch`. -/
def dequeueLoop : ℕ → MPSCRingBuffer T → List T × MPSCRingBuffer T
  | 0, r => ([], r)
  | n + 1, r =>
    match r.tryDequeue with
    | (none, r) => ([], r)
    | (some item, r) =>
      let (items, r) := dequeueLoop n r
      (item :: items, r)

/-- `MPSCRingBuffer.tryDequeueBatch`. -/
def tryDequeueBatch (maxItems : ℤ) : List T × MPSCRingBuffer T :=
  let (items, r) := dequeueLoop maxItems.toNat r
  if items.length > 0 then
    (items, { r with metrics := { r.metrics with batchesProcessed := r.metrics.batchesProcessed + 1 } })
  else (items, r)

end MPSCRingBuffer

/-- A call on a ring buffer. -/
inductive QueueCall (T : Type) where
  | tryEnqueue (item : T)
  | tryDequeue
  | size
  | isEmpty
  | isFull

/-- A call on the ring buffer that also has batches. -/
inductive BatchCall (T : Type) where
  | one (call : QueueCall T)
  | tryDequeueBatch (maxItems : ℤ)

/-- What a call returns. -/
inductive QueueAnswer (T : Type) where
  | accepted (done : Bool)
  | item (value : Option T)
  | items (values : List T)
  | count (n : ℤ)
  | flag (holds : Bool)
  deriving DecidableEq

section Calls
variable {T : Type}

/-- The calls on a `LockFreeRingBuffer`. -/
def LockFreeRingBuffer.call (r : LockFreeRingBuffer T) : QueueCall T → QueueAnswer T × LockFreeRingBuffer T
  | .tryEnqueue item => ((r.tryEnqueue item).map .accepted id)
  | .tryDequeue => (r.tryDequeue.map .item id)
  | .size => (.count r.size, r)
  | .isEmpty => (.flag r.isEmpty, r)
  | .isFull => (.flag r.isFull, r)

/-- The calls on an `MPSCRingBuffer`. -/
def MPSCRingBuffer.call (r : MPSCRingBuffer T) : BatchCall T → QueueAnswer T × MPSCRingBuffer T
  | .one (.tryEnqueue item) => ((r.tryEnqueue item).map .accepted id)
  | .one .tryDequeue => (r.tryDequeue.map .item id)
  | .one .size => (.count r.size, r)
  | .one .isEmpty => (.flag r.isEmpty, r)
  | .one .isFull => (.flag r.isFull, r)
  | .tryDequeueBatch maxItems => ((r.tryDequeueBatch maxItems).map .items id)

/-- The same calls on a FIFO queue bounded by `cap`. -/
def fifo (cap : ℕ) (queue : List T) : QueueCall T → QueueAnswer T × List T
  | .tryEnqueue item => ((enqueue cap queue item).map .accepted id)
  | .tryDequeue => ((dequeue queue).map .item id)
  | .size => (.count queue.length, queue)
  | .isEmpty => (.flag queue.isEmpty, queue)
  | .isFull => (.flag (decide (queue.length = cap)), queue)

/-- The FIFO queue with batches. -/
def fifoBatch (cap : ℕ) (queue : List T) : BatchCall T → QueueAnswer T × List T
  | .one call => fifo cap queue call
  | .tryDequeueBatch maxItems => ((dequeueMany queue maxItems.toNat).map .items id)

end Calls

section Refinement
variable {T : Type} {cap : ℕ} {queue : List T}

/-- A ring of `cap` slots with its read and write positions holds a queue. -/
structure Represents (cap capacity mask read write : ℕ) (buffer : List (Option T)) (queue : List T) :
    Prop where
  capacity : capacity = cap
  masked : ∀ position, position &&& mask = position % cap
  write : write = read + queue.length
  layout : Circular cap buffer read queue

namespace Represents
variable {capacity mask read write : ℕ} {buffer : List (Option T)}

/-- Empty slots represent an empty queue. -/
lemma empty (k : ℕ) :
    Represents (2 ^ k) (2 ^ k) (2 ^ k - 1) 0 0 (List.replicate (2 ^ k) none) ([] : List T) where
  capacity := rfl
  masked := fun position => Nat.and_two_pow_sub_one_eq_mod position k
  write := rfl
  layout := Circular.empty _

/-- The positions differ by the length of the queue. -/
lemma size (rep : Represents cap capacity mask read write buffer queue) :
    (write : ℤ) - read = queue.length := by
  rw [rep.write]
  push_cast
  exact add_sub_cancel_left _ _

/-- The buffer is full where the queue is. -/
lemma full_iff (rep : Represents cap capacity mask read write buffer queue) :
    (write : ℤ) - read ≥ capacity ↔ queue.length = cap := by
  have bounded := rep.layout.bounded
  rw [rep.size, rep.capacity]
  omega

/-- The buffer is empty where the queue is. -/
lemma empty_iff (rep : Represents cap capacity mask read write buffer queue) :
    decide (read = write) = queue.isEmpty := by
  rw [rep.write]
  cases queue with
  | nil => exact decide_eq_true rfl
  | cons item queue =>
    apply decide_eq_false
    rw [List.length_cons]
    omega

/-- While the queue is not full its next slot is free. -/
lemma next_slot_free (rep : Represents cap capacity mask read write buffer queue)
    (room : queue.length < cap) : buffer[write &&& mask]? = some none := by
  rw [rep.masked, rep.write, rep.layout.cells queue.length room, List.getElem?_eq_none (Nat.le_refl _)]

/-- A slot is written behind the last one. -/
lemma push (rep : Represents cap capacity mask read write buffer queue) (room : queue.length < cap)
    (item : T) :
    Represents cap capacity mask read (write + 1) (buffer.set (write &&& mask) (some item))
      (queue ++ [item]) where
  capacity := rep.capacity
  masked := rep.masked
  write := by rw [rep.write, List.length_append, List.length_singleton, Nat.add_assoc]
  layout := by
    rw [rep.masked, rep.write]
    exact rep.layout.push room item

variable {item : T}

/-- The read position of an empty queue has caught up. -/
lemma drained (rep : Represents cap capacity mask read write buffer ([] : List T)) : write ≤ read :=
  le_of_eq rep.write

/-- The read position has the oldest item. -/
lemma front (rep : Represents cap capacity mask read write buffer (item :: queue)) :
    read < write ∧ buffer[read &&& mask]? = some (some item) := by
  have pos : 0 < cap := Nat.zero_lt_of_lt (Nat.lt_of_succ_le rep.layout.bounded)
  refine ⟨?_, ?_⟩
  · rw [rep.write, List.length_cons]
    omega
  · rw [rep.masked]
    exact rep.layout.cells 0 pos

/-- The first slot is read and emptied. -/
lemma pop (rep : Represents cap capacity mask read write buffer (item :: queue)) :
    Represents cap capacity mask (read + 1) write (buffer.set (read &&& mask) none) queue where
  capacity := rep.capacity
  masked := rep.masked
  write := by
    rw [rep.write, List.length_cons]
    omega
  layout := by
    rw [rep.masked]
    exact rep.layout.pop

end Represents

namespace LockFreeRingBuffer
variable {r : LockFreeRingBuffer T}

/-- The buffer holds a queue; `tail` is the read position. -/
def Holds (cap : ℕ) (r : LockFreeRingBuffer T) (queue : List T) : Prop :=
  Represents cap r.capacity r.mask r.tail r.head r.buffer queue

/-- `tryEnqueue` of the first ring answers as the queue does. -/
lemma tryEnqueue_eq (holds : Holds cap r queue) (item : T) :
    (r.tryEnqueue item).1 = (enqueue cap queue item).1 ∧
      Holds cap (r.tryEnqueue item).2 (enqueue cap queue item).2 := by
  have bounded := holds.layout.bounded
  rw [tryEnqueue, enqueue]
  by_cases room : queue.length < cap
  · rw [if_pos room, if_neg (fun full => Nat.ne_of_lt room (holds.full_iff.mp full))]
    exact ⟨rfl, holds.push room item⟩
  · rw [if_neg room, if_pos (holds.full_iff.mpr (by omega))]
    exact ⟨rfl, holds⟩

/-- `tryDequeue` of the first ring answers as the queue does. -/
lemma tryDequeue_eq (holds : Holds cap r queue) :
    r.tryDequeue.1 = (dequeue queue).1 ∧ Holds cap r.tryDequeue.2 (dequeue queue).2 := by
  rw [tryDequeue, dequeue]
  cases queue with
  | nil =>
    rw [if_pos holds.drained]
    exact ⟨rfl, holds⟩
  | cons item queue =>
    obtain ⟨lt, slot⟩ := holds.front
    rw [if_neg (Nat.not_le.mpr lt)]
    refine ⟨?_, holds.pop⟩
    show (r.buffer[r.tail &&& r.mask]?).getD none = some item
    rw [slot]
    rfl

/-- Each call of the first ring answers as the queue does. -/
lemma call_eq (r : LockFreeRingBuffer T) (queue : List T) (call : QueueCall T) (holds : Holds cap r queue) :
    (r.call call).1 = (fifo cap queue call).1 ∧ Holds cap (r.call call).2 (fifo cap queue call).2 := by
  cases call with
  | tryEnqueue item =>
    obtain ⟨same, holds'⟩ := tryEnqueue_eq holds item
    exact ⟨congrArg QueueAnswer.accepted same, holds'⟩
  | tryDequeue =>
    obtain ⟨same, holds'⟩ := tryDequeue_eq holds
    exact ⟨congrArg QueueAnswer.item same, holds'⟩
  | size => exact ⟨congrArg QueueAnswer.count holds.size, holds⟩
  | isEmpty =>
    refine ⟨congrArg QueueAnswer.flag ?_, holds⟩
    rw [← holds.empty_iff, isEmpty, decide_eq_decide]
    exact eq_comm
  | isFull => exact ⟨congrArg QueueAnswer.flag (decide_eq_decide.mpr holds.full_iff), holds⟩

end LockFreeRingBuffer

namespace MPSCRingBuffer
variable {r : MPSCRingBuffer T}

/-- The buffer holds a queue; `head` is the read position. -/
def Holds (cap : ℕ) (r : MPSCRingBuffer T) (queue : List T) : Prop :=
  Represents cap r.capacity r.mask r.head r.tail r.buffer queue

/-- `tryEnqueue` of the second ring answers as the queue does. -/
lemma tryEnqueue_eq (holds : Holds cap r queue) (item : T) :
    (r.tryEnqueue item).1 = (enqueue cap queue item).1 ∧
      Holds cap (r.tryEnqueue item).2 (enqueue cap queue item).2 := by
  have bounded := holds.layout.bounded
  rw [tryEnqueue, enqueue]
  by_cases room : queue.length < cap
  · -- the check of the slot never rejects
    rw [if_pos room, if_neg (fun full => Nat.ne_of_lt room (holds.full_iff.mp full))]
    simp only [holds.next_slot_free room, Option.getD_some, Option.isSome_none, Bool.false_eq_true, if_false]
    exact ⟨trivial, holds.push room item⟩
  · rw [if_neg room, if_pos (holds.full_iff.mpr (by omega))]
    exact ⟨rfl, holds⟩

/-- `tryDequeue` of the second ring answers as the queue does. -/
lemma tryDequeue_eq (holds : Holds cap r queue) :
    r.tryDequeue.1 = (dequeue queue).1 ∧ Holds cap r.tryDequeue.2 (dequeue queue).2 := by
  rw [tryDequeue, dequeue]
  cases queue with
  | nil =>
    rw [if_pos holds.drained]
    exact ⟨rfl, holds⟩
  | cons item queue =>
    obtain ⟨lt, slot⟩ := holds.front
    rw [if_neg (Nat.not_le.mpr lt)]
    simp only [slot, Option.getD_some]
    exact ⟨rfl, holds.pop⟩

/-- The loop of a batch takes items off the queue one by one. -/
lemma dequeueLoop_eq (n : ℕ) (holds : Holds cap r queue) :
    (dequeueLoop n r).1 = (dequeueMany queue n).1 ∧ Holds cap (dequeueLoop n r).2 (dequeueMany queue n).2 := by
  induction n generalizing r queue with
  | zero => exact ⟨rfl, holds⟩
  | succ n ih =>
    obtain ⟨first, next⟩ := tryDequeue_eq holds
    rw [dequeueLoop]
    rcases eq : r.tryDequeue with ⟨value, r'⟩
    rw [eq] at first next
    cases queue with
    | nil =>
      cases first
      exact ⟨rfl, next⟩
    | cons item queue =>
      cases first
      obtain ⟨same, holds'⟩ := ih next
      exact ⟨congrArg (item :: ·) same, holds'⟩

/-- A batch answers as the queue does. -/
lemma tryDequeueBatch_eq (maxItems : ℤ) (holds : Holds cap r queue) :
    (r.tryDequeueBatch maxItems).1 = (dequeueMany queue maxItems.toNat).1 ∧
      Holds cap (r.tryDequeueBatch maxItems).2 (dequeueMany queue maxItems.toNat).2 := by
  obtain ⟨same, holds'⟩ := dequeueLoop_eq maxItems.toNat holds
  rcases eq : dequeueLoop maxItems.toNat r with ⟨items, r'⟩
  rw [eq] at same holds'
  simp only [tryDequeueBatch, eq]
  split
  · exact ⟨same, holds'⟩
  · exact ⟨same, holds'⟩

/-- Each call of the second ring answers as the queue does. -/
lemma call_eq (r : MPSCRingBuffer T) (queue : List T) (call : BatchCall T) (holds : Holds cap r queue) :
    (r.call call).1 = (fifoBatch cap queue call).1 ∧ Holds cap (r.call call).2 (fifoBatch cap queue call).2 := by
  cases call with
  | tryDequeueBatch maxItems =>
    obtain ⟨same, holds'⟩ := tryDequeueBatch_eq maxItems holds
    exact ⟨congrArg QueueAnswer.items same, holds'⟩
  | one call =>
    cases call with
    | tryEnqueue item =>
      obtain ⟨same, holds'⟩ := tryEnqueue_eq holds item
      exact ⟨congrArg QueueAnswer.accepted same, holds'⟩
    | tryDequeue =>
      obtain ⟨same, holds'⟩ := tryDequeue_eq holds
      exact ⟨congrArg QueueAnswer.item same, holds'⟩
    | size => exact ⟨congrArg QueueAnswer.count holds.size, holds⟩
    | isEmpty => exact ⟨congrArg QueueAnswer.flag holds.empty_iff, holds⟩
    | isFull => exact ⟨congrArg QueueAnswer.flag (decide_eq_decide.mpr holds.full_iff), holds⟩

end MPSCRingBuffer

/-- For every capacity up to `2 ^ 30` the two buffers answer every sequence of calls as the FIFO queue
bounded by the least power of two that is at least the capacity. -/
theorem ringBuffers_eq_boundedQueue (T : Type) {c : ℚ} (high : c ≤ 2 ^ 30) :
    ∃ k : ℕ, (c ≤ 2 ^ k ∧ ∀ m : ℕ, c ≤ 2 ^ m → k ≤ m) ∧
      (∃ ring : LockFreeRingBuffer T, LockFreeRingBuffer.new c = some ring ∧
        ∀ calls, answers LockFreeRingBuffer.call ring calls = answers (fifo (2 ^ k)) [] calls) ∧
      ∃ ring : MPSCRingBuffer T, MPSCRingBuffer.new c = some ring ∧
        ∀ calls, answers MPSCRingBuffer.call ring calls = answers (fifoBatch (2 ^ k)) [] calls := by
  obtain ⟨k, found, covers, least⟩ := nextPowerOf2_eq high
  refine ⟨k, ⟨covers, least⟩, ?_, ?_⟩
  · rw [LockFreeRingBuffer.new, found]
    refine ⟨_, rfl, fun calls => answers_eq_of_simulation LockFreeRingBuffer.call_eq ?_ calls⟩
    exact Represents.empty k
  · rw [MPSCRingBuffer.new, found]
    refine ⟨_, rfl, fun calls => answers_eq_of_simulation MPSCRingBuffer.call_eq ?_ calls⟩
    exact Represents.empty k

/-- A capacity of three, which is made four. -/
theorem ringBuffers_eq_boundedQueue_three :
    (3 : ℚ) ≤ 2 ^ 30 ∧
      ∃ k : ℕ, ((3 : ℚ) ≤ 2 ^ k ∧ ∀ m : ℕ, (3 : ℚ) ≤ 2 ^ m → k ≤ m) ∧
      (∃ ring : LockFreeRingBuffer ℕ, LockFreeRingBuffer.new 3 = some ring ∧
        ∀ calls, answers LockFreeRingBuffer.call ring calls = answers (fifo (2 ^ k)) [] calls) ∧
      ∃ ring : MPSCRingBuffer ℕ, MPSCRingBuffer.new 3 = some ring ∧
        ∀ calls, answers MPSCRingBuffer.call ring calls = answers (fifoBatch (2 ^ k)) [] calls :=
  ⟨by norm_num, ringBuffers_eq_boundedQueue ℕ (by norm_num)⟩

end Refinement

end StellarFlow.Queue
