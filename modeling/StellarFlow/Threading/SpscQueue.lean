import Mathlib.Algebra.Order.Ring.Int
import Mathlib.Tactic.Ring
import StellarFlow.Lib.Cyclic
import StellarFlow.Lib.Machine
import StellarFlow.Lib.Python

/-!
# The single-producer single-consumer queue

Model of `LockFreeSPSCQueue` in `src/utils/threading_pool.py`. One producer calls `put` and one consumer calls `get`;
each read or write of an index, of the mask or of a slot is a step of its own, and the calls interleave freely. What
follows the last access of a call (the comparison, the return) happens in the same step, since no one can tell.

`Inv` says for every program point of both threads what the shared fields are, and `Inv.step` that each access keeps it.
-/

namespace StellarFlow.Threading
variable {α : Type}

/-- `LockFreeSPSCQueue`; `None` is in the slots no item was written to. -/
structure SpscQueue (α : Type) where
  capacity : ℕ
  mask : ℕ
  buffer : List (Option α)
  producerIdx : ℕ
  consumerIdx : ℕ

namespace SpscQueue

/-- `LockFreeSPSCQueue.__init__`. -/
def init (capacity : ℤ) : Except PyError (SpscQueue α) :=
  if capacity ≤ 0 ∨ capacity.toNat &&& (capacity.toNat - 1) ≠ 0 then
    .error (.valueError s!"Capacity must be a positive power of 2, got {capacity}")
  else
    .ok
      { capacity := capacity.toNat
        mask := capacity.toNat - 1
        buffer := List.replicate capacity.toNat none
        producerIdx := 0
        consumerIdx := 0 }

variable (queue : SpscQueue α)

/-- `LockFreeSPSCQueue.empty`. -/
def empty : Bool := queue.consumerIdx == queue.producerIdx

/-- `LockFreeSPSCQueue.full`. -/
def full : Bool :=
  let nextHead := (queue.producerIdx + 1) &&& queue.mask
  nextHead == queue.consumerIdx

/-- `LockFreeSPSCQueue.size` on one reading of the two indices. -/
def size : ℕ :=
  if queue.producerIdx ≥ queue.consumerIdx then queue.producerIdx - queue.consumerIdx
  else queue.capacity - (queue.consumerIdx - queue.producerIdx)

/-- The items between the two indices, the oldest first. -/
def items : List α :=
  (List.range queue.size).filterMap fun k => (queue.buffer[(queue.consumerIdx + k) &&& queue.mask]?).join

end SpscQueue

/-- The next access of the producer's call of `put`, with the call's local variables. -/
inductive PutPoint (α : Type) where
  | idle
  | readProducerIdx (item : α)
  | readMask (item : α) (currentHead : ℕ)
  | readConsumerIdx (item : α) (currentHead nextHead : ℕ)
  | writeSlot (item : α) (currentHead nextHead : ℕ)
  | writeProducerIdx (item : α) (nextHead : ℕ)

/-- The next access of the consumer's call of `get`, with the call's local variables. -/
inductive GetPoint (α : Type) where
  | idle
  | readConsumerIdx
  | readProducerIdx (currentTail : ℕ)
  | readSlot (currentTail : ℕ)
  | readMask (currentTail : ℕ) (item : Option α)
  | writeConsumerIdx (nextTail : ℕ) (item : Option α)

/-- A call that has returned, with its answer. -/
inductive Returned (α : Type) where
  | put (item : α) (answer : Bool)
  | get (answer : Option α)

structure SpscState (α : Type) where
  queue : SpscQueue α
  producer : PutPoint α
  consumer : GetPoint α
  history : List (Returned α)

/-- A thread calls, or makes the next access of its call. -/
inductive SpscMove (α : Type) where
  | callPut (item : α)
  | callGet
  | producer
  | consumer

namespace SpscState

def start (queue : SpscQueue α) : SpscState α :=
  { queue, producer := .idle, consumer := .idle, history := [] }

/-- One access of `LockFreeSPSCQueue.put`. -/
def stepPut (s : SpscState α) : Option (SpscState α) :=
  match s.producer with
  | .idle => none
  | .readProducerIdx item => some { s with producer := .readMask item s.queue.producerIdx }
  | .readMask item head =>
    let nextHead := (head + 1) &&& s.queue.mask
    some { s with producer := .readConsumerIdx item head nextHead }
  | .readConsumerIdx item head nextHead =>
    if nextHead = s.queue.consumerIdx then
      some { s with producer := .idle, history := s.history ++ [.put item false] }
    else some { s with producer := .writeSlot item head nextHead }
  | .writeSlot item head nextHead =>
    if head < s.queue.buffer.length then
      some { s with
        queue := { s.queue with buffer := s.queue.buffer.set head (some item) }
        producer := .writeProducerIdx item nextHead }
    else none
  | .writeProducerIdx item nextHead =>
    some { s with
      queue := { s.queue with producerIdx := nextHead }
      producer := .idle
      history := s.history ++ [.put item true] }

/-- One access of `LockFreeSPSCQueue.get`. -/
def stepGet (s : SpscState α) : Option (SpscState α) :=
  match s.consumer with
  | .idle => none
  | .readConsumerIdx => some { s with consumer := .readProducerIdx s.queue.consumerIdx }
  | .readProducerIdx tail =>
    if tail = s.queue.producerIdx then
      some { s with consumer := .idle, history := s.history ++ [.get none] }
    else some { s with consumer := .readSlot tail }
  | .readSlot tail =>
    (s.queue.buffer[tail]?).map fun item => { s with consumer := .readMask tail item }
  | .readMask tail item =>
    some { s with consumer := .writeConsumerIdx ((tail + 1) &&& s.queue.mask) item }
  | .writeConsumerIdx nextTail item =>
    some { s with
      queue := { s.queue with consumerIdx := nextTail }
      consumer := .idle
      history := s.history ++ [.get item] }

def step (s : SpscState α) : SpscMove α → Option (SpscState α)
  | .callPut item =>
    match s.producer with
    | .idle => some { s with producer := .readProducerIdx item }
    | _ => none
  | .callGet =>
    match s.consumer with
    | .idle => some { s with consumer := .readConsumerIdx }
    | _ => none
  | .producer => s.stepPut
  | .consumer => s.stepGet

end SpscState

/-- The items `put` answered `True` for. -/
def accepted (history : List (Returned α)) : List α :=
  history.filterMap fun
    | .put item true => some item
    | _ => none

/-- The items `get` answered. -/
def taken (history : List (Returned α)) : List α :=
  history.filterMap fun
    | .get answer => answer
    | _ => none

/-! ## The capacity -/

/-- The test for powers of two. -/
lemma land_sub_one_eq_zero_iff {n : ℕ} (pos : 0 < n) : n &&& (n - 1) = 0 ↔ ∃ k, n = 2 ^ k := by
  constructor
  · induction n using Nat.strongRecOn with
    | ind n ih =>
      intro zero
      have half : n / 2 &&& (n - 1) / 2 = 0 := by rw [← Nat.and_div_two, zero]
      rcases Nat.even_or_odd' n with ⟨m, rfl | rfl⟩
      · -- an even number: both halves drop their last bit
        have first : 2 * m / 2 = m := by omega
        have second : (2 * m - 1) / 2 = m - 1 := by omega
        rw [first, second] at half
        obtain ⟨k, rfl⟩ := ih m (by omega) (by omega) half
        exact ⟨k + 1, (Nat.pow_succ').symm⟩
      · -- an odd number has only its last bit
        have first : (2 * m + 1) / 2 = m := by omega
        have second : (2 * m + 1 - 1) / 2 = m := by omega
        rw [first, second, Nat.and_self] at half
        exact ⟨0, by rw [half]; rfl⟩
  · rintro ⟨k, rfl⟩
    rw [Nat.and_two_pow_sub_one_eq_mod, Nat.mod_self]

/-- The capacities `__init__` takes are the powers of two. -/
theorem init_ok_iff {capacity : ℤ} :
    (∃ queue : SpscQueue α, SpscQueue.init capacity = .ok queue) ↔ ∃ k : ℕ, capacity = 2 ^ k := by
  unfold SpscQueue.init
  split
  · rename_i bad
    constructor
    · rintro ⟨_, made⟩
      cases made
    rintro ⟨k, rfl⟩
    have nat : ((2 : ℤ) ^ k).toNat = 2 ^ k := by
      rw [← Int.toNat_natCast (2 ^ k)]
      norm_cast
    rcases bad with neg | bits
    · exact absurd neg (not_le.2 (pow_pos two_pos k))
    · rw [nat] at bits
      exact absurd ((land_sub_one_eq_zero_iff (Nat.two_pow_pos k)).2 ⟨k, rfl⟩) bits
  · rename_i good
    refine ⟨fun _ => ?_, fun _ => ⟨_, rfl⟩⟩
    obtain ⟨pos, bits⟩ := not_or.1 good
    obtain ⟨k, same⟩ := (land_sub_one_eq_zero_iff (by omega)).1 (not_not.1 bits)
    refine ⟨k, ?_⟩
    rw [← Int.toNat_of_nonneg (not_le.1 pos).le, same]
    norm_cast

/-! ## The buffer between the calls -/

/-- A list is what is found at its indices. -/
lemma filterMap_getElem?_range (xs : List α) : (List.range xs.length).filterMap (xs[·]?) = xs := by
  induction xs with
  | nil => rfl
  | cons x xs ih =>
    rw [List.length_cons, List.range_succ_eq_map, List.filterMap_cons, List.filterMap_map]
    exact congrArg (x :: ·) ih

/-- The queue after the items `put` were published and the items `got` taken. -/
structure Layout (k : ℕ) (queue : SpscQueue α) (put got : List α) : Prop where
  capacity : queue.capacity = 2 ^ k
  mask : queue.mask = 2 ^ k - 1
  length : queue.buffer.length = 2 ^ k
  producerIdx : queue.producerIdx = put.length % 2 ^ k
  consumerIdx : queue.consumerIdx = got.length % 2 ^ k
  order : got <+: put
  room : put.length < got.length + 2 ^ k
  slot : ∀ i, got.length ≤ i → i < put.length → queue.buffer[i % 2 ^ k]? = some put[i]?

namespace Layout
variable {k : ℕ} {queue : SpscQueue α} {put got : List α}

/-- A new queue is laid out empty. -/
lemma init (made : SpscQueue.init (2 ^ k) = .ok queue) : Layout k queue [] [] := by
  have nat : ((2 : ℤ) ^ k).toNat = 2 ^ k := by
    rw [← Int.toNat_natCast (2 ^ k)]
    norm_cast
  unfold SpscQueue.init at made
  split at made
  · cases made
  · cases made
    exact
      { capacity := nat
        mask := congrArg (· - 1) nat
        length := List.length_replicate.trans nat
        producerIdx := (Nat.zero_mod _).symm
        consumerIdx := (Nat.zero_mod _).symm
        order := List.prefix_refl _
        room := by
          rw [List.length_nil, Nat.zero_add]
          exact Nat.two_pow_pos k
        slot := fun i _ lt => absurd lt (Nat.not_lt_zero i) }

variable (lay : Layout k queue put got)
include lay

/-- Masking an index is taking it modulo the slots. -/
lemma masked (i : ℕ) : i &&& queue.mask = i % 2 ^ k := by
  rw [lay.mask, Nat.and_two_pow_sub_one_eq_mod]

/-- The index after the producer's. -/
lemma next_producerIdx : (queue.producerIdx + 1) &&& queue.mask = (put.length + 1) % 2 ^ k := by
  rw [lay.masked, lay.producerIdx, Nat.mod_add_mod]

/-- The index after the consumer's. -/
lemma next_consumerIdx : (queue.consumerIdx + 1) &&& queue.mask = (got.length + 1) % 2 ^ k := by
  rw [lay.masked, lay.consumerIdx, Nat.mod_add_mod]

/-- What was put was got, or is still there. -/
lemma put_eq : got ++ put.drop got.length = put := by
  obtain ⟨rest, rfl⟩ := lay.order
  rw [List.drop_left]

/-- The indices meet when all that was put has been taken. -/
lemma idx_eq_iff : queue.consumerIdx = queue.producerIdx ↔ put.length = got.length := by
  have le := lay.order.length_le
  have room := lay.room
  rw [lay.consumerIdx, lay.producerIdx]
  refine ⟨fun same => ?_, fun same => by rw [same]⟩
  have apart : put.length - got.length = 0 := by
    refine (@Cyclic.cell_inj (2 ^ k) got.length 0 _ (Nat.two_pow_pos k) (by omega) ?_).symm
    rw [Nat.add_zero, Nat.add_sub_cancel' le, same]
  omega

/-- The producer is next to run into the consumer when all slots but one are used. -/
lemma next_eq_iff :
    (put.length + 1) % 2 ^ k = queue.consumerIdx ↔ put.length + 1 = got.length + 2 ^ k := by
  have le := lay.order.length_le
  have room := lay.room
  rw [lay.consumerIdx]
  constructor
  · intro same
    by_contra free
    have apart : put.length + 1 - got.length = 0 := by
      refine @Cyclic.cell_inj (2 ^ k) got.length _ 0 (by omega) (Nat.two_pow_pos k) ?_
      rw [Nat.add_sub_cancel' (by omega), same, Nat.add_zero]
    omega
  · intro used
    rw [used, Nat.add_mod_right]

/-- The size is what was put and not got. -/
lemma size_eq : queue.size = put.length - got.length := by
  have le := lay.order.length_le
  have room := lay.room
  have pos := Nat.two_pow_pos k
  rw [SpscQueue.size, lay.producerIdx, lay.consumerIdx, lay.capacity]
  obtain ⟨d, total⟩ := Nat.le.dest le
  have lt := Nat.mod_lt got.length pos
  have sum : put.length % 2 ^ k = (got.length % 2 ^ k + d) % 2 ^ k := by rw [Nat.mod_add_mod, total]
  by_cases wraps : got.length % 2 ^ k + d < 2 ^ k
  · rw [Nat.mod_eq_of_lt wraps] at sum
    rw [if_pos (by omega)]
    omega
  · have once : (got.length % 2 ^ k + d) % 2 ^ k = got.length % 2 ^ k + d - 2 ^ k := by
      rw [Nat.mod_eq_sub_mod (by omega), Nat.mod_eq_of_lt (by omega)]
    rw [once] at sum
    rw [if_neg (by omega)]
    omega

/-- The items in the queue are those that were put and not taken. -/
lemma items_eq : queue.items = put.drop got.length := by
  have le := lay.order.length_le
  have cells : ∀ j ∈ List.range (put.length - got.length),
      (queue.buffer[(queue.consumerIdx + j) &&& queue.mask]?).join = put[got.length + j]? := by
    intro j mem
    have lt := List.mem_range.1 mem
    rw [lay.masked, lay.consumerIdx, Nat.mod_add_mod, lay.slot _ (by omega) (by omega)]
    rfl
  rw [SpscQueue.items, lay.size_eq, List.filterMap_congr cells]
  have rest := filterMap_getElem?_range (put.drop got.length)
  rw [List.length_drop] at rest
  simpa only [List.getElem?_drop] using rest

/-- There are as many items as were put and not got. -/
lemma length_items : queue.items.length = put.length - got.length := by
  rw [lay.items_eq, List.length_drop]

/-- `empty` says whether there are no items. -/
theorem empty_iff : queue.empty = true ↔ queue.items = [] := by
  rw [SpscQueue.empty, beq_iff_eq, lay.idx_eq_iff, lay.items_eq, List.drop_eq_nil_iff]
  have le := lay.order.length_le
  omega

/-- `full` says whether all slots but one are taken. -/
theorem full_iff : queue.full = true ↔ queue.items.length = queue.capacity - 1 := by
  have le := lay.order.length_le
  have room := lay.room
  rw [SpscQueue.full, beq_iff_eq, lay.next_producerIdx, lay.next_eq_iff, lay.length_items, lay.capacity]
  omega

omit lay in
/-- The slot the producer writes next is not one of the used ones. -/
lemma slot_ne {put got : List α} (free : put.length + 1 < got.length + 2 ^ k) {i : ℕ} (ge : got.length ≤ i)
    (lt : i < put.length) : put.length % 2 ^ k ≠ i % 2 ^ k := by
  intro same
  have apart : put.length - i = 0 := by
    refine @Cyclic.cell_inj (2 ^ k) i _ 0 (by omega) (Nat.two_pow_pos k) ?_
    rw [Nat.add_sub_cancel' lt.le, Nat.add_zero, same]
  omega

/-- The producer writes a free slot. -/
lemma write (free : put.length + 1 < got.length + 2 ^ k) (item : α) :
    Layout k { queue with buffer := queue.buffer.set queue.producerIdx (some item) } put got where
  capacity := lay.capacity
  mask := lay.mask
  length := List.length_set.trans lay.length
  producerIdx := lay.producerIdx
  consumerIdx := lay.consumerIdx
  order := lay.order
  room := lay.room
  slot i ge lt := by
    rw [lay.producerIdx]
    refine (List.getElem?_set_ne (slot_ne free ge lt)).trans ?_
    exact lay.slot i ge lt

/-- The producer publishes the item it has written. -/
lemma publish (free : put.length + 1 < got.length + 2 ^ k) {item : α}
    (written : queue.buffer[put.length % 2 ^ k]? = some (some item)) :
    Layout k { queue with producerIdx := (put.length + 1) % 2 ^ k } (put ++ [item]) got where
  capacity := lay.capacity
  mask := lay.mask
  length := lay.length
  producerIdx := by rw [List.length_append, List.length_singleton]
  consumerIdx := lay.consumerIdx
  order := lay.order.trans (List.prefix_append put [item])
  room := by rwa [List.length_append, List.length_singleton]
  slot i ge lt := by
    rw [List.length_append, List.length_singleton] at lt
    rcases Nat.lt_succ_iff_lt_or_eq.1 lt with old | rfl
    · rw [List.getElem?_append_left old]
      exact lay.slot i ge old
    · rw [List.getElem?_concat_length]
      exact written

/-- The consumer gives the slot of the item it has read back. -/
lemma consume {item : α} (oldest : put[got.length]? = some item) :
    Layout k { queue with consumerIdx := (got.length + 1) % 2 ^ k } put (got ++ [item]) where
  capacity := lay.capacity
  mask := lay.mask
  length := lay.length
  producerIdx := lay.producerIdx
  consumerIdx := by rw [List.length_append, List.length_singleton]
  order := by
    obtain ⟨rest, rfl⟩ := lay.order
    rw [List.getElem?_append_right (Nat.le_refl _), Nat.sub_self] at oldest
    obtain ⟨tail, rfl⟩ : ∃ tail, rest = item :: tail := by
      cases rest with
      | nil => cases oldest
      | cons x tail => exact ⟨tail, by rw [Option.some.inj oldest]⟩
    exact ⟨tail, List.append_cons got item tail ▸ rfl⟩
  room := by
    rw [List.length_append, List.length_singleton]
    have room := lay.room
    omega
  slot i ge lt := by
    rw [List.length_append, List.length_singleton] at ge
    exact lay.slot i (by omega) lt

end Layout

/-! ## The program points -/

/-- What the producer knows at each point of `put`. -/
def PutPoint.Sound (k : ℕ) (queue : SpscQueue α) (put got : List α) : PutPoint α → Prop
  | .idle | .readProducerIdx _ => True
  | .readMask _ head => head = queue.producerIdx
  | .readConsumerIdx _ head nextHead => head = queue.producerIdx ∧ nextHead = (put.length + 1) % 2 ^ k
  | .writeSlot _ head nextHead =>
    head = queue.producerIdx ∧ nextHead = (put.length + 1) % 2 ^ k ∧ put.length + 1 < got.length + 2 ^ k
  | .writeProducerIdx item nextHead =>
    nextHead = (put.length + 1) % 2 ^ k ∧ put.length + 1 < got.length + 2 ^ k ∧
      queue.buffer[put.length % 2 ^ k]? = some (some item)

/-- What the consumer knows at each point of `get`. -/
def GetPoint.Sound (k : ℕ) (queue : SpscQueue α) (put got : List α) : GetPoint α → Prop
  | .idle | .readConsumerIdx => True
  | .readProducerIdx tail => tail = queue.consumerIdx
  | .readSlot tail => tail = queue.consumerIdx ∧ got.length < put.length
  | .readMask tail item => tail = queue.consumerIdx ∧ got.length < put.length ∧ item = put[got.length]?
  | .writeConsumerIdx nextTail item =>
    nextTail = (got.length + 1) % 2 ^ k ∧ got.length < put.length ∧ item = put[got.length]?

/-- The consumer does not mind what the producer writes and publishes. -/
lemma GetPoint.Sound.mono {k : ℕ} {queue queue' : SpscQueue α} {put put' got : List α} {point : GetPoint α}
    (sound : point.Sound k queue put got) (same : queue'.consumerIdx = queue.consumerIdx) (more : put <+: put') :
    point.Sound k queue' put' got := by
  have longer := more.length_le
  have kept (lt : got.length < put.length) : put'[got.length]? = put[got.length]? := by
    obtain ⟨rest, rfl⟩ := more
    exact List.getElem?_append_left lt
  cases point with
  | idle => trivial
  | readConsumerIdx => trivial
  | readProducerIdx tail => exact sound.trans same.symm
  | readSlot tail => exact ⟨sound.1.trans same.symm, by have := sound.2; omega⟩
  | readMask tail item =>
    obtain ⟨idx, lt, read⟩ := sound
    exact ⟨idx.trans same.symm, by omega, read.trans (kept lt).symm⟩
  | writeConsumerIdx nextTail item =>
    obtain ⟨idx, lt, read⟩ := sound
    exact ⟨idx, by omega, read.trans (kept lt).symm⟩

/-- The producer does not mind what the consumer gives back. -/
lemma PutPoint.Sound.mono {k : ℕ} {queue queue' : SpscQueue α} {put got got' : List α} {point : PutPoint α}
    (sound : point.Sound k queue put got) (same : queue'.producerIdx = queue.producerIdx)
    (buffer : queue'.buffer = queue.buffer) (more : got.length ≤ got'.length) : point.Sound k queue' put got' := by
  cases point with
  | idle => trivial
  | readProducerIdx item => trivial
  | readMask item head => exact sound.trans same.symm
  | readConsumerIdx item head nextHead => exact ⟨sound.1.trans same.symm, sound.2⟩
  | writeSlot item head nextHead =>
    obtain ⟨idx, next, free⟩ := sound
    exact ⟨idx.trans same.symm, next, by omega⟩
  | writeProducerIdx item nextHead =>
    obtain ⟨next, free, written⟩ := sound
    exact ⟨next, by omega, buffer ▸ written⟩

namespace SpscState
open Machine

/-- The invariant of the two threads. -/
structure Inv (k : ℕ) (s : SpscState α) : Prop where
  layout : Layout k s.queue (accepted s.history) (taken s.history)
  producer : s.producer.Sound k s.queue (accepted s.history) (taken s.history)
  consumer : s.consumer.Sound k s.queue (accepted s.history) (taken s.history)

/-- What a step can be. -/
inductive Step (s : SpscState α) : SpscState α → Prop where
  | callPut (item : α) (at_ : s.producer = .idle) : Step s { s with producer := .readProducerIdx item }
  | callGet (at_ : s.consumer = .idle) : Step s { s with consumer := .readConsumerIdx }
  | putHead {item : α} (at_ : s.producer = .readProducerIdx item) :
    Step s { s with producer := .readMask item s.queue.producerIdx }
  | putMask {item : α} {head : ℕ} (at_ : s.producer = .readMask item head) :
    Step s { s with producer := .readConsumerIdx item head ((head + 1) &&& s.queue.mask) }
  | putFull {item : α} {head nextHead : ℕ} (at_ : s.producer = .readConsumerIdx item head nextHead)
    (full : nextHead = s.queue.consumerIdx) :
    Step s { s with producer := .idle, history := s.history ++ [.put item false] }
  | putRoom {item : α} {head nextHead : ℕ} (at_ : s.producer = .readConsumerIdx item head nextHead)
    (room : nextHead ≠ s.queue.consumerIdx) : Step s { s with producer := .writeSlot item head nextHead }
  | putSlot {item : α} {head nextHead : ℕ} (at_ : s.producer = .writeSlot item head nextHead) :
    Step s { s with
      queue := { s.queue with buffer := s.queue.buffer.set head (some item) }
      producer := .writeProducerIdx item nextHead }
  | putPublish {item : α} {nextHead : ℕ} (at_ : s.producer = .writeProducerIdx item nextHead) :
    Step s { s with
      queue := { s.queue with producerIdx := nextHead }
      producer := .idle
      history := s.history ++ [.put item true] }
  | getTail (at_ : s.consumer = .readConsumerIdx) :
    Step s { s with consumer := .readProducerIdx s.queue.consumerIdx }
  | getEmpty {tail : ℕ} (at_ : s.consumer = .readProducerIdx tail) (empty : tail = s.queue.producerIdx) :
    Step s { s with consumer := .idle, history := s.history ++ [.get none] }
  | getSome {tail : ℕ} (at_ : s.consumer = .readProducerIdx tail) (some : tail ≠ s.queue.producerIdx) :
    Step s { s with consumer := .readSlot tail }
  | getSlot {tail : ℕ} {item : Option α} (at_ : s.consumer = .readSlot tail)
    (read : s.queue.buffer[tail]? = some item) : Step s { s with consumer := .readMask tail item }
  | getMask {tail : ℕ} {item : Option α} (at_ : s.consumer = .readMask tail item) :
    Step s { s with consumer := .writeConsumerIdx ((tail + 1) &&& s.queue.mask) item }
  | getPublish {nextTail : ℕ} {item : Option α} (at_ : s.consumer = .writeConsumerIdx nextTail item) :
    Step s { s with
      queue := { s.queue with consumerIdx := nextTail }
      consumer := .idle
      history := s.history ++ [.get item] }

variable {k : ℕ} {s t : SpscState α} {move : SpscMove α}

/-- A step of the producer is one of those named. -/
lemma stepPut_cases (next : s.stepPut = some t) : Step s t := by
  unfold stepPut at next
  split at next
  · cases next
  · cases next
    exact .putHead ‹_›
  · cases next
    exact .putMask ‹_›
  · split at next
    · cases next
      exact .putFull ‹_› ‹_›
    · cases next
      exact .putRoom ‹_› ‹_›
  · split at next
    · cases next
      exact .putSlot ‹_›
    · cases next
  · cases next
    exact .putPublish ‹_›

/-- A step of the consumer is one of those named. -/
lemma stepGet_cases (next : s.stepGet = some t) : Step s t := by
  unfold stepGet at next
  split at next
  · cases next
  · cases next
    exact .getTail ‹_›
  · split at next
    · cases next
      exact .getEmpty ‹_› ‹_›
    · cases next
      exact .getSome ‹_› ‹_›
  · obtain ⟨item, read, rfl⟩ := Option.map_eq_some_iff.1 next
    exact .getSlot ‹_› read
  · cases next
    exact .getMask ‹_›
  · cases next
    exact .getPublish ‹_›

/-- Each step of the model is one of those named. -/
lemma step_cases (next : s.step move = some t) : Step s t := by
  cases move with
  | callPut item =>
    simp only [step] at next
    split at next
    · cases next
      exact .callPut item ‹_›
    · cases next
  | callGet =>
    simp only [step] at next
    split at next
    · cases next
      exact .callGet ‹_›
    · cases next
  | producer => exact stepPut_cases next
  | consumer => exact stepGet_cases next

/-- A `put` that returns true has put its item. -/
lemma accepted_put (history : List (Returned α)) (item : α) :
    accepted (history ++ [.put item true]) = accepted history ++ [item] :=
  List.filterMap_append

/-- No other call has put an item. -/
lemma accepted_other (history : List (Returned α)) {call : Returned α}
    (other : ∀ item, call ≠ .put item true) : accepted (history ++ [call]) = accepted history := by
  rw [accepted, List.filterMap_append]
  cases call with
  | put item answer =>
    cases answer with
    | false => exact List.append_nil _
    | true => exact absurd rfl (other item)
  | get answer => exact List.append_nil _

/-- A `put` takes nothing. -/
lemma taken_put (history : List (Returned α)) (item : α) (answer : Bool) :
    taken (history ++ [.put item answer]) = taken history := by
  rw [taken, List.filterMap_append]
  exact List.append_nil _

/-- A `get` takes what it returns. -/
lemma taken_get (history : List (Returned α)) (answer : Option α) :
    taken (history ++ [.get answer]) = taken history ++ answer.toList := by
  rw [taken, List.filterMap_append]
  cases answer <;> rfl

/-- Every access keeps the invariant. -/
theorem Inv.step (inv : Inv k s) (next : Step s t) : Inv k t := by
  obtain ⟨layout, producer, consumer⟩ := inv
  cases next with
  | callPut item at_ => exact ⟨layout, trivial, consumer⟩
  | callGet at_ => exact ⟨layout, producer, trivial⟩
  | putHead at_ => exact ⟨layout, rfl, consumer⟩
  | putMask at_ =>
    rw [at_] at producer
    obtain rfl := producer
    exact ⟨layout, ⟨rfl, layout.next_producerIdx⟩, consumer⟩
  | @putFull item head nextHead at_ full =>
    have puts : accepted (s.history ++ [.put item false]) = accepted s.history := accepted_other _ (by simp)
    have gets := taken_put s.history item false
    exact ⟨by rwa [puts, gets], trivial, by rwa [puts, gets]⟩
  | putRoom at_ room =>
    rw [at_] at producer
    obtain ⟨head, rfl⟩ := producer
    have notFull := mt layout.next_eq_iff.2 room
    have bound := layout.room
    have free : (accepted s.history).length + 1 < (taken s.history).length + 2 ^ k := by omega
    exact ⟨layout, ⟨head, rfl, free⟩, consumer⟩
  | @putSlot item head nextHead at_ =>
    rw [at_] at producer
    obtain ⟨rfl, next, free⟩ := producer
    refine ⟨layout.write free item, ⟨next, free, ?_⟩, consumer.mono rfl (List.prefix_refl _)⟩
    have lt : s.queue.producerIdx < s.queue.buffer.length := by
      rw [layout.length, layout.producerIdx]
      exact Nat.mod_lt _ (Nat.two_pow_pos k)
    rw [← layout.producerIdx]
    exact List.getElem?_set_self lt
  | @putPublish item nextHead at_ =>
    rw [at_] at producer
    obtain ⟨rfl, free, written⟩ := producer
    have puts := accepted_put s.history item
    have gets := taken_put s.history item true
    refine ⟨?_, trivial, ?_⟩
    · rw [puts, gets]
      exact layout.publish free written
    · rw [puts, gets]
      exact consumer.mono rfl (List.prefix_append _ _)
  | getTail at_ => exact ⟨layout, producer, rfl⟩
  | getEmpty at_ empty =>
    have puts : accepted (s.history ++ [.get none]) = accepted s.history := accepted_other _ (by simp)
    have gets : taken (s.history ++ [.get none]) = taken s.history :=
      (taken_get s.history none).trans (List.append_nil _)
    exact ⟨by rwa [puts, gets], by rwa [puts, gets], trivial⟩
  | getSome at_ some =>
    rw [at_] at consumer
    obtain rfl := consumer
    have notEmpty := mt layout.idx_eq_iff.2 some
    have le := layout.order.length_le
    have lt : (taken s.history).length < (accepted s.history).length := by omega
    exact ⟨layout, producer, rfl, lt⟩
  | getSlot at_ read =>
    rw [at_] at consumer
    obtain ⟨rfl, lt⟩ := consumer
    rw [layout.consumerIdx, layout.slot _ (Nat.le_refl _) lt] at read
    exact ⟨layout, producer, rfl, lt, (Option.some.inj read).symm⟩
  | getMask at_ =>
    rw [at_] at consumer
    obtain ⟨rfl, lt, read⟩ := consumer
    exact ⟨layout, producer, layout.next_consumerIdx, lt, read⟩
  | @getPublish nextTail item at_ =>
    rw [at_] at consumer
    obtain ⟨rfl, lt, read⟩ := consumer
    obtain ⟨item, oldest⟩ : ∃ item, (accepted s.history)[(taken s.history).length]? = some item :=
      ⟨_, List.getElem?_eq_getElem lt⟩
    have puts : accepted (s.history ++ [.get (some item)]) = accepted s.history := accepted_other _ (by simp)
    have gets : taken (s.history ++ [.get (some item)]) = taken s.history ++ [item] := taken_get _ _
    cases read.trans oldest
    refine ⟨?_, ?_, trivial⟩
    · rw [puts, gets]
      exact layout.consume oldest
    · rw [puts, gets]
      exact producer.mono rfl rfl (by rw [List.length_append]; omega)

/-- No access is out of bounds: a call that has begun can always go on. -/
theorem Inv.progress (inv : Inv k s) :
    (s.producer ≠ .idle → ∃ t, s.stepPut = some t) ∧ (s.consumer ≠ .idle → ∃ t, s.stepGet = some t) := by
  obtain ⟨layout, producer, consumer⟩ := inv
  constructor
  · intro busy
    unfold stepPut
    split
    · exact absurd ‹_› busy
    · exact ⟨_, rfl⟩
    · exact ⟨_, rfl⟩
    · split <;> exact ⟨_, rfl⟩
    · rename_i at_
      rw [at_] at producer
      obtain ⟨rfl, -, -⟩ := producer
      rw [if_pos]
      · exact ⟨_, rfl⟩
      · rw [layout.length, layout.producerIdx]
        exact Nat.mod_lt _ (Nat.two_pow_pos k)
    · exact ⟨_, rfl⟩
  · intro busy
    unfold stepGet
    split
    · exact absurd ‹_› busy
    · exact ⟨_, rfl⟩
    · split <;> exact ⟨_, rfl⟩
    · rename_i at_
      rw [at_] at consumer
      obtain ⟨rfl, lt⟩ := consumer
      rw [layout.consumerIdx, layout.slot _ (Nat.le_refl _) lt]
      exact ⟨_, rfl⟩
    · exact ⟨_, rfl⟩
    · exact ⟨_, rfl⟩

/-- The steps that leave the history as it is answer nothing. -/
lemma history_ne (history : List (Returned α)) (call : Returned α) : history ≠ history ++ [call] := by
  intro same
  have lengths := congrArg List.length same
  rw [List.length_append, List.length_singleton] at lengths
  omega

/-- The last call is the last. -/
lemma last_inj {history : List (Returned α)} {call call' : Returned α}
    (same : history ++ [call] = history ++ [call']) : call = call' :=
  List.singleton_inj.1 (List.append_cancel_left same)

/-- `put` answers `False` on reading the consumer's index, with all slots but one in use. -/
lemma Inv.put_false (inv : Inv k s) (next : Step s t) {item : α}
    (answer : t.history = s.history ++ [.put item false]) :
    (∃ head nextHead, s.producer = .readConsumerIdx item head nextHead) ∧ s.queue.items.length = 2 ^ k - 1 := by
  obtain ⟨layout, producer, consumer⟩ := inv
  cases next with
  | putFull at_ full =>
    cases last_inj answer
    rw [at_] at producer
    obtain ⟨-, rfl⟩ := producer
    have used := layout.next_eq_iff.1 full
    refine ⟨⟨_, _, at_⟩, ?_⟩
    rw [layout.length_items]
    omega
  | putPublish at_ => cases last_inj answer
  | getEmpty at_ empty => cases last_inj answer
  | getPublish at_ => cases last_inj answer
  | _ => exact absurd answer (history_ne _ _)

/-- `get` answers `None` on reading the producer's index, with no item in the queue. -/
lemma Inv.get_none (inv : Inv k s) (next : Step s t) (answer : t.history = s.history ++ [.get none]) :
    (∃ tail, s.consumer = .readProducerIdx tail) ∧ s.queue.items = [] := by
  obtain ⟨layout, producer, consumer⟩ := inv
  cases next with
  | getEmpty at_ empty =>
    rw [at_] at consumer
    obtain rfl := consumer
    refine ⟨⟨_, at_⟩, ?_⟩
    rw [layout.items_eq, List.drop_eq_nil_iff, layout.idx_eq_iff.1 empty]
  | getPublish at_ =>
    -- the slot that was read holds an item
    cases last_inj answer
    rw [at_] at consumer
    obtain ⟨-, lt, read⟩ := consumer
    rw [List.getElem?_eq_getElem lt] at read
    cases read
  | putFull at_ full => cases last_inj answer
  | putPublish at_ => cases last_inj answer
  | _ => exact absurd answer (history_ne _ _)

/-- A new queue satisfies the invariant. -/
lemma inv_start {queue : SpscQueue α} (made : SpscQueue.init (2 ^ k) = .ok queue) : Inv k (start queue) :=
  ⟨Layout.init made, trivial, trivial⟩

/-- In every run the items accepted are those taken, in order, and after them those between the indices; `put` gives
up only with `2 ^ k - 1` items queued and `get` only with none. -/
theorem fifo {queue : SpscQueue α} (made : SpscQueue.init (2 ^ k) = .ok queue) {trace : List (SpscMove α)}
    (run : exec step (start queue) trace = some s) :
    accepted s.history = taken s.history ++ s.queue.items ∧
    ∀ move t, s.step move = some t →
      (∀ item, t.history = s.history ++ [.put item false] →
        (∃ head nextHead, s.producer = .readConsumerIdx item head nextHead) ∧
          s.queue.items.length = 2 ^ k - 1) ∧
      (t.history = s.history ++ [.get none] →
        (∃ tail, s.consumer = .readProducerIdx tail) ∧ s.queue.items = []) := by
  have inv : Inv k s := exec_invariant (inv_start made) (fun _ _ _ inv next => inv.step (step_cases next)) run
  refine ⟨?_, fun move t next => ⟨fun item => inv.put_false (step_cases next), inv.get_none (step_cases next)⟩⟩
  rw [inv.layout.items_eq, inv.layout.put_eq]

/-- With two slots the second of two items is refused until the first is taken. -/
theorem fifo_two_slots :
    ∃ s : SpscState ℕ,
      exec step (start ⟨2, 1, [none, none], 0, 0⟩)
        [.callPut 7, .producer, .producer, .callGet, .producer, .producer, .producer, .callPut 8, .producer,
          .producer, .consumer, .consumer] = some s ∧
      accepted s.history = [7] ∧
      (∀ t, s.step .producer = some t → t.history = s.history ++ [.put 8 false] → s.queue.items.length = 1) := by
  let trace : List (SpscMove ℕ) :=
    [.callPut 7, .producer, .producer, .callGet, .producer, .producer, .producer, .callPut 8, .producer,
      .producer, .consumer, .consumer]
  have all := @fifo ℕ 1 _ _ rfl trace rfl
  exact ⟨_, rfl, rfl, fun t next answer => ((all.2 .producer t next).1 8 answer).2⟩

end SpscState

end StellarFlow.Threading
