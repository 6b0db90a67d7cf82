import StellarFlow.Lib.Cyclic

/-!
# Bounded queues in circular slots

The bounded FIFO queue as a list of its items (`enqueue`, `dequeue`, `dequeueMany`), and its layout in a
ring of slots: `Circular cap slots first queue` says that the slots hold the queue from position `first`
on, each position modulo `cap`, and are free elsewhere. `Circular.push` and `Circular.pop` are the slot
updates of the two ends.
-/

namespace BoundedQueue
variable {α : Type}

/-- Appends an item unless the queue is full; whether it did. -/
def enqueue (cap : ℕ) (queue : List α) (item : α) : Bool × List α :=
  if queue.length < cap then (true, queue ++ [item]) else (false, queue)

/-- Takes the oldest item, if there is one. -/
def dequeue (queue : List α) : Option α × List α := (queue.head?, queue.tail)

/-- Takes the longest available prefix of at most `n` items. -/
def dequeueMany (queue : List α) (n : ℕ) : List α × List α := (queue.take n, queue.drop n)

/-- The slots hold the queue from a position on and are free elsewhere. -/
structure Circular (cap : ℕ) (slots : List (Option α)) (first : ℕ) (queue : List α) : Prop where
  length : slots.length = cap
  bounded : queue.length ≤ cap
  cells : ∀ i, i < cap → slots[(first + i) % cap]? = some queue[i]?

namespace Circular
variable {cap first : ℕ} {slots : List (Option α)} {queue : List α}

/-- Empty cells hold an empty queue. -/
lemma empty (cap : ℕ) : Circular cap (List.replicate cap none) 0 ([] : List α) where
  length := List.length_replicate
  bounded := Nat.zero_le _
  cells := by
    intro i lt
    rw [Nat.zero_add, Nat.mod_eq_of_lt lt, List.getElem?_replicate, if_pos lt]
    rfl

/-- Setting a cell changes that cell. -/
lemma cell_set (layout : Circular cap slots first queue) {i j : ℕ} (lti : i < cap) (ltj : j < cap)
    (slot : Option α) :
    (slots.set ((first + i) % cap) slot)[(first + j) % cap]? =
      if i = j then some slot else some queue[j]? := by
  have pos : 0 < cap := Nat.zero_lt_of_lt lti
  by_cases eq : i = j
  · subst eq
    rw [if_pos rfl, List.getElem?_set_self (layout.length.symm ▸ Nat.mod_lt _ pos)]
  · rw [if_neg eq, List.getElem?_set_ne (fun same => eq (Cyclic.cell_inj lti ltj same)), layout.cells j ltj]

/-- An item stored behind the last one. -/
lemma push (layout : Circular cap slots first queue) (room : queue.length < cap) (item : α) :
    Circular cap (slots.set ((first + queue.length) % cap) (some item)) first (queue ++ [item]) where
  length := List.length_set.trans layout.length
  bounded := by
    rw [List.length_append, List.length_singleton]
    exact room
  cells := by
    intro i lt
    rw [layout.cell_set room lt]
    split
    · rename_i last
      subst last
      rw [List.getElem?_concat_length]
    · rename_i other
      rw [List.getElem?_append]
      split
      · rfl
      · rw [List.getElem?_eq_none (by omega), List.getElem?_eq_none (by rw [List.length_singleton]; omega)]

/-- The slot of the oldest item freed. -/
lemma pop {item : α} (layout : Circular cap slots first (item :: queue)) :
    Circular cap (slots.set (first % cap) none) (first + 1) queue where
  length := List.length_set.trans layout.length
  bounded := (Nat.le_succ _).trans layout.bounded
  cells := by
    intro i lt
    have bounded := layout.bounded
    rw [List.length_cons] at bounded
    have front : first % cap = (first + 0) % cap := rfl
    -- the last slot of the new round is the one just freed
    by_cases last : i + 1 = cap
    · have around : (first + 1 + i) % cap = (first + 0) % cap := by
        rw [Nat.add_assoc, Nat.add_comm 1, last, Nat.add_mod_right, Nat.add_zero]
      rw [around, front, layout.cell_set (by omega) (by omega), if_pos rfl,
        List.getElem?_eq_none (by omega)]
    · rw [Nat.add_assoc, Nat.add_comm 1, front, layout.cell_set (by omega) (by omega),
        if_neg (Nat.succ_ne_zero i).symm, List.getElem?_cons_succ]

end Circular

end BoundedQueue
