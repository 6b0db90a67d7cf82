import Mathlib.Data.List.Induction
import Mathlib.Data.Int.ModEq

/-!
# Streams written round and round

A stream that is written into a ring of `n` cells one symbol after another, starting over at the first
cell when the last one is reached: position `i` of the stream goes to cell `i % n`. `lastAt` is what the
cell holds in the end.
-/

namespace Cyclic
variable {α : Type}

/-- The last symbol of the stream at a position congruent to `j` modulo `n`, `blank` if there is none. -/
def lastAt (blank : α) (n : ℕ) (stream : List α) (j : ℕ) : α :=
  ((stream.zipIdx.filter fun entry => entry.2 % n = j).getLast?.map Prod.fst).getD blank

variable {blank : α} {n : ℕ}

/-- Nothing was written yet. -/
lemma lastAt_nil (j : ℕ) : lastAt blank n [] j = blank := rfl

/-- The last item is in its cell. -/
lemma lastAt_snoc (stream : List α) (x : α) (j : ℕ) :
    lastAt blank n (stream ++ [x]) j = if stream.length % n = j then x else lastAt blank n stream j := by
  have last : (stream ++ [x]).zipIdx = stream.zipIdx ++ [(x, stream.length)] := by
    simp [List.zipIdx_append]
  rw [lastAt, last, List.filter_append]
  split
  · rename_i hit
    simp [hit]
  · rename_i miss
    simp [miss, lastAt]

/-- Positions less than a round apart are in different cells. -/
lemma cell_inj {first i j : ℕ} (lti : i < n) (ltj : j < n) (same : (first + i) % n = (first + j) % n) :
    i = j :=
  (Nat.ModEq.add_left_cancel' first same).eq_of_lt_of_lt lti ltj

/-- A block that goes nowhere near the cell. -/
lemma lastAt_append_of_miss {stream block : List α} {j : ℕ}
    (miss : ∀ k, k < block.length → (stream.length + k) % n ≠ j) :
    lastAt blank n (stream ++ block) j = lastAt blank n stream j := by
  induction block using List.reverseRecOn with
  | nil => rw [List.append_nil]
  | append_singleton block x ih =>
    rw [List.length_append, List.length_singleton] at miss
    rw [← List.append_assoc, lastAt_snoc, List.length_append, if_neg (miss block.length (Nat.lt_succ_self _))]
    exact ih fun k lt => miss k (Nat.lt_succ_of_lt lt)

/-- A block of at most one round leaves each of its symbols in a cell of its own. -/
lemma lastAt_append_of_hit {stream block : List α} (round : block.length ≤ n) {k : ℕ}
    (lt : k < block.length) : lastAt blank n (stream ++ block) ((stream.length + k) % n) = block[k] := by
  induction block using List.reverseRecOn with
  | nil => exact absurd lt (Nat.not_lt_zero k)
  | append_singleton block x ih =>
    rw [List.length_append, List.length_singleton] at round lt
    rw [← List.append_assoc, lastAt_snoc, List.length_append]
    by_cases last : k = block.length
    · subst last
      rw [if_pos rfl, List.getElem_concat_length rfl]
    · have before : k < block.length := by omega
      have apart : ¬ (stream.length + block.length) % n = (stream.length + k) % n := fun same =>
        last (cell_inj (by omega) (by omega) same).symm
      rw [if_neg apart, List.getElem_append_left before]
      exact ih (by omega) before

end Cyclic
