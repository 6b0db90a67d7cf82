import Mathlib.Algebra.Order.Group.Defs
import Mathlib.Algebra.Order.Group.Basic
import Mathlib.Data.List.Basic

/-!
# Logs of grants in a sliding window

A rate limiter keeps the times of its grants and drops, at each call, those that no window can contain any
more. `Keeps w clock grants log` says that a log has lost nothing that a window of length `w` ending now or
later can contain, and `AtMost max w grants` that no such window ever holds more than `max` grants.
-/

namespace SlidingLog
variable {α : Type} [LinearOrder α]

/-- The entries after a cutoff. -/
def live (cutoff : α) (log : List α) : List α := log.filter fun t => decide (cutoff < t)

/-- A later cutoff alone counts. -/
lemma live_live {cutoff cutoff' : α} (le : cutoff ≤ cutoff') (log : List α) :
    live cutoff' (live cutoff log) = live cutoff' log := by
  rw [live, live, live, List.filter_filter]
  apply List.filter_congr
  intro t _
  rw [Bool.and_eq_left_iff_imp, decide_eq_true_eq, decide_eq_true_eq]
  exact fun lt => le.trans_lt lt

/-- What lives of both parts. -/
lemma live_append (cutoff : α) (log later : List α) :
    live cutoff (log ++ later) = live cutoff log ++ live cutoff later :=
  List.filter_append ..

/-- Dropping the first entry as well leaves fewer. -/
lemma length_live_lt {cutoff first : α} {log : List α} (expired : first ≤ cutoff) :
    (live cutoff (first :: log)).length < (first :: log).length := by
  rw [live, List.filter_cons_of_neg (by rw [decide_eq_true_eq]; exact not_lt.mpr expired),
    List.length_cons]
  exact Nat.lt_succ_of_le (List.length_filter_le _ _)

variable [AddCommGroup α]

/-- The entries in the window of length `w` that ends at `t`. -/
def inWindow (w t : α) (log : List α) : List α := log.filter fun g => decide (t - w < g ∧ g ≤ t)

/-- The log has every grant that a window ending at the clock or later can contain. -/
structure Keeps (w clock : α) (grants log : List α) : Prop where
  past : ∀ g ∈ grants, g ≤ clock
  kept : ∀ now, clock ≤ now → live (now - w) log = live (now - w) grants

/-- No window of length `w` holds more than `max` grants. -/
def AtMost (max : ℕ) (w : α) (grants : List α) : Prop := ∀ t, (inWindow w t grants).length ≤ max

variable {w clock now : α} {grants log : List α} {max : ℕ}

/-- Nothing was granted yet. -/
lemma Keeps.nil (w clock : α) : Keeps w clock [] [] where
  past := fun _ mem => absurd mem List.not_mem_nil
  kept := fun _ _ => rfl

/-- Nothing is within any bound. -/
lemma AtMost.nil (max : ℕ) (w : α) : AtMost max w [] := fun _ => Nat.zero_le _

namespace Keeps

/-- Time passes. -/
lemma advance (keeps : Keeps w clock grants log) (le : clock ≤ now) : Keeps w now grants log where
  past := fun g mem => (keeps.past g mem).trans le
  kept := fun later after => keeps.kept later (le.trans after)

/-- No more than the bound is ever live. -/
lemma length_live_le (keeps : Keeps w clock grants log) (le : clock ≤ now) (bounded : AtMost max w grants) :
    (live (now - w) log).length ≤ max := by
  rw [keeps.kept now le]
  refine le_trans (List.Sublist.length_le ?_) (bounded now)
  rw [live, inWindow]
  have same : ∀ g ∈ grants, decide (now - w < g) = decide (now - w < g ∧ g ≤ now) := by
    intro g mem
    rw [decide_eq_decide]
    exact ⟨fun lt => ⟨lt, (keeps.past g mem).trans le⟩, And.left⟩
  rw [List.filter_congr same]

variable [IsOrderedAddMonoid α]

/-- What is past the window is evicted. -/
lemma evict (keeps : Keeps w clock grants log) (le : clock ≤ now) :
    Keeps w now grants (live (now - w) log) where
  past := (keeps.advance le).past
  kept := by
    intro later after
    rw [live_live (sub_le_sub_right after w)]
    exact keeps.kept later (le.trans after)

/-- A grant is logged. -/
lemma grant (keeps : Keeps w clock grants log) (le : clock ≤ now) :
    Keeps w now (grants ++ [now]) (live (now - w) log ++ [now]) where
  past := by
    intro g mem
    rcases List.mem_append.mp mem with before | last
    · exact (keeps.past g before).trans le
    · exact le_of_eq (List.mem_singleton.mp last)
  kept := by
    intro later after
    rw [live_append, live_append, (keeps.evict le).kept later after]

end Keeps

variable [IsOrderedAddMonoid α]

/-- A grant made while fewer than the bound are live keeps the bound. -/
lemma AtMost.grant (bounded : AtMost max w grants) (keeps : Keeps w clock grants log) (le : clock ≤ now)
    (room : (live (now - w) log).length < max) : AtMost max w (grants ++ [now]) := by
  intro t
  rw [inWindow, List.filter_append, List.length_append]
  by_cases inside : t - w < now ∧ now ≤ t
  · -- a window that holds the new grant holds only older ones that are still live
    have fewer : (inWindow w t grants).length ≤ (live (now - w) log).length := by
      rw [keeps.kept now le]
      apply List.Sublist.length_le
      apply List.monotone_filter_right
      intro g within
      rw [decide_eq_true_eq] at within ⊢
      exact (sub_le_sub_right inside.2 w).trans_lt within.1
    rw [List.filter_cons_of_pos (by rw [decide_eq_true_eq]; exact inside), List.filter_nil,
      List.length_singleton]
    exact Nat.lt_of_le_of_lt fewer room
  · rw [List.filter_cons_of_neg (by rw [decide_eq_true_eq]; exact inside), List.filter_nil,
      List.length_nil, Nat.add_zero]
    exact bounded t

end SlidingLog
