import Mathlib.Data.List.Find
import Mathlib.Data.List.Induction
import Mathlib.Logic.Function.Basic

/-!
# Replaying changes of a map

A map changes by values that are set and keys that are erased. `replay` applies a list of changes in their order; the
last change of a key decides (`replay_apply`).

A batch is regrouped when what it sets comes before what it erases. `replay_regroup_iff` says for which lists of
batches that makes no difference: the last batch that changes a key must not set it after it has erased it.
-/

namespace Replay
variable {κ ν : Type} [DecidableEq κ]

inductive Op (κ ν : Type) where
  | set (k : κ) (v : ν)
  | erase (k : κ)

def Op.key : Op κ ν → κ
  | .set k _ => k
  | .erase k => k

/-- The value a change leaves. -/
def Op.value : Op κ ν → Option ν
  | .set _ v => some v
  | .erase _ => none

def Op.isErase : Op κ ν → Bool
  | .set _ _ => false
  | .erase _ => true

def apply (m : κ → Option ν) (op : Op κ ν) : κ → Option ν := Function.update m op.key op.value

/-- The changes, one after the other. -/
def replay (ops : List (Op κ ν)) (m : κ → Option ν) : κ → Option ν := ops.foldl apply m

/-- The last change of a key. -/
def lastOf (ops : List (Op κ ν)) (k : κ) : Option (Op κ ν) := ops.reverse.find? fun op => op.key = k

/-- What is set comes first. -/
def regroup (ops : List (Op κ ν)) : List (Op κ ν) := ops.filter (!·.isErase) ++ ops.filter (·.isErase)

/-- The key is erased and set again after that. -/
def recreates (ops : List (Op κ ν)) (k : κ) : Bool :=
  (ops.any fun op => op.isErase && op.key = k) && (lastOf ops k).any (!·.isErase)

def touches (k : κ) (ops : List (Op κ ν)) : Bool := ops.any fun op => op.key = k

/-- The last batch that changes the key does not recreate it. -/
def settles (batches : List (List (Op κ ν))) (k : κ) : Bool :=
  match batches.reverse.find? (touches k) with
  | some ops => !recreates ops k
  | none => true

variable {ops : List (Op κ ν)} {m : κ → Option ν} {k : κ} {op : Op κ ν}

/-- One list of operations after the other. -/
lemma replay_append (ops more : List (Op κ ν)) (m : κ → Option ν) :
    replay (ops ++ more) m = replay more (replay ops m) := List.foldl_append ..

/-- The last operation of a key is the last. -/
lemma lastOf_snoc (ops : List (Op κ ν)) (op : Op κ ν) :
    lastOf (ops ++ [op]) k = if op.key = k then some op else lastOf ops k := by
  rw [lastOf, List.reverse_append, List.reverse_singleton, List.singleton_append, List.find?_cons]
  by_cases here : op.key = k
  · simp [here]
  · simp [here, lastOf]

/-- An operation changes its key. -/
lemma apply_apply : apply m op k = if op.key = k then op.value else m k := by
  rw [apply, Function.update_apply]
  by_cases here : op.key = k
  · rw [if_pos here.symm, if_pos here]
  · rw [if_neg (Ne.symm here), if_neg here]

/-- The last change of a key decides. -/
lemma replay_apply : replay ops m k = (lastOf ops k).elim (m k) Op.value := by
  induction ops using List.reverseRecOn with
  | nil => rfl
  | append_singleton ops op ih =>
    rw [replay_append, lastOf_snoc]
    show apply (replay ops m) op k = _
    rw [apply_apply, ih]
    split
    · rfl
    · rfl

/-- A key has no last operation where none touches it. -/
lemma lastOf_eq_none : lastOf ops k = none ↔ touches k ops = false := by
  rw [lastOf, List.find?_eq_none, touches, List.any_eq_false]
  simp only [List.mem_reverse]

/-- The second list is asked first. -/
lemma lastOf_append (ops more : List (Op κ ν)) : lastOf (ops ++ more) k = (lastOf more k).or (lastOf ops k) := by
  rw [lastOf, List.reverse_append, List.find?_append]
  rfl

/-- The last change is the same among those that keep all changes of the key. -/
lemma lastOf_filter {p : Op κ ν → Bool} (all : ∀ op ∈ ops, op.key = k → p op = true) :
    lastOf (ops.filter p) k = lastOf ops k := by
  rw [lastOf, lastOf, ← List.filter_reverse, List.find?_filter]
  refine List.find?_congr fun op mem => ?_
  by_cases here : op.key = k
  · simp [here, all op (List.mem_reverse.1 mem) here]
  · simp [here]

/-- Erased keys are gone after a regrouped batch. -/
lemma replay_regroup : replay (regroup ops) m k =
    if ops.any fun op => op.isErase && op.key = k then none else replay ops m k := by
  rw [replay_apply, replay_apply, regroup, lastOf_append]
  split
  case isTrue erased =>
    obtain ⟨op, mem, erases⟩ := List.any_eq_true.1 erased
    obtain ⟨erases, here⟩ := Bool.and_eq_true_iff.1 erases
    have touched : touches k (ops.filter (·.isErase)) = true :=
      List.any_eq_true.2 ⟨op, List.mem_filter.2 ⟨mem, erases⟩, here⟩
    cases last : lastOf (ops.filter (·.isErase)) k with
    | none => rw [lastOf_eq_none.1 last] at touched; cases touched
    | some op' =>
      have erases' := (List.mem_filter.1 (List.mem_reverse.1 (List.mem_of_find?_eq_some last))).2
      cases op' with
      | set k v => cases erases'
      | erase k => rfl
  case isFalse kept =>
    have sets : ∀ op ∈ ops, op.key = k → op.isErase = false := by
      intro op mem here
      rw [Bool.eq_false_iff]
      intro erases
      exact kept (List.any_eq_true.2 ⟨op, mem, by simp [erases, here]⟩)
    have untouched : lastOf (ops.filter (·.isErase)) k = none := by
      rw [lastOf_eq_none, touches, List.any_eq_false]
      intro op mem here
      obtain ⟨mem, erases⟩ := List.mem_filter.1 mem
      rw [sets op mem (of_decide_eq_true here)] at erases
      cases erases
    rw [untouched, Option.none_or, lastOf_filter fun op mem here => by rw [sets op mem here]; rfl]

/-- A batch that does not change the key. -/
lemma replay_of_untouched (untouched : touches k ops = false) : replay ops m k = m k := by
  rw [replay_apply, lastOf_eq_none.2 untouched]
  rfl

/-- A key that nothing touches keeps its value. -/
lemma replay_regroup_of_untouched (untouched : touches k ops = false) : replay (regroup ops) m k = m k := by
  rw [replay_regroup, if_neg, replay_of_untouched untouched]
  intro erased
  obtain ⟨op, mem, erases⟩ := List.any_eq_true.1 erased
  have touched : touches k ops = true := List.any_eq_true.2 ⟨op, mem, (Bool.and_eq_true_iff.1 erases).2⟩
  rw [untouched] at touched
  cases touched

/-- A batch that changes the key does the same in both orders, whatever was there before, unless it recreates it. -/
lemma replay_regroup_iff_of_touched {m' : κ → Option ν} (touched : touches k ops = true) :
    replay (regroup ops) m k = replay ops m' k ↔ recreates ops k = false := by
  have last : ∃ op, lastOf ops k = some op := by
    refine Option.ne_none_iff_exists'.1 fun none => ?_
    rw [lastOf_eq_none.1 none] at touched
    cases touched
  obtain ⟨op, last⟩ := last
  rw [replay_regroup, recreates, replay_apply, replay_apply, last]
  cases erased : ops.any fun op => op.isErase && op.key = k with
  | false => exact iff_of_true rfl rfl
  | true =>
    rw [if_pos rfl, Bool.true_and]
    cases op with
    | set k v => exact iff_of_false (Option.some_ne_none v).symm Bool.noConfusion
    | erase k => exact iff_of_true rfl rfl

/-- Regrouped batches leave a key as all changes do, one after the other, if and only if the last batch that changes
the key does not recreate it. -/
theorem replay_regroup_iff (batches : List (List (Op κ ν))) :
    replay (batches.flatMap regroup) m k = replay batches.flatten m k ↔ settles batches k = true := by
  induction batches using List.reverseRecOn with
  | nil => exact iff_of_true rfl rfl
  | append_singleton batches ops ih =>
    rw [List.flatMap_append, List.flatMap_singleton, List.flatten_append, List.flatten_singleton, replay_append,
      replay_append, settles, List.reverse_append, List.reverse_singleton, List.singleton_append, List.find?_cons]
    cases touched : touches k ops with
    | true => rw [replay_regroup_iff_of_touched touched, Bool.not_eq_true']
    | false => rw [replay_regroup_of_untouched touched, replay_of_untouched touched, ih, settles]

end Replay
