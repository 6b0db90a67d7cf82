import Mathlib.Algebra.BigOperators.Group.List.Basic
import StellarFlow.Lib.Dict

/-!
# Amounts by key

A list of amounts is added up in a dictionary: `d[k] = d.get(k, 0) + amount`, entry by entry. Each key has the sum of
its amounts, and the sums add up to the sum of all amounts.
-/

namespace Dict
variable {κ W : Type} [DecidableEq κ] [AddCommMonoid W]

/-- `d[k] = d.get(k, 0) + amount`. -/
def add (d : Dict κ W) (k : κ) (amount : W) : Dict κ W := d.set k ((d.get? k).getD 0 + amount)

/-- The sum of all amounts. -/
def total (d : Dict κ W) : W := (d.entries.map Prod.snd).sum

/-- Adds up the amounts of a list of entries. -/
def tally (entries : List (κ × W)) : Dict κ W := entries.foldl (fun d e => d.add e.1 e.2) empty

/-- Replacing an amount replaces it in the sum. -/
lemma sum_replace {entries : List (κ × W)} (nodup : (entries.map Prod.fst).Nodup) {k : κ} {old amount : W}
    (found : lookup entries k = some old) :
    ((entries.map fun e => if e.1 = k then (k, old + amount) else e).map Prod.snd).sum =
      (entries.map Prod.snd).sum + amount := by
  induction entries with
  | nil => cases found
  | cons e entries ih =>
    obtain ⟨new, rest⟩ := List.nodup_cons.1 nodup
    rw [lookup_cons] at found
    rw [List.map_cons, List.map_cons, List.sum_cons, List.map_cons, List.sum_cons]
    by_cases here : k = e.1
    · subst here
      rw [if_pos rfl] at found
      cases found
      rw [if_pos rfl, List.map_congr_left (g := id), List.map_id]
      · exact add_right_comm ..
      · intro other mem
        have differ : other.1 ≠ e.1 := fun same => new (same ▸ List.mem_map_of_mem mem)
        exact if_neg differ
    · rw [if_neg here] at found
      rw [if_neg (Ne.symm here), ih rest found, add_assoc]

/-- An amount adds to the total. -/
lemma total_add (d : Dict κ W) (k : κ) (amount : W) : (d.add k amount).total = d.total + amount := by
  show ((setEntries d.entries k ((lookup d.entries k).getD 0 + amount)).map Prod.snd).sum = _
  rw [setEntries]
  split
  case isTrue mem =>
    obtain ⟨old, found⟩ := Option.ne_none_iff_exists'.1 fun none => lookup_eq_none.1 none mem
    rw [found, Option.getD_some, sum_replace d.nodup found]
    rfl
  case isFalse new =>
    rw [lookup_eq_none.2 new, Option.getD_none, zero_add, List.map_append, List.sum_append, List.map_singleton,
      List.sum_singleton]
    rfl

/-- An amount adds to its key. -/
lemma getD_add (d : Dict κ W) (k x : κ) (amount : W) :
    ((d.add k amount).get? x).getD 0 = (d.get? x).getD 0 + if k = x then amount else 0 := by
  rw [add, get?_set]
  by_cases same : x = k
  · rw [if_pos same, if_pos same.symm, Option.getD_some, same]
  · rw [if_neg same, if_neg (Ne.symm same), add_zero]

section Fold
variable (d : Dict κ W) (entries : List (κ × W))

/-- Amounts add to the total. -/
lemma total_foldl_add :
    (entries.foldl (fun d e => d.add e.1 e.2) d).total = d.total + (entries.map Prod.snd).sum := by
  induction entries generalizing d with
  | nil => exact (add_zero _).symm
  | cons e entries ih => rw [List.foldl_cons, ih, total_add, List.map_cons, List.sum_cons, add_assoc]

/-- Amounts add to their keys. -/
lemma getD_foldl_add (x : κ) : ((entries.foldl (fun d e => d.add e.1 e.2) d).get? x).getD 0 =
    (d.get? x).getD 0 + ((entries.filter fun e => e.1 = x).map Prod.snd).sum := by
  induction entries generalizing d with
  | nil => exact (add_zero _).symm
  | cons e entries ih =>
    rw [List.foldl_cons, ih, getD_add]
    by_cases here : e.1 = x
    · rw [List.filter_cons_of_pos (by simp [here]), List.map_cons, List.sum_cons, if_pos here, add_assoc]
    · rw [List.filter_cons_of_neg (by simp [here]), if_neg here, add_zero]

/-- A key is there once an amount was added to it. -/
lemma mem_keys_foldl_add (x : κ) :
    x ∈ (entries.foldl (fun d e => d.add e.1 e.2) d).keys ↔ x ∈ d.keys ∨ x ∈ entries.map Prod.fst := by
  induction entries generalizing d with
  | nil => simp
  | cons e entries ih =>
    rw [List.foldl_cons, ih, add, mem_keys_set, List.map_cons, List.mem_cons]
    tauto

end Fold

variable (entries : List (κ × W))

/-- A tally totals the amounts. -/
lemma total_tally : (tally entries).total = (entries.map Prod.snd).sum :=
  (total_foldl_add empty entries).trans (zero_add _)

/-- A tally has for each key the sum of its amounts. -/
lemma getD_tally (x : κ) : ((tally entries).get? x).getD 0 = ((entries.filter fun e => e.1 = x).map Prod.snd).sum :=
  (getD_foldl_add empty entries x).trans (zero_add _)

/-- A tally has the keys counted. -/
lemma mem_keys_tally (x : κ) : x ∈ (tally entries).keys ↔ x ∈ entries.map Prod.fst := by
  rw [tally, mem_keys_foldl_add, keys_empty]
  simp

end Dict
