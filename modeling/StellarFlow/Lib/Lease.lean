import Mathlib.Data.List.Nodup
import Mathlib.Data.List.Perm.Subperm
import Mathlib.Order.Lattice

/-!
# Keys that expire

A slot of a store holds at most one key, which belongs to a holder and exists until it expires. A key is set where none
exists (`setNx`) and deleted where it belongs to the one who deletes it (`deleteOwn`).

`Holds` says that the slot holds a key of somebody for sure until some time; what others do leaves it so. `share_node`
is the counting argument for locks on a majority of independent slots.
-/

namespace Lease
variable {τ ι : Type} [LinearOrder τ]

structure Key (τ ι : Type) where
  holder : ι
  expiresAt : τ
  deriving DecidableEq

/-- The key of a slot, while it exists. -/
def live (now : τ) (slot : Option (Key τ ι)) : Option (Key τ ι) := slot.filter fun key => now < key.expiresAt

/-- Sets a key where none exists, and says whether it has. -/
def setNx (now expiresAt : τ) (holder : ι) (slot : Option (Key τ ι)) : Bool × Option (Key τ ι) :=
  match live now slot with
  | some _ => (false, slot)
  | none => (true, some ⟨holder, expiresAt⟩)

/-- Deletes the key where it exists and is the holder's own. -/
def deleteOwn [DecidableEq ι] (now : τ) (holder : ι) (slot : Option (Key τ ι)) : Option (Key τ ι) :=
  if (live now slot).any fun key => key.holder = holder then none else slot

/-- Until the time, the slot has a key of the holder that does not expire before. -/
def Holds (now bound : τ) (holder : ι) (slot : Option (Key τ ι)) : Prop :=
  now < bound → ∃ expiresAt, bound ≤ expiresAt ∧ slot = some ⟨holder, expiresAt⟩

variable {now now' bound expiresAt : τ} {holder other : ι} {slot : Option (Key τ ι)} {key : Key τ ι}

/-- A key is live before it expires. -/
lemma live_eq_some : live now slot = some key ↔ slot = some key ∧ now < key.expiresAt := by
  rw [live, Option.filter_eq_some_iff, decide_eq_true_iff]

/-- Time that passes leaves the holder what it has. -/
lemma Holds.mono (holds : Holds now bound holder slot) (le : now ≤ now') : Holds now' bound holder slot :=
  fun early => holds (le.trans_lt early)

/-- A key that exists is not overwritten. -/
lemma setNx_of_live (there : live now slot = some key) :
    setNx now expiresAt holder slot = (false, slot) := by
  rw [setNx, there]

/-- A `SET NX` of another one leaves the holder what it has. -/
lemma Holds.setNx (holds : Holds now bound holder slot) :
    Holds now bound holder (setNx now expiresAt other slot).2 := by
  intro early
  obtain ⟨time, le, rfl⟩ := holds early
  rw [setNx_of_live (live_eq_some.2 ⟨rfl, early.trans_le le⟩)]
  exact ⟨time, le, rfl⟩

/-- A key that was just set. -/
lemma holds_of_setNx (set : (setNx now expiresAt holder slot).1 = true) (le : bound ≤ expiresAt) :
    Holds now bound holder (setNx now expiresAt holder slot).2 := by
  rw [Lease.setNx] at set ⊢
  split at set
  case h_1 => cases set
  case h_2 free => exact fun _ => ⟨expiresAt, le, rfl⟩

variable [DecidableEq ι]

/-- The key of another holder is not deleted. -/
lemma deleteOwn_of_live (there : live now slot = some key) (own : key.holder ≠ other) :
    deleteOwn now other slot = slot := by
  rw [deleteOwn, there, Option.any_some, decide_eq_false own]
  rfl

/-- Another one that gives up its own key leaves the holder what it has. -/
lemma Holds.deleteOwn (holds : Holds now bound holder slot) (ne : holder ≠ other) :
    Holds now bound holder (deleteOwn now other slot) := by
  intro early
  obtain ⟨time, le, rfl⟩ := holds early
  rw [deleteOwn_of_live (live_eq_some.2 ⟨rfl, early.trans_le le⟩) ne]
  exact ⟨time, le, rfl⟩

omit [DecidableEq ι] in
/-- Two holders do not hold one slot at once. -/
lemma Holds.unique {bound' : τ} (holds : Holds now bound holder slot) (holds' : Holds now bound' other slot)
    (early : now < bound) (early' : now < bound') : holder = other := by
  obtain ⟨_, -, same⟩ := holds early
  obtain ⟨_, -, same'⟩ := holds' early'
  rw [same] at same'
  exact congrArg Key.holder (Option.some.inj same')

/-- Two majorities of `n` nodes share one. -/
lemma share_node {n : ℕ} {xs ys : List ℕ} (nodup : xs.Nodup) (nodup' : ys.Nodup) (below : ∀ x ∈ xs, x < n)
    (below' : ∀ y ∈ ys, y < n) (many : n < xs.length + ys.length) : ∃ x, x ∈ xs ∧ x ∈ ys := by
  by_contra none
  have disjoint : (xs ++ ys).Nodup :=
    List.nodup_append.2 ⟨nodup, nodup', fun x mem y mem' same => none ⟨x, mem, same ▸ mem'⟩⟩
  have sub : xs ++ ys ⊆ List.range n := by
    intro x mem
    rcases List.mem_append.1 mem with left | right
    · exact List.mem_range.2 (below x left)
    · exact List.mem_range.2 (below' x right)
  have le := (disjoint.subperm sub).length_le
  rw [List.length_append, List.length_range] at le
  exact absurd many (Nat.not_lt.2 le)

end Lease
