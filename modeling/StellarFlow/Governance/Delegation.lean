import Mathlib.Data.ENat.Basic
import Mathlib.Data.Finset.Insert
import StellarFlow.Lib.Orbit
import StellarFlow.Lib.Tally

/-!
# Governance delegation

Model of `src/logic/governanceDelegation.ts`: each account has at most one delegate, and the voting weight of an account
goes along the chain of delegates until it ends, comes back to an account it has visited, or has made `maxDepth` hops.
-/

namespace StellarFlow.Delegation
open Orbit

def MAX_DELEGATION_DEPTH : ℕ∞ := 5

/-- Delegator to delegate. -/
abbrev DelegationEdges := Dict String String

inductive DelegationStatus where
  | ok
  | cycle
  | depth_exceeded
  deriving DecidableEq

structure DelegationResolution where
  holder : String
  hops : ℕ
  status : DelegationStatus
  path : List String

structure ResolveOptions where
  maxDepth : Option ℕ∞

/-- The variables of the loop, with what holds of them at its head. -/
structure Walk (start : String) (edges : DelegationEdges) where
  path : List String
  visited : Finset String
  current : String
  hops : ℕ
  mem_visited : ∀ account, account ∈ visited ↔ account ∈ path
  follows : path.map some = (List.range (hops + 1)).map (hop edges.get? start)
  nodup : path.Nodup
  arrived : hop edges.get? start hops = some current

variable {start : String} {edges : DelegationEdges}

namespace Walk

/-- Before the loop. -/
def initial (start : String) (edges : DelegationEdges) : Walk start edges where
  path := [start]
  visited := {start}
  current := start
  hops := 0
  mem_visited account := by rw [Finset.mem_singleton, List.mem_singleton]
  follows := rfl
  nodup := List.nodup_singleton start
  arrived := rfl

/-- The end of the loop's body. -/
def follow (w : Walk start edges) {next : String} (found : edges.get? w.current = some next)
    (new : next ∉ w.visited) : Walk start edges where
  path := w.path ++ [next]
  visited := insert next w.visited
  current := next
  hops := w.hops + 1
  mem_visited account := by rw [Finset.mem_insert, List.mem_append, List.mem_singleton, w.mem_visited, or_comm]
  follows := by
    rw [List.map_append, w.follows, List.range_succ (n := w.hops + 1), List.map_append]
    congr 1
    rw [List.map_singleton, List.map_singleton, hop_succ w.arrived, found]
  nodup := by
    rw [w.mem_visited] at new
    rw [← List.concat_eq_append]
    exact w.nodup.concat new
  arrived := by rw [hop_succ w.arrived, found]

/-- A walk passes one holder more than it has hops. -/
lemma length_path (w : Walk start edges) : w.path.length = w.hops + 1 := by
  rw [← List.length_map (f := some), w.follows, List.length_map, List.length_range]

/-- The path lists the hops. -/
lemma getElem?_path (w : Walk start edges) {i : ℕ} (le : i ≤ w.hops) : w.path[i]? = hop edges.get? start i := by
  have here := congrArg (fun path => path[i]?) w.follows
  simp only [List.getElem?_map, List.getElem?_range (Nat.lt_succ_of_le le), Option.map_some] at here
  cases elem : w.path[i]? with
  | none => rw [elem] at here; cases here
  | some account => rw [elem] at here; exact Option.some.inj here

/-- An account of the path is reached by a hop. -/
lemma mem_path (w : Walk start edges) {account : String} :
    account ∈ w.path ↔ ∃ i, i ≤ w.hops ∧ hop edges.get? start i = some account := by
  rw [List.mem_iff_getElem?]
  constructor
  · rintro ⟨i, here⟩
    have bound := (List.getElem?_eq_some_iff.1 here).1
    rw [w.length_path] at bound
    have le : i ≤ w.hops := Nat.le_of_lt_succ bound
    rw [w.getElem?_path le] at here
    exact ⟨i, le, here⟩
  · rintro ⟨i, le, here⟩
    exact ⟨i, (w.getElem?_path le).trans here⟩

/-- No account has been visited twice. -/
lemma distinct (w : Walk start edges) : Distinct edges.get? start (w.hops + 1) := by
  intro i j account before inside first again
  rw [← w.getElem?_path (Nat.le_of_lt_succ (before.trans inside))] at first
  rw [← w.getElem?_path (Nat.le_of_lt_succ inside)] at again
  have bound := (List.getElem?_eq_some_iff.1 first).1
  exact absurd ((List.getElem?_inj bound w.nodup).1 (first.trans again.symm)) before.ne

/-- Each account of the path has a delegate, if the last one has. -/
lemma path_subset_keys (w : Walk start edges) {next : String} (found : edges.get? w.current = some next) :
    w.path ⊆ edges.keys := by
  intro account mem
  obtain ⟨i, le, here⟩ := w.mem_path.1 mem
  obtain last | before := Nat.eq_or_lt_of_le le
  · rw [last, w.arrived] at here
    cases here
    exact Dict.mem_keys_iff.2 ⟨next, found⟩
  · have more : (hop edges.get? start (i + 1)).isSome := hop_isSome_of_le (by rw [w.arrived]; rfl) before
    rw [hop_succ here] at more
    exact Dict.mem_keys_iff.2 (Option.isSome_iff_exists.1 more)

/-- So there are fewer hops than delegators. -/
lemma hops_lt (w : Walk start edges) {next : String} (found : edges.get? w.current = some next) :
    w.hops < edges.keys.length := by
  have le := (w.nodup.subperm (w.path_subset_keys found)).length_le
  rw [w.length_path] at le
  exact le

end Walk

/-- The loop. -/
def loop (maxDepth : ℕ∞) (w : Walk start edges) : DelegationResolution :=
  match found : edges.get? w.current with
  | none => ⟨w.current, w.hops, .ok, w.path⟩
  | some next =>
    if maxDepth ≤ w.hops then ⟨w.current, w.hops, .depth_exceeded, w.path⟩
    else if new : next ∈ w.visited then ⟨start, w.hops, .cycle, w.path ++ [next]⟩
    else loop maxDepth (w.follow found new)
termination_by edges.keys.length - w.hops
decreasing_by
  have before := w.hops_lt found
  show edges.keys.length - (w.hops + 1) < edges.keys.length - w.hops
  omega

def resolveDelegation (start : String) (edges : DelegationEdges) (options : ResolveOptions) : DelegationResolution :=
  loop (options.maxDepth.getD MAX_DELEGATION_DEPTH) (Walk.initial start edges)

def computeEffectiveWeights {W : Type} [AddCommMonoid W] (ownWeights : Dict String W) (edges : DelegationEdges)
    (options : ResolveOptions) : Dict String W :=
  ownWeights.entries.foldl (fun result e =>
    let holder := (resolveDelegation e.1 edges options).holder
    result.set holder ((result.get? holder).getD 0 + e.2)) Dict.empty

/-- What the chain of the resolution is. -/
def Explained (maxDepth : ℕ∞) (start : String) (edges : DelegationEdges) (r : DelegationResolution) : Prop :=
  match r.status with
  | .ok => r.hops ≤ maxDepth ∧ Ends edges.get? start r.hops r.holder
  | .cycle => r.hops + 1 ≤ maxDepth ∧ Returns edges.get? start (r.hops + 1) ∧ r.holder = start
  | .depth_exceeded => r.hops = maxDepth ∧ Distinct edges.get? start (r.hops + 1) ∧
      hop edges.get? start r.hops = some r.holder ∧ edges.get? r.holder ≠ none

/-- A next account that was visited is the first return of the chain. -/
lemma Walk.returns (w : Walk start edges) {next : String} (found : edges.get? w.current = some next)
    (old : next ∈ w.visited) : Returns edges.get? start (w.hops + 1) := by
  obtain ⟨i, le, here⟩ := w.mem_path.1 ((w.mem_visited next).1 old)
  exact ⟨⟨next, i, Nat.lt_succ_of_le le, here, by rw [hop_succ w.arrived, found]⟩, w.distinct⟩

/-- The loop gives a resolution that is explained by the chain. -/
lemma explained_loop (maxDepth : ℕ∞) (w : Walk start edges) (within : w.hops ≤ maxDepth) :
    Explained maxDepth start edges (loop maxDepth w) := by
  induction w using loop.induct maxDepth with
  | case1 w found =>
    rw [loop]
    split
    case h_1 => exact ⟨within, w.arrived, found⟩
    case h_2 other => rw [found] at other; cases other
  | case2 w next found deep =>
    rw [loop]
    split
    case h_1 none => rw [found] at none; cases none
    case h_2 =>
      rw [if_pos deep]
      exact ⟨le_antisymm within deep, w.distinct, w.arrived, by rw [found]; exact Option.some_ne_none next⟩
  | case3 w next found shallow old =>
    rw [loop]
    split
    case h_1 none => rw [found] at none; cases none
    case h_2 next' found' =>
      obtain rfl : next' = next := Option.some.inj (found'.symm.trans found)
      rw [if_neg shallow, dif_pos old]
      exact ⟨Order.add_one_le_of_lt (lt_of_not_ge shallow), w.returns found old, rfl⟩
  | case4 w next found shallow new ih =>
    rw [loop]
    split
    case h_1 none => rw [found] at none; cases none
    case h_2 next' found' =>
      obtain rfl : next' = next := Option.some.inj (found'.symm.trans found)
      rw [if_neg shallow, dif_neg new]
      exact ih (Order.add_one_le_of_lt (lt_of_not_ge shallow))

section Resolution
variable {maxDepth : ℕ∞} {r : DelegationResolution}

/-- No result has more hops than are allowed. -/
lemma hops_le_of_explained (explained : Explained maxDepth start edges r) : r.hops ≤ maxDepth := by
  rw [Explained] at explained
  split at explained
  case h_1 => exact explained.1
  case h_2 => exact le_trans (le_add_of_nonneg_right zero_le_one) explained.1
  case h_3 => exact explained.1.le

/-- A delegation ends at a holder just where the graph has a walk to it that is short enough. -/
lemma ok_iff_ends (explained : Explained maxDepth start edges r) (holder : String) :
    r.status = .ok ∧ r.holder = holder ↔ ∃ k : ℕ, k ≤ maxDepth ∧ Ends edges.get? start k holder := by
  rw [Explained] at explained
  split at explained
  case h_1 status =>
    obtain ⟨within, ends⟩ := explained
    constructor
    · rintro ⟨-, rfl⟩
      exact ⟨r.hops, within, ends⟩
    · rintro ⟨k, -, again⟩
      exact ⟨status, (ends_unique ends again).2⟩
  case h_2 status =>
    obtain ⟨-, returns, -⟩ := explained
    constructor
    · intro ok
      rw [status] at ok
      cases ok.1
    · rintro ⟨k, -, ends⟩
      exact absurd ends (not_ends_of_returns returns)
  case h_3 status =>
    obtain ⟨deep, -, here, more⟩ := explained
    constructor
    · intro ok
      rw [status] at ok
      cases ok.1
    · -- the chain goes on after the last hop that is allowed
      rintro ⟨k, within, ends⟩
      rw [← deep, Nat.cast_le] at within
      have next : (hop edges.get? start (r.hops + 1)).isSome := by
        rw [hop_succ here]
        exact Option.isSome_iff_ne_none.2 more
      exact absurd (le_of_ends ends next) (Nat.not_le_of_lt (Nat.lt_succ_of_le within))

/-- A delegation is cyclic just where a short walk comes back to its start. -/
lemma cycle_iff_returns (explained : Explained maxDepth start edges r) :
    r.status = .cycle ∧ r.holder = start ↔ ∃ k : ℕ, k ≤ maxDepth ∧ Returns edges.get? start k := by
  rw [Explained] at explained
  split at explained
  case h_1 status =>
    obtain ⟨-, ends⟩ := explained
    constructor
    · intro cycle
      rw [status] at cycle
      cases cycle.1
    · rintro ⟨k, -, returns⟩
      exact absurd ends (not_ends_of_returns returns)
  case h_2 status =>
    obtain ⟨within, returns, holder⟩ := explained
    exact ⟨fun _ => ⟨r.hops + 1, within, returns⟩, fun _ => ⟨status, holder⟩⟩
  case h_3 status =>
    obtain ⟨deep, distinct, -, -⟩ := explained
    constructor
    · intro cycle
      rw [status] at cycle
      cases cycle.1
    · rintro ⟨k, within, returns⟩
      rw [← deep, Nat.cast_le] at within
      exact absurd returns (not_returns_of_distinct distinct (Nat.lt_succ_of_le within))

/-- A chain that neither ends nor comes back in time is cut off. -/
lemma depth_exceeded_of_neither (explained : Explained maxDepth start edges r)
    (noEnd : ¬∃ (k : ℕ) (holder : String), k ≤ maxDepth ∧ Ends edges.get? start k holder)
    (noReturn : ¬∃ k : ℕ, k ≤ maxDepth ∧ Returns edges.get? start k) :
    r.status = .depth_exceeded ∧ ∃ depth : ℕ, maxDepth = depth ∧ hop edges.get? start depth = some r.holder := by
  rw [Explained] at explained
  split at explained
  case h_1 => exact absurd ⟨r.hops, r.holder, explained⟩ noEnd
  case h_2 => exact absurd ⟨r.hops + 1, explained.1, explained.2.1⟩ noReturn
  case h_3 status => exact ⟨status, r.hops, explained.1.symm, explained.2.2.1⟩

end Resolution

/-- The effective weights are the own weights, counted for the final holders. -/
lemma computeEffectiveWeights_eq_tally {W : Type} [AddCommMonoid W] (ownWeights : Dict String W)
    (options : ResolveOptions) : computeEffectiveWeights ownWeights edges options =
      Dict.tally (ownWeights.entries.map fun e => ((resolveDelegation e.1 edges options).holder, e.2)) := by
  rw [Dict.tally, List.foldl_map]
  rfl

/-- Each chain is followed for at most `maxDepth` hops. Where it ends by then, the last account is the holder; where it
comes back to an account by then, the start is; otherwise the account at `maxDepth` is. The effective weight of an
account is the sum of the own weights that it holds, and all of them add up to the sum of the own weights. -/
theorem weight_conserved (edges : DelegationEdges) (options : ResolveOptions) :
    let maxDepth := options.maxDepth.getD MAX_DELEGATION_DEPTH
    (∀ start, let r := resolveDelegation start edges options
      r.hops ≤ maxDepth ∧
      (∀ holder, r.status = .ok ∧ r.holder = holder ↔ ∃ k : ℕ, k ≤ maxDepth ∧ Ends edges.get? start k holder) ∧
      (r.status = .cycle ∧ r.holder = start ↔ ∃ k : ℕ, k ≤ maxDepth ∧ Returns edges.get? start k) ∧
      ((¬∃ (k : ℕ) (holder : String), k ≤ maxDepth ∧ Ends edges.get? start k holder) →
        (¬∃ k : ℕ, k ≤ maxDepth ∧ Returns edges.get? start k) →
        r.status = .depth_exceeded ∧ ∃ depth : ℕ, maxDepth = depth ∧ hop edges.get? start depth = some r.holder)) ∧
    ∀ (W : Type) [AddCommMonoid W] (ownWeights : Dict String W),
      let weights := computeEffectiveWeights ownWeights edges options
      let holder := fun account => (resolveDelegation account edges options).holder
      (∀ account, account ∈ weights.keys ↔ ∃ delegator ∈ ownWeights.keys, holder delegator = account) ∧
      (∀ account, (weights.get? account).getD 0 =
        ((ownWeights.entries.filter fun e => holder e.1 = account).map Prod.snd).sum) ∧
      weights.total = ownWeights.total := by
  refine ⟨fun start => ?_, fun W _ ownWeights => ?_⟩
  · have explained := explained_loop (options.maxDepth.getD MAX_DELEGATION_DEPTH) (Walk.initial start edges) zero_le
    exact ⟨hops_le_of_explained explained, ok_iff_ends explained, cycle_iff_returns explained,
      depth_exceeded_of_neither explained⟩
  · rw [computeEffectiveWeights_eq_tally]
    refine ⟨fun account => ?_, fun account => ?_, ?_⟩
    · rw [Dict.mem_keys_tally, Dict.keys, List.map_map, List.mem_map]
      simp
    · rw [Dict.getD_tally, List.filter_map, List.map_map]
      rfl
    · rw [Dict.total_tally, List.map_map]
      rfl

end StellarFlow.Delegation
