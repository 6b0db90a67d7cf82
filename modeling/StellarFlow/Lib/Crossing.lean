import Mathlib.Algebra.Order.BigOperators.Group.List
import Mathlib.Data.List.MinMax
import Mathlib.Order.Bounds.Basic

/-!
# Crossing of demand and supply

Orders with a price limit and a volume, prices in a linear order and volumes in an ordered monoid. At a price all bids
with a higher or equal limit and all asks with a lower or equal one can trade, and the smaller of the two volumes does.

Demand falls and supply rises with the price, and supply only changes at the limits of asks. So what is traded at a
price is no more than what is traded at the last limit of an ask before it (`matched_le_of_asks`): a search over a list
of prices that has all limits of asks finds the greatest volume over all prices (`isGreatest_search`).
-/

namespace Crossing
section Search
variable {P V : Type*} [LinearOrder V]

/-- The search for a price with the greatest value; of two it keeps the first. -/
def search (f : P → V) (best : P × V) (prices : List P) : P × V :=
  prices.foldl (fun best p => if best.2 < f p then (p, f p) else best) best

variable (f : P → V) (best : P × V) (prices : List P)

/-- What is found is at least as great as the first value and as the values at all prices. -/
lemma le_search : best.2 ≤ (search f best prices).2 ∧ ∀ p ∈ prices, f p ≤ (search f best prices).2 := by
  induction prices generalizing best with
  | nil => exact ⟨le_rfl, fun p mem => absurd mem List.not_mem_nil⟩
  | cons q prices ih =>
    rw [search, List.foldl_cons]
    split
    case isTrue greater =>
      obtain ⟨first, rest⟩ := ih (q, f q)
      exact ⟨greater.le.trans first, List.forall_mem_cons.mpr ⟨first, rest⟩⟩
    case isFalse smaller =>
      obtain ⟨first, rest⟩ := ih best
      exact ⟨first, List.forall_mem_cons.mpr ⟨(not_lt.mp smaller).trans first, rest⟩⟩

/-- It is the first value, or the value at the price that is found. -/
lemma search_eq : search f best prices = best ∨ (search f best prices).2 = f (search f best prices).1 := by
  induction prices generalizing best with
  | nil => exact .inl rfl
  | cons q prices ih =>
    rw [search, List.foldl_cons]
    split
    case isTrue greater =>
      rcases ih (q, f q) with same | found
      · right
        rw [search] at same
        rw [same]
      · exact .inr found
    case isFalse smaller => exact ih best

end Search

variable {ι P V : Type*} [LinearOrder P] [AddCommMonoid V] [LinearOrder V] [IsOrderedAddMonoid V]
variable (price : ι → P) (volume : ι → V) (bids asks : List ι)

def demand (p : P) : V := ((bids.filter fun bid => p ≤ price bid).map volume).sum

def supply (p : P) : V := ((asks.filter fun ask => price ask ≤ p).map volume).sum

/-- The volume that is traded at a price. -/
def matched (p : P) : V := min (demand price volume bids p) (supply price volume asks p)

variable {price volume bids asks} {p q : P}

/-- Volumes sum up to a volume. -/
lemma sum_nonneg {orders : List ι} (nonneg : ∀ o ∈ orders, 0 ≤ volume o) (keep : ι → Bool) :
    0 ≤ ((orders.filter keep).map volume).sum := by
  refine List.sum_nonneg fun v mem => ?_
  obtain ⟨o, kept, rfl⟩ := List.mem_map.mp mem
  exact nonneg o (List.mem_of_mem_filter kept)

/-- What matches is not negative. -/
lemma matched_nonneg (nonneg : ∀ o ∈ bids ++ asks, 0 ≤ volume o) (p : P) : 0 ≤ matched price volume bids asks p :=
  le_min (sum_nonneg (fun o mem => nonneg o (List.mem_append_left _ mem)) _)
    (sum_nonneg (fun o mem => nonneg o (List.mem_append_right _ mem)) _)

/-- At a lower price more bids can trade. -/
lemma demand_antitone (nonneg : ∀ bid ∈ bids, 0 ≤ volume bid) (le : p ≤ q) :
    demand price volume bids q ≤ demand price volume bids p := by
  have fewer : List.Sublist (bids.filter fun bid => q ≤ price bid) (bids.filter fun bid => p ≤ price bid) :=
    List.monotone_filter_right bids fun bid limit => decide_eq_true (le.trans (of_decide_eq_true limit))
  refine (fewer.map volume).sum_le_sum fun v mem => ?_
  obtain ⟨bid, kept, rfl⟩ := List.mem_map.mp mem
  exact nonneg bid (List.mem_of_mem_filter kept)

omit [LinearOrder V] [IsOrderedAddMonoid V] in
/-- Supply is the same at all prices between two limits. -/
lemma supply_congr (same : ∀ ask ∈ asks, price ask ≤ p ↔ price ask ≤ q) :
    supply price volume asks p = supply price volume asks q := by
  rw [supply, supply, List.filter_congr fun ask mem => decide_eq_decide.mpr (same ask mem)]

/-- Nothing is traded, or no more than at the limit of some ask. -/
lemma matched_le_of_asks (nonneg : ∀ o ∈ bids ++ asks, 0 ≤ volume o) (p : P) :
    matched price volume bids asks p = 0 ∨
      ∃ ask ∈ asks, matched price volume bids asks p ≤ matched price volume bids asks (price ask) := by
  cases last : (asks.filter fun ask => price ask ≤ p).argmax price with
  | none =>
    left
    have empty : supply price volume asks p = 0 := by
      rw [supply, List.argmax_eq_none.mp last]
      rfl
    rw [matched, empty]
    exact min_eq_right (sum_nonneg (fun o mem => nonneg o (List.mem_append_left _ mem)) _)
  | some ask =>
    right
    obtain ⟨mem, limit⟩ := List.mem_filter.mp (List.argmax_mem last)
    have below : price ask ≤ p := of_decide_eq_true limit
    refine ⟨ask, mem, min_le_min (demand_antitone (fun o mem => nonneg o (List.mem_append_left _ mem)) below) ?_⟩
    refine (supply_congr fun other mem' => ⟨fun le => ?_, fun le => le.trans below⟩).le
    exact List.le_of_mem_argmax (List.mem_filter.mpr ⟨mem', decide_eq_true le⟩) last

/-- A search that starts with no volume and meets all limits of asks finds the greatest volume over all prices, and a
price for it. -/
theorem isGreatest_search {start : P} {prices : List P} (nonneg : ∀ o ∈ bids ++ asks, 0 ≤ volume o)
    (limits : ∀ ask ∈ asks, price ask ∈ prices) :
    IsGreatest (Set.range (matched price volume bids asks))
        (search (matched price volume bids asks) (start, 0) prices).2 ∧
      matched price volume bids asks (search (matched price volume bids asks) (start, 0) prices).1 =
        (search (matched price volume bids asks) (start, 0) prices).2 := by
  obtain ⟨first, rest⟩ := le_search (matched price volume bids asks) (start, 0) prices
  have found := search_eq (matched price volume bids asks) (start, 0) prices
  generalize search (matched price volume bids asks) (start, 0) prices = best at *
  have bound (p : P) : matched price volume bids asks p ≤ best.2 := by
    rcases matched_le_of_asks nonneg p with nothing | ⟨ask, mem, le⟩
    · exact nothing.trans_le first
    · exact le.trans (rest _ (limits ask mem))
  have attained : matched price volume bids asks best.1 = best.2 := by
    rcases found with rfl | eq
    · exact le_antisymm (bound start) (matched_nonneg nonneg start)
    · exact eq.symm
  refine ⟨⟨⟨best.1, attained⟩, ?_⟩, attained⟩
  rintro v ⟨p, rfl⟩
  exact bound p

end Crossing
