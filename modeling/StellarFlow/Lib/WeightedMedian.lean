import Mathlib.Algebra.BigOperators.Group.List.Lemmas
import Mathlib.Algebra.Field.Basic
import Mathlib.Algebra.Order.BigOperators.Group.List
import Mathlib.Algebra.Order.Field.Basic
import Mathlib.Tactic.Linarith

/-!
# Weighted medians

Items with a price in a linear order and a weight in an ordered field. The lower weighted median is a price of an item
such that the items of smaller prices weigh less than half, and those of greater prices at most half of the total.

There is one such price at most, and it does not depend on the order of the items. In ascending order of prices it is
the one at which the running weight first reaches half of the total (`isMedian_scan`).
-/

namespace WeightedMedian
variable {α β P W : Type*} [Field W]

/-- The weight of some items. -/
def total (weight : α → W) (xs : List α) : W := (xs.map weight).sum

variable {price : α → P} {weight : α → W} {xs ys pre post : List α} {x : α} {m m' : P} {half cumulative : W}

/-- Weights add up. -/
@[simp] lemma total_append : total weight (xs ++ ys) = total weight xs + total weight ys := by
  rw [total, List.map_append, List.sum_append, total, total]

/-- The first weight is added. -/
@[simp] lemma total_cons : total weight (x :: xs) = weight x + total weight xs := List.sum_cons

/-- The order does not matter. -/
lemma total_perm (perm : xs.Perm ys) : total weight xs = total weight ys := (perm.map weight).sum_eq

variable [LinearOrder W]

/-- The price at which the running weight first reaches `half`. -/
def scan (price : α → P) (weight : α → W) (half : W) : W → List α → Option P
  | _, [] => none
  | cumulative, x :: xs =>
    if cumulative + weight x ≥ half then some (price x) else scan price weight half (cumulative + weight x) xs

/-- The scan stops at an item, before which the running weight is too small, by induction on the items. -/
lemma scan_spec (price : α → P) (start : cumulative < half) (enough : half ≤ cumulative + total weight xs) :
    ∃ pre x post, xs = pre ++ x :: post ∧ scan price weight half cumulative xs = some (price x) ∧
      cumulative + total weight pre < half ∧ half ≤ cumulative + total weight pre + weight x := by
  induction xs generalizing cumulative with
  | nil =>
    rw [total, List.map_nil, List.sum_nil, add_zero] at enough
    exact absurd start (not_lt.2 enough)
  | cons y ys ih =>
    rw [scan]
    by_cases reached : cumulative + weight y ≥ half
    · refine ⟨[], y, ys, rfl, if_pos reached, ?_, ?_⟩
      · rwa [total, List.map_nil, List.sum_nil, add_zero]
      · rwa [total, List.map_nil, List.sum_nil, add_zero]
    · rw [total_cons, ← add_assoc] at enough
      obtain ⟨pre, x, post, rfl, found, before, at_x⟩ := ih (not_le.1 reached) enough
      refine ⟨y :: pre, x, post, rfl, (if_neg reached).trans found, ?_, ?_⟩
      · rwa [total_cons, ← add_assoc]
      · rwa [total_cons, ← add_assoc]

variable [LinearOrder P]

/-- The weight of the items of smaller prices. -/
def below (price : α → P) (weight : α → W) (xs : List α) (m : P) : W := total weight (xs.filter fun x => price x < m)

/-- The weight of the items of greater prices. -/
def above (price : α → P) (weight : α → W) (xs : List α) (m : P) : W := total weight (xs.filter fun x => m < price x)

/-- The lower weighted median. -/
structure IsMedian (price : α → P) (weight : α → W) (xs : List α) (m : P) : Prop where
  observed : m ∈ xs.map price
  below : below price weight xs m < total weight xs / 2
  above : above price weight xs m ≤ total weight xs / 2

/-- The order does not matter for the median. -/
lemma IsMedian.perm (perm : xs.Perm ys) (median : IsMedian price weight xs m) : IsMedian price weight ys m := by
  obtain ⟨observed, low, high⟩ := median
  rw [WeightedMedian.below, total_perm (perm.filter _), total_perm perm] at low
  rw [WeightedMedian.above, total_perm (perm.filter _), total_perm perm] at high
  exact ⟨(perm.map price).mem_iff.1 observed, low, high⟩

/-- The median of the images. -/
lemma isMedian_map {f : β → α} {zs : List β} :
    IsMedian price weight (zs.map f) m ↔ IsMedian (price ∘ f) (weight ∘ f) zs m := by
  have sum (zs : List β) : total weight (zs.map f) = total (weight ∘ f) zs := by rw [total, List.map_map, total]
  have low : WeightedMedian.below price weight (zs.map f) m = WeightedMedian.below (price ∘ f) (weight ∘ f) zs m := by
    rw [WeightedMedian.below, List.filter_map, sum]
    rfl
  have high : WeightedMedian.above price weight (zs.map f) m = WeightedMedian.above (price ∘ f) (weight ∘ f) zs m := by
    rw [WeightedMedian.above, List.filter_map, sum]
    rfl
  constructor
  · rintro ⟨observed, lower, upper⟩
    rw [low, sum] at lower
    rw [high, sum] at upper
    rw [List.map_map] at observed
    exact ⟨observed, lower, upper⟩
  · rintro ⟨observed, lower, upper⟩
    rw [← List.map_map] at observed
    refine ⟨observed, ?_, ?_⟩
    · rwa [low, sum]
    · rwa [high, sum]

variable [IsStrictOrderedRing W]

/-- Weights that are not negative have such a total. -/
lemma total_nonneg (nonneg : ∀ x ∈ xs, 0 ≤ weight x) : 0 ≤ total weight xs := by
  refine List.sum_nonneg fun w mem => ?_
  obtain ⟨x, item, rfl⟩ := List.mem_map.1 mem
  exact nonneg x item

/-- A part of the items weighs no more than all. -/
lemma total_filter_le (nonneg : ∀ x ∈ xs, 0 ≤ weight x) (p : α → Bool) :
    total weight (xs.filter p) ≤ total weight xs := by
  have rest : 0 ≤ total weight (xs.filter fun x => !p x) :=
    total_nonneg fun x mem => nonneg x (List.mem_of_mem_filter mem)
  have all : total weight (xs.filter p ++ xs.filter fun x => !p x) = total weight xs :=
    total_perm (List.filter_append_perm p xs)
  rw [total_append] at all
  linarith

/-- Of two prices the items below the greater one and those above the smaller one are all items. -/
lemma total_le_of_lt (nonneg : ∀ x ∈ xs, 0 ≤ weight x) (lt : m < m') :
    total weight xs ≤ WeightedMedian.below price weight xs m' + WeightedMedian.above price weight xs m := by
  have parts : total weight ((xs.filter fun x => price x < m') ++ xs.filter fun x => !decide (price x < m')) =
      total weight xs :=
    total_perm (List.filter_append_perm _ xs)
  have others : total weight (xs.filter fun x => !decide (price x < m')) ≤ WeightedMedian.above price weight xs m := by
    have sub : (xs.filter fun x => !decide (price x < m')) =
        (xs.filter fun x => m < price x).filter fun x => !decide (price x < m') := by
      rw [List.filter_filter]
      refine List.filter_congr fun x _ => ?_
      by_cases less : price x < m'
      · rw [decide_eq_true less, Bool.not_true, Bool.false_and]
      · rw [decide_eq_true (lt.trans_le (not_lt.1 less)), Bool.and_true]
    rw [sub]
    exact total_filter_le (fun x mem => nonneg x (List.mem_of_mem_filter mem)) _
  rw [total_append] at parts
  rw [WeightedMedian.below]
  linarith

/-- There is one median. -/
theorem IsMedian.unique (nonneg : ∀ x ∈ xs, 0 ≤ weight x) (median : IsMedian price weight xs m)
    (median' : IsMedian price weight xs m') : m = m' := by
  rcases lt_trichotomy m m' with less | same | greater
  · have low := median'.below
    have high := median.above
    have all : total weight xs ≤ WeightedMedian.below price weight xs m' + WeightedMedian.above price weight xs m :=
      total_le_of_lt nonneg less
    linarith
  · exact same
  · have low := median.below
    have high := median'.above
    have all : total weight xs ≤ WeightedMedian.below price weight xs m + WeightedMedian.above price weight xs m' :=
      total_le_of_lt nonneg greater
    linarith

/-- Where the prices ascend and the running weight passes half of the total at an item, its price is the median. -/
lemma isMedian_of_split (ascends : (pre ++ x :: post).Pairwise fun a b => price a ≤ price b)
    (nonneg : ∀ y ∈ pre ++ x :: post, 0 ≤ weight y)
    (before : total weight pre < total weight (pre ++ x :: post) / 2)
    (at_x : total weight (pre ++ x :: post) / 2 ≤ total weight pre + weight x) :
    IsMedian price weight (pre ++ x :: post) (price x) := by
  obtain ⟨-, tail, cross⟩ := List.pairwise_append.1 ascends
  obtain ⟨behind, -⟩ := List.pairwise_cons.1 tail
  refine ⟨List.mem_map_of_mem (List.mem_append_right _ (List.mem_cons_self ..)), ?_, ?_⟩
  · -- what is cheaper stands before the item
    have none : (x :: post).filter (fun y => price y < price x) = [] := by
      refine List.filter_eq_nil_iff.2 fun y mem less => ?_
      rcases List.mem_cons.1 mem with rfl | later
      · exact lt_irrefl _ (of_decide_eq_true less)
      · exact not_le.2 (of_decide_eq_true less) (behind y later)
    rw [WeightedMedian.below, List.filter_append, none, List.append_nil]
    exact (total_filter_le (fun y mem => nonneg y (List.mem_append_left _ mem)) _).trans_lt before
  · -- what is dearer stands behind it
    have none : pre.filter (fun y => price x < price y) = [] :=
      List.filter_eq_nil_iff.2 fun y mem more =>
        not_le.2 (of_decide_eq_true more) (cross y mem x (List.mem_cons_self ..))
    rw [WeightedMedian.above, List.filter_append, none, List.nil_append, List.filter_cons_of_neg (by simp)]
    have part : total weight (post.filter fun y => price x < price y) ≤ total weight post :=
      total_filter_le (fun y mem => nonneg y (List.mem_append_right _ (List.mem_cons_of_mem _ mem))) _
    rw [total_append, total_cons] at at_x ⊢
    linarith

/-- The scan of items in ascending order finds the median. -/
theorem isMedian_scan (ascends : xs.Pairwise fun a b => price a ≤ price b) (nonneg : ∀ x ∈ xs, 0 ≤ weight x)
    (pos : 0 < total weight xs) :
    ∃ m, scan price weight (total weight xs / 2) 0 xs = some m ∧ IsMedian price weight xs m := by
  have enough : total weight xs / 2 ≤ 0 + total weight xs := by linarith
  obtain ⟨pre, x, post, rfl, found, before, at_x⟩ := scan_spec price (half_pos pos) enough
  rw [zero_add] at before at_x
  exact ⟨price x, found, isMedian_of_split ascends nonneg before at_x⟩

end WeightedMedian
