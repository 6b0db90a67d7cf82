import Mathlib.Algebra.Order.Ring.Rat
import StellarFlow.Lib.WeightedMedian

/-!
# The off-chain spot price

Model of `calculateVolumeWeightedMedian` and `calculateMedian` in `src/services/offchainPriceAggregator.ts`, with
rational prices and volumes. The spot price is the lower weighted median of the observed prices: every observation
weighs something, so the total is positive and the unweighted median is never taken.
-/

namespace StellarFlow.Prices
open WeightedMedian

/-- The price and the volume of a `PriceObservation`. -/
structure PriceObservation where
  price : ℚ
  volume : ℚ

/-- `observation.volume > 0 ? observation.volume : 1`. -/
def PriceObservation.weight (observation : PriceObservation) : ℚ :=
  if observation.volume > 0 then observation.volume else 1

/-- The observations with their weights, by price. -/
def weighted (observations : List PriceObservation) : List PriceObservation :=
  (observations.map fun observation => ⟨observation.price, observation.weight⟩).mergeSort
    fun left right => left.price ≤ right.price

def calculateMedian (values : List ℚ) : ℚ :=
  if values = [] then 0
  else
    let sorted := values.mergeSort (· ≤ ·)
    let midpoint := sorted.length / 2
    if sorted.length % 2 = 0 then
      let left := (sorted[midpoint - 1]?.or sorted[midpoint]?).getD 0
      let right := (sorted[midpoint]?.or sorted[midpoint - 1]?).getD 0
      (left + right) / 2
    else sorted[midpoint]?.getD 0

def calculateVolumeWeightedMedian (observations : List PriceObservation) : ℚ :=
  if observations = [] then 0
  else
    let samples := weighted observations
    let totalVolume := total PriceObservation.volume samples
    if totalVolume ≤ 0 then calculateMedian (samples.map PriceObservation.price)
    else
      match scan PriceObservation.price PriceObservation.volume (totalVolume / 2) 0 samples with
      | some price => price
      | none => (samples.getLast?.map PriceObservation.price).getD 0

/-- The spot price of the observations by price and weight. -/
def IsSpotPrice (observations : List PriceObservation) (m : ℚ) : Prop :=
  IsMedian PriceObservation.price PriceObservation.weight observations m

variable {observations other : List PriceObservation} {observation : PriceObservation} {m : ℚ}

/-- Every observation weighs something. -/
lemma PriceObservation.weight_pos (observation : PriceObservation) : 0 < observation.weight := by
  rw [PriceObservation.weight]
  split
  case isTrue pos => exact pos
  case isFalse => exact one_pos

/-- Sorting loses no observation. -/
lemma weighted_perm (observations : List PriceObservation) :
    (weighted observations).Perm (observations.map fun observation => ⟨observation.price, observation.weight⟩) :=
  List.mergeSort_perm ..

/-- The samples weigh what the observations weigh. -/
lemma isMedian_weighted :
    IsMedian PriceObservation.price PriceObservation.volume (weighted observations) m ↔ IsSpotPrice observations m := by
  have same : IsMedian PriceObservation.price PriceObservation.volume
      (observations.map fun observation => ⟨observation.price, observation.weight⟩) m ↔ IsSpotPrice observations m :=
    isMedian_map
  rw [← same]
  exact ⟨IsMedian.perm (weighted_perm observations), IsMedian.perm (weighted_perm observations).symm⟩

/-- Every volume is positive. -/
lemma volume_pos_of_mem (mem : observation ∈ weighted observations) : 0 < observation.volume := by
  obtain ⟨source, -, rfl⟩ := List.mem_map.1 ((weighted_perm observations).mem_iff.1 mem)
  exact source.weight_pos

/-- The prices ascend. -/
lemma weighted_ascends (observations : List PriceObservation) :
    (weighted observations).Pairwise fun left right => left.price ≤ right.price := by
  have sorted : (weighted observations).Pairwise fun left right => decide (left.price ≤ right.price) = true := by
    refine List.pairwise_mergeSort (fun a b c le le' => ?_) (fun a b => ?_) _
    · exact decide_eq_true ((of_decide_eq_true le).trans (of_decide_eq_true le'))
    · rw [Bool.or_eq_true, decide_eq_true_iff, decide_eq_true_iff]
      exact le_total _ _
  exact sorted.imp of_decide_eq_true

/-- The total volume is positive, so the weighted median is taken. -/
lemma totalVolume_pos (nonempty : observations ≠ []) : 0 < total PriceObservation.volume (weighted observations) := by
  refine List.sum_pos _ (fun w mem => ?_) fun none => nonempty ?_
  · obtain ⟨sample, item, rfl⟩ := List.mem_map.1 mem
    exact volume_pos_of_mem item
  · have length := (weighted_perm observations).length_eq
    rw [List.map_eq_nil_iff.1 none, List.length_map] at length
    exact List.eq_nil_of_length_eq_zero length.symm

/-- What is calculated is the spot price. -/
lemma isSpotPrice_calculate (nonempty : observations ≠ []) :
    IsSpotPrice observations (calculateVolumeWeightedMedian observations) := by
  have pos := totalVolume_pos nonempty
  obtain ⟨m, found, median⟩ :=
    isMedian_scan (weighted_ascends observations) (fun sample mem => (volume_pos_of_mem mem).le) pos
  rw [calculateVolumeWeightedMedian, if_neg nonempty, if_neg (not_le.2 pos), found]
  exact isMedian_weighted.1 median

/-- There is one spot price. -/
lemma IsSpotPrice.unique {m' : ℚ} (spot : IsSpotPrice observations m) (spot' : IsSpotPrice observations m') : m = m' :=
  IsMedian.unique (fun observation _ => observation.weight_pos.le) spot spot'

/-- The spot price is observed, what is cheaper weighs less than half, what is dearer at most half, and the order of the
observations does not matter. -/
theorem spot_price_is_median (nonempty : observations ≠ []) :
    IsSpotPrice observations (calculateVolumeWeightedMedian observations) ∧
    ∀ other, observations.Perm other →
      calculateVolumeWeightedMedian other = calculateVolumeWeightedMedian observations := by
  refine ⟨isSpotPrice_calculate nonempty, fun other perm => ?_⟩
  have nonempty' : other ≠ [] := fun none => nonempty (perm.trans (none ▸ List.Perm.refl _)).eq_nil
  have spot : IsSpotPrice other (calculateVolumeWeightedMedian observations) :=
    IsMedian.perm perm (isSpotPrice_calculate nonempty)
  exact (isSpotPrice_calculate nonempty').unique spot

/-- Two sources, one without a volume. -/
theorem spot_price_is_median_sample :
    IsSpotPrice [⟨3, 5⟩, ⟨2, 0⟩] (calculateVolumeWeightedMedian [⟨3, 5⟩, ⟨2, 0⟩]) ∧
    ∀ other, [(⟨3, 5⟩ : PriceObservation), ⟨2, 0⟩].Perm other →
      calculateVolumeWeightedMedian other = calculateVolumeWeightedMedian [⟨3, 5⟩, ⟨2, 0⟩] :=
  spot_price_is_median (List.cons_ne_nil _ _)

end StellarFlow.Prices
