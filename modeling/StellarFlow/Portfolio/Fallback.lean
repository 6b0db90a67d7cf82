import StellarFlow.Lib.Dict
import StellarFlow.Portfolio.WaterFilling

/-!
# Fallback allocation

Model of `_capacity_caps` and `_fallback_proportional_allocation` in `app/services/portfolio_optimizer.py`, with exact
numbers. A strategy with a negative APY has a negative weight, so the others have together more than the capital; a
weight that is still negative after the loop is raised to zero, and the weights then sum to more than one.

What is negative at the end is the lowest weight, if any is: all weights that are not capped come from those at the
start by one factor and one amount.
-/

namespace StellarFlow.Portfolio

/-- What the fallback reads of a strategy. -/
structure Strategy where
  id : String
  currentApy : ℚ
  capacity : Option ℚ
  riskScore : ℚ

/-- The diagnostics of an allocation. -/
structure Metrics where
  expectedApy : ℚ
  portfolioRiskScore : ℚ
  capitalDeployedFraction : ℚ
  riskBudget : ℚ

/-- The cap of a strategy in `_capacity_caps`. -/
def PortfolioOptimizer.capOf (optimizer : PortfolioOptimizer) (totalCapital : ℚ) (strategy : Strategy) : ℚ :=
  let cap := match strategy.capacity with
    | some capacity =>
      if totalCapital > 0 then min optimizer.maxSingleAllocation (capacity / totalCapital)
      else optimizer.maxSingleAllocation
    | none => optimizer.maxSingleAllocation
  max cap 0

/-- `_capacity_caps`. -/
def PortfolioOptimizer.capacityCaps (optimizer : PortfolioOptimizer) (strategies : List Strategy) (totalCapital : ℚ) :
    List ℚ :=
  strategies.map (optimizer.capOf totalCapital)

/-- The weights before they are capped. -/
def apyWeights (strategies : List Strategy) : List ℚ :=
  let apys := strategies.map Strategy.currentApy
  let totalApy := apys.sum
  if totalApy = 0 then apys.map fun _ => 1 / strategies.length else apys.map fun apy => apy / totalApy

/-- `{strategy_ids[i]: float(allocated[i]) for i in range(len(strategies))}`. -/
def allocationsOf (strategies : List Strategy) (allocated : List ℚ) : Dict String ℚ :=
  (strategies.zip allocated).foldl (fun d e => d.set e.1.id e.2) Dict.empty

/-- `_fallback_proportional_allocation`. -/
def PortfolioOptimizer.fallbackProportionalAllocation (optimizer : PortfolioOptimizer) (strategies : List Strategy)
    (totalCapital : ℚ) : Except PyError (Dict String ℚ × Metrics) := do
  let adjusted ← capWeights (apyWeights strategies) (optimizer.capacityCaps strategies totalCapital)
  let budgeted := optimizer.applyRiskBudget adjusted (strategies.map Strategy.riskScore)
  let allocated := budgeted.1
  return (allocationsOf strategies allocated,
    { expectedApy := (List.zipWith (fun apy weight => apy * weight) (strategies.map Strategy.currentApy) allocated).sum
      portfolioRiskScore := budgeted.2
      capitalDeployedFraction := allocated.sum
      riskBudget := optimizer.maxPortfolioRisk })

/-- What the strategies over their caps have too much goes in equal shares to the others, which have nothing between
them, and a share makes up for the lowest weight. -/
def Shared (weights caps : List ℚ) : Prop :=
  let cut := (slots weights caps).map Slot.cut
  let amount := min (overflow (slots weights caps)) (headroom cut)
  tolerance < amount ∧ freeBase cut ≤ tolerance ∧ ∀ weight ∈ weights, 0 ≤ weight + amount / (free cut).length

/-- No APY is negative, or the negative ones cannot bring the others over the capital. -/
def PortfolioOptimizer.Covered (optimizer : PortfolioOptimizer) (strategies : List Strategy) (totalCapital : ℚ) :
    Prop :=
  (∀ s ∈ strategies, 0 ≤ s.currentApy) ∨
  (∃ lowest, (∀ s ∈ strategies, lowest ≤ s.currentApy) ∧
    ((strategies.filter fun s => lowest < s.currentApy).map (optimizer.capOf totalCapital)).sum ≤ 1) ∨
  Shared (apyWeights strategies) (optimizer.capacityCaps strategies totalCapital) ∨
  (0 < optimizer.maxPortfolioRisk ∧ optimizer.maxPortfolioRisk < 1 ∧
    ∀ s ∈ strategies, optimizer.maxPortfolioRisk ≤ s.riskScore)

section Lowest
variable {factor lift bound lowest weight cap : ℚ} {weights caps : List ℚ} {before after : List Slot} {slot : Slot}

/-- The caps of the weights above the lowest. -/
def capsAbove (lowest : ℚ) (weights caps : List ℚ) : ℚ :=
  (List.zipWith (fun weight cap => if lowest < weight then cap else 0) weights caps).sum

/-- Where the lowest weight ends below zero, only those above it are not raised to zero. -/
lemma Levelled.clipped_le (levelled : Levelled factor lift weights after) (least : ∀ weight ∈ weights, lowest ≤ weight)
    (under : factor * lowest + lift < 0) : (clipped after).sum ≤ capsAbove lowest weights (after.map Slot.cap) := by
  induction levelled with
  | nil => exact le_rfl
  | @cons weight slot weights after level _ ih =>
    have rest := ih fun w mem => least w (List.mem_cons_of_mem weight mem)
    rw [clipped, capsAbove, List.map_cons, List.map_cons, List.zipWith_cons_cons, List.sum_cons, List.sum_cons,
      ← clipped, ← capsAbove]
    refine add_le_add ?_ rest
    split
    case isTrue => exact max_le level.cap_nonneg (min_le_right _ _)
    case isFalse lowest_ =>
      obtain rfl : lowest = weight := le_antisymm (least weight List.mem_cons_self) (not_lt.mp lowest_)
      cases capped : slot.capped with
      | true => linarith only [(level.capped capped).2, level.cap_nonneg, under]
      | false =>
        rw [level.uncapped capped]
        exact max_le le_rfl ((min_le_left _ _).trans under.le)

/-- The weights sum to no more than before, or than the caps of those above the lowest. -/
lemma Filled.sum_le_of_lowest (filled : Filled weights before after) (least : ∀ weight ∈ weights, lowest ≤ weight)
    (within : total before ≤ bound) (above : capsAbove lowest weights (before.map Slot.cap) ≤ bound) :
    (clipped after).sum ≤ bound := by
  obtain ⟨factor, lift, stretched, lifted, levelled⟩ := filled.level
  rcases le_or_gt 0 (factor * lowest + lift) with raised | under
  · refine (sum_clipped_le fun slot mem => ?_).trans (filled.le.trans within)
    obtain ⟨weight, mem', level⟩ := levelled.exists_weight slot mem
    refine level.result_nonneg (raised.trans ?_)
    nlinarith only [least weight mem', stretched]
  · rw [← filled.caps] at above
    exact (levelled.clipped_le least under).trans above

/-- What a slot makes of its weight can be taken for its weight. -/
lemma Level.restart (level : Level factor lift weight slot) : Level 1 0 (factor * weight + lift) slot := by
  refine ⟨fun capped => ?_, fun uncapped => ?_, level.cap_nonneg⟩
  · rw [one_mul, add_zero]
    exact level.capped capped
  · rw [one_mul, add_zero]
    exact level.uncapped uncapped

/-- A share that makes up for the lowest weight keeps the total. -/
lemma sum_clipped_le_of_shared (same : weights.length = caps.length) (nonneg : ∀ cap ∈ caps, 0 ≤ cap)
    (shared : Shared weights caps) : (clipped (filled weights caps)).sum ≤ weights.sum := by
  obtain ⟨some_, low, covers⟩ := shared
  obtain ⟨cut, room⟩ := lt_min_iff.mp some_
  have levelled := (levelled_slots same nonneg).cut
  have total_ := total_slots same
  have length := length_slots same
  have rest : filled weights caps = rounds (weights.length + 1) (slots weights caps) := rfl
  generalize slots weights caps = start at *
  obtain ⟨first, -⟩ := (round_cases start).resolve_left fun stops =>
    stops.2.elim (not_le.mpr cut) (not_le.mpr room)
  obtain ⟨kept, fewer⟩ := round_goes_on levelled.atCaps (congrArg Prod.snd first)
  rw [rounds, first, if_pos rfl] at rest
  rw [first] at kept fewer
  generalize min (overflow start) (headroom (start.map Slot.cut)) = amount at *
  have share : 0 ≤ amount / (free (start.map Slot.cut)).length :=
    div_nonneg (tolerance_pos.trans some_).le (Nat.cast_nonneg _)
  -- the weights that the other rounds start from
  have lifted : Levelled 1 0 (weights.map fun weight => weight + amount / (free (start.map Slot.cut)).length)
      (redistribute amount (start.map Slot.cut)) := by
    rw [redistribute, if_pos low]
    refine List.forall₂_map_left_iff.mpr (List.forall₂_map_right_iff.mpr (levelled.imp fun weight slot level => ?_))
    have given := (Level.give (fun _ => amount / (free (start.map Slot.cut)).length) level le_rfl share
      fun x => by ring).restart
    rwa [one_mul, one_mul, mul_zero, zero_add] at given
  have enough : (free (redistribute amount (start.map Slot.cut))).length < weights.length :=
    fewer.trans_le ((List.length_filter_le _ _).trans_eq length)
  have others := lifted.rounds enough le_rfl le_rfl
  rw [← rest] at others
  calc (clipped (filled weights caps)).sum ≤ total (filled weights caps) :=
        sum_clipped_le (others.result_nonneg (by simpa using covers))
    _ ≤ total (redistribute amount (start.map Slot.cut)) := others.le
    _ ≤ total start := kept.trans_le (min_le_left _ _)
    _ = weights.sum := total_

/-- No weight is less than what one factor, at least one, and one amount make of it, or than its cap. -/
lemma Levelled.min_le_clipped (levelled : Levelled factor lift weights after) (stretched : 1 ≤ factor)
    (least : ∀ weight ∈ weights, lowest ≤ weight) (near : -(factor * lowest + lift) ≤ bound) (nonneg : 0 ≤ bound) :
    (List.zipWith (fun weight cap => min cap (weight - lowest)) weights (after.map Slot.cap)).sum ≤
      (clipped after).sum + weights.length * bound := by
  induction levelled with
  | nil => simp [clipped]
  | @cons weight slot weights after level _ ih =>
    have rest := ih fun w mem => least w (List.mem_cons_of_mem weight mem)
    have first : min slot.cap (weight - lowest) ≤ max 0 (min slot.result slot.cap) + bound := by
      cases capped : slot.capped with
      | true =>
        rw [(level.capped capped).1, min_self, max_eq_right level.cap_nonneg]
        exact (min_le_left _ _).trans (le_add_of_nonneg_right nonneg)
      | false =>
        rw [level.uncapped capped]
        rcases min_cases (factor * weight + lift) slot.cap with ⟨eq, _⟩ | ⟨eq, _⟩
        · rw [eq]
          have grown := least weight List.mem_cons_self
          have above : weight - lowest ≤ factor * weight + lift + bound := by nlinarith only [stretched, grown, near]
          exact (min_le_right _ _).trans (above.trans (add_le_add_left (le_max_right _ _) _))
        · rw [eq]
          exact (min_le_left _ _).trans ((le_max_right _ _).trans (le_add_of_nonneg_right nonneg))
    rw [clipped] at rest ⊢
    simp only [List.map_cons, List.zipWith_cons_cons, List.sum_cons, List.length_cons, Nat.cast_succ]
    linarith only [first, rest]

/-- What is cut at the caps sums up to no more than they do. -/
lemma sum_min_le_caps (lowest : ℚ) (same : weights.length = caps.length) :
    (List.zipWith (fun weight cap => min cap (weight - lowest)) weights caps).sum ≤ caps.sum := by
  induction weights generalizing caps with
  | nil =>
    obtain rfl := List.length_eq_zero_iff.mp same.symm
    exact le_rfl
  | cons weight weights ih =>
    cases caps with
    | nil => cases same
    | cons cap caps =>
      rw [List.zipWith_cons_cons, List.sum_cons, List.sum_cons]
      exact add_le_add (min_le_left _ _) (ih (Nat.succ.inj same))

/-- As much as the lowest weight is below zero, the sum exceeds the total, up to the tolerances. -/
lemma Filled.raised (filled : Filled weights before after) (levelled : Levelled factor lift weights after)
    (mem : lowest ∈ weights) :
    -(factor * lowest + lift) ≤ (clipped after).sum - total after + weights.length * tolerance := by
  have each : ∀ x ∈ after.map fun slot => max 0 (min slot.result slot.cap) + (-slot.result + tolerance), 0 ≤ x := by
    intro x found
    obtain ⟨slot, slot_mem, rfl⟩ := List.mem_map.mp found
    have fits := filled.within slot slot_mem
    have below : slot.result - tolerance ≤ min slot.result slot.cap :=
      le_min (by linarith only [tolerance_pos]) (by linarith only [fits])
    linarith only [below, le_max_right 0 (min slot.result slot.cap)]
  have sum : (after.map fun slot => max 0 (min slot.result slot.cap) + (-slot.result + tolerance)).sum =
      (clipped after).sum - total after + weights.length * tolerance := by
    have negated : (after.map fun slot => -slot.result).sum = -total after := by
      rw [total, List.sum_neg, List.map_map]
      rfl
    rw [List.sum_map_add, List.sum_map_add, List.map_const', List.sum_replicate, nsmul_eq_mul, negated, clipped,
      levelled.length_eq]
    ring
  rw [← sum]
  obtain ⟨slot, slot_mem, level⟩ := exists_related levelled lowest mem
  have single := List.single_le_sum each _ (List.mem_map_of_mem slot_mem)
  refine le_trans ?_ single
  have pos := tolerance_pos
  cases capped : slot.capped with
  | true =>
    obtain ⟨atCap, below⟩ := level.capped capped
    rw [atCap, min_self, max_eq_right level.cap_nonneg]
    linarith only [below, level.cap_nonneg, pos]
  | false =>
    rw [level.uncapped capped]
    linarith only [le_max_left 0 (min (factor * lowest + lift) slot.cap), pos]

/-- Weights that sum to at most one leave the caps no more room above the lowest of them than that. -/
lemma Filled.room_above (filled : Filled weights before after) (mem : lowest ∈ weights)
    (least : ∀ weight ∈ weights, lowest ≤ weight) (whole : total before = 1)
    (funded : (clipped after).sum ≤ 1) :
    (List.zipWith (fun weight cap => min cap (weight - lowest)) weights (before.map Slot.cap)).sum ≤
      1 + weights.length * (weights.length + 1) * tolerance := by
  obtain ⟨factor, lift, stretched, _, levelled⟩ := filled.level
  have count : (0 : ℚ) ≤ weights.length := Nat.cast_nonneg _
  have bound : 0 ≤ ((weights.length : ℚ) + 1) * tolerance := mul_nonneg (by linarith only [count]) tolerance_pos.le
  have same : weights.length = (before.map Slot.cap).length := by
    rw [← filled.caps, List.length_map, levelled.length_eq]
  rcases le_or_gt 1 (capacity before) with full | short
  · have kept := filled.ge
    rw [whole, min_eq_left full] at kept
    have raised := filled.raised levelled mem
    have near : -(factor * lowest + lift) ≤ (weights.length + 1) * tolerance := by linarith only [raised, kept, funded]
    have above := levelled.min_le_clipped stretched least near bound
    rw [filled.caps] at above
    linarith only [above, funded]
  · have caps := sum_min_le_caps lowest same
    rw [← capacity] at caps
    have more := mul_nonneg count bound
    linarith only [caps, short, more]

end Lowest

section Values
variable {d : Dict String ℚ}

/-- Setting a key adds no more than its value, where no value is negative. -/
lemma sum_values_set_le (nonneg : ∀ e ∈ d.entries, 0 ≤ e.2) (k : String) (v : ℚ) :
    ((d.set k v).entries.map Prod.snd).sum ≤ (d.entries.map Prod.snd).sum + v := by
  have replaced (entries : List (String × ℚ)) (nodup : (entries.map Prod.fst).Nodup) (nonneg : ∀ e ∈ entries, 0 ≤ e.2) :
      ((entries.map fun e => if e.1 = k then (k, v) else e).map Prod.snd).sum +
          (if k ∈ entries.map Prod.fst then 0 else v) ≤ (entries.map Prod.snd).sum + v := by
    induction entries with
    | nil => simp
    | cons e entries ih =>
      obtain ⟨new, rest⟩ := List.nodup_cons.mp nodup
      have tail := ih rest fun e' mem => nonneg e' (List.mem_cons_of_mem e mem)
      have head := nonneg e List.mem_cons_self
      simp only [List.map_cons, List.sum_cons, List.mem_cons]
      by_cases here : e.1 = k
      · rw [← here, if_neg new] at tail
        rw [← here, if_pos rfl, if_pos (.inl rfl)]
        linarith only [tail, head]
      · rw [if_neg here, if_congr (or_iff_right (Ne.symm here)) rfl rfl]
        linarith only [tail]
  have all := replaced d.entries d.nodup nonneg
  show ((Dict.setEntries d.entries k v).map Prod.snd).sum ≤ _
  rw [Dict.setEntries]
  split
  case isTrue old =>
    rw [if_pos old, add_zero] at all
    exact all
  case isFalse new => rw [List.map_append, List.sum_append, List.map_cons, List.map_nil, List.sum_singleton]

/-- Setting entries adds no more than their values. -/
lemma sum_values_foldl_set_le {more : List (String × ℚ)} (old : ∀ e ∈ d.entries, 0 ≤ e.2) (new : ∀ e ∈ more, 0 ≤ e.2) :
    ((more.foldl (fun d e => d.set e.1 e.2) d).entries.map Prod.snd).sum ≤
      (d.entries.map Prod.snd).sum + (more.map Prod.snd).sum := by
  induction more generalizing d with
  | nil => simp
  | cons e more ih =>
    have first := sum_values_set_le old e.1 e.2
    have rest := ih (d := d.set e.1 e.2) (fun e' mem => ?_) fun e' mem => new e' (List.mem_cons_of_mem e mem)
    · rw [List.foldl_cons, List.map_cons, List.sum_cons]
      linarith only [first, rest]
    · rcases Dict.mem_entries_set mem with rfl | older
      · exact new e List.mem_cons_self
      · exact old e' older.1

end Values

section Allocations
variable {strategies : List Strategy} {weights : List ℚ}

/-- The entries of the returned dictionary, before those of one id are merged. -/
def entriesOf (strategies : List Strategy) (allocated : List ℚ) : List (String × ℚ) :=
  (strategies.zip allocated).map fun e => (e.1.id, e.2)

/-- The allocations are set one after the other. -/
lemma allocationsOf_eq (strategies : List Strategy) (allocated : List ℚ) :
    allocationsOf strategies allocated =
      (entriesOf strategies allocated).foldl (fun d e => d.set e.1 e.2) Dict.empty := by
  rw [allocationsOf, entriesOf, List.foldl_map]

/-- The entries have the weights. -/
lemma map_snd_entriesOf (same : weights.length = strategies.length) :
    (entriesOf strategies weights).map Prod.snd = weights := by
  rw [entriesOf, List.map_map]
  exact List.map_snd_zip same.le

/-- The entries have the ids of the strategies. -/
lemma map_fst_entriesOf (same : weights.length = strategies.length) :
    (entriesOf strategies weights).map Prod.fst = strategies.map Strategy.id := by
  conv_rhs => rw [← List.map_fst_zip same.ge, List.map_map]
  rw [entriesOf, List.map_map]
  rfl

/-- What holds of each weight and its strategy holds of every entry. -/
lemma mem_allocationsOf {R : ℚ → Strategy → Prop} (related : List.Forall₂ R weights strategies) {e : String × ℚ}
    (mem : e ∈ (allocationsOf strategies weights).entries) : ∃ s ∈ strategies, s.id = e.1 ∧ R e.2 s := by
  rw [allocationsOf_eq] at mem
  obtain ⟨⟨s, weight⟩, found, rfl⟩ :=
    List.mem_map.mp ((Dict.mem_entries_foldl_set mem).resolve_left List.not_mem_nil)
  exact ⟨s, (List.of_mem_zip found).1, rfl, (List.forall₂_iff_zip.mp related.flip).2 found⟩

/-- The fraction of the capital that is deployed. -/
def deployed (allocations : Dict String ℚ) : ℚ := (allocations.entries.map Prod.snd).sum

/-- No more is deployed than the weights. -/
lemma deployed_le (same : weights.length = strategies.length) (nonneg : ∀ weight ∈ weights, 0 ≤ weight) :
    deployed (allocationsOf strategies weights) ≤ weights.sum := by
  have values := map_snd_entriesOf same
  have entries : ∀ e ∈ entriesOf strategies weights, 0 ≤ e.2 := fun e mem =>
    nonneg e.2 (values ▸ List.mem_map_of_mem mem)
  have le := sum_values_foldl_set_le (d := Dict.empty) (fun e mem => absurd mem List.not_mem_nil) entries
  rw [values, ← allocationsOf_eq] at le
  exact le.trans_eq (zero_add _)

/-- Where the ids are distinct nothing is merged. -/
lemma deployed_eq (same : weights.length = strategies.length) (distinct : (strategies.map Strategy.id).Nodup) :
    deployed (allocationsOf strategies weights) = weights.sum := by
  have nodup : ((Dict.empty.entries ++ entriesOf strategies weights).map Prod.fst).Nodup :=
    (map_fst_entriesOf same).symm ▸ distinct
  rw [deployed, allocationsOf_eq, Dict.entries_foldl_set nodup]
  exact congrArg List.sum (map_snd_entriesOf same)

end Allocations

section Weights
variable {strategies : List Strategy}

/-- With a positive sum of yields, the weights are the shares of it. -/
lemma apyWeights_eq (positive : 0 < (strategies.map Strategy.currentApy).sum) :
    apyWeights strategies = strategies.map fun s => s.currentApy / (strategies.map Strategy.currentApy).sum := by
  rw [apyWeights, if_neg positive.ne', List.map_map]
  rfl

/-- With a positive sum of yields, the weights sum up to one. -/
lemma sum_apyWeights (positive : 0 < (strategies.map Strategy.currentApy).sum) : (apyWeights strategies).sum = 1 := by
  rw [apyWeights_eq positive]
  simp only [div_eq_mul_inv]
  rw [List.sum_map_mul_right]
  exact mul_inv_cancel₀ positive.ne'

/-- There is a weight for each cap. -/
lemma length_apyWeights (optimizer : PortfolioOptimizer) (strategies : List Strategy) (totalCapital : ℚ) :
    (apyWeights strategies).length = (optimizer.capacityCaps strategies totalCapital).length := by
  rw [apyWeights, PortfolioOptimizer.capacityCaps]
  split <;> simp only [List.length_map]

/-- Caps are not negative. -/
lemma capacityCaps_nonneg (optimizer : PortfolioOptimizer) (strategies : List Strategy) (totalCapital : ℚ) :
    ∀ cap ∈ optimizer.capacityCaps strategies totalCapital, 0 ≤ cap := by
  intro cap mem
  obtain ⟨s, -, rfl⟩ := List.mem_map.mp mem
  exact le_max_right _ _

variable {optimizer : PortfolioOptimizer} {totalCapital : ℚ}

/-- The least yield has the least weight. -/
lemma least_apyWeight (positive : 0 < (strategies.map Strategy.currentApy).sum) {lowest : ℚ}
    (least : ∀ s ∈ strategies, lowest ≤ s.currentApy) :
    ∀ weight ∈ apyWeights strategies, lowest / (strategies.map Strategy.currentApy).sum ≤ weight := by
  intro weight mem
  rw [apyWeights_eq positive] at mem
  obtain ⟨s, mem', rfl⟩ := List.mem_map.mp mem
  exact div_le_div_of_nonneg_right (least s mem') positive.le

/-- The caps of the strategies above the lowest APY. -/
lemma capsAbove_apyWeights (positive : 0 < (strategies.map Strategy.currentApy).sum) (lowest : ℚ) :
    capsAbove (lowest / (strategies.map Strategy.currentApy).sum) (apyWeights strategies)
        (optimizer.capacityCaps strategies totalCapital) =
      ((strategies.filter fun s => lowest < s.currentApy).map (optimizer.capOf totalCapital)).sum := by
  rw [capsAbove, apyWeights_eq positive, PortfolioOptimizer.capacityCaps, List.zipWith_map, List.zipWith_self]
  simp only [div_lt_div_iff_of_pos_right positive]
  rw [List.sum_map_ite, List.map_const', List.sum_replicate, nsmul_zero, add_zero]

/-- The weights before the risk is looked at. -/
lemma sum_clipped_le_one (positive : 0 < (strategies.map Strategy.currentApy).sum)
    (covered : (∀ s ∈ strategies, 0 ≤ s.currentApy) ∨
      (∃ lowest, (∀ s ∈ strategies, lowest ≤ s.currentApy) ∧
        ((strategies.filter fun s => lowest < s.currentApy).map (optimizer.capOf totalCapital)).sum ≤ 1) ∨
      Shared (apyWeights strategies) (optimizer.capacityCaps strategies totalCapital)) :
    (clipped (filled (apyWeights strategies) (optimizer.capacityCaps strategies totalCapital))).sum ≤ 1 := by
  have same := length_apyWeights optimizer strategies totalCapital
  have run := filled_filled same (capacityCaps_nonneg optimizer strategies totalCapital)
  have whole := (total_slots same).trans (sum_apyWeights positive)
  rcases covered with nonneg | ⟨lowest, least, room⟩ | shared
  · have weights : ∀ weight ∈ apyWeights strategies, 0 ≤ weight := by
      have least := least_apyWeight positive nonneg
      rwa [zero_div] at least
    exact (sum_clipped_le (run.result_nonneg weights)).trans (run.le.trans whole.le)
  · refine run.sum_le_of_lowest (least_apyWeight positive least) whole.le ?_
    rw [map_cap_slots same, capsAbove_apyWeights positive]
    exact room
  · have le := sum_clipped_le_of_shared same (capacityCaps_nonneg optimizer strategies totalCapital) shared
    exact le.trans (sum_apyWeights positive).le

end Weights

section Allocated

/-- Where every risk is at least the budget, weights in the budget sum to at most one. -/
lemma sum_mul_le_weightedRisk {weights riskScores : List ℚ} {bound : ℚ} (same : weights.length = riskScores.length)
    (nonneg : ∀ weight ∈ weights, 0 ≤ weight) (risky : ∀ score ∈ riskScores, bound ≤ score) :
    weights.sum * bound ≤ weightedRisk weights riskScores := by
  induction weights generalizing riskScores with
  | nil => simp [weightedRisk]
  | cons weight weights ih =>
    cases riskScores with
    | nil => cases same
    | cons score riskScores =>
      have rest := ih (Nat.succ.inj same) (fun w mem => nonneg w (List.mem_cons_of_mem weight mem)) fun r mem =>
        risky r (List.mem_cons_of_mem score mem)
      have first := mul_le_mul_of_nonneg_left (risky score List.mem_cons_self) (nonneg weight List.mem_cons_self)
      rw [weightedRisk] at rest ⊢
      rw [List.zipWith_cons_cons, List.sum_cons, List.sum_cons]
      linarith only [rest, first]

/-- The weights that are allocated, one for each strategy. -/
def PortfolioOptimizer.allocated (optimizer : PortfolioOptimizer) (strategies : List Strategy) (totalCapital : ℚ) :
    List ℚ :=
  (optimizer.applyRiskBudget (clipped (filled (apyWeights strategies) (optimizer.capacityCaps strategies totalCapital)))
    (strategies.map Strategy.riskScore)).1

variable (optimizer : PortfolioOptimizer) (strategies : List Strategy) (totalCapital : ℚ)

/-- The fallback never fails. -/
lemma fallbackProportionalAllocation_eq :
    ∃ metrics, optimizer.fallbackProportionalAllocation strategies totalCapital =
      .ok (allocationsOf strategies (optimizer.allocated strategies totalCapital), metrics) := by
  rw [PortfolioOptimizer.fallbackProportionalAllocation,
    capWeights_eq (length_apyWeights optimizer strategies totalCapital)]
  exact ⟨_, rfl⟩

/-- Every weight is between zero and the cap of its strategy. -/
lemma allocated_between : List.Forall₂ (fun weight s => 0 ≤ weight ∧ weight ≤ optimizer.capOf totalCapital s)
    (optimizer.allocated strategies totalCapital) strategies := by
  have same := length_apyWeights optimizer strategies totalCapital
  have between := (filled_filled same (capacityCaps_nonneg optimizer strategies totalCapital)).clipped_between
  rw [map_cap_slots same] at between
  obtain ⟨scale, nonneg, le, scaled⟩ := applyRiskBudget_scale optimizer
    (clipped (filled (apyWeights strategies) (optimizer.capacityCaps strategies totalCapital)))
    (strategies.map Strategy.riskScore)
  rw [PortfolioOptimizer.allocated, scaled]
  exact List.forall₂_map_right_iff.mp (between_scale nonneg le between)

/-- No strategy is allocated less than nothing. -/
lemma allocated_nonneg : ∀ weight ∈ optimizer.allocated strategies totalCapital, 0 ≤ weight := by
  intro weight mem
  obtain ⟨s, -, bounds⟩ := exists_related (allocated_between optimizer strategies totalCapital) weight mem
  exact bounds.1

variable {optimizer strategies totalCapital}

/-- Together they are allocated no more than there is. -/
lemma sum_allocated_le_one (positive : 0 < (strategies.map Strategy.currentApy).sum)
    (covered : optimizer.Covered strategies totalCapital) : (optimizer.allocated strategies totalCapital).sum ≤ 1 := by
  have scaled
      (le : (clipped (filled (apyWeights strategies) (optimizer.capacityCaps strategies totalCapital))).sum ≤ 1) :
      (optimizer.allocated strategies totalCapital).sum ≤ 1 := by
    obtain ⟨scale, nonneg, le_one, scaled⟩ := applyRiskBudget_scale optimizer
      (clipped (filled (apyWeights strategies) (optimizer.capacityCaps strategies totalCapital)))
      (strategies.map Strategy.riskScore)
    rw [PortfolioOptimizer.allocated, scaled, List.sum_map_mul_right, List.map_id']
    exact (mul_le_of_le_one_left nonneg le).trans le_one
  rcases covered with nonneg | room | shared | ⟨pos, bounded, risky⟩
  · exact scaled (sum_clipped_le_one positive (.inl nonneg))
  · exact scaled (sum_clipped_le_one positive (.inr (.inl room)))
  · exact scaled (sum_clipped_le_one positive (.inr (.inr shared)))
  · obtain ⟨risk, budgeted⟩ := applyRiskBudget_risk optimizer
      (clipped (filled (apyWeights strategies) (optimizer.capacityCaps strategies totalCapital)))
      (strategies.map Strategy.riskScore)
    have exposure := budgeted bounded
    rw [risk, ← PortfolioOptimizer.allocated] at exposure
    have length := (allocated_between optimizer strategies totalCapital).length_eq
    have scores : ∀ score ∈ strategies.map Strategy.riskScore, optimizer.maxPortfolioRisk ≤ score :=
      List.forall_mem_map.mpr risky
    have least := sum_mul_le_weightedRisk (length.trans (List.length_map _).symm)
      (allocated_nonneg optimizer strategies totalCapital) scores
    exact le_of_mul_le_mul_right ((least.trans exposure).trans_eq (one_mul _).symm) pos

end Allocated

/-- Each strategy gets no more than its cap, and together they get no more than the capital where no APY is negative or
the negative ones do not matter. Where the risk has no budget and they get no more, the caps leave no room for more
above the lowest weight. -/
theorem fallbackProportionalAllocation_funded (optimizer : PortfolioOptimizer) (strategies : List Strategy)
    (totalCapital : ℚ) (positive : 0 < (strategies.map Strategy.currentApy).sum) :
    ∃ allocations metrics,
      optimizer.fallbackProportionalAllocation strategies totalCapital = .ok (allocations, metrics) ∧
      (∀ e ∈ allocations.entries, ∃ s ∈ strategies, s.id = e.1 ∧ 0 ≤ e.2 ∧ e.2 ≤ optimizer.capOf totalCapital s) ∧
      (optimizer.Covered strategies totalCapital → deployed allocations ≤ 1) ∧
      (optimizer.maxPortfolioRisk = 1 → (strategies.map Strategy.id).Nodup → deployed allocations ≤ 1 →
        ∀ lowest ∈ strategies, (∀ s ∈ strategies, lowest.currentApy ≤ s.currentApy) →
          (strategies.map fun s => min (optimizer.capOf totalCapital s)
              ((s.currentApy - lowest.currentApy) / (strategies.map Strategy.currentApy).sum)).sum ≤
            1 + strategies.length * (strategies.length + 1) * (1 / 10 ^ 12)) := by
  obtain ⟨metrics, returned⟩ := fallbackProportionalAllocation_eq optimizer strategies totalCapital
  have between := allocated_between optimizer strategies totalCapital
  refine ⟨_, metrics, returned, fun e mem => mem_allocationsOf between mem, fun covered => ?_, ?_⟩
  · have le := deployed_le between.length_eq (allocated_nonneg optimizer strategies totalCapital)
    exact le.trans (sum_allocated_le_one positive covered)
  · intro unlimited distinct funded lowest mem least
    rw [deployed_eq between.length_eq distinct, PortfolioOptimizer.allocated, PortfolioOptimizer.applyRiskBudget,
      if_pos (.inl unlimited.ge)] at funded
    have same := length_apyWeights optimizer strategies totalCapital
    have run := filled_filled same (capacityCaps_nonneg optimizer strategies totalCapital)
    have least := least_apyWeight positive least
    have mem : lowest.currentApy / (strategies.map Strategy.currentApy).sum ∈ apyWeights strategies := by
      rw [apyWeights_eq positive]
      exact List.mem_map_of_mem mem
    have room := run.room_above mem least ((total_slots same).trans (sum_apyWeights positive)) funded
    rw [map_cap_slots same, apyWeights_eq positive, PortfolioOptimizer.capacityCaps, List.zipWith_map,
      List.zipWith_self, List.length_map, tolerance] at room
    simpa only [sub_div] using room

/-- The defaults: two fifths of the capital for one strategy, and no budget for the risk. -/
def defaultOptimizer : PortfolioOptimizer :=
  { sampleOptimizer with maxPortfolioRisk := 1, risk_nonneg := zero_le_one, risk_le := le_rfl }

/-- Three strategies that gain and one that loses. -/
def losing : List Strategy := [⟨"a", 1, none, 0⟩, ⟨"b", 1, none, 0⟩, ⟨"c", 1, none, 0⟩, ⟨"d", -2, none, 0⟩]

/-- Two strategies that gain. -/
theorem fallbackProportionalAllocation_funded_two :
    ∃ allocations metrics, defaultOptimizer.fallbackProportionalAllocation
      [⟨"a", 3, none, 0⟩, ⟨"b", 1, some 20, 0⟩] 100 = .ok (allocations, metrics) ∧ deployed allocations ≤ 1 := by
  obtain ⟨allocations, metrics, returned, -, funded, -⟩ := fallbackProportionalAllocation_funded defaultOptimizer
    [⟨"a", 3, none, 0⟩, ⟨"b", 1, some 20, 0⟩] 100 (by norm_num)
  exact ⟨allocations, metrics, returned, funded (.inl (by norm_num))⟩

/-- The three that gain are at their caps, and the one that loses is raised to zero. -/
theorem fallbackProportionalAllocation_unfunded :
    0 < (losing.map Strategy.currentApy).sum ∧ ∃ allocations metrics,
      defaultOptimizer.fallbackProportionalAllocation losing 100 = .ok (allocations, metrics) ∧
        deployed allocations = 6 / 5 := by
  have positive : 0 < (losing.map Strategy.currentApy).sum := by norm_num [losing]
  obtain ⟨metrics, returned⟩ := fallbackProportionalAllocation_eq defaultOptimizer losing 100
  exact ⟨positive, _, metrics, returned, by decide +kernel⟩

end StellarFlow.Portfolio
