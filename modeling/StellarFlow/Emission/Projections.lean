import Mathlib.Algebra.BigOperators.Intervals
import Mathlib.Algebra.Order.BigOperators.Group.Finset
import Mathlib.Algebra.Order.Field.Basic
import Mathlib.Algebra.Order.Ring.Rat
import Mathlib.Tactic.Ring

/-!
# Emission rates and projections

Model of `src/services/yieldEmissionService.ts` with rational rates: the halving schedule, the metrics of a block, and
the projections, which jump from period to period.

The schedule ends after twenty periods. From then on the metrics report the rate of the last period, while a projection
stops there, so a projection is the sum of the reported rates exactly when it ends within the schedule
(`projection_agrees_iff`).
-/

namespace StellarFlow.Emission
open Finset

structure EmissionSchedule where
  period : ℕ
  startBlock : ℕ
  endBlock : ℕ
  emissionRate : ℚ
  halvingFactor : ℚ

/-- The metrics; an infinite number is `none`. -/
structure EmissionMetrics where
  currentBlock : ℕ
  currentEmissionRate : ℚ
  currentPeriod : ℕ
  nextHalvingBlock : Option ℕ
  blocksUntilHalving : Option ℕ
  estimatedTimeUntilHalving : Option ℕ

structure EmissionProjection where
  days : ℕ
  totalEmission : ℚ
  averageDailyEmission : ℚ
  blocksInPeriod : ℕ
  startPeriod : ℕ
  endPeriod : ℕ

/-- `BLOCK_TIME_SECONDS`. -/
def blockTimeSeconds : ℕ := 5

/-- `GENESIS_BLOCK`. -/
def genesisBlock : ℕ := 0

/-- `INITIAL_EMISSION_RATE`. -/
def initialEmissionRate : ℚ := 1000

/-- `HALVING_INTERVAL_BLOCKS`. -/
def halvingIntervalBlocks : ℕ := 630720

/-- `HALVING_FACTOR`. -/
def halvingFactor : ℚ := 1 / 2

/-- `totalPeriods`. -/
def totalPeriods : ℕ := 20

/-- The periods that are left in the loop of `generateEmissionSchedule`. -/
def scheduleFrom : ℕ → ℕ → ℚ → ℕ → List EmissionSchedule
  | 0, _, _, _ => []
  | left + 1, period, currentEmissionRate, currentBlock =>
    ⟨period + 1, currentBlock, currentBlock + halvingIntervalBlocks, currentEmissionRate, halvingFactor⟩ ::
      scheduleFrom left (period + 1) (currentEmissionRate * halvingFactor) (currentBlock + halvingIntervalBlocks)

def generateEmissionSchedule : List EmissionSchedule := scheduleFrom totalPeriods 0 initialEmissionRate genesisBlock

/-- `schedule.find` with the period of a block. -/
def findPeriod (schedule : List EmissionSchedule) (block : ℕ) : Option EmissionSchedule :=
  schedule.find? fun period => block ≥ period.startBlock && block < period.endBlock

def calculateCurrentMetrics (schedule : List EmissionSchedule) (currentBlock : ℕ) : Except String EmissionMetrics :=
  match findPeriod schedule currentBlock with
  | none =>
    match schedule.getLast? with
    | none => .error "No emission schedule available"
    | some lastPeriod => .ok ⟨currentBlock, lastPeriod.emissionRate, lastPeriod.period, none, none, none⟩
  | some currentPeriodData =>
    let blocksUntilHalving := currentPeriodData.endBlock - currentBlock
    .ok ⟨currentBlock, currentPeriodData.emissionRate, currentPeriodData.period, some currentPeriodData.endBlock,
      some blocksUntilHalving, some (blocksUntilHalving * blockTimeSeconds)⟩

/-- The loop of `calculateProjections`: the total emission and the last period. -/
def project (schedule : List EmissionSchedule) (endBlock currentBlock : ℕ) (totalEmission : ℚ) (endPeriod : ℕ) :
    ℚ × ℕ :=
  if _more : currentBlock < endBlock then
    match _found : findPeriod schedule currentBlock with
    | none => (totalEmission, endPeriod)
    | some periodData =>
      let blocksInThisPeriod := min (periodData.endBlock - currentBlock) (endBlock - currentBlock)
      project schedule endBlock (currentBlock + blocksInThisPeriod)
        (totalEmission + blocksInThisPeriod * periodData.emissionRate) periodData.period
  else (totalEmission, endPeriod)
termination_by endBlock - currentBlock
decreasing_by
  -- a period that is found reaches beyond the block
  have within := List.find?_some _found
  rw [Bool.and_eq_true, decide_eq_true_iff, decide_eq_true_iff] at within
  omega

/-- The projection over some days. -/
def projection (schedule : List EmissionSchedule) (metrics : EmissionMetrics) (days : ℕ) : EmissionProjection :=
  let blocksInPeriod := days * 24 * 3600 / blockTimeSeconds
  let result := project schedule (metrics.currentBlock + blocksInPeriod) metrics.currentBlock 0 metrics.currentPeriod
  ⟨days, result.1, result.1 / days, blocksInPeriod, metrics.currentPeriod, result.2⟩

def calculateProjections (schedule : List EmissionSchedule) (metrics : EmissionMetrics) : List EmissionProjection :=
  [30, 90, 365].map (projection schedule metrics)

/-- The projection from a block is the sum of the rates that are reported for its blocks, and ends in the period that is
reported for the last one. -/
def Agrees (block : ℕ) (p : EmissionProjection) : Prop :=
  ∃ reported : ℕ → EmissionMetrics,
    (∀ block, calculateCurrentMetrics generateEmissionSchedule block = .ok (reported block)) ∧
    p.totalEmission = ∑ i ∈ range p.blocksInPeriod, (reported (block + i)).currentEmissionRate ∧
    p.endPeriod = (reported (block + p.blocksInPeriod - 1)).currentPeriod

/-- The first block that is not in the schedule. -/
def scheduleEnd : ℕ := totalPeriods * halvingIntervalBlocks

/-- The rate of a period, counted from 0. -/
def rateOf (k : ℕ) : ℚ := initialEmissionRate * halvingFactor ^ k

/-- The rate that is reported for a block: that of its period, or of the last one. -/
def rateAt (block : ℕ) : ℚ := rateOf (min (block / halvingIntervalBlocks) (totalPeriods - 1))

/-- The period that is reported for a block. -/
def periodAt (block : ℕ) : ℕ := min (block / halvingIntervalBlocks) (totalPeriods - 1) + 1

/-- The period of the schedule with a number, counted from 0. -/
def periodData (k : ℕ) : EmissionSchedule :=
  ⟨k + 1, k * halvingIntervalBlocks, (k + 1) * halvingIntervalBlocks, rateOf k, halvingFactor⟩

variable {left k block endBlock endPeriod : ℕ} {total : ℚ}

/-- The schedule lists the periods, by induction on those that are left. -/
lemma scheduleFrom_eq (left k : ℕ) :
    scheduleFrom left k (rateOf k) (k * halvingIntervalBlocks) = (List.range left).map fun i => periodData (k + i) := by
  induction left generalizing k with
  | zero => rfl
  | succ left ih =>
    have rate : rateOf k * halvingFactor = rateOf (k + 1) := by
      rw [rateOf, rateOf, pow_succ, mul_assoc]
    have block : k * halvingIntervalBlocks + halvingIntervalBlocks = (k + 1) * halvingIntervalBlocks :=
      (Nat.succ_mul ..).symm
    rw [scheduleFrom, rate, block, ih, List.range_succ_eq_map, List.map_cons, List.map_map]
    refine congrArg _ (List.map_congr_left fun i _ => ?_)
    rw [Function.comp_apply, Nat.succ_eq_add_one, Nat.add_right_comm, Nat.add_assoc]

/-- The schedule lists the periods in their order. -/
lemma schedule_eq : generateEmissionSchedule = (List.range totalPeriods).map periodData := by
  have first : initialEmissionRate = rateOf 0 := by rw [rateOf, pow_zero, mul_one]
  have schedule := scheduleFrom_eq totalPeriods 0
  rw [Nat.zero_mul] at schedule
  rw [generateEmissionSchedule, first, genesisBlock, schedule]
  simp only [Nat.zero_add]

/-- An interval has blocks. -/
lemma interval_pos : 0 < halvingIntervalBlocks := by decide

/-- A period has the blocks whose quotient it is. -/
lemma within_iff : (block ≥ (periodData k).startBlock && block < (periodData k).endBlock) = true ↔
    block / halvingIntervalBlocks = k := by
  rw [Bool.and_eq_true, decide_eq_true_iff, decide_eq_true_iff, Nat.div_eq_iff interval_pos, periodData,
    Nat.succ_mul]
  exact and_congr_right fun _ => (Nat.le_sub_one_iff_lt (Nat.add_pos_right _ interval_pos)).symm

/-- The search finds the period of the quotient, if the schedule lists it. -/
lemma findPeriod_eq_find? (block : ℕ) : findPeriod generateEmissionSchedule block =
    ((List.range totalPeriods).find? fun k => block / halvingIntervalBlocks = k).map periodData := by
  have same (k : ℕ) : (block ≥ (periodData k).startBlock && block < (periodData k).endBlock) =
      decide (block / halvingIntervalBlocks = k) := by
    rw [Bool.eq_iff_iff, within_iff, decide_eq_true_iff]
  rw [findPeriod, schedule_eq, List.find?_map]
  simp only [Function.comp_def, same]

/-- Within the schedule a block is found in the period that its number of intervals names. -/
lemma findPeriod_eq (within : block < scheduleEnd) :
    findPeriod generateEmissionSchedule block = some (periodData (block / halvingIntervalBlocks)) := by
  have listed : block / halvingIntervalBlocks < totalPeriods := Nat.div_lt_of_lt_mul (Nat.mul_comm .. ▸ within)
  rw [findPeriod_eq_find?, Option.map_eq_some_iff]
  refine ⟨block / halvingIntervalBlocks, ?_, rfl⟩
  refine List.find?_range_eq_some.2 ⟨decide_eq_true rfl, List.mem_range.2 listed, fun k lt => ?_⟩
  rw [Bool.not_eq_true', decide_eq_false_iff_not]
  exact Nat.ne_of_gt lt

/-- Behind the schedule none is found. -/
lemma findPeriod_beyond (beyond : scheduleEnd ≤ block) : findPeriod generateEmissionSchedule block = none := by
  rw [findPeriod_eq_find?, Option.map_eq_none_iff, List.find?_eq_none]
  intro k listed
  rw [decide_eq_true_iff]
  rintro rfl
  exact absurd ((Nat.le_div_iff_mul_le interval_pos).2 beyond) (Nat.not_le.2 (List.mem_range.1 listed))

/-- The metrics of every block. -/
def metricsAt (block : ℕ) : EmissionMetrics :=
  if block < scheduleEnd then
    let blocksUntilHalving := (block / halvingIntervalBlocks + 1) * halvingIntervalBlocks - block
    ⟨block, rateAt block, periodAt block, some ((block / halvingIntervalBlocks + 1) * halvingIntervalBlocks),
      some blocksUntilHalving, some (blocksUntilHalving * blockTimeSeconds)⟩
  else ⟨block, rateAt block, periodAt block, none, none, none⟩

/-- Within the schedule the bound on the periods does not cut. -/
lemma div_le_of_lt (within : block < scheduleEnd) :
    min (block / halvingIntervalBlocks) (totalPeriods - 1) = block / halvingIntervalBlocks := by
  have listed : block / halvingIntervalBlocks < totalPeriods := Nat.div_lt_of_lt_mul (Nat.mul_comm .. ▸ within)
  exact Nat.min_eq_left (Nat.le_sub_one_of_lt listed)

/-- Behind the schedule the last period stays. -/
lemma le_div_of_le (beyond : scheduleEnd ≤ block) :
    min (block / halvingIntervalBlocks) (totalPeriods - 1) = totalPeriods - 1 :=
  Nat.min_eq_right ((Nat.sub_le _ 1).trans ((Nat.le_div_iff_mul_le interval_pos).2 beyond))

/-- `calculateCurrentMetrics` never fails on the schedule. -/
lemma calculateCurrentMetrics_eq (block : ℕ) :
    calculateCurrentMetrics generateEmissionSchedule block = .ok (metricsAt block) := by
  rw [calculateCurrentMetrics, metricsAt]
  by_cases within : block < scheduleEnd
  · rw [findPeriod_eq within, if_pos within, rateAt, periodAt, div_le_of_lt within]
    rfl
  · have last : generateEmissionSchedule.getLast? = some (periodData (totalPeriods - 1)) := by
      rw [schedule_eq, List.getLast?_map, List.getLast?_range, if_neg (by decide)]
      rfl
    rw [findPeriod_beyond (Nat.not_lt.1 within), if_neg within, last, rateAt, periodAt,
      le_div_of_le (Nat.not_lt.1 within)]
    rfl

/-- The rate of the metrics is that of the block. -/
lemma metricsAt_rate (block : ℕ) : (metricsAt block).currentEmissionRate = rateAt block := by
  rw [metricsAt]
  split
  · rfl
  · rfl

/-- The period of the metrics is that of the block. -/
lemma metricsAt_period (block : ℕ) : (metricsAt block).currentPeriod = periodAt block := by
  rw [metricsAt]
  split
  · rfl
  · rfl

/-- The block of the metrics is the one asked for. -/
lemma metricsAt_block (block : ℕ) : (metricsAt block).currentBlock = block := by
  rw [metricsAt]
  split
  · rfl
  · rfl

/-- Every block has a positive rate. -/
lemma rateAt_pos (block : ℕ) : 0 < rateAt block := by
  rw [rateAt, rateOf]
  have factor : 0 < halvingFactor := by norm_num [halvingFactor]
  have first : 0 < initialEmissionRate := by norm_num [initialEmissionRate]
  exact mul_pos first (pow_pos factor _)

/-- Up to the end of its period the blocks have one quotient. -/
lemma div_eq_of_le {j : ℕ} (after : block ≤ j)
    (before : j < (block / halvingIntervalBlocks + 1) * halvingIntervalBlocks) :
    j / halvingIntervalBlocks = block / halvingIntervalBlocks :=
  Nat.le_antisymm (Nat.le_of_lt_succ (Nat.div_lt_of_lt_mul (Nat.mul_comm .. ▸ before))) (Nat.div_le_div_right after)

/-- The blocks of one turn of the loop within the schedule: up to the end of the period or of the projection. -/
def jump (endBlock block : ℕ) : ℕ :=
  min ((block / halvingIntervalBlocks + 1) * halvingIntervalBlocks - block) (endBlock - block)

/-- A turn jumps to the end of the interval, or to the end of the projection. -/
lemma add_jump (more : block < endBlock) : block + jump endBlock block =
    min ((block / halvingIntervalBlocks + 1) * halvingIntervalBlocks) endBlock := by
  have reaches : block < (block / halvingIntervalBlocks + 1) * halvingIntervalBlocks :=
    (Nat.div_lt_iff_lt_mul interval_pos).1 (Nat.lt_succ_self _)
  rw [jump]
  omega

/-- A jump within the schedule stays within it. -/
lemma add_jump_le (more : block < endBlock) (within : block < scheduleEnd) :
    block + jump endBlock block ≤ min endBlock scheduleEnd := by
  have last : (block / halvingIntervalBlocks + 1) * halvingIntervalBlocks ≤ scheduleEnd :=
    Nat.mul_le_mul_right _ (Nat.div_lt_of_lt_mul (Nat.mul_comm .. ▸ within))
  rw [add_jump more]
  omega

/-- Over one turn the rate of a block stays. -/
lemma sum_jump (more : block < endBlock) (within : block < scheduleEnd) :
    ∑ j ∈ Ico block (block + jump endBlock block), rateAt j =
      jump endBlock block * rateOf (block / halvingIntervalBlocks) := by
  have same : ∀ j ∈ Ico block (block + jump endBlock block), rateAt j = rateOf (block / halvingIntervalBlocks) := by
    intro j mem
    obtain ⟨after, before⟩ := mem_Ico.1 mem
    rw [add_jump more] at before
    rw [rateAt, div_eq_of_le after (before.trans_le (min_le_left _ _)), div_le_of_lt within]
  rw [sum_congr rfl same, sum_const, Nat.card_Ico, nsmul_eq_mul, Nat.add_sub_cancel_left]

/-- One turn of the loop within the schedule. -/
lemma project_within (more : block < endBlock) (within : block < scheduleEnd) (total : ℚ) (endPeriod : ℕ) :
    project generateEmissionSchedule endBlock block total endPeriod =
      project generateEmissionSchedule endBlock (block + jump endBlock block)
        (total + jump endBlock block * rateOf (block / halvingIntervalBlocks))
        (block / halvingIntervalBlocks + 1) := by
  rw [project, dif_pos more]
  split
  case h_1 none => cases none.symm.trans (findPeriod_eq within)
  case h_2 data found =>
    obtain rfl := Option.some.inj (found.symm.trans (findPeriod_eq within))
    rfl

/-- Behind the schedule the loop stops. -/
lemma project_beyond (beyond : scheduleEnd ≤ block) (total : ℚ) (endPeriod : ℕ) :
    project generateEmissionSchedule endBlock block total endPeriod = (total, endPeriod) := by
  rw [project]
  split
  case isTrue more =>
    split
    case h_1 => rfl
    case h_2 found => cases found.symm.trans (findPeriod_beyond beyond)
  case isFalse => rfl

/-- The loop adds the rates of the blocks up to the end of the schedule, by induction along it. -/
lemma project_eq (endBlock block : ℕ) (total : ℚ) (endPeriod : ℕ) :
    project generateEmissionSchedule endBlock block total endPeriod =
      (total + ∑ j ∈ Ico block (min endBlock scheduleEnd), rateAt j,
        if block < min endBlock scheduleEnd then periodAt (min endBlock scheduleEnd - 1) else endPeriod) := by
  induction block, total, endPeriod using project.induct generateEmissionSchedule endBlock with
  | case1 block total endPeriod more none =>
    have beyond : ¬block < scheduleEnd := fun within => by cases none.symm.trans (findPeriod_eq within)
    have stop : ¬block < min endBlock scheduleEnd := fun lt => beyond (lt_min_iff.1 lt).2
    rw [project_beyond (Nat.not_lt.1 beyond), if_neg stop, Ico_eq_empty stop, sum_empty, add_zero]
  | case2 block total endPeriod more data found blocks ih =>
    have within : block < scheduleEnd := by
      by_contra beyond
      cases found.symm.trans (findPeriod_beyond (Nat.not_lt.1 beyond))
    obtain rfl := Option.some.inj (found.symm.trans (findPeriod_eq within))
    change project generateEmissionSchedule endBlock (block + jump endBlock block)
      (total + jump endBlock block * rateOf (block / halvingIntervalBlocks)) (block / halvingIntervalBlocks + 1) =
      (total + jump endBlock block * rateOf (block / halvingIntervalBlocks) +
        ∑ j ∈ Ico (block + jump endBlock block) (min endBlock scheduleEnd), rateAt j,
        if block + jump endBlock block < min endBlock scheduleEnd then periodAt (min endBlock scheduleEnd - 1)
        else block / halvingIntervalBlocks + 1) at ih
    have le_end := add_jump_le more within
    have next := add_jump more
    rw [project_within more within, ih, ← sum_Ico_consecutive rateAt (Nat.le_add_right block _) le_end,
      sum_jump more within, add_assoc, if_pos (lt_min more within)]
    refine congrArg _ ?_
    split
    case isTrue => rfl
    case isFalse done =>
      have quotient : (min endBlock scheduleEnd - 1) / halvingIntervalBlocks = block / halvingIntervalBlocks :=
        div_eq_of_le (by omega) (by omega)
      rw [periodAt, quotient, div_le_of_lt within]
  | case3 block total endPeriod done =>
    have stop : ¬block < min endBlock scheduleEnd := fun lt => done (lt_min_iff.1 lt).1
    rw [project, dif_neg done, if_neg stop, Ico_eq_empty stop, sum_empty, add_zero]

/-- A projection from a block within the metrics, and what the metrics report, block by block. -/
lemma agrees_iff {p : EmissionProjection} : Agrees block p ↔
    p.totalEmission = ∑ j ∈ Ico block (block + p.blocksInPeriod), rateAt j ∧
      p.endPeriod = periodAt (block + p.blocksInPeriod - 1) := by
  have sum : ∑ i ∈ range p.blocksInPeriod, rateAt (block + i) =
      ∑ j ∈ Ico block (block + p.blocksInPeriod), rateAt j := by
    rw [sum_Ico_eq_sum_range, Nat.add_sub_cancel_left]
  constructor
  · rintro ⟨reported, metrics, total, last⟩
    obtain rfl : reported = metricsAt := funext fun b => by
      injection (metrics b).symm.trans (calculateCurrentMetrics_eq b)
    simp only [metricsAt_rate, metricsAt_period] at total last
    exact ⟨total.trans sum, last⟩
  · rintro ⟨total, last⟩
    refine ⟨metricsAt, calculateCurrentMetrics_eq, ?_, ?_⟩
    · simp only [metricsAt_rate]
      exact total.trans sum.symm
    · rw [metricsAt_period, last]

/-- Up to the end of the schedule all rates are added exactly when the blocks end there. -/
lemma sum_min_eq_iff {next : ℕ} (lt : block < next) :
    ∑ j ∈ Ico block (min next scheduleEnd), rateAt j = ∑ j ∈ Ico block next, rateAt j ↔ next ≤ scheduleEnd := by
  constructor
  · intro same
    by_contra beyond
    -- the last block is left out
    have last : next - 1 ∈ Ico block next := mem_Ico.2 ⟨by omega, by omega⟩
    have left_out : next - 1 ∉ Ico block (min next scheduleEnd) := fun mem => by
      have lt_min := (mem_Ico.1 mem).2
      omega
    have less := sum_lt_sum_of_subset (Ico_subset_Ico_right (min_le_left next scheduleEnd)) last left_out
      (rateAt_pos (next - 1)) fun j _ _ => (rateAt_pos j).le
    exact less.ne same
  · intro within
    rw [min_eq_left within]

/-- A projection is the sum of the rates that the metrics report for its blocks, and ends in the period that they report
for the last one, exactly when it ends within the schedule. -/
theorem projection_agrees_iff (block : ℕ) {metrics : EmissionMetrics}
    (current : calculateCurrentMetrics generateEmissionSchedule block = .ok metrics) {p : EmissionProjection}
    (projected : p ∈ calculateProjections generateEmissionSchedule metrics) :
    Agrees block p ↔ block + p.blocksInPeriod ≤ 12614400 := by
  obtain rfl : metrics = metricsAt block := by injection current.symm.trans (calculateCurrentMetrics_eq block)
  obtain ⟨days, listed, rfl⟩ := List.mem_map.1 projected
  have blocks : 0 < days * 24 * 3600 / blockTimeSeconds := by
    simp only [List.mem_cons, List.not_mem_nil, or_false] at listed
    rcases listed with rfl | rfl | rfl
    · decide
    · decide
    · decide
  rw [agrees_iff, projection]
  simp only [metricsAt_block, metricsAt_period, project_eq, zero_add]
  rw [sum_min_eq_iff (Nat.lt_add_of_pos_right blocks)]
  refine and_iff_left_of_imp fun within => ?_
  rw [if_pos (lt_min (Nat.lt_add_of_pos_right blocks) (by omega)), min_eq_left within]

/-- From the first block on the projections are within the schedule. -/
theorem projection_agrees_sample :
    Agrees 0 (projection generateEmissionSchedule (metricsAt 0) 365) :=
  (projection_agrees_iff 0 (calculateCurrentMetrics_eq 0) (List.mem_map_of_mem (by decide))).2 (by decide)

/-- At the first block behind the schedule the metrics report a rate, and the projection is that nothing is emitted. -/
theorem projection_beyond_schedule : ∃ metrics p,
    calculateCurrentMetrics generateEmissionSchedule 12614400 = .ok metrics ∧
    p ∈ calculateProjections generateEmissionSchedule metrics ∧
    0 < metrics.currentEmissionRate ∧ p.totalEmission = 0 ∧ ¬Agrees 12614400 p := by
  refine ⟨metricsAt 12614400, projection generateEmissionSchedule (metricsAt 12614400) 30,
    calculateCurrentMetrics_eq 12614400, List.mem_map_of_mem (by decide), ?_, ?_⟩
  · rw [metricsAt_rate]
    exact rateAt_pos _
  · have none : (projection generateEmissionSchedule (metricsAt 12614400) 30).totalEmission = 0 := by
      simp only [projection, metricsAt_block, project_eq]
      rw [Ico_eq_empty (by decide), sum_empty, add_zero]
    refine ⟨none, fun agrees => ?_⟩
    rw [agrees_iff, none] at agrees
    have some : 0 < ∑ j ∈ Ico 12614400 (12614400 + 518400), rateAt j :=
      sum_pos (fun j _ => rateAt_pos j) ⟨12614400, mem_Ico.2 ⟨le_rfl, by decide⟩⟩
    exact some.ne agrees.1

end StellarFlow.Emission
