import Mathlib.Algebra.Order.Ring.Int
import StellarFlow.Lib.Decimal

/-!
# Staking of idle treasury balances

Model of the rows that `TreasuryYieldWorker` in `app/services/treasury_yield_worker.py` writes into
`treasury_yield_allocation`: what it stakes of the idle capital in each strategy. It is the only writer of the table,
and what it stakes is positive, at a positive APY.
-/

namespace StellarFlow.Treasury

/-- The precision of the default context of `decimal`. -/
def precision : ℕ := 28

/-- `DUST_THRESHOLD`. -/
def dustThreshold : ℚ := 1 / 100

/-- What `_fetch_eligible_strategies` returns of a strategy. -/
structure EligibleStrategy where
  id : String
  vaultAddress : String
  currentApy : ℚ
  capacity : Option ℚ

inductive AllocationStatus where
  | pending
  | staked
  | failed
  | unstaked
  deriving DecidableEq

/-- A row of `treasury_yield_allocation` without its key; times are in microseconds. -/
structure TreasuryYieldAllocation where
  strategyId : String
  vaultAddress : String
  amount : ℚ
  apy : ℚ
  status : AllocationStatus
  windowStart : ℤ
  amount_nonneg : 0 ≤ amount
  apy_nonneg : 0 ≤ apy
  deriving DecidableEq

/-- `min(amount, capacity)`, where there is a capacity. -/
def EligibleStrategy.capped (strategy : EligibleStrategy) (amount : ℚ) : ℚ :=
  match strategy.capacity with
  | some capacity => min amount capacity
  | none => amount

/-- The loop of `_compute_target_allocations`; `none` where `quantize` raises. -/
def computeTargets (idleCapital totalApy : ℚ) : List EligibleStrategy → Option (List (EligibleStrategy × ℚ))
  | [] => some []
  | strategy :: strategies => do
    let weight := Decimal.div precision strategy.currentApy totalApy
    let share ← Decimal.quantize precision 7 (Decimal.mul precision idleCapital weight)
    let targets ← computeTargets idleCapital totalApy strategies
    let amount := strategy.capped share
    return if dustThreshold < amount then (strategy, amount) :: targets else targets

/-- `_compute_target_allocations`. -/
def computeTargetAllocations (idleCapital : ℚ) (strategies : List EligibleStrategy) :
    Option (List (EligibleStrategy × ℚ)) :=
  let totalApy := strategies.foldl (fun total strategy => Decimal.add precision total strategy.currentApy) 0
  if totalApy ≤ 0 then some [] else computeTargets idleCapital totalApy strategies

variable {idleCapital totalApy amount share : ℚ} {strategy : EligibleStrategy} {strategies : List EligibleStrategy}
  {targets : List (EligibleStrategy × ℚ)}

/-- The threshold is positive. -/
lemma dustThreshold_pos : 0 < dustThreshold := by norm_num [dustThreshold]

/-- A capped share is no more than the share. -/
lemma EligibleStrategy.capped_le : strategy.capped share ≤ share := by
  rw [EligibleStrategy.capped]
  split
  · exact min_le_left _ _
  · exact le_rfl

/-- A strategy without a positive APY has no positive share. -/
lemma share_nonpos (idle : 0 ≤ idleCapital) (total : 0 < totalApy) (apy : strategy.currentApy ≤ 0)
    (eq : Decimal.quantize precision 7 (Decimal.mul precision idleCapital
      (Decimal.div precision strategy.currentApy totalApy)) = some share) : share ≤ 0 := by
  have weight : Decimal.div precision strategy.currentApy totalApy ≤ 0 :=
    Decimal.rounded_nonpos (div_nonpos_of_nonpos_of_nonneg apy total.le)
  exact Decimal.quantize_nonpos (Decimal.rounded_nonpos (mul_nonpos_of_nonneg_of_nonpos idle weight)) eq

/-- Targets are positive, and so are their yields. -/
lemma computeTargets_pos (idle : 0 ≤ idleCapital) (total : 0 < totalApy)
    (computed : computeTargets idleCapital totalApy strategies = some targets) :
    ∀ target ∈ targets, 0 < target.2 ∧ 0 < target.1.currentApy := by
  induction strategies generalizing targets with
  | nil =>
    cases computed
    simp
  | cons strategy strategies ih =>
    rw [computeTargets] at computed
    obtain ⟨share, shared, computed⟩ := Option.bind_eq_some_iff.1 computed
    obtain ⟨others, rest, computed⟩ := Option.bind_eq_some_iff.1 computed
    cases computed
    split
    · rename_i above
      refine List.forall_mem_cons.2 ⟨⟨dustThreshold_pos.trans above, ?_⟩, ih rest⟩
      by_contra! apy
      have none : share ≤ 0 := share_nonpos idle total apy shared
      exact absurd (dustThreshold_pos.trans (above.trans_le strategy.capped_le)) none.not_gt
    · exact ih rest

/-- What the worker stakes is positive, and so is the APY. -/
theorem computeTargetAllocations_pos (idle : 0 ≤ idleCapital)
    (computed : computeTargetAllocations idleCapital strategies = some targets) :
    ∀ target ∈ targets, 0 < target.2 ∧ 0 < target.1.currentApy := by
  rw [computeTargetAllocations] at computed
  split at computed
  · cases computed
    simp
  · rename_i total
    exact computeTargets_pos idle (not_le.1 total) computed

/-- The row that `_execute_allocation` writes for a target of idle capital. -/
def executeAllocation (idle : dustThreshold < idleCapital)
    (computed : computeTargetAllocations idleCapital strategies = some targets) (target : EligibleStrategy × ℚ)
    (mem : target ∈ targets) (windowStart : ℤ) (status : AllocationStatus) : TreasuryYieldAllocation where
  strategyId := target.1.id
  vaultAddress := target.1.vaultAddress
  amount := target.2
  apy := target.1.currentApy
  status
  windowStart
  amount_nonneg := (computeTargetAllocations_pos (dustThreshold_pos.trans idle).le computed target mem).1.le
  apy_nonneg := (computeTargetAllocations_pos (dustThreshold_pos.trans idle).le computed target mem).2.le

end StellarFlow.Treasury
