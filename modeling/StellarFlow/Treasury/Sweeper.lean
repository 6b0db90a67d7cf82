import Mathlib.Algebra.BigOperators.Group.List.Basic
import Mathlib.Algebra.Order.Ring.Rat
import Mathlib.Tactic.Linarith
import StellarFlow.Lib.Dict
import StellarFlow.Lib.Machine
import StellarFlow.Treasury.YieldWorker

/-!
# The sweeper of staking rewards

Model of `TreasuryYieldSweeper` in `app/services/treasury_yield_sweeper.py`. Calls of `sweep_staked_rewards` without
`explicit_rewards` come one after another, at times that do not decrease; every commit and every submission is a step
of its own, a submission may raise, and a call may end anywhere with nothing more written. In between the staking
worker writes rows of `treasury_yield_allocation` that are not staked yet. Times are in microseconds.

A sweep claims all that a position has accrued since its `window_start`, and nothing of it is remembered.
`claimed_within_accrual_iff` says in which runs the claims stay within what has accrued.
-/

open Machine

namespace StellarFlow.Treasury

/-- What the sweeper uses of the Python runtime. `totalSeconds` is the decimal that is read from the text of
`total_seconds()`, which is accurate up to 270 years. -/
structure Runtime where
  sha256 : String → String
  isoformat : ℤ → String
  totalSeconds : ℤ → ℚ
  totalSeconds_mono : ∀ delta delta', delta ≤ delta' → totalSeconds delta ≤ totalSeconds delta'
  totalSeconds_eq : ∀ delta, 0 ≤ delta → delta ≤ 270 * 365 * 86400 * 10 ^ 6 → totalSeconds delta = delta / 10 ^ 6

/-- The attributes that a sweeper checks and writes; `__init__` refuses other thresholds. -/
structure TreasuryYieldSweeper where
  claimThresholdUsd : ℚ
  defaultReservePoolId : String
  claimThresholdUsd_pos : 0 < claimThresholdUsd

/-- `SECONDS_PER_YEAR`. -/
def secondsPerYear : ℚ := 31536000

/-- `asset_prices_usd or {"USDC": Decimal("1.0"), "XLM": Decimal("0.12")}`. -/
def pricesOrDefault (assetPricesUsd : Option (Dict String ℚ)) : Dict String ℚ :=
  let fallback := (Dict.empty.set "USDC" 1).set "XLM" (12 / 100)
  match assetPricesUsd with
  | some prices => if prices.entries.isEmpty then fallback else prices
  | none => fallback

inductive SweepStatus where
  | skipped
  | claiming
  | claimed
  | routed
  | failed
  deriving DecidableEq

/-- A row of `treasury_yield_sweep` without its key. -/
structure TreasuryYieldSweep where
  strategyId : String
  vaultAddress : String
  rewardAsset : String
  uncollectedAmount : ℚ
  rewardAssetPriceUsd : ℚ
  uncollectedUsdValue : ℚ
  claimThresholdUsd : ℚ
  status : SweepStatus
  liquidityPoolId : String
  evaluatedAt : ℤ
  claimTransactionHash : Option String
  claimedAt : Option ℤ
  routeTransactionHash : Option String
  routedAmount : Option ℚ
  routedAt : Option ℤ
  error : Option String

/-- A staked row as a sweep has evaluated it. -/
structure Position where
  allocationId : String
  allocation : TreasuryYieldAllocation
  asset : String
  priceUsd : ℚ
  uncollectedAmount : ℚ
  uncollectedUsdValue : ℚ

/-- The arguments of a successful `_submit_claim_treasury_rewards`, and the row it is for. -/
structure Claim where
  allocationId : String
  strategyId : String
  vaultAddress : String
  amount : ℚ

/-- The arguments of a successful `_submit_route_to_reserve_pool`. -/
structure Route where
  liquidityPoolId : String
  amount : ℚ
  asset : String

/-- A call of `sweep_staked_rewards`: its prices, the assets of the strategies, and the rows it is still to evaluate. -/
structure Call where
  prices : Dict String ℚ
  strategies : Dict String String
  pending : List (String × TreasuryYieldAllocation)

/-- Where the call that runs stands. -/
inductive Point where
  | idle
  | evaluating (call : Call)
  | claiming (call : Call) (position : Position)
  | claimed (call : Call) (position : Position) (hash : String)
  | routing (call : Call) (position : Position)
  | routed (call : Call) (position : Position) (hash : String)

/-- The position that a call is about to claim for. -/
def Point.claiming? : Point → Option Position
  | .claiming _ position => some position
  | _ => none

/-- The tables, the time of the last call, and the submissions that have succeeded. -/
structure System where
  now : ℤ
  allocations : Dict String TreasuryYieldAllocation
  sweeps : Dict String TreasuryYieldSweep
  point : Point
  claims : List Claim
  routes : List Route

inductive Move where
  | stake (id : String) (allocation : TreasuryYieldAllocation)
  | sweepStakedRewards (currentTime : ℤ) (assetPricesUsd : Option (Dict String ℚ)) (strategies : Dict String String)
      (allocations : List (String × TreasuryYieldAllocation))
  | evaluate
  | submitClaim (result : Except String String)
  | submitRoute (result : Except String String)
  | commit (clock : ℤ)
  | interrupt

variable (rt : Runtime) (sweeper : TreasuryYieldSweeper)

/-- `calculate_uncollected_rewards`; `none` where `quantize` raises. -/
def calculateUncollectedRewards (stakedAmount apy : ℚ) (startTime currentTime : ℤ) : Option ℚ :=
  if currentTime ≤ startTime then some 0
  else
    let elapsedSeconds := rt.totalSeconds (currentTime - startTime)
    if elapsedSeconds ≤ 0 then some 0
    else
      let accrualFraction := Decimal.div precision elapsedSeconds secondsPerYear
      Decimal.quantize precision 7
        (Decimal.mul precision (Decimal.mul precision stakedAmount apy) accrualFraction)

/-- What a row has accrued at a time. -/
def TreasuryYieldAllocation.accrued (allocation : TreasuryYieldAllocation) (time : ℤ) : Option ℚ :=
  calculateUncollectedRewards rt allocation.amount allocation.apy allocation.windowStart time

/-- The turn of the loop for one row, up to `_process_sweep_position`; `none` where the arithmetic raises. -/
def Call.position (call : Call) (now : ℤ) (id : String) (allocation : TreasuryYieldAllocation) : Option Position := do
  let asset := (call.strategies.get? allocation.strategyId).getD "USDC"
  let priceUsd := (call.prices.get? asset).getD 1
  let uncollectedAmount ← allocation.accrued rt now
  let uncollectedUsdValue ← Decimal.quantize precision 7 (Decimal.mul precision uncollectedAmount priceUsd)
  return { allocationId := id, allocation, asset, priceUsd, uncollectedAmount, uncollectedUsdValue }

/-- `_generate_sweep_id`. -/
def generateSweepId (strategyId : String) (timestamp : ℤ) : String :=
  rt.sha256 ("sweep:" ++ strategyId ++ ":" ++ rt.isoformat timestamp)

/-- The row of a position as `_process_sweep_position` adds it. -/
def Position.sweep (position : Position) (status : SweepStatus) (evaluatedAt : ℤ) : TreasuryYieldSweep where
  strategyId := position.allocation.strategyId
  vaultAddress := position.allocation.vaultAddress
  rewardAsset := position.asset
  uncollectedAmount := position.uncollectedAmount
  rewardAssetPriceUsd := position.priceUsd
  uncollectedUsdValue := position.uncollectedUsdValue
  claimThresholdUsd := sweeper.claimThresholdUsd
  status
  liquidityPoolId := sweeper.defaultReservePoolId
  evaluatedAt
  claimTransactionHash := none
  claimedAt := none
  routeTransactionHash := none
  routedAmount := none
  routedAt := none
  error := none

/-- The arguments that `_process_sweep_position` claims with. -/
def Position.claim (position : Position) : Claim where
  allocationId := position.allocationId
  strategyId := position.allocation.strategyId
  vaultAddress := position.allocation.vaultAddress
  amount := position.uncollectedAmount

/-- The arguments that `_process_sweep_position` routes with. -/
def Position.route (position : Position) : Route where
  liquidityPoolId := sweeper.defaultReservePoolId
  amount := position.uncollectedAmount
  asset := position.asset

namespace System
variable (s : System)

/-- `_fetch_active_staked_allocations`. -/
def fetchActiveStakedAllocations : List (String × TreasuryYieldAllocation) :=
  s.allocations.entries.filter fun row => row.2.status = .staked

/-- The row of the position in this call. -/
def sweepId (position : Position) : String := generateSweepId rt position.allocation.strategyId s.now

/-- `_process_sweep_position` up to its first commit, which raises if the row is there. -/
def processSweepPosition (call : Call) (position : Position) : System :=
  let sweepId := s.sweepId rt position
  if sweepId ∈ s.sweeps.keys then { s with point := .idle }
  else if position.uncollectedUsdValue < sweeper.claimThresholdUsd then
    { s with
      sweeps := s.sweeps.set sweepId (position.sweep sweeper .skipped s.now)
      point := .evaluating call }
  else
    { s with
      sweeps := s.sweeps.set sweepId (position.sweep sweeper .claiming s.now)
      point := .claiming call position }

def evaluate (call : Call) : System :=
  match call.pending with
  | [] => { s with point := .idle }
  | row :: pending =>
    match call.position rt s.now row.1 row.2 with
    | none => { s with point := .idle }
    | some position => s.processSweepPosition rt sweeper { call with pending } position

/-- The handler: the row is FAILED and the call raises. -/
def failed (position : Position) (error : String) : System :=
  { s with
    sweeps := s.sweeps.modify (s.sweepId rt position) fun row => { row with status := .failed, error := some error }
    point := .idle }

def start (now : ℤ) : System where
  now
  allocations := Dict.empty
  sweeps := Dict.empty
  point := .idle
  claims := []
  routes := []

def step : Move → Option System
  | .stake id allocation =>
    -- the worker leaves a staked row as it is
    match s.allocations.get? id with
    | some existing =>
      if existing.status = .staked then some s else some { s with allocations := s.allocations.set id allocation }
    | none => some { s with allocations := s.allocations.set id allocation }
  | .sweepStakedRewards currentTime assetPricesUsd strategies allocations =>
    match s.point with
    | .idle =>
      -- the database answers in any order
      if s.now ≤ currentTime ∧ allocations.Perm s.fetchActiveStakedAllocations then
        some
          { s with
            now := currentTime
            point := .evaluating { prices := pricesOrDefault assetPricesUsd, strategies, pending := allocations } }
      else none
    | _ => none
  | .evaluate =>
    match s.point with
    | .evaluating call => some (s.evaluate rt sweeper call)
    | _ => none
  | .submitClaim result =>
    match s.point with
    | .claiming call position =>
      match result with
      | .ok hash =>
        some
          { s with
            point := .claimed call position hash
            claims := s.claims ++ [position.claim] }
      | .error error => some (s.failed rt position error)
    | _ => none
  | .submitRoute result =>
    match s.point with
    | .routing call position =>
      match result with
      | .ok hash =>
        some
          { s with
            point := .routed call position hash
            routes := s.routes ++ [position.route sweeper] }
      | .error error => some (s.failed rt position error)
    | _ => none
  | .commit clock =>
    match s.point with
    | .claimed call position hash =>
      some
        { s with
          sweeps := s.sweeps.modify (s.sweepId rt position) fun row =>
            { row with claimTransactionHash := some hash, claimedAt := some clock, status := .claimed }
          point := .routing call position }
    | .routed call position hash =>
      some
        { s with
          sweeps := s.sweeps.modify (s.sweepId rt position) fun row =>
            { row with
              routeTransactionHash := some hash
              routedAmount := some position.uncollectedAmount
              routedAt := some clock
              status := .routed }
          point := .evaluating call }
    | _ => none
  | .interrupt => some { s with point := .idle }

/-- The claims for a row. -/
def claimsOf (id : String) : List Claim := s.claims.filter fun claim => claim.allocationId = id

/-- What has been claimed for a row. -/
def claimed (id : String) : ℚ := ((s.claimsOf id).map Claim.amount).sum

/-- What has been claimed for all rows. -/
def totalClaimed : ℚ := (s.claims.map Claim.amount).sum

/-- What has been routed to the reserve pool. -/
def totalRouted : ℚ := (s.routes.map Route.amount).sum

/-- From now on the claims for each staked row are within what it has accrued, up to the rounding of each claim, and no
more has been routed than claimed. -/
structure ClaimedWithinAccrual : Prop where
  accrued : ∀ id allocation, s.allocations.get? id = some allocation → allocation.status = .staked →
    ∀ time reward, s.now ≤ time → allocation.accrued rt time = some reward →
      s.claimed id ≤ reward + (s.claimsOf id).length / 10 ^ 7
  routed : s.totalRouted ≤ s.totalClaimed

/-- A claim that succeeds is for a row of which nothing has been claimed, up to the rounding of each claim. -/
def ClaimsAfresh : Move → Prop
  | .submitClaim (.ok _) =>
    ∀ position ∈ s.point.claiming?,
      s.claimed position.allocationId ≤ ((s.claimsOf position.allocationId).length + 1) / 10 ^ 7
  | _ => True

instance decidableClaimsAfresh (m : Move) : Decidable (s.ClaimsAfresh m) :=
  match m with
  | .submitClaim (.ok _) =>
    inferInstanceAs (Decidable (∀ position ∈ s.point.claiming?,
      s.claimed position.allocationId ≤ ((s.claimsOf position.allocationId).length + 1) / 10 ^ 7))
  | .submitClaim (.error _) => isTrue trivial
  | .stake .. => isTrue trivial
  | .sweepStakedRewards .. => isTrue trivial
  | .evaluate => isTrue trivial
  | .submitRoute _ => isTrue trivial
  | .commit _ => isTrue trivial
  | .interrupt => isTrue trivial

end System
end StellarFlow.Treasury
