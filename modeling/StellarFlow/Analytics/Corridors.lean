import Mathlib.Algebra.BigOperators.Ring.List
import Mathlib.Algebra.Order.BigOperators.Group.List
import Mathlib.Logic.Function.Iterate
import StellarFlow.Analytics.Conversions

/-!
# Rates of corridors

Model of `solve_multi_hop_corridor` and `solve_arbitrage_route` in `src/analytics/math_scaler.py`. The rate of a chain
of hops has the scale `SCALE_14` for every number of hops.
-/

namespace StellarFlow.Analytics

/-- `_shift_scale_int`. -/
def shiftScaleInt (value shiftLevels : ℤ) : ℤ :=
  if shiftLevels = 0 then value
  else if shiftLevels > 0 then (fun result => result * scale7)^[shiftLevels.toNat] value
  else (fun result => result / scale7)^[(-shiftLevels).toNat] value

/-- `_multiply_hop_chain`. -/
def multiplyHopChain (hops : List ℤ) : ℤ :=
  if hops.isEmpty then scale14
  else
    let product := hops.foldl (fun product hop => product * hop) 1
    shiftScaleInt product (-((hops.length : ℤ) - 2))

/-- `_apply_route_weight`. -/
def applyRouteWeight (scaledRate weight : ℤ) : ℤ := scaledRate * weight

/-- `_normalize_weighted_sum`. -/
def normalizeWeightedSum (weightedSum weightTotal : ℤ) : Except PyError ℤ :=
  if weightTotal = 0 then
    .error (.exception "ZeroDivisionError" "Total route weight scales to zero at SCALE_7.")
  else .ok (Int.fdiv weightedSum weightTotal)

/-- A corridor in each row, and one weight for each row. -/
structure ArbitrageRouteMatrix where
  hops : List (List ℤ)
  weights : List ℤ
  one_per_row : weights.length = hops.length

/-- `solve_arbitrage_route`. -/
def solveArbitrageRoute (matrix : ArbitrageRouteMatrix) : Except PyError ℤ :=
  let sums := (matrix.hops.zip matrix.weights).foldl
    (fun sums row =>
      let routeRate := multiplyHopChain row.1
      (sums.1 + applyRouteWeight routeRate row.2, sums.2 + row.2)) ((0, 0) : ℤ × ℤ)
  normalizeWeightedSum sums.1 sums.2

/-- `solve_multi_hop_corridor`. -/
def solveMultiHopCorridor (rates : List Number) : Except PyError ℤ := do
  let hops ← rates.mapM toFixed
  if hops.isEmpty then .error (.valueError "At least one hop rate is required.")
  else .ok (multiplyHopChain hops)

section Chains

/-- Floors one after another are one floor. -/
lemma iterate_ediv {c : ℤ} (nonneg : 0 ≤ c) (n : ℕ) (value : ℤ) : (fun x => x / c)^[n] value = value / c ^ n := by
  induction n with
  | zero => simp
  | succ n ih => rw [Function.iterate_succ_apply', ih, Int.ediv_ediv_of_nonneg (pow_nonneg nonneg n), pow_succ]

/-- The rate of a chain, whatever its length, has fourteen decimal places. -/
lemma multiplyHopChain_eq {hops : List ℤ} (some_ : hops ≠ []) :
    multiplyHopChain hops = hops.prod * 10 ^ 14 / 10 ^ (7 * hops.length) := by
  have product : hops.foldl (fun product hop => product * hop) 1 = hops.prod := List.prod_eq_foldl.symm
  rw [multiplyHopChain, if_neg (by simpa using some_), product]
  obtain ⟨n, length⟩ : ∃ n, hops.length = n + 1 := Nat.exists_eq_succ_of_ne_zero (by simpa using some_)
  rw [length]
  generalize hops.prod = p
  match n with
  | 0 =>
    -- one hop is scaled up
    show p * 10 ^ 7 = p * 10 ^ 14 / 10 ^ 7
    rw [show p * 10 ^ 14 = p * 10 ^ 7 * 10 ^ 7 by ring, Int.mul_ediv_cancel _ (by decide)]
  | 1 => exact (Int.mul_ediv_cancel p (show (10 ^ 14 : ℤ) ≠ 0 by decide)).symm
  | k + 2 =>
    have levels : -(((k + 2 + 1 : ℕ) : ℤ) - 2) = -((k + 1 : ℕ) : ℤ) := by
      push_cast
      ring
    rw [levels, shiftScaleInt, if_neg (by omega), if_neg (by omega), neg_neg, Int.toNat_natCast,
      iterate_ediv (by decide), show scale7 = 10 ^ 7 by decide]
    rw [← pow_mul, show 7 * (k + 2 + 1) = 7 * (k + 1) + 14 by ring, pow_add _ (7 * (k + 1)) 14,
      Int.mul_ediv_mul_of_pos_left _ _ (by decide)]

/-- The scale of the rate is the one asked for only where both are nothing, or less than one unit. -/
lemma multiplyHopChain_scale_iff {hops : List ℤ} (some_ : hops ≠ []) :
    multiplyHopChain hops = hops.prod / 10 ^ (7 * (hops.length - 1)) ↔
      -10 ^ (7 * hops.length) ≤ hops.prod * 10 ^ 14 ∧ hops.prod * 10 ^ 14 < 10 ^ (7 * hops.length) := by
  obtain ⟨n, length⟩ : ∃ n, hops.length = n + 1 := Nat.exists_eq_succ_of_ne_zero (by simpa using some_)
  have pos : (0 : ℤ) < 10 ^ (7 * (n + 1)) := by positivity
  have scaled : hops.prod / 10 ^ (7 * n) = hops.prod * 10 ^ 14 / 10 ^ (7 * (n + 1)) / 10 ^ 7 := by
    rw [Int.ediv_ediv_of_nonneg pos.le, ← pow_add, show 7 * (n + 1) + 7 = 7 * n + 14 by ring, pow_add _ (7 * n) 14,
      Int.mul_ediv_mul_of_pos_left _ _ (by decide)]
  rw [multiplyHopChain_eq some_, length, Nat.add_sub_cancel, scaled]
  generalize hops.prod * 10 ^ 14 = rate at *
  calc _ ↔ -1 ≤ rate / 10 ^ (7 * (n + 1)) ∧ rate / 10 ^ (7 * (n + 1)) < 1 := by omega
    _ ↔ _ := by rw [Int.le_ediv_iff_mul_le pos, Int.ediv_lt_iff_lt_mul pos, neg_one_mul, one_mul]

end Chains

section Mean
variable {rows : List (ℤ × ℤ)} {c : ℤ}

/-- The sum of the rates, each as often as its weight says. -/
def weightedSum (rows : List (ℤ × ℤ)) : ℤ := (rows.map fun row => row.2 * row.1).sum

def totalWeight (rows : List (ℤ × ℤ)) : ℤ := (rows.map fun row => row.2).sum

/-- Positive weights, of which there is one, have a positive total. -/
lemma totalWeight_pos (some_ : rows ≠ []) (pos : ∀ row ∈ rows, 0 < row.2) : 0 < totalWeight rows :=
  List.sum_pos _ (fun weight mem => by
    obtain ⟨row, mem', rfl⟩ := List.mem_map.mp mem
    exact pos row mem') (by simpa using some_)

/-- A lower bound of the rates bounds their weighted sum from below. -/
lemma mul_totalWeight_le (pos : ∀ row ∈ rows, 0 < row.2) (least : ∀ row ∈ rows, c ≤ row.1) :
    c * totalWeight rows ≤ weightedSum rows := by
  rw [totalWeight, ← List.sum_map_mul_left]
  refine List.sum_le_sum fun row mem => ?_
  rw [mul_comm c]
  exact mul_le_mul_of_nonneg_left (least row mem) (pos row mem).le

/-- An upper bound of the rates bounds their weighted sum from above. -/
lemma le_mul_totalWeight (pos : ∀ row ∈ rows, 0 < row.2) (greatest : ∀ row ∈ rows, row.1 ≤ c) :
    weightedSum rows ≤ c * totalWeight rows := by
  rw [totalWeight, ← List.sum_map_mul_left]
  refine List.sum_le_sum fun row mem => ?_
  rw [mul_comm c]
  exact mul_le_mul_of_nonneg_left (greatest row mem) (pos row mem).le

/-- The mean, rounded down, is not below all rates and not above all of them. -/
lemma mean_between (some_ : rows ≠ []) (pos : ∀ row ∈ rows, 0 < row.2) :
    (∃ row ∈ rows, row.1 ≤ weightedSum rows / totalWeight rows) ∧
      ∃ row ∈ rows, weightedSum rows / totalWeight rows ≤ row.1 := by
  have total := totalWeight_pos some_ pos
  constructor
  · by_contra none_
    push Not at none_
    have above := mul_totalWeight_le pos none_
    rw [← Int.le_ediv_iff_mul_le total] at above
    omega
  · by_contra none_
    push Not at none_
    have below := le_mul_totalWeight (c := weightedSum rows / totalWeight rows - 1) pos
      fun row mem => Int.le_sub_one_of_lt (none_ row mem)
    have mean := Int.ediv_mul_le (weightedSum rows) total.ne'
    linarith only [below, mean, total]

end Mean

section Matrix

namespace ArbitrageRouteMatrix
variable (matrix : ArbitrageRouteMatrix)

/-- The rates of the rows with their weights. -/
def rates : List (ℤ × ℤ) := (matrix.hops.zip matrix.weights).map fun row => (multiplyHopChain row.1, row.2)

/-- The rows weigh what the weights of the matrix sum up to. -/
lemma totalWeight_rates : totalWeight matrix.rates = matrix.weights.sum := by
  rw [totalWeight, rates, List.map_map]
  exact congrArg List.sum (List.map_snd_zip matrix.one_per_row.le)

/-- The weighted sum over the rows is the one over the hops and the weights. -/
lemma weightedSum_rates : weightedSum matrix.rates =
    (List.zipWith (fun row weight => weight * multiplyHopChain row) matrix.hops matrix.weights).sum := by
  rw [weightedSum, rates, List.map_map, ← List.map_uncurry_zip_eq_zipWith]
  rfl

variable {matrix}

/-- A matrix that has hops has rates. -/
lemma rates_ne_nil (some_ : matrix.hops ≠ []) : matrix.rates ≠ [] := by
  intro none_
  have length : matrix.rates.length = matrix.hops.length := by simp [rates, matrix.one_per_row]
  rw [none_, List.length_nil, eq_comm, List.length_eq_zero_iff] at length
  exact some_ length

/-- Each row has one of the weights, so it is positive. -/
lemma rates_pos (pos : ∀ weight ∈ matrix.weights, 0 < weight) : ∀ row ∈ matrix.rates, 0 < row.2 := by
  intro row mem
  obtain ⟨pair, mem', rfl⟩ := List.mem_map.mp mem
  exact pos pair.2 (List.of_mem_zip mem').2

/-- What holds of the rate of a row holds of the product of a chain of hops. -/
lemma exists_row {p : ℤ → Prop} (found : ∃ row ∈ matrix.rates, p row.1) :
    ∃ row ∈ matrix.hops, p (multiplyHopChain row) := by
  obtain ⟨row, mem, holds⟩ := found
  obtain ⟨pair, mem', rfl⟩ := List.mem_map.mp mem
  exact ⟨pair.1, (List.of_mem_zip mem').1, holds⟩

end ArbitrageRouteMatrix

/-- The loop adds up the weighted rates and the weights. -/
lemma foldl_sums (rows : List (List ℤ × ℤ)) (sums : ℤ × ℤ) :
    rows.foldl (fun sums row => (sums.1 + applyRouteWeight (multiplyHopChain row.1) row.2, sums.2 + row.2)) sums =
      (sums.1 + weightedSum (rows.map fun row => (multiplyHopChain row.1, row.2)),
        sums.2 + totalWeight (rows.map fun row => (multiplyHopChain row.1, row.2))) := by
  induction rows generalizing sums with
  | nil => simp [weightedSum, totalWeight]
  | cons row rows ih =>
    rw [List.foldl_cons, ih]
    simp only [weightedSum, totalWeight, List.map_cons, List.sum_cons, applyRouteWeight, ← add_assoc,
      mul_comm (multiplyHopChain row.1)]

/-- With a positive total weight, the route is the weighted sum over it, rounded down. -/
lemma solveArbitrageRoute_eq {matrix : ArbitrageRouteMatrix} (total : 0 < totalWeight matrix.rates) :
    solveArbitrageRoute matrix = .ok (weightedSum matrix.rates / totalWeight matrix.rates) := by
  rw [solveArbitrageRoute]
  dsimp only
  rw [foldl_sums, zero_add, zero_add]
  show normalizeWeightedSum (weightedSum matrix.rates) (totalWeight matrix.rates) = _
  rw [normalizeWeightedSum, if_neg total.ne', Int.fdiv_eq_ediv_of_nonneg _ total.le]

/-- The rate of a row is rounded down once, however many hops it has, and the rate of the matrix is the weighted mean
of the rates of its rows, rounded down, which lies between the least and the greatest. -/
theorem solveArbitrageRoute_mean (matrix : ArbitrageRouteMatrix) (some_ : matrix.hops ≠ [])
    (filled : ∀ row ∈ matrix.hops, row ≠ []) (pos : ∀ weight ∈ matrix.weights, 0 < weight) :
    (∀ row ∈ matrix.hops, multiplyHopChain row = row.prod * 10 ^ 14 / 10 ^ (7 * row.length)) ∧
      ∃ rate, solveArbitrageRoute matrix = .ok rate ∧
        rate = (List.zipWith (fun row weight => weight * multiplyHopChain row) matrix.hops matrix.weights).sum /
          matrix.weights.sum ∧
        (∃ row ∈ matrix.hops, multiplyHopChain row ≤ rate) ∧ ∃ row ∈ matrix.hops, rate ≤ multiplyHopChain row := by
  refine ⟨fun row mem => multiplyHopChain_eq (filled row mem), _, solveArbitrageRoute_eq ?_, ?_, ?_⟩
  · exact totalWeight_pos (ArbitrageRouteMatrix.rates_ne_nil some_) (ArbitrageRouteMatrix.rates_pos pos)
  · rw [matrix.weightedSum_rates, matrix.totalWeight_rates]
  · obtain ⟨least, greatest⟩ :=
      mean_between (ArbitrageRouteMatrix.rates_ne_nil some_) (ArbitrageRouteMatrix.rates_pos pos)
    exact ⟨ArbitrageRouteMatrix.exists_row (p := fun rate => rate ≤ _) least,
      ArbitrageRouteMatrix.exists_row (p := fun rate => _ ≤ rate) greatest⟩

/-- A row of three hops, one of which is negative, and a row of one hop. -/
def sampleMatrix : ArbitrageRouteMatrix := ⟨[[15000000, -3, 20000001], [5]], [20000000, 10000000], rfl⟩

/-- Two routes of which neither alone gives the mean. -/
theorem solveArbitrageRoute_mean_sample : ∃ rate, solveArbitrageRoute sampleMatrix = .ok rate ∧
    (∃ row ∈ sampleMatrix.hops, multiplyHopChain row ≤ rate) ∧
    ∃ row ∈ sampleMatrix.hops, rate ≤ multiplyHopChain row := by
  obtain ⟨-, rate, returned, -, between⟩ := solveArbitrageRoute_mean sampleMatrix (by decide) (by decide) (by decide)
  exact ⟨rate, returned, between⟩

end Matrix

section Corridor

/-- The rate of a corridor has the promised scale exactly where it is nothing at both scales, or less than one unit of
either below zero. -/
theorem solveMultiHopCorridor_iff (rates : List Number) (hops : List ℤ) (some_ : rates ≠ [])
    (scaled : rates.mapM toFixed = .ok hops) :
    solveMultiHopCorridor rates = .ok (hops.prod / 10 ^ (7 * (hops.length - 1))) ↔
      -10 ^ (7 * hops.length) ≤ hops.prod * 10 ^ 14 ∧ hops.prod * 10 ^ 14 < 10 ^ (7 * hops.length) := by
  have filled : hops ≠ [] := by
    rintro rfl
    cases rates with
    | nil => exact some_ rfl
    | cons rate rates =>
      rw [List.mapM_cons] at scaled
      obtain ⟨_, -, rest⟩ := Py.bind_eq_ok.mp scaled
      obtain ⟨_, -, last⟩ := Py.bind_eq_ok.mp rest
      cases last
  have returned : solveMultiHopCorridor rates = .ok (multiplyHopChain hops) := by
    rw [solveMultiHopCorridor, scaled]
    exact if_neg (by simpa using filled)
  rw [returned, Except.ok.injEq]
  exact multiplyHopChain_scale_iff filled

/-- One unit and its negative: the product is minus one at either scale. -/
theorem solveMultiHopCorridor_iff_unit :
    solveMultiHopCorridor [.finite ((1 : ℤ) / scale7), .finite ((-1 : ℤ) / scale7)] = .ok (-1) := by
  have scaled : [.finite ((1 : ℤ) / scale7), .finite ((-1 : ℤ) / scale7)].mapM toFixed = .ok [1, -1] := by
    rw [List.mapM_cons, toFixed_eq (Decimal.fits_intCast (by decide) (by decide)), List.mapM_cons,
      toFixed_eq (Decimal.fits_intCast (by decide) (by decide))]
    rfl
  exact (solveMultiHopCorridor_iff _ [1, -1] (by simp) scaled).mpr (by decide)

/-- A corridor of one hop with the rate 1. -/
theorem solveMultiHopCorridor_one_hop :
    toFixed (.finite (scale7 / scale7)) = .ok 10000000 ∧
      solveMultiHopCorridor [.finite (scale7 / scale7)] = .ok 100000000000000 := by
  have scaled : toFixed (.finite (scale7 / scale7)) = .ok scale7 :=
    toFixed_eq (Decimal.fits_intCast (by decide) (by decide))
  refine ⟨scaled, ?_⟩
  rw [solveMultiHopCorridor, List.mapM_cons, scaled]
  rfl

end Corridor

end StellarFlow.Analytics
