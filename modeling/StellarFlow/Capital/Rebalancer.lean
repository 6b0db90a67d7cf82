import Mathlib.Algebra.BigOperators.Group.List.Basic
import Mathlib.Algebra.BigOperators.Ring.List
import Mathlib.Algebra.Order.Ring.Abs
import Mathlib.Algebra.Order.Ring.Rat
import Mathlib.Algebra.Order.Field.Rat
import Mathlib.Data.List.Dedup
import Mathlib.Tactic.Linarith
import Mathlib.Tactic.Ring
import StellarFlow.Lib.Dict
import StellarFlow.Lib.Python

/-!
# Capital rebalancing

Model of `build_rebalancing_instructions` and of `CapitalRebalancer` in `app/services/capital_rebalancer.py`, with
exact numbers. The rows of `capital_allocation` have one entry for each strategy; what a movement does on the
chain is an outcome that the model is given.

`_compute_movements` goes over the strategies that have a row or a target, `_update_allocations` over the
targets only. The books therefore follow the movements exactly when the rows without a target have nothing to
move: each of them is dust, and together they are nothing.
-/

namespace StellarFlow.Capital

/-- What `_fetch_strategies` returns of a strategy, without the inputs of the optimizer. -/
structure Strategy where
  id : String
  vaultAddress : String
  currentApy : ℚ
  riskScore : ℚ

/-- A row of `capital_allocation`. -/
structure Allocation where
  allocatedAmount : ℚ
  targetWeight : ℚ
  currentWeight : ℚ

/-- The table `capital_allocation` by `strategy_id`, which is unique. -/
abbrev Allocations := Dict String Allocation

/-- Weights by strategy. -/
abbrev Weights := Dict String ℚ

inductive Direction where
  | increase
  | decrease
  deriving DecidableEq

inductive Action where
  | deposit
  | withdraw
  deriving DecidableEq

/-- An instruction for the harvest worker. -/
structure Instruction where
  strategyId : String
  vaultAddress : Option String
  riskScore : Option ℚ
  direction : Direction
  action : Action
  deltaWeight : ℚ
  deltaAmount : ℚ
  amount : ℚ
  currentWeight : ℚ
  targetWeight : ℚ
  step : ℕ

/-- `weights.get(strategy_id, Decimal("0"))`. -/
def weightOf (weights : Weights) (strategyId : String) : ℚ := (weights.get? strategyId).getD 0

/-- `{f(s): g(s) for s in strategies}`. -/
def collect {ν : Type} (strategies : List Strategy) (value : Strategy → ν) : Dict String ν :=
  strategies.foldl (fun d s => d.set s.id (value s)) Dict.empty

/-- `sorted(set(current.keys()) | set(target.keys()))`. -/
def allStrategies (current target : Weights) : List String :=
  (current.keys ++ target.keys).dedup.mergeSort fun a b => a ≤ b

/-- The turn of the loop of `build_rebalancing_instructions` for one strategy; dust is ignored. -/
def instruction (strategies : List Strategy) (current target : Weights) (totalCapital : ℚ) (strategyId : String) :
    Option Instruction :=
  let currentWeight := weightOf current strategyId
  let targetWeight := weightOf target strategyId
  let deltaWeight := targetWeight - currentWeight
  if |deltaWeight| ≤ 1 / 10000 then none
  else
    let deltaAmount := deltaWeight * totalCapital
    let direction := if deltaAmount > 0 then Direction.increase else .decrease
    some
      { strategyId
        vaultAddress := (collect strategies Strategy.vaultAddress).get? strategyId
        riskScore := (collect strategies Strategy.riskScore).get? strategyId
        direction
        action := if direction = .increase then .deposit else .withdraw
        deltaWeight
        deltaAmount
        amount := |deltaAmount|
        currentWeight
        targetWeight
        step := 0 }

/-- The order of the key `(direction != "DECREASE", strategy_id)`. -/
def comesFirst (a b : Instruction) : Bool :=
  if a.direction = b.direction then a.strategyId ≤ b.strategyId else a.direction = .decrease

/-- `build_rebalancing_instructions`. -/
def buildRebalancingInstructions (strategies : List Strategy) (current target : Weights) (totalCapital : ℚ) :
    List Instruction :=
  let instructions := (allStrategies current target).filterMap (instruction strategies current target totalCapital)
  (instructions.mergeSort comesFirst).mapIdx fun i instruction => { instruction with step := i + 1 }

/-- `_compute_total_capital`. -/
def computeTotalCapital (rows : Allocations) : ℚ := (rows.entries.map fun e => e.2.allocatedAmount).sum

/-- `_fetch_current_allocations`. -/
def fetchCurrentAllocations (rows : Allocations) : Weights where
  entries := rows.entries.map fun e => (e.1, e.2.currentWeight)
  nodup := by
    rw [List.map_map]
    exact rows.nodup

/-- `_update_allocations`. -/
def updateAllocations (rows : Allocations) (target : Weights) (totalCapital : ℚ) : Allocations :=
  target.entries.foldl (fun rows e => rows.set e.1 ⟨e.2 * totalCapital, e.2, e.2⟩) rows

/-- `_compute_aggregate_apy`. -/
def computeAggregateApy (strategies : List Strategy) (allocations : Weights) : ℚ :=
  (allocations.keys.map fun id => weightOf allocations id * weightOf (collect strategies Strategy.currentApy) id).sum

inductive Status where
  | inProgress
  | completed
  | failed
  deriving DecidableEq

/-- A row of `rebalancing_history`. -/
structure RebalancingHistory where
  id : String
  status : Status
  totalCapital : ℚ
  driftMagnitude : ℚ
  targetAllocations : Weights
  previousAllocations : Weights
  movements : List Instruction
  aggregateApyBefore : ℚ
  transactionHashes : List String
  executionCost : ℚ
  aggregateApyAfter : Option ℚ
  errorMessage : Option String

/-- The tables, and the movements that have been made on the chain. -/
structure Db where
  rows : Allocations
  history : List RebalancingHistory
  executed : List Instruction

/-- What the surroundings decide: the id, the text of an exception, whether the vault lock is taken, and how
each movement ends. -/
structure Surroundings where
  rebalancingId : String
  str : PyError → String
  lock : Except PyError Unit
  executeMovement : Instruction → Except PyError (String × ℚ)

/-- The loop over the movements: those that were made, and the hashes and costs unless one raises. -/
def executeMovements (executeMovement : Instruction → Except PyError (String × ℚ)) :
    List Instruction → List Instruction × Except PyError (List (String × ℚ))
  | [] => ([], .ok [])
  | movement :: movements =>
    match executeMovement movement with
    | .error e => ([], .error e)
    | .ok result =>
      let (executed, results) := executeMovements executeMovement movements
      (movement :: executed, results.map (result :: ·))

/-- The body of the `try` of `_execute_rebalancing`: the movements under the lock of the vault. -/
def lockedMovements (env : Surroundings) (movements : List Instruction) :
    List Instruction × Except PyError (List (String × ℚ)) :=
  match env.lock with
  | .error e => ([], .error e)
  | .ok _ => executeMovements env.executeMovement movements

/-- `_execute_rebalancing`. -/
def executeRebalancing (env : Surroundings) (db : Db) (strategies : List Strategy) (current target : Weights)
    (totalCapital maxDrift : ℚ) : Except PyError String × Db :=
  let movements := buildRebalancingInstructions strategies current target totalCapital
  let history : RebalancingHistory :=
    { id := env.rebalancingId
      status := .inProgress
      totalCapital
      driftMagnitude := maxDrift
      targetAllocations := target
      previousAllocations := current
      movements
      aggregateApyBefore := computeAggregateApy strategies current
      transactionHashes := []
      executionCost := 0
      aggregateApyAfter := none
      errorMessage := none }
  let (executed, results) := lockedMovements env movements
  let db := { db with executed := db.executed ++ executed }
  match results with
  | .ok results =>
    let history := { history with
      status := .completed
      transactionHashes := results.map Prod.fst
      executionCost := (results.map Prod.snd).sum
      aggregateApyAfter := some (computeAggregateApy strategies target) }
    (.ok env.rebalancingId,
      { db with rows := updateAllocations db.rows target totalCapital, history := db.history ++ [history] })
  | .error e =>
    if e.isException then
      let text := env.str e
      let history := { history with status := .failed, errorMessage := some text }
      (.error (.exception "RebalancingError" s!"Rebalancing failed: {text}"),
        { db with history := db.history ++ [history] })
    else (.error e, { db with history := db.history ++ [history] })

/-- The recorded amount of a strategy. -/
def recorded (rows : Allocations) (strategyId : String) : ℚ :=
  (rows.get? strategyId).elim 0 Allocation.allocatedAmount

/-- What a movement brings into its vault. -/
def Instruction.inflow (movement : Instruction) : ℚ :=
  match movement.action with
  | .deposit => movement.amount
  | .withdraw => -movement.amount

/-- The deposits minus the withdrawals of a strategy. -/
def netMovement (movements : List Instruction) (strategyId : String) : ℚ :=
  (movements.map fun movement => if movement.strategyId = strategyId then movement.inflow else 0).sum

/-- The sum of the weights. -/
def totalWeight (weights : Weights) : ℚ := (weights.entries.map Prod.snd).sum

/-- The recorded amounts follow the movements, and make up the capital together with what is not deployed. -/
structure BooksFollow (before after : Allocations) (target : Weights) (movements : List Instruction) : Prop where
  close : ∀ strategyId, |recorded after strategyId -
    (recorded before strategyId + netMovement movements strategyId)| ≤ 1 / 10000 * computeTotalCapital before
  whole : computeTotalCapital after + computeTotalCapital before * (1 - totalWeight target) =
    computeTotalCapital before

/-- The rows of strategies without a target. -/
def untargeted (rows : Allocations) (target : Weights) : List (String × Allocation) :=
  rows.entries.filter fun e => e.1 ∉ target.keys

/-- The rows without a target have nothing to move. -/
structure NothingLeft (rows : Allocations) (target : Weights) : Prop where
  dust : ∀ e ∈ untargeted rows target, |e.2.currentWeight| ≤ 1 / 10000
  none : ((untargeted rows target).map fun e => e.2.currentWeight).sum = 0

/-- Every amount is its weight of the whole capital. -/
def Consistent (rows : Allocations) : Prop :=
  ∀ e ∈ rows.entries, e.2.allocatedAmount = e.2.currentWeight * computeTotalCapital rows

/-- The sum over the entries whose keys meet a condition. -/
def sumWhere (p : String → Prop) [DecidablePred p] (entries : List (String × Allocation)) : ℚ :=
  (entries.map fun e => if p e.1 then e.2.allocatedAmount else 0).sum

/-- Replacing the row of a key changes the sum by that row. -/
lemma sumWhere_replace {p : String → Prop} [DecidablePred p] {k : String} {v : Allocation}
    {entries : List (String × Allocation)} (nodup : (entries.map Prod.fst).Nodup) :
    sumWhere p (entries.map fun e => if e.1 = k then (k, v) else e) =
      sumWhere (fun x => p x ∧ x ≠ k) entries +
        if k ∈ entries.map Prod.fst ∧ p k then v.allocatedAmount else 0 := by
  induction entries with
  | nil => simp [sumWhere]
  | cons e entries ih =>
    obtain ⟨new, rest⟩ := List.nodup_cons.1 nodup
    have tail := ih rest
    simp only [sumWhere, List.map_cons, List.sum_cons] at tail ⊢
    rw [tail]
    by_cases here : e.1 = k
    · subst here
      by_cases met : p e.1
      · simp [met, new]
        ring
      · simp [met]
    · have keys : k ∈ e.1 :: entries.map Prod.fst ↔ k ∈ entries.map Prod.fst := by simp [Ne.symm here]
      rw [if_neg here, if_congr (and_congr_left' keys) rfl rfl]
      by_cases met : p e.1
      · simp only [met, here, ne_eq, not_false_eq_true, and_self, if_true]
        ring
      · simp only [met, false_and, if_false, zero_add]

/-- Setting the row of a strategy replaces its share of a sum. -/
lemma sumWhere_set {p : String → Prop} [DecidablePred p] (rows : Allocations) {k : String} {v : Allocation}
    (met : p k) :
    sumWhere p (rows.set k v).entries = sumWhere (fun x => p x ∧ x ≠ k) rows.entries + v.allocatedAmount := by
  show sumWhere p (Dict.setEntries rows.entries k v) = _
  rw [Dict.setEntries]
  split
  case isTrue mem => rw [sumWhere_replace rows.nodup, if_pos ⟨mem, met⟩]
  case isFalse mem =>
    have same : rows.entries.map (fun e => if p e.1 ∧ e.1 ≠ k then e.2.allocatedAmount else 0) =
        rows.entries.map (fun e => if p e.1 then e.2.allocatedAmount else 0) := by
      apply List.map_congr_left
      intro e found
      have other : e.1 ≠ k := fun eq => mem (eq ▸ List.mem_map_of_mem found)
      simp [other]
    simp [sumWhere, same, met]

/-- The loop of `_update_allocations`. -/
def updateFrom (rows : Allocations) (targets : List (String × ℚ)) (totalCapital : ℚ) : Allocations :=
  targets.foldl (fun rows e => rows.set e.1 ⟨e.2 * totalCapital, e.2, e.2⟩) rows

/-- The rows of the targets are written, and the others stay. -/
lemma get?_updateFrom {targets : List (String × ℚ)} (nodup : (targets.map Prod.fst).Nodup) (rows : Allocations)
    (totalCapital : ℚ) (id : String) :
    (updateFrom rows targets totalCapital).get? id =
      ((Dict.lookup targets id).map fun w => ⟨w * totalCapital, w, w⟩).or (rows.get? id) := by
  induction targets generalizing rows with
  | nil => rfl
  | cons e targets ih =>
    obtain ⟨new, rest⟩ := List.nodup_cons.1 nodup
    have step : updateFrom rows (e :: targets) totalCapital =
        updateFrom (rows.set e.1 ⟨e.2 * totalCapital, e.2, e.2⟩) targets totalCapital := rfl
    rw [step, ih rest, Dict.get?_set, Dict.lookup_cons]
    by_cases same : id = e.1
    · rw [Dict.lookup_eq_none.2 (same ▸ new), if_pos same, if_pos same]
      rfl
    · rw [if_neg same, if_neg same]

/-- The rows after an update are those of the targets and the old rows without a target. -/
lemma sumWhere_updateFrom {targets : List (String × ℚ)} (nodup : (targets.map Prod.fst).Nodup) (rows : Allocations)
    (totalCapital : ℚ) :
    sumWhere (fun _ => True) (updateFrom rows targets totalCapital).entries =
      sumWhere (fun id => id ∉ targets.map Prod.fst) rows.entries +
        (targets.map fun e => e.2 * totalCapital).sum := by
  induction targets generalizing rows with
  | nil => simp [updateFrom, sumWhere]
  | cons e targets ih =>
    obtain ⟨new, rest⟩ := List.nodup_cons.1 nodup
    have step : updateFrom rows (e :: targets) totalCapital =
        updateFrom (rows.set e.1 ⟨e.2 * totalCapital, e.2, e.2⟩) targets totalCapital := rfl
    have others : sumWhere (fun id => id ∉ targets.map Prod.fst ∧ id ≠ e.1) rows.entries =
        sumWhere (fun id => id ∉ (e :: targets).map Prod.fst) rows.entries := by
      simp only [sumWhere, List.map_cons, List.mem_cons, not_or, and_comm]
    have sum : ((e :: targets).map fun e => e.2 * totalCapital).sum =
        e.2 * totalCapital + (targets.map fun e => e.2 * totalCapital).sum := by
      rw [List.map_cons, List.sum_cons]
    rw [step, ih rest, sumWhere_set rows new, others, sum]
    ring

/-- A sum over a filtered list, term by term. -/
lemma sum_filter {α : Type} (l : List α) (p : α → Bool) (f : α → ℚ) :
    ((l.filter p).map f).sum = (l.map fun x => if p x = true then f x else 0).sum := by
  induction l with
  | nil => rfl
  | cons x l ih =>
    rw [List.map_cons, List.sum_cons, ← ih]
    by_cases met : p x = true
    · rw [List.filter_cons_of_pos met, if_pos met, List.map_cons, List.sum_cons]
    · rw [List.filter_cons_of_neg met, if_neg met, zero_add]

/-- The instruction for a strategy, over a list without duplicates. -/
lemma sum_of_nodup {ids : List String} (nodup : ids.Nodup) (f : String → ℚ) (id : String) :
    (ids.map fun x => if x = id then f x else 0).sum = if id ∈ ids then f id else 0 := by
  rw [List.sum_map_ite_eq, sub_zero]
  by_cases mem : id ∈ ids
  · rw [if_pos mem, List.count_eq_one_of_mem nodup mem]
    simp
  · rw [if_neg mem, List.count_eq_zero_of_not_mem mem]
    simp

/-- What a rebalancing moves into a vault: the difference of the weights, unless it is dust. -/
def due (current target : Weights) (totalCapital : ℚ) (id : String) : ℚ :=
  if |weightOf target id - weightOf current id| ≤ 1 / 10000 then 0
  else (weightOf target id - weightOf current id) * totalCapital

/-- What is known of the instruction for a strategy. -/
lemma instruction_eq_some {strategies : List Strategy} {current target : Weights} {totalCapital : ℚ} {id : String}
    {movement : Instruction} (found : instruction strategies current target totalCapital id = some movement) :
    movement.strategyId = id ∧ movement.inflow = due current target totalCapital id ∧
      (movement.direction = .increase ↔ 0 < movement.inflow) ∧
      (movement.action = .withdraw →
        movement.amount = (weightOf current id - weightOf target id) * totalCapital) := by
  rw [instruction] at found
  by_cases dust : |weightOf target id - weightOf current id| ≤ 1 / 10000
  · simp only [dust, if_true] at found
    cases found
  · simp only [dust, if_false] at found
    cases found
    rw [Instruction.inflow, due, if_neg dust]
    by_cases more : (weightOf target id - weightOf current id) * totalCapital > 0
    · simp [more, abs_of_pos more]
    · have less := not_lt.1 more
      simp only [more, if_false, abs_of_nonpos less, neg_neg]
      refine ⟨trivial, rfl, iff_of_false (by decide) (not_lt.2 less), fun _ => by ring⟩

/-- A strategy without an instruction is due nothing. -/
lemma instruction_eq_none {strategies : List Strategy} {current target : Weights} {totalCapital : ℚ} {id : String}
    (none : instruction strategies current target totalCapital id = none) : due current target totalCapital id = 0 := by
  rw [instruction] at none
  by_cases dust : |weightOf target id - weightOf current id| ≤ 1 / 10000
  · exact if_pos dust
  · simp only [dust, if_false] at none
    cases none

/-- An instruction moves what its strategy is due, and nothing else. -/
lemma inflow_instruction (strategies : List Strategy) (current target : Weights) (totalCapital : ℚ) (id x : String) :
    (instruction strategies current target totalCapital x).elim 0
        (fun movement => if movement.strategyId = id then movement.inflow else 0) =
      if x = id then due current target totalCapital x else 0 := by
  cases found : instruction strategies current target totalCapital x with
  | none => rw [instruction_eq_none found, Option.elim_none, ite_self]
  | some movement =>
    obtain ⟨same, inflow, -⟩ := instruction_eq_some found
    rw [Option.elim_some, same, inflow]

/-- A sum over what is found, term by term. -/
lemma sum_filterMap {α β : Type} (l : List α) (g : α → Option β) (f : β → ℚ) :
    ((l.filterMap g).map f).sum = (l.map fun x => (g x).elim 0 f).sum := by
  induction l with
  | nil => rfl
  | cons x l ih =>
    rw [List.map_cons, List.sum_cons, ← ih]
    cases found : g x with
    | none => rw [List.filterMap_cons_none found, Option.elim_none, zero_add]
    | some y => rw [List.filterMap_cons_some found, List.map_cons, List.sum_cons, Option.elim_some]

/-- A strategy that is not listed has no weight. -/
lemma weightOf_eq_zero {weights : Weights} {id : String} (missing : id ∉ weights.keys) : weightOf weights id = 0 := by
  have none : weights.get? id = none := Dict.lookup_eq_none.2 missing
  rw [weightOf, none, Option.getD_none]

/-- Each strategy is listed once. -/
lemma nodup_allStrategies (current target : Weights) : (allStrategies current target).Nodup :=
  (List.mergeSort_perm _ _).nodup_iff.2 (List.nodup_dedup _)

/-- The strategies are those of both lists. -/
lemma mem_allStrategies {current target : Weights} {id : String} :
    id ∈ allStrategies current target ↔ id ∈ current.keys ∨ id ∈ target.keys := by
  rw [allStrategies, List.mem_mergeSort, List.mem_dedup, List.mem_append]

/-- Numbering the steps changes nothing else. -/
lemma map_numbered {α : Type} (plan : List Instruction) (f : Instruction → α)
    (same : ∀ movement n, f { movement with step := n } = f movement) :
    (plan.mapIdx fun i movement => { movement with step := i + 1 }).map f = plan.map f := by
  apply List.ext_getElem?
  intro i
  rw [List.getElem?_map, List.getElem?_map, List.getElem?_mapIdx, Option.map_map]
  congr 1
  funext movement
  exact same movement (i + 1)

/-- Together the instructions move what a strategy is due. -/
lemma netMovement_build (strategies : List Strategy) (current target : Weights) (totalCapital : ℚ) (id : String) :
    netMovement (buildRebalancingInstructions strategies current target totalCapital) id =
      due current target totalCapital id := by
  rw [netMovement, buildRebalancingInstructions, map_numbered _ _ fun _ _ => rfl,
    ((List.mergeSort_perm _ _).map _).sum_eq, sum_filterMap]
  simp only [inflow_instruction]
  rw [sum_of_nodup (nodup_allStrategies current target)]
  split
  case isTrue found => rfl
  case isFalse missing =>
    rw [mem_allStrategies, not_or] at missing
    rw [due, weightOf_eq_zero missing.1, weightOf_eq_zero missing.2, if_pos (by norm_num)]

/-- Where all went well, all the movements were made. -/
lemma executeMovements_ok {executeMovement : Instruction → Except PyError (String × ℚ)} {movements : List Instruction}
    {results : List (String × ℚ)} (ok : (executeMovements executeMovement movements).2 = .ok results) :
    (executeMovements executeMovement movements).1 = movements := by
  induction movements generalizing results with
  | nil => rfl
  | cons movement movements ih =>
    rw [executeMovements] at ok ⊢
    cases outcome : executeMovement movement with
    | error e =>
      rw [outcome] at ok
      cases ok
    | ok result =>
      rw [outcome] at ok
      have ok : (executeMovements executeMovement movements).2.map (result :: ·) = .ok results := ok
      cases rest : (executeMovements executeMovement movements).2 with
      | error e =>
        rw [rest] at ok
        cases ok
      | ok results => exact congrArg (movement :: ·) (ih rest)

/-- A rebalancing that succeeds has made all its movements and written all its targets. -/
lemma executeRebalancing_ok {env : Surroundings} {db db' : Db} {strategies : List Strategy} {current target : Weights}
    {totalCapital maxDrift : ℚ} {id : String}
    (ok : executeRebalancing env db strategies current target totalCapital maxDrift = (.ok id, db')) :
    db'.executed = db.executed ++ buildRebalancingInstructions strategies current target totalCapital ∧
      db'.rows = updateAllocations db.rows target totalCapital := by
  rw [executeRebalancing] at ok
  cases lock : env.lock with
  | error e =>
    simp only [lockedMovements, lock] at ok
    split at ok
    · cases ok
    · cases ok
  | ok _ =>
    simp only [lockedMovements, lock] at ok
    cases results : (executeMovements env.executeMovement
        (buildRebalancingInstructions strategies current target totalCapital)).2 with
    | error e =>
      rw [results] at ok
      simp only at ok
      split at ok
      · cases ok
      · cases ok
    | ok list =>
      have all := executeMovements_ok results
      rw [results] at ok
      cases ok
      exact ⟨congrArg (db.executed ++ ·) all, rfl⟩

/-- A rebalancing succeeds when the lock is taken and every movement succeeds. -/
lemma executeRebalancing_succeeds (env : Surroundings) (lock : env.lock = .ok ())
    (movements : ∀ movement, ∃ result, env.executeMovement movement = .ok result) (db : Db)
    (strategies : List Strategy) (current target : Weights) (totalCapital maxDrift : ℚ) :
    ∃ db', executeRebalancing env db strategies current target totalCapital maxDrift =
      (.ok env.rebalancingId, db') := by
  have all (plan : List Instruction) : ∃ results, (executeMovements env.executeMovement plan).2 = .ok results := by
    induction plan with
    | nil => exact ⟨[], rfl⟩
    | cons movement plan ih =>
      obtain ⟨result, here⟩ := movements movement
      obtain ⟨results, rest⟩ := ih
      refine ⟨result :: results, ?_⟩
      simp only [executeMovements, here, rest]
      rfl
  obtain ⟨results, ok⟩ := all (buildRebalancingInstructions strategies current target totalCapital)
  rw [executeRebalancing]
  simp only [lockedMovements, lock, ok]
  exact ⟨_, rfl⟩

/-- The weight fetched is that of the row. -/
lemma weightOf_fetch (rows : Allocations) (id : String) :
    weightOf (fetchCurrentAllocations rows) id = (rows.get? id).elim 0 Allocation.currentWeight := by
  have found : (fetchCurrentAllocations rows).get? id = (rows.get? id).map Allocation.currentWeight :=
    Dict.lookup_map rows.entries Allocation.currentWeight id
  rw [weightOf, found]
  cases rows.get? id with
  | none => rfl
  | some row => rfl

/-- In consistent books an amount is the weight of the total capital. -/
lemma recorded_eq {rows : Allocations} (consistent : Consistent rows) (id : String) :
    recorded rows id = weightOf (fetchCurrentAllocations rows) id * computeTotalCapital rows := by
  rw [recorded, weightOf_fetch]
  cases found : rows.get? id with
  | none => rw [Option.elim_none, Option.elim_none, zero_mul]
  | some row => exact consistent _ (Dict.get?_eq_some found)

/-- After an update the targets have their weights of the capital, and the others what they had. -/
lemma recorded_update {rows : Allocations} (consistent : Consistent rows) (target : Weights) (id : String) :
    recorded (updateAllocations rows target (computeTotalCapital rows)) id =
      (if id ∈ target.keys then weightOf target id else weightOf (fetchCurrentAllocations rows) id) *
        computeTotalCapital rows := by
  have found := get?_updateFrom target.nodup rows (computeTotalCapital rows) id
  by_cases mem : id ∈ target.keys
  · obtain ⟨w, weight⟩ := Option.ne_none_iff_exists'.1 fun none => Dict.lookup_eq_none.1 none mem
    have same : weightOf target id = w := by
      show (Dict.lookup target.entries id).getD 0 = w
      rw [weight, Option.getD_some]
    rw [weight] at found
    rw [if_pos mem, same, recorded, updateAllocations]
    exact congrArg (Option.elim · 0 Allocation.allocatedAmount) found
  · rw [Dict.lookup_eq_none.2 mem] at found
    rw [if_neg mem, ← recorded_eq consistent]
    exact congrArg (Option.elim · 0 Allocation.allocatedAmount) found

/-- The movements are followed exactly when the rows without a target are dust. -/
lemma close_iff {rows : Allocations} (consistent : Consistent rows) (pos : 0 < computeTotalCapital rows)
    (target : Weights) (id : String) :
    |recorded (updateAllocations rows target (computeTotalCapital rows)) id - (recorded rows id +
        due (fetchCurrentAllocations rows) target (computeTotalCapital rows) id)| ≤
      1 / 10000 * computeTotalCapital rows ↔
    (id ∉ target.keys → |weightOf (fetchCurrentAllocations rows) id| ≤ 1 / 10000) := by
  rw [recorded_update consistent, recorded_eq consistent, due]
  generalize computeTotalCapital rows = capital at pos
  generalize weightOf (fetchCurrentAllocations rows) id = current
  have scaled : ∀ x : ℚ, |x * capital| ≤ 1 / 10000 * capital ↔ |x| ≤ 1 / 10000 := by
    intro x
    rw [abs_mul, abs_of_pos pos, mul_le_mul_iff_left₀ pos]
  by_cases mem : id ∈ target.keys
  · rw [if_pos mem]
    refine iff_of_true ?_ (fun missing => absurd mem missing)
    split
    case isTrue dust =>
      rw [add_zero, ← sub_mul, scaled]
      exact dust
    case isFalse moved =>
      rw [← add_mul, ← sub_mul, scaled]
      norm_num
  · rw [if_neg mem, weightOf_eq_zero mem, zero_sub, abs_neg]
    refine ⟨fun close _ => ?_, fun dust => ?_⟩
    · by_contra moved
      rw [if_neg moved, ← add_mul, ← sub_mul, scaled] at close
      apply moved
      have same : current - (current + -current) = current := by ring
      rwa [same] at close
    · rw [if_pos (dust mem), add_zero, sub_self, abs_zero]
      positivity

/-- The amounts make up the capital exactly when the rows without a target sum to nothing. -/
lemma whole_iff {rows : Allocations} (consistent : Consistent rows) (pos : 0 < computeTotalCapital rows)
    (target : Weights) :
    computeTotalCapital (updateAllocations rows target (computeTotalCapital rows)) +
        computeTotalCapital rows * (1 - totalWeight target) = computeTotalCapital rows ↔
      ((untargeted rows target).map fun e => e.2.currentWeight).sum = 0 := by
  have total : computeTotalCapital (updateAllocations rows target (computeTotalCapital rows)) =
      sumWhere (fun id => id ∉ target.keys) rows.entries +
        (target.entries.map fun e => e.2 * computeTotalCapital rows).sum := by
    have sum := sumWhere_updateFrom target.nodup rows (computeTotalCapital rows)
    rw [sumWhere] at sum
    simp only [if_true] at sum
    exact sum
  have left : sumWhere (fun id => id ∉ target.keys) rows.entries =
      ((untargeted rows target).map fun e => e.2.currentWeight).sum * computeTotalCapital rows := by
    rw [← List.sum_map_mul_right, untargeted, sum_filter, sumWhere]
    congr 1
    apply List.map_congr_left
    intro e mem
    rw [consistent e mem]
    simp only [decide_eq_true_eq]
  have weights : (target.entries.map fun e => e.2 * computeTotalCapital rows).sum =
      totalWeight target * computeTotalCapital rows := by
    rw [totalWeight, ← List.sum_map_mul_right]
  rw [total, left, weights]
  generalize computeTotalCapital rows = capital at pos
  generalize ((untargeted rows target).map fun e => e.2.currentWeight).sum = rest
  constructor
  · intro whole
    have zero : rest * capital = 0 := by linarith
    exact (mul_eq_zero.1 zero).resolve_right (ne_of_gt pos)
  · rintro rfl
    ring

/-- Strategies without a target hold dust just where their rows do. -/
lemma dust_iff (rows : Allocations) (target : Weights) :
    (∀ id, id ∉ target.keys → |weightOf (fetchCurrentAllocations rows) id| ≤ 1 / 10000) ↔
      ∀ e ∈ untargeted rows target, |e.2.currentWeight| ≤ 1 / 10000 := by
  constructor
  · intro all e mem
    obtain ⟨row, missing⟩ := List.mem_filter.1 mem
    have found : Dict.lookup rows.entries e.1 = some e.2 := Dict.lookup_of_mem rows.nodup row
    have small := all e.1 (of_decide_eq_true missing)
    rw [weightOf_fetch] at small
    change |Option.elim (Dict.lookup rows.entries e.1) 0 Allocation.currentWeight| ≤ 1 / 10000 at small
    rwa [found] at small
  · intro all id missing
    rw [weightOf_fetch]
    cases found : rows.get? id with
    | none =>
      rw [Option.elim_none, abs_zero]
      norm_num
    | some row => exact all (id, row) (List.mem_filter.2 ⟨Dict.get?_eq_some found, decide_eq_true missing⟩)

/-- After a rebalancing that succeeds the books follow the movements exactly when the rows without a target
have nothing to move. -/
theorem books_follow_iff {env : Surroundings} {db db' : Db} {strategies : List Strategy} {target : Weights}
    {maxDrift : ℚ} {id : String} (consistent : Consistent db.rows) (pos : 0 < computeTotalCapital db.rows)
    (ok : executeRebalancing env db strategies (fetchCurrentAllocations db.rows) target
      (computeTotalCapital db.rows) maxDrift = (.ok id, db')) :
    ∃ movements, db'.executed = db.executed ++ movements ∧
      (BooksFollow db.rows db'.rows target movements ↔ NothingLeft db.rows target) := by
  obtain ⟨executed, rows⟩ := executeRebalancing_ok ok
  refine ⟨_, executed, ?_⟩
  have close : (∀ id, |recorded db'.rows id - (recorded db.rows id + netMovement (buildRebalancingInstructions
      strategies (fetchCurrentAllocations db.rows) target (computeTotalCapital db.rows)) id)| ≤
      1 / 10000 * computeTotalCapital db.rows) ↔
      ∀ e ∈ untargeted db.rows target, |e.2.currentWeight| ≤ 1 / 10000 := by
    rw [← dust_iff, rows]
    refine forall_congr' fun id => ?_
    rw [netMovement_build, close_iff consistent pos]
  have whole := whole_iff consistent pos target
  rw [← rows] at whole
  exact ⟨fun books => ⟨close.1 books.close, whole.1 books.whole⟩,
    fun left => ⟨close.2 left.dust, whole.2 left.none⟩⟩

/-- Two vaults that share a capital of 100. -/
def sampleDb : Db where
  rows := ⟨[("a", ⟨50, 1 / 2, 1 / 2⟩), ("b", ⟨50, 1 / 2, 1 / 2⟩)], by decide⟩
  history := []
  executed := []

/-- The lock is taken and every movement is made. -/
def sampleSurroundings : Surroundings where
  rebalancingId := "r"
  str := fun _ => ""
  lock := .ok ()
  executeMovement := fun _ => .ok ("tx", 0)

/-- Both vaults have a target. -/
def sampleTarget : Weights := ⟨[("a", 3 / 4), ("b", 1 / 4)], by decide⟩

/-- The second vault is disabled and has no target. -/
def soleTarget : Weights := ⟨[("a", 1)], by decide⟩

/-- The books of the sample are consistent. -/
lemma sampleDb_consistent : Consistent sampleDb.rows := by
  rw [Consistent]
  decide +kernel

/-- A quarter of the capital moves from one vault to the other. -/
theorem books_follow_iff_sample :
    ∃ db' movements, executeRebalancing sampleSurroundings sampleDb [] (fetchCurrentAllocations sampleDb.rows)
        sampleTarget (computeTotalCapital sampleDb.rows) 0 = (.ok "r", db') ∧
      db'.executed = movements ∧ BooksFollow sampleDb.rows db'.rows sampleTarget movements := by
  obtain ⟨db', ok⟩ := executeRebalancing_succeeds sampleSurroundings rfl (fun _ => ⟨_, rfl⟩) sampleDb []
    (fetchCurrentAllocations sampleDb.rows) sampleTarget (computeTotalCapital sampleDb.rows) 0
  obtain ⟨movements, executed, books⟩ := books_follow_iff sampleDb_consistent (by decide +kernel) ok
  refine ⟨db', movements, ok, executed, books.2 ⟨?_, ?_⟩⟩
  · decide +kernel
  · decide +kernel

/-- The capital of a vault without a target is withdrawn, and its row keeps the old amount. -/
theorem books_follow_fails :
    ∃ db' movements, executeRebalancing sampleSurroundings sampleDb [] (fetchCurrentAllocations sampleDb.rows)
        soleTarget (computeTotalCapital sampleDb.rows) 0 = (.ok "r", db') ∧
      db'.executed = movements ∧ Consistent sampleDb.rows ∧ (∀ e ∈ soleTarget.entries, 0 ≤ e.2) ∧
      totalWeight soleTarget ≤ 1 ∧ recorded sampleDb.rows "b" = 50 ∧ netMovement movements "b" = -50 ∧
      recorded db'.rows "b" = 50 ∧ ¬ BooksFollow sampleDb.rows db'.rows soleTarget movements := by
  obtain ⟨db', ok⟩ := executeRebalancing_succeeds sampleSurroundings rfl (fun _ => ⟨_, rfl⟩) sampleDb []
    (fetchCurrentAllocations sampleDb.rows) soleTarget (computeTotalCapital sampleDb.rows) 0
  obtain ⟨executed, rows⟩ := executeRebalancing_ok ok
  refine ⟨db', _, ok, executed, sampleDb_consistent, by decide +kernel, by decide +kernel, by decide +kernel, ?_, ?_,
    fun books => ?_⟩
  · show netMovement (buildRebalancingInstructions _ _ _ _) "b" = -50
    rw [netMovement_build]
    decide +kernel
  · rw [rows]
    decide +kernel
  · have whole := books.whole
    rw [rows] at whole
    exact absurd whole (by decide +kernel)

end StellarFlow.Capital
