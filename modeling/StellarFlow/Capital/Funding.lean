import Mathlib.Algebra.BigOperators.Group.Finset.Basic
import Mathlib.Algebra.Order.BigOperators.Group.List
import StellarFlow.Capital.Rebalancer

/-!
# Funding of a rebalancing

What `build_rebalancing_instructions` in `app/services/capital_rebalancer.py` says of its order: all withdrawals come
before all deposits, so that there is capital for the deposits. But a difference that is dust is left out on its own, on
either side. The deposits are then funded exactly when the differences left out do not make up for more than what the
targets leave undeployed.

As the withdrawals come first, all prefixes are funded when the whole plan is (`sum_take_nonpos_iff`).
-/

namespace StellarFlow.Capital

/-- The differences that are left out. -/
def dust (current target : Weights) : ℚ :=
  ((allStrategies current target).map fun id =>
    if |weightOf target id - weightOf current id| ≤ 1 / 10000 then weightOf target id - weightOf current id else 0).sum

def deposited (plan : List Instruction) : ℚ :=
  (plan.map fun movement => if movement.action = .deposit then movement.amount else 0).sum

def withdrawn (plan : List Instruction) : ℚ :=
  (plan.map fun movement => if movement.action = .withdraw then movement.amount else 0).sum

/-- No withdrawal exceeds what is there, the plan leads to the targets, and every prefix of it is funded. -/
structure Funded (current target : Weights) (totalCapital : ℚ) (plan : List Instruction) : Prop where
  covered : ∀ movement ∈ plan, movement.action = .withdraw →
    movement.amount ≤ weightOf current movement.strategyId * totalCapital
  close : ∀ id, |weightOf current id * totalCapital + netMovement plan id - weightOf target id * totalCapital| ≤
    1 / 10000 * totalCapital
  funded : ∀ n, deposited (plan.take n) ≤ withdrawn (plan.take n)

/-- What stays out, summed over the strategies of both lists. -/
lemma dust_eq (current target : Weights) : dust current target =
    ((current.keys ++ target.keys).dedup.map fun id =>
      if |weightOf target id - weightOf current id| ≤ 1 / 10000 then weightOf target id - weightOf current id
      else 0).sum :=
  ((List.mergeSort_perm _ _).map _).sum_eq

section Order

/-- Where nothing negative follows what is positive, no prefix sums to more than nothing when the whole does not. -/
lemma sum_take_nonpos_iff {flows : List ℚ} (order : flows.Pairwise fun a b => 0 < a → 0 ≤ b) :
    (∀ n, (flows.take n).sum ≤ 0) ↔ flows.sum ≤ 0 := by
  constructor
  · intro prefixes
    have whole := prefixes flows.length
    rwa [List.take_length] at whole
  · intro whole n
    rw [← List.take_append_drop n flows] at order whole
    obtain ⟨-, -, across⟩ := List.pairwise_append.mp order
    rw [List.sum_append] at whole
    by_cases positive : ∃ a ∈ flows.take n, 0 < a
    · obtain ⟨a, mem, pos⟩ := positive
      have rest : 0 ≤ (flows.drop n).sum := List.sum_nonneg fun b mem' => across a mem b mem' pos
      linarith only [whole, rest]
    · push Not at positive
      have each := List.sum_le_sum (f := id) (g := fun _ => 0) positive
      rwa [List.map_id, List.map_const', List.sum_replicate, nsmul_zero] at each

/-- The order of the instructions is transitive. -/
lemma comesFirst_trans (a b c : Instruction) (first : comesFirst a b = true) (next : comesFirst b c = true) :
    comesFirst a c = true := by
  rw [comesFirst] at first next ⊢
  cases a_ : a.direction with
  | increase =>
    cases b_ : b.direction with
    | increase =>
      cases c_ : c.direction with
      | increase =>
        simp only [a_, b_, c_, if_true, decide_eq_true_eq] at first next ⊢
        exact String.le_trans first next
      | decrease => simp [b_, c_] at next
    | decrease => simp [a_, b_] at first
  | decrease =>
    cases c_ : c.direction with
    | increase => simp
    | decrease =>
      cases b_ : b.direction with
      | increase => simp [b_, c_] at next
      | decrease =>
        simp only [a_, b_, c_, if_true, decide_eq_true_eq] at first next ⊢
        exact String.le_trans first next

/-- The order of the instructions compares any two of them. -/
lemma comesFirst_total (a b : Instruction) : (comesFirst a b || comesFirst b a) = true := by
  have ids := String.le_total a.strategyId b.strategyId
  rw [comesFirst, comesFirst]
  cases a_ : a.direction with
  | increase =>
    cases b_ : b.direction with
    | increase => simpa using ids
    | decrease => simp
  | decrease =>
    cases b_ : b.direction with
    | increase => simp
    | decrease => simpa using ids

end Order

/-- Deposits less withdrawals are the sum of what flows in. -/
lemma deposited_sub_withdrawn (plan : List Instruction) :
    deposited plan - withdrawn plan = (plan.map Instruction.inflow).sum := by
  induction plan with
  | nil => simp [deposited, withdrawn]
  | cons movement plan ih =>
    rw [deposited, withdrawn] at ih ⊢
    rw [List.map_cons, List.map_cons, List.map_cons, List.sum_cons, List.sum_cons, List.sum_cons, ← ih,
      Instruction.inflow]
    cases movement.action with
    | deposit => simp; ring
    | withdraw => simp; ring

/-- The weights of a map, over any list that has its strategies. -/
lemma sum_weightOf {weights : Weights} {ids : List String} (nodup : ids.Nodup) (all : ∀ id ∈ weights.keys, id ∈ ids) :
    (ids.map (weightOf weights)).sum = totalWeight weights := by
  have keys : (weights.keys.map (weightOf weights)).sum = totalWeight weights := by
    rw [Dict.keys, List.map_map, totalWeight]
    congr 1
    refine List.map_congr_left fun e mem => ?_
    rw [Function.comp_apply, weightOf, Dict.get?_of_mem mem, Option.getD_some]
  have distinct : weights.keys.Nodup := weights.nodup
  rw [← keys, ← List.sum_toFinset _ nodup, ← List.sum_toFinset _ distinct]
  refine (Finset.sum_subset (fun id mem => ?_) fun id _ missing => ?_).symm
  · exact List.mem_toFinset.mpr (all id (List.mem_toFinset.mp mem))
  · exact weightOf_eq_zero fun mem => missing (List.mem_toFinset.mpr mem)

section Plan
variable (strategies : List Strategy) (current target : Weights) (totalCapital : ℚ)

/-- The sorted instructions, before they are numbered. -/
def sortedInstructions : List Instruction :=
  ((allStrategies current target).filterMap (instruction strategies current target totalCapital)).mergeSort comesFirst

/-- Numbering the instructions changes nothing but their steps. -/
lemma map_build {α : Type} (f : Instruction → α) (same : ∀ movement n, f { movement with step := n } = f movement) :
    (buildRebalancingInstructions strategies current target totalCapital).map f =
      (sortedInstructions strategies current target totalCapital).map f := map_numbered _ f same

variable {strategies current target totalCapital}

/-- Each instruction is the one of its strategy. -/
lemma mem_sortedInstructions {movement : Instruction}
    (mem : movement ∈ sortedInstructions strategies current target totalCapital) :
    instruction strategies current target totalCapital movement.strategyId = some movement := by
  obtain ⟨id, -, found⟩ := List.mem_filterMap.mp (List.mem_mergeSort.mp mem)
  rwa [(instruction_eq_some found).1]

/-- What the steps bring into the vaults, in their order: the withdrawals come first. -/
lemma inflows_sorted : ((buildRebalancingInstructions strategies current target totalCapital).map
    Instruction.inflow).Pairwise fun a b => 0 < a → 0 ≤ b := by
  rw [map_build _ _ _ _ _ fun _ _ => rfl, List.pairwise_map]
  refine (List.pairwise_mergeSort comesFirst_trans comesFirst_total _).imp_of_mem fun {a b} mem mem' first pos => ?_
  obtain ⟨-, -, more, -⟩ := instruction_eq_some (mem_sortedInstructions mem)
  obtain ⟨-, -, more', -⟩ := instruction_eq_some (mem_sortedInstructions mem')
  rw [comesFirst, more.mpr pos] at first
  cases direction : b.direction with
  | increase => exact (more'.mp direction).le
  | decrease => simp [direction] at first

/-- What all steps bring into the vaults is the difference of the totals, without what is left out. -/
lemma sum_inflows :
    ((buildRebalancingInstructions strategies current target totalCapital).map Instruction.inflow).sum =
      (totalWeight target - totalWeight current - dust current target) * totalCapital := by
  have nodup := nodup_allStrategies current target
  have current_ := sum_weightOf nodup fun id mem => mem_allStrategies.mpr (.inl mem)
  have target_ := sum_weightOf nodup fun id mem => mem_allStrategies.mpr (.inr mem)
  have negated (f : String → ℚ) : ((allStrategies current target).map fun id => -f id).sum =
      -((allStrategies current target).map f).sum := by
    rw [List.sum_neg, List.map_map]
    rfl
  have inflow (id : String) : (instruction strategies current target totalCapital id).elim 0 Instruction.inflow =
      (weightOf target id + -weightOf current id + -(if |weightOf target id - weightOf current id| ≤ 1 / 10000 then
        weightOf target id - weightOf current id else 0)) * totalCapital := by
    have same : (instruction strategies current target totalCapital id).elim 0 Instruction.inflow =
        due current target totalCapital id := by
      cases found : instruction strategies current target totalCapital id with
      | none => exact (instruction_eq_none found).symm
      | some movement => exact (instruction_eq_some found).2.1
    rw [same, due]
    split
    case isTrue => ring
    case isFalse => ring
  rw [map_build _ _ _ _ _ fun _ _ => rfl, sortedInstructions, ((List.mergeSort_perm _ _).map _).sum_eq, sum_filterMap]
  simp only [inflow]
  rw [List.sum_map_mul_right, List.sum_map_add, List.sum_map_add, negated, negated, target_, current_, ← dust]
  ring

/-- All prefixes are funded exactly when the differences that are left out leave enough. -/
lemma prefixes_funded_iff (pos : 0 < totalCapital) :
    (∀ n, deposited ((buildRebalancingInstructions strategies current target totalCapital).take n) ≤
      withdrawn ((buildRebalancingInstructions strategies current target totalCapital).take n)) ↔
      totalWeight target - totalWeight current ≤ dust current target := by
  have order : List.Pairwise (fun a b : ℚ => 0 < a → 0 ≤ b)
      ((buildRebalancingInstructions strategies current target totalCapital).map Instruction.inflow) := inflows_sorted
  have whole := sum_take_nonpos_iff order
  rw [sum_inflows] at whole
  have each (n : ℕ) : deposited ((buildRebalancingInstructions strategies current target totalCapital).take n) ≤
      withdrawn ((buildRebalancingInstructions strategies current target totalCapital).take n) ↔
      (((buildRebalancingInstructions strategies current target totalCapital).map Instruction.inflow).take n).sum ≤
        0 := by
    rw [← List.map_take, ← deposited_sub_withdrawn, sub_nonpos]
  rw [forall_congr' each, whole]
  exact ⟨fun le => sub_nonpos.mp (nonpos_of_mul_nonpos_left le pos),
    fun le => mul_nonpos_of_nonpos_of_nonneg (sub_nonpos.mpr le) pos.le⟩

/-- Weights are not negative. -/
lemma weightOf_nonneg {weights : Weights} (nonneg : ∀ e ∈ weights.entries, 0 ≤ e.2) (id : String) :
    0 ≤ weightOf weights id := by
  rw [weightOf]
  cases found : weights.get? id with
  | none => exact le_rfl
  | some weight => exact nonneg _ (Dict.get?_eq_some found)

/-- No more is withdrawn than the strategy holds. -/
lemma withdrawal_covered (nonneg : ∀ e ∈ target.entries, 0 ≤ e.2) (pos : 0 < totalCapital) {movement : Instruction}
    (mem : movement ∈ buildRebalancingInstructions strategies current target totalCapital)
    (withdraw : movement.action = .withdraw) :
    movement.amount ≤ weightOf current movement.strategyId * totalCapital := by
  obtain ⟨i, bound, rfl⟩ := List.mem_mapIdx.mp mem
  obtain ⟨-, -, -, amount⟩ := instruction_eq_some (mem_sortedInstructions (List.getElem_mem bound))
  refine (amount withdraw).trans_le (mul_le_mul_of_nonneg_right ?_ pos.le)
  exact sub_le_self _ (weightOf_nonneg nonneg _)

/-- What is left out is less than the tolerance. -/
lemma due_close (pos : 0 < totalCapital) (id : String) :
    |weightOf current id * totalCapital + due current target totalCapital id - weightOf target id * totalCapital| ≤
      1 / 10000 * totalCapital := by
  rw [due]
  split
  case isTrue small =>
    rw [add_zero, ← sub_mul, abs_mul, abs_of_pos pos, abs_sub_comm]
    exact mul_le_mul_of_nonneg_right small pos.le
  case isFalse =>
    have there : weightOf current id * totalCapital + (weightOf target id - weightOf current id) * totalCapital -
        weightOf target id * totalCapital = 0 := by ring
    rw [there, abs_zero]
    positivity

end Plan

/-- No withdrawal exceeds what is there and the plan leads to the targets, and its prefixes are funded exactly when the
differences that are left out do not make up for more than the difference of the totals. -/
theorem funded_iff (strategies : List Strategy) (current target : Weights) (totalCapital : ℚ)
    (nonneg : ∀ e ∈ target.entries, 0 ≤ e.2) (pos : 0 < totalCapital) :
    Funded current target totalCapital (buildRebalancingInstructions strategies current target totalCapital) ↔
      totalWeight target - totalWeight current ≤ dust current target := by
  refine ⟨fun plan => (prefixes_funded_iff pos).mp plan.funded, fun left => ⟨?_, fun id => ?_, ?_⟩⟩
  · exact fun movement mem withdraw => withdrawal_covered nonneg pos mem withdraw
  · rw [netMovement_build]
    exact due_close pos id
  · exact (prefixes_funded_iff pos).mpr left

/-- A quarter of the capital changes its vault. -/
theorem funded_iff_sample :
    Funded ⟨[("a", 1 / 2), ("b", 1 / 2)], by decide⟩ sampleTarget 100
      (buildRebalancingInstructions [] ⟨[("a", 1 / 2), ("b", 1 / 2)], by decide⟩ sampleTarget 100) := by
  refine (funded_iff [] _ sampleTarget 100 (by decide +kernel) (by norm_num)).mpr ?_
  rw [dust_eq]
  decide +kernel

/-- Three vaults are over their targets by dust, and one is under it by as much as the three are over. -/
def dustyCurrent : Weights :=
  ⟨[("a", 3001 / 10000), ("b", 3001 / 10000), ("c", 3001 / 10000), ("d", 997 / 10000)], by decide⟩

def dustyTarget : Weights := ⟨[("a", 3 / 10), ("b", 3 / 10), ("c", 3 / 10), ("d", 1 / 10)], by decide⟩

/-- The deposit stays and the withdrawals are left out. -/
theorem funded_fails :
    (∀ e ∈ dustyCurrent.entries, 0 ≤ e.2) ∧ (∀ e ∈ dustyTarget.entries, 0 ≤ e.2) ∧
      totalWeight dustyTarget ≤ totalWeight dustyCurrent ∧
      ¬ ∀ n, deposited ((buildRebalancingInstructions [] dustyCurrent dustyTarget 1000000).take n) ≤
        withdrawn ((buildRebalancingInstructions [] dustyCurrent dustyTarget 1000000).take n) := by
  refine ⟨by decide +kernel, by decide +kernel, by decide +kernel, fun funded => ?_⟩
  have left := (prefixes_funded_iff (by norm_num)).mp funded
  rw [dust_eq] at left
  exact absurd left (by decide +kernel)

end StellarFlow.Capital
