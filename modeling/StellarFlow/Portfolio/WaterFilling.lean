import Mathlib.Algebra.BigOperators.Ring.List
import Mathlib.Algebra.Order.BigOperators.Group.List
import Mathlib.Algebra.Order.Field.Rat
import Mathlib.Data.List.Forall2
import Mathlib.Tactic.FieldSimp
import Mathlib.Tactic.Linarith
import Mathlib.Tactic.Positivity
import Mathlib.Tactic.Ring
import StellarFlow.Lib.Python

/-!
# Capped weights

Model of `_cap_weights` and `_apply_risk_budget` in `app/services/portfolio_optimizer.py`, with exact numbers. Weights
over their caps are cut, and what is cut is given to the others, in proportion to their weights or in equal shares,
until nothing is cut.

Each round stretches all weights that are not capped by one factor, or lifts them by one amount. So at any time they are
what one factor, at least one, and one amount, not negative, make of the weights at the start, and the others are at
their caps (`Levelled`). Every round that goes on caps one more weight and brings the total to the smaller of the total
before and the sum of the caps.
-/

namespace StellarFlow.Portfolio

/-- The budgets of a `PortfolioOptimizer`, as its constructor checks them. -/
structure PortfolioOptimizer where
  maxSingleAllocation : ℚ
  maxPortfolioRisk : ℚ
  single_pos : 0 < maxSingleAllocation
  single_le : maxSingleAllocation ≤ 1
  risk_nonneg : 0 ≤ maxPortfolioRisk
  risk_le : maxPortfolioRisk ≤ 1

/-- `1e-12`. -/
def tolerance : ℚ := 1 / 10 ^ 12

/-- `result[i]`, `caps[i]` and `capped[i]`. -/
structure Slot where
  result : ℚ
  cap : ℚ
  capped : Bool

/-- The slot is cut in this round. -/
def Slot.isOver (slot : Slot) : Bool := !slot.capped && decide (slot.cap + tolerance < slot.result)

def Slot.cut (slot : Slot) : Slot := if slot.isOver then { slot with result := slot.cap, capped := true } else slot

/-- What is cut. -/
def overflow (slots : List Slot) : ℚ :=
  (slots.map fun slot => if slot.isOver then slot.result - slot.cap else 0).sum

/-- `free`. -/
def free (slots : List Slot) : List Slot := slots.filter fun slot => !slot.capped

def headroom (slots : List Slot) : ℚ := ((free slots).map fun slot => slot.cap - slot.result).sum

def freeBase (slots : List Slot) : ℚ := ((free slots).map Slot.result).sum

/-- Each free slot gains something. -/
def give (gain : ℚ → ℚ) (slots : List Slot) : List Slot :=
  slots.map fun slot => if slot.capped then slot else { slot with result := slot.result + gain slot.result }

/-- What was cut is given to the free slots. -/
def redistribute (amount : ℚ) (slots : List Slot) : List Slot :=
  if freeBase slots ≤ tolerance then give (fun _ => amount / (free slots).length) slots
  else give (fun result => amount * (result / freeBase slots)) slots

/-- A round of the loop, and whether the next one follows. -/
def round (slots : List Slot) : List Slot × Bool :=
  let cut := slots.map Slot.cut
  if overflow slots ≤ tolerance then (cut, false)
  else if (free cut).isEmpty then (cut, false)
  else if headroom cut ≤ tolerance then (cut, false)
  else (redistribute (min (overflow slots) (headroom cut)) cut, true)

/-- The loop. -/
def rounds : ℕ → List Slot → List Slot
  | 0, slots => slots
  | n + 1, slots => if (round slots).2 then rounds n (round slots).1 else (round slots).1

/-- The slots at the start. -/
def slots (weights caps : List ℚ) : List Slot := (weights.zip caps).map fun entry => ⟨entry.1, entry.2, false⟩

/-- `_cap_weights`; the first round reads the cap of each weight. -/
def capWeights (weights caps : List ℚ) : Except PyError (List ℚ) :=
  if caps.length < weights.length then .error .indexError
  else .ok ((rounds (weights.length + 1) (slots weights caps)).map fun slot => max 0 (min slot.result slot.cap))

/-- `sum(w * r for w, r in zip(weights, risk_scores))`. -/
def weightedRisk (weights riskScores : List ℚ) : ℚ := (List.zipWith (fun w r => w * r) weights riskScores).sum

/-- `_apply_risk_budget`. -/
def PortfolioOptimizer.applyRiskBudget (optimizer : PortfolioOptimizer) (weights riskScores : List ℚ) : List ℚ × ℚ :=
  let exposure := weightedRisk weights riskScores
  if optimizer.maxPortfolioRisk ≥ 1 ∨ exposure ≤ optimizer.maxPortfolioRisk then (weights, exposure)
  else if exposure ≤ 0 then (weights, exposure)
  else
    let scale := optimizer.maxPortfolioRisk / exposure
    let scaled := weights.map fun w => w * scale
    (scaled, weightedRisk scaled riskScores)

/-- The sums of the weights and of the caps. -/
def total (slots : List Slot) : ℚ := (slots.map Slot.result).sum

def capacity (slots : List Slot) : ℚ := (slots.map Slot.cap).sum

/-- The tolerance is positive. -/
lemma tolerance_pos : 0 < tolerance := by norm_num [tolerance]

section Round
variable {slots : List Slot} {slot : Slot} {amount : ℚ}

/-- What is capped is at its cap. -/
def AtCaps (slots : List Slot) : Prop := ∀ slot ∈ slots, slot.capped = true → slot.result = slot.cap

/-- What overflows is not negative. -/
lemma overflow_nonneg (slots : List Slot) : 0 ≤ overflow slots := by
  refine List.sum_nonneg fun x mem => ?_
  obtain ⟨slot, -, rfl⟩ := List.mem_map.mp mem
  split
  case isTrue cut =>
    have above : slot.cap + tolerance < slot.result := of_decide_eq_true (Bool.and_eq_true _ _ |>.mp cut).2
    linarith only [above, tolerance_pos]
  case isFalse => exact le_rfl

/-- Cutting takes what overflows. -/
lemma total_cut (slots : List Slot) : total (slots.map Slot.cut) = total slots - overflow slots := by
  induction slots with
  | nil => simp [total, overflow]
  | cons slot slots ih =>
    simp only [total, overflow, List.map_cons, List.sum_cons] at ih ⊢
    rw [ih, Slot.cut]
    split <;> ring

/-- Cutting changes no cap. -/
lemma caps_cut (slots : List Slot) : (slots.map Slot.cut).map Slot.cap = slots.map Slot.cap := by
  rw [List.map_map]
  refine List.map_congr_left fun slot _ => ?_
  rw [Function.comp_apply, Slot.cut]
  split <;> rfl

/-- The room of the free slots is the room of all. -/
lemma headroom_eq (atCaps : AtCaps slots) : headroom slots = capacity slots - total slots := by
  induction slots with
  | nil => simp [headroom, capacity, total, free]
  | cons slot slots ih =>
    have rest := ih fun s mem => atCaps s (List.mem_cons_of_mem slot mem)
    simp only [headroom, capacity, total, free, List.map_cons, List.sum_cons] at rest ⊢
    cases capped : slot.capped with
    | true =>
      rw [List.filter_cons_of_neg (by simp [capped]), rest, atCaps slot List.mem_cons_self capped]
      ring
    | false =>
      rw [List.filter_cons_of_pos (by simp [capped]), List.map_cons, List.sum_cons, rest]
      ring

/-- Giving adds the gains of the free slots. -/
lemma total_give (gain : ℚ → ℚ) (slots : List Slot) :
    total (give gain slots) = total slots + ((free slots).map fun slot => gain slot.result).sum := by
  induction slots with
  | nil => simp [give, total, free]
  | cons slot slots ih =>
    simp only [give, total, free, List.map_cons, List.sum_cons] at ih ⊢
    rw [ih]
    cases capped : slot.capped with
    | true =>
      rw [if_pos rfl, List.filter_cons_of_neg (by simp [capped])]
      ring
    | false =>
      rw [if_neg (by decide), List.filter_cons_of_pos (by simp [capped]), List.map_cons, List.sum_cons]
      ring

/-- What is given arrives. -/
lemma total_redistribute (some_ : free slots ≠ []) : total (redistribute amount slots) = total slots + amount := by
  rw [redistribute]
  split
  case isTrue low =>
    have length : ((free slots).length : ℚ) ≠ 0 := Nat.cast_ne_zero.mpr (by simpa using some_)
    rw [total_give, List.map_const', List.sum_replicate, nsmul_eq_mul, mul_div_cancel₀ _ length]
  case isFalse high =>
    have base : freeBase slots ≠ 0 := fun zero => high (zero.trans_le tolerance_pos.le)
    simp only [total_give, div_eq_mul_inv, List.sum_map_mul_left, List.sum_map_mul_right]
    rw [← freeBase, mul_inv_cancel₀ base, mul_one]

/-- Giving changes no cap. -/
lemma caps_give (gain : ℚ → ℚ) (slots : List Slot) : (give gain slots).map Slot.cap = slots.map Slot.cap := by
  rw [give, List.map_map]
  refine List.map_congr_left fun slot _ => ?_
  rw [Function.comp_apply]
  split <;> rfl

/-- Redistributing changes no cap. -/
lemma caps_redistribute (amount : ℚ) (slots : List Slot) :
    (redistribute amount slots).map Slot.cap = slots.map Slot.cap := by
  rw [redistribute]
  split <;> exact caps_give _ _

/-- The capacity is that of the caps. -/
lemma capacity_congr {slots' : List Slot} (same : slots.map Slot.cap = slots'.map Slot.cap) :
    capacity slots = capacity slots' := by
  rw [capacity, same, capacity]

/-- Giving leaves as many slots free. -/
lemma length_free_give (gain : ℚ → ℚ) (slots : List Slot) : (free (give gain slots)).length = (free slots).length := by
  rw [free, free, give, List.filter_map, List.length_map]
  refine congrArg List.length (List.filter_congr fun slot _ => ?_)
  rw [Function.comp_apply]
  split <;> rfl

/-- Redistributing leaves as many slots free. -/
lemma length_free_redistribute (amount : ℚ) (slots : List Slot) :
    (free (redistribute amount slots)).length = (free slots).length := by
  rw [redistribute]
  split <;> exact length_free_give _ _

/-- A round in which something is cut leaves fewer free slots. -/
lemma length_free_cut (cut : tolerance < overflow slots) :
    (free (slots.map Slot.cut)).length < (free slots).length := by
  have some_ : ∃ slot ∈ slots, slot.isOver = true := by
    by_contra none_
    push Not at none_
    have zero : overflow slots = 0 := by
      refine List.sum_eq_zero fun x mem => ?_
      obtain ⟨slot, mem', rfl⟩ := List.mem_map.mp mem
      exact if_neg (none_ slot mem')
    linarith only [cut, zero, tolerance_pos]
  have le (slots : List Slot) : (free (slots.map Slot.cut)).length ≤ (free slots).length := by
    rw [free, free, List.filter_map, List.length_map, ← List.countP_eq_length_filter, ← List.countP_eq_length_filter]
    refine List.countP_mono_left fun slot _ uncapped => ?_
    rw [Function.comp_apply, Slot.cut] at uncapped
    split at uncapped
    case isTrue => cases uncapped
    case isFalse => exact uncapped
  obtain ⟨slot, mem, exceeds⟩ := some_
  obtain ⟨before, after, rfl⟩ := List.append_of_mem mem
  have before_ := le before
  have after_ := le after
  have uncapped : slot.capped = false := by
    rw [Slot.isOver, Bool.and_eq_true, Bool.not_eq_true'] at exceeds
    exact exceeds.1
  have capped : slot.cut.capped = true := by rw [Slot.cut, if_pos exceeds]
  simp only [free, List.map_append, List.map_cons, List.filter_append, List.length_append] at before_ after_ ⊢
  rw [List.filter_cons_of_neg (by simp [capped]), List.filter_cons_of_pos (by simp [uncapped]), List.length_cons]
  omega

/-- A round either only cuts, because little is cut or little room is left, or gives what is cut to the others. -/
lemma round_cases (slots : List Slot) :
    (round slots = (slots.map Slot.cut, false) ∧
      (overflow slots ≤ tolerance ∨ headroom (slots.map Slot.cut) ≤ tolerance)) ∨
    (round slots = (redistribute (min (overflow slots) (headroom (slots.map Slot.cut))) (slots.map Slot.cut), true) ∧
      tolerance < overflow slots ∧ tolerance < headroom (slots.map Slot.cut) ∧ free (slots.map Slot.cut) ≠ []) := by
  rw [round]
  split
  case isTrue little => exact .inl ⟨rfl, .inl little⟩
  case isFalse cut =>
    split
    case isTrue none_ =>
      refine .inl ⟨rfl, .inr ?_⟩
      rw [headroom, List.isEmpty_iff.mp none_]
      exact tolerance_pos.le
    case isFalse some_ =>
      split
      case isTrue little => exact .inl ⟨rfl, .inr little⟩
      case isFalse room => exact .inr ⟨rfl, not_le.mp cut, not_le.mp room, by simpa using some_⟩

/-- A round after which the loop goes on: the total comes down to the caps, if it was above, and less is free. -/
lemma round_goes_on (atCaps : AtCaps (slots.map Slot.cut)) (goes : (round slots).2 = true) :
    total (round slots).1 = min (total slots) (capacity slots) ∧
      (free (round slots).1).length < (free slots).length := by
  obtain ⟨stops, -⟩ | ⟨gives, cut, -, some_⟩ := round_cases slots
  · rw [stops] at goes
    cases goes
  · rw [gives]
    constructor
    · rw [total_redistribute some_, headroom_eq atCaps, total_cut, capacity_congr (caps_cut slots), ← min_add_add_left]
      congr 1 <;> ring
    · rw [length_free_redistribute]
      exact length_free_cut cut

/-- A round after which it stops has only cut, and what is lost is less than the caps have left, or next to nothing. -/
lemma round_stops (atCaps : AtCaps (slots.map Slot.cut)) (stops : (round slots).2 = false) :
    (round slots).1 = slots.map Slot.cut ∧
      min (total slots) (capacity slots) - tolerance ≤ total (slots.map Slot.cut) := by
  have room := headroom_eq atCaps
  rw [capacity_congr (caps_cut slots)] at room
  obtain ⟨cuts, little | little⟩ | ⟨gives, -⟩ := round_cases slots
  · rw [cuts, total_cut]
    exact ⟨rfl, by linarith only [little, min_le_left (total slots) (capacity slots)]⟩
  · rw [cuts]
    exact ⟨rfl, by linarith only [room, little, min_le_right (total slots) (capacity slots)]⟩
  · rw [gives] at stops
    cases stops

end Round

section Level

/-- A slot at its cap, or at what the factor and the amount make of its weight; the cap is not above that. -/
structure Level (factor lift weight : ℚ) (slot : Slot) : Prop where
  capped : slot.capped = true → slot.result = slot.cap ∧ slot.cap ≤ factor * weight + lift
  uncapped : slot.capped = false → slot.result = factor * weight + lift
  cap_nonneg : 0 ≤ slot.cap

def Levelled (factor lift : ℚ) : List ℚ → List Slot → Prop := List.Forall₂ (Level factor lift)

variable {factor lift weight amount : ℚ} {weights : List ℚ} {slots : List Slot} {slot : Slot}

/-- A slot that is cut is still at its level. -/
lemma Level.cut (level : Level factor lift weight slot) : Level factor lift weight slot.cut := by
  rw [Slot.cut]
  split
  case isTrue exceeds =>
    rw [Slot.isOver, Bool.and_eq_true, Bool.not_eq_true', decide_eq_true_iff] at exceeds
    refine ⟨fun _ => ⟨rfl, ?_⟩, fun uncapped => Bool.noConfusion uncapped, level.cap_nonneg⟩
    have result := level.uncapped exceeds.1
    show slot.cap ≤ _
    linarith only [exceeds.2, result, tolerance_pos]
  case isFalse => exact level

/-- Stretching by a factor that is at least one, and lifting. -/
lemma Level.give {stretch raise : ℚ} (gain : ℚ → ℚ) (level : Level factor lift weight slot) (grows : 1 ≤ stretch)
    (nonneg : 0 ≤ raise) (gains : ∀ x, x + gain x = stretch * x + raise) :
    Level (stretch * factor) (stretch * lift + raise) weight
      (if slot.capped then slot else { slot with result := slot.result + gain slot.result }) := by
  cases capped : slot.capped with
  | true =>
    obtain ⟨atCap, below⟩ := level.capped capped
    refine ⟨fun _ => ⟨atCap, ?_⟩, fun uncapped => ?_, level.cap_nonneg⟩
    · show slot.cap ≤ _
      have cap_nonneg := level.cap_nonneg
      have stretched : slot.cap ≤ stretch * (factor * weight + lift) := by nlinarith only [below, grows, cap_nonneg]
      linarith only [stretched, nonneg]
    · rw [if_pos rfl, capped] at uncapped
      cases uncapped
  | false =>
    refine ⟨fun capped' => ?_, fun _ => ?_, level.cap_nonneg⟩
    · rw [if_neg (by decide)] at capped'
      cases capped'
    · show slot.result + gain slot.result = _
      rw [gains, level.uncapped capped]
      ring

/-- Each item is related to one of the others. -/
lemma exists_related {α β : Type} {R : α → β → Prop} {xs : List α} {ys : List β} (related : List.Forall₂ R xs ys) :
    ∀ x ∈ xs, ∃ y ∈ ys, R x y := by
  induction related with
  | nil => exact fun x mem => absurd mem List.not_mem_nil
  | cons head _ ih =>
    intro x mem
    rcases List.mem_cons.mp mem with rfl | later
    · exact ⟨_, List.mem_cons_self, head⟩
    · obtain ⟨y, mem', related'⟩ := ih x later
      exact ⟨y, List.mem_cons_of_mem _ mem', related'⟩

/-- Each slot is at the level of a weight. -/
lemma Levelled.exists_weight (levelled : Levelled factor lift weights slots) :
    ∀ slot ∈ slots, ∃ weight ∈ weights, Level factor lift weight slot :=
  exists_related levelled.flip

/-- What is capped is at its cap. -/
lemma Levelled.atCaps (levelled : Levelled factor lift weights slots) : AtCaps slots := by
  intro slot mem capped
  obtain ⟨weight, -, level⟩ := levelled.exists_weight slot mem
  exact (level.capped capped).1

/-- Slots that are cut are still levelled. -/
lemma Levelled.cut (levelled : Levelled factor lift weights slots) :
    Levelled factor lift weights (slots.map Slot.cut) :=
  List.forall₂_map_right_iff.mpr (levelled.imp fun _ _ level => level.cut)

/-- After redistributing the slots are levelled higher. -/
lemma Levelled.redistribute (levelled : Levelled factor lift weights slots) (stretched : 1 ≤ factor) (lifted : 0 ≤ lift)
    (nonneg : 0 ≤ amount) : ∃ factor' lift', 1 ≤ factor' ∧ 0 ≤ lift' ∧
      Levelled factor' lift' weights (redistribute amount slots) := by
  rw [Portfolio.redistribute]
  split
  case isTrue =>
    have share : 0 ≤ amount / (free slots).length := div_nonneg nonneg (Nat.cast_nonneg _)
    refine ⟨1 * factor, 1 * lift + amount / (free slots).length, by linarith only [stretched],
      by linarith only [lifted, share], List.forall₂_map_right_iff.mpr (levelled.imp fun _ _ level => ?_)⟩
    exact Level.give (fun _ => _) level le_rfl share fun x => by ring
  case isFalse high =>
    have base : 0 < freeBase slots := tolerance_pos.trans (not_le.mp high)
    have grows : 1 ≤ 1 + amount / freeBase slots := by linarith only [div_nonneg nonneg base.le]
    refine ⟨(1 + amount / freeBase slots) * factor, (1 + amount / freeBase slots) * lift + 0, ?_, ?_,
      List.forall₂_map_right_iff.mpr (levelled.imp fun _ _ level => ?_)⟩
    · nlinarith only [grows, stretched]
    · nlinarith only [grows, lifted]
    · exact Level.give (fun result => amount * (result / freeBase slots)) level grows le_rfl fun x => by ring

/-- A round keeps the slots level. -/
lemma Levelled.round (levelled : Levelled factor lift weights slots) (stretched : 1 ≤ factor) (lifted : 0 ≤ lift) :
    ∃ factor' lift', 1 ≤ factor' ∧ 0 ≤ lift' ∧ Levelled factor' lift' weights (round slots).1 := by
  obtain ⟨cuts, -⟩ | ⟨gives, -, room, -⟩ := round_cases slots
  · rw [cuts]
    exact ⟨factor, lift, stretched, lifted, levelled.cut⟩
  · rw [gives]
    exact levelled.cut.redistribute stretched lifted (le_min (overflow_nonneg slots) (tolerance_pos.trans room).le)

/-- A round changes no cap. -/
lemma caps_round (slots : List Slot) : (Portfolio.round slots).1.map Slot.cap = slots.map Slot.cap := by
  obtain ⟨cuts, -⟩ | ⟨gives, -⟩ := round_cases slots
  · rw [cuts]
    exact caps_cut slots
  · rw [gives]
    exact (caps_redistribute _ _).trans (caps_cut slots)

/-- What the loop makes of the slots. -/
structure Filled (weights : List ℚ) (before after : List Slot) : Prop where
  level : ∃ factor lift, 1 ≤ factor ∧ 0 ≤ lift ∧ Levelled factor lift weights after
  within : ∀ slot ∈ after, slot.result ≤ slot.cap + tolerance
  caps : after.map Slot.cap = before.map Slot.cap
  le : total after ≤ total before
  ge : min (total before) (capacity before) - tolerance ≤ total after

/-- After the cut no slot is over its cap by more than the tolerance. -/
lemma Level.within (level : Level factor lift weight slot) : slot.cut.result ≤ slot.cut.cap + tolerance := by
  rw [Slot.cut]
  split
  case isTrue => exact le_add_of_nonneg_right tolerance_pos.le
  case isFalse kept =>
    cases capped : slot.capped with
    | true =>
      rw [(level.capped capped).1]
      exact le_add_of_nonneg_right tolerance_pos.le
    | false =>
      rw [Slot.isOver, capped] at kept
      exact not_lt.mp fun above => kept (by simpa using above)

/-- As many rounds as there are free slots, and one more, are enough: the last one stops. -/
lemma Levelled.rounds {m : ℕ} (enough : (free slots).length < m) (levelled : Levelled factor lift weights slots)
    (stretched : 1 ≤ factor) (lifted : 0 ≤ lift) : Filled weights slots (rounds m slots) := by
  induction m generalizing slots factor lift with
  | zero => exact absurd enough (Nat.not_lt_zero _)
  | succ m ih =>
    rw [Portfolio.rounds]
    cases goes : (Portfolio.round slots).2 with
    | true =>
      rw [if_pos rfl]
      obtain ⟨capped, fewer⟩ := round_goes_on levelled.cut.atCaps goes
      obtain ⟨factor', lift', stretched', lifted', levelled'⟩ := levelled.round stretched lifted
      have filled := ih (by omega) levelled' stretched' lifted'
      refine ⟨filled.level, filled.within, filled.caps.trans (caps_round slots), ?_, ?_⟩
      · exact filled.le.trans (capped.trans_le (min_le_left _ _))
      · have ge := filled.ge
        rwa [capped, capacity_congr (caps_round slots), min_assoc, min_self] at ge
    | false =>
      rw [if_neg (by decide)]
      obtain ⟨cut, lost⟩ := round_stops levelled.cut.atCaps goes
      rw [cut]
      refine ⟨⟨factor, lift, stretched, lifted, levelled.cut⟩, fun slot mem => ?_, caps_cut slots, ?_, lost⟩
      · obtain ⟨slot', mem', rfl⟩ := List.mem_map.mp mem
        obtain ⟨weight, -, level⟩ := levelled.exists_weight slot' mem'
        exact level.within
      · rw [total_cut]
        linarith only [overflow_nonneg slots]

end Level

section Weights
variable {weights caps : List ℚ}

/-- The slots start at the weights. -/
lemma map_result_slots (same : weights.length = caps.length) : (slots weights caps).map Slot.result = weights := by
  rw [slots, List.map_map]
  exact List.map_fst_zip same.le

/-- The slots start with the caps. -/
lemma map_cap_slots (same : weights.length = caps.length) : (slots weights caps).map Slot.cap = caps := by
  rw [slots, List.map_map]
  exact List.map_snd_zip same.ge

/-- There is a slot for each weight. -/
lemma length_slots (same : weights.length = caps.length) : (slots weights caps).length = weights.length := by
  rw [slots, List.length_map, List.length_zip, same, min_self]

/-- The slots start levelled. -/
lemma levelled_slots (same : weights.length = caps.length) (nonneg : ∀ cap ∈ caps, 0 ≤ cap) :
    Levelled 1 0 weights (slots weights caps) := by
  induction weights generalizing caps with
  | nil => exact .nil
  | cons weight weights ih =>
    cases caps with
    | nil => cases same
    | cons cap caps =>
      have level : Level 1 0 weight ⟨weight, cap, false⟩ :=
        ⟨fun capped => Bool.noConfusion capped, fun _ => by ring, nonneg cap List.mem_cons_self⟩
      exact .cons level (ih (Nat.succ.inj same) fun c mem => nonneg c (List.mem_cons_of_mem cap mem))

/-- The slots after the loop of `_cap_weights`. -/
def filled (weights caps : List ℚ) : List Slot := rounds (weights.length + 1) (slots weights caps)

/-- The weights it returns for them. -/
def clipped (slots : List Slot) : List ℚ := slots.map fun slot => max 0 (min slot.result slot.cap)

/-- `cap_weights` clips the filled slots. -/
lemma capWeights_eq (same : weights.length = caps.length) :
    capWeights weights caps = .ok (clipped (filled weights caps)) := by
  rw [capWeights, if_neg same.not_gt]
  rfl

/-- Filling gives filled slots. -/
lemma filled_filled (same : weights.length = caps.length) (nonneg : ∀ cap ∈ caps, 0 ≤ cap) :
    Filled weights (slots weights caps) (filled weights caps) := by
  refine Levelled.rounds (Nat.lt_succ_of_le ?_) (levelled_slots same nonneg) le_rfl le_rfl
  exact (List.length_filter_le _ _).trans_eq (length_slots same)

/-- The slots start with the sum of the weights. -/
lemma total_slots (same : weights.length = caps.length) : total (slots weights caps) = weights.sum := by
  rw [total, map_result_slots same]

/-- The slots have the capacity of the caps. -/
lemma capacity_slots (same : weights.length = caps.length) : capacity (slots weights caps) = caps.sum := by
  rw [capacity, map_cap_slots same]

variable {before after : List Slot}

/-- Every weight is between zero and its cap. -/
lemma Filled.clipped_between (filled : Filled weights before after) :
    List.Forall₂ (fun x cap => 0 ≤ x ∧ x ≤ cap) (clipped after) (before.map Slot.cap) := by
  obtain ⟨factor, lift, -, -, levelled⟩ := filled.level
  rw [← filled.caps, clipped, List.forall₂_map_left_iff, List.forall₂_map_right_iff, List.forall₂_same]
  intro slot mem
  obtain ⟨weight, -, level⟩ := levelled.exists_weight slot mem
  exact ⟨le_max_left _ _, max_le level.cap_nonneg (min_le_right _ _)⟩

/-- Clipping loses no more than the tolerance for each weight. -/
lemma Filled.le_sum_clipped (filled : Filled weights before after) :
    total after - weights.length * tolerance ≤ (clipped after).sum := by
  obtain ⟨factor, lift, -, -, levelled⟩ := filled.level
  have each : (after.map fun slot => slot.result + -tolerance).sum ≤ (clipped after).sum := by
    refine List.sum_le_sum fun slot mem => le_max_of_le_right (le_min ?_ ?_)
    · linarith only [tolerance_pos]
    · linarith only [filled.within slot mem]
  rw [List.sum_map_add, List.map_const', List.sum_replicate, nsmul_eq_mul, ← levelled.length_eq] at each
  rw [total]
  linarith only [each]

/-- Where no weight is negative after the loop, clipping adds nothing. -/
lemma sum_clipped_le (nonneg : ∀ slot ∈ after, 0 ≤ slot.result) : (clipped after).sum ≤ total after :=
  List.sum_le_sum fun slot mem => max_le (nonneg slot mem) (min_le_left _ _)

/-- A slot at a level that is not negative has such a result. -/
lemma Level.result_nonneg {factor lift weight : ℚ} {slot : Slot} (level : Level factor lift weight slot)
    (nonneg : 0 ≤ factor * weight + lift) : 0 ≤ slot.result := by
  cases capped : slot.capped with
  | true => exact level.cap_nonneg.trans (level.capped capped).1.ge
  | false => exact nonneg.trans (level.uncapped capped).ge

/-- Weights that are not negative have such results when they are filled. -/
lemma Filled.result_nonneg (filled : Filled weights before after) (nonneg : ∀ weight ∈ weights, 0 ≤ weight) :
    ∀ slot ∈ after, 0 ≤ slot.result := by
  obtain ⟨factor, lift, stretched, lifted, levelled⟩ := filled.level
  intro slot mem
  obtain ⟨weight, mem', level⟩ := levelled.exists_weight slot mem
  exact level.result_nonneg (add_nonneg (mul_nonneg (zero_le_one.trans stretched) (nonneg weight mem')) lifted)

end Weights

section Risk
variable {optimizer : PortfolioOptimizer} {weights riskScores caps : List ℚ}

/-- Scaling the weights scales the risk. -/
lemma weightedRisk_map_mul (scale : ℚ) (weights riskScores : List ℚ) :
    weightedRisk (weights.map fun w => w * scale) riskScores = weightedRisk weights riskScores * scale := by
  have terms := List.sum_map_mul_right (List.zipWith (fun w r => w * r) weights riskScores) id scale
  rw [List.map_id, List.map_zipWith] at terms
  rw [weightedRisk, weightedRisk, List.zipWith_map_left, ← terms]
  simp only [id, mul_right_comm]

/-- The risk of the returned weights comes with them, and is in the budget where there is one. -/
lemma applyRiskBudget_risk (optimizer : PortfolioOptimizer) (weights riskScores : List ℚ) :
    (optimizer.applyRiskBudget weights riskScores).2 =
        weightedRisk (optimizer.applyRiskBudget weights riskScores).1 riskScores ∧
      (optimizer.maxPortfolioRisk < 1 →
        (optimizer.applyRiskBudget weights riskScores).2 ≤ optimizer.maxPortfolioRisk) := by
  rw [PortfolioOptimizer.applyRiskBudget]
  split
  case isTrue fits =>
    refine ⟨rfl, fun bounded => ?_⟩
    exact fits.resolve_left (not_le.mpr bounded)
  case isFalse =>
    split
    case isTrue nothing => exact ⟨rfl, fun _ => nothing.trans optimizer.risk_nonneg⟩
    case isFalse some_ =>
      refine ⟨rfl, fun _ => ?_⟩
      dsimp only
      rw [weightedRisk_map_mul, mul_div_cancel₀ _ (not_le.mp some_).ne']

/-- The weights are scaled down, if at all. -/
lemma applyRiskBudget_scale (optimizer : PortfolioOptimizer) (weights riskScores : List ℚ) :
    ∃ scale, 0 ≤ scale ∧ scale ≤ 1 ∧
      (optimizer.applyRiskBudget weights riskScores).1 = weights.map fun w => w * scale := by
  have same : weights = weights.map fun w => w * 1 := by simp
  rw [PortfolioOptimizer.applyRiskBudget]
  split
  case isTrue => exact ⟨1, zero_le_one, le_rfl, same⟩
  case isFalse exceeds =>
    split
    case isTrue => exact ⟨1, zero_le_one, le_rfl, same⟩
    case isFalse some_ =>
      push Not at exceeds
      have pos := not_le.mp some_
      exact ⟨optimizer.maxPortfolioRisk / weightedRisk weights riskScores, div_nonneg optimizer.risk_nonneg pos.le,
        (div_le_one pos).mpr exceeds.2.le, rfl⟩

/-- Scaling down stays within the caps. -/
lemma between_scale {scale : ℚ} (nonneg : 0 ≤ scale) (le : scale ≤ 1)
    (between : List.Forall₂ (fun x cap => 0 ≤ x ∧ x ≤ cap) weights caps) :
    List.Forall₂ (fun x cap => 0 ≤ x ∧ x ≤ cap) (weights.map fun w => w * scale) caps := by
  rw [List.forall₂_map_left_iff]
  refine between.imp fun x cap bounds => ⟨mul_nonneg bounds.1 nonneg, ?_⟩
  exact (mul_le_of_le_one_right bounds.1 le).trans bounds.2

end Risk

/-- No weight exceeds its cap, nothing is made, and no more is lost than the tolerances; and the budget for the risk
keeps the caps and is kept. -/
theorem capWeights_feasible (optimizer : PortfolioOptimizer) (weights caps : List ℚ)
    (same : weights.length = caps.length) (weights_nonneg : ∀ weight ∈ weights, 0 ≤ weight)
    (caps_nonneg : ∀ cap ∈ caps, 0 ≤ cap) :
    ∃ r, capWeights weights caps = .ok r ∧ List.Forall₂ (fun x cap => 0 ≤ x ∧ x ≤ cap) r caps ∧
      r.sum ≤ weights.sum ∧ min weights.sum caps.sum - 2 * (weights.length + 1) * (1 / 10 ^ 12) ≤ r.sum ∧
      ∀ riskScores : List ℚ, (∀ x ∈ riskScores, 0 ≤ x) →
        0 < optimizer.maxPortfolioRisk ∧ optimizer.maxPortfolioRisk < 1 →
          List.Forall₂ (fun x cap => 0 ≤ x ∧ x ≤ cap) (optimizer.applyRiskBudget r riskScores).1 caps ∧
            weightedRisk (optimizer.applyRiskBudget r riskScores).1 riskScores ≤ optimizer.maxPortfolioRisk := by
  have run := filled_filled same caps_nonneg
  have between := run.clipped_between
  rw [map_cap_slots same] at between
  refine ⟨_, capWeights_eq same, between, ?_, ?_, fun riskScores _ budget => ⟨?_, ?_⟩⟩
  · calc _ ≤ total (filled weights caps) := sum_clipped_le (run.result_nonneg weights_nonneg)
      _ ≤ total (slots weights caps) := run.le
      _ = weights.sum := total_slots same
  · have lost := run.le_sum_clipped
    have ge := run.ge
    rw [total_slots same, capacity_slots same] at ge
    have room : 0 ≤ (weights.length : ℚ) * tolerance := mul_nonneg (Nat.cast_nonneg _) tolerance_pos.le
    rw [← tolerance]
    linarith only [lost, ge, room, tolerance_pos]
  · obtain ⟨scale, nonneg, le, scaled⟩ := applyRiskBudget_scale optimizer (clipped (filled weights caps)) riskScores
    rw [scaled]
    exact between_scale nonneg le between
  · obtain ⟨risk, budgeted⟩ := applyRiskBudget_risk optimizer (clipped (filled weights caps)) riskScores
    rw [← risk]
    exact budgeted budget.2

/-- A budget of a third for the risk. -/
def sampleOptimizer : PortfolioOptimizer where
  maxSingleAllocation := 2 / 5
  maxPortfolioRisk := 1 / 3
  single_pos := by norm_num
  single_le := by norm_num
  risk_nonneg := by norm_num
  risk_le := by norm_num

/-- Three quarters and a quarter, under caps of two fifths. -/
theorem capWeights_feasible_sample :
    ∃ r, capWeights [3 / 4, 1 / 4] [2 / 5, 2 / 5] = .ok r ∧ r.sum ≤ 1 ∧
      weightedRisk (sampleOptimizer.applyRiskBudget r [1, 1 / 2]).1 [1, 1 / 2] ≤ 1 / 3 := by
  obtain ⟨r, returned, -, le, -, budget⟩ :=
    capWeights_feasible sampleOptimizer [3 / 4, 1 / 4] [2 / 5, 2 / 5] rfl (by norm_num) (by norm_num)
  refine ⟨r, returned, le.trans (by norm_num), (budget [1, 1 / 2] (by norm_num) ?_).2⟩
  norm_num [sampleOptimizer]

end StellarFlow.Portfolio
