import Mathlib.Algebra.Order.Field.Basic
import Mathlib.Algebra.BigOperators.Group.List.Basic
import Mathlib.Algebra.Order.BigOperators.Group.List
import Mathlib.Tactic.Linarith

/-!
# Metered spending

An account of tokens holds at most `cap`, gains `rate` per unit of time and is read at discrete instants.
`Account cap rate level last grants` relates its level at the last reading to everything granted so far:
from any earlier instant on, what was spent and what is left fit into one full account and the gain since
then. `Account.refill` and `Account.spend` are the two moves, and `Account.conforms` is the traffic contract
over every interval.
-/

namespace Metering
variable {K : Type} [Field K]

/-- What the grants made at times in a set amount to. -/
def spent (within : K → Bool) (grants : List (K × K)) : K :=
  ((grants.filter fun g => within g.1).map Prod.snd).sum

/-- One more grant counts where it is within. -/
lemma spent_snoc (within : K → Bool) (grants : List (K × K)) (t amount : K) :
    spent within (grants ++ [(t, amount)]) = spent within grants + if within t then amount else 0 := by
  rw [spent, spent, List.filter_append, List.map_append, List.sum_append]
  cases inside : within t with
  | true => simp [inside]
  | false => simp [inside]

/-- Nothing is spent where no grant is. -/
lemma spent_eq_zero {within : K → Bool} {grants : List (K × K)} (none : ∀ g ∈ grants, within g.1 = false) :
    spent within grants = 0 := by
  have empty : grants.filter (fun g => within g.1) = [] := by
    rw [List.filter_eq_nil_iff]
    intro g mem
    rw [none g mem]
    exact Bool.false_ne_true
  rw [spent, empty]
  rfl

variable [LinearOrder K]

/-- The level of an account against its grants, each a time and an amount. -/
structure Account (cap rate level last : K) (grants : List (K × K)) : Prop where
  nonneg : 0 ≤ level
  le_cap : level ≤ cap
  amounts : ∀ g ∈ grants, 0 ≤ g.2
  past : ∀ g ∈ grants, g.1 ≤ last
  budget : ∀ t, t ≤ last → spent (fun u => decide (t ≤ u)) grants + level ≤ cap + rate * (last - t)
  conforms : ∀ t₁ t₂, t₁ ≤ t₂ →
    spent (fun u => decide (t₁ ≤ u ∧ u ≤ t₂)) grants ≤ cap + rate * (t₂ - t₁)

variable [IsStrictOrderedRing K]

/-- Within more, no less is spent. -/
lemma spent_mono {within within' : K → Bool} {grants : List (K × K)} (amounts : ∀ g ∈ grants, 0 ≤ g.2)
    (imp : ∀ t, within t = true → within' t = true) : spent within grants ≤ spent within' grants := by
  induction grants with
  | nil => exact le_rfl
  | cons g grants ih =>
    have nonneg := amounts g List.mem_cons_self
    have rest := ih fun g mem => amounts g (List.mem_cons_of_mem _ mem)
    rw [spent, spent] at rest ⊢
    rw [List.filter_cons, List.filter_cons]
    split
    · rename_i inside
      rw [if_pos (imp _ inside), List.map_cons, List.map_cons, List.sum_cons, List.sum_cons]
      exact add_le_add_right rest _
    · split
      · rw [List.map_cons, List.sum_cons]
        exact le_add_of_nonneg_of_le nonneg rest
      · exact rest

namespace Account
variable {cap rate level last now amount : K} {grants : List (K × K)}

/-- A full account with no grants. -/
lemma full (pos : 0 ≤ cap) (gains : 0 ≤ rate) (now : K) : Account cap rate cap now [] where
  nonneg := pos
  le_cap := le_rfl
  amounts := fun _ mem => absurd mem List.not_mem_nil
  past := fun _ mem => absurd mem List.not_mem_nil
  budget := by
    intro t le
    have gain := mul_nonneg gains (sub_nonneg.mpr le)
    show 0 + cap ≤ _
    linarith
  conforms := by
    intro t₁ t₂ le
    have gain := mul_nonneg gains (sub_nonneg.mpr le)
    show 0 ≤ _
    linarith

/-- Reading the account later, with the gain since the last reading. -/
lemma refill (account : Account cap rate level last grants) (gains : 0 ≤ rate) (le : last ≤ now) :
    Account cap rate (min cap (level + (now - last) * rate)) now grants where
  nonneg := by
    have gain := mul_nonneg (sub_nonneg.mpr le) gains
    have nonneg := account.nonneg
    exact le_min (nonneg.trans account.le_cap) (by linarith)
  le_cap := min_le_left _ _
  amounts := account.amounts
  past := fun g mem => (account.past g mem).trans le
  budget := by
    intro t before
    by_cases earlier : t ≤ last
    · have budget := account.budget t earlier
      have level' := min_le_right cap (level + (now - last) * rate)
      linarith
    · -- nothing has been granted since, and the account holds at most `cap`
      have nothing : spent (fun u => decide (t ≤ u)) grants = 0 := by
        apply spent_eq_zero
        intro g mem
        exact decide_eq_false (not_le.mpr ((account.past g mem).trans_lt (not_le.mp earlier)))
      have gain := mul_nonneg gains (sub_nonneg.mpr before)
      have level' := min_le_left cap (level + (now - last) * rate)
      linarith
  conforms := account.conforms

/-- A grant covered by the level. -/
lemma spend (account : Account cap rate level last grants) (gains : 0 ≤ rate) (nonneg : 0 ≤ amount)
    (covered : amount ≤ level) : Account cap rate (level - amount) last (grants ++ [(last, amount)]) where
  nonneg := sub_nonneg.mpr covered
  le_cap := (sub_le_self level nonneg).trans account.le_cap
  amounts := by
    intro g mem
    rcases List.mem_append.mp mem with before | new
    · exact account.amounts g before
    · rw [List.mem_singleton.mp new]
      exact nonneg
  past := by
    intro g mem
    rcases List.mem_append.mp mem with before | new
    · exact account.past g before
    · rw [List.mem_singleton.mp new]
  budget := by
    intro t le
    have budget := account.budget t le
    rw [spent_snoc, if_pos (decide_eq_true le)]
    linarith
  conforms := by
    intro t₁ t₂ le
    rw [spent_snoc]
    by_cases inside : t₁ ≤ last ∧ last ≤ t₂
    · -- an interval that holds the new grant is bounded by the budget of its start
      have since : spent (fun u => decide (t₁ ≤ u ∧ u ≤ t₂)) grants ≤ spent (fun u => decide (t₁ ≤ u)) grants := by
        apply spent_mono account.amounts
        intro t both
        exact decide_eq_true (of_decide_eq_true both).1
      have budget := account.budget t₁ inside.1
      have gain := mul_nonneg gains (sub_nonneg.mpr inside.2)
      rw [if_pos (decide_eq_true inside)]
      linarith
    · rw [if_neg (by rw [decide_eq_true_eq]; exact inside), add_zero]
      exact account.conforms t₁ t₂ le

end Account

end Metering
