import Mathlib.Logic.Function.Iterate
import Mathlib.Data.Nat.Basic

/-!
# While loops

`run` is a loop that is stopped after a number of tests of its condition. It ends with the first iterate of its body
that fails the condition (`run_eq_some_iff`), so where all of them meet it the loop never ends
(`run_eq_none_of_forall`).
-/

namespace While
variable {σ : Type} (cond : σ → Prop) (body : σ → σ)

/-- The state in which the condition fails; `none` when it has been met `turns` times. -/
def run [DecidablePred cond] : ℕ → σ → Option σ
  | 0, _ => none
  | turns + 1, s => if cond s then run turns (body s) else some s

/-- The condition fails at the iterate `k` and not before. -/
def EndsAfter (s : σ) (k : ℕ) : Prop := ¬cond (body^[k] s) ∧ ∀ j, j < k → cond (body^[j] s)

variable {cond body} {s t : σ} {turns k : ℕ}

/-- The loop ends at once where its condition fails. -/
lemma endsAfter_zero : EndsAfter cond body s 0 ↔ ¬cond s :=
  ⟨fun ends => ends.1, fun stop => ⟨stop, fun j lt => absurd lt (Nat.not_lt_zero j)⟩⟩

/-- The loop ends one turn later where it does after a turn. -/
lemma endsAfter_succ : EndsAfter cond body s (k + 1) ↔ cond s ∧ EndsAfter cond body (body s) k := by
  constructor
  · rintro ⟨stop, before⟩
    exact ⟨before 0 (Nat.succ_pos k), stop, fun j lt => before (j + 1) (Nat.succ_lt_succ lt)⟩
  · rintro ⟨first, stop, before⟩
    refine ⟨stop, fun j lt => ?_⟩
    cases j with
    | zero => exact first
    | succ j => exact before j (Nat.lt_of_succ_lt_succ lt)

/-- A loop ends once. -/
lemma EndsAfter.unique {l : ℕ} (ends : EndsAfter cond body s k) (again : EndsAfter cond body s l) : k = l := by
  apply Nat.le_antisymm
  · exact Nat.le_of_not_lt fun lt => again.1 (ends.2 l lt)
  · exact Nat.le_of_not_lt fun lt => ends.1 (again.2 k lt)

variable [DecidablePred cond]

/-- A run returns where the loop ends in time. -/
theorem run_eq_some_iff :
    run cond body turns s = some t ↔ ∃ k, k < turns ∧ EndsAfter cond body s k ∧ t = body^[k] s := by
  induction turns generalizing s with
  | zero =>
    constructor
    · intro ended
      cases ended
    · rintro ⟨k, lt, -⟩
      exact absurd lt (Nat.not_lt_zero k)
  | succ turns ih =>
    rw [run]
    split
    · rename_i met
      rw [ih]
      constructor
      · rintro ⟨k, lt, ends, rfl⟩
        exact ⟨k + 1, Nat.succ_lt_succ lt, endsAfter_succ.2 ⟨met, ends⟩, rfl⟩
      · rintro ⟨k, lt, ends, rfl⟩
        cases k with
        | zero => exact absurd met (endsAfter_zero.1 ends)
        | succ k => exact ⟨k, Nat.lt_of_succ_lt_succ lt, (endsAfter_succ.1 ends).2, rfl⟩
    · rename_i stop
      constructor
      · intro ended
        cases ended
        exact ⟨0, Nat.succ_pos turns, endsAfter_zero.2 stop, rfl⟩
      · rintro ⟨k, -, ends, rfl⟩
        rw [ends.unique (endsAfter_zero.2 stop)]
        rfl

/-- Where every iterate meets the condition the loop never ends. -/
theorem run_eq_none_of_forall (always : ∀ k, cond (body^[k] s)) (turns : ℕ) : run cond body turns s = none := by
  rw [Option.eq_none_iff_forall_ne_some]
  intro t ended
  obtain ⟨k, -, ends, -⟩ := run_eq_some_iff.1 ended
  exact ends.1 (always k)

end While
