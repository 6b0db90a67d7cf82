import Mathlib.Data.List.Nodup

/-!
# Chains of a partial function

From each element a partial function leads to at most one other. The chain from `x` goes on until it comes to an element
without a successor (`Ends`) or to an element that it has visited before (`Returns`); it does not do both, and each at
most once.
-/

namespace Orbit
variable {α : Type} (f : α → Option α) (x : α)

/-- The element after `k` hops. -/
def hop : ℕ → Option α
  | 0 => some x
  | k + 1 => (hop k).bind f

/-- The chain comes to `y` with the hop `k` and goes no further. -/
def Ends (k : ℕ) (y : α) : Prop := hop f x k = some y ∧ f y = none

/-- No element is visited twice before the hop `k`. -/
def Distinct (k : ℕ) : Prop := ∀ i j y, i < j → j < k → hop f x i = some y → hop f x j ≠ some y

/-- The hop `k` is the first one to an element that was visited before. -/
def Returns (k : ℕ) : Prop := (∃ y i, i < k ∧ hop f x i = some y ∧ hop f x k = some y) ∧ Distinct f x k

variable {f x} {k n : ℕ} {y z : α}

/-- Before an element there are others. -/
lemma hop_isSome_of_le (here : (hop f x n).isSome) (le : k ≤ n) : (hop f x k).isSome := by
  induction n with
  | zero => rw [Nat.le_zero.1 le]; rfl
  | succ n ih =>
    obtain last | before := Nat.eq_or_lt_of_le le
    · rw [last]
      exact here
    · refine ih ?_ (Nat.lt_succ_iff.1 before)
      rw [hop] at here
      exact Option.isSome_of_isSome_bind here

/-- One more hop. -/
lemma hop_succ (here : hop f x k = some y) : hop f x (k + 1) = f y := by rw [hop, here, Option.bind_some]

/-- Where a chain ends there are no more hops. -/
lemma le_of_ends (ends : Ends f x k y) (here : (hop f x n).isSome) : n ≤ k := by
  refine Nat.le_of_not_lt fun later => ?_
  have next := hop_isSome_of_le here later
  rw [hop_succ ends.1, ends.2] at next
  cases next

/-- A chain ends once. -/
lemma ends_unique (ends : Ends f x k y) (again : Ends f x n z) : k = n ∧ y = z := by
  have same : k = n := Nat.le_antisymm (le_of_ends again (by rw [ends.1]; rfl)) (le_of_ends ends (by rw [again.1]; rfl))
  subst same
  exact ⟨rfl, Option.some.inj (ends.1.symm.trans again.1)⟩

/-- After a return the chain stays among the elements that it has visited. -/
lemma hop_of_returns (returns : Returns f x k) (n : ℕ) : ∃ i, i < k ∧ hop f x n = hop f x i := by
  obtain ⟨⟨y, i, before, old, new⟩, -⟩ := returns
  induction n with
  | zero => exact ⟨0, Nat.zero_lt_of_lt before, rfl⟩
  | succ n ih =>
    obtain ⟨j, inside, same⟩ := ih
    have next : hop f x (n + 1) = hop f x (j + 1) := by rw [hop, hop, same]
    obtain last | more := Nat.eq_or_lt_of_le (Nat.succ_le_of_lt inside)
    · exact ⟨i, before, by rw [next, old, ← new, ← last]⟩
    · exact ⟨j + 1, more, next⟩

/-- So it has no end. -/
lemma not_ends_of_returns (returns : Returns f x k) : ¬Ends f x n y := by
  intro ends
  obtain ⟨i, inside, same⟩ := hop_of_returns returns (n + 1)
  obtain ⟨⟨w, -, -, -, new⟩, -⟩ := returns
  have some : (hop f x i).isSome := hop_isSome_of_le (by rw [new]; rfl) (Nat.le_of_lt inside)
  rw [← same, hop_succ ends.1, ends.2] at some
  cases some

/-- There is no return while the elements are distinct. -/
lemma not_returns_of_distinct (distinct : Distinct f x n) (before : k < n) : ¬Returns f x k := by
  rintro ⟨⟨y, i, earlier, old, new⟩, -⟩
  exact distinct i k y earlier before old new

end Orbit
