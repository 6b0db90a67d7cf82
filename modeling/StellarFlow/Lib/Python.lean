import Mathlib.Data.List.Basic

/-!
# Python exceptions and lists

The exceptions a modelled Python function can raise, and list indexing with its bounds check. Code
that may raise is written in `Except PyError`.
-/

/-- The exceptions of the modelled Python code, with their message where the code sets one. The
last two stand for the other classes, by name. -/
inductive PyError where
  | valueError (msg : String)
  | runtimeError (msg : String)
  | indexError
  | structError
  | exception (name msg : String)
  | baseException (name : String)
  deriving DecidableEq, Repr

/-- Caught by `except Exception`: everything but `KeyboardInterrupt`, `SystemExit` and their like. -/
def PyError.isException : PyError → Bool
  | .baseException _ => false
  | _ => true

namespace Py
variable {α : Type}

/-- One character inside `repr(s)`; control characters other than the three named ones are two
hexadecimal digits. -/
def reprChar (quote c : Char) : List Char :=
  if c = quote ∨ c = '\\' then ['\\', c]
  else if c = '\n' then ['\\', 'n']
  else if c = '\r' then ['\\', 'r']
  else if c = '\t' then ['\\', 't']
  else if c.toNat < 32 ∨ c.toNat = 127 then
    ['\\', 'x', Nat.digitChar (c.toNat / 16), Nat.digitChar (c.toNat % 16)]
  else [c]

/-- `repr(s)` of ASCII text: single quotes, or double quotes when only single ones occur. -/
def repr (s : String) : String :=
  let single := Char.ofNat 39
  let double := Char.ofNat 34
  let quote := if single ∈ s.toList ∧ double ∉ s.toList then double else single
  String.ofList (quote :: s.toList.flatMap (reprChar quote) ++ [quote])

/-- `xs[i]` for a non-negative index. -/
def getItem (xs : List α) (i : ℕ) : Except PyError α :=
  match xs[i]? with
  | some x => .ok x
  | none => .error .indexError

/-- `xs[i] = x` for a non-negative index. -/
def setItem (xs : List α) (i : ℕ) (x : α) : Except PyError (List α) :=
  if i < xs.length then .ok (xs.set i x) else .error .indexError

/-- The cells `f 0, …, f (n - 1)` as a list. -/
def cells (n : ℕ) (f : ℕ → α) : List α :=
  (List.range n).map f

/-- There are as many cells as asked for. -/
@[simp] lemma length_cells (n : ℕ) (f : ℕ → α) : (cells n f).length = n := by
  simp [cells]

/-- A cell in range is read. -/
@[simp] lemma getItem_cells {n i : ℕ} (f : ℕ → α) (lt : i < n) : getItem (cells n f) i = .ok (f i) := by
  simp [getItem, cells, lt]

/-- Setting a cell updates it. -/
lemma set_cells (n i : ℕ) (f : ℕ → α) (x : α) :
    (cells n f).set i x = cells n (Function.update f i x) := by
  apply List.ext_getElem
  · simp
  · intro j _ _
    by_cases eq : i = j
    · subst eq
      simp [cells]
    · simp [cells, List.getElem_set_ne eq, Function.update_of_ne (Ne.symm eq)]

/-- An assignment in range updates its cell. -/
@[simp] lemma setItem_cells {n i : ℕ} (f : ℕ → α) (x : α) (lt : i < n) :
    setItem (cells n f) i x = .ok (cells n (Function.update f i x)) := by
  simp only [setItem, length_cells, lt, if_true, set_cells]

/-- Cells in range are all that counts. -/
lemma cells_congr {n : ℕ} {f g : ℕ → α} (agree : ∀ i, i < n → f i = g i) : cells n f = cells n g :=
  List.map_congr_left (fun i mem => agree i (List.mem_range.mp mem))

/-- A list is the cells it has. -/
lemma eq_cells_getD (xs : List α) (default : α) :
    xs = cells xs.length (fun i => xs.getD i default) := by
  apply List.ext_getElem
  · simp
  · intro i lt _
    simp [cells, lt]

/-- Code in sequence returns exactly when both parts do. -/
lemma bind_eq_ok {β : Type} {x : Except PyError α} {f : α → Except PyError β} {b : β} :
    x >>= f = .ok b ↔ ∃ a, x = .ok a ∧ f a = .ok b := by
  cases x with
  | error e =>
    constructor
    · intro raised
      cases raised
    · rintro ⟨a, returned, -⟩
      cases returned
  | ok a =>
    constructor
    · exact fun h => ⟨a, rfl, h⟩
    · rintro ⟨a', returned, h⟩
      cases returned
      exact h

/-- Every value of a comprehension comes from one of its items. -/
lemma mem_of_mapM {β : Type} {g : α → Except PyError β} {xs : List α} {ys : List β} {y : β}
    (made : xs.mapM g = .ok ys) (mem : y ∈ ys) : ∃ x ∈ xs, g x = .ok y := by
  induction xs generalizing ys with
  | nil =>
    cases made
    exact absurd mem List.not_mem_nil
  | cons x xs ih =>
    rw [List.mapM_cons] at made
    obtain ⟨first, head, made⟩ := bind_eq_ok.mp made
    obtain ⟨rest, tail, made⟩ := bind_eq_ok.mp made
    cases made
    rcases List.mem_cons.mp mem with rfl | later
    · exact ⟨x, List.mem_cons_self, head⟩
    · obtain ⟨x', mem', found⟩ := ih tail later
      exact ⟨x', List.mem_cons_of_mem x mem', found⟩

/-- A comprehension whose element expression never raises. -/
lemma mapM_ok {β : Type} {g : α → Except PyError β} {k : α → β} {xs : List α}
    (each : ∀ x ∈ xs, g x = .ok (k x)) : xs.mapM g = .ok (xs.map k) := by
  induction xs with
  | nil => rfl
  | cons x xs ih =>
    rw [List.mapM_cons, each x (by simp), ih (fun y mem => each y (by simp [mem]))]
    rfl

/-- A comprehension over the indices of a list is one over its elements. -/
lemma mapM_range {β : Type} {g : ℕ → Except PyError β} {k : α → Except PyError β} {xs : List α}
    (each : ∀ i x, xs[i]? = some x → g i = k x) : (List.range xs.length).mapM g = xs.mapM k := by
  induction xs generalizing g with
  | nil => rfl
  | cons x xs ih =>
    have rest : (List.range xs.length).mapM (g ∘ Nat.succ) = xs.mapM k := ih fun i y found => each (i + 1) y found
    rw [List.length_cons, List.range_succ_eq_map, List.mapM_cons, List.mapM_map, List.mapM_cons, each 0 x rfl, rest]

end Py
