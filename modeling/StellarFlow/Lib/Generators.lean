import Mathlib.Data.List.Basic

/-!
# Generators that may raise

What a Python generator does when it is run to its end: the items it yields, and the exception it raises after them, if
it does. `andThen` is one generator after another, `forEach` a loop whose body yields, and `toList` collects the items,
which an exception loses.
-/

/-- The items yielded and the exception that ends the generator. -/
structure Gen (ε α : Type) where
  items : List α
  raised : Option ε

namespace Gen
variable {ε α β : Type}

/-- Yields nothing. -/
def done : Gen ε α := ⟨[], none⟩

/-- Yields one item. -/
def yield (a : α) : Gen ε α := ⟨[a], none⟩

/-- Raises. -/
def raise (e : ε) : Gen ε α := ⟨[], some e⟩

/-- One generator and then, unless it raises, another. -/
def andThen (g h : Gen ε α) : Gen ε α :=
  match g.raised with
  | none => ⟨g.items ++ h.items, h.raised⟩
  | some _ => g

/-- A loop over a list, in whose body a generator is run. -/
def forEach (xs : List β) (body : β → Gen ε α) : Gen ε α := xs.foldr (fun x rest => (body x).andThen rest) done

/-- `list(g)`. -/
def toList (g : Gen ε α) : Except ε (List α) :=
  match g.raised with
  | none => .ok g.items
  | some e => .error e

/-- Nothing comes before the rest. -/
@[simp] lemma done_andThen (g : Gen ε α) : done.andThen g = g := rfl

/-- After an error nothing comes. -/
@[simp] lemma raise_andThen (e : ε) (g : Gen ε α) : (raise e).andThen g = raise e := rfl

/-- Nothing comes after. -/
@[simp] lemma andThen_done (g : Gen ε α) : g.andThen done = g := by
  rcases g with ⟨items, _ | e⟩
  · exact congrArg (Gen.mk · none) (List.append_nil items)
  · rfl

/-- The order of the parts counts, and not how they are grouped. -/
lemma andThen_assoc (g h k : Gen ε α) : (g.andThen h).andThen k = g.andThen (h.andThen k) := by
  rcases g with ⟨gs, _ | e⟩
  · rcases h with ⟨hs, _ | e⟩
    · exact congrArg (Gen.mk · k.raised) (List.append_assoc ..)
    · rfl
  · rfl

/-- Over nothing, nothing is yielded. -/
@[simp] lemma forEach_nil (body : β → Gen ε α) : forEach [] body = done := rfl

/-- The first item comes before the rest. -/
@[simp] lemma forEach_cons (x : β) (xs : List β) (body : β → Gen ε α) :
    forEach (x :: xs) body = (body x).andThen (forEach xs body) := rfl

/-- The items of both lists come one after the other. -/
lemma forEach_append (xs ys : List β) (body : β → Gen ε α) :
    forEach (xs ++ ys) body = (forEach xs body).andThen (forEach ys body) := by
  induction xs with
  | nil => rfl
  | cons x xs ih => rw [List.cons_append, forEach_cons, forEach_cons, ih, andThen_assoc]

/-- Bodies that agree on the items yield the same. -/
lemma forEach_congr {xs : List β} {body body' : β → Gen ε α} (same : ∀ x ∈ xs, body x = body' x) :
    forEach xs body = forEach xs body' := by
  induction xs with
  | nil => rfl
  | cons x xs ih =>
    rw [forEach_cons, forEach_cons, same x (List.mem_cons_self ..),
      ih fun y mem => same y (List.mem_cons_of_mem x mem)]

/-- Nested loops are one loop. -/
lemma forEach_flatMap {γ : Type} (xs : List γ) (f : γ → List β) (body : β → Gen ε α) :
    forEach (xs.flatMap f) body = forEach xs fun x => forEach (f x) body := by
  induction xs with
  | nil => rfl
  | cons x xs ih => rw [List.flatMap_cons, forEach_append, forEach_cons, ih]

/-- A loop whose body does nothing. -/
lemma forEach_eq_done {xs : List β} {body : β → Gen ε α} (silent : ∀ x ∈ xs, body x = done) :
    forEach xs body = done := by
  rw [forEach_congr silent]
  induction xs with
  | nil => rfl
  | cons x xs ih => exact ih fun y mem => silent y (List.mem_cons_of_mem x mem)

/-- A loop passes over the items for which its body does nothing. -/
lemma forEach_filter {xs : List β} {body : β → Gen ε α} (p : β → Bool)
    (silent : ∀ x ∈ xs, p x = false → body x = done) :
    forEach (xs.filter p) body = forEach xs body := by
  induction xs with
  | nil => rfl
  | cons x xs ih =>
    have rest := ih fun y mem => silent y (List.mem_cons_of_mem x mem)
    by_cases holds : p x = true
    · rw [List.filter_cons_of_pos holds, forEach_cons, forEach_cons, rest]
    · rw [List.filter_cons_of_neg holds, forEach_cons, silent x (List.mem_cons_self ..) (Bool.eq_false_iff.2 holds),
        done_andThen, rest]

end Gen
