import Mathlib.Data.List.Basic

/-!
# Reading bytes at a position

A parser reads bytes at the position of a cursor and moves it; where it fails the cursor stays where the
failure left it. `Reads p bytes v` says that the parser takes exactly these bytes, whatever stands before
and after them, and returns `v`. The rules for it follow the parser's text: one for each way in which
parsers are put together, so that a decoder is checked against an encoder by walking through both.

`Parser.bind_eq_ok` takes a parser that has succeeded apart, and `RaisesOnly` bounds the exceptions of a parser
by those of its parts.
-/

/-- A block of bytes with a reading position. -/
structure Cursor where
  data : List UInt8
  pos : ℕ

/-- A parser with exceptions `ε`. -/
def Parser (ε α : Type) : Type := Cursor → Except ε α × Cursor

namespace Parser
variable {ε α β : Type}

instance : Monad (Parser ε) where
  pure a := fun c => (.ok a, c)
  bind p f := fun c =>
    match p c with
    | (.ok a, c') => f a c'
    | (.error e, c') => (.error e, c')

/-- Raises an exception. -/
def fail (e : ε) : Parser ε α := fun c => (.error e, c)

/-- A computation that does not read. -/
def lift (x : Except ε α) : Parser ε α := fun c => (x, c)

/-- Continues with `h` where `p` raises an exception that `caught` accepts. -/
def handle (caught : ε → Bool) (p h : Parser ε α) : Parser ε α := fun c =>
  match p c with
  | (.ok a, c') => (.ok a, c')
  | (.error e, c') => if caught e then h c' else (.error e, c')

/-- The results of `n` runs of a parser. -/
def times (p : Parser ε α) : ℕ → Parser ε (List α)
  | 0 => pure []
  | n + 1 => do
    let x ← p
    let xs ← times p n
    return x :: xs

/-- The second parser goes on from where the first returned. -/
lemma bind_apply {p : Parser ε α} {f : α → Parser ε β} {c c' : Cursor} {a : α} (first : p c = (.ok a, c')) :
    (p >>= f) c = f a c' := by
  show (match p c with
    | (.ok a, c') => f a c'
    | (.error e, c') => (.error e, c')) = _
  rw [first]

/-- Where the first fails both do. -/
lemma bind_error {p : Parser ε α} {f : α → Parser ε β} {c c' : Cursor} {e : ε} (first : p c = (.error e, c')) :
    (p >>= f) c = (.error e, c') := by
  show (match p c with
    | (.ok a, c') => f a c'
    | (.error e, c') => (.error e, c')) = _
  rw [first]

/-- Parsers in sequence succeed exactly when both parts do. -/
lemma bind_eq_ok {p : Parser ε α} {f : α → Parser ε β} {c c'' : Cursor} {b : β} :
    (p >>= f) c = (.ok b, c'') ↔ ∃ a c', p c = (.ok a, c') ∧ f a c' = (.ok b, c'') := by
  rcases first : p c with ⟨e | a, c'⟩
  · rw [bind_error first]
    constructor
    · intro raised
      cases raised
    · rintro ⟨a, d, returned, -⟩
      cases returned
  · rw [bind_apply first]
    constructor
    · exact fun second => ⟨a, c', rfl, second⟩
    · rintro ⟨a', d, returned, second⟩
      cases returned
      exact second

end Parser

/-- The parser takes exactly the given bytes and returns the value. -/
def Reads {ε α : Type} (p : Parser ε α) (bytes : List UInt8) (v : α) : Prop :=
  ∀ before after : List UInt8,
    p ⟨before ++ bytes ++ after, before.length⟩ =
      (.ok v, ⟨before ++ bytes ++ after, before.length + bytes.length⟩)

namespace Reads
variable {ε α β γ : Type} {p : Parser ε α} {f : α → Parser ε β} {xs ys bytes : List UInt8} {a : α} {b : β}

/-- A value is read from nothing. -/
lemma pure (a : α) : Reads (Pure.pure a : Parser ε α) [] a := by
  intro before after
  rw [List.append_nil]
  rfl

/-- A result that is there is read from nothing. -/
lemma lift {x : Except ε α} (returned : x = .ok a) : Reads (Parser.lift x) [] a := by
  intro before after
  rw [List.append_nil, returned]
  rfl

/-- Two parsers read their parts one after the other. -/
lemma bind (first : Reads p xs a) (second : Reads (f a) ys b) : Reads (p >>= f) (xs ++ ys) b := by
  intro before after
  have one := first before (ys ++ after)
  have two := second (before ++ xs) after
  simp only [List.append_assoc, List.length_append, Nat.add_assoc] at one two ⊢
  rw [Parser.bind_apply one, two]

/-- The parser leaves what stands after the bytes it takes. -/
lemma run (reads : Reads p bytes a) (before after : List UInt8) :
    p ⟨before ++ (bytes ++ after), before.length⟩ =
      (.ok a, ⟨(before ++ bytes) ++ after, (before ++ bytes).length⟩) := by
  rw [← List.append_assoc, List.length_append]
  exact reads before after

/-- What follows in a sequence goes on after the bytes of the first part. -/
lemma run_bind (reads : Reads p bytes a) (before after : List UInt8) :
    (p >>= f) ⟨before ++ (bytes ++ after), before.length⟩ =
      f a ⟨(before ++ bytes) ++ after, (before ++ bytes).length⟩ :=
  Parser.bind_apply (reads.run before after)

/-- The second part reads nothing more. -/
lemma last (first : Reads p bytes a) (second : Reads (f a) [] b) : Reads (p >>= f) bytes b := by
  rw [← List.append_nil bytes]
  exact first.bind second

/-- The first part reads nothing yet. -/
lemma pass (first : Reads p [] a) (second : Reads (f a) bytes b) : Reads (p >>= f) bytes b :=
  first.bind second

/-- The second part only returns. -/
lemma map (first : Reads p bytes a) (g : α → β) : Reads (p >>= fun x => Pure.pure (g x)) bytes (g a) :=
  first.last (.pure (g a))

/-- What is read needs no handler. -/
lemma handle (reads : Reads p bytes a) (caught : ε → Bool) (h : Parser ε α) :
    Reads (Parser.handle caught p h) bytes a := by
  intro before after
  rw [Parser.handle, reads before after]

/-- Values one after the other. -/
lemma times {vs : List γ} {encode : γ → List UInt8} {value : γ → α}
    (each : ∀ v ∈ vs, Reads p (encode v) (value v)) :
    Reads (Parser.times p vs.length) (vs.flatMap encode) (vs.map value) := by
  induction vs with
  | nil => exact .pure []
  | cons v vs ih =>
    rw [List.flatMap_cons, List.map_cons]
    refine (each v List.mem_cons_self).bind ?_
    exact (ih fun w mem => each w (List.mem_cons_of_mem _ mem)).map (value v :: ·)

end Reads

/-- Every exception of the parser is one that `caught` accepts. -/
def RaisesOnly {ε α : Type} (caught : ε → Bool) (p : Parser ε α) : Prop :=
  ∀ c e c', p c = (.error e, c') → caught e = true

namespace RaisesOnly
variable {ε α β : Type} {caught : ε → Bool} {p q : Parser ε α} {f : α → Parser ε β}

/-- A value raises nothing. -/
lemma pure (a : α) : RaisesOnly caught (Pure.pure a : Parser ε α) := by
  intro c e c' raised
  cases raised

/-- An error that is accepted may be raised. -/
lemma fail {e : ε} (accepted : caught e = true) : RaisesOnly caught (Parser.fail e : Parser ε α) := by
  intro c e' c' raised
  cases raised
  exact accepted

/-- Two parsers raise what each of them may. -/
lemma bind (first : RaisesOnly caught p) (second : ∀ a, RaisesOnly caught (f a)) : RaisesOnly caught (p >>= f) := by
  intro c e c'' raised
  rcases result : p c with ⟨e' | a, c'⟩
  · rw [Parser.bind_error result] at raised
    cases raised
    exact first c e c'' result
  · rw [Parser.bind_apply result] at raised
    exact second a c' e c'' raised

/-- A choice of two parsers raises what each of them may. -/
lemma ite {P : Prop} [Decidable P] (yes : RaisesOnly caught p) (no : RaisesOnly caught q) :
    RaisesOnly caught (if P then p else q) := by
  split
  · exact yes
  · exact no

end RaisesOnly
