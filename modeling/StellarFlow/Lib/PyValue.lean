import Mathlib.Algebra.Order.Ring.Rat
import Mathlib.Algebra.Order.Field.Rat
import Mathlib.Data.Rat.Floor
import StellarFlow.Lib.HexText
import StellarFlow.Lib.Python

/-!
# Python numbers and JSON values

Python's `int` of a number and of ASCII text, and the values a JSON document has in Python with their
truth value and their `int`.
-/

namespace Py

/-- `int(x)` of a number: towards zero. -/
def truncate (x : ℚ) : ℤ := if 0 ≤ x then ⌊x⌋ else ⌈x⌉

/-- An integer is truncated to itself. -/
lemma truncate_intCast (n : ℤ) : truncate n = n := by
  rw [truncate]
  split
  · exact Int.floor_intCast n
  · exact Int.ceil_intCast n

/-- Decimal digits with single underscores between them, at most 4300 of them. -/
def readDecimal (cs : List Char) : Option ℕ :=
  let groups := cs.splitOn '_'
  if groups.all (fun digits => !digits.isEmpty && digits.all Char.isDigit) ∧ groups.flatten.length ≤ 4300 then
    some (Numeral.value 10 (groups.flatten.map fun c => c.toNat - 48))
  else none

/-- `int(s)` of ASCII text: surrounding white space and a sign are accepted. -/
def intOfText (s : String) : Option ℤ :=
  let body := HexText.strip s.toList
  if body.head? = some '-' then (readDecimal body.tail).map fun n => -(n : ℤ)
  else if body.head? = some '+' then (readDecimal body.tail).map fun n => (n : ℤ)
  else (readDecimal body).map fun n => (n : ℤ)

/-- The values of a JSON document; a dictionary is the list of its entries. -/
inductive Json where
  | none
  | bool (b : Bool)
  | int (n : ℤ)
  | float (x : ℚ)
  | str (s : String)
  | list (items : List Json)
  | dict (entries : List (String × Json))

namespace Json

/-- `d.get(key)` of a dictionary. -/
def get? (entries : List (String × Json)) (key : String) : Option Json := entries.lookup key

/-- `d[key] = value`. -/
def set (entries : List (String × Json)) (key : String) (value : Json) : List (String × Json) :=
  if key ∈ entries.map Prod.fst then entries.map fun e => if e.1 = key then (key, value) else e
  else entries ++ [(key, value)]

/-- `d.update(other)`. -/
def update (entries other : List (String × Json)) : List (String × Json) :=
  other.foldl (fun d e => set d e.1 e.2) entries

/-- The first entry of a key is found. -/
lemma get?_cons (e : String × Json) (entries : List (String × Json)) (key : String) :
    get? (e :: entries) key = if key = e.1 then some e.2 else get? entries key := by
  rw [get?, List.lookup_cons]
  by_cases same : key = e.1
  · rw [if_pos same, beq_iff_eq.2 same]
  · rw [if_neg same, beq_false_of_ne same]
    rfl

/-- Nothing is found where the key is missing. -/
lemma get?_eq_none {entries : List (String × Json)} {key : String} :
    get? entries key = Option.none ↔ key ∉ entries.map Prod.fst := by
  induction entries with
  | nil => exact ⟨fun _ => List.not_mem_nil, fun _ => rfl⟩
  | cons e entries ih =>
    rw [get?_cons, List.map_cons, List.mem_cons, not_or, ← ih]
    by_cases same : key = e.1
    · simp [same]
    · simp [same]

/-- The first list is searched first. -/
lemma get?_append (entries more : List (String × Json)) (key : String) :
    get? (entries ++ more) key = (get? entries key).or (get? more key) :=
  List.lookup_append

/-- Replacing the value of a key changes what is found there. -/
lemma get?_replace (entries : List (String × Json)) (key other : String) (value : Json) :
    get? (entries.map fun e => if e.1 = key then (key, value) else e) other =
      if other = key then (get? entries other).map fun _ => value else get? entries other := by
  induction entries with
  | nil => simp [get?]
  | cons e entries ih =>
    rw [List.map_cons, get?_cons, get?_cons, ih]
    by_cases here : e.1 = key
    · by_cases same : other = key
      · simp [here, same]
      · simp [here, same]
    · by_cases same : other = key
      · simp [here, same, Ne.symm here]
      · simp [here, same]

/-- Setting a key changes what is found there. -/
lemma get?_set (entries : List (String × Json)) (key other : String) (value : Json) :
    get? (set entries key value) other = if other = key then some value else get? entries other := by
  rw [set]
  split
  case isTrue mem =>
    rw [get?_replace]
    by_cases same : other = key
    · obtain ⟨v, found⟩ := Option.ne_none_iff_exists'.1 fun none => get?_eq_none.1 none (same ▸ mem)
      rw [if_pos same, if_pos same, found, Option.map_some]
    · rw [if_neg same, if_neg same]
  case isFalse mem =>
    rw [get?_append, get?_cons]
    by_cases same : other = key
    · rw [get?_eq_none.2 (same ▸ mem), Option.none_or, if_pos same, if_pos same]
    · rw [if_neg same, if_neg same]
      exact Option.or_none

/-- Where no key is given twice, the entries of an update count before the old ones. -/
lemma get?_update (entries : List (String × Json)) {other : List (String × Json)}
    (nodup : (other.map Prod.fst).Nodup) (key : String) :
    get? (update entries other) key = (get? other key).or (get? entries key) := by
  induction other generalizing entries with
  | nil => rfl
  | cons e other ih =>
    obtain ⟨new, rest⟩ := List.nodup_cons.1 nodup
    have step : update entries (e :: other) = update (set entries e.1 e.2) other := rfl
    rw [step, ih _ rest, get?_set, get?_cons]
    by_cases same : key = e.1
    · rw [get?_eq_none.2 (same ▸ new), Option.none_or, if_pos same, if_pos same, Option.some_or]
    · rw [if_neg same, if_neg same]

/-- Where no key is given twice, filtering the values filters what is found. -/
lemma get?_filter {entries : List (String × Json)} (nodup : (entries.map Prod.fst).Nodup) (p : Json → Bool)
    (key : String) : get? (entries.filter fun e => p e.2) key = (get? entries key).filter p := by
  induction entries with
  | nil => rfl
  | cons e entries ih =>
    obtain ⟨new, rest⟩ := List.nodup_cons.1 nodup
    rw [List.filter_cons, get?_cons]
    by_cases same : key = e.1
    · rw [if_pos same, Option.filter_some]
      by_cases kept : p e.2 = true
      · rw [if_pos kept, if_pos kept, get?_cons, if_pos same]
      · rw [if_neg kept, if_neg kept, ih rest, get?_eq_none.2 (same ▸ new), Option.filter_none]
    · rw [if_neg same, ← ih rest]
      split
      · rw [get?_cons, if_neg same]
      · rfl

/-- A value, or `None`. -/
def ofOption : Option Json → Json
  | some v => v
  | Option.none => none

/-- `bool(v)`. -/
def truthy : Json → Bool
  | none => false
  | bool b => b
  | int n => n ≠ 0
  | float x => x ≠ 0
  | str s => s ≠ ""
  | list items => !items.isEmpty
  | dict entries => !entries.isEmpty

/-- `int(v)`. -/
def toInt : Json → Except PyError ℤ
  | bool b => .ok (if b then 1 else 0)
  | int n => .ok n
  | float x => .ok (truncate x)
  | str s =>
    match intOfText s with
    | some n => .ok n
    | Option.none => .error (.valueError s!"invalid literal for int() with base 10: {repr s}")
  | none => .error (typeError "NoneType")
  | list _ => .error (typeError "list")
  | dict _ => .error (typeError "dict")
where
  typeError (name : String) : PyError := .exception "TypeError"
    s!"int() argument must be a string, a bytes-like object or a real number, not '{name}'"

end Json

end Py
