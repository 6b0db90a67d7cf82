import Mathlib.Algebra.Order.Ring.Rat
import Mathlib.Algebra.Order.Field.Rat
import Mathlib.Data.List.Dedup
import Mathlib.Data.List.Sort
import Mathlib.Data.Rat.Floor

/-!
# JavaScript values

The values a JavaScript program gets from parsed JSON, the reading of a property, truth values, `??`, the
dates that `new Date(ms)` makes, the order of the numbers, sorted sets of strings, and the parts of a buffer. Numbers
are exact.
-/

namespace Js

/-- The code units of a string. -/
def codeUnits (s : String) : List ℕ :=
  s.toList.flatMap fun c =>
    if c.toNat < 0x10000 then [c.toNat]
    else [0xD800 + (c.toNat - 0x10000) / 0x400, 0xDC00 + (c.toNat - 0x10000) % 0x400]

/-- White space and line ends, which `trim` removes. -/
def isWhiteSpace (c : Char) : Bool :=
  c ∈ ['\t', '\n', '\x0b', '\x0c', '\r', ' ', '\u00a0', '\u1680', '\u2028', '\u2029', '\u202f', '\u205f', '\u3000',
    '\ufeff'] || (0x2000 ≤ c.toNat && c.toNat ≤ 0x200a)

/-- `s.trim()`. -/
def trim (s : String) : String :=
  String.ofList ((s.toList.dropWhile isWhiteSpace).reverse.dropWhile isWhiteSpace).reverse

/-- `[...new Set(items)].sort()`. -/
def sortedSet (items : List String) : List String :=
  items.dedup.insertionSort fun a b => List.le (codeUnits a) (codeUnits b)

/-- Sorting a set keeps its items. -/
lemma mem_sortedSet {items : List String} {item : String} : item ∈ sortedSet items ↔ item ∈ items := by
  rw [sortedSet, List.mem_insertionSort, List.mem_dedup]

/-- A sorted set has each item once. -/
lemma nodup_sortedSet (items : List String) : (sortedSet items).Nodup :=
  (List.perm_insertionSort _ _).nodup_iff.2 (List.nodup_dedup _)

/-- A sorted set is in the order of the code units. -/
lemma pairwise_sortedSet (items : List String) :
    (sortedSet items).Pairwise fun a b => List.le (codeUnits a) (codeUnits b) := by
  have total : Std.Total fun a b : String => List.le (codeUnits a) (codeUnits b) := ⟨fun _ _ => List.le_total _ _⟩
  have trans : IsTrans String fun a b => List.le (codeUnits a) (codeUnits b) := ⟨fun _ _ _ => List.le_trans⟩
  exact List.pairwise_insertionSort (fun a b => List.le (codeUnits a) (codeUnits b)) items.dedup

/-- A number; no date depends on the sign of an infinity. -/
inductive Number where
  | nan
  | infinite
  | finite (x : ℚ)

inductive Value where
  | undefined
  | null
  | bool (b : Bool)
  | number (x : Number)
  | string (s : String)
  | array (items : List Value)
  | object (fields : List (String × Value))

/-- A `Date` by its time value; `none` is an invalid date. -/
abbrev Date := Option ℤ

namespace Value

/-- `value[name]` for a name that no array has. -/
def property (name : String) : Value → Value
  | .object fields => (fields.lookup name).getD .undefined
  | _ => .undefined

/-- `Boolean(value)`. -/
def truthy : Value → Bool
  | .undefined => false
  | .null => false
  | .bool b => b
  | .number .nan => false
  | .number .infinite => true
  | .number (.finite x) => x ≠ 0
  | .string s => s ≠ ""
  | .array _ => true
  | .object _ => true

/-- `value ?? other`. -/
def coalesce (value other : Value) : Value :=
  match value with
  | .undefined => other
  | .null => other
  | _ => value

/-- `value ?? null`. -/
def orNull (value : Value) : Value := value.coalesce .null

/-- `typeof value === "object"` for a value that is not `null`. -/
def isObject : Value → Bool
  | .array _ => true
  | .object _ => true
  | _ => false

end Value

/-- `new Date(ms)`: towards zero, invalid beyond 8.64e15. -/
def dateOf : Number → Date
  | .finite x => if |x| ≤ 8640000000000000 then some (if 0 ≤ x then ⌊x⌋ else ⌈x⌉) else none
  | _ => none

/-- A number with the sign of an infinity. -/
inductive Double where
  | nan
  | infinite (negative : Bool)
  | finite (x : ℚ)
  deriving DecidableEq

namespace Double

/-- `Number.isFinite(x)`. -/
def isFinite : Double → Bool
  | .finite _ => true
  | _ => false

/-- `x < y`. -/
def lt : Double → Double → Bool
  | .finite x, .finite y => x < y
  | .finite _, .infinite negative => !negative
  | .infinite negative, .finite _ => negative
  | .infinite negative, .infinite negative' => negative && !negative'
  | _, _ => false

/-- `x + y`. -/
def add : Double → Double → Double
  | .finite x, .finite y => .finite (x + y)
  | .finite _, .infinite negative => .infinite negative
  | .infinite negative, .finite _ => .infinite negative
  | .infinite negative, .infinite negative' => if negative = negative' then .infinite negative else .nan
  | _, _ => .nan

/-- `x <= 0`. -/
def isNonpositive : Double → Bool
  | .finite x => x ≤ 0
  | .infinite negative => negative
  | .nan => false

/-- What `JSON.parse` reads where `JSON.stringify` has printed a number; `none` is `null`. -/
def json : Double → Option ℚ
  | .finite x => some x
  | _ => none

end Double

/-- The index a relative index of `subarray` stands for. -/
def relativeIndex (length : ℕ) (i : ℤ) : ℕ :=
  if i < 0 then (length + i).toNat else min i.toNat length

/-- `buffer.subarray(start, end)`. -/
def subarray (buffer : List UInt8) (start stop : ℤ) : List UInt8 :=
  let first := relativeIndex buffer.length start
  (buffer.take (relativeIndex buffer.length stop)).drop first

/-- A part of a buffer, by the lengths of what comes before it and of itself. -/
lemma subarray_append {front middle back : List UInt8} {start stop : ℤ} (first : start = front.length)
    (last : stop = front.length + middle.length) : subarray (front ++ middle ++ back) start stop = middle := by
  have low : relativeIndex (front ++ middle ++ back).length start = front.length := by
    rw [relativeIndex, if_neg (by omega), List.length_append, List.length_append]
    omega
  have high : relativeIndex (front ++ middle ++ back).length stop = (front ++ middle).length := by
    rw [relativeIndex, if_neg (by omega), List.length_append, List.length_append]
    omega
  rw [subarray, low, high, List.take_left, List.drop_left]

end Js
