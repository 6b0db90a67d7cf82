import Mathlib.Data.List.Forall2
import Mathlib.Data.List.Induction

/-!
# Streams of records

A reader takes the first record off a stream, or nothing where there is no whole one. `readAll` repeats it, and
`feedAll` is a receiver that gets the stream in chunks and keeps what is left over. Where a reader does not change its
mind when more arrives (`Stable`), the chunks do not matter (`feedAll_eq_readAll`); `readAll_flatten` reads the records
that were written one after the other.
-/

namespace RecordStream
variable {α μ : Type} (next : List α → Option (μ × List α))

/-- Up to `fuel` records, and what is left of the stream. -/
def read : ℕ → List α → List μ × List α
  | 0, data => ([], data)
  | fuel + 1, data =>
    match next data with
    | none => ([], data)
    | some (record, rest) => (record :: (read fuel rest).1, (read fuel rest).2)

/-- The records of a stream, and what is left of it. -/
def readAll (data : List α) : List μ × List α := read next data.length data

/-- A receiver that has something left over gets the stream in chunks. -/
def feedAll : List α → List (List α) → List μ × List α
  | left, [] => ([], left)
  | left, chunk :: chunks =>
    ((readAll next (left ++ chunk)).1 ++ (feedAll (readAll next (left ++ chunk)).2 chunks).1,
      (feedAll (readAll next (left ++ chunk)).2 chunks).2)

/-- A record takes something off the stream, and is read again when more has arrived. -/
structure Stable : Prop where
  shorter : ∀ data record rest, next data = some (record, rest) → rest.length < data.length
  more : ∀ data record rest, next data = some (record, rest) →
    ∀ later, next (data ++ later) = some (record, rest ++ later)

variable {next}

/-- Where no record is complete nothing is read. -/
lemma read_none {data : List α} (none_ : next data = none) (fuel : ℕ) : read next fuel data = ([], data) := by
  cases fuel with
  | zero => rfl
  | succ fuel => rw [read, none_]

/-- A complete record is read, and then the rest. -/
lemma read_some {data rest : List α} {record : μ} (one : next data = some (record, rest)) (fuel : ℕ) :
    read next (fuel + 1) data = (record :: (read next fuel rest).1, (read next fuel rest).2) := by
  rw [read, one]

/-- Induction over the records of a stream. -/
lemma Stable.induct (stable : Stable next) {P : List α → Prop} (wait : ∀ data, next data = none → P data)
    (take : ∀ data record rest, next data = some (record, rest) → P rest → P data) (data : List α) : P data := by
  induction size : data.length using Nat.strongRecOn generalizing data with
  | _ n ih =>
    cases one : next data with
    | none => exact wait data one
    | some result =>
      obtain ⟨record, rest⟩ := result
      have less := stable.shorter _ _ _ one
      exact take data record rest one (ih rest.length (size ▸ less) rest rfl)

/-- Fuel for each item is enough. -/
lemma Stable.read_eq (stable : Stable next) (data : List α) :
    ∀ fuel, data.length ≤ fuel → read next fuel data = readAll next data := by
  induction data using stable.induct with
  | wait data none_ => exact fun fuel _ => by rw [readAll, read_none none_, read_none none_]
  | take data record rest one ih =>
    intro fuel enough
    have less := stable.shorter _ _ _ one
    obtain ⟨n, rfl⟩ : ∃ n, fuel = n + 1 := ⟨fuel - 1, by omega⟩
    obtain ⟨k, size⟩ : ∃ k, data.length = k + 1 := ⟨data.length - 1, by omega⟩
    rw [readAll, size, read_some one, read_some one, ih n (by omega), ih k (by omega)]

/-- Where no record is complete nothing is read. -/
lemma readAll_none {data : List α} (none_ : next data = none) : readAll next data = ([], data) := read_none none_ _

/-- A complete record is read, and then the rest. -/
lemma Stable.readAll_some (stable : Stable next) {data rest : List α} {record : μ}
    (one : next data = some (record, rest)) :
    readAll next data = (record :: (readAll next rest).1, (readAll next rest).2) := by
  have less := stable.shorter _ _ _ one
  rw [← stable.read_eq data _ (Nat.le_succ data.length), read_some one, stable.read_eq rest _ (Nat.le_of_lt less)]

/-- No complete record is left. -/
lemma Stable.readAll_left (stable : Stable next) (data : List α) : next (readAll next data).2 = none := by
  induction data using stable.induct with
  | wait data none_ =>
    rw [readAll_none none_]
    exact none_
  | take data record rest one ih =>
    rw [stable.readAll_some one]
    exact ih

/-- What is left over is read on when more arrives. -/
theorem Stable.readAll_append (stable : Stable next) (data later : List α) :
    readAll next (data ++ later) =
      ((readAll next data).1 ++ (readAll next ((readAll next data).2 ++ later)).1,
        (readAll next ((readAll next data).2 ++ later)).2) := by
  induction data using stable.induct with
  | wait data none_ =>
    rw [readAll_none none_]
    rfl
  | take data record rest one ih =>
    rw [stable.readAll_some one, stable.readAll_some (stable.more _ _ _ one later), ih]
    rfl

/-- It does not matter how the stream is cut. -/
theorem Stable.feedAll_eq_readAll (stable : Stable next) {left : List α} (waits : next left = none)
    (chunks : List (List α)) : feedAll next left chunks = readAll next (left ++ chunks.flatten) := by
  induction chunks generalizing left with
  | nil => rw [List.flatten_nil, List.append_nil, readAll_none waits, feedAll]
  | cons chunk chunks ih =>
    rw [feedAll, ih (stable.readAll_left _), List.flatten_cons, ← List.append_assoc,
      stable.readAll_append (left ++ chunk)]

/-- Blocks that are each read as a record. -/
theorem Stable.readAll_flatten (stable : Stable next) (empty : next [] = none) {blocks : List (List α)}
    {records : List μ}
    (each : List.Forall₂ (fun block record => next block = some (record, [])) blocks records) :
    readAll next blocks.flatten = (records, []) := by
  induction each with
  | nil => exact readAll_none empty
  | cons head tail ih => rw [List.flatten_cons, stable.readAll_some (stable.more _ _ _ head _), List.nil_append, ih]

end RecordStream
