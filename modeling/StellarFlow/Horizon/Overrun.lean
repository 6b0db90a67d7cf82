import StellarFlow.Horizon.Xdr
import StellarFlow.Lib.Machine

/-!
# Padding at the end of the input

`_take` checks every length against the data. `read_var_opaque` then moves over the padding of the field without a
check, so where the bytes of the field are the last ones of the data the position ends behind it. Arrays and
optional values are read by the same operations, one after the other.
-/

namespace StellarFlow.Horizon
open XdrReader Memory TextCodec Machine

namespace XdrReader

/-- `read_opaque`, by way of `_take` with its check of the sign. -/
def readOpaque (n : ℤ) : Decoder (List UInt8) :=
  if n < 0 then Parser.fail (xdrDecodeError s!"negative field length requested: {n}") else take n.toNat

/-- `read_var_opaque` at any maximum. -/
def readVarOpaqueUpTo (maxLen : Option ℤ) : Decoder (List UInt8) := do
  let n ← readUint
  if n > 2147483647 then Parser.fail (xdrDecodeError s!"opaque length out of range: {n}")
  else if maxLen.any ((n : ℤ) > ·) then
    let most := maxLen.getD 0
    Parser.fail (xdrDecodeError s!"opaque length {n} exceeds declared maximum {most}")
  else do
    let data ← take n
    skip (padding n)
    return data

/-- `read_string` at any maximum. -/
def readStringUpTo (maxLen : Option ℤ) : Decoder String := do
  let raw ← readVarOpaqueUpTo maxLen
  return decodeUtf8 raw

/-- `remaining`. -/
def remaining (r : Cursor) : ℤ := r.data.length - r.pos

/-- A limit that is not negative is the limit of `read_var_opaque`. -/
lemma readVarOpaqueUpTo_natCast (maxLen : Option ℕ) :
    readVarOpaqueUpTo (maxLen.map Nat.cast) = readVarOpaque maxLen := by
  cases maxLen with
  | none => rfl
  | some most =>
    have text : toString (most : ℤ) = toString most := rfl
    simp [readVarOpaqueUpTo, readVarOpaque, text]

end XdrReader

/-- What an operation returns. -/
inductive XdrValue where
  | int (value : ℤ)
  | bool (value : Bool)
  | bytes (value : List UInt8)
  | text (value : String)

/-- An operation of the reader with its arguments. -/
inductive ReaderOp where
  | uint
  | int
  | hyper
  | ulong
  | bool
  | fixedOpaque (n : ℤ)
  | varOpaque (maxLen : Option ℤ)
  | string (maxLen : Option ℤ)

namespace ReaderOp

/-- The method that is called. -/
def run : ReaderOp → Decoder XdrValue
  | uint => do return .int (← readUint)
  | int => do return .int (← readInt)
  | hyper => do return .int (← readHyper)
  | ulong => do return .int (← readUlong)
  | bool => do return .bool (← readBool)
  | fixedOpaque n => do return .bytes (← readOpaque n)
  | varOpaque maxLen => do return .bytes (← readVarOpaqueUpTo maxLen)
  | string maxLen => do return .text (← readStringUpTo maxLen)

/-- The maximum of a field whose length stands in the data. -/
def limit : ReaderOp → Option (Option ℤ)
  | varOpaque maxLen => some maxLen
  | string maxLen => some maxLen
  | _ => none

end ReaderOp

/-- The reader goes on from wherever an operation leaves it, also where the caller catches what it raises. -/
def readerStep (r : Cursor) (op : ReaderOp) : Option Cursor := some (op.run r).2

/-- The position is at most the length of the data, and what remains is not negative. -/
def InBounds (r : Cursor) : Prop := r.pos ≤ r.data.length ∧ 0 ≤ remaining r

instance (r : Cursor) : Decidable (InBounds r) := inferInstanceAs (Decidable (_ ∧ _))

/-- Where the operation returns normally, it leaves the reader in bounds. -/
def ReturnsInBounds (r : Cursor) (op : ReaderOp) : Prop :=
  ∀ v r', op.run r = (.ok v, r') → InBounds r'

/-- The length that stands at the position. -/
def announced (r : Cursor) : ℕ := unpack .big (slice r.data r.pos 4)

/-- The field fits into the data and its length is accepted. -/
def FieldFits (r : Cursor) (maxLen : Option ℤ) : Prop :=
  r.pos + 4 + announced r ≤ r.data.length ∧ announced r ≤ 2147483647 ∧ ∀ most ∈ maxLen, (announced r : ℤ) ≤ most

/-- A field of variable length that fits into the data is followed by its padding there. -/
def PaddingPresent (r : Cursor) (op : ReaderOp) : Prop :=
  ∀ maxLen ∈ op.limit, FieldFits r maxLen →
    r.pos + 4 + announced r + padding (announced r) ≤ r.data.length

/-- In bounds is at or before the end. -/
lemma inBounds_iff {r : Cursor} : InBounds r ↔ r.pos ≤ r.data.length := by
  simp only [InBounds, remaining]
  omega

/-- A length is accepted up to the limit, if there is one. -/
lemma accepted_iff {maxLen : Option ℤ} {n : ℕ} :
    ¬maxLen.any ((n : ℤ) > ·) = true ↔ ∀ most ∈ maxLen, (n : ℤ) ≤ most := by
  cases maxLen with
  | none => simp
  | some most => simp

section Returns
variable {r r' : Cursor}

/-- `take` returns where there are bytes enough. -/
lemma take_eq_ok {n : ℕ} {chunk : List UInt8} :
    take n r = (.ok chunk, r') ↔
      r.pos + n ≤ r.data.length ∧ chunk = slice r.data r.pos n ∧ r' = ⟨r.data, r.pos + n⟩ := by
  rw [take]
  split
  · rename_i short
    constructor
    · intro raised
      cases raised
    · rintro ⟨enough, -, -⟩
      omega
  · rename_i enough
    constructor
    · intro returned
      cases returned
      exact ⟨Nat.le_of_not_lt enough, rfl, rfl⟩
    · rintro ⟨-, rfl, rfl⟩
      rfl

/-- A number is read where a word is left. -/
lemma readUint_eq_ok {n : ℕ} :
    readUint r = (.ok n, r') ↔ r.pos + 4 ≤ r.data.length ∧ n = announced r ∧ r' = ⟨r.data, r.pos + 4⟩ := by
  rw [readUint, Parser.bind_eq_ok]
  constructor
  · rintro ⟨chunk, c, taken, returned⟩
    obtain ⟨enough, rfl, rfl⟩ := take_eq_ok.1 taken
    cases returned
    exact ⟨enough, rfl, rfl⟩
  · rintro ⟨enough, rfl, rfl⟩
    exact ⟨_, _, take_eq_ok.2 ⟨enough, rfl, rfl⟩, rfl⟩

/-- A field of variable length is read exactly where it fits, and the reader then stands behind its padding. -/
lemma readVarOpaqueUpTo_eq_ok {maxLen : Option ℤ} {data : List UInt8} :
    readVarOpaqueUpTo maxLen r = (.ok data, r') ↔
      FieldFits r maxLen ∧ data = slice r.data (r.pos + 4) (announced r) ∧
        r' = ⟨r.data, r.pos + 4 + announced r + padding (announced r)⟩ := by
  rw [readVarOpaqueUpTo, Parser.bind_eq_ok]
  constructor
  · rintro ⟨n, c, counted, rest⟩
    obtain ⟨enough, rfl, rfl⟩ := readUint_eq_ok.1 counted
    split at rest
    · cases rest
    rename_i small
    split at rest
    · cases rest
    rename_i accepted
    obtain ⟨chunk, c, taken, rest⟩ := Parser.bind_eq_ok.1 rest
    obtain ⟨fits, rfl, rfl⟩ := take_eq_ok.1 taken
    cases rest
    exact ⟨⟨fits, Nat.le_of_not_lt small, accepted_iff.1 accepted⟩, rfl, rfl⟩
  · rintro ⟨⟨fits, small, accepted⟩, rfl, rfl⟩
    refine ⟨announced r, ⟨r.data, r.pos + 4⟩, readUint_eq_ok.2 ⟨by omega, rfl, rfl⟩, ?_⟩
    rw [if_neg (Nat.not_lt.2 small), if_neg (accepted_iff.2 accepted)]
    exact Parser.bind_apply (take_eq_ok.2 ⟨fits, rfl, rfl⟩)

/-- What is done with the value does not change where it returns. -/
lemma map_returns_iff {α β : Type} {p : Decoder α} {g : α → β} :
    (∃ v, (p >>= fun a => pure (g a)) r = (.ok v, r')) ↔ ∃ a, p r = (.ok a, r') := by
  constructor
  · rintro ⟨v, returned⟩
    obtain ⟨a, c, first, last⟩ := Parser.bind_eq_ok.1 returned
    cases last
    exact ⟨a, first⟩
  · rintro ⟨a, first⟩
    exact ⟨g a, Parser.bind_apply first⟩

/-- The operations on fields of variable length differ in what they make of the bytes. -/
lemma run_field_iff {op : ReaderOp} {maxLen : Option ℤ} (field : maxLen ∈ op.limit) :
    (∃ v, op.run r = (.ok v, r')) ↔ ∃ data, readVarOpaqueUpTo maxLen r = (.ok data, r') := by
  cases op <;> cases field
  case varOpaque => exact map_returns_iff
  case string => exact map_returns_iff.trans map_returns_iff

/-- Returns only where the reader is in bounds. -/
def EndsInside {α : Type} (p : Decoder α) : Prop := ∀ r v r', p r = (.ok v, r') → InBounds r'

/-- Bytes that are taken end inside. -/
lemma endsInside_take (n : ℕ) : EndsInside (take n) := by
  intro r chunk r' taken
  obtain ⟨enough, -, rfl⟩ := take_eq_ok.1 taken
  exact inBounds_iff.2 enough

/-- What follows does not move the reader. -/
lemma EndsInside.bind {α β : Type} {p : Decoder α} {f : α → Decoder β} (ends : EndsInside p)
    (stays : ∀ a c v c', f a c = (.ok v, c') → c' = c) : EndsInside (p >>= f) := by
  intro r v r' returned
  obtain ⟨a, c, first, second⟩ := Parser.bind_eq_ok.1 returned
  rw [stays a c v r' second]
  exact ends r a c first

/-- A decoder ends inside whatever is done with its value. -/
lemma EndsInside.map {α β : Type} {p : Decoder α} (ends : EndsInside p) (g : α → β) :
    EndsInside (p >>= fun a => pure (g a)) := by
  refine ends.bind fun a c v c' returned => ?_
  cases returned
  rfl

/-- A flag ends inside. -/
lemma endsInside_readBool : EndsInside readBool := by
  refine ((endsInside_take 4).map _).bind fun value c v c' returned => ?_
  split at returned
  · cases returned
    rfl
  · split at returned
    · cases returned
      rfl
    · cases returned

/-- Bytes of fixed length end inside. -/
lemma endsInside_readOpaque (n : ℤ) : EndsInside (readOpaque n) := by
  rw [readOpaque]
  split
  · intro r v r' returned
    cases returned
  · exact endsInside_take n.toNat

/-- An operation whose length does not stand in the data. -/
lemma endsInside_fixed {op : ReaderOp} (fixed : op.limit = none) : EndsInside op.run := by
  cases op
  case uint => exact ((endsInside_take 4).map _).map _
  case int => exact ((endsInside_take 4).map _).map _
  case hyper => exact ((endsInside_take 8).map _).map _
  case ulong => exact ((endsInside_take 8).map _).map _
  case bool => exact endsInside_readBool.map _
  case fixedOpaque n => exact (endsInside_readOpaque n).map _
  case varOpaque => cases fixed
  case string => cases fixed

/-- Returns only where the reader was in bounds. -/
def StartsInside {α : Type} (p : Decoder α) : Prop := ∀ r v r', p r = (.ok v, r') → InBounds r

/-- Bytes are taken from inside. -/
lemma startsInside_take (n : ℕ) : StartsInside (take n) := by
  intro r chunk r' taken
  obtain ⟨enough, -, -⟩ := take_eq_ok.1 taken
  exact inBounds_iff.2 (le_of_add_le_left enough)

/-- What starts inside starts so whatever follows. -/
lemma StartsInside.bind {α β : Type} {p : Decoder α} (starts : StartsInside p) (f : α → Decoder β) :
    StartsInside (p >>= f) := by
  intro r v r' returned
  obtain ⟨a, c, first, -⟩ := Parser.bind_eq_ok.1 returned
  exact starts r a c first

/-- A reader that stands behind its data returns nothing more: each operation takes bytes first. -/
theorem startsInside_run (op : ReaderOp) : StartsInside op.run := by
  have count : StartsInside readUint := (startsInside_take 4).bind _
  cases op with
  | uint => exact count.bind _
  | int => exact ((startsInside_take 4).bind _).bind _
  | hyper => exact ((startsInside_take 8).bind _).bind _
  | ulong => exact ((startsInside_take 8).bind _).bind _
  | bool => exact (count.bind _).bind _
  | fixedOpaque n =>
    have field : StartsInside (readOpaque n) := by
      rw [readOpaque]
      split
      · intro r v r' returned
        cases returned
      · exact startsInside_take n.toNat
    exact field.bind _
  | varOpaque maxLen => exact (count.bind _).bind _
  | string maxLen => exact ((count.bind _).bind _).bind _

/-- Does not leave the data where it raises. -/
def RaisesInside {α : Type} (p : Decoder α) : Prop := ∀ r e r', InBounds r → p r = (.error e, r') → InBounds r'

/-- Where bytes are missing, the position stays. -/
lemma raisesInside_take (n : ℕ) : RaisesInside (take n) := by
  intro r e r' inside raised
  rw [take] at raised
  split at raised
  · cases raised
    exact inside
  · cases raised

/-- Failing moves nothing. -/
lemma raisesInside_fail {α : Type} (e : PyError) : RaisesInside (Parser.fail e : Decoder α) := by
  intro r e r' inside raised
  cases raised
  exact inside

/-- Two decoders after one another raise inside. -/
lemma RaisesInside.bind {α β : Type} {p : Decoder α} {f : α → Decoder β} (first : RaisesInside p)
    (second : ∀ a r e r', p r = (.ok a, r') → ∀ r'', f a r' = (.error e, r'') → InBounds r'') :
    RaisesInside (p >>= f) := by
  intro r e r'' inside raised
  rcases result : p r with ⟨e' | a, r'⟩
  · rw [Parser.bind_error result] at raised
    cases raised
    exact first r e r'' inside result
  · rw [Parser.bind_apply result] at raised
    exact second a r e r' result r'' raised

/-- What is done with the value raises nothing. -/
lemma RaisesInside.map {α β : Type} {p : Decoder α} (raises : RaisesInside p) (g : α → β) :
    RaisesInside (p >>= fun a => pure (g a)) := by
  refine raises.bind fun a r e r' _ r'' raised => ?_
  cases raised

/-- Bytes of variable length raise inside. -/
lemma raisesInside_readVarOpaqueUpTo (maxLen : Option ℤ) : RaisesInside (readVarOpaqueUpTo maxLen) := by
  refine ((raisesInside_take 4).map _).bind fun n r e r' counted r'' raised => ?_
  have inside : InBounds r' := (endsInside_take 4).map _ r n r' counted
  split at raised
  · exact raisesInside_fail _ r' e r'' inside raised
  · split at raised
    · exact raisesInside_fail _ r' e r'' inside raised
    · refine (raisesInside_take n).bind (fun data r e r' _ r'' raised => ?_) r' e r'' inside raised
      cases raised

/-- Every operation of the reader raises inside. -/
lemma raisesInside_run (op : ReaderOp) : RaisesInside op.run := by
  have count : RaisesInside readUint := (raisesInside_take 4).map _
  cases op with
  | uint => exact count.map _
  | int => exact ((raisesInside_take 4).map _).map _
  | hyper => exact ((raisesInside_take 8).map _).map _
  | ulong => exact ((raisesInside_take 8).map _).map _
  | bool =>
    have flag : RaisesInside readBool := by
      refine count.bind fun n r e r' counted r'' raised => ?_
      have inside : InBounds r' := (endsInside_take 4).map _ r n r' counted
      split at raised
      · cases raised
      · split at raised
        · cases raised
        · exact raisesInside_fail _ r' e r'' inside raised
    exact flag.map _
  | fixedOpaque n =>
    have field : RaisesInside (readOpaque n) := by
      rw [readOpaque]
      split
      · exact raisesInside_fail _
      · exact raisesInside_take n.toNat
    exact field.map _
  | varOpaque maxLen => exact (raisesInside_readVarOpaqueUpTo maxLen).map _
  | string maxLen => exact ((raisesInside_readVarOpaqueUpTo maxLen).map _).map _

end Returns

/-- A reader that starts within its data stays there exactly when each operation that returns leaves it there. -/
theorem always_inBounds_iff {data : List UInt8} {offset : ℕ} (start : offset ≤ data.length) (ops : List ReaderOp) :
    Always readerStep InBounds ⟨data, offset⟩ ops ↔ Guarded readerStep ReturnsInBounds ⟨data, offset⟩ ops := by
  refine always_iff_guarded (I := fun _ => True) trivial (inBounds_iff.2 start) (fun _ _ _ _ _ _ => trivial)
    (fun r op r' _ inside taken => ?_) (exec_total (fun r (op : ReaderOp) => (op.run r).2) _ ops)
  cases taken
  constructor
  · intro after v r' returned
    rwa [returned] at after
  · intro returns
    rcases result : op.run r with ⟨e | v, r'⟩
    · exact raisesInside_run op r e r' inside result
    · exact returns v r' result

/-- One operation ends in bounds exactly where the padding that it moves over is there. -/
lemma returnsInBounds_iff (r : Cursor) (op : ReaderOp) : ReturnsInBounds r op ↔ PaddingPresent r op := by
  cases limit : op.limit with
  | none =>
    have padded : PaddingPresent r op := by
      intro maxLen field
      rw [limit] at field
      cases field
    exact iff_of_true (fun v r' returned => endsInside_fixed limit r v r' returned) padded
  | some maxLen =>
    constructor
    · intro inside maxLen' field fits
      obtain ⟨v, returned⟩ := (run_field_iff field).2 ⟨_, readVarOpaqueUpTo_eq_ok.2 ⟨fits, rfl, rfl⟩⟩
      exact inBounds_iff.1 (inside v _ returned)
    · intro padded v r' returned
      obtain ⟨data, read⟩ := (run_field_iff limit).1 ⟨v, returned⟩
      obtain ⟨fits, -, rfl⟩ := readVarOpaqueUpTo_eq_ok.1 read
      exact inBounds_iff.2 (padded maxLen limit fits)

/-- Whatever operations follow one another, the reader stays within its data exactly where the padding of each field
that it accepts is there. -/
theorem reader_in_bounds_iff (data : List UInt8) (offset : ℕ) (ops : List ReaderOp) :
    Guarded readerStep ReturnsInBounds ⟨data, offset⟩ ops ↔ Guarded readerStep PaddingPresent ⟨data, offset⟩ ops := by
  have same : ReturnsInBounds = PaddingPresent := by
    funext r op
    exact propext (returnsInBounds_iff r op)
  rw [same]

/-- One byte announced and no padding behind it. -/
theorem field_at_the_end_overruns :
    ReaderOp.run (.varOpaque none) ⟨[0, 0, 0, 1, 97], 0⟩ = (.ok (.bytes [97]), ⟨[0, 0, 0, 1, 97], 8⟩) ∧
      remaining ⟨[0, 0, 0, 1, 97], 8⟩ = -3 ∧
      ¬Guarded readerStep ReturnsInBounds ⟨[0, 0, 0, 1, 97], 0⟩ [.varOpaque none] := by
  have returned : ReaderOp.run (.varOpaque none) ⟨[0, 0, 0, 1, 97], 0⟩ =
      (.ok (.bytes [97]), ⟨[0, 0, 0, 1, 97], 8⟩) := rfl
  refine ⟨returned, by decide, fun guarded => ?_⟩
  exact absurd ((guarded_cons.1 guarded).1 _ _ returned) (by decide)

end StellarFlow.Horizon
