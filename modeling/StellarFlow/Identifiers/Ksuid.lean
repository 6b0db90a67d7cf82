import Mathlib.Algebra.Order.Group.Nat
import Mathlib.Data.List.Chain
import Mathlib.Data.List.GetD
import StellarFlow.Lib.FixedWidth
import StellarFlow.Lib.HexText
import StellarFlow.Lib.Machine

/-!
# Identifiers in the order of their creation

Model of `src/utils/ksuid.ts`. The clock readings and the bytes of `randomBytes(10)` are the labels of a run; the
generator keeps the last millisecond and its random part, which it increments for a second identifier of the same
millisecond.

An identifier is a numeral of ten digits for the time and one of sixteen digits for the random part, over an ascending
alphabet, so its text order is the order of the two numbers.
-/

namespace StellarFlow.Identifiers

/-- `ENCODING`. -/
def encoding : List Char := "0123456789ABCDEFGHJKMNPQRSTVWXYZ".toList

/-- `TIME_LEN`. -/
def timeLen : ℕ := 10

/-- `RANDOM_LEN`. -/
def randomLen : ℕ := 16

/-- `ENCODING[digit] ?? "0"`. -/
def encodeDigit (digit : ℕ) : Char := encoding.getD digit '0'

/-- The loop of `encodeTime` and of `encodeRandom`: `count` more digits of `n` in front of `result`. -/
def encodeLoop : ℕ → ℕ → List Char → List Char
  | 0, _, result => result
  | count + 1, n, result => encodeLoop count (n / encoding.length) (encodeDigit (n % encoding.length) :: result)

def encodeTime (ms : ℕ) : String := String.ofList (encodeLoop timeLen ms [])

/-- The big-endian integer of the bytes. -/
def bigEndian (bytes : List UInt8) : ℕ := bytes.foldl (fun n b => n <<< 8 ||| b.toNat) 0

/-- The loop of `incrementRandom`, over the bytes before an index. -/
def incrementFrom (next : List UInt8) : ℕ → List UInt8
  | 0 => next
  | i + 1 => if next.getD i 0 < 255 then next.set i (next.getD i 0 + 1) else incrementFrom (next.set i 0) i

/-- Incrementing keeps the length. -/
lemma length_incrementFrom : ∀ (next : List UInt8) (i : ℕ), (incrementFrom next i).length = next.length
  | _, 0 => rfl
  | next, i + 1 => by
    rw [incrementFrom]
    split
    · exact List.length_set
    · rw [length_incrementFrom _ i, List.length_set]

/-- The ten bytes of a `lastRandom`. -/
structure RandomPart where
  bytes : List UInt8
  size : bytes.length = 10

def RandomPart.increment (r : RandomPart) : RandomPart where
  bytes := incrementFrom r.bytes r.bytes.length
  size := (length_incrementFrom ..).trans r.size

/-- `encodeRandom`. -/
def RandomPart.encode (r : RandomPart) : String := String.ofList (encodeLoop randomLen (bigEndian r.bytes) [])

/-- All bytes are `0xFF`. -/
def RandomPart.Full (r : RandomPart) : Prop := ∀ b ∈ r.bytes, b = 255

instance (r : RandomPart) : Decidable r.Full := inferInstanceAs (Decidable (∀ b ∈ r.bytes, b = 255))

/-- `lastMs` and `lastRandom`. -/
structure Generator where
  lastMs : ℤ
  lastRandom : RandomPart

def Generator.initial : Generator where
  lastMs := -1
  lastRandom := ⟨List.replicate 10 0, rfl⟩

/-- `Date.now()` and `randomBytes(10)`. -/
structure Reading where
  ms : ℕ
  random : RandomPart

/-- The module variables after a call of `generateKsuid`. -/
def Generator.next (g : Generator) (r : Reading) : Generator :=
  if (r.ms : ℤ) = g.lastMs then { g with lastRandom := g.lastRandom.increment } else ⟨r.ms, r.random⟩

def Generator.generateKsuid (g : Generator) (r : Reading) : String :=
  encodeTime r.ms ++ (g.next r).lastRandom.encode

/-- The identifiers of a run. -/
def Generator.ids : Generator → List Reading → List String
  | _, [] => []
  | g, r :: rest => g.generateKsuid r :: (g.next r).ids rest

/-- The alphabet ascends. -/
lemma encodeDigit_lt : ∀ x y, x < y → y < encoding.length → encodeDigit x < encodeDigit y := by
  intro x y lt below
  have ascends : encoding.Pairwise (· < ·) := by decide
  rw [encodeDigit, encodeDigit, List.getD_eq_getElem _ _ (lt.trans below), List.getD_eq_getElem _ _ below]
  exact List.pairwise_iff_getElem.1 ascends x y (lt.trans below) below lt

/-- The loop writes the digits of a numeral of fixed length. -/
lemma encodeLoop_eq (count n : ℕ) (result : List Char) :
    encodeLoop count n result = (Numeral.fixed encoding.length count n).map encodeDigit ++ result := by
  induction count generalizing n result with
  | zero => rfl
  | succ count ih =>
    rw [encodeLoop, ih, Numeral.fixed, List.map_append, List.append_assoc]
    rfl

/-- The loop writes as many characters as were asked for. -/
lemma length_encodeLoop (count n : ℕ) : (encodeLoop count n []).length = count := by
  rw [encodeLoop_eq, List.append_nil, List.length_map, Numeral.length_fixed]

/-- The texts stand in the order of the numbers that fit. -/
lemma encodeLoop_lt {count n m : ℕ} (lt : n < m) (fits : m < encoding.length ^ count) :
    encodeLoop count n [] < encodeLoop count m [] := by
  rw [encodeLoop_eq, encodeLoop_eq, List.append_nil, List.append_nil]
  exact Numeral.map_fixed_lt encodeDigit_lt lt fits

/-- A big-endian number is the value of its bytes. -/
lemma bigEndian_eq (bytes : List UInt8) : bigEndian bytes = Numeral.value 256 (bytes.map UInt8.toNat) := by
  rw [bigEndian, Numeral.value, List.foldl_map]
  refine congrArg (fun f => bytes.foldl f 0) (funext₂ fun n b => ?_)
  rw [← Nat.shiftLeft_add_eq_or_of_lt b.toNat_lt, Nat.shiftLeft_eq, Nat.mul_comm]

/-- The random part fits in its characters. -/
lemma RandomPart.bigEndian_lt (r : RandomPart) : bigEndian r.bytes < encoding.length ^ randomLen := by
  rw [bigEndian_eq]
  refine lt_of_lt_of_le (Numeral.value_lt (by decide) ?_) ?_
  · intro d mem
    obtain ⟨b, -, rfl⟩ := List.mem_map.1 mem
    exact b.toNat_lt
  · rw [List.length_map, r.size]
    decide

/-- The bytes before an index are incremented by one, with the carry, by induction from their end. -/
lemma incrementFrom_append (bytes post : List UInt8) (room : ∃ b ∈ bytes, b ≠ 255) :
    ∃ next, incrementFrom (bytes ++ post) bytes.length = next ++ post ∧ bigEndian next = bigEndian bytes + 1 := by
  induction bytes using List.reverseRecOn generalizing post with
  | nil =>
    obtain ⟨b, mem, -⟩ := room
    cases mem
  | append_singleton bytes b ih =>
    have set (x : UInt8) : (bytes ++ [b] ++ post).set bytes.length x = bytes ++ x :: post := by
      rw [List.append_assoc, List.set_append_right _ _ le_rfl, Nat.sub_self]
      rfl
    have last : (bytes ++ [b] ++ post).getD bytes.length 0 = b := by
      rw [List.append_assoc, List.getD_append_right _ _ _ _ le_rfl, Nat.sub_self]
      rfl
    have snoc (xs : List UInt8) (x : UInt8) : bigEndian (xs ++ [x]) = 256 * bigEndian xs + x.toNat := by
      rw [bigEndian_eq, bigEndian_eq, List.map_append, List.map_singleton, Numeral.value_append_singleton]
    rw [List.length_append, List.length_singleton, incrementFrom, last, set, set]
    by_cases below : b < 255
    · refine ⟨bytes ++ [b + 1], ?_, ?_⟩
      · rw [if_pos below, List.append_assoc]
        rfl
      · have lt : b.toNat < 255 := UInt8.lt_iff_toNat_lt.1 below
        have carry : (b + 1).toNat = b.toNat + 1 := by
          rw [UInt8.toNat_add]
          exact Nat.mod_eq_of_lt (Nat.succ_lt_succ lt)
        rw [snoc, snoc, carry]
        rfl
    · have full : b = 255 := by
        have lt : ¬ b.toNat < 255 := fun lt => below (UInt8.lt_iff_toNat_lt.2 lt)
        have last := b.toNat_lt
        exact UInt8.toNat_inj.1 (show b.toNat = 255 by omega)
      obtain ⟨next, same, value⟩ := ih (0 :: post) (by
        obtain ⟨c, mem, ne⟩ := room
        rcases List.mem_append.1 mem with before | eq
        · exact ⟨c, before, ne⟩
        · exact absurd ((List.mem_singleton.1 eq).trans full) ne)
      refine ⟨next ++ [0], ?_, ?_⟩
      · rw [if_neg below, same, List.append_assoc]
        rfl
      · rw [snoc, snoc, value, full]
        rfl

/-- Where there is room an increment is greater. -/
lemma RandomPart.increment_lt (r : RandomPart) (room : ¬r.Full) : bigEndian r.bytes < bigEndian r.increment.bytes := by
  have byte : ∃ b ∈ r.bytes, b ≠ 255 := by simpa only [RandomPart.Full, not_forall, exists_prop] using room
  obtain ⟨next, same, value⟩ := incrementFrom_append r.bytes [] byte
  rw [List.append_nil, List.append_nil] at same
  show bigEndian r.bytes < bigEndian (incrementFrom r.bytes r.bytes.length)
  rw [same, value]
  exact Nat.lt_succ_self _

/-- The text of a time and a random part. -/
def ksuid (ms : ℕ) (random : RandomPart) : String := encodeTime ms ++ random.encode

/-- An id has 26 characters. -/
lemma length_ksuid (ms : ℕ) (random : RandomPart) : (ksuid ms random).length = 26 := by
  rw [ksuid, String.length_append, encodeTime, RandomPart.encode, String.length_ofList, String.length_ofList,
    length_encodeLoop, length_encodeLoop]
  rfl

/-- An id has the time in front and the random part behind. -/
lemma toList_ksuid (ms : ℕ) (random : RandomPart) :
    (ksuid ms random).toList = encodeLoop timeLen ms [] ++ encodeLoop randomLen (bigEndian random.bytes) [] := by
  rw [ksuid, String.toList_append, encodeTime, RandomPart.encode, String.toList_ofList, String.toList_ofList]

/-- A later time. -/
lemma ksuid_lt_of_ms {ms ms' : ℕ} (random random' : RandomPart) (lt : ms < ms') (fits : ms' < 2 ^ 48) :
    ksuid ms random < ksuid ms' random' := by
  rw [String.lt_iff, toList_ksuid, toList_ksuid]
  refine Numeral.append_lt_append_of_lt ?_ (encodeLoop_lt lt (fits.trans (by decide)))
  rw [length_encodeLoop, length_encodeLoop]

/-- The same time and a greater random part. -/
lemma ksuid_lt_of_random (ms : ℕ) {random random' : RandomPart}
    (lt : bigEndian random.bytes < bigEndian random'.bytes) : ksuid ms random < ksuid ms random' := by
  rw [String.lt_iff, toList_ksuid, toList_ksuid]
  exact List.append_left_lt (encodeLoop_lt lt random'.bigEndian_lt)

/-- The random part has room for another identifier where the clock stands still. -/
def HasRoom (g : Generator) (r : Reading) : Prop := (r.ms : ℤ) = g.lastMs → ¬g.lastRandom.Full

instance (g : Generator) (r : Reading) : Decidable (HasRoom g r) :=
  inferInstanceAs (Decidable ((r.ms : ℤ) = g.lastMs → ¬g.lastRandom.Full))

variable {g : Generator} {r : Reading} {readings : List Reading}

/-- The generator keeps the time of its last reading. -/
@[simp] lemma Generator.lastMs_next (g : Generator) (r : Reading) : (g.next r).lastMs = r.ms := by
  rw [Generator.next]
  split
  case isTrue same => exact same.symm
  case isFalse => rfl

/-- The identifier after the one of the same generator. -/
lemma Generator.lt_generateKsuid {last : ℕ} (stands : g.lastMs = last) (le : last ≤ r.ms) (fits : r.ms < 2 ^ 48)
    (room : HasRoom g r) : ksuid last g.lastRandom < g.generateKsuid r := by
  rw [Generator.generateKsuid, ← ksuid, Generator.next]
  rcases Nat.lt_or_eq_of_le le with later | same
  · exact ksuid_lt_of_ms _ _ later fits
  · have stood : (r.ms : ℤ) = g.lastMs := by rw [stands, same]
    rw [if_pos stood, same]
    exact ksuid_lt_of_random _ (g.lastRandom.increment_lt (room stood))

/-- The identifiers ascend from the last one on, by induction on the readings. -/
lemma Generator.isChain_ids {last : ℕ} (stands : g.lastMs = last)
    (ordered : (last :: readings.map Reading.ms).Pairwise (· ≤ ·)) (below : ∀ r ∈ readings, r.ms < 2 ^ 48)
    (room : Machine.Guarded (fun g r => some (Generator.next g r)) HasRoom g readings) :
    (ksuid last g.lastRandom :: g.ids readings).IsChain (· < ·) := by
  induction readings generalizing g last with
  | nil => exact List.isChain_singleton _
  | cons r rest ih =>
    obtain ⟨first, others⟩ := Machine.guarded_cons.1 room
    rw [List.map_cons, List.pairwise_cons] at ordered
    refine List.isChain_cons_cons.2 ⟨?_, ?_⟩
    · exact lt_generateKsuid stands (ordered.1 _ (List.mem_cons_self ..)) (below r (List.mem_cons_self ..)) first
    · exact ih (g.lastMs_next r) ordered.2 (fun r' mem => below r' (List.mem_cons_of_mem _ mem)) (others _ rfl)

/-- Every id of a generator has 26 characters. -/
lemma Generator.length_of_mem_ids {id : String} (mem : id ∈ g.ids readings) : id.length = 26 := by
  induction readings generalizing g with
  | nil => cases mem
  | cons r rest ih =>
    rcases List.mem_cons.1 mem with rfl | later
    · exact length_ksuid ..
    · exact ih later

/-- The identifiers of a run have 26 characters and are strictly increasing, with a clock that never goes back and
stays below `2 ^ 48`, and a random part that has room within each millisecond. -/
theorem ids_increasing (ordered : (readings.map Reading.ms).Pairwise (· ≤ ·)) (below : ∀ r ∈ readings, r.ms < 2 ^ 48)
    (room : Machine.Guarded (fun g r => some (Generator.next g r)) HasRoom .initial readings) :
    (Generator.initial.ids readings).Pairwise (· < ·) ∧ ∀ id ∈ Generator.initial.ids readings, id.length = 26 := by
  refine ⟨?_, fun id mem => Generator.length_of_mem_ids mem⟩
  cases readings with
  | nil => exact List.Pairwise.nil
  | cons r rest =>
    obtain ⟨-, others⟩ := Machine.guarded_cons.1 room
    refine List.isChain_iff_pairwise.1 ?_
    exact Generator.isChain_ids (Generator.lastMs_next ..) ordered (fun r' mem => below r' (List.mem_cons_of_mem _ mem))
      (others _ rfl)

/-- Two identifiers of one millisecond, with a carry, and one of the next. -/
def sampleReadings : List Reading :=
  [⟨1469918176385, ⟨[1, 2, 3, 4, 5, 6, 7, 8, 9, 255], rfl⟩⟩, ⟨1469918176385, ⟨List.replicate 10 9, rfl⟩⟩,
    ⟨1469918176386, ⟨List.replicate 10 0, rfl⟩⟩]

/-- Three readings, one of which repeats a time. -/
theorem ids_increasing_sample : (Generator.initial.ids sampleReadings).Pairwise (· < ·) ∧
    ∀ id ∈ Generator.initial.ids sampleReadings, id.length = 26 :=
  ids_increasing (by decide) (by decide) (by decide)

end StellarFlow.Identifiers
