import Mathlib.Data.Int.Bitwise
import Mathlib.Data.List.Basic
import StellarFlow.Lib.FlatBuffers

/-!
# Contract metadata

Model of `build_contract_metadata_buffer` and `ContractMetadata` in `src/serialization/encoders.py`, over a FlatBuffers
package. The balance is stored as two words, and the contract id as a vector of bytes.

The reader takes the bytes of the contract id for signed ones, and `bytes` refuses a negative number.
-/

namespace StellarFlow.Serialization
open FlatBuffers

/-- What is known of a contract. -/
structure Metadata where
  contractId : List UInt8
  balance : ℤ
  precision : ℤ := 7
  version : ℤ := 1
  deriving DecidableEq

section Package
variable (fb : Package)

/-- `build_contract_metadata_buffer`; `x & 0xFFFFFFFFFFFFFFFF` is the remainder modulo `2 ^ 64`. -/
def buildContractMetadataBuffer (m : Metadata) : Except PyError (List UInt8) := do
  if m.contractId.length ≠ 32 then
    throw (.valueError s!"contract_id must be exactly 32 bytes, got {m.contractId.length}")
  let balanceLo := m.balance % 2 ^ 64
  let balanceHi := (m.balance >>> (64 : ℕ)) % 2 ^ 64
  let builder := fb.forceDefaults true (fb.builder 128)
  let (cidVec, builder) ← fb.createByteVector m.contractId builder
  let builder ← fb.startObject 5 builder
  let builder ← fb.prependUOffsetTRelativeSlot 0 cidVec 0 builder
  let builder ← fb.prependUint64Slot 1 balanceLo 0 builder
  let builder ← fb.prependUint64Slot 2 balanceHi 0 builder
  let builder ← fb.prependUint32Slot 3 m.precision 0 builder
  let builder ← fb.prependUint32Slot 4 m.version 0 builder
  let (table, builder) ← fb.endObject builder
  let builder ← fb.finish table builder
  fb.output builder

/-- `ContractMetadata`: a table of a buffer. -/
structure ContractMetadata where
  buf : List UInt8
  pos : ℕ

/-- An item of `bytes`. -/
def toByte (n : ℤ) : Except PyError UInt8 :=
  if 0 ≤ n ∧ n < 256 then .ok (UInt8.ofNat n.toNat) else .error (.valueError "bytes must be in range(0, 256)")

namespace ContractMetadata

/-- `GetRootAs`. -/
def getRootAs (buf : List UInt8) (offset : ℕ) : Except PyError ContractMetadata := do
  let n ← fb.get .uoffset buf offset
  return ⟨buf, n.toNat + offset⟩

variable (view : ContractMetadata)

/-- `ContractId`. -/
def contractId (j : ℕ) : Except PyError ℤ := do
  let o ← fb.offset view.buf view.pos 4
  if o ≠ 0 then
    let a ← fb.vector view.buf view.pos o
    fb.get .int8 view.buf (a + j)
  else return 0

/-- `ContractIdLength`. -/
def contractIdLength : Except PyError ℕ := do
  let o ← fb.offset view.buf view.pos 4
  if o ≠ 0 then fb.vectorLen view.buf view.pos o else return 0

/-- `ContractIdAsBytes`. -/
def contractIdAsBytes : Except PyError (List UInt8) := do
  let o ← fb.offset view.buf view.pos 4
  if o ≠ 0 then
    let n ← fb.vectorLen view.buf view.pos o
    let a ← fb.vector view.buf view.pos o
    (List.range n).mapM fun i => do
      let byte ← fb.get .int8 view.buf (a + i)
      toByte byte
  else return []

/-- A scalar of the table, 0 where it is absent. -/
def scalar (flags : Number) (vtableOffset : ℕ) : Except PyError ℤ := do
  let o ← fb.offset view.buf view.pos vtableOffset
  if o ≠ 0 then fb.get flags view.buf (o + view.pos) else return 0

/-- `BalanceLo`. -/
def balanceLo : Except PyError ℤ := view.scalar fb .uint64 6

/-- `BalanceHi`. -/
def balanceHi : Except PyError ℤ := view.scalar fb .uint64 8

/-- `balance`. -/
def balance : Except PyError ℤ := do
  let hi ← view.balanceHi fb
  let lo ← view.balanceLo fb
  return Int.lor (hi <<< (64 : ℕ)) lo

/-- `Precision`. -/
def precision : Except PyError ℤ := view.scalar fb .uint32 10

/-- `Version`. -/
def version : Except PyError ℤ := view.scalar fb .uint32 12

end ContractMetadata

/-- A buffer read as contract metadata. -/
def readContractMetadata (buf : List UInt8) : Except PyError Metadata := do
  let view ← ContractMetadata.getRootAs fb buf 0
  let contractId ← view.contractIdAsBytes fb
  let balance ← view.balance fb
  let precision ← view.precision fb
  let version ← view.version fb
  return { contractId, balance, precision, version }

end Package

/-- A contract id of 32 bytes, and numbers in their ranges. -/
structure Metadata.InRange (m : Metadata) : Prop where
  contractId : m.contractId.length = 32
  balance : 0 ≤ m.balance ∧ m.balance < 2 ^ 128
  precision : 0 ≤ m.precision ∧ m.precision < 2 ^ 32
  version : 0 ≤ m.version ∧ m.version < 2 ^ 32

/-- The bits of numbers are the bits of integers. -/
lemma lor_natCast (a b : ℕ) : Int.lor a b = ((a ||| b : ℕ) : ℤ) := rfl

/-- The two words of a 128-bit number make it up. -/
lemma join_words {n : ℤ} (nonneg : 0 ≤ n) (small : n < 2 ^ 128) :
    Int.lor (((n >>> (64 : ℕ)) % 2 ^ 64) <<< (64 : ℕ)) (n % 2 ^ 64) = n := by
  obtain ⟨k, rfl⟩ := Int.eq_ofNat_of_zero_le nonneg
  have high : ((k : ℤ) >>> (64 : ℕ)) % 2 ^ 64 = (k / 2 ^ 64 : ℕ) := by
    rw [Int.shiftRight_eq_div_pow]
    omega
  have low : (k : ℤ) % 2 ^ 64 = (k % 2 ^ 64 : ℕ) := by omega
  rw [high, low, ← Int.natCast_shiftLeft, lor_natCast, ← Nat.shiftLeft_add_eq_or_of_lt (Nat.mod_lt _ (by decide)),
    Nat.shiftLeft_eq, Nat.mul_comm, Nat.div_add_mod]

/-- An item is accepted if its byte is below 128. -/
lemma toByte_int8 (byte : UInt8) :
    toByte (int8 byte) =
      if byte.toNat < 128 then .ok byte else .error (.valueError "bytes must be in range(0, 256)") := by
  have lt := byte.toNat_lt
  rw [toByte, int8]
  by_cases small : byte.toNat < 128
  · rw [if_pos small, if_pos small, if_pos (by omega), Int.toNat_natCast, UInt8.ofNat_toNat]
  · rw [if_neg small, if_neg small, if_neg (by omega)]

section Reading
variable {fb : Package} {Drafts : fb.Builder → Draft → Prop} {m : Metadata} {buf : List UInt8} {pos : ℕ}

/-- The slots of the metadata, the last that was written first. -/
def slotsOf (m : Metadata) : List (ℕ × Field) :=
  [(4, .uint32 m.version), (3, .uint32 m.precision), (2, .uint64 ((m.balance >>> (64 : ℕ)) % 2 ^ 64)),
    (1, .uint64 (m.balance % 2 ^ 64)), (0, .bytes m.contractId)]

/-- Every slot is read at a position. -/
def ReadsAll (fb : Package) (buf : List UInt8) (pos : ℕ) (fields : List (ℕ × Field)) : Prop :=
  ∀ slot field, (slot, field) ∈ fields →
    ∃ off, fb.offset buf pos (4 + 2 * slot) = .ok off ∧ off ≠ 0 ∧ Reads fb buf pos off field

/-- Metadata in range is built, with all its slots. -/
lemma build_ok (doc : Documented fb Drafts) (inRange : m.InRange) :
    ∃ buf pos, buildContractMetadataBuffer fb m = .ok buf ∧ fb.get .uoffset buf 0 = .ok (pos : ℕ) ∧
      ReadsAll fb buf pos (slotsOf m) := by
  obtain ⟨length, -, precision, version⟩ := inRange
  have word (n : ℤ) : 0 ≤ n % 2 ^ 64 ∧ n % 2 ^ 64 < 2 ^ 64 := by omega
  have short : m.contractId.length < 2 ^ 16 := by omega
  obtain ⟨off, b₁, made₁, draft₁⟩ := doc.createByteVector (doc.forceDefaults true (doc.builder 128)) short
  obtain ⟨b₂, made₂, draft₂⟩ := doc.startObject draft₁ (show 5 ≤ 2 ^ 8 by decide)
  obtain ⟨b₃, made₃, draft₃⟩ := doc.offsetSlot 0 draft₂ (show 0 < 5 by decide) (by simp) (.inl rfl)
  obtain ⟨b₄, made₄, draft₄⟩ := doc.uint64Slot 0 draft₃ (show 1 < 5 by decide) (by simp) (.inl rfl)
    (word m.balance).1 (word m.balance).2
  obtain ⟨b₅, made₅, draft₅⟩ := doc.uint64Slot 0 draft₄ (show 2 < 5 by decide) (by simp) (.inl rfl)
    (word (m.balance >>> (64 : ℕ))).1 (word (m.balance >>> (64 : ℕ))).2
  obtain ⟨b₆, made₆, draft₆⟩ := doc.uint32Slot 0 draft₅ (show 3 < 5 by decide) (by simp) (.inl rfl)
    precision.1 precision.2
  obtain ⟨b₇, made₇, draft₇⟩ := doc.uint32Slot 0 draft₆ (show 4 < 5 by decide) (by simp) (.inl rfl)
    version.1 version.2
  obtain ⟨table, b₈, made₈, draft₈⟩ := doc.endObject draft₇
  obtain ⟨b₉, made₉, draft₉⟩ := doc.finish draft₈
  obtain ⟨buf, pos, out, root, reads⟩ := doc.output draft₉
  refine ⟨buf, pos, ?_, root, reads⟩
  simp only [buildContractMetadataBuffer, length, ne_eq, not_true_eq_false, if_false, made₁, made₂, made₃, made₄,
    made₅, made₆, made₇, made₈, made₉, out, bind, Except.bind]

variable {view : ContractMetadata}

/-- A slot that is there is read. -/
lemma scalar_reads {flags : Number} {slot off : ℕ} {n : ℤ}
    (at_slot : fb.offset view.buf view.pos (4 + 2 * slot) = .ok off) (there : off ≠ 0)
    (read : fb.get flags view.buf (off + view.pos) = .ok n) :
    view.scalar fb flags (4 + 2 * slot) = .ok n := by
  rw [ContractMetadata.scalar, at_slot]
  show (if off ≠ 0 then _ else _) = _
  rw [if_pos there, read]

/-- The numbers are read back. -/
lemma numbers_read (view : ContractMetadata) (inRange : m.InRange) (reads : ReadsAll fb view.buf view.pos (slotsOf m)) :
    view.balance fb = .ok m.balance ∧ view.precision fb = .ok m.precision ∧ view.version fb = .ok m.version := by
  obtain ⟨_, slot₁, there₁, lo⟩ := reads 1 (.uint64 (m.balance % 2 ^ 64)) (by simp [slotsOf])
  obtain ⟨_, slot₂, there₂, hi⟩ := reads 2 (.uint64 ((m.balance >>> (64 : ℕ)) % 2 ^ 64)) (by simp [slotsOf])
  obtain ⟨_, slot₃, there₃, precision⟩ := reads 3 (.uint32 m.precision) (by simp [slotsOf])
  obtain ⟨_, slot₄, there₄, version⟩ := reads 4 (.uint32 m.version) (by simp [slotsOf])
  refine ⟨?_, scalar_reads slot₃ there₃ precision, scalar_reads slot₄ there₄ version⟩
  have low : view.balanceLo fb = .ok (m.balance % 2 ^ 64) := scalar_reads slot₁ there₁ lo
  have high : view.balanceHi fb = .ok ((m.balance >>> (64 : ℕ)) % 2 ^ 64) := scalar_reads slot₂ there₂ hi
  rw [ContractMetadata.balance, low, high]
  exact congrArg Except.ok (join_words inRange.balance.1 inRange.balance.2)

/-- The contract id is read byte by byte, as signed numbers. -/
lemma contractId_reads (view : ContractMetadata) (reads : ReadsAll fb view.buf view.pos (slotsOf m)) :
    view.contractIdLength fb = .ok m.contractId.length ∧
      (∀ j byte, m.contractId[j]? = some byte → view.contractId fb j = .ok (int8 byte)) ∧
        view.contractIdAsBytes fb = m.contractId.mapM fun byte => toByte (int8 byte) := by
  obtain ⟨off, slot, there, length, a, vector, bytes⟩ := reads 0 (.bytes m.contractId) (by simp [slotsOf])
  have slot : fb.offset view.buf view.pos 4 = .ok off := slot
  refine ⟨?_, fun j byte found => ?_, ?_⟩
  · rw [ContractMetadata.contractIdLength, slot]
    show (if off ≠ 0 then _ else _) = _
    rw [if_pos there, length]
  · rw [ContractMetadata.contractId, slot]
    show (if off ≠ 0 then _ else _) = _
    rw [if_pos there, vector]
    exact bytes j byte found
  · rw [ContractMetadata.contractIdAsBytes, slot]
    show (if off ≠ 0 then _ else _) = _
    rw [if_pos there, length, vector]
    refine Py.mapM_range fun i byte found => ?_
    rw [bytes i byte found]
    rfl

/-- Bytes below 128 are accepted. -/
lemma mapM_toByte_ok {contractId : List UInt8} (small : ∀ byte ∈ contractId, byte.toNat < 128) :
    (contractId.mapM fun byte => toByte (int8 byte)) = .ok contractId := by
  have each : ∀ byte ∈ contractId, toByte (int8 byte) = .ok byte := fun byte mem => by
    rw [toByte_int8, if_pos (small byte mem)]
  rw [Py.mapM_ok (k := id) each, List.map_id]

/-- One byte from 128 on is refused. -/
lemma mapM_toByte_error {contractId : List UInt8} (high : ¬∀ byte ∈ contractId, byte.toNat < 128) :
    (contractId.mapM fun byte => toByte (int8 byte)) = .error (.valueError "bytes must be in range(0, 256)") := by
  induction contractId with
  | nil => exact absurd (fun _ mem => absurd mem List.not_mem_nil) high
  | cons byte rest ih =>
    rw [List.mapM_cons, toByte_int8]
    by_cases small : byte.toNat < 128
    · rw [if_pos small, ih fun all => high (List.forall_mem_cons.2 ⟨small, all⟩)]
      rfl
    · rw [if_neg small]
      rfl

/-- Metadata that was written is read back up to its contract id. -/
lemma read_build (doc : Documented fb Drafts) (inRange : m.InRange) :
    ∃ buf, buildContractMetadataBuffer fb m = .ok buf ∧
      readContractMetadata fb buf =
        (m.contractId.mapM fun byte => toByte (int8 byte)).map fun contractId => { m with contractId } := by
  obtain ⟨buf, pos, built, root, reads⟩ := build_ok doc inRange
  have opened : ContractMetadata.getRootAs fb buf 0 = .ok ⟨buf, pos⟩ := by
    rw [ContractMetadata.getRootAs, root]
    rfl
  obtain ⟨balance, precision, version⟩ := numbers_read ⟨buf, pos⟩ inRange reads
  obtain ⟨-, -, bytes⟩ := contractId_reads ⟨buf, pos⟩ reads
  refine ⟨buf, built, ?_⟩
  rw [readContractMetadata, opened]
  show (ContractMetadata.contractIdAsBytes fb ⟨buf, pos⟩ >>= fun contractId => _) = _
  rw [bytes]
  cases m.contractId.mapM fun byte => toByte (int8 byte) with
  | error e => rfl
  | ok contractId =>
    show (ContractMetadata.balance fb ⟨buf, pos⟩ >>= fun balance => _) = _
    rw [balance]
    show (ContractMetadata.precision fb ⟨buf, pos⟩ >>= fun precision => _) = _
    rw [precision]
    show (ContractMetadata.version fb ⟨buf, pos⟩ >>= fun version => _) = _
    rw [version]
    rfl

/-- Contract metadata in range is written and read back unchanged if and only if every byte of the contract id is
below 128. -/
theorem metadata_round_trip_iff (doc : Documented fb Drafts) (m : Metadata) (inRange : m.InRange) :
    (∃ buf, buildContractMetadataBuffer fb m = .ok buf ∧ readContractMetadata fb buf = .ok m) ↔
      ∀ byte ∈ m.contractId, byte.toNat < 128 := by
  obtain ⟨buf, built, read⟩ := read_build doc inRange
  constructor
  · rintro ⟨buf', built', same⟩
    obtain rfl : buf = buf' := Except.ok.inj (built.symm.trans built')
    by_contra high
    rw [same, mapM_toByte_error high] at read
    cases read
  · intro small
    rw [mapM_toByte_ok small] at read
    exact ⟨buf, built, read⟩

end Reading

/-- The value of a test that reads everything back. -/
def lowMetadata : Metadata where
  contractId := List.replicate 32 1
  balance := 12345678901234567890

/-- All bytes of the sample are below 128. -/
theorem metadata_round_trip_low : ∃ buf, buildContractMetadataBuffer wire lowMetadata = .ok buf ∧
    readContractMetadata wire buf = .ok lowMetadata :=
  (metadata_round_trip_iff wire_documented lowMetadata ⟨rfl, by decide, by decide, by decide⟩).2 fun byte mem => by
    rw [List.eq_of_mem_replicate mem]
    decide

/-- The value of a test that reads only the numbers back. -/
def highMetadata : Metadata where
  contractId := (List.replicate 16 [0xfe, 0xed]).flatten
  balance := 2 ^ 127 + 42
  version := 2

/-- A contract id with bytes from 128 on is written and not read back. -/
theorem metadata_high_bytes :
    ¬∀ (fb : Package) (Drafts : fb.Builder → Draft → Prop), Documented fb Drafts → ∀ m : Metadata, m.InRange →
      ∃ buf, buildContractMetadataBuffer fb m = .ok buf ∧ readContractMetadata fb buf = .ok m := by
  intro all
  have inRange : highMetadata.InRange := ⟨rfl, by decide, by decide, by decide⟩
  obtain ⟨buf, built, same⟩ := all wire Drafts wire_documented highMetadata inRange
  obtain ⟨buf', built', read⟩ := read_build wire_documented inRange
  obtain rfl : buf = buf' := Except.ok.inj (built.symm.trans built')
  have high : ¬∀ byte ∈ highMetadata.contractId, byte.toNat < 128 :=
    fun small => absurd (small 0xfe (by decide)) (by decide)
  rw [same, mapM_toByte_error high] at read
  cases read

end StellarFlow.Serialization
