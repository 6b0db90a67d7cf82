import Mathlib.Algebra.Ring.Nat
import Mathlib.Data.List.TakeWhile

/-!
# Counting signature records

Model of `count_valid_signatures` in `contracts/src/auth.rs`, with additions to the count modulo 2 ^ 32 as in a release
build. Offsets stay below the length of the buffer, which a `usize` holds. Records follow each other, and a zero byte
follows the last; the first byte of a key that is zero is taken for it.
-/

namespace StellarFlow.Contracts

def ed25519PubkeyLen : ℕ := 32

def ed25519SigLen : ℕ := 64

def recordLen : ℕ := ed25519PubkeyLen + ed25519SigLen

/-- `verify_pubkey_signature`. -/
def verifyPubkeySignature (pubkey signature : List UInt8) : Bool :=
  if pubkey.length ≠ ed25519PubkeyLen then false
  else if signature.length ≠ ed25519SigLen then false
  else true

/-- `&bytes[start..end]`. -/
def slice (bytes : List UInt8) (start stop : ℕ) : List UInt8 := (bytes.take stop).drop start

/-- The loop of `count_valid_signatures`. -/
def countFrom (bytes : List UInt8) (offset : ℕ) (count : UInt32) : UInt32 :=
  match bytes[offset]? with
  | none => count
  | some terminal =>
    if terminal = 0 then count
    else
      let recordStart := offset
      let recordEnd := recordStart + recordLen
      if recordEnd > bytes.length then count
      else
        let pubkey := slice bytes recordStart (recordStart + ed25519PubkeyLen)
        let signature := slice bytes (recordStart + ed25519PubkeyLen) recordEnd
        countFrom bytes recordEnd (if verifyPubkeySignature pubkey signature then count + 1 else count)
termination_by bytes.length - offset
decreasing_by
  have pos : recordLen = 96 := rfl
  omega

/-- `count_valid_signatures`. -/
def countValidSignatures (records : List UInt8) : UInt32 :=
  if records.isEmpty then 0 else countFrom records 0 0

/-- A record `[pubkey_32_bytes | signature_64_bytes]`. -/
structure SignatureRecord where
  pubkey : List UInt8
  signature : List UInt8
  pubkey_length : pubkey.length = ed25519PubkeyLen
  signature_length : signature.length = ed25519SigLen

namespace SignatureRecord

def bytes (record : SignatureRecord) : List UInt8 := record.pubkey ++ record.signature

/-- The records back-to-back, and a zero byte. -/
def stream (records : List SignatureRecord) : List UInt8 := records.flatMap bytes ++ [0]

/-- The key does not start with a zero byte. -/
def isMarked (record : SignatureRecord) : Bool := record.pubkey.head? ≠ some 0

variable {pre rest : List UInt8} {record : SignatureRecord} {count : UInt32}

/-- A record has its fixed length. -/
lemma length_bytes (record : SignatureRecord) : record.bytes.length = recordLen := by
  rw [bytes, List.length_append, record.pubkey_length, record.signature_length, recordLen]

/-- The slice between two lengths is the part between. -/
lemma slice_append (xs ys zs : List UInt8) : slice (xs ++ ys ++ zs) xs.length (xs ++ ys).length = ys := by
  rw [slice, List.take_left, List.drop_left]

/-- A loop that stands before a record counts it and goes behind it, unless the first byte is zero. -/
lemma countFrom_record : countFrom (pre ++ record.bytes ++ rest) pre.length count =
    if record.isMarked then countFrom (pre ++ record.bytes ++ rest) (pre ++ record.bytes).length (count + 1)
    else count := by
  have stop : pre.length + recordLen = (pre ++ record.bytes).length := by
    rw [List.length_append, record.length_bytes]
  have middle : pre.length + ed25519PubkeyLen = (pre ++ record.pubkey).length := by
    rw [List.length_append, record.pubkey_length]
  -- the two slices are the key and the signature
  have key : slice (pre ++ record.bytes ++ rest) pre.length (pre.length + ed25519PubkeyLen) = record.pubkey := by
    rw [middle, bytes, ← List.append_assoc, List.append_assoc _ record.signature, slice_append]
  have signed : slice (pre ++ record.bytes ++ rest) (pre.length + ed25519PubkeyLen) (pre.length + recordLen) =
      record.signature := by
    rw [middle, stop, bytes, ← List.append_assoc, slice_append]
  have valid : verifyPubkeySignature record.pubkey record.signature = true := by
    rw [verifyPubkeySignature, if_neg (not_not.mpr record.pubkey_length), if_neg (not_not.mpr record.signature_length)]
  have fits : ¬pre.length + recordLen > (pre ++ record.bytes ++ rest).length := by
    rw [stop]
    simp only [List.length_append]
    omega
  obtain ⟨first, tail, bytes_⟩ : ∃ first tail, record.pubkey = first :: tail := by
    cases pubkey : record.pubkey with
    | nil =>
      have length := record.pubkey_length
      rw [pubkey] at length
      cases length
    | cons first tail => exact ⟨first, tail, rfl⟩
  have terminal : (pre ++ record.bytes ++ rest)[pre.length]? = some first := by
    rw [bytes, bytes_]
    simp
  rw [countFrom, terminal, isMarked, bytes_, List.head?_cons]
  dsimp only
  rw [key, signed, valid, if_neg fits, stop]
  by_cases zero : first = 0
  · rw [if_pos zero, if_neg (by simp [zero])]
  · have marked : decide (some first ≠ some 0) = true := by simp [zero]
    rw [if_neg zero, if_pos marked]
    rfl

/-- At the zero byte the loop ends. -/
lemma countFrom_zero : countFrom (pre ++ 0 :: rest) pre.length count = count := by
  rw [countFrom]
  simp

/-- The records before the first whose key starts with a zero byte are counted. -/
lemma countFrom_stream (records : List SignatureRecord) :
    countFrom (pre ++ stream records) pre.length count =
      count + UInt32.ofNat (records.takeWhile isMarked).length := by
  induction records generalizing pre count with
  | nil => exact countFrom_zero.trans (by simp)
  | cons record records ih =>
    have split : pre ++ stream (record :: records) = pre ++ record.bytes ++ stream records := by
      rw [stream, List.flatMap_cons, List.append_assoc, ← stream, List.append_assoc]
    rw [split, countFrom_record, List.takeWhile_cons]
    split
    case isTrue marked =>
      rw [ih, List.length_cons, UInt32.ofNat_add, UInt32.add_assoc, UInt32.add_comm 1]
      rfl
    case isFalse => simp

/-- The count stops at the first record that is not marked. -/
lemma countValidSignatures_stream (records : List SignatureRecord) :
    countValidSignatures (stream records) = UInt32.ofNat (records.takeWhile isMarked).length := by
  have counted : countFrom ([] ++ stream records) ([] : List UInt8).length 0 = _ := countFrom_stream records
  rw [List.nil_append, List.length_nil, UInt32.zero_add] at counted
  rw [countValidSignatures, if_neg (by simp [stream]), counted]

end SignatureRecord
open SignatureRecord

/-- Every record is counted exactly when no key starts with a zero byte and the count holds the number. -/
theorem countValidSignatures_iff (records : List SignatureRecord) :
    (countValidSignatures (stream records)).toNat = records.length ↔
      (∀ record ∈ records, record.pubkey.head? ≠ some 0) ∧ records.length < 2 ^ 32 := by
  have le : (records.takeWhile isMarked).length ≤ records.length := (List.takeWhile_prefix _).length_le
  have all : (records.takeWhile isMarked).length = records.length ↔
      ∀ record ∈ records, record.pubkey.head? ≠ some 0 := by
    calc _ ↔ records.takeWhile isMarked = records := ⟨(List.takeWhile_prefix _).eq_of_length, congrArg List.length⟩
      _ ↔ _ := by simp only [List.takeWhile_eq_self_iff, isMarked, decide_eq_true_eq]
  rw [countValidSignatures_stream, UInt32.toNat_ofNat', ← all]
  constructor
  · intro counted
    have mod := Nat.mod_le (records.takeWhile isMarked).length (2 ^ 32)
    have lt := Nat.mod_lt (records.takeWhile isMarked).length (show 0 < 2 ^ 32 by decide)
    exact ⟨by omega, by omega⟩
  · rintro ⟨whole, small⟩
    rw [whole, Nat.mod_eq_of_lt small]

/-- A record whose key starts with a zero byte. -/
def zeroRecord : SignatureRecord := ⟨0 :: List.replicate 31 1, List.replicate 64 1, rfl, rfl⟩

/-- It is not counted. -/
theorem countValidSignatures_zeroRecord : countValidSignatures (stream [zeroRecord]) = 0 := by
  rw [countValidSignatures_stream]
  rfl

end StellarFlow.Contracts
