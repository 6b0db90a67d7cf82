import StellarFlow.Horizon.Decoder

/-!
# An operation that cannot be decoded

The operation list of an envelope is decoded as far as it goes. `_transaction_v1` then reads its extension point
from wherever the failed operation has left the reader, outside of any `try`, so the envelope is described only
if four more bytes are there. `decodeOperation_raises` says that the loop catches whatever an operation raises.
-/

namespace StellarFlow.Horizon
open XdrReader Py

section Exceptions

/-- Raises nothing but `XdrDecodeError`. -/
abbrev RaisesXdr {α : Type} (decoder : Decoder α) : Prop := RaisesOnly isXdrDecodeError decoder

/-- Missing bytes are an error of the format. -/
lemma raises_take (n : ℕ) : RaisesXdr (take n) := by
  intro c e c' raised
  rw [take] at raised
  split at raised
  · cases raised
    rfl
  · cases raised

/-- A number raises errors of the format only. -/
lemma raises_readUint : RaisesXdr readUint := (raises_take 4).bind fun _ => .pure _

/-- A signed number raises errors of the format only. -/
lemma raises_readInt : RaisesXdr readInt := (raises_take 4).bind fun _ => .pure _

/-- A signed number of eight bytes raises errors of the format only. -/
lemma raises_readHyper : RaisesXdr readHyper := (raises_take 8).bind fun _ => .pure _

/-- A number of eight bytes raises errors of the format only. -/
lemma raises_readUlong : RaisesXdr readUlong := (raises_take 8).bind fun _ => .pure _

/-- A flag raises errors of the format only. -/
lemma raises_readBool : RaisesXdr readBool :=
  raises_readUint.bind fun _ => .ite (.pure _) (.ite (.pure _) (.fail rfl))

/-- Bytes of variable length raise errors of the format only. -/
lemma raises_readVarOpaque (maxLen : Option ℕ) : RaisesXdr (readVarOpaque maxLen) := by
  refine raises_readUint.bind fun n => .ite (.fail rfl) (.ite (.fail rfl) ?_)
  refine (raises_take n).bind fun data => RaisesOnly.bind ?_ fun _ => .pure data
  intro c e c' raised
  cases raised

/-- A text raises errors of the format only. -/
lemma raises_readString : RaisesXdr readString := (raises_readVarOpaque none).bind fun _ => .pure _

/-- A value that may be missing raises what the value does. -/
lemma raises_readOptional {α : Type} {reader : Decoder α} (reads : RaisesXdr reader) :
    RaisesXdr (readOptional reader) :=
  raises_readBool.bind fun _ => .ite (reads.bind fun _ => .pure _) (.pure _)

/-- A key that has been read has the length that an account id needs. -/
lemma raises_key {β : Type} {f : List UInt8 → String → Decoder β} (rest : ∀ raw address, RaisesXdr (f raw address)) :
    RaisesXdr (take 32 >>= fun raw => Parser.lift (ed25519AccountId raw) >>= f raw) := by
  intro c e c'' raised
  rcases result : take 32 c with ⟨e' | raw, c'⟩
  · rw [Parser.bind_error result] at raised
    cases raised
    exact raises_take 32 c e c'' result
  · have length : raw.length = 32 := by
      rw [take] at result
      split at result
      · cases result
      · rename_i fits
        cases result
        exact Memory.length_slice (Nat.le_of_not_lt fits)
    have address : (Parser.lift (ed25519AccountId raw) : Decoder String) c' =
        (.ok (encodeCheck accountVersionByte raw), c') := by
      rw [Parser.lift, ed25519AccountId, if_neg (not_not.mpr length)]
    rw [Parser.bind_apply result, Parser.bind_apply address] at raised
    exact rest raw _ c' e c'' raised

/-- An account raises errors of the format only. -/
lemma raises_decodeMuxedAccount : RaisesXdr decodeMuxedAccount := by
  refine raises_readInt.bind fun keyType => .ite ?_ (.ite ?_ (.fail rfl))
  · exact raises_key fun _ _ => .pure _
  · exact raises_readUlong.bind fun _ => raises_key fun _ _ => .pure _

/-- A credit raises errors of the format only. -/
lemma raises_decodeCredit (type : String) (width : ℕ) : RaisesXdr (decodeCredit type width) :=
  (raises_take width).bind fun _ => raises_key fun _ _ => .pure _

/-- An asset raises errors of the format only. -/
lemma raises_decodeAsset : RaisesXdr decodeAsset := by
  refine raises_readInt.bind fun assetType => .ite (.pure _) (.ite ?_ (.ite ?_ (.ite ?_ (.fail rfl))))
  · exact raises_decodeCredit _ _
  · exact raises_decodeCredit _ _
  · exact (raises_take 32).bind fun _ => .pure _

/-- A price raises errors of the format only. -/
lemma raises_decodePrice : RaisesXdr decodePrice :=
  raises_readInt.bind fun _ => raises_readInt.bind fun _ => .pure _

/-- A signer raises errors of the format only. -/
lemma raises_decodeSigner : RaisesXdr decodeSigner := by
  refine raises_readInt.bind fun keyType => RaisesOnly.bind ?_ fun _ => raises_readUint.bind fun _ => .pure _
  rw [decodeSignerKey]
  refine .ite ?_ (.ite ?_ (.fail rfl))
  · exact raises_key fun _ _ => .pure _
  · exact (raises_take 32).bind fun _ => .pure _

/-- An offer raises errors of the format only. -/
lemma raises_opManageSellOffer : RaisesXdr opManageSellOffer := by
  refine raises_decodeAsset.bind fun _ => raises_decodeAsset.bind fun _ => raises_readHyper.bind fun _ => ?_
  exact raises_decodePrice.bind fun _ => raises_readHyper.bind fun _ => .pure _

/-- The options raise errors of the format only. -/
lemma raises_opSetOptions : RaisesXdr opSetOptions := by
  have flag := raises_readOptional raises_readUint
  refine (raises_readOptional raises_decodeMuxedAccount).bind fun _ => flag.bind fun _ => flag.bind fun _ => ?_
  refine flag.bind fun _ => flag.bind fun _ => flag.bind fun _ => flag.bind fun _ => ?_
  refine (raises_readOptional raises_readString).bind fun _ => ?_
  exact (raises_readOptional raises_decodeSigner).bind fun _ => .pure _

/-- A deposit raises errors of the format only. -/
lemma raises_opLiquidityPoolDeposit : RaisesXdr opLiquidityPoolDeposit := by
  refine (raises_take 32).bind fun _ => raises_readHyper.bind fun _ => raises_readHyper.bind fun _ => ?_
  exact raises_decodePrice.bind fun _ => raises_decodePrice.bind fun _ => .pure _

/-- A withdrawal raises errors of the format only. -/
lemma raises_opLiquidityPoolWithdraw : RaisesXdr opLiquidityPoolWithdraw := by
  refine (raises_take 32).bind fun _ => raises_readHyper.bind fun _ => ?_
  exact raises_readHyper.bind fun _ => raises_readHyper.bind fun _ => .pure _

/-- One case for each operation that is supported, in the order of the source. -/
lemma raises_decodeOperationBody (opType : ℤ) : RaisesXdr (decodeOperationBody opType) := by
  rw [decodeOperationBody]
  refine .ite ?createAccount (.ite ?payment (.ite raises_opManageSellOffer (.ite raises_opSetOptions ?_)))
  case createAccount => exact raises_readString.bind fun _ => raises_readHyper.bind fun _ => .pure _
  case payment =>
    refine raises_decodeMuxedAccount.bind fun _ => raises_decodeAsset.bind fun _ => ?_
    exact raises_readHyper.bind fun _ => .pure _
  refine .ite ?changeTrust (.ite ?accountMerge (.ite (.pure _) (.ite ?manageData (.ite ?bumpSequence ?_))))
  case changeTrust => exact raises_decodeAsset.bind fun _ => raises_readHyper.bind fun _ => .pure _
  case accountMerge => exact raises_decodeMuxedAccount.bind fun _ => .pure _
  case manageData =>
    refine raises_readString.bind fun _ => ?_
    exact (raises_readOptional (raises_readVarOpaque none)).bind fun _ => .pure _
  case bumpSequence => exact raises_readHyper.bind fun _ => .pure _
  refine .ite ?beginSponsoring (.ite (.pure _) (.ite ?clawback (.ite raises_opLiquidityPoolDeposit ?_)))
  case beginSponsoring => exact raises_decodeMuxedAccount.bind fun _ => .pure _
  case clawback =>
    refine raises_decodeAsset.bind fun _ => raises_decodeMuxedAccount.bind fun _ => ?_
    exact raises_readHyper.bind fun _ => .pure _
  refine .ite raises_opLiquidityPoolWithdraw (.ite ?extendFootprint (.ite (.pure _) (.fail rfl)))
  case extendFootprint => exact raises_readUint.bind fun _ => .pure _

/-- An operation raises errors of the format only. -/
lemma decodeOperation_raises : RaisesXdr decodeOperation := by
  refine (raises_readOptional raises_decodeMuxedAccount).bind fun _ => raises_readInt.bind fun opType => ?_
  exact (raises_decodeOperationBody opType).bind fun _ => .pure _

end Exceptions

/-- What stands before the operations of a V1 transaction. -/
structure V1Header where
  source : Fields
  fee : ℕ
  sequence : ℤ
  preconditions : Fields
  memo : Fields
  count : ℕ

/-- `_transaction_v1` up to the operation count. -/
def readV1Header : Decoder V1Header := do
  let source ← decodeMuxedAccount
  let fee ← readUint
  let sequence ← readHyper
  let preconditions ← decodePreconditions
  let memo ← decodeMemo
  let count ← readUint
  if count > 100 then Parser.fail (xdrDecodeError s!"operation array length out of range: {count}")
  else return { source, fee, sequence, preconditions, memo, count }

/-- `_transaction_v1` after the loop over the operations. -/
def finishV1 (h : V1Header) : List Json × Bool × Option ℕ → Decoder Fields :=
  fun (operations, complete, truncatedAt) => do
    let ext ← readInt
    return [("source_account", Json.ofOption (Json.get? h.source "address")), ("fee", .int h.fee),
      ("sequence", .int h.sequence), ("preconditions", .dict h.preconditions),
      ("time_bounds", Json.ofOption (Json.get? h.preconditions "time_bounds")), ("memo", .dict h.memo),
      ("operations", .list operations), ("operation_count", .int operations.length),
      ("decode_complete", .bool complete), ("truncated_at", optionalInt truncatedAt),
      ("extension_point", .int ext)]

/-- The description of a V1 envelope whose operation `k`, counted from zero, cannot be decoded. -/
def truncatedFields (h : V1Header) (operations : List Fields) (k : ℕ) (ext : ℤ) : Fields :=
  [("source_account", Json.ofOption (Json.get? h.source "address")), ("fee", .int h.fee),
    ("sequence", .int h.sequence), ("preconditions", .dict h.preconditions),
    ("time_bounds", Json.ofOption (Json.get? h.preconditions "time_bounds")), ("memo", .dict h.memo),
    ("operations", .list (operations.map .dict)), ("operation_count", .int k),
    ("decode_complete", .bool false), ("truncated_at", .int k), ("extension_point", .int ext),
    ("envelope_type", .str "ENVELOPE_TYPE_TX"), ("signatures", .none)]

section Runs
variable {c c₀ c₁ c₂ : Cursor} {h : V1Header} {k count : ℕ} {operations : List Fields} {e : PyError}

/-- The transaction decoder is its header, the loop, and the rest. -/
lemma transactionV1_run (header : readV1Header c = (.ok h, c₀)) :
    transactionV1 c = (decodeOperationsFrom h.count 0 [] >>= finishV1 h) c₀ := by
  obtain ⟨source, d₁, first, header⟩ := Parser.bind_eq_ok.1 header
  obtain ⟨fee, d₂, second, header⟩ := Parser.bind_eq_ok.1 header
  obtain ⟨sequence, d₃, third, header⟩ := Parser.bind_eq_ok.1 header
  obtain ⟨preconditions, d₄, fourth, header⟩ := Parser.bind_eq_ok.1 header
  obtain ⟨memo, d₅, fifth, header⟩ := Parser.bind_eq_ok.1 header
  obtain ⟨count, d₆, sixth, header⟩ := Parser.bind_eq_ok.1 header
  rw [transactionV1, Parser.bind_apply first, Parser.bind_apply second, Parser.bind_apply third,
    Parser.bind_apply fourth, Parser.bind_apply fifth]
  split at header
  · cases header
  · rename_i few
    cases header
    have counted : decodeOperations d₅ = decodeOperationsFrom count 0 [] c₀ := by
      rw [decodeOperations, Parser.bind_apply sixth, if_neg few]
    rcases looped : decodeOperationsFrom count 0 [] c₀ with ⟨raised | result, d₆⟩
    · rw [Parser.bind_error (counted.trans looped), Parser.bind_error looped]
    · rw [Parser.bind_apply (counted.trans looped), Parser.bind_apply looped]
      rfl

/-- The loop stops at the first operation that cannot be decoded and keeps those before it. -/
lemma decodeOperationsFrom_stops (preceding : Parser.times decodeOperation k c = (.ok operations, c₁))
    (within : k < count) (failing : decodeOperation c₁ = (.error e, c₂)) (index : ℕ) (earlier : List Json) :
    decodeOperationsFrom count index earlier c =
      (.ok (earlier ++ operations.map .dict, false, some (index + k)), c₂) := by
  have caught := decodeOperation_raises c₁ e c₂ failing
  induction k generalizing count index earlier operations c with
  | zero =>
    cases preceding
    obtain ⟨count, rfl⟩ := Nat.exists_eq_succ_of_ne_zero (Nat.ne_zero_of_lt within)
    have stopped := attempt_error failing
    rw [if_pos caught] at stopped
    rw [decodeOperationsFrom, Parser.bind_apply stopped, List.map_nil, List.append_nil]
    rfl
  | succ k ih =>
    obtain ⟨count, rfl⟩ := Nat.exists_eq_succ_of_ne_zero (Nat.ne_zero_of_lt within)
    obtain ⟨operation, d, first, preceding⟩ := Parser.bind_eq_ok.1 preceding
    obtain ⟨later, d', rest, returned⟩ := Parser.bind_eq_ok.1 preceding
    cases returned
    rw [decodeOperationsFrom, Parser.bind_apply (attempt_ok first)]
    show decodeOperationsFrom count (index + 1) (earlier ++ [.dict operation]) d = _
    rw [ih rest (Nat.lt_of_succ_lt_succ within), List.map_cons, List.append_assoc, List.singleton_append,
      Nat.add_assoc, Nat.add_comm 1 k]

/-- Repeating a decoder yields as many values. -/
lemma length_times {α : Type} {decoder : Decoder α} {values : List α}
    (read : Parser.times decoder k c = (.ok values, c₁)) : values.length = k := by
  induction k generalizing values c with
  | zero =>
    cases read
    rfl
  | succ k ih =>
    obtain ⟨value, d, -, read⟩ := Parser.bind_eq_ok.1 read
    obtain ⟨later, d', rest, returned⟩ := Parser.bind_eq_ok.1 read
    cases returned
    rw [List.length_cons, ih rest]

/-- A word is read where there is one. -/
lemma readInt_cases (c : Cursor) :
    (c.pos + 4 ≤ c.data.length ∧ ∃ n d, readInt c = (.ok n, d)) ∨
      (¬c.pos + 4 ≤ c.data.length ∧ ∃ e, readInt c = (.error e, c)) := by
  by_cases fits : c.pos + 4 ≤ c.data.length
  · left
    have taken : take 4 c = (.ok (Memory.slice c.data c.pos 4), { c with pos := c.pos + 4 }) :=
      if_neg (Nat.not_lt.mpr fits)
    exact ⟨fits, _, _, Parser.bind_apply taken⟩
  · right
    have failed : take 4 c = (.error _, c) := if_pos (Nat.lt_of_not_le fits)
    exact ⟨fits, _, Parser.bind_error failed⟩

/-- The V1 envelope after its operations have been cut short. -/
lemma decodeV1Envelope_stops (header : readV1Header c = (.ok h, c₀))
    (preceding : Parser.times decodeOperation k c₀ = (.ok operations, c₁)) (within : k < h.count)
    (failing : decodeOperation c₁ = (.error e, c₂)) :
    (c₂.pos + 4 ≤ c₂.data.length ∧
        ∃ ext d, decodeV1Envelope c = (.ok (truncatedFields h operations k ext), d)) ∨
      (¬c₂.pos + 4 ≤ c₂.data.length ∧ ∃ e, decodeV1Envelope c = (.error e, c₂)) := by
  have transaction : transactionV1 c = finishV1 h (operations.map .dict, false, some k) c₂ := by
    have looped := decodeOperationsFrom_stops preceding within failing 0 []
    rw [Nat.zero_add, List.nil_append] at looped
    rw [transactionV1_run header, Parser.bind_apply looped]
  have length := length_times preceding
  obtain ⟨fits, ext, d, read⟩ | ⟨short, raised, failed⟩ := readInt_cases c₂
  · left
    rw [finishV1, Parser.bind_apply read, optionalInt, List.length_map, length] at transaction
    exact ⟨fits, ext, d, Parser.bind_apply transaction⟩
  · right
    rw [finishV1, Parser.bind_error failed] at transaction
    exact ⟨short, raised, Parser.bind_error transaction⟩

end Runs

/-- Where the header of a V1 envelope is read and operation `k`, counted from zero, is the first that cannot be
decoded, the envelope is described by its header, the `k` operations before and the place of the failure exactly
when four more bytes follow where that operation has left the reader. -/
theorem truncated_iff (data : List UInt8) {c c₀ c₁ c₂ : Cursor} {h : V1Header} {k : ℕ} {operations : List Fields}
    {e : PyError} (envelope : readInt ⟨data, 0⟩ = (.ok 2, c)) (header : readV1Header c = (.ok h, c₀))
    (preceding : Parser.times decodeOperation k c₀ = (.ok operations, c₁)) (within : k < h.count)
    (failing : decodeOperation c₁ = (.error e, c₂)) :
    (∃ ext, parseTransactionEnvelopeBytes data = .ok (truncatedFields h operations k ext)) ↔
      c₂.pos + 4 ≤ c₂.data.length := by
  have some : ¬data.isEmpty = true := by
    intro empty
    rw [List.isEmpty_iff.mp empty] at envelope
    cases envelope
  have parsed : parseTransactionEnvelopeBytes data = (decodeV1Envelope c).1 := by
    rw [parseTransactionEnvelopeBytes, if_neg some, decodeTransactionEnvelope, Parser.bind_apply envelope]
    rfl
  rw [parsed]
  obtain ⟨fits, ext, d, decoded⟩ | ⟨short, raised, failed⟩ := decodeV1Envelope_stops header preceding within failing
  · rw [decoded]
    exact iff_of_true ⟨ext, rfl⟩ fits
  · rw [failed]
    refine iff_of_false ?_ short
    rintro ⟨ext, returned⟩
    cases returned

/-- An envelope with an inflation and a host function call, of which the body is `tail`. -/
def hostCallBytes (tail : List UInt8) : List UInt8 :=
  [0, 0, 0, 2] ++ List.replicate 36 0 ++ [0, 0, 0, 100] ++ List.replicate 16 0 ++ [0, 0, 0, 2] ++
    [0, 0, 0, 0, 0, 0, 0, 9] ++ [0, 0, 0, 0, 0, 0, 0, 24] ++ tail

/-- Four bytes of the call are there: the inflation is described. -/
theorem truncated_iff_host_call :
    ∃ c c₀ c₁ c₂ h operations e, readInt ⟨hostCallBytes [0, 0, 0, 0], 0⟩ = (.ok 2, c) ∧
      readV1Header c = (.ok h, c₀) ∧ Parser.times decodeOperation 1 c₀ = (.ok operations, c₁) ∧
      decodeOperation c₁ = (.error e, c₂) ∧
      ∃ ext, parseTransactionEnvelopeBytes (hostCallBytes [0, 0, 0, 0]) = .ok (truncatedFields h operations 1 ext) :=
  ⟨_, _, _, _, _, _, _, rfl, rfl, rfl, rfl,
    (truncated_iff (hostCallBytes [0, 0, 0, 0]) rfl rfl rfl (by decide) rfl).mpr (by decide)⟩

/-- The envelope ends behind the type of the call: nothing is described. -/
theorem truncated_raises :
    ∃ c c₀ c₁ c₂ h operations e, readInt ⟨hostCallBytes [], 0⟩ = (.ok 2, c) ∧
      readV1Header c = (.ok h, c₀) ∧ Parser.times decodeOperation 1 c₀ = (.ok operations, c₁) ∧
      1 < h.count ∧ decodeOperation c₁ = (.error e, c₂) ∧
      ∃ raised, parseTransactionEnvelopeBytes (hostCallBytes []) = .error raised :=
  ⟨_, _, _, _, _, _, _, rfl, rfl, rfl, by decide, rfl, _, rfl⟩

end StellarFlow.Horizon
