import StellarFlow.Horizon.Xdr
import StellarFlow.Lib.HexText
import StellarFlow.Lib.PyValue

/-!
# The transaction envelope decoder

Model of the decoders of `src/ingestion/horizon_xdr.py`. A decoder reads with an `XdrReader` and returns the
dictionary that the source builds; where the source catches `XdrDecodeError` the reader stays where the
failed decoder left it.
-/

namespace StellarFlow.Horizon
open Memory TextCodec XdrReader Py

/-- The entries of a dictionary. -/
abbrev Fields := List (String × Json)

/-- `_ACCOUNT_VERSION_BYTE`. -/
def accountVersionByte : UInt8 := UInt8.ofNat (6 <<< 3)

/-- `_crc16_xmodem`. -/
def crc16Xmodem (data : List UInt8) : ℕ :=
  data.foldl (fun crc byte => (List.range 8).foldl (fun crc _ =>
    if crc &&& 0x8000 ≠ 0 then ((crc <<< 1) ^^^ 0x1021) &&& 0xffff else (crc <<< 1) &&& 0xffff)
      (crc ^^^ (byte.toNat <<< 8))) 0

/-- `_encode_check`. -/
def encodeCheck (versionByte : UInt8) (payload : List UInt8) : String :=
  let buf := versionByte :: payload
  let buf := buf ++ pack .little 2 (crc16Xmodem buf)
  String.ofList ((b32encode buf).rdropWhile (· = '='))

/-- `ed25519_account_id`. -/
def ed25519AccountId (publicKey : List UInt8) : Except PyError String :=
  if publicKey.length ≠ 32 then
    let length := publicKey.length
    .error (.valueError s!"Ed25519 public key must be 32 bytes, got {length}")
  else .ok (encodeCheck accountVersionByte publicKey)

/-- `bytes.hex()` as text. -/
def hex (bytes : List UInt8) : String := String.ofList (HexText.hexOfBytes bytes)

/-- `OPERATION_TYPE_NAMES`. -/
def operationTypeNames : List (ℤ × String) :=
  [(0, "CREATE_ACCOUNT"), (1, "PAYMENT"), (2, "PATH_PAYMENT_STRICT_RECEIVE"), (3, "MANAGE_SELL_OFFER"),
    (4, "CREATE_PASSIVE_SELL_OFFER"), (5, "SET_OPTIONS"), (6, "CHANGE_TRUST"), (7, "ALLOW_TRUST"),
    (8, "ACCOUNT_MERGE"), (9, "INFLATION"), (10, "MANAGE_DATA"), (11, "BUMP_SEQUENCE"),
    (12, "MANAGE_BUY_OFFER"), (13, "PATH_PAYMENT_STRICT_SEND"), (14, "CREATE_CLAIMABLE_BALANCE"),
    (15, "CLAIM_CLAIMABLE_BALANCE"), (16, "BEGIN_SPONSORING_FUTURE_RESERVES"),
    (17, "END_SPONSORING_FUTURE_RESERVES"), (18, "REVOKE_SPONSORSHIP"), (19, "CLAWBACK"),
    (20, "CLAWBACK_CLAIMABLE_BALANCE"), (21, "SET_TRUST_LINE_FLAGS"), (22, "LIQUIDITY_POOL_DEPOSIT"),
    (23, "LIQUIDITY_POOL_WITHDRAW"), (24, "INVOKE_HOST_FUNCTION"), (25, "EXTEND_FOOTPRINT_TTL"),
    (26, "RESTORE_FOOTPRINT")]

/-- `OPERATION_TYPE_NAMES.get(op_type, f"UNKNOWN_{op_type}")`. -/
def operationTypeName (opType : ℤ) : String := (operationTypeNames.lookup opType).getD s!"UNKNOWN_{opType}"

/-- `decode_muxed_account`. -/
def decodeMuxedAccount : Decoder Fields := do
  let keyType ← readInt
  if keyType = 0 then do
    let raw ← take 32
    let address ← Parser.lift (ed25519AccountId raw)
    return [("key_type", .str "KEY_TYPE_ED25519"), ("address", .str address), ("ed25519", .str (hex raw))]
  else if keyType = 256 then do
    let muxedId ← readUlong
    let raw ← take 32
    let address ← Parser.lift (ed25519AccountId raw)
    return [("key_type", .str "KEY_TYPE_MUXED_ED25519"), ("address", .str address), ("muxed_id", .int muxedId),
      ("med25519", .str s!"M{address}"), ("ed25519", .str (hex raw))]
  else Parser.fail (xdrDecodeError s!"unsupported MuxedAccount key type: {keyType}")

/-- The branch of `decode_asset` for a credit asset with a code of `width` bytes. -/
def decodeCredit (type : String) (width : ℕ) : Decoder Fields := do
  let code ← take width
  let issuer ← take 32
  let issuer ← Parser.lift (ed25519AccountId issuer)
  return [("type", .str type), ("code", .str (decodeAscii (rstrip code))), ("issuer", .str issuer)]

/-- `decode_asset`. -/
def decodeAsset : Decoder Fields := do
  let assetType ← readInt
  if assetType = 0 then return [("type", .str "native"), ("code", .str "XLM"), ("issuer", .none)]
  else if assetType = 1 then decodeCredit "credit_alphanum4" 4
  else if assetType = 2 then decodeCredit "credit_alphanum12" 12
  else if assetType = 3 then do
    let pool ← take 32
    return [("type", .str "pool_share"), ("liquidity_pool_id", .str (hex pool))]
  else Parser.fail (xdrDecodeError s!"unsupported Asset type: {assetType}")

/-- `_decode_price`. -/
def decodePrice : Decoder Fields := do
  let n ← readInt
  let d ← readInt
  return [("n", .int n), ("d", .int d)]

/-- `_decode_time_bounds`. -/
def decodeTimeBounds : Decoder Fields := do
  let minTime ← readHyper
  let maxTime ← readHyper
  return [("min_time", .int minTime), ("max_time", .int maxTime)]

/-- `_decode_ledger_bounds`. -/
def decodeLedgerBounds : Decoder Fields := do
  let minLedger ← readUint
  let maxLedger ← readUint
  return [("min_ledger", .int minLedger), ("max_ledger", .int maxLedger)]

/-- A dictionary, or `None`. -/
def optionalDict (fields : Option Fields) : Json := Json.ofOption (fields.map .dict)

/-- A number, or `None`. -/
def optionalInt (n : Option ℕ) : Json := Json.ofOption (n.map fun n => .int n)

/-- A text, or `None`. -/
def optionalStr (text : Option String) : Json := Json.ofOption (text.map .str)

/-- `_decode_preconditions`. -/
def decodePreconditions : Decoder Fields := do
  let precondType ← readInt
  if precondType = 0 then return [("type", .str "PRECOND_NONE")]
  else if precondType = 1 then do
    let timeBounds ← decodeTimeBounds
    return [("type", .str "PRECOND_TIME"), ("time_bounds", .dict timeBounds)]
  else if precondType = 2 then do
    let timeBounds ← readOptional decodeTimeBounds
    let ledgerBounds ← readOptional decodeLedgerBounds
    let minSeqNum ← readInt
    let minSeqAge ← readHyper
    let minSeqLedgerGap ← readUint
    let extensionPoint ← readInt
    return [("type", .str "PRECOND_V2"), ("time_bounds", optionalDict timeBounds),
      ("ledger_bounds", optionalDict ledgerBounds), ("min_seq_num", .int minSeqNum),
      ("min_seq_age", .int minSeqAge), ("min_seq_ledger_gap", .int minSeqLedgerGap),
      ("extension_point", .int extensionPoint)]
  else Parser.fail (xdrDecodeError s!"unsupported PreconditionType: {precondType}")

/-- `_decode_memo`. -/
def decodeMemo : Decoder Fields := do
  let memoType ← readInt
  if memoType = 0 then return [("type", .str "MEMO_NONE")]
  else if memoType = 1 then do
    let value ← readString
    return [("type", .str "MEMO_TEXT"), ("value", .str value)]
  else if memoType = 2 then do
    let value ← readUlong
    return [("type", .str "MEMO_ID"), ("value", .str (toString value))]
  else if memoType = 3 ∨ memoType = 4 then do
    let value ← take 32
    return [("type", .str (if memoType = 3 then "MEMO_HASH" else "MEMO_RETURN")), ("value", .str (hex value))]
  else Parser.fail (xdrDecodeError s!"unsupported memo type: {memoType}")

/-- The key of a signer of the given type. -/
def decodeSignerKey (keyType : ℤ) : Decoder Fields :=
  if keyType = 0 then do
    let raw ← take 32
    let key ← Parser.lift (ed25519AccountId raw)
    return [("key_type", .str "KEY_TYPE_ED25519"), ("key", .str key)]
  else if keyType = 1 ∨ keyType = 2 then do
    let raw ← take 32
    return [("key_type", .str (if keyType = 1 then "KEY_TYPE_PRE_AUTH_TX" else "KEY_TYPE_HASH_X")),
      ("key", .str (hex raw))]
  else Parser.fail (xdrDecodeError s!"unsupported SignerKey type: {keyType}")

/-- `_decode_signer`. -/
def decodeSigner : Decoder Fields := do
  let keyType ← readInt
  let payload ← decodeSignerKey keyType
  let weight ← readUint
  return Json.set payload "weight" (.int weight)

/-- `_op_manage_sell_offer`. -/
def opManageSellOffer : Decoder Fields := do
  let selling ← decodeAsset
  let buying ← decodeAsset
  let amount ← readHyper
  let price ← decodePrice
  let offerId ← readHyper
  return [("selling", .dict selling), ("buying", .dict buying), ("amount", .int amount),
    ("price", .dict price), ("offer_id", .int offerId)]

/-- `_op_set_options`. -/
def opSetOptions : Decoder Fields := do
  let inflationDest ← readOptional decodeMuxedAccount
  let clearFlags ← readOptional readUint
  let setFlags ← readOptional readUint
  let masterWeight ← readOptional readUint
  let lowThreshold ← readOptional readUint
  let medThreshold ← readOptional readUint
  let highThreshold ← readOptional readUint
  let homeDomain ← readOptional readString
  let signer ← readOptional decodeSigner
  return [("inflation_dest", optionalDict inflationDest), ("clear_flags", optionalInt clearFlags),
    ("set_flags", optionalInt setFlags), ("master_weight", optionalInt masterWeight),
    ("low_threshold", optionalInt lowThreshold), ("med_threshold", optionalInt medThreshold),
    ("high_threshold", optionalInt highThreshold), ("home_domain", optionalStr homeDomain),
    ("signer", optionalDict signer)]

/-- `_op_liquidity_pool_deposit`. -/
def opLiquidityPoolDeposit : Decoder Fields := do
  let poolId ← take 32
  let maxAmountA ← readHyper
  let maxAmountB ← readHyper
  let minPrice ← decodePrice
  let maxPrice ← decodePrice
  return [("liquidity_pool_id", .str (hex poolId)), ("max_amount_a", .int maxAmountA),
    ("max_amount_b", .int maxAmountB), ("min_price", .dict minPrice), ("max_price", .dict maxPrice)]

/-- `_op_liquidity_pool_withdraw`. -/
def opLiquidityPoolWithdraw : Decoder Fields := do
  let poolId ← take 32
  let amount ← readHyper
  let minAmountA ← readHyper
  let minAmountB ← readHyper
  return [("liquidity_pool_id", .str (hex poolId)), ("amount", .int amount),
    ("min_amount_a", .int minAmountA), ("min_amount_b", .int minAmountB)]

/-- `_decode_operation_body`. -/
def decodeOperationBody (opType : ℤ) : Decoder Fields :=
  if opType = 0 then do
    let destination ← readString
    let startingBalance ← readHyper
    return [("destination", .str destination), ("starting_balance", .int startingBalance)]
  else if opType = 1 then do
    let destination ← decodeMuxedAccount
    let asset ← decodeAsset
    let amount ← readHyper
    return [("destination", .dict destination), ("asset", .dict asset), ("amount", .int amount)]
  else if opType = 3 ∨ opType = 4 ∨ opType = 12 then opManageSellOffer
  else if opType = 5 then opSetOptions
  else if opType = 6 then do
    let line ← decodeAsset
    let limit ← readHyper
    return [("line", .dict line), ("limit", .int limit)]
  else if opType = 8 then do
    let destination ← decodeMuxedAccount
    return [("destination", .dict destination)]
  else if opType = 9 then return []
  else if opType = 10 then do
    let name ← readString
    let value ← readOptional (readVarOpaque none)
    return [("name", .str name), ("value", optionalStr (value.map hex))]
  else if opType = 11 then do
    let bumpTo ← readHyper
    return [("bump_to", .int bumpTo)]
  else if opType = 16 then do
    let sponsoredId ← decodeMuxedAccount
    return [("sponsored_id", .dict sponsoredId)]
  else if opType = 17 then return []
  else if opType = 19 then do
    let asset ← decodeAsset
    let source ← decodeMuxedAccount
    let amount ← readHyper
    return [("asset", .dict asset), ("from", .dict source), ("amount", .int amount)]
  else if opType = 22 then opLiquidityPoolDeposit
  else if opType = 23 then opLiquidityPoolWithdraw
  else if opType = 25 then do
    let extendTo ← readUint
    return [("extend_to", .int extendTo)]
  else if opType = 26 then return []
  else
    let name := (operationTypeNames.lookup opType).getD "UNKNOWN"
    Parser.fail (xdrDecodeError s!"unsupported operation body type {opType} ({name})")

/-- The dictionary that `decode_operation` puts together. -/
def operationFields (opType : ℤ) (source : Option Fields) (body : Fields) : Fields :=
  let result : Fields := [("type", .int opType), ("type_name", .str (operationTypeName opType))]
  let result := match source with
    | some account => Json.set result "source_account" (.dict account)
    | none => result
  Json.update result body

/-- `decode_operation`. -/
def decodeOperation : Decoder Fields := do
  let source ← readOptional decodeMuxedAccount
  let opType ← readInt
  let body ← decodeOperationBody opType
  return operationFields opType source body

/-- The result of a decoder, or `none` where it raises `XdrDecodeError`. -/
def attempt {α : Type} (decoder : Decoder α) : Decoder (Option α) :=
  Parser.handle isXdrDecodeError (do
    let value ← decoder
    return some value) (pure none)

/-- What a decoder reads, an attempt reads. -/
lemma attempt_ok {α : Type} {decoder : Decoder α} {value : α} {c d : Cursor} (read : decoder c = (.ok value, d)) :
    attempt decoder c = (.ok (some value), d) := by
  rw [attempt, Parser.handle, Parser.bind_apply read]
  rfl

/-- An attempt forgives an error of the format, and passes on any other one. -/
lemma attempt_error {α : Type} {decoder : Decoder α} {e : PyError} {c d : Cursor} (raised : decoder c = (.error e, d)) :
    attempt decoder c = if isXdrDecodeError e then (.ok none, d) else (.error e, d) := by
  rw [attempt, Parser.handle, Parser.bind_error raised]
  rfl

/-- The loop of `_decode_operations`. -/
def decodeOperationsFrom : ℕ → ℕ → List Json → Decoder (List Json × Bool × Option ℕ)
  | 0, _, operations => pure (operations, true, none)
  | count + 1, index, operations => do
    let operation ← attempt decodeOperation
    match operation with
    | some fields => decodeOperationsFrom count (index + 1) (operations ++ [.dict fields])
    | none => return (operations, false, some index)

/-- `_decode_operations`. -/
def decodeOperations : Decoder (List Json × Bool × Option ℕ) := do
  let count ← readUint
  if count > 100 then Parser.fail (xdrDecodeError s!"operation array length out of range: {count}")
  else decodeOperationsFrom count 0 []

/-- One turn of the loop of `_decode_signatures`. -/
def decodeSignature : Decoder Json := do
  let hint ← take 4
  let sigType ← readInt
  if sigType = 0 ∨ sigType = 1 ∨ sigType = 2 then do
    let raw ← readVarOpaque (some 64)
    return .dict [("hint", .str (hex hint)),
      ("type", .str (if sigType = 0 then "SIGNATURE_KEY_TYPE_ED25519"
        else if sigType = 1 then "SIGNATURE_KEY_TYPE_PRE_AUTH_TX" else "SIGNATURE_KEY_TYPE_HASH_X")),
      ("signature", .str (String.ofList (b64encode raw)))]
  else if sigType = 3 then do
    let ed25519 ← take 32
    let payload ← readVarOpaque (some 64)
    return .dict [("hint", .str (hex hint)), ("type", .str "SIGNATURE_KEY_TYPE_ED25519_SIGNED_PAYLOAD"),
      ("ed25519", .str (hex ed25519)), ("payload", .str (hex payload))]
  else Parser.fail (xdrDecodeError s!"unsupported signature type: {sigType}")

/-- `_decode_signatures`. -/
def decodeSignatures : Decoder (List Json) := do
  let count ← readUint
  Parser.times decodeSignature count

/-- `_transaction_v0`. -/
def transactionV0 : Decoder Fields := do
  let source ← take 32
  let source ← Parser.lift (ed25519AccountId source)
  let fee ← readUint
  let sequence ← readHyper
  let timeBounds ← readOptional decodeTimeBounds
  let memo ← decodeMemo
  let (operations, complete, truncatedAt) ← decodeOperations
  return [("source_account", .str source), ("fee", .int fee), ("sequence", .int sequence),
    ("time_bounds", optionalDict timeBounds), ("memo", .dict memo), ("operations", .list operations),
    ("operation_count", .int operations.length), ("decode_complete", .bool complete),
    ("truncated_at", optionalInt truncatedAt)]

/-- `_transaction_v1`. -/
def transactionV1 : Decoder Fields := do
  let source ← decodeMuxedAccount
  let fee ← readUint
  let sequence ← readHyper
  let preconditions ← decodePreconditions
  let memo ← decodeMemo
  let (operations, complete, truncatedAt) ← decodeOperations
  let ext ← readInt
  return [("source_account", Json.ofOption (Json.get? source "address")), ("fee", .int fee),
    ("sequence", .int sequence), ("preconditions", .dict preconditions),
    ("time_bounds", Json.ofOption (Json.get? preconditions "time_bounds")), ("memo", .dict memo),
    ("operations", .list operations), ("operation_count", .int operations.length),
    ("decode_complete", .bool complete), ("truncated_at", optionalInt truncatedAt),
    ("extension_point", .int ext)]

/-- `tx["decode_complete"]`. -/
def decodeComplete (tx : Fields) : Bool := (Json.ofOption (Json.get? tx "decode_complete")).truthy

/-- `_decode_v0_envelope` and `_decode_v1_envelope`. -/
def decodeEnvelope (transaction : Decoder Fields) (envelopeType : String) : Decoder Fields := do
  let tx ← transaction
  let tx := Json.set tx "envelope_type" (.str envelopeType)
  if decodeComplete tx then do
    let signatures ← attempt decodeSignatures
    match signatures with
    | some list => return Json.set tx "signatures" (.list list)
    | none => return Json.set tx "decode_complete" (.bool false)
  else return Json.set tx "signatures" .none

/-- `_decode_v0_envelope`. -/
def decodeV0Envelope : Decoder Fields := decodeEnvelope transactionV0 "ENVELOPE_TYPE_TX_V0"

/-- `_decode_v1_envelope`. -/
def decodeV1Envelope : Decoder Fields := decodeEnvelope transactionV1 "ENVELOPE_TYPE_TX"

/-- The inner transaction of a fee bump, with its signatures and extension. -/
def decodeInnerTransaction : Decoder Fields := do
  let inner ← transactionV1
  let inner := Json.set inner "envelope_type" (.str "ENVELOPE_TYPE_TX")
  if decodeComplete inner then do
    let signatures ← attempt decodeSignatures
    match signatures with
    | none => return Json.set inner "decode_complete" (.bool false)
    | some list => do
      let inner := Json.set inner "signatures" (.list list)
      let extensionPoint ← attempt readInt
      match extensionPoint with
      | some n => return Json.set inner "envelope_extension_point" (.int n)
      | none => return Json.set inner "decode_complete" (.bool false)
  else return Json.set inner "signatures" .none

/-- The extension and the outer signatures of a fee bump; what cannot be read is `None`. -/
def decodeOuterSignatures : Decoder (Json × Json) := do
  let extensionPoint ← attempt readInt
  match extensionPoint with
  | none => return (.none, .none)
  | some n => do
    let signatures ← attempt decodeSignatures
    return (.int n, Json.ofOption (signatures.map .list))

/-- `_decode_fee_bump_envelope`. -/
def decodeFeeBumpEnvelope : Decoder Fields := do
  let feeSource ← decodeMuxedAccount
  let fee ← readHyper
  let innerType ← readInt
  if innerType ≠ 2 then
    Parser.fail (xdrDecodeError s!"FeeBumpInnerTx must wrap ENVELOPE_TYPE_TX, got {innerType}")
  else do
    let inner ← decodeInnerTransaction
    let (extensionPoint, signatures) ← decodeOuterSignatures
    return [("envelope_type", .str "ENVELOPE_TYPE_TX_FEE_BUMP"),
      ("fee_source_account", Json.ofOption (Json.get? feeSource "address")), ("fee", .int fee),
      ("inner_transaction", .dict inner), ("extension_point", extensionPoint), ("signatures", signatures)]

/-- The names of the envelope types. -/
def envelopeTypeName (envType : ℤ) : String :=
  if envType = 0 then "ENVELOPE_TYPE_TX_V0"
  else if envType = 2 then "ENVELOPE_TYPE_TX"
  else if envType = 5 then "ENVELOPE_TYPE_TX_FEE_BUMP"
  else "UNKNOWN"

/-- `parse_transaction_envelope_bytes` after the reader has been made. -/
def decodeTransactionEnvelope : Decoder Fields := do
  let envType ← readInt
  if envType = 0 then decodeV0Envelope
  else if envType = 2 then decodeV1Envelope
  else if envType = 5 then decodeFeeBumpEnvelope
  else
    let name := envelopeTypeName envType
    Parser.fail (xdrDecodeError s!"unsupported envelope type {envType} ({name})")

/-- `parse_transaction_envelope_bytes`. -/
def parseTransactionEnvelopeBytes (data : List UInt8) : Except PyError Fields :=
  if data.isEmpty then .error (xdrDecodeError "transaction envelope is empty")
  else (decodeTransactionEnvelope ⟨data, 0⟩).1

end StellarFlow.Horizon
