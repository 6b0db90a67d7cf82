import StellarFlow.Horizon.Layout

/-!
# The envelope encoder

Model of `tests/_horizon_xdr_encoder.py`, with every optional argument given. `fields` is the dictionary that
describes a value; `decode_encode` says that the decoder returns it for the bytes of every envelope the
encoder can write from operations that the decoder supports.
-/

namespace StellarFlow.Horizon
open TextCodec Py

/-- The code of a credit asset. -/
structure AssetCode where
  text : String
  ascii : ∀ c ∈ text.toList, c.toNat < 128
  short : text.length ≤ 12
  trimmed : (encodeAscii text).getLast? ≠ some 0

/-- A text that a reader accepts. -/
abbrev Text := { text : String // (encodeUtf8 text).length ≤ 2147483647 }

/-- An ASCII text that a reader accepts. -/
abbrev AsciiText := { text : String // (∀ c ∈ text.toList, c.toNat < 128) ∧ text.length ≤ 2147483647 }

/-- The memo tuples. -/
inductive MemoTuple where
  | none
  | text (text : Text)
  | id (id : UInt64)
  | hash (hash : Hash32)
  | retHash (hash : Hash32)

/-- The precondition dictionaries. -/
inductive PreconditionDict where
  | none
  | time (minTime maxTime : Int64)
  | v2 (timeBounds : Option (Int64 × Int64)) (minSeqNum : Int32) (minSeqAge : Int64) (minSeqLedgerGap : UInt32)

/-- The operation dictionaries without their `src`. -/
inductive OpDict where
  | createAccount (destination : Text) (startingBalance : Int64)
  | payment (dest : Hash32) (code : Option AssetCode) (issuer : Option Hash32) (amount : Int64)
  | offer (kind : OfferKind) (selling : Option AssetCode) (sellingIssuer : Option Hash32)
      (buying : Option AssetCode) (buyingIssuer : Option Hash32) (amount : Int64) (priceN priceD : Int32)
      (offerId : Int64)
  | setOptions (inflationDest : Option Hash32)
  | changeTrust (code : Option AssetCode) (issuer : Option Hash32) (limit : Int64)
  | accountMerge (dest : Hash32)
  | inflation
  | manageData (name : Text) (value : Option AsciiText)
  | bumpSequence (bumpTo : Int64)
  | beginSponsoring (sponsored : Hash32)
  | endSponsoring
  | clawback (code : Option AssetCode) (issuer : Option Hash32) (source : Hash32) (amount : Int64)
  | liquidityPoolDeposit (poolId : Hash32) (maxAmountA maxAmountB : Int64)
      (minPriceN minPriceD maxPriceN maxPriceD : Int32)
  | liquidityPoolWithdraw (poolId : Hash32) (amount minAmountA minAmountB : Int64)
  | invokeHostFunction
  | extendFootprintTtl (extendTo : UInt32)
  | restoreFootprint

/-- An operation dictionary. -/
structure OpArgs where
  src : Option Hash32
  op : OpDict

/-- The arguments of `build_v0_envelope`, `build_v1_envelope` and `build_fee_bump_envelope`. -/
inductive BuildArgs where
  | v0 (ops : List OpArgs) (source : Hash32) (fee : UInt32) (seq : Int64) (memo : MemoTuple)
      (numSignatures : UInt32)
  | v1 (ops : List OpArgs) (source : Hash32) (fee : UInt32) (seq : Int64) (memo : MemoTuple)
      (precondition : PreconditionDict) (numSignatures : UInt32)
  | feeBump (ops : List OpArgs) (innerSource : Hash32) (fee : Int64) (innerSeq : Int64)
      (numInnerSignatures numOuterSignatures : UInt32)

/-- `bytes([byte]) * n`. -/
def repeated (byte : UInt8) (n : ℕ) : Opaque n := ⟨List.replicate n byte, List.length_replicate⟩

/-- `push_muxed`. -/
def pushMuxed (raw : Hash32) : List UInt8 := Xenc.int 0 ++ raw.1

/-- `push_optional_muxed`. -/
def pushOptionalMuxed (raw : Option Hash32) : List UInt8 := Xenc.optional pushMuxed raw

/-- `push_asset`. -/
def pushAsset (code : Option AssetCode) (issuer : Option Hash32) : List UInt8 :=
  match code with
  | none => Xenc.int 0
  | some code =>
    let encoded := encodeAscii code.text
    if encoded.length ≤ 4 then Xenc.int 1 ++ (ljust encoded 4 ++ (issuer.getD (repeated 0 32)).1)
    else Xenc.int 2 ++ (ljust encoded 12 ++ (issuer.getD (repeated 0 32)).1)

/-- `push_price`. -/
def pushPrice (n d : Int32) : List UInt8 := Xenc.int n ++ Xenc.int d

/-- `push_memo`. -/
def pushMemo : MemoTuple → List UInt8
  | .none => Xenc.int 0
  | .text text => Xenc.int 1 ++ Xenc.string text.1
  | .id id => Xenc.int 2 ++ Xenc.ulong id
  | .hash hash => Xenc.int 3 ++ hash.1
  | .retHash hash => Xenc.int 4 ++ hash.1

/-- `push_preconditions`. -/
def pushPreconditions : PreconditionDict → List UInt8
  | .none => Xenc.int 0
  | .time minTime maxTime => Xenc.int 1 ++ (Xenc.hyper minTime ++ Xenc.hyper maxTime)
  | .v2 timeBounds minSeqNum minSeqAge minSeqLedgerGap =>
    Xenc.int 2 ++ ((match timeBounds with
      | some (minTime, maxTime) => Xenc.boolean true ++ (Xenc.hyper minTime ++ Xenc.hyper maxTime)
      | none => Xenc.boolean false) ++ (Xenc.boolean false ++ (Xenc.int minSeqNum ++ (Xenc.hyper minSeqAge ++
      (Xenc.uint minSeqLedgerGap ++ Xenc.int 0)))))

/-- `op["type"]`. -/
def OpDict.type : OpDict → Int32
  | createAccount .. => 0
  | payment .. => 1
  | offer .sell .. => 3
  | offer .passive .. => 4
  | setOptions .. => 5
  | changeTrust .. => 6
  | accountMerge .. => 8
  | inflation => 9
  | manageData .. => 10
  | bumpSequence .. => 11
  | offer .buy .. => 12
  | beginSponsoring .. => 16
  | endSponsoring => 17
  | clawback .. => 19
  | liquidityPoolDeposit .. => 22
  | liquidityPoolWithdraw .. => 23
  | invokeHostFunction => 24
  | extendFootprintTtl .. => 25
  | restoreFootprint => 26

/-- The part of the loop of `push_operations` that depends on the type. -/
def pushBody : OpDict → List UInt8
  | .createAccount destination startingBalance => Xenc.string destination.1 ++ Xenc.hyper startingBalance
  | .payment dest code issuer amount => pushMuxed dest ++ (pushAsset code issuer ++ Xenc.hyper amount)
  | .offer _ selling sellingIssuer buying buyingIssuer amount priceN priceD offerId =>
    pushAsset selling sellingIssuer ++ (pushAsset buying buyingIssuer ++ (Xenc.hyper amount ++
      (pushPrice priceN priceD ++ Xenc.hyper offerId)))
  | .setOptions inflationDest =>
    pushOptionalMuxed inflationDest ++ (List.replicate 6 (Xenc.boolean false)).flatten ++
      Xenc.boolean false ++ Xenc.boolean false
  | .changeTrust code issuer limit => pushAsset code issuer ++ Xenc.hyper limit
  | .accountMerge dest => pushMuxed dest
  | .inflation => []
  | .manageData name value => Xenc.string name.1 ++ (match value with
    | none => Xenc.boolean false
    | some value => Xenc.boolean true ++ Xenc.varOpaque (encodeAscii value.1))
  | .bumpSequence bumpTo => Xenc.hyper bumpTo
  | .beginSponsoring sponsored => pushMuxed sponsored
  | .endSponsoring => []
  | .clawback code issuer source amount => pushAsset code issuer ++ (pushMuxed source ++ Xenc.hyper amount)
  | .liquidityPoolDeposit poolId maxAmountA maxAmountB minPriceN minPriceD maxPriceN maxPriceD =>
    poolId.1 ++ (Xenc.hyper maxAmountA ++ (Xenc.hyper maxAmountB ++ (pushPrice minPriceN minPriceD ++
      pushPrice maxPriceN maxPriceD)))
  | .liquidityPoolWithdraw poolId amount minAmountA minAmountB =>
    poolId.1 ++ (Xenc.hyper amount ++ (Xenc.hyper minAmountA ++ Xenc.hyper minAmountB))
  | .invokeHostFunction => []
  | .extendFootprintTtl extendTo => Xenc.uint extendTo
  | .restoreFootprint => []

/-- One turn of the loop of `push_operations`. -/
def pushOperation (args : OpArgs) : List UInt8 :=
  pushOptionalMuxed args.src ++ (Xenc.int args.op.type ++ pushBody args.op)

/-- `push_operations`. -/
def pushOperations (ops : List OpArgs) : List UInt8 :=
  Xenc.uint (UInt32.ofNat ops.length) ++ ops.flatMap pushOperation

/-- The count and the signatures at the end of an envelope. -/
def pushSignatures (byte : UInt8) (count : UInt32) : List UInt8 :=
  Xenc.uint count ++ (List.replicate count.toNat
    ([1, 2, 3, 4] ++ (Xenc.int 0 ++ Xenc.varOpaque (repeated byte 64).1))).flatten

/-- `build_v0_envelope`, `build_v1_envelope` and `build_fee_bump_envelope`. -/
def build : BuildArgs → List UInt8
  | .v0 ops source fee seq memo numSignatures =>
    Xenc.int 0 ++ (source.1 ++ (Xenc.uint fee ++ (Xenc.hyper seq ++ (Xenc.boolean false ++ (pushMemo memo ++
      (pushOperations ops ++ pushSignatures 0xaa numSignatures))))))
  | .v1 ops source fee seq memo precondition numSignatures =>
    Xenc.int 2 ++ (pushMuxed source ++ (Xenc.uint fee ++ (Xenc.hyper seq ++ (pushPreconditions precondition ++
      (pushMemo memo ++ (pushOperations ops ++ (Xenc.int 0 ++ pushSignatures 0xbb numSignatures)))))))
  | .feeBump ops innerSource fee innerSeq numInnerSignatures numOuterSignatures =>
    Xenc.int 5 ++ (pushMuxed (repeated 0x33 32) ++ (Xenc.hyper fee ++ (Xenc.int 2 ++
      (pushMuxed innerSource ++ (Xenc.uint 100 ++ (Xenc.hyper innerSeq ++ (pushPreconditions .none ++
      (pushMemo .none ++ (pushOperations ops ++ (Xenc.int 0 ++ (pushSignatures 0xbb numInnerSignatures ++
      (Xenc.int 0 ++ (Xenc.int 0 ++ pushSignatures 0xbb numOuterSignatures)))))))))))))

/-- The dictionary of an asset. -/
def assetFields (code : Option AssetCode) (issuer : Option Hash32) : Fields :=
  match code with
  | none => [("type", .str "native"), ("code", .str "XLM"), ("issuer", .none)]
  | some code =>
    [("type", .str (if code.text.length ≤ 4 then "credit_alphanum4" else "credit_alphanum12")),
      ("code", .str code.text), ("issuer", .str (address (issuer.getD (repeated 0 32))))]

/-- The dictionary of an account. -/
def accountFields (raw : Hash32) : Fields := (MuxedAccount.ed25519 raw).fields

/-- The dictionary of a memo. -/
def MemoTuple.fields : MemoTuple → Fields
  | .none => [("type", .str "MEMO_NONE")]
  | .text content => [("type", .str "MEMO_TEXT"), ("value", .str content.1)]
  | .id number => [("type", .str "MEMO_ID"), ("value", .str (toString number.toNat))]
  | .hash digest => [("type", .str "MEMO_HASH"), ("value", .str (hex digest.1))]
  | .retHash digest => [("type", .str "MEMO_RETURN"), ("value", .str (hex digest.1))]

/-- The preconditions in the layout of the decoder. -/
def PreconditionDict.layout : PreconditionDict → Preconditions
  | none => .none
  | time minTime maxTime => .time ⟨minTime, maxTime⟩
  | v2 timeBounds minSeqNum minSeqAge gap =>
    .v2 (timeBounds.map fun bounds => ⟨bounds.1, bounds.2⟩) .none minSeqNum minSeqAge gap 0

/-- The entries of an operation that depend on its type. -/
def OpDict.fields : OpDict → Fields
  | createAccount destination startingBalance =>
    [("destination", .str destination.1), ("starting_balance", .int startingBalance.toInt)]
  | payment dest code issuer amount =>
    [("destination", .dict (accountFields dest)), ("asset", .dict (assetFields code issuer)),
      ("amount", .int amount.toInt)]
  | offer _ selling sellingIssuer buying buyingIssuer amount priceN priceD offerId =>
    [("selling", .dict (assetFields selling sellingIssuer)), ("buying", .dict (assetFields buying buyingIssuer)),
      ("amount", .int amount.toInt), ("price", .dict (Price.fields ⟨priceN, priceD⟩)),
      ("offer_id", .int offerId.toInt)]
  | setOptions inflationDest =>
    [("inflation_dest", optionalDict (inflationDest.map accountFields)), ("clear_flags", .none),
      ("set_flags", .none), ("master_weight", .none), ("low_threshold", .none), ("med_threshold", .none),
      ("high_threshold", .none), ("home_domain", .none), ("signer", .none)]
  | changeTrust code issuer limit => [("line", .dict (assetFields code issuer)), ("limit", .int limit.toInt)]
  | accountMerge dest => [("destination", .dict (accountFields dest))]
  | inflation => []
  | manageData name value =>
    [("name", .str name.1), ("value", optionalStr (value.map fun text => hex (encodeAscii text.1)))]
  | bumpSequence bumpTo => [("bump_to", .int bumpTo.toInt)]
  | beginSponsoring sponsored => [("sponsored_id", .dict (accountFields sponsored))]
  | endSponsoring => []
  | clawback code issuer source amount =>
    [("asset", .dict (assetFields code issuer)), ("from", .dict (accountFields source)),
      ("amount", .int amount.toInt)]
  | liquidityPoolDeposit poolId maxAmountA maxAmountB minPriceN minPriceD maxPriceN maxPriceD =>
    [("liquidity_pool_id", .str (hex poolId.1)), ("max_amount_a", .int maxAmountA.toInt),
      ("max_amount_b", .int maxAmountB.toInt), ("min_price", .dict (Price.fields ⟨minPriceN, minPriceD⟩)),
      ("max_price", .dict (Price.fields ⟨maxPriceN, maxPriceD⟩))]
  | liquidityPoolWithdraw poolId amount minAmountA minAmountB =>
    [("liquidity_pool_id", .str (hex poolId.1)), ("amount", .int amount.toInt),
      ("min_amount_a", .int minAmountA.toInt), ("min_amount_b", .int minAmountB.toInt)]
  | invokeHostFunction => []
  | extendFootprintTtl extendTo => [("extend_to", .int extendTo.toNat)]
  | restoreFootprint => []

/-- The dictionary of an operation. -/
def OpArgs.fields (args : OpArgs) : Fields :=
  operationFields args.op.type.toInt (args.src.map accountFields) args.op.fields

/-- What an envelope says of its operations. -/
def operationEntries (ops : List OpArgs) : Fields :=
  [("operations", .list (ops.map fun op => .dict op.fields)), ("operation_count", .int ops.length),
    ("decode_complete", .bool true), ("truncated_at", .none)]

/-- The dictionaries of the signatures that an envelope ends in. -/
def signatureEntries (byte : UInt8) (count : UInt32) : Json :=
  .list (List.replicate count.toNat (.dict [("hint", .str "01020304"),
    ("type", .str "SIGNATURE_KEY_TYPE_ED25519"),
    ("signature", .str (String.ofList (b64encode (repeated byte 64).1)))]))

/-- The dictionary of a transaction of the second format. -/
def transactionEntries (ops : List OpArgs) (source : Hash32) (fee : UInt32) (seq : Int64) (memo : MemoTuple)
    (precondition : PreconditionDict) : Fields :=
  [("source_account", .str (address source)), ("fee", .int fee.toNat), ("sequence", .int seq.toInt),
    ("preconditions", .dict precondition.layout.fields),
    ("time_bounds", optionalDict (precondition.layout.timeBounds.map TimeBounds.fields)),
    ("memo", .dict memo.fields)] ++ operationEntries ops ++ [("extension_point", .int 0)]

/-- The dictionary of an envelope. -/
def BuildArgs.fields : BuildArgs → Fields
  | v0 ops source fee seq memo numSignatures =>
    [("source_account", .str (address source)), ("fee", .int fee.toNat), ("sequence", .int seq.toInt),
      ("time_bounds", .none), ("memo", .dict memo.fields)] ++ operationEntries ops ++
      [("envelope_type", .str "ENVELOPE_TYPE_TX_V0"), ("signatures", signatureEntries 0xaa numSignatures)]
  | v1 ops source fee seq memo precondition numSignatures =>
    transactionEntries ops source fee seq memo precondition ++
      [("envelope_type", .str "ENVELOPE_TYPE_TX"), ("signatures", signatureEntries 0xbb numSignatures)]
  | feeBump ops innerSource fee innerSeq numInnerSignatures numOuterSignatures =>
    [("envelope_type", .str "ENVELOPE_TYPE_TX_FEE_BUMP"),
      ("fee_source_account", .str (address (repeated 0x33 32))), ("fee", .int fee.toInt),
      ("inner_transaction", .dict (transactionEntries ops innerSource 100 innerSeq .none .none ++
        [("envelope_type", .str "ENVELOPE_TYPE_TX"), ("signatures", signatureEntries 0xbb numInnerSignatures),
          ("envelope_extension_point", .int 0)])),
      ("extension_point", .int 0), ("signatures", signatureEntries 0xbb numOuterSignatures)]

/-- The operations of an envelope. -/
def BuildArgs.ops : BuildArgs → List OpArgs
  | v0 ops .. => ops
  | v1 ops .. => ops
  | feeBump ops .. => ops

/-- An operation that the decoder has a reader for. -/
def OpDict.Supported : OpDict → Prop
  | invokeHostFunction => False
  | _ => True

/-- A character is one byte. -/
lemma length_encodeAscii (text : String) : (encodeAscii text).length = text.length := by
  rw [encodeAscii, List.length_map, String.length_toList]

/-- What `push_asset` writes is the layout of an asset. -/
lemma asset_layout (code : Option AssetCode) (issuer : Option Hash32) :
    ∃ asset : Asset, asset.bytes = pushAsset code issuer ∧ asset.fields = assetFields code issuer := by
  cases code with
  | none => exact ⟨.native, rfl, rfl⟩
  | some code =>
    obtain ⟨text, ascii, short, trimmed⟩ := code
    have length := length_encodeAscii text
    have back (n : ℕ) : decodeAscii (rstrip (ljust (encodeAscii text) n)) = text := by
      rw [rstrip_ljust trimmed, decodeAscii_encodeAscii ascii]
    rw [← length] at short
    by_cases four : (encodeAscii text).length ≤ 4
    · refine ⟨.credit4 ⟨ljust (encodeAscii text) 4, length_ljust four⟩ (issuer.getD (repeated 0 32)), ?_, ?_⟩
      · simp only [pushAsset, if_pos four, Asset.bytes]
      · simp only [assetFields, ← length, if_pos four, Asset.fields, Asset.creditFields, back]
    · refine ⟨.credit12 ⟨ljust (encodeAscii text) 12, length_ljust short⟩ (issuer.getD (repeated 0 32)), ?_, ?_⟩
      · simp only [pushAsset, if_neg four, Asset.bytes]
      · simp only [assetFields, ← length, if_neg four, Asset.fields, Asset.creditFields, back]

/-- What `push_memo` writes is the layout of a memo. -/
lemma memo_layout (memo : MemoTuple) :
    ∃ value : Memo, value.bytes = pushMemo memo ∧ value.fields = memo.fields := by
  cases memo with
  | none => exact ⟨.none, rfl, rfl⟩
  | text text =>
    refine ⟨.text ⟨encodeUtf8 text.1, text.2⟩, rfl, ?_⟩
    simp only [Memo.fields, MemoTuple.fields, decodeUtf8_encodeUtf8]
  | id id => exact ⟨.id id, rfl, rfl⟩
  | hash hash => exact ⟨.hash hash, rfl, rfl⟩
  | retHash hash => exact ⟨.retHash hash, rfl, rfl⟩

/-- What `push_preconditions` writes is the layout of preconditions. -/
lemma precondition_layout (precondition : PreconditionDict) :
    precondition.layout.bytes = pushPreconditions precondition := by
  cases precondition with
  | none => rfl
  | time minTime maxTime => rfl
  | v2 timeBounds minSeqNum minSeqAge gap =>
    cases timeBounds with
    | none => rfl
    | some bounds => rfl

/-- The body of every operation that the decoder supports is written in the layout of the decoder. -/
lemma body_layout (op : OpDict) (supported : op.Supported) :
    ∃ body : OperationBody, body.opType = op.type ∧ body.bytes = pushBody op ∧ body.fields = op.fields := by
  cases op with
  | createAccount destination startingBalance =>
    refine ⟨.createAccount ⟨encodeUtf8 destination.1, destination.2⟩ startingBalance, rfl, rfl, ?_⟩
    simp only [OperationBody.fields, OpDict.fields, decodeUtf8_encodeUtf8]
  | payment dest code issuer amount =>
    obtain ⟨asset, bytes, fields⟩ := asset_layout code issuer
    refine ⟨.payment (.ed25519 dest) asset amount, rfl, ?_, ?_⟩
    · rw [OperationBody.bytes, bytes]
      rfl
    · rw [OperationBody.fields, fields]
      rfl
  | offer kind selling sellingIssuer buying buyingIssuer amount priceN priceD offerId =>
    obtain ⟨sold, soldBytes, soldFields⟩ := asset_layout selling sellingIssuer
    obtain ⟨bought, boughtBytes, boughtFields⟩ := asset_layout buying buyingIssuer
    refine ⟨.offer kind sold bought amount ⟨priceN, priceD⟩ offerId, ?_, ?_, ?_⟩
    · cases kind with
      | sell => rfl
      | passive => rfl
      | buy => rfl
    · rw [OperationBody.bytes, soldBytes, boughtBytes]
      rfl
    · rw [OperationBody.fields, soldFields, boughtFields]
      rfl
  | setOptions inflationDest =>
    refine ⟨.setOptions ⟨inflationDest.map .ed25519, none, none, none, none, none, none, none, none⟩, rfl, ?_, ?_⟩
    · cases inflationDest with
      | none => rfl
      | some raw => simp [OperationBody.bytes, SetOptions.bytes, pushBody, pushOptionalMuxed, Xenc.optional,
          MuxedAccount.bytes, pushMuxed, List.replicate]
    · cases inflationDest with
      | none => rfl
      | some raw => rfl
  | changeTrust code issuer limit =>
    obtain ⟨asset, bytes, fields⟩ := asset_layout code issuer
    refine ⟨.changeTrust asset limit, rfl, ?_, ?_⟩
    · rw [OperationBody.bytes, bytes]
      rfl
    · rw [OperationBody.fields, fields]
      rfl
  | accountMerge dest => exact ⟨.accountMerge (.ed25519 dest), rfl, rfl, rfl⟩
  | inflation => exact ⟨.inflation, rfl, rfl, rfl⟩
  | manageData name value =>
    refine ⟨.manageData ⟨encodeUtf8 name.1, name.2⟩
      (value.map fun text => ⟨encodeAscii text.1, length_encodeAscii text.1 ▸ text.2.2⟩), rfl, ?_, ?_⟩
    · cases value with
      | none => rfl
      | some text => rfl
    · cases value with
      | none => simp [OperationBody.fields, OpDict.fields, decodeUtf8_encodeUtf8]
      | some text => simp [OperationBody.fields, OpDict.fields, decodeUtf8_encodeUtf8]
  | bumpSequence bumpTo => exact ⟨.bumpSequence bumpTo, rfl, rfl, rfl⟩
  | beginSponsoring sponsored => exact ⟨.beginSponsoring (.ed25519 sponsored), rfl, rfl, rfl⟩
  | endSponsoring => exact ⟨.endSponsoring, rfl, rfl, rfl⟩
  | clawback code issuer source amount =>
    obtain ⟨asset, bytes, fields⟩ := asset_layout code issuer
    refine ⟨.clawback asset (.ed25519 source) amount, rfl, ?_, ?_⟩
    · rw [OperationBody.bytes, bytes]
      rfl
    · rw [OperationBody.fields, fields]
      rfl
  | liquidityPoolDeposit poolId maxAmountA maxAmountB minPriceN minPriceD maxPriceN maxPriceD =>
    exact ⟨.liquidityPoolDeposit poolId maxAmountA maxAmountB ⟨minPriceN, minPriceD⟩ ⟨maxPriceN, maxPriceD⟩,
      rfl, rfl, rfl⟩
  | liquidityPoolWithdraw poolId amount minAmountA minAmountB =>
    exact ⟨.liquidityPoolWithdraw poolId amount minAmountA minAmountB, rfl, rfl, rfl⟩
  | invokeHostFunction => exact supported.elim
  | extendFootprintTtl extendTo => exact ⟨.extendFootprintTtl extendTo, rfl, rfl, rfl⟩
  | restoreFootprint => exact ⟨.restoreFootprint, rfl, rfl, rfl⟩

/-- What `push_operation` writes of a supported operation is the layout of one. -/
lemma operation_layout (args : OpArgs) (supported : args.op.Supported) :
    ∃ operation : Operation, operation.bytes = pushOperation args ∧ operation.fields = args.fields := by
  obtain ⟨src, op⟩ := args
  obtain ⟨body, type, bytes, fields⟩ := body_layout op supported
  refine ⟨⟨src.map .ed25519, body⟩, ?_, ?_⟩
  · rw [Operation.bytes, type, bytes]
    cases src with
    | none => rfl
    | some raw => rfl
  · rw [Operation.fields, type, fields, Option.map_map]
    rfl

/-- Supported operations are written one after the other. -/
lemma operations_layout (ops : List OpArgs) (supported : ∀ op ∈ ops, op.op.Supported) :
    ∃ operations : List Operation, operations.length = ops.length ∧
      operations.flatMap Operation.bytes = ops.flatMap pushOperation ∧
      operationsList operations = ops.map fun op => .dict op.fields := by
  induction ops with
  | nil => exact ⟨[], rfl, rfl, rfl⟩
  | cons op ops ih =>
    obtain ⟨operation, bytes, fields⟩ := operation_layout op (supported op List.mem_cons_self)
    obtain ⟨operations, length, rest, list⟩ := ih fun op mem => supported op (List.mem_cons_of_mem _ mem)
    refine ⟨operation :: operations, ?_, ?_, ?_⟩
    · rw [List.length_cons, List.length_cons, length]
    · rw [List.flatMap_cons, List.flatMap_cons, bytes, rest]
    · rw [List.map_cons, ← list, ← fields]
      rfl

/-- The signatures that an envelope ends in. -/
def signaturesOf (byte : UInt8) (count : UInt32) : List DecoratedSignature :=
  List.replicate count.toNat (.plain ⟨[1, 2, 3, 4], rfl⟩ .ed25519
    ⟨(repeated byte 64).1, le_of_eq (repeated byte 64).2⟩)

/-- The number of signatures fits in a word. -/
lemma length_signaturesOf (byte : UInt8) (count : UInt32) : (signaturesOf byte count).length < 2 ^ 32 := by
  rw [signaturesOf, List.length_replicate]
  exact count.toNat_lt

/-- What `push_signatures` writes is the layout of the signatures. -/
lemma signatures_layout (byte : UInt8) (count : UInt32) :
    signaturesBytes (signaturesOf byte count) = pushSignatures byte count ∧
      .list (signaturesList (signaturesOf byte count)) = signatureEntries byte count := by
  constructor
  · rw [signaturesBytes, signaturesOf, List.length_replicate, UInt32.ofNat_toNat, List.flatMap_replicate]
    rfl
  · rw [signaturesList, signaturesOf, List.map_replicate]
    rfl

/-- Every envelope whose operations the decoder supports is written in the layout of the decoder. -/
lemma envelope_layout (args : BuildArgs) (supported : ∀ op ∈ args.ops, op.op.Supported)
    (few : args.ops.length ≤ 100) :
    ∃ envelope : Envelope, envelope.WellSized ∧ envelope.bytes = build args ∧ envelope.fields = args.fields := by
  cases args with
  | v0 ops source fee seq memo numSignatures =>
    obtain ⟨operations, length, bytes, list⟩ := operations_layout ops supported
    obtain ⟨value, memoBytes, memoFields⟩ := memo_layout memo
    obtain ⟨signed, entries⟩ := signatures_layout 0xaa numSignatures
    refine ⟨.v0 ⟨source, fee, seq, none, value, operations⟩ (signaturesOf 0xaa numSignatures),
      ⟨by rw [length]; exact few, length_signaturesOf _ _⟩, ?_, ?_⟩
    · simp only [Envelope.bytes, TransactionV0.bytes, operationsBytes, length, bytes, memoBytes, signed, build,
        pushOperations, Xenc.optional, List.append_assoc]
    · simp only [Envelope.fields, TransactionV0.fields, list, memoFields, entries, BuildArgs.fields,
        operationEntries, List.length_map]
      rfl
  | v1 ops source fee seq memo precondition numSignatures =>
    obtain ⟨operations, length, bytes, list⟩ := operations_layout ops supported
    obtain ⟨value, memoBytes, memoFields⟩ := memo_layout memo
    obtain ⟨signed, entries⟩ := signatures_layout 0xbb numSignatures
    refine ⟨.v1 ⟨.ed25519 source, fee, seq, precondition.layout, value, operations, 0⟩
      (signaturesOf 0xbb numSignatures), ⟨by rw [length]; exact few, length_signaturesOf _ _⟩, ?_, ?_⟩
    · simp only [Envelope.bytes, TransactionV1.bytes, operationsBytes, length, bytes, memoBytes, signed, build,
        pushOperations, precondition_layout, MuxedAccount.bytes, pushMuxed, List.append_assoc]
    · simp only [Envelope.fields, TransactionV1.fields, list, memoFields, entries, BuildArgs.fields,
        transactionEntries, operationEntries, List.length_map]
      rfl
  | feeBump ops innerSource fee innerSeq numInnerSignatures numOuterSignatures =>
    obtain ⟨operations, length, bytes, list⟩ := operations_layout ops supported
    obtain ⟨innerSigned, innerEntries⟩ := signatures_layout 0xbb numInnerSignatures
    obtain ⟨signed, entries⟩ := signatures_layout 0xbb numOuterSignatures
    refine ⟨.feeBump (.ed25519 (repeated 0x33 32)) fee
      ⟨.ed25519 innerSource, 100, innerSeq, .none, .none, operations, 0⟩ (signaturesOf 0xbb numInnerSignatures)
      0 0 (signaturesOf 0xbb numOuterSignatures),
      ⟨by rw [length]; exact few, length_signaturesOf _ _, length_signaturesOf _ _⟩, ?_, ?_⟩
    · simp only [Envelope.bytes, TransactionV1.bytes, operationsBytes, length, bytes, innerSigned, signed, build,
        pushOperations, Preconditions.bytes, pushPreconditions, Memo.bytes, pushMemo, MuxedAccount.bytes,
        pushMuxed, List.append_assoc]
    · simp only [Envelope.fields, TransactionV1.fields, list, innerEntries, entries, BuildArgs.fields,
        transactionEntries, operationEntries, List.length_map]
      rfl

/-- The decoder returns the dictionary of every envelope that the encoder writes from at most a hundred
operations it supports, and reads it to the last byte. -/
theorem decode_encode (args : BuildArgs) (supported : ∀ op ∈ args.ops, op.op.Supported)
    (few : args.ops.length ≤ 100) :
    parseTransactionEnvelopeBytes (build args) = .ok args.fields ∧
      (decodeTransactionEnvelope ⟨build args, 0⟩).2.pos = (build args).length := by
  obtain ⟨envelope, sized, bytes, fields⟩ := envelope_layout args supported few
  have parsed := envelope.parse sized
  rwa [bytes, fields] at parsed

/-- An envelope with one operation of each of two types and a signature. -/
def sampleArgs : BuildArgs :=
  .v1 [⟨none, .payment (repeated 0x44 32) none none 1000000⟩, ⟨some (repeated 0x55 32), .bumpSequence 12345⟩]
    (repeated 0x22 32) 100 4321 .none .none 1

/-- An envelope with a payment. -/
theorem decode_encode_sample :
    parseTransactionEnvelopeBytes (build sampleArgs) = .ok sampleArgs.fields ∧
      (decodeTransactionEnvelope ⟨build sampleArgs, 0⟩).2.pos = (build sampleArgs).length := by
  refine decode_encode sampleArgs ?_ (by decide)
  intro op mem
  rcases List.mem_cons.1 mem with rfl | mem
  · trivial
  · rcases List.mem_cons.1 mem with rfl | mem
    · trivial
    · exact absurd mem List.not_mem_nil

/-- The decoder stops at `INVOKE_HOST_FUNCTION`, which the encoder writes, and refuses an array of more than
a hundred operations. -/
theorem decode_encode_fails :
    (parseTransactionEnvelopeBytes (build (.v1 [⟨none, .invokeHostFunction⟩] (repeated 0x22 32) 100 4321
      .none .none 0))).toOption.map decodeComplete = some false ∧
    (parseTransactionEnvelopeBytes (build (.v1 (List.replicate 101 ⟨none, .inflation⟩) (repeated 0x22 32) 100 4321
      .none .none 0))).toOption.map decodeComplete = none := by
  constructor
  · decide +kernel
  · decide +kernel

end StellarFlow.Horizon
