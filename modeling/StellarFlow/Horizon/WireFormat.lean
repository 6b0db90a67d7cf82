import StellarFlow.Horizon.Layout

/-!
# The published wire format

Transaction envelopes as `Stellar-transaction.x` writes them, for the operations that `horizon_xdr.py` has a
reader for. `bytes` is the published format and does not follow the decoder; `fields` describes a value in the
words of the decoder's dictionaries. An account id and an asset's issuer are a key behind the discriminant of
its type, and the extension of a transaction is the number 0.
-/

namespace StellarFlow.Horizon.Wire
open TextCodec Py

/-- `AccountID`. -/
def accountId (key : Hash32) : List UInt8 := Xenc.int 0 ++ key.1

/-- The extensions that hold nothing. -/
def ext : List UInt8 := Xenc.int 0

/-- `Asset`. -/
inductive Asset where
  | native
  | credit4 (code : Opaque 4) (issuer : Hash32)
  | credit12 (code : Opaque 12) (issuer : Hash32)

namespace Asset

def bytes : Asset → List UInt8
  | native => Xenc.int 0
  | credit4 code issuer => Xenc.int 1 ++ (code.1 ++ accountId issuer)
  | credit12 code issuer => Xenc.int 2 ++ (code.1 ++ accountId issuer)

/-- The asset with its entries, as the layout of the decoder has it. -/
def layout : Asset → Horizon.Asset
  | native => .native
  | credit4 code issuer => .credit4 code issuer
  | credit12 code issuer => .credit12 code issuer

def fields (asset : Asset) : Fields := asset.layout.fields

end Asset

/-- `ChangeTrustAsset`. -/
inductive ChangeTrustAsset where
  | asset (asset : Asset)
  | poolShare (assetA assetB : Asset) (fee : Int32)

namespace ChangeTrustAsset

/-- A pool is given by its parameters, of which there is one type. -/
def bytes : ChangeTrustAsset → List UInt8
  | asset line => line.bytes
  | poolShare assetA assetB fee => Xenc.int 3 ++ (Xenc.int 0 ++ (assetA.bytes ++ (assetB.bytes ++ Xenc.int fee)))

def fields : ChangeTrustAsset → Fields
  | asset line => line.fields
  | poolShare assetA assetB fee => [("type", .str "pool_share"), ("asset_a", .dict assetA.fields),
      ("asset_b", .dict assetB.fields), ("fee", .int fee.toInt)]

end ChangeTrustAsset

/-- `TimeBounds`. -/
structure TimeBounds where
  minTime : UInt64
  maxTime : UInt64

def TimeBounds.bytes (bounds : TimeBounds) : List UInt8 := Xenc.ulong bounds.minTime ++ Xenc.ulong bounds.maxTime

/-- `SignerKey`. -/
inductive SignerKey where
  | plain (key : Horizon.SignerKey)
  | signedPayload (key : Hash32) (payload : VarOpaque 64)

namespace SignerKey

def bytes : SignerKey → List UInt8
  | plain (.ed25519 key) => Xenc.int 0 ++ key.1
  | plain (.preAuthTx hash) => Xenc.int 1 ++ hash.1
  | plain (.hashX hash) => Xenc.int 2 ++ hash.1
  | signedPayload key payload => Xenc.int 3 ++ (key.1 ++ Xenc.varOpaque payload.1)

def fields : SignerKey → Fields
  | plain key => Signer.keyFields key
  | signedPayload key payload => [("key_type", .str "KEY_TYPE_ED25519_SIGNED_PAYLOAD"),
      ("key", .str (address key)), ("payload", .str (hex payload.1))]

end SignerKey

/-- `Preconditions`. -/
inductive Preconditions where
  | none
  | time (bounds : TimeBounds)
  | v2 (timeBounds : Option TimeBounds) (ledgerBounds : Option LedgerBounds) (minSeqNum : Option Int64)
      (minSeqAge : UInt64) (minSeqLedgerGap : UInt32) (extraSigners : List SignerKey)
      (few : extraSigners.length ≤ 2)

def Preconditions.bytes : Preconditions → List UInt8
  | none => Xenc.int 0
  | time bounds => Xenc.int 1 ++ bounds.bytes
  | v2 timeBounds ledgerBounds minSeqNum minSeqAge gap extraSigners _ =>
    Xenc.int 2 ++ (Xenc.optional TimeBounds.bytes timeBounds ++ (Xenc.optional LedgerBounds.bytes ledgerBounds ++
      (Xenc.optional Xenc.hyper minSeqNum ++ (Xenc.ulong minSeqAge ++ (Xenc.uint gap ++
      (Xenc.uint (UInt32.ofNat extraSigners.length) ++ extraSigners.flatMap SignerKey.bytes))))))

/-- `Memo`. -/
inductive Memo where
  | none
  | text (content : VarOpaque 28)
  | id (number : UInt64)
  | hash (digest : Hash32)
  | retHash (digest : Hash32)

/-- A short byte string among those that a reader accepts. -/
def widen {n : ℕ} (small : n ≤ 2147483647) (data : VarOpaque n) : VarBytes := ⟨data.1, le_trans data.2 small⟩

namespace Memo

def bytes : Memo → List UInt8
  | none => Xenc.int 0
  | text content => Xenc.int 1 ++ Xenc.varOpaque content.1
  | id number => Xenc.int 2 ++ Xenc.ulong number
  | hash digest => Xenc.int 3 ++ digest.1
  | retHash digest => Xenc.int 4 ++ digest.1

def fields : Memo → Fields
  | none => [("type", .str "MEMO_NONE")]
  | text content => [("type", .str "MEMO_TEXT"), ("value", .str (decodeUtf8 content.1))]
  | id number => [("type", .str "MEMO_ID"), ("value", .str (toString number.toNat))]
  | hash digest => [("type", .str "MEMO_HASH"), ("value", .str (hex digest.1))]
  | retHash digest => [("type", .str "MEMO_RETURN"), ("value", .str (hex digest.1))]

end Memo

/-- `Signer`. -/
structure Signer where
  key : SignerKey
  weight : UInt32

namespace Signer

def bytes (signer : Signer) : List UInt8 := signer.key.bytes ++ Xenc.uint signer.weight

def fields (signer : Signer) : Fields := signer.key.fields ++ [("weight", .int signer.weight.toNat)]

end Signer

/-- `SetOptionsOp`. -/
structure SetOptions where
  inflationDest : Option Hash32
  clearFlags : Option UInt32
  setFlags : Option UInt32
  masterWeight : Option UInt32
  lowThreshold : Option UInt32
  medThreshold : Option UInt32
  highThreshold : Option UInt32
  homeDomain : Option (VarOpaque 32)
  signer : Option Signer

namespace SetOptions

def bytes (o : SetOptions) : List UInt8 :=
  Xenc.optional accountId o.inflationDest ++ (Xenc.optional Xenc.uint o.clearFlags ++
    (Xenc.optional Xenc.uint o.setFlags ++ (Xenc.optional Xenc.uint o.masterWeight ++
    (Xenc.optional Xenc.uint o.lowThreshold ++ (Xenc.optional Xenc.uint o.medThreshold ++
    (Xenc.optional Xenc.uint o.highThreshold ++ (Xenc.optional (fun text => Xenc.varOpaque text.1) o.homeDomain ++
    Xenc.optional Signer.bytes o.signer)))))))

def fields (o : SetOptions) : Fields :=
  [("inflation_dest", optionalDict (o.inflationDest.map fun key => (MuxedAccount.ed25519 key).fields)),
    ("clear_flags", optionalInt (o.clearFlags.map UInt32.toNat)),
    ("set_flags", optionalInt (o.setFlags.map UInt32.toNat)),
    ("master_weight", optionalInt (o.masterWeight.map UInt32.toNat)),
    ("low_threshold", optionalInt (o.lowThreshold.map UInt32.toNat)),
    ("med_threshold", optionalInt (o.medThreshold.map UInt32.toNat)),
    ("high_threshold", optionalInt (o.highThreshold.map UInt32.toNat)),
    ("home_domain", optionalStr (o.homeDomain.map fun text => decodeUtf8 text.1)),
    ("signer", optionalDict (o.signer.map Signer.fields))]

end SetOptions

/-- The bodies of the operations that the decoder has a reader for. -/
inductive OperationBody where
  | createAccount (destination : Hash32) (startingBalance : Int64)
  | payment (destination : MuxedAccount) (asset : Asset) (amount : Int64)
  | manageSellOffer (selling buying : Asset) (amount : Int64) (price : Price) (offerId : Int64)
  | createPassiveSellOffer (selling buying : Asset) (amount : Int64) (price : Price)
  | setOptions (options : SetOptions)
  | changeTrust (line : ChangeTrustAsset) (limit : Int64)
  | accountMerge (destination : MuxedAccount)
  | inflation
  | manageData (name : VarOpaque 64) (value : Option (VarOpaque 64))
  | bumpSequence (bumpTo : Int64)
  | manageBuyOffer (selling buying : Asset) (buyAmount : Int64) (price : Price) (offerId : Int64)
  | beginSponsoring (sponsored : Hash32)
  | endSponsoring
  | clawback (asset : Asset) (source : MuxedAccount) (amount : Int64)
  | liquidityPoolDeposit (pool : Hash32) (maxAmountA maxAmountB : Int64) (minPrice maxPrice : Price)
  | liquidityPoolWithdraw (pool : Hash32) (amount minAmountA minAmountB : Int64)
  | extendFootprintTtl (extendTo : UInt32)
  | restoreFootprint

namespace OperationBody

/-- `OperationType`. -/
def opType : OperationBody → Int32
  | createAccount .. => 0
  | payment .. => 1
  | manageSellOffer .. => 3
  | createPassiveSellOffer .. => 4
  | setOptions .. => 5
  | changeTrust .. => 6
  | accountMerge .. => 8
  | inflation => 9
  | manageData .. => 10
  | bumpSequence .. => 11
  | manageBuyOffer .. => 12
  | beginSponsoring .. => 16
  | endSponsoring => 17
  | clawback .. => 19
  | liquidityPoolDeposit .. => 22
  | liquidityPoolWithdraw .. => 23
  | extendFootprintTtl .. => 25
  | restoreFootprint => 26

def bytes : OperationBody → List UInt8
  | createAccount destination balance => accountId destination ++ Xenc.hyper balance
  | payment destination asset amount => destination.bytes ++ (asset.bytes ++ Xenc.hyper amount)
  | manageSellOffer selling buying amount price offerId =>
    selling.bytes ++ (buying.bytes ++ (Xenc.hyper amount ++ (price.bytes ++ Xenc.hyper offerId)))
  | createPassiveSellOffer selling buying amount price =>
    selling.bytes ++ (buying.bytes ++ (Xenc.hyper amount ++ price.bytes))
  | setOptions options => options.bytes
  | changeTrust line limit => line.bytes ++ Xenc.hyper limit
  | accountMerge destination => destination.bytes
  | inflation => []
  | manageData name value => Xenc.varOpaque name.1 ++ Xenc.optional (fun data => Xenc.varOpaque data.1) value
  | bumpSequence bumpTo => Xenc.hyper bumpTo
  | manageBuyOffer selling buying buyAmount price offerId =>
    selling.bytes ++ (buying.bytes ++ (Xenc.hyper buyAmount ++ (price.bytes ++ Xenc.hyper offerId)))
  | beginSponsoring sponsored => accountId sponsored
  | endSponsoring => []
  | clawback asset source amount => asset.bytes ++ (source.bytes ++ Xenc.hyper amount)
  | liquidityPoolDeposit pool maxAmountA maxAmountB minPrice maxPrice =>
    pool.1 ++ (Xenc.hyper maxAmountA ++ (Xenc.hyper maxAmountB ++ (minPrice.bytes ++ maxPrice.bytes)))
  | liquidityPoolWithdraw pool amount minAmountA minAmountB =>
    pool.1 ++ (Xenc.hyper amount ++ (Xenc.hyper minAmountA ++ Xenc.hyper minAmountB))
  | extendFootprintTtl extendTo => ext ++ Xenc.uint extendTo
  | restoreFootprint => ext

/-- The entries of the two operations on an offer that has an id. -/
def offerFields (selling buying : Asset) (amount : Int64) (price : Price) (offerId : Int64) : Fields :=
  [("selling", .dict selling.fields), ("buying", .dict buying.fields), ("amount", .int amount.toInt),
    ("price", .dict price.fields), ("offer_id", .int offerId.toInt)]

def fields : OperationBody → Fields
  | createAccount destination balance =>
    [("destination", .str (address destination)), ("starting_balance", .int balance.toInt)]
  | payment destination asset amount =>
    [("destination", .dict destination.fields), ("asset", .dict asset.fields), ("amount", .int amount.toInt)]
  | manageSellOffer selling buying amount price offerId => offerFields selling buying amount price offerId
  | createPassiveSellOffer selling buying amount price =>
    [("selling", .dict selling.fields), ("buying", .dict buying.fields), ("amount", .int amount.toInt),
      ("price", .dict price.fields)]
  | setOptions options => options.fields
  | changeTrust line limit => [("line", .dict line.fields), ("limit", .int limit.toInt)]
  | accountMerge destination => [("destination", .dict destination.fields)]
  | inflation => []
  | manageData name value =>
    [("name", .str (decodeUtf8 name.1)), ("value", optionalStr (value.map fun data => hex data.1))]
  | bumpSequence bumpTo => [("bump_to", .int bumpTo.toInt)]
  | manageBuyOffer selling buying buyAmount price offerId => offerFields selling buying buyAmount price offerId
  | beginSponsoring sponsored => [("sponsored_id", .dict (MuxedAccount.ed25519 sponsored).fields)]
  | endSponsoring => []
  | clawback asset source amount =>
    [("asset", .dict asset.fields), ("from", .dict source.fields), ("amount", .int amount.toInt)]
  | liquidityPoolDeposit pool maxAmountA maxAmountB minPrice maxPrice =>
    [("liquidity_pool_id", .str (hex pool.1)), ("max_amount_a", .int maxAmountA.toInt),
      ("max_amount_b", .int maxAmountB.toInt), ("min_price", .dict minPrice.fields),
      ("max_price", .dict maxPrice.fields)]
  | liquidityPoolWithdraw pool amount minAmountA minAmountB =>
    [("liquidity_pool_id", .str (hex pool.1)), ("amount", .int amount.toInt),
      ("min_amount_a", .int minAmountA.toInt), ("min_amount_b", .int minAmountB.toInt)]
  | extendFootprintTtl extendTo => [("extend_to", .int extendTo.toNat)]
  | restoreFootprint => []

end OperationBody

/-- `Operation`. -/
structure Operation where
  source : Option MuxedAccount
  body : OperationBody

namespace Operation

def bytes (operation : Operation) : List UInt8 :=
  Xenc.optional MuxedAccount.bytes operation.source ++ (Xenc.int operation.body.opType ++ operation.body.bytes)

def fields (operation : Operation) : Fields :=
  operationFields operation.body.opType.toInt (operation.source.map MuxedAccount.fields) operation.body.fields

end Operation

/-- `operations<100>`. -/
abbrev Operations := { list : List Operation // list.length ≤ 100 }

namespace Operations

def bytes (operations : Operations) : List UInt8 :=
  Xenc.uint (UInt32.ofNat operations.1.length) ++ operations.1.flatMap Operation.bytes

def entries (operations : Operations) : Json := .list (operations.1.map fun operation => .dict operation.fields)

end Operations

/-- `DecoratedSignature`. -/
structure DecoratedSignature where
  hint : Opaque 4
  signature : VarOpaque 64

def DecoratedSignature.bytes (signature : DecoratedSignature) : List UInt8 :=
  signature.hint.1 ++ Xenc.varOpaque signature.signature.1

/-- `signatures<20>`. -/
abbrev Signatures := { list : List DecoratedSignature // list.length ≤ 20 }

def Signatures.bytes (signatures : Signatures) : List UInt8 :=
  Xenc.uint (UInt32.ofNat signatures.1.length) ++ signatures.1.flatMap DecoratedSignature.bytes

/-- `TransactionV0`. -/
structure TransactionV0 where
  source : Hash32
  fee : UInt32
  sequence : Int64
  timeBounds : Option TimeBounds
  memo : Memo
  operations : Operations

def TransactionV0.bytes (tx : TransactionV0) : List UInt8 :=
  tx.source.1 ++ (Xenc.uint tx.fee ++ (Xenc.hyper tx.sequence ++
    (Xenc.optional TimeBounds.bytes tx.timeBounds ++ (tx.memo.bytes ++ (tx.operations.bytes ++ ext)))))

/-- `Transaction`. -/
structure Transaction where
  source : MuxedAccount
  fee : UInt32
  sequence : Int64
  preconditions : Preconditions
  memo : Memo
  operations : Operations

def Transaction.bytes (tx : Transaction) : List UInt8 :=
  tx.source.bytes ++ (Xenc.uint tx.fee ++ (Xenc.hyper tx.sequence ++ (tx.preconditions.bytes ++
    (tx.memo.bytes ++ (tx.operations.bytes ++ ext)))))

/-- `TransactionEnvelope`. -/
inductive Envelope where
  | v0 (tx : TransactionV0) (signatures : Signatures)
  | v1 (tx : Transaction) (signatures : Signatures)
  | feeBump (feeSource : MuxedAccount) (fee : Int64) (inner : Transaction) (innerSignatures : Signatures)
      (signatures : Signatures)

def Envelope.bytes : Envelope → List UInt8
  | v0 tx signatures => Xenc.int 0 ++ (tx.bytes ++ signatures.bytes)
  | v1 tx signatures => Xenc.int 2 ++ (tx.bytes ++ signatures.bytes)
  | feeBump feeSource fee inner innerSignatures signatures =>
    Xenc.int 5 ++ (feeSource.bytes ++ (Xenc.hyper fee ++ (Xenc.int 2 ++ (inner.bytes ++
      (innerSignatures.bytes ++ (ext ++ signatures.bytes))))))

end StellarFlow.Horizon.Wire
