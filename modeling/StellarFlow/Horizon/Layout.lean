import StellarFlow.Horizon.Decoder

/-!
# The layout that the decoder reads

The values that `horizon_xdr.py` can decode, the bytes it expects of each (`bytes`) and the dictionary it
makes of each (`fields`). The lemmas `reads` say that every decoder reads exactly the bytes of a value, so
that an encoder can be compared with the decoder by comparing its bytes with this layout.
-/

namespace StellarFlow.Horizon
open TextCodec XdrReader Py

/-- A public key, a hash or the id of a liquidity pool. -/
abbrev Hash32 := Opaque 32

/-- A text or data value of a length that a reader accepts. -/
abbrev VarBytes := VarOpaque 2147483647

/-- The address of a public key. -/
def address (key : Hash32) : String := encodeCheck accountVersionByte key.1

/-- A key is read as its address. -/
lemma reads_address (key : Hash32) : Reads (Parser.lift (ed25519AccountId key.1)) [] (address key) := by
  refine .lift ?_
  rw [ed25519AccountId, if_neg (not_not_intro key.2)]
  rfl

/-- Bytes of variable length are read back. -/
lemma VarBytes.reads (data : VarBytes) : Reads (readVarOpaque none) (Xenc.varOpaque data.1) data.1 :=
  reads_varOpaque (Nat.lt_succ_of_le data.2) (by simp)

/-- As a text they are decoded. -/
lemma VarBytes.readsString (data : VarBytes) : Reads readString (Xenc.varOpaque data.1) (decodeUtf8 data.1) :=
  reads_string (Nat.lt_succ_of_le data.2)

/-- An account, with an id of the owner's own choice in the second case. -/
inductive MuxedAccount where
  | ed25519 (key : Hash32)
  | muxed (id : UInt64) (key : Hash32)

namespace MuxedAccount

def bytes : MuxedAccount → List UInt8
  | ed25519 key => Xenc.int 0 ++ key.1
  | muxed id key => Xenc.int 256 ++ (Xenc.ulong id ++ key.1)

def fields : MuxedAccount → Fields
  | ed25519 key => [("key_type", .str "KEY_TYPE_ED25519"), ("address", .str (address key)),
      ("ed25519", .str (hex key.1))]
  | muxed id key => [("key_type", .str "KEY_TYPE_MUXED_ED25519"), ("address", .str (address key)),
      ("muxed_id", .int id.toNat), ("med25519", .str ("M" ++ address key)), ("ed25519", .str (hex key.1))]

/-- The address in the dictionary. -/
def accountId : MuxedAccount → String
  | ed25519 key => address key
  | muxed _ key => address key

/-- The bytes of an account are read as its entries. -/
lemma reads (account : MuxedAccount) : Reads decodeMuxedAccount account.bytes account.fields := by
  cases account with
  | ed25519 key =>
    refine (reads_int 0).bind ?_
    rw [if_pos (by decide)]
    exact (reads_fixed key).last ((reads_address key).pass (.pure _))
  | muxed id key =>
    refine (reads_int 256).bind ?_
    rw [if_neg (by decide), if_pos (by decide)]
    exact (reads_ulong id).bind ((reads_fixed key).last ((reads_address key).pass (.pure _)))

/-- The entries of an account have its address. -/
lemma get?_address (account : MuxedAccount) :
    Json.ofOption (Json.get? account.fields "address") = .str account.accountId := by
  cases account with
  | ed25519 key => rfl
  | muxed id key => rfl

end MuxedAccount

/-- An asset; the code of a credit asset is padded with NUL bytes. -/
inductive Asset where
  | native
  | credit4 (code : Opaque 4) (issuer : Hash32)
  | credit12 (code : Opaque 12) (issuer : Hash32)
  | poolShare (pool : Hash32)

namespace Asset

def bytes : Asset → List UInt8
  | native => Xenc.int 0
  | credit4 code issuer => Xenc.int 1 ++ (code.1 ++ issuer.1)
  | credit12 code issuer => Xenc.int 2 ++ (code.1 ++ issuer.1)
  | poolShare pool => Xenc.int 3 ++ pool.1

def creditFields (type : String) (code : List UInt8) (issuer : Hash32) : Fields :=
  [("type", .str type), ("code", .str (decodeAscii (rstrip code))), ("issuer", .str (address issuer))]

def fields : Asset → Fields
  | native => [("type", .str "native"), ("code", .str "XLM"), ("issuer", .none)]
  | credit4 code issuer => creditFields "credit_alphanum4" code.1 issuer
  | credit12 code issuer => creditFields "credit_alphanum12" code.1 issuer
  | poolShare pool => [("type", .str "pool_share"), ("liquidity_pool_id", .str (hex pool.1))]

/-- The bytes of a credit are read as its entries. -/
lemma reads_credit (type : String) {width : ℕ} (code : Opaque width) (issuer : Hash32) :
    Reads (decodeCredit type width) (code.1 ++ issuer.1) (creditFields type code.1 issuer) :=
  (reads_fixed code).bind ((reads_fixed issuer).last ((reads_address issuer).pass (.pure _)))

/-- The bytes of an asset are read as its entries. -/
lemma reads (asset : Asset) : Reads decodeAsset asset.bytes asset.fields := by
  cases asset with
  | native =>
    refine (reads_int 0).last ?_
    rw [if_pos (by decide)]
    exact .pure _
  | credit4 code issuer =>
    refine (reads_int 1).bind ?_
    rw [if_neg (by decide), if_pos (by decide)]
    exact reads_credit _ code issuer
  | credit12 code issuer =>
    refine (reads_int 2).bind ?_
    rw [if_neg (by decide), if_neg (by decide), if_pos (by decide)]
    exact reads_credit _ code issuer
  | poolShare pool =>
    refine (reads_int 3).bind ?_
    rw [if_neg (by decide), if_neg (by decide), if_neg (by decide), if_pos (by decide)]
    exact (reads_fixed pool).last (.pure _)

end Asset

/-- A fraction. -/
structure Price where
  n : Int32
  d : Int32

namespace Price

def bytes (price : Price) : List UInt8 := Xenc.int price.n ++ Xenc.int price.d

def fields (price : Price) : Fields := [("n", .int price.n.toInt), ("d", .int price.d.toInt)]

/-- The bytes of a price are read as its entries. -/
lemma reads (price : Price) : Reads decodePrice price.bytes price.fields :=
  (reads_int price.n).bind ((reads_int price.d).last (.pure _))

end Price

/-- The period in which a transaction is valid. -/
structure TimeBounds where
  minTime : Int64
  maxTime : Int64

namespace TimeBounds

def bytes (bounds : TimeBounds) : List UInt8 := Xenc.hyper bounds.minTime ++ Xenc.hyper bounds.maxTime

def fields (bounds : TimeBounds) : Fields :=
  [("min_time", .int bounds.minTime.toInt), ("max_time", .int bounds.maxTime.toInt)]

/-- The bytes of time bounds are read as their entries. -/
lemma reads (bounds : TimeBounds) : Reads decodeTimeBounds bounds.bytes bounds.fields :=
  (reads_hyper bounds.minTime).bind ((reads_hyper bounds.maxTime).last (.pure _))

end TimeBounds

/-- The ledgers in which a transaction is valid. -/
structure LedgerBounds where
  minLedger : UInt32
  maxLedger : UInt32

namespace LedgerBounds

def bytes (bounds : LedgerBounds) : List UInt8 := Xenc.uint bounds.minLedger ++ Xenc.uint bounds.maxLedger

def fields (bounds : LedgerBounds) : Fields :=
  [("min_ledger", .int bounds.minLedger.toNat), ("max_ledger", .int bounds.maxLedger.toNat)]

/-- The bytes of ledger bounds are read as their entries. -/
lemma reads (bounds : LedgerBounds) : Reads decodeLedgerBounds bounds.bytes bounds.fields :=
  (reads_uint bounds.minLedger).bind ((reads_uint bounds.maxLedger).last (.pure _))

end LedgerBounds

/-- The preconditions of a transaction as the decoder knows them. -/
inductive Preconditions where
  | none
  | time (bounds : TimeBounds)
  | v2 (timeBounds : Option TimeBounds) (ledgerBounds : Option LedgerBounds) (minSeqNum : Int32)
      (minSeqAge : Int64) (minSeqLedgerGap : UInt32) (extensionPoint : Int32)

namespace Preconditions

def bytes : Preconditions → List UInt8
  | none => Xenc.int 0
  | time bounds => Xenc.int 1 ++ bounds.bytes
  | v2 timeBounds ledgerBounds minSeqNum minSeqAge gap ext =>
    Xenc.int 2 ++ (Xenc.optional TimeBounds.bytes timeBounds ++ (Xenc.optional LedgerBounds.bytes ledgerBounds ++
      (Xenc.int minSeqNum ++ (Xenc.hyper minSeqAge ++ (Xenc.uint gap ++ Xenc.int ext)))))

def fields : Preconditions → Fields
  | none => [("type", .str "PRECOND_NONE")]
  | time bounds => [("type", .str "PRECOND_TIME"), ("time_bounds", .dict bounds.fields)]
  | v2 timeBounds ledgerBounds minSeqNum minSeqAge gap ext =>
    [("type", .str "PRECOND_V2"), ("time_bounds", optionalDict (timeBounds.map TimeBounds.fields)),
      ("ledger_bounds", optionalDict (ledgerBounds.map LedgerBounds.fields)),
      ("min_seq_num", .int minSeqNum.toInt), ("min_seq_age", .int minSeqAge.toInt),
      ("min_seq_ledger_gap", .int gap.toNat), ("extension_point", .int ext.toInt)]

/-- The time bounds, where there are any. -/
def timeBounds : Preconditions → Option TimeBounds
  | none => Option.none
  | time bounds => some bounds
  | v2 timeBounds _ _ _ _ _ => timeBounds

/-- The bytes of preconditions are read as their entries. -/
lemma reads (preconditions : Preconditions) :
    Reads decodePreconditions preconditions.bytes preconditions.fields := by
  cases preconditions with
  | none =>
    refine (reads_int 0).last ?_
    rw [if_pos (by decide)]
    exact .pure _
  | time bounds =>
    refine (reads_int 1).bind ?_
    rw [if_neg (by decide), if_pos (by decide)]
    exact bounds.reads.last (.pure _)
  | v2 timeBounds ledgerBounds minSeqNum minSeqAge gap ext =>
    refine (reads_int 2).bind ?_
    rw [if_neg (by decide), if_neg (by decide), if_pos (by decide)]
    refine (reads_optional timeBounds fun bounds _ => bounds.reads).bind ?_
    refine (reads_optional ledgerBounds fun bounds _ => bounds.reads).bind ?_
    refine (reads_int minSeqNum).bind ((reads_hyper minSeqAge).bind ((reads_uint gap).bind ?_))
    exact (reads_int ext).last (.pure _)

/-- The entries of preconditions have their time bounds. -/
lemma get?_timeBounds (preconditions : Preconditions) :
    Json.ofOption (Json.get? preconditions.fields "time_bounds") =
      optionalDict (preconditions.timeBounds.map TimeBounds.fields) := by
  cases preconditions with
  | none => rfl
  | time bounds => rfl
  | v2 timeBounds ledgerBounds minSeqNum minSeqAge gap ext => rfl

end Preconditions

/-- The memo of a transaction. -/
inductive Memo where
  | none
  | text (content : VarBytes)
  | id (number : UInt64)
  | hash (digest : Hash32)
  | retHash (digest : Hash32)

namespace Memo

def bytes : Memo → List UInt8
  | none => Xenc.int 0
  | text content => Xenc.int 1 ++ Xenc.varOpaque content.1
  | id number => Xenc.int 2 ++ Xenc.ulong number
  | hash digest => Xenc.int 3 ++ digest.1
  | retHash digest => Xenc.int 4 ++ digest.1

def fields : Memo → Fields
  | none => [("type", .str "MEMO_NONE")]
  | text content => [("type", .str "MEMO_TEXT"), ("value", .str (decodeUtf8 content.1))]
  | id number => [("type", .str "MEMO_ID"), ("value", .str (toString number.toNat))]
  | hash digest => [("type", .str "MEMO_HASH"), ("value", .str (hex digest.1))]
  | retHash digest => [("type", .str "MEMO_RETURN"), ("value", .str (hex digest.1))]

/-- The bytes of a memo are read as its entries. -/
lemma reads (memo : Memo) : Reads decodeMemo memo.bytes memo.fields := by
  cases memo with
  | none =>
    refine (reads_int 0).last ?_
    rw [if_pos (by decide)]
    exact .pure _
  | text content =>
    refine (reads_int 1).bind ?_
    rw [if_neg (by decide), if_pos (by decide)]
    exact content.readsString.last (.pure _)
  | id number =>
    refine (reads_int 2).bind ?_
    rw [if_neg (by decide), if_neg (by decide), if_pos (by decide)]
    exact (reads_ulong number).last (.pure _)
  | hash digest =>
    refine (reads_int 3).bind ?_
    rw [if_neg (by decide), if_neg (by decide), if_neg (by decide), if_pos (by decide)]
    exact (reads_fixed digest).last (.pure _)
  | retHash digest =>
    refine (reads_int 4).bind ?_
    rw [if_neg (by decide), if_neg (by decide), if_neg (by decide), if_pos (by decide)]
    exact (reads_fixed digest).last (.pure _)

end Memo

/-- The key of a signer. -/
inductive SignerKey where
  | ed25519 (key : Hash32)
  | preAuthTx (hash : Hash32)
  | hashX (hash : Hash32)

/-- A signer of an account. -/
structure Signer where
  key : SignerKey
  weight : UInt32

namespace Signer

def bytes (signer : Signer) : List UInt8 :=
  match signer.key with
  | .ed25519 key => Xenc.int 0 ++ (key.1 ++ Xenc.uint signer.weight)
  | .preAuthTx hash => Xenc.int 1 ++ (hash.1 ++ Xenc.uint signer.weight)
  | .hashX hash => Xenc.int 2 ++ (hash.1 ++ Xenc.uint signer.weight)

def keyFields : SignerKey → Fields
  | .ed25519 key => [("key_type", .str "KEY_TYPE_ED25519"), ("key", .str (address key))]
  | .preAuthTx hash => [("key_type", .str "KEY_TYPE_PRE_AUTH_TX"), ("key", .str (hex hash.1))]
  | .hashX hash => [("key_type", .str "KEY_TYPE_HASH_X"), ("key", .str (hex hash.1))]

def fields (signer : Signer) : Fields := keyFields signer.key ++ [("weight", .int signer.weight.toNat)]

/-- The bytes of a signer are read as its entries. -/
lemma reads (signer : Signer) : Reads decodeSigner signer.bytes signer.fields := by
  obtain ⟨key, weight⟩ := signer
  cases key with
  | ed25519 key =>
    refine (reads_int 0).bind (Reads.bind (a := keyFields (.ed25519 key)) ?_ ?_)
    · exact (reads_fixed key).last ((reads_address key).pass (.pure _))
    · exact (reads_uint weight).last (.pure _)
  | preAuthTx hash =>
    refine (reads_int 1).bind (Reads.bind (a := keyFields (.preAuthTx hash)) ?_ ?_)
    · exact (reads_fixed hash).last (.pure _)
    · exact (reads_uint weight).last (.pure _)
  | hashX hash =>
    refine (reads_int 2).bind (Reads.bind (a := keyFields (.hashX hash)) ?_ ?_)
    · exact (reads_fixed hash).last (.pure _)
    · exact (reads_uint weight).last (.pure _)

end Signer

/-- The body of `SET_OPTIONS`. -/
structure SetOptions where
  inflationDest : Option MuxedAccount
  clearFlags : Option UInt32
  setFlags : Option UInt32
  masterWeight : Option UInt32
  lowThreshold : Option UInt32
  medThreshold : Option UInt32
  highThreshold : Option UInt32
  homeDomain : Option VarBytes
  signer : Option Signer

namespace SetOptions

def bytes (o : SetOptions) : List UInt8 :=
  Xenc.optional MuxedAccount.bytes o.inflationDest ++ (Xenc.optional Xenc.uint o.clearFlags ++
    (Xenc.optional Xenc.uint o.setFlags ++ (Xenc.optional Xenc.uint o.masterWeight ++
    (Xenc.optional Xenc.uint o.lowThreshold ++ (Xenc.optional Xenc.uint o.medThreshold ++
    (Xenc.optional Xenc.uint o.highThreshold ++ (Xenc.optional (fun text => Xenc.varOpaque text.1) o.homeDomain ++
    Xenc.optional Signer.bytes o.signer)))))))

def fields (o : SetOptions) : Fields :=
  [("inflation_dest", optionalDict (o.inflationDest.map MuxedAccount.fields)),
    ("clear_flags", optionalInt (o.clearFlags.map UInt32.toNat)),
    ("set_flags", optionalInt (o.setFlags.map UInt32.toNat)),
    ("master_weight", optionalInt (o.masterWeight.map UInt32.toNat)),
    ("low_threshold", optionalInt (o.lowThreshold.map UInt32.toNat)),
    ("med_threshold", optionalInt (o.medThreshold.map UInt32.toNat)),
    ("high_threshold", optionalInt (o.highThreshold.map UInt32.toNat)),
    ("home_domain", optionalStr (o.homeDomain.map fun text => decodeUtf8 text.1)),
    ("signer", optionalDict (o.signer.map Signer.fields))]

/-- The bytes of the options are read as their entries. -/
lemma reads (o : SetOptions) : Reads opSetOptions o.bytes o.fields := by
  have flag : ∀ x : Option UInt32,
      Reads (readOptional readUint) (Xenc.optional Xenc.uint x) (x.map UInt32.toNat) :=
    fun x => reads_optional x fun value _ => reads_uint value
  refine (reads_optional o.inflationDest fun account _ => account.reads).bind ?_
  refine (flag o.clearFlags).bind ((flag o.setFlags).bind ((flag o.masterWeight).bind ?_))
  refine (flag o.lowThreshold).bind ((flag o.medThreshold).bind ((flag o.highThreshold).bind ?_))
  refine (reads_optional o.homeDomain fun text _ => text.readsString).bind ?_
  exact (reads_optional o.signer fun signer _ => signer.reads).last (.pure _)

end SetOptions

/-- The three operations that the decoder reads as an offer. -/
inductive OfferKind where
  | sell
  | passive
  | buy

/-- The body of an operation. -/
inductive OperationBody where
  | createAccount (destination : VarBytes) (startingBalance : Int64)
  | payment (destination : MuxedAccount) (asset : Asset) (amount : Int64)
  | offer (kind : OfferKind) (selling buying : Asset) (amount : Int64) (price : Price) (offerId : Int64)
  | setOptions (options : SetOptions)
  | changeTrust (line : Asset) (limit : Int64)
  | accountMerge (destination : MuxedAccount)
  | inflation
  | manageData (name : VarBytes) (value : Option VarBytes)
  | bumpSequence (bumpTo : Int64)
  | beginSponsoring (sponsored : MuxedAccount)
  | endSponsoring
  | clawback (asset : Asset) (source : MuxedAccount) (amount : Int64)
  | liquidityPoolDeposit (pool : Hash32) (maxAmountA maxAmountB : Int64) (minPrice maxPrice : Price)
  | liquidityPoolWithdraw (pool : Hash32) (amount minAmountA minAmountB : Int64)
  | extendFootprintTtl (extendTo : UInt32)
  | restoreFootprint

namespace OperationBody

/-- The discriminant of the union. -/
def opType : OperationBody → Int32
  | createAccount .. => 0
  | payment .. => 1
  | offer .sell .. => 3
  | offer .passive .. => 4
  | setOptions .. => 5
  | changeTrust .. => 6
  | accountMerge .. => 8
  | inflation => 9
  | manageData .. => 10
  | bumpSequence .. => 11
  | offer .buy .. => 12
  | beginSponsoring .. => 16
  | endSponsoring => 17
  | clawback .. => 19
  | liquidityPoolDeposit .. => 22
  | liquidityPoolWithdraw .. => 23
  | extendFootprintTtl .. => 25
  | restoreFootprint => 26

def bytes : OperationBody → List UInt8
  | createAccount destination balance => Xenc.varOpaque destination.1 ++ Xenc.hyper balance
  | payment destination asset amount => destination.bytes ++ (asset.bytes ++ Xenc.hyper amount)
  | offer _ selling buying amount price offerId =>
    selling.bytes ++ (buying.bytes ++ (Xenc.hyper amount ++ (price.bytes ++ Xenc.hyper offerId)))
  | setOptions options => options.bytes
  | changeTrust line limit => line.bytes ++ Xenc.hyper limit
  | accountMerge destination => destination.bytes
  | inflation => []
  | manageData name value => Xenc.varOpaque name.1 ++ Xenc.optional (fun data => Xenc.varOpaque data.1) value
  | bumpSequence bumpTo => Xenc.hyper bumpTo
  | beginSponsoring sponsored => sponsored.bytes
  | endSponsoring => []
  | clawback asset source amount => asset.bytes ++ (source.bytes ++ Xenc.hyper amount)
  | liquidityPoolDeposit pool maxAmountA maxAmountB minPrice maxPrice =>
    pool.1 ++ (Xenc.hyper maxAmountA ++ (Xenc.hyper maxAmountB ++ (minPrice.bytes ++ maxPrice.bytes)))
  | liquidityPoolWithdraw pool amount minAmountA minAmountB =>
    pool.1 ++ (Xenc.hyper amount ++ (Xenc.hyper minAmountA ++ Xenc.hyper minAmountB))
  | extendFootprintTtl extendTo => Xenc.uint extendTo
  | restoreFootprint => []

def fields : OperationBody → Fields
  | createAccount destination balance =>
    [("destination", .str (decodeUtf8 destination.1)), ("starting_balance", .int balance.toInt)]
  | payment destination asset amount =>
    [("destination", .dict destination.fields), ("asset", .dict asset.fields), ("amount", .int amount.toInt)]
  | offer _ selling buying amount price offerId =>
    [("selling", .dict selling.fields), ("buying", .dict buying.fields), ("amount", .int amount.toInt),
      ("price", .dict price.fields), ("offer_id", .int offerId.toInt)]
  | setOptions options => options.fields
  | changeTrust line limit => [("line", .dict line.fields), ("limit", .int limit.toInt)]
  | accountMerge destination => [("destination", .dict destination.fields)]
  | inflation => []
  | manageData name value =>
    [("name", .str (decodeUtf8 name.1)), ("value", optionalStr (value.map fun data => hex data.1))]
  | bumpSequence bumpTo => [("bump_to", .int bumpTo.toInt)]
  | beginSponsoring sponsored => [("sponsored_id", .dict sponsored.fields)]
  | endSponsoring => []
  | clawback asset source amount =>
    [("asset", .dict asset.fields), ("from", .dict source.fields), ("amount", .int amount.toInt)]
  | liquidityPoolDeposit pool maxAmountA maxAmountB minPrice maxPrice =>
    [("liquidity_pool_id", .str (hex pool.1)), ("max_amount_a", .int maxAmountA.toInt),
      ("max_amount_b", .int maxAmountB.toInt), ("min_price", .dict minPrice.fields),
      ("max_price", .dict maxPrice.fields)]
  | liquidityPoolWithdraw pool amount minAmountA minAmountB =>
    [("liquidity_pool_id", .str (hex pool.1)), ("amount", .int amount.toInt),
      ("min_amount_a", .int minAmountA.toInt), ("min_amount_b", .int minAmountB.toInt)]
  | extendFootprintTtl extendTo => [("extend_to", .int extendTo.toNat)]
  | restoreFootprint => []

/-- Offers of all three kinds are read alike. -/
lemma reads_offer (kind : OfferKind) (selling buying : Asset) (amount : Int64) (price : Price) (offerId : Int64) :
    Reads opManageSellOffer (offer kind selling buying amount price offerId).bytes
      (offer kind selling buying amount price offerId).fields := by
  refine selling.reads.bind (buying.reads.bind ((reads_hyper amount).bind (price.reads.bind ?_)))
  exact (reads_hyper offerId).last (.pure _)

/-- The bytes of a body are read by the decoder of its type. -/
lemma reads (body : OperationBody) : Reads (decodeOperationBody body.opType.toInt) body.bytes body.fields := by
  cases body with
  | createAccount destination balance =>
    exact destination.readsString.bind ((reads_hyper balance).last (.pure _))
  | payment destination asset amount =>
    exact destination.reads.bind (asset.reads.bind ((reads_hyper amount).last (.pure _)))
  | offer kind selling buying amount price offerId =>
    cases kind with
    | sell => exact reads_offer .sell selling buying amount price offerId
    | passive => exact reads_offer .passive selling buying amount price offerId
    | buy => exact reads_offer .buy selling buying amount price offerId
  | setOptions options => exact options.reads
  | changeTrust line limit => exact line.reads.bind ((reads_hyper limit).last (.pure _))
  | accountMerge destination => exact destination.reads.last (.pure _)
  | inflation => exact .pure _
  | manageData name value =>
    refine name.readsString.bind ((reads_optional value fun data _ => data.reads).last ?_)
    cases value with
    | none => exact .pure _
    | some data => exact .pure _
  | bumpSequence bumpTo => exact (reads_hyper bumpTo).last (.pure _)
  | beginSponsoring sponsored => exact sponsored.reads.last (.pure _)
  | endSponsoring => exact .pure _
  | clawback asset source amount =>
    exact asset.reads.bind (source.reads.bind ((reads_hyper amount).last (.pure _)))
  | liquidityPoolDeposit pool maxAmountA maxAmountB minPrice maxPrice =>
    refine (reads_fixed pool).bind ((reads_hyper maxAmountA).bind ((reads_hyper maxAmountB).bind ?_))
    exact minPrice.reads.bind (maxPrice.reads.last (.pure _))
  | liquidityPoolWithdraw pool amount minAmountA minAmountB =>
    refine (reads_fixed pool).bind ((reads_hyper amount).bind ((reads_hyper minAmountA).bind ?_))
    exact (reads_hyper minAmountB).last (.pure _)
  | extendFootprintTtl extendTo => exact (reads_uint extendTo).last (.pure _)
  | restoreFootprint => exact .pure _

end OperationBody

/-- An operation with its own source account, where it has one. -/
structure Operation where
  source : Option MuxedAccount
  body : OperationBody

namespace Operation

def bytes (operation : Operation) : List UInt8 :=
  Xenc.optional MuxedAccount.bytes operation.source ++
    (Xenc.int operation.body.opType ++ operation.body.bytes)

def fields (operation : Operation) : Fields :=
  operationFields operation.body.opType.toInt (operation.source.map MuxedAccount.fields) operation.body.fields

/-- The bytes of an operation are read as its entries. -/
lemma reads (operation : Operation) : Reads decodeOperation operation.bytes operation.fields := by
  refine (reads_optional operation.source fun account _ => account.reads).bind ?_
  exact (reads_int _).bind (operation.body.reads.last (.pure _))

end Operation

/-- What is read is read in an attempt. -/
lemma reads_attempt {α : Type} {decoder : Decoder α} {bytes : List UInt8} {value : α}
    (reads : Reads decoder bytes value) : Reads (attempt decoder) bytes (some value) :=
  (reads.map some).handle _ _

/-- The operations are read one after the other. -/
lemma reads_operationsFrom (operations : List Operation) (index : ℕ) (before : List Json) :
    Reads (decodeOperationsFrom operations.length index before) (operations.flatMap Operation.bytes)
      (before ++ operations.map fun operation => .dict operation.fields, true, none) := by
  induction operations generalizing index before with
  | nil =>
    rw [List.map_nil, List.append_nil]
    exact .pure _
  | cons operation operations ih =>
    rw [List.flatMap_cons]
    refine (reads_attempt operation.reads).bind ?_
    have rest := ih (index + 1) (before ++ [.dict operation.fields])
    rw [List.append_assoc, List.singleton_append] at rest
    exact rest

/-- The bytes of an array of operations. -/
def operationsBytes (operations : List Operation) : List UInt8 :=
  Xenc.uint (UInt32.ofNat operations.length) ++ operations.flatMap Operation.bytes

/-- What the decoder makes of an array of operations. -/
def operationsList (operations : List Operation) : List Json :=
  operations.map fun operation => .dict operation.fields

/-- A hundred operations are read with their number. -/
lemma reads_operations {operations : List Operation} (few : operations.length ≤ 100) :
    Reads decodeOperations (operationsBytes operations) (operationsList operations, true, none) := by
  have count : (UInt32.ofNat operations.length).toNat = operations.length :=
    UInt32.toNat_ofNat_of_lt (lt_of_le_of_lt few (by decide))
  refine (reads_uint _).bind ?_
  rw [count, if_neg (by omega)]
  exact reads_operationsFrom operations 0 []

/-- The types of signature that carry nothing but the signature. -/
inductive SignatureKind where
  | ed25519
  | preAuthTx
  | hashX

/-- A signature with the last bytes of the key it is for. -/
inductive DecoratedSignature where
  | plain (hint : Opaque 4) (kind : SignatureKind) (signature : VarOpaque 64)
  | signedPayload (hint : Opaque 4) (key : Hash32) (payload : VarOpaque 64)

namespace DecoratedSignature

def bytes : DecoratedSignature → List UInt8
  | plain hint .ed25519 signature => hint.1 ++ (Xenc.int 0 ++ Xenc.varOpaque signature.1)
  | plain hint .preAuthTx signature => hint.1 ++ (Xenc.int 1 ++ Xenc.varOpaque signature.1)
  | plain hint .hashX signature => hint.1 ++ (Xenc.int 2 ++ Xenc.varOpaque signature.1)
  | signedPayload hint key payload => hint.1 ++ (Xenc.int 3 ++ (key.1 ++ Xenc.varOpaque payload.1))

def kindName : SignatureKind → String
  | .ed25519 => "SIGNATURE_KEY_TYPE_ED25519"
  | .preAuthTx => "SIGNATURE_KEY_TYPE_PRE_AUTH_TX"
  | .hashX => "SIGNATURE_KEY_TYPE_HASH_X"

def fields : DecoratedSignature → Fields
  | plain hint kind signature => [("hint", .str (hex hint.1)), ("type", .str (kindName kind)),
      ("signature", .str (String.ofList (b64encode signature.1)))]
  | signedPayload hint key payload => [("hint", .str (hex hint.1)),
      ("type", .str "SIGNATURE_KEY_TYPE_ED25519_SIGNED_PAYLOAD"), ("ed25519", .str (hex key.1)),
      ("payload", .str (hex payload.1))]

/-- A signature has at most 64 bytes, which are read back. -/
lemma reads_limited (data : VarOpaque 64) : Reads (readVarOpaque (some 64)) (Xenc.varOpaque data.1) data.1 := by
  have short := data.2
  refine reads_varOpaque (by omega) ?_
  rintro most ⟨⟩
  exact short

/-- The bytes of a decorated signature are read as its entries. -/
lemma reads (signature : DecoratedSignature) : Reads decodeSignature signature.bytes (.dict signature.fields) := by
  cases signature with
  | plain hint kind signature =>
    cases kind with
    | ed25519 => exact (reads_fixed hint).bind ((reads_int 0).bind ((reads_limited signature).last (.pure _)))
    | preAuthTx => exact (reads_fixed hint).bind ((reads_int 1).bind ((reads_limited signature).last (.pure _)))
    | hashX => exact (reads_fixed hint).bind ((reads_int 2).bind ((reads_limited signature).last (.pure _)))
  | signedPayload hint key payload =>
    refine (reads_fixed hint).bind ((reads_int 3).bind ?_)
    exact (reads_fixed key).bind ((reads_limited payload).last (.pure _))

end DecoratedSignature

/-- The bytes of an array of signatures. -/
def signaturesBytes (signatures : List DecoratedSignature) : List UInt8 :=
  Xenc.uint (UInt32.ofNat signatures.length) ++ signatures.flatMap DecoratedSignature.bytes

/-- What the decoder makes of an array of signatures. -/
def signaturesList (signatures : List DecoratedSignature) : List Json :=
  signatures.map fun signature => .dict signature.fields

/-- Signatures are read with their number. -/
lemma reads_signatures {signatures : List DecoratedSignature} (few : signatures.length < 2 ^ 32) :
    Reads decodeSignatures (signaturesBytes signatures) (signaturesList signatures) := by
  have count : (UInt32.ofNat signatures.length).toNat = signatures.length := UInt32.toNat_ofNat_of_lt few
  refine (reads_uint _).bind ?_
  rw [count]
  exact Reads.times fun signature _ => signature.reads

/-- A transaction of the first format. -/
structure TransactionV0 where
  source : Hash32
  fee : UInt32
  sequence : Int64
  timeBounds : Option TimeBounds
  memo : Memo
  operations : List Operation

namespace TransactionV0

def bytes (tx : TransactionV0) : List UInt8 :=
  tx.source.1 ++ (Xenc.uint tx.fee ++ (Xenc.hyper tx.sequence ++
    (Xenc.optional TimeBounds.bytes tx.timeBounds ++ (tx.memo.bytes ++ operationsBytes tx.operations))))

def fields (tx : TransactionV0) : Fields :=
  [("source_account", .str (address tx.source)), ("fee", .int tx.fee.toNat),
    ("sequence", .int tx.sequence.toInt), ("time_bounds", optionalDict (tx.timeBounds.map TimeBounds.fields)),
    ("memo", .dict tx.memo.fields), ("operations", .list (operationsList tx.operations)),
    ("operation_count", .int (operationsList tx.operations).length), ("decode_complete", .bool true),
    ("truncated_at", .none)]

/-- The bytes of a transaction of the first format are read as its entries. -/
lemma reads (tx : TransactionV0) (few : tx.operations.length ≤ 100) :
    Reads transactionV0 tx.bytes tx.fields := by
  refine (reads_fixed tx.source).bind ((reads_address tx.source).pass ?_)
  refine (reads_uint tx.fee).bind ((reads_hyper tx.sequence).bind ?_)
  refine (reads_optional tx.timeBounds fun bounds _ => bounds.reads).bind ?_
  exact tx.memo.reads.bind ((reads_operations few).last (.pure _))

end TransactionV0

/-- A transaction of the second format. -/
structure TransactionV1 where
  source : MuxedAccount
  fee : UInt32
  sequence : Int64
  preconditions : Preconditions
  memo : Memo
  operations : List Operation
  ext : Int32

namespace TransactionV1

def bytes (tx : TransactionV1) : List UInt8 :=
  tx.source.bytes ++ (Xenc.uint tx.fee ++ (Xenc.hyper tx.sequence ++ (tx.preconditions.bytes ++
    (tx.memo.bytes ++ (operationsBytes tx.operations ++ Xenc.int tx.ext)))))

def fields (tx : TransactionV1) : Fields :=
  [("source_account", .str tx.source.accountId), ("fee", .int tx.fee.toNat),
    ("sequence", .int tx.sequence.toInt), ("preconditions", .dict tx.preconditions.fields),
    ("time_bounds", optionalDict (tx.preconditions.timeBounds.map TimeBounds.fields)),
    ("memo", .dict tx.memo.fields), ("operations", .list (operationsList tx.operations)),
    ("operation_count", .int (operationsList tx.operations).length), ("decode_complete", .bool true),
    ("truncated_at", .none), ("extension_point", .int tx.ext.toInt)]

/-- The bytes of a transaction of the second format are read as its entries. -/
lemma reads (tx : TransactionV1) (few : tx.operations.length ≤ 100) :
    Reads transactionV1 tx.bytes tx.fields := by
  refine tx.source.reads.bind ((reads_uint tx.fee).bind ((reads_hyper tx.sequence).bind ?_))
  refine tx.preconditions.reads.bind (tx.memo.reads.bind ((reads_operations few).bind ?_))
  refine (reads_int tx.ext).last ?_
  rw [tx.source.get?_address, tx.preconditions.get?_timeBounds]
  exact .pure _

end TransactionV1

/-- The envelopes that the decoder reads. -/
inductive Envelope where
  | v0 (tx : TransactionV0) (signatures : List DecoratedSignature)
  | v1 (tx : TransactionV1) (signatures : List DecoratedSignature)
  | feeBump (feeSource : MuxedAccount) (fee : Int64) (inner : TransactionV1)
      (innerSignatures : List DecoratedSignature) (innerExt ext : Int32) (signatures : List DecoratedSignature)

namespace Envelope

def bytes : Envelope → List UInt8
  | v0 tx signatures => Xenc.int 0 ++ (tx.bytes ++ signaturesBytes signatures)
  | v1 tx signatures => Xenc.int 2 ++ (tx.bytes ++ signaturesBytes signatures)
  | feeBump feeSource fee inner innerSignatures innerExt ext signatures =>
    Xenc.int 5 ++ (feeSource.bytes ++ (Xenc.hyper fee ++ (Xenc.int 2 ++
      ((inner.bytes ++ (signaturesBytes innerSignatures ++ Xenc.int innerExt)) ++
        (Xenc.int ext ++ signaturesBytes signatures)))))

def fields : Envelope → Fields
  | v0 tx signatures => tx.fields ++ [("envelope_type", .str "ENVELOPE_TYPE_TX_V0"),
      ("signatures", .list (signaturesList signatures))]
  | v1 tx signatures => tx.fields ++ [("envelope_type", .str "ENVELOPE_TYPE_TX"),
      ("signatures", .list (signaturesList signatures))]
  | feeBump feeSource fee inner innerSignatures innerExt ext signatures =>
    [("envelope_type", .str "ENVELOPE_TYPE_TX_FEE_BUMP"), ("fee_source_account", .str feeSource.accountId),
      ("fee", .int fee.toInt),
      ("inner_transaction", .dict (inner.fields ++ [("envelope_type", .str "ENVELOPE_TYPE_TX"),
        ("signatures", .list (signaturesList innerSignatures)),
        ("envelope_extension_point", .int innerExt.toInt)])),
      ("extension_point", .int ext.toInt), ("signatures", .list (signaturesList signatures))]

/-- The arrays are no longer than their counts allow. -/
def WellSized : Envelope → Prop
  | v0 tx signatures => tx.operations.length ≤ 100 ∧ signatures.length < 2 ^ 32
  | v1 tx signatures => tx.operations.length ≤ 100 ∧ signatures.length < 2 ^ 32
  | feeBump _ _ inner innerSignatures _ _ signatures =>
    inner.operations.length ≤ 100 ∧ innerSignatures.length < 2 ^ 32 ∧ signatures.length < 2 ^ 32

/-- A transaction is read with the signatures behind it. -/
lemma reads_signed {transaction : Decoder Fields} {bytes : List UInt8} {tx : Fields} {name : String}
    (first : Reads transaction bytes tx) {signatures : List DecoratedSignature}
    (few : signatures.length < 2 ^ 32) (complete : decodeComplete (Json.set tx "envelope_type" (.str name)) = true) :
    Reads (decodeEnvelope transaction name) (bytes ++ signaturesBytes signatures)
      (Json.set (Json.set tx "envelope_type" (.str name)) "signatures" (.list (signaturesList signatures))) := by
  refine first.bind ?_
  simp only [complete, if_true]
  exact (reads_attempt (reads_signatures few)).last (.pure _)

/-- The inner transaction of a fee bump is read with its signatures. -/
lemma reads_inner (inner : TransactionV1) (signatures : List DecoratedSignature) (ext : Int32)
    (fewOperations : inner.operations.length ≤ 100) (few : signatures.length < 2 ^ 32) :
    Reads decodeInnerTransaction (inner.bytes ++ (signaturesBytes signatures ++ Xenc.int ext))
      (inner.fields ++ [("envelope_type", .str "ENVELOPE_TYPE_TX"),
        ("signatures", .list (signaturesList signatures)), ("envelope_extension_point", .int ext.toInt)]) := by
  refine (inner.reads fewOperations).bind ?_
  refine (reads_attempt (reads_signatures few)).bind ?_
  exact (reads_attempt (reads_int ext)).last (.pure _)

/-- The decoder reads every well-sized envelope of its layout, to the last byte. -/
lemma reads (envelope : Envelope) (sized : envelope.WellSized) :
    Reads decodeTransactionEnvelope envelope.bytes envelope.fields := by
  cases envelope with
  | v0 tx signatures => exact (reads_int 0).bind (reads_signed (tx.reads sized.1) sized.2 rfl)
  | v1 tx signatures => exact (reads_int 2).bind (reads_signed (tx.reads sized.1) sized.2 rfl)
  | feeBump feeSource fee inner innerSignatures innerExt ext signatures =>
    obtain ⟨fewOperations, fewInner, few⟩ := sized
    refine (reads_int 5).bind (feeSource.reads.bind ((reads_hyper fee).bind ((reads_int 2).bind ?_)))
    refine (reads_inner inner innerSignatures innerExt fewOperations fewInner).bind ?_
    refine Reads.last (a := (.int ext.toInt, .list (signaturesList signatures))) ?_ ?_
    · exact (reads_attempt (reads_int ext)).bind ((reads_attempt (reads_signatures few)).last (.pure _))
    · rw [feeSource.get?_address]
      exact .pure _

/-- The decoder does not look at what stands after an envelope. -/
lemma parse_append (envelope : Envelope) (sized : envelope.WellSized) (rest : List UInt8) :
    parseTransactionEnvelopeBytes (envelope.bytes ++ rest) = .ok envelope.fields := by
  have read := envelope.reads sized [] rest
  have nonempty : (envelope.bytes ++ rest).isEmpty = false := by
    cases envelope with
    | v0 tx signatures => rfl
    | v1 tx signatures => rfl
    | feeBump feeSource fee inner innerSignatures innerExt ext signatures => rfl
  rw [List.nil_append, List.length_nil] at read
  rw [parseTransactionEnvelopeBytes, nonempty, read]
  rfl

/-- A whole envelope is read to its end. -/
lemma parse (envelope : Envelope) (sized : envelope.WellSized) :
    parseTransactionEnvelopeBytes envelope.bytes = .ok envelope.fields ∧
      (decodeTransactionEnvelope ⟨envelope.bytes, 0⟩).2.pos = envelope.bytes.length := by
  have parsed := envelope.parse_append sized []
  have read := envelope.reads sized [] []
  rw [List.append_nil] at parsed
  rw [List.nil_append, List.append_nil, List.length_nil, Nat.zero_add] at read
  rw [parsed, read]
  exact ⟨rfl, rfl⟩

end Envelope

end StellarFlow.Horizon
