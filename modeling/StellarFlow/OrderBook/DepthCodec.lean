import StellarFlow.Lib.JavaScript
import StellarFlow.Lib.Memory

/-!
# Compressed depth maps

Model of `encodeOrderDepth` and `decodeOrderDepth` in `src/services/orderBookDepthCompression.ts`. The encoder checks
the fields of whatever object it gets; `Number`, `String` and the MessagePack library are parameters.

A depth map is transposed into columns, and a decimal is stored as a number exactly when printing the number gives the
text back, so reading the columns gives the levels again. The length in the header is that of the payload, so neither a
part of the bytes nor more of them is read.
-/

namespace StellarFlow.OrderBook
open Memory

/-- `Number` of a string and `String` of a number, and `encode` and `decode` of `@msgpack/msgpack`; `decode` may throw
an error with a message. -/
structure Libraries where
  number : String → Js.Number
  text : Js.Number → String
  encode : Js.Value → List UInt8
  decode : List UInt8 → Except String Js.Value

/-- `OrderBookDepthCodecError` with its message, and the `RangeError` of `writeUInt32BE`. -/
inductive DepthError where
  | codec (message : String)
  | range
  deriving DecidableEq

structure DepthLevel where
  price : String
  volume : String
  cumulativeVolume : String
  orderCount : Js.Number

structure OrderDepth where
  market : String
  tickSize : String
  bids : List DepthLevel
  asks : List DepthLevel
  generatedAt : String

/-- The object that a level is. -/
def DepthLevel.value (level : DepthLevel) : Js.Value :=
  .object [("price", .string level.price), ("volume", .string level.volume),
    ("cumulativeVolume", .string level.cumulativeVolume), ("orderCount", .number level.orderCount)]

/-- The object that a depth map is. -/
def OrderDepth.value (depth : OrderDepth) : Js.Value :=
  .object [("market", .string depth.market), ("tickSize", .string depth.tickSize),
    ("bids", .array (depth.bids.map DepthLevel.value)), ("asks", .array (depth.asks.map DepthLevel.value)),
    ("generatedAt", .string depth.generatedAt)]

variable (lib : Libraries)

def toEncodableText (value : Js.Value) (field : String) : Except DepthError String :=
  match value with
  | .string s => if s ≠ "" then .ok s else .error (.codec s!"{field} must be a non-empty decimal string")
  | .number (.finite x) => .ok (lib.text (.finite x))
  | _ => .error (.codec s!"{field} must be a non-empty decimal string")

def toOrderCount (value : Js.Value) (field : String) : Except DepthError Js.Number :=
  match value with
  | .number (.finite x) =>
    if x.den = 1 ∧ 0 ≤ x then .ok (.finite x) else .error (.codec s!"{field} must be a non-negative integer")
  | _ => .error (.codec s!"{field} must be a non-negative integer")

def encodeDecimal (value : String) : Js.Value :=
  match lib.number value with
  | .finite x => if lib.text (.finite x) = value then .number (.finite x) else .string value
  | _ => .string value

/-- The columns of `[prices, volumes, cumulativeVolumes, orderCounts]`. -/
structure Columns where
  prices : List Js.Value
  volumes : List Js.Value
  cumulativeVolumes : List Js.Value
  orderCounts : List Js.Value

def Columns.value (columns : Columns) : Js.Value :=
  .array [.array columns.prices, .array columns.volumes, .array columns.cumulativeVolumes, .array columns.orderCounts]

/-- The loop of `encodeSide`. -/
def encodeLevels (side : String) : ℕ → List Js.Value → Except DepthError Columns
  | _, [] => .ok ⟨[], [], [], []⟩
  | index, level :: levels => do
    let price ← toEncodableText lib (level.property "price") s!"{side}[{index}].price"
    let volume ← toEncodableText lib (level.property "volume") s!"{side}[{index}].volume"
    let cumulativeVolume ← toEncodableText lib (level.property "cumulativeVolume") s!"{side}[{index}].cumulativeVolume"
    let orderCount ← toOrderCount (level.property "orderCount") s!"{side}[{index}].orderCount"
    let rest ← encodeLevels side (index + 1) levels
    return ⟨encodeDecimal lib price :: rest.prices, encodeDecimal lib volume :: rest.volumes,
      encodeDecimal lib cumulativeVolume :: rest.cumulativeVolumes, .number orderCount :: rest.orderCounts⟩

def encodeSide (levels : Js.Value) (side : String) : Except DepthError Js.Value :=
  match levels with
  | .array levels => (encodeLevels lib side 0 levels).map Columns.value
  | _ => .error (.codec s!"{side} must be an array of depth levels")

def encodePayload (depth : Js.Value) : Except DepthError Js.Value := do
  if !depth.truthy || !depth.isObject then throw (.codec "depth must be an order book depth object")
  let market ← toEncodableText lib (depth.property "market") "market"
  let tickSize ← toEncodableText lib (depth.property "tickSize") "tickSize"
  let generatedAt ← toEncodableText lib (depth.property "generatedAt") "generatedAt"
  let bids ← encodeSide lib (depth.property "bids") "bids"
  let asks ← encodeSide lib (depth.property "asks") "asks"
  return .array [.string market, .string tickSize, .string generatedAt, bids, asks]

/-- `ORDER_BOOK_DEPTH_MAGIC`. -/
def magic : String := "SFD1"

/-- `HEADER_SIZE`. -/
def headerSize : ℕ := 10

/-- The header of a payload of some length. -/
def header (length : ℕ) : List UInt8 :=
  magic.toList.map (fun c => UInt8.ofNat c.toNat) ++ [1, 0] ++ pack .big 4 length

def encodeOrderDepth (depth : Js.Value) : Except DepthError (List UInt8) := do
  let payload := lib.encode (← encodePayload lib depth)
  if 2 ^ 32 ≤ payload.length then throw .range
  return header payload.length ++ payload

def decodeDecimal (value : Js.Value) (field : String) : Except DepthError String :=
  match value with
  | .number (.finite x) => .ok (lib.text (.finite x))
  | .number _ => .error (.codec s!"{field} is not a finite number")
  | .string s => if s ≠ "" then .ok s else .error (.codec s!"{field} must be a number or a decimal string")
  | _ => .error (.codec s!"{field} must be a number or a decimal string")

def decodeOrderCount (value : Js.Value) (field : String) : Except DepthError Js.Number := toOrderCount value field

def decodeText (value : Js.Value) (field : String) : Except DepthError String :=
  match value with
  | .string s => if s ≠ "" then .ok s else .error (.codec s!"{field} must be a non-empty string")
  | _ => .error (.codec s!"{field} must be a non-empty string")

def asColumn (value : Js.Value) (field : String) : Except DepthError (List Js.Value) :=
  match value with
  | .array items => .ok items
  | _ => .error (.codec s!"{field} must be an array")

/-- The loop of `decodeSide`; the columns have the same length. -/
def decodeLevels (side : String) :
    ℕ → List Js.Value → List Js.Value → List Js.Value → List Js.Value → Except DepthError (List DepthLevel)
  | index, price :: prices, volume :: volumes, cumulative :: cumulatives, count :: counts => do
    let price ← decodeDecimal lib price s!"{side}[{index}].price"
    let volume ← decodeDecimal lib volume s!"{side}[{index}].volume"
    let cumulativeVolume ← decodeDecimal lib cumulative s!"{side}[{index}].cumulativeVolume"
    let orderCount ← decodeOrderCount count s!"{side}[{index}].orderCount"
    let levels ← decodeLevels side (index + 1) prices volumes cumulatives counts
    return ⟨price, volume, cumulativeVolume, orderCount⟩ :: levels
  | _, _, _, _, _ => .ok []

def decodeSide (value : Js.Value) (side : String) : Except DepthError (List DepthLevel) :=
  match value with
  | .array [prices, volumes, cumulativeVolumes, orderCounts] => do
    let prices ← asColumn prices s!"{side}.prices"
    let volumes ← asColumn volumes s!"{side}.volumes"
    let cumulativeVolumes ← asColumn cumulativeVolumes s!"{side}.cumulativeVolumes"
    let orderCounts ← asColumn orderCounts s!"{side}.orderCounts"
    if volumes.length ≠ prices.length ∨ cumulativeVolumes.length ≠ prices.length ∨
        orderCounts.length ≠ prices.length then
      throw (.codec s!"{side} columns must all have the same length")
    decodeLevels lib side 0 prices volumes cumulativeVolumes orderCounts
  | _ => .error (.codec s!"{side} must be a MessagePack array of 4 columns")

/-- The body of `decodeOrderDepth`, after its header. -/
def decodePayload (payload : List UInt8) : Except DepthError OrderDepth :=
  match lib.decode payload with
  | .error message => .error (.codec s!"compressed depth payload is not valid MessagePack: {message}")
  | .ok (.array [market, tickSize, generatedAt, bids, asks]) => do
    let market ← decodeText market "market"
    let tickSize ← decodeText tickSize "tickSize"
    let generatedAt ← decodeText generatedAt "generatedAt"
    let bids ← decodeSide lib bids "bids"
    let asks ← decodeSide lib asks "asks"
    return ⟨market, tickSize, bids, asks, generatedAt⟩
  | .ok _ => .error (.codec "compressed depth payload must decode to a 5 element MessagePack array")

def decodeOrderDepth (buffer : List UInt8) : Except DepthError OrderDepth := do
  if buffer.length < headerSize then
    throw (.codec (s!"compressed depth payload is truncated: expected at least {headerSize} header bytes, " ++
      s!"received {buffer.length}"))
  let received := String.ofList ((slice buffer 0 4).map fun b => Char.ofNat b.toNat)
  if received ≠ magic then
    throw (.codec
      s!"compressed depth payload has an invalid magic prefix: expected \"{magic}\", received \"{received}\"")
  let version := buffer[4]?.getD 0
  if version ≠ 1 then throw (.codec s!"unsupported compressed depth payload version: {version}")
  let declaredLength := unpack .big (slice buffer 6 4)
  let receivedLength := buffer.length - headerSize
  if declaredLength ≠ receivedLength then
    throw (.codec (s!"compressed depth payload is truncated or corrupted: header declares {declaredLength} " ++
      s!"payload bytes, received {receivedLength}"))
  decodePayload lib (buffer.drop headerSize)

/-- The levels have texts, and count their orders. -/
def DepthLevel.IsEncodable (level : DepthLevel) : Prop :=
  level.price ≠ "" ∧ level.volume ≠ "" ∧ level.cumulativeVolume ≠ "" ∧ ∃ n : ℕ, level.orderCount = .finite n

/-- The depth map has texts, and its levels count their orders. -/
structure OrderDepth.IsEncodable (depth : OrderDepth) : Prop where
  market : depth.market ≠ ""
  tickSize : depth.tickSize ≠ ""
  generatedAt : depth.generatedAt ≠ ""
  bids : ∀ level ∈ depth.bids, level.IsEncodable
  asks : ∀ level ∈ depth.asks, level.IsEncodable

/-- The columns of a side. -/
def columns (levels : List DepthLevel) : Columns where
  prices := levels.map fun level => encodeDecimal lib level.price
  volumes := levels.map fun level => encodeDecimal lib level.volume
  cumulativeVolumes := levels.map fun level => encodeDecimal lib level.cumulativeVolume
  orderCounts := levels.map fun level => .number level.orderCount

/-- The payload of a depth map. -/
def OrderDepth.payload (depth : OrderDepth) : Js.Value :=
  .array [.string depth.market, .string depth.tickSize, .string depth.generatedAt, (columns lib depth.bids).value,
    (columns lib depth.asks).value]

variable {lib} {s field side : String} {level : DepthLevel} {levels : List DepthLevel} {depth : OrderDepth}

/-- A text that is not empty can be encoded. -/
lemma toEncodableText_string (some : s ≠ "") : toEncodableText lib (.string s) field = .ok s := by
  rw [toEncodableText, if_pos some]

/-- A text that is not empty can be decoded. -/
lemma decodeText_string (some : s ≠ "") : decodeText (.string s) field = .ok s := by
  rw [decodeText, if_pos some]

/-- A count is a natural number. -/
lemma toOrderCount_natural (n : ℕ) : toOrderCount (.number (.finite n)) field = .ok (.finite n) := by
  have natural : ((n : ℚ)).den = 1 ∧ 0 ≤ (n : ℚ) := ⟨Rat.den_natCast n, Nat.cast_nonneg n⟩
  rw [toOrderCount, if_pos natural]

/-- A decimal is read back, whether it was stored as a number or as a text. -/
lemma decodeDecimal_encodeDecimal (some : s ≠ "") : decodeDecimal lib (encodeDecimal lib s) field = .ok s := by
  rw [encodeDecimal]
  split
  case h_1 x _ =>
    split
    case isTrue same => rw [decodeDecimal, same]
    case isFalse => rw [decodeDecimal, if_pos some]
  case h_2 => rw [decodeDecimal, if_pos some]

/-- The object of a level has its price. -/
lemma DepthLevel.property_price (level : DepthLevel) : level.value.property "price" = .string level.price := rfl

/-- The object of a level has its volume. -/
lemma DepthLevel.property_volume (level : DepthLevel) : level.value.property "volume" = .string level.volume := rfl

/-- The object of a level has its cumulative volume. -/
lemma DepthLevel.property_cumulativeVolume (level : DepthLevel) :
    level.value.property "cumulativeVolume" = .string level.cumulativeVolume := rfl

/-- The object of a level has its count. -/
lemma DepthLevel.property_orderCount (level : DepthLevel) :
    level.value.property "orderCount" = .number level.orderCount := rfl

/-- Levels are encoded as columns. -/
lemma encodeLevels_value (encodable : ∀ level ∈ levels, level.IsEncodable) (index : ℕ) :
    encodeLevels lib side index (levels.map DepthLevel.value) = .ok (columns lib levels) := by
  induction levels generalizing index with
  | nil => rfl
  | cons level levels ih =>
    obtain ⟨price, volume, cumulativeVolume, n, count⟩ := encodable level List.mem_cons_self
    have rest := ih (fun other mem => encodable other (List.mem_cons_of_mem level mem)) (index + 1)
    rw [List.map_cons, encodeLevels]
    simp only [DepthLevel.property_price, DepthLevel.property_volume, DepthLevel.property_cumulativeVolume,
      DepthLevel.property_orderCount, toEncodableText_string price, toEncodableText_string volume,
      toEncodableText_string cumulativeVolume, count, toOrderCount_natural, rest, bind, Except.bind]
    rw [columns, columns, List.map_cons, List.map_cons, List.map_cons, List.map_cons, count]
    rfl

/-- Levels are decoded from their columns. -/
lemma decodeLevels_columns (encodable : ∀ level ∈ levels, level.IsEncodable) (index : ℕ) :
    decodeLevels lib side index (columns lib levels).prices (columns lib levels).volumes
      (columns lib levels).cumulativeVolumes (columns lib levels).orderCounts = .ok levels := by
  induction levels generalizing index with
  | nil => rfl
  | cons level levels ih =>
    obtain ⟨price, volume, cumulativeVolume, n, count⟩ := encodable level List.mem_cons_self
    have rest := ih (fun other mem => encodable other (List.mem_cons_of_mem level mem)) (index + 1)
    simp only [columns] at rest
    simp only [columns, List.map_cons, decodeLevels, decodeDecimal_encodeDecimal price,
      decodeDecimal_encodeDecimal volume, decodeDecimal_encodeDecimal cumulativeVolume, count, decodeOrderCount,
      toOrderCount_natural, rest, bind, Except.bind]
    rw [← count]
    rfl

/-- A side is transposed and rebuilt. -/
lemma decodeSide_columns (encodable : ∀ level ∈ levels, level.IsEncodable) :
    decodeSide lib (columns lib levels).value side = .ok levels := by
  have same : ¬((columns lib levels).volumes.length ≠ (columns lib levels).prices.length ∨
      (columns lib levels).cumulativeVolumes.length ≠ (columns lib levels).prices.length ∨
      (columns lib levels).orderCounts.length ≠ (columns lib levels).prices.length) := by
    simp [columns]
  simp only [Columns.value, decodeSide, asColumn, bind, Except.bind]
  rw [if_neg same]
  exact decodeLevels_columns encodable 0

/-- The object of a book has its market. -/
lemma OrderDepth.property_market (depth : OrderDepth) : depth.value.property "market" = .string depth.market := rfl

/-- The object of a book has its tick size. -/
lemma OrderDepth.property_tickSize (depth : OrderDepth) :
    depth.value.property "tickSize" = .string depth.tickSize := rfl

/-- The object of a book has its time. -/
lemma OrderDepth.property_generatedAt (depth : OrderDepth) :
    depth.value.property "generatedAt" = .string depth.generatedAt := rfl

/-- A book is encoded as its payload. -/
lemma encodePayload_value (encodable : depth.IsEncodable) :
    encodePayload lib depth.value = .ok (depth.payload lib) := by
  have bids : encodeSide lib (depth.value.property "bids") "bids" = .ok (columns lib depth.bids).value :=
    congrArg (Except.map Columns.value) (encodeLevels_value encodable.bids 0)
  have asks : encodeSide lib (depth.value.property "asks") "asks" = .ok (columns lib depth.asks).value :=
    congrArg (Except.map Columns.value) (encodeLevels_value encodable.asks 0)
  rw [encodePayload, bids, asks]
  simp only [OrderDepth.property_market, OrderDepth.property_tickSize, OrderDepth.property_generatedAt,
    toEncodableText_string encodable.market, toEncodableText_string encodable.tickSize,
    toEncodableText_string encodable.generatedAt, bind, Except.bind]
  rfl

/-- A book is decoded from its payload where the library is lossless. -/
lemma decodePayload_encode (encodable : depth.IsEncodable)
    (lossless : lib.decode (lib.encode (depth.payload lib)) = .ok (depth.payload lib)) :
    decodePayload lib (lib.encode (depth.payload lib)) = .ok depth := by
  rw [decodePayload, lossless, OrderDepth.payload]
  simp only [decodeText_string encodable.market, decodeText_string encodable.tickSize,
    decodeText_string encodable.generatedAt, decodeSide_columns encodable.bids, decodeSide_columns encodable.asks,
    bind, Except.bind]
  rfl

/-- Bytes that raise `OrderBookDepthCodecError`. -/
def IsRejected (lib : Libraries) (bytes : List UInt8) : Prop :=
  ∃ message, decodeOrderDepth lib bytes = .error (.codec message)

/-- The bytes of a header. -/
lemma header_eq (n : ℕ) : header n = [83, 70, 68, 49, 1, 0] ++ pack .big 4 n := by
  have magicBytes : magic.toList.map (fun c => UInt8.ofNat c.toNat) = [83, 70, 68, 49] := by decide
  rw [header, magicBytes]
  rfl

/-- A header has its size. -/
lemma length_header (n : ℕ) : (header n).length = headerSize := by
  rw [header_eq, List.length_append, length_pack]
  rfl

/-- After a header the payload is read if it has the length the header declares. -/
lemma decodeOrderDepth_header {n : ℕ} (fits : n < 2 ^ 32) (rest : List UInt8) :
    decodeOrderDepth lib (header n ++ rest) =
      if n ≠ rest.length then
        .error (.codec (s!"compressed depth payload is truncated or corrupted: header declares {n} " ++
          s!"payload bytes, received {rest.length}"))
      else decodePayload lib rest := by
  have long : ¬(header n ++ rest).length < headerSize := by
    rw [List.length_append, length_header]
    omega
  have received : String.ofList ((slice (header n ++ rest) 0 4).map fun b => Char.ofNat b.toNat) = magic := by
    rw [header_eq]
    show String.ofList (([83, 70, 68, 49] : List UInt8).map fun b => Char.ofNat b.toNat) = magic
    decide
  have version : (header n ++ rest)[4]?.getD 0 = 1 := by
    rw [header_eq]
    rfl
  have declared : unpack .big (slice (header n ++ rest) 6 4) = n := by
    have bytes : slice (header n ++ rest) 6 4 = pack .big 4 n := by
      rw [header_eq, List.append_assoc]
      exact List.take_left' (length_pack .big 4 n)
    rw [bytes]
    exact unpack_pack fits
  have receivedLength : (header n ++ rest).length - headerSize = rest.length := by
    rw [List.length_append, length_header]
    omega
  have payload : (header n ++ rest).drop headerSize = rest := List.drop_left' (length_header n)
  rw [decodeOrderDepth, if_neg long]
  simp only [received, version, declared, receivedLength, payload]
  rfl

/-- Less than a header is rejected. -/
lemma isRejected_of_short {bytes : List UInt8} (short : bytes.length < headerSize) : IsRejected lib bytes := by
  rw [IsRejected, decodeOrderDepth, if_pos short]
  exact ⟨_, rfl⟩

/-- A length that differs from what follows is rejected. -/
lemma isRejected_of_length {n : ℕ} (fits : n < 2 ^ 32) {rest : List UInt8} (differs : n ≠ rest.length) :
    IsRejected lib (header n ++ rest) :=
  ⟨_, (decodeOrderDepth_header fits rest).trans (if_pos differs)⟩

/-- A part of a frame has a part of the header, or less than the payload. -/
lemma isRejected_of_prefix {payload pre : List UInt8} (fits : payload.length < 2 ^ 32)
    (le : pre <+: header payload.length ++ payload) (ne : pre ≠ header payload.length ++ payload) :
    IsRejected lib pre := by
  by_cases short : pre.length < headerSize
  · exact isRejected_of_short short
  have reaches : (header payload.length).length ≤ pre.length := by
    rw [length_header]
    omega
  -- a prefix that contains the header lacks an end of the payload that the header gives the length of
  obtain ⟨rest, rfl⟩ := List.prefix_of_prefix_length_le (List.prefix_append _ payload) le reaches
  have part : rest <+: payload := (List.prefix_append_right_inj _).1 le
  refine isRejected_of_length fits fun same => ne ?_
  rw [part.eq_of_length same.symm]

/-- A book is encoded behind its header. -/
lemma encodeOrderDepth_value (encodable : depth.IsEncodable)
    (short : (lib.encode (depth.payload lib)).length < 2 ^ 32) :
    encodeOrderDepth lib depth.value =
      .ok (header (lib.encode (depth.payload lib)).length ++ lib.encode (depth.payload lib)) := by
  simp only [encodeOrderDepth, encodePayload_value encodable, bind, Except.bind]
  rw [if_neg (Nat.not_le.2 short)]
  rfl

/-- An encodable depth map is read back from its bytes, and from no proper part of them and no more of them. -/
theorem decodeOrderDepth_encodeOrderDepth (encodable : depth.IsEncodable)
    (lossless : ∀ payload, encodePayload lib depth.value = .ok payload →
      lib.decode (lib.encode payload) = .ok payload)
    (short : ∀ payload, encodePayload lib depth.value = .ok payload → (lib.encode payload).length < 2 ^ 32) :
    ∃ bytes, encodeOrderDepth lib depth.value = .ok bytes ∧ decodeOrderDepth lib bytes = .ok depth ∧
      (∀ pre, pre <+: bytes → pre ≠ bytes → IsRejected lib pre) ∧
      ∀ more, more ≠ [] → IsRejected lib (bytes ++ more) := by
  have fits := short _ (encodePayload_value encodable)
  refine ⟨_, encodeOrderDepth_value encodable fits, ?_, fun pre le ne => isRejected_of_prefix fits le ne, ?_⟩
  · rw [decodeOrderDepth_header fits, if_neg fun ne => ne rfl]
    exact decodePayload_encode encodable (lossless _ (encodePayload_value encodable))
  · intro more some
    rw [List.append_assoc]
    refine isRejected_of_length fits fun same => some ?_
    rw [List.length_append] at same
    exact List.eq_nil_of_length_eq_zero (by omega)

/-- The bytes of `["M", "1", "t", [[1], ["1.50"], ["1.50"], [2]], [[], [], [], []]]`. -/
def sampleBytes : List UInt8 :=
  [0x95, 0xa1, 0x4d, 0xa1, 0x31, 0xa1, 0x74, 0x94, 0x91, 0x01, 0x91, 0xa4, 0x31, 0x2e, 0x35, 0x30, 0x91, 0xa4, 0x31,
    0x2e, 0x35, 0x30, 0x91, 0x02, 0x94, 0x90, 0x90, 0x90, 0x90]

def sampleDepth : OrderDepth where
  market := "M"
  tickSize := "1"
  bids := [⟨"1", "1.50", "1.50", .finite 2⟩]
  asks := []
  generatedAt := "t"

/-- The libraries on the values of the sample. -/
def sampleLibraries : Libraries where
  number := fun s => if s = "1" then .finite 1 else if s = "1.50" then .finite (3 / 2) else .nan
  text := fun
    | .finite x => if x = 1 then "1" else if x = 2 then "2" else "1.5"
    | _ => "NaN"
  encode := fun _ => sampleBytes
  decode := fun bytes =>
    if bytes = sampleBytes then
      .ok (.array [.string "M", .string "1", .string "t", .array [.array [.number (.finite 1)],
        .array [.string "1.50"], .array [.string "1.50"], .array [.number (.finite 2)]],
        .array [.array [], .array [], .array [], .array []]])
    else .error "Insufficient data"

/-- The payload of the sample has one bid. -/
lemma sampleDepth_payload : sampleDepth.payload sampleLibraries =
    .array [.string "M", .string "1", .string "t", .array [.array [.number (.finite 1)],
      .array [.string "1.50"], .array [.string "1.50"], .array [.number (.finite 2)]],
      .array [.array [], .array [], .array [], .array []]] := by
  have one : encodeDecimal sampleLibraries "1" = .number (.finite 1) := by
    simp [encodeDecimal, sampleLibraries]
  have padded : encodeDecimal sampleLibraries "1.50" = .string "1.50" := by
    have number : sampleLibraries.number "1.50" = .finite (3 / 2) := by simp [sampleLibraries]
    have text : sampleLibraries.text (.finite (3 / 2)) ≠ "1.50" := by decide +kernel
    rw [encodeDecimal, number]
    exact if_neg text
  simp only [OrderDepth.payload, columns, Columns.value, sampleDepth, List.map_cons, List.map_nil, one, padded]

/-- The sample can be encoded. -/
lemma sampleDepth_isEncodable : sampleDepth.IsEncodable where
  market := by decide
  tickSize := by decide
  generatedAt := by decide
  bids := by
    intro level mem
    cases List.mem_singleton.1 mem
    exact ⟨by decide, by decide, by decide, 2, rfl⟩
  asks := by
    intro level mem
    cases mem

/-- A map with a canonical price and a padded volume. -/
theorem decodeOrderDepth_encodeOrderDepth_sample :
    ∃ bytes, encodeOrderDepth sampleLibraries sampleDepth.value = .ok bytes ∧
      decodeOrderDepth sampleLibraries bytes = .ok sampleDepth ∧
      (∀ pre, pre <+: bytes → pre ≠ bytes → IsRejected sampleLibraries pre) ∧
      ∀ more, more ≠ [] → IsRejected sampleLibraries (bytes ++ more) := by
  have short : sampleBytes.length < 2 ^ 32 := by decide
  refine decodeOrderDepth_encodeOrderDepth sampleDepth_isEncodable (fun payload encoded => ?_) fun payload _ => short
  have same : payload = sampleDepth.payload sampleLibraries :=
    Except.ok.inj (encoded.symm.trans (encodePayload_value sampleDepth_isEncodable))
  rw [same, sampleDepth_payload]
  rfl

end StellarFlow.OrderBook
