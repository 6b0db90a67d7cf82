import Mathlib.Data.List.Dedup
import Mathlib.Data.List.Induction
import StellarFlow.OrderBook.SnapshotEngine

/-!
# The synchronised order book

Model of `src/services/orderBookSynchronizer.ts`: `processOrderEvent` with its writes to the cache and to Redis,
`getDepth` with the hydration from Redis, and `buildSnapshot`. The calls run one after the other.

The cache of a market is created with the maps `bids` and `asks`, and the snapshot is built from them, but the events
look up `cache[side]` with the sides `bid` and `ask`. So an event throws unless the market was hydrated, and the
snapshot is empty even then.
-/

namespace StellarFlow.OrderBook

/-- Functions on texts: `trim`, `toUpperCase`, the removal of white space, `toLowerCase`, and `String` of a number. -/
structure Texts where
  trim : String → String
  toUpperCase : String → String
  removeSpaces : String → String
  toLowerCase : String → String
  text : Js.Double → String

/-- An `Error` with its message, and the `TypeError` of a property of `undefined`. -/
inductive SyncError where
  | message (s : String)
  | typeError
  deriving DecidableEq

/-- A `Partial<OrderBookEvent>`. -/
structure OrderBookEvent where
  market : Option String
  side : Option String
  orderId : Option String
  price : Option Js.Double
  quantity : Option Js.Double
  type : Option String

structure OrderBookDepthRow where
  price : ℚ
  quantity : ℚ
  deriving DecidableEq

structure OrderBookSnapshot where
  market : String
  bids : List OrderBookDepthRow
  asks : List OrderBookDepthRow
  spread : Option ℚ
  updatedAt : String
  deriving DecidableEq

/-- The maps that a market is created with, and the ones at the names of the sides. -/
structure MarketOrderCache where
  bids : Dict ℚ ℚ
  asks : Dict ℚ ℚ
  bid : Option (Dict ℚ ℚ)
  ask : Option (Dict ℚ ℚ)

/-- The caches of the markets, and the sorted sets of Redis: the scores of their members. -/
structure Synchronizer where
  localCache : Dict String MarketOrderCache
  redis : Option (Dict String (Dict String Js.Double))

variable (rt : Texts)

def normalizeMarket (market : String) : String := rt.removeSpaces (rt.toUpperCase (rt.trim market))

def normalizeSide (side : String) : Except SyncError OrderSide :=
  if rt.toLowerCase side = "buy" ∨ rt.toLowerCase side = "bid" then .ok .bid
  else if rt.toLowerCase side = "sell" ∨ rt.toLowerCase side = "ask" then .ok .ask
  else .error (.message s!"Unsupported order side: {side}")

def toPositiveNumber (value : Option Js.Double) (label : String) : Except SyncError ℚ :=
  match value with
  | some (.finite x) => if x ≤ 0 then .error (.message s!"Invalid {label}: {rt.text (.finite x)}") else .ok x
  | some x => .error (.message s!"Invalid {label}: {rt.text x}")
  | none => .error (.message s!"Invalid {label}: undefined")

/-- `cache[side]`. -/
def MarketOrderCache.get (cache : MarketOrderCache) : OrderSide → Option (Dict ℚ ℚ)
  | .bid => cache.bid
  | .ask => cache.ask

/-- `cache[side] = map`. -/
def MarketOrderCache.set (cache : MarketOrderCache) (side : OrderSide) (map : Dict ℚ ℚ) : MarketOrderCache :=
  match side with
  | .bid => { cache with bid := some map }
  | .ask => { cache with ask := some map }

def emptyCache : MarketOrderCache := ⟨.empty, .empty, none, none⟩

/-- The cache that `ensureMarketCache` returns. -/
def Synchronizer.cache (s : Synchronizer) (market : String) : MarketOrderCache :=
  (s.localCache.get? market).getD emptyCache

/-- The cache of the market has changed. -/
def Synchronizer.put (s : Synchronizer) (market : String) (cache : MarketOrderCache) : Synchronizer :=
  { s with localCache := s.localCache.set market cache }

def OrderSide.name : OrderSide → String
  | .bid => "bid"
  | .ask => "ask"

def getRedisKey (market : String) (side : OrderSide) : String := s!"orderbook:{market}:{side.name}"

/-- `zRem`. -/
def zRem (redis : Dict String (Dict String Js.Double)) (key member : String) : Dict String (Dict String Js.Double) :=
  redis.modify key fun members => members.pop member

/-- `zAdd`. -/
def zAdd (redis : Dict String (Dict String Js.Double)) (key : String) (score : Js.Double) (member : String) :
    Dict String (Dict String Js.Double) :=
  redis.set key (((redis.get? key).getD .empty).set member score)

/-- The scores of `zRangeWithScores(key, 0, -1)`. -/
def zScores (redis : Dict String (Dict String Js.Double)) (key : String) : List Js.Double :=
  (((redis.get? key).getD .empty).entries.map Prod.snd).mergeSort fun a b => !b.lt a

/-- `persistRedisPriceLevel`, with the map of the side. -/
def Synchronizer.persistRedisPriceLevel (s : Synchronizer) (market : String) (side : OrderSide) (price : ℚ)
    (map : Dict ℚ ℚ) (quantityOverride : Option ℚ) : Synchronizer :=
  match s.redis with
  | none => s.put market ((s.cache market).set side map)
  | some redis =>
    let nextQty := quantityOverride.getD ((map.get? price).getD 0)
    if nextQty ≤ 0 then
      { s.put market ((s.cache market).set side map) with
        redis := some (zRem redis (getRedisKey market side) (rt.text (.finite price))) }
    else
      { s.put market ((s.cache market).set side (map.set price nextQty)) with
        redis := some (zAdd redis (getRedisKey market side) (.finite price) (rt.text (.finite price))) }

/-- `removeRedisPriceLevel`, with the map of the side. -/
def Synchronizer.removeRedisPriceLevel (s : Synchronizer) (market : String) (side : OrderSide) (price : ℚ)
    (map : Dict ℚ ℚ) : Synchronizer :=
  match s.redis with
  | none => s.put market ((s.cache market).set side map)
  | some redis =>
    { s.put market ((s.cache market).set side (map.pop price)) with
      redis := some (zRem redis (getRedisKey market side) (rt.text (.finite price))) }

/-- The switch of `processOrderEvent`. -/
def Synchronizer.applyEvent (s : Synchronizer) (market : String) (side : OrderSide) (price quantity : ℚ)
    (type : String) : Except SyncError Synchronizer :=
  if type ≠ "created" ∧ type ≠ "executed" ∧ type ≠ "cancelled" then
    .error (.message s!"Unsupported order event type: {type}")
  else
    match (s.cache market).get side with
    | none => .error .typeError
    | some map =>
      let currentQty := (map.get? price).getD 0
      if type = "created" then
        .ok (s.persistRedisPriceLevel rt market side price (map.set price (currentQty + quantity)) none)
      else if type = "executed" then
        let nextQty := max 0 (currentQty - quantity)
        .ok (s.persistRedisPriceLevel rt market side price
          (if 0 < nextQty then map.set price nextQty else map.pop price) (some nextQty))
      else .ok (s.removeRedisPriceLevel rt market side price (map.pop price))

def depthRows (le : OrderBookDepthRow → OrderBookDepthRow → Bool) (map : Dict ℚ ℚ) : List OrderBookDepthRow :=
  ((map.entries.map fun e => ⟨e.1, e.2⟩).mergeSort le).take 25

/-- The spread of the best rows. -/
def spreadOf (bids asks : List OrderBookDepthRow) : Option ℚ :=
  match bids, asks with
  | bestBid :: _, bestAsk :: _ =>
    if 0 < bestAsk.price ∧ 0 < bestBid.price then some (bestAsk.price - bestBid.price) else none
  | _, _ => none

def buildSnapshot (market : String) (cache : MarketOrderCache) (now : String) : OrderBookSnapshot :=
  let bids := depthRows (fun a b => b.price ≤ a.price) cache.bids
  let asks := depthRows (fun a b => a.price ≤ b.price) cache.asks
  ⟨market, bids, asks, spreadOf bids asks, now⟩

/-- What `processOrderEvent` reads from an event. -/
def readEvent (event : OrderBookEvent) : Except SyncError (String × OrderSide × ℚ × ℚ × String) := do
  let market := normalizeMarket rt (event.market.getD "")
  if market = "" then throw (.message "Order event requires a market name")
  let side ← normalizeSide rt (event.side.getD (event.type.getD "bid"))
  let price ← toPositiveNumber rt event.price "price"
  let quantity ← toPositiveNumber rt event.quantity "quantity"
  return (market, side, price, quantity, rt.toLowerCase (event.type.getD "created"))

/-- The result of `processOrderEvent`, and the synchronizer after it. The cache of a market stays where it throws. -/
def Synchronizer.processOrderEvent (s : Synchronizer) (event : OrderBookEvent) (now : String) :
    Except SyncError OrderBookSnapshot × Synchronizer :=
  match readEvent rt event with
  | .error e => (.error e, s)
  | .ok (market, side, price, quantity, type) =>
    let ensured := s.put market (s.cache market)
    match ensured.applyEvent rt market side price quantity type with
    | .error e => (.error e, ensured)
    | .ok s' => (.ok (buildSnapshot market (s'.cache market) now), s')

/-- The loop of `hydrateMarketFromRedis` over the entries of a side; reading a quantity throws where the cache has no
map for the side. -/
def hydrateMap (map : Option (Dict ℚ ℚ)) (scores : List Js.Double) : Except SyncError (Dict ℚ ℚ) :=
  scores.foldlM (fun (nextMap : Dict ℚ ℚ) score =>
    match score with
    | .finite parsedPrice =>
      if parsedPrice ≤ 0 then .ok nextMap
      else
        match map with
        | none => .error .typeError
        | some map => .ok (nextMap.set parsedPrice ((map.get? parsedPrice).getD 0))
    | _ => .ok nextMap) Dict.empty

/-- One side of `hydrateMarketFromRedis`. -/
def hydrateSide (redis : Dict String (Dict String Js.Double)) (market : String) (side : OrderSide)
    (cache : MarketOrderCache) : Except SyncError MarketOrderCache :=
  (hydrateMap (cache.get side) (zScores redis (getRedisKey market side))).map (cache.set side)

/-- `hydrateMarketFromRedis`: the cache that it returns, and the synchronizer after it. -/
def Synchronizer.hydrateMarketFromRedis (s : Synchronizer) (market : String) :
    Except SyncError MarketOrderCache × Synchronizer :=
  let normalizedMarket := normalizeMarket rt market
  let ensured := s.put normalizedMarket (s.cache normalizedMarket)
  match ensured.redis with
  | none => (.ok (ensured.cache normalizedMarket), ensured)
  | some redis =>
    match hydrateSide redis normalizedMarket .bid (ensured.cache normalizedMarket) with
    | .error e => (.error e, ensured)
    | .ok cache =>
      match hydrateSide redis normalizedMarket .ask cache with
      | .error e => (.error e, ensured.put normalizedMarket cache)
      | .ok cache => (.ok cache, ensured.put normalizedMarket cache)

/-- The result of `getDepth`, and the synchronizer after it. -/
def Synchronizer.getDepth (s : Synchronizer) (market : String) (now : String) :
    Except SyncError OrderBookSnapshot × Synchronizer :=
  let normalizedMarket := normalizeMarket rt market
  let hydrated := s.hydrateMarketFromRedis rt normalizedMarket
  (hydrated.1.map fun cache => buildSnapshot normalizedMarket cache now, hydrated.2)

/-- A new synchronizer, after `getDepth` was called for some markets. -/
def Synchronizer.hydrated (redis : Option (Dict String (Dict String Js.Double))) (markets : List String)
    (now : String) : Synchronizer :=
  markets.foldl (fun s market => (s.getDepth rt market now).2) ⟨.empty, redis⟩

/-- An order that is live. -/
structure LiveOrder where
  side : OrderSide
  price : ℚ
  remaining : ℚ

inductive OrderEventType where
  | created
  | executed
  | cancelled

def OrderEventType.name : OrderEventType → String
  | .created => "created"
  | .executed => "executed"
  | .cancelled => "cancelled"

/-- What happens to an order. -/
structure OrderEvent where
  orderId : String
  side : OrderSide
  price : ℚ
  quantity : ℚ
  type : OrderEventType

/-- The event as `processOrderEvent` gets it. -/
def OrderEvent.input (event : OrderEvent) (market : String) : OrderBookEvent where
  market := some market
  side := some event.side.name
  orderId := some event.orderId
  price := some (.finite event.price)
  quantity := some (.finite event.quantity)
  type := some event.type.name

/-- The event is about this order. -/
def OrderEvent.concerns (event : OrderEvent) (order : LiveOrder) : Bool :=
  order.side = event.side && order.price = event.price && 0 < event.quantity

/-- The live orders after an event; `none` where it is not valid. -/
def OrderEvent.apply (event : OrderEvent) (orders : Dict String LiveOrder) : Option (Dict String LiveOrder) :=
  match event.type with
  | .created =>
    if event.orderId ∉ orders.keys ∧ 0 < event.price ∧ 0 < event.quantity then
      some (orders.set event.orderId ⟨event.side, event.price, event.quantity⟩)
    else none
  | .executed =>
    match orders.get? event.orderId with
    | none => none
    | some order =>
      if event.concerns order ∧ event.quantity ≤ order.remaining then
        if event.quantity = order.remaining then some (orders.pop event.orderId)
        else some (orders.set event.orderId { order with remaining := order.remaining - event.quantity })
      else none
  | .cancelled =>
    match orders.get? event.orderId with
    | none => none
    | some order => if event.concerns order then some (orders.pop event.orderId) else none

/-- The events are valid one after the other. -/
def ValidEvents : Dict String LiveOrder → List OrderEvent → Prop
  | _, [] => True
  | orders, event :: events => ∃ after, event.apply orders = some after ∧ ValidEvents after events

/-- The live orders of a side at a price. -/
def liveAt (orders : Dict String LiveOrder) (side : OrderSide) (price : ℚ) : List LiveOrder :=
  (orders.entries.map Prod.snd).filter fun order => order.side = side && order.price = price

/-- The prices of a side with live orders. -/
def livePrices (orders : Dict String LiveOrder) (side : OrderSide) : List ℚ :=
  (((orders.entries.map Prod.snd).filter fun order => order.side = side).map LiveOrder.price).dedup

/-- The prices of a side with live orders, the best first and at most 25, each with the total that remains. -/
def liveDepth (le : OrderBookDepthRow → OrderBookDepthRow → Bool) (orders : Dict String LiveOrder) (side : OrderSide) :
    List OrderBookDepthRow :=
  (((livePrices orders side).map fun price =>
    ⟨price, ((liveAt orders side price).map LiveOrder.remaining).sum⟩).mergeSort le).take 25

/-- Every event is processed, and the snapshot lists the live orders. -/
def Synchronised (market now : String) : Synchronizer → Dict String LiveOrder → List OrderEvent → Prop
  | _, _, [] => True
  | s, orders, event :: events => ∀ after, event.apply orders = some after →
    ∃ snapshot, (s.processOrderEvent rt (event.input market) now).1 = .ok snapshot ∧
      snapshot.bids = liveDepth (fun a b => b.price ≤ a.price) after .bid ∧
      snapshot.asks = liveDepth (fun a b => a.price ≤ b.price) after .ask ∧
      Synchronised market now (s.processOrderEvent rt (event.input market) now).2 after events

/-- The maps that the snapshot is built from are empty. -/
def MarketOrderCache.IsBlank (cache : MarketOrderCache) : Prop := cache.bids.entries = [] ∧ cache.asks.entries = []

def Synchronizer.IsBlank (s : Synchronizer) : Prop := ∀ market, (s.cache market).IsBlank

variable {rt} {s s' : Synchronizer} {cache cache' : MarketOrderCache} {market now type : String} {side : OrderSide}
  {map : Dict ℚ ℚ} {price quantity : ℚ}

/-- A blank cache stays so when a map is set. -/
lemma MarketOrderCache.IsBlank.set (blank : cache.IsBlank) : (cache.set side map).IsBlank := by
  cases side with
  | bid => exact blank
  | ask => exact blank

/-- A blank cache may be put. -/
lemma Synchronizer.IsBlank.put (blank : s.IsBlank) (new : cache.IsBlank) : (s.put market cache).IsBlank := by
  intro other
  rw [Synchronizer.cache, Synchronizer.put, Dict.get?_set]
  split
  case isTrue => exact new
  case isFalse => exact blank other

/-- Persisting a level leaves the caches blank. -/
lemma Synchronizer.IsBlank.persist (blank : s.IsBlank) (quantityOverride : Option ℚ) :
    (s.persistRedisPriceLevel rt market side price map quantityOverride).IsBlank := by
  rw [Synchronizer.persistRedisPriceLevel]
  split
  case h_1 => exact blank.put (blank market).set
  case h_2 =>
    dsimp only
    split
    case isTrue => exact blank.put (blank market).set
    case isFalse => exact blank.put (blank market).set

/-- Removing a level leaves the caches blank. -/
lemma Synchronizer.IsBlank.remove (blank : s.IsBlank) :
    (s.removeRedisPriceLevel rt market side price map).IsBlank := by
  rw [Synchronizer.removeRedisPriceLevel]
  split
  case h_1 => exact blank.put (blank market).set
  case h_2 => exact blank.put (blank market).set

/-- Applying an event leaves the caches blank. -/
lemma Synchronizer.IsBlank.applyEvent (blank : s.IsBlank)
    (applied : s.applyEvent rt market side price quantity type = .ok s') : s'.IsBlank := by
  rw [Synchronizer.applyEvent] at applied
  split at applied
  case isTrue => cases applied
  case isFalse =>
    split at applied
    case h_1 => cases applied
    case h_2 =>
      dsimp only at applied
      split at applied
      case isTrue =>
        cases applied
        exact blank.persist _
      case isFalse =>
        split at applied
        case isTrue =>
          cases applied
          exact blank.persist _
        case isFalse =>
          cases applied
          exact blank.remove

/-- Hydrating a side leaves the cache blank. -/
lemma MarketOrderCache.IsBlank.hydrateSide {redis : Dict String (Dict String Js.Double)} (blank : cache.IsBlank)
    (hydrated : hydrateSide redis market side cache = .ok cache') : cache'.IsBlank := by
  rw [OrderBook.hydrateSide] at hydrated
  cases read : hydrateMap (cache.get side) (zScores redis (getRedisKey market side)) with
  | error =>
    rw [read] at hydrated
    cases hydrated
  | ok nextMap =>
    rw [read] at hydrated
    cases hydrated
    exact blank.set

/-- Hydrating a market leaves the caches blank. -/
lemma Synchronizer.IsBlank.hydrateMarketFromRedis (blank : s.IsBlank) (market : String) :
    (s.hydrateMarketFromRedis rt market).2.IsBlank := by
  have ensured : (s.put (normalizeMarket rt market) (s.cache (normalizeMarket rt market))).IsBlank :=
    blank.put (blank _)
  rw [Synchronizer.hydrateMarketFromRedis]
  split
  case h_1 => exact ensured
  case h_2 =>
    split
    case h_1 => exact ensured
    case h_2 cache bids =>
      have once := (ensured _).hydrateSide bids
      split
      case h_1 => exact ensured.put once
      case h_2 asks => exact ensured.put (once.hydrateSide asks)

/-- Nothing is ever written to the maps that the snapshot is built from. -/
lemma Synchronizer.isBlank_hydrated (redis : Option (Dict String (Dict String Js.Double))) (markets : List String)
    (now : String) : (Synchronizer.hydrated rt redis markets now).IsBlank := by
  induction markets using List.reverseRecOn with
  | nil => exact fun _ => ⟨rfl, rfl⟩
  | append_singleton markets market ih =>
    rw [Synchronizer.hydrated, List.foldl_append]
    exact ih.hydrateMarketFromRedis (normalizeMarket rt market)

/-- An empty map has no rows. -/
lemma depthRows_of_blank {le : OrderBookDepthRow → OrderBookDepthRow → Bool} (blank : map.entries = []) :
    depthRows le map = [] := by
  rw [depthRows, blank, List.map_nil, List.mergeSort_nil, List.take_nil]

/-- A snapshot is empty, if the event does not throw. -/
lemma Synchronizer.IsBlank.processOrderEvent (blank : s.IsBlank) {event : OrderBookEvent} {snapshot : OrderBookSnapshot}
    (processed : (s.processOrderEvent rt event now).1 = .ok snapshot) : snapshot.bids = [] ∧ snapshot.asks = [] := by
  rw [Synchronizer.processOrderEvent] at processed
  split at processed
  case h_1 => cases processed
  case h_2 market side price quantity type _ =>
    dsimp only at processed
    split at processed
    case h_1 => cases processed
    case h_2 s' applied =>
      have after := (blank.put (blank market)).applyEvent applied market
      cases processed
      exact ⟨depthRows_of_blank after.1, depthRows_of_blank after.2⟩

/-- A side with a live order has a depth. -/
lemma liveDepth_ne_nil {le : OrderBookDepthRow → OrderBookDepthRow → Bool} {orders : Dict String LiveOrder}
    {id : String} {order : LiveOrder} (live : (id, order) ∈ orders.entries) : liveDepth le orders order.side ≠ [] := by
  have price : order.price ∈ livePrices orders order.side := by
    refine List.mem_dedup.2 (List.mem_map_of_mem (List.mem_filter.2 ⟨?_, decide_eq_true rfl⟩))
    exact List.mem_map_of_mem (f := Prod.snd) live
  refine fun none => absurd (List.length_eq_zero_iff.2 none) ?_
  rw [liveDepth, List.length_take, List.length_mergeSort, List.length_map]
  have some := List.length_pos_of_mem price
  omega

/-- On an empty book an event adds its order. -/
lemma OrderEvent.apply_empty {event : OrderEvent} {after : Dict String LiveOrder}
    (applied : event.apply .empty = some after) :
    (event.orderId, ⟨event.side, event.price, event.quantity⟩) ∈ after.entries := by
  rw [OrderEvent.apply] at applied
  split at applied
  case h_1 =>
    split at applied
    case isTrue =>
      cases applied
      refine Dict.get?_eq_some ?_
      rw [Dict.get?_set, if_pos rfl]
    case isFalse => cases applied
  case h_2 => cases applied
  case h_3 => cases applied

/-- The snapshots are those of the live orders exactly when there is no event. -/
theorem synchronised_iff_nil (rt : Texts) (redis : Option (Dict String (Dict String Js.Double))) (markets : List String)
    (market now : String) {events : List OrderEvent} (valid : ValidEvents .empty events) :
    Synchronised rt market now (Synchronizer.hydrated rt redis markets now) .empty events ↔ events = [] := by
  constructor
  · intro synchronised
    cases events with
    | nil => rfl
    | cons event events =>
      obtain ⟨after, applied, -⟩ := valid
      obtain ⟨snapshot, processed, bids, asks, -⟩ := synchronised after applied
      obtain ⟨noBids, noAsks⟩ := (Synchronizer.isBlank_hydrated redis markets now).processOrderEvent processed
      -- the first valid event creates an order, which an empty snapshot does not list
      have live := OrderEvent.apply_empty applied
      obtain ⟨id, side, price, quantity, type⟩ := event
      cases side with
      | bid => exact absurd (bids.symm.trans noBids) (liveDepth_ne_nil live)
      | ask => exact absurd (asks.symm.trans noAsks) (liveDepth_ne_nil live)
  · rintro rfl
    trivial

def sampleTexts : Texts where
  trim := id
  toUpperCase := id
  removeSpaces := id
  toLowerCase := id
  text := fun _ => "1"

/-- A bid of 5 at the price 1. -/
def sampleBid : OrderEvent := ⟨"a", .bid, 1, 5, .created⟩

/-- A first bid is valid. -/
lemma sampleBid_valid : ValidEvents .empty [sampleBid] :=
  ⟨Dict.empty.set "a" ⟨.bid, 1, 5⟩, rfl, trivial⟩

/-- One order is not synchronised. -/
theorem synchronised_iff_nil_sample : ValidEvents .empty [sampleBid] ∧
    ¬Synchronised sampleTexts "XLM/USDC" "now" (Synchronizer.hydrated sampleTexts none [] "now") .empty
      [sampleBid] := by
  refine ⟨sampleBid_valid, fun synchronised => ?_⟩
  cases (synchronised_iff_nil sampleTexts none [] "XLM/USDC" "now" sampleBid_valid).1 synchronised

/-- The first order throws; and after a hydration the snapshot does not list it. -/
theorem unsynchronised : ValidEvents .empty [sampleBid] ∧
    ((Synchronizer.hydrated sampleTexts (some .empty) [] "now").processOrderEvent sampleTexts
      (sampleBid.input "XLM/USDC") "now").1 = .error .typeError ∧
    ((Synchronizer.hydrated sampleTexts (some .empty) ["XLM/USDC"] "now").processOrderEvent sampleTexts
      (sampleBid.input "XLM/USDC") "now").1 = .ok ⟨"XLM/USDC", [], [], none, "now"⟩ := by
  refine ⟨sampleBid_valid, ?_, ?_⟩
  · decide +kernel
  · decide +kernel

end StellarFlow.OrderBook
