import Mathlib.Algebra.BigOperators.Group.List.Basic
import Mathlib.Algebra.Order.BigOperators.Group.List
import StellarFlow.Lib.Generators
import StellarFlow.Lib.PyValue

/-!
# The ticker parser

Model of `src/ingestion/parser.py`: the flattening of nested payloads with a stack of its own, and the streaming path
over the events of a tokenizer. The text of a document is read by libraries, so both paths start from its value: the
first takes the value, the second the events of its tokens in the order of the document. Texts are ASCII; the text of a
mapping in a message and the conversions to `float` are parameters. The binary frames are left out.
-/

namespace StellarFlow.Ingestion
open Py

/-- What is Python's own: `repr` of a mapping, `float` of an integer (`none` when it overflows) and of a text (`none`
when it is not a number). -/
structure Floats where
  reprMapping : List (String × Json) → String
  ofInt : ℤ → Option ℚ
  ofText : String → Option ℚ

/-- `TelemetryTuple`. -/
structure TelemetryTuple where
  asset_id : String
  price : ℚ
  timestamp : ℤ
  sequence : ℤ
  flags : ℤ
  deriving DecidableEq

/-- `_ASSET_KEYS`. -/
def ASSET_KEYS : List String := ["asset_id", "asset", "symbol", "pair", "instrument"]

/-- `_PRICE_KEYS`. -/
def PRICE_KEYS : List String := ["price", "last_price", "last", "mark_price", "value"]

/-- `_TIMESTAMP_KEYS`. -/
def TIMESTAMP_KEYS : List String := ["timestamp", "ts", "time", "event_time"]

/-- `_SEQUENCE_KEYS`. -/
def SEQUENCE_KEYS : List String := ["sequence", "seq", "nonce"]

/-- `_FLAGS_KEYS`. -/
def FLAGS_KEYS : List String := ["flags", "status_flags", "flag_bits"]

/-- `_BATCH_KEYS`. -/
def BATCH_KEYS : List String := ["frames", "ticks", "tickers", "telemetry", "updates", "results"]

/-- `_CONTAINER_KEYS`. -/
def CONTAINER_KEYS : List String := ["data", "payload", "result"]

/-- `_FRAME_KEYS`. -/
def FRAME_KEYS : List String := ["frame", "tick", "ticker", "telemetry"]

/-- `type(value).__name__`. -/
def typeName : Json → String
  | .none => "NoneType"
  | .bool _ => "bool"
  | .int _ => "int"
  | .float _ => "float"
  | .str _ => "str"
  | .list _ => "list"
  | .dict _ => "dict"

/-- `_first_present`; `none` is `_MISSING`. -/
def first_present (mapping : List (String × Json)) (keys : List String) : Option Json :=
  keys.findSome? (Json.get? mapping)

/-- `_has_any`. -/
def has_any (mapping : List (String × Json)) (keys : List String) : Bool := (first_present mapping keys).isSome

/-- `text.strip()`. -/
def strip (text : String) : String := String.ofList (HexText.strip text.toList)

/-- `_coerce_asset`. -/
def coerce_asset : Json → Except PyError String
  | .str value =>
    let asset := (strip value).toUpper
    if asset = "" then .error (.valueError "asset identifier must not be empty") else .ok asset
  | value => .error (.exception "TypeError" s!"asset identifier must be str or bytes, got {typeName value}")

/-- `_coerce_float`. -/
def coerce_float (floats : Floats) (value : Json) (field_name : String) : Except PyError ℚ :=
  match value with
  | .bool b => .ok (if b then 1 else 0)
  | .int n =>
    match floats.ofInt n with
    | some x => .ok x
    | none => .error (.exception "OverflowError" "int too large to convert to float")
  | .float x => .ok x
  | .str s =>
    let text := strip s
    if text = "" then .error (.valueError s!"{field_name} must not be empty")
    else
      match floats.ofText text with
      | some x => .ok x
      | none => .error (.valueError s!"could not convert string to float: {Py.repr text}")
  | value => .error (.exception "TypeError" s!"{field_name} must be numeric, got {typeName value}")

/-- `_coerce_int`. -/
def coerce_int (value : Json) (field_name : String) : Except PyError ℤ :=
  match value with
  | .bool b => .ok (if b then 1 else 0)
  | .int n => .ok n
  | .float x => if x.den = 1 then .ok x.num else .error (.valueError s!"{field_name} must be an integer value")
  | .str s =>
    let text := strip s
    if text = "" then .error (.valueError s!"{field_name} must not be empty")
    else
      match intOfText text with
      | some n => .ok n
      | none => .error (.valueError s!"invalid literal for int() with base 10: {Py.repr text}")
  | value => .error (.exception "TypeError" s!"{field_name} must be an integer, got {typeName value}")

/-- `_looks_like_frame`. -/
def looks_like_frame (mapping : List (String × Json)) : Bool :=
  has_any mapping ASSET_KEYS && has_any mapping PRICE_KEYS && has_any mapping TIMESTAMP_KEYS

/-- `_flatten_frame`. -/
def flatten_frame (floats : Floats) (mapping : List (String × Json)) : Except PyError TelemetryTuple := do
  let sequence_value := (first_present mapping SEQUENCE_KEYS).getD (.int 0)
  let flags_value := (first_present mapping FLAGS_KEYS).getD (.int 0)
  match first_present mapping ASSET_KEYS, first_present mapping PRICE_KEYS, first_present mapping TIMESTAMP_KEYS with
  | none, _, _ => .error (.valueError "ticker frame is missing asset identifier")
  | _, none, _ => .error (.valueError "ticker frame is missing price")
  | _, _, none => .error (.valueError "ticker frame is missing timestamp")
  | some asset_value, some price_value, some timestamp_value =>
    return {
      asset_id := ← coerce_asset asset_value
      price := ← coerce_float floats price_value "price"
      timestamp := ← coerce_int timestamp_value "timestamp"
      sequence := ← coerce_int sequence_value "sequence"
      flags := ← coerce_int flags_value "flags" }

/-- Caught by `except (TypeError, ValueError)`. -/
def isTypeOrValueError : PyError → Bool
  | .valueError _ => true
  | .exception name _ => name = "TypeError"
  | _ => false

/-- A frame yielded; what the `except` around it catches is dropped with `drop_invalid`. -/
def yieldFrame (floats : Floats) (drop_invalid : Bool) (mapping : List (String × Json)) : Gen PyError TelemetryTuple :=
  match flatten_frame floats mapping with
  | .ok frame => .yield frame
  | .error e => if isTypeOrValueError e ∧ drop_invalid then .done else .raise e

/-- `isinstance(value, Mapping)` or a list or a tuple. -/
def isNested : Json → Bool
  | .list _ => true
  | .dict _ => true
  | _ => false

section Stack

/-- The value of a key where it is a list. -/
def listAt (mapping : List (String × Json)) (key : String) : Option Json :=
  match Json.get? mapping key with
  | some (.list items) => some (.list items)
  | _ => none

/-- The value of a key where it is a mapping. -/
def dictAt (mapping : List (String × Json)) (key : String) : Option Json :=
  match Json.get? mapping key with
  | some (.dict entries) => some (.dict entries)
  | _ => none

/-- The values that the loops over `_BATCH_KEYS`, `_CONTAINER_KEYS` and `_FRAME_KEYS` push, in their order. -/
def pushes (mapping : List (String × Json)) : List Json :=
  BATCH_KEYS.filterMap (listAt mapping) ++
    (CONTAINER_KEYS.filterMap (fun key => (dictAt mapping key).or (listAt mapping key)) ++
      FRAME_KEYS.filterMap (dictAt mapping))

/-- What is popped of a pushed value: a sequence is pushed reversed, item by item. -/
def elements : Json → List Json
  | .list items => items
  | value => [value]

mutual

/-- What bounds the turns of the loop: a mapping pushes at most thirteen of its values. -/
def weight : Json → ℕ
  | .list items => 1 + weightItems items
  | .dict entries => 1 + 13 * weightEntries entries
  | _ => 1

def weightItems : List Json → ℕ
  | [] => 0
  | v :: items => weight v + weightItems items

def weightEntries : List (String × Json) → ℕ
  | [] => 0
  | (_, v) :: entries => weight v + weightEntries entries

end

/-- Every value weighs something. -/
lemma weight_pos (v : Json) : 0 < weight v := by
  cases v <;> simp [weight]

/-- Items weigh as much as their parts. -/
@[simp] lemma weightItems_append (xs ys : List Json) : weightItems (xs ++ ys) = weightItems xs + weightItems ys := by
  induction xs with
  | nil => rw [List.nil_append, weightItems, Nat.zero_add]
  | cons x xs ih => rw [List.cons_append, weightItems, weightItems, ih, Nat.add_assoc]

/-- A value weighs no more than the mapping it is in. -/
lemma weight_get? {mapping : List (String × Json)} {key : String} {v : Json} (found : Json.get? mapping key = some v) :
    weight v ≤ weightEntries mapping := by
  induction mapping with
  | nil => cases found
  | cons e mapping ih =>
    rw [Json.get?_cons] at found
    rw [weightEntries]
    split at found
    · cases found
      exact Nat.le_add_right ..
    · exact (ih found).trans (Nat.le_add_left ..)

/-- A list is found under its key. -/
lemma listAt_eq_some {mapping : List (String × Json)} {key : String} {v : Json} (found : listAt mapping key = some v) :
    Json.get? mapping key = some v ∧ isNested v = true := by
  rw [listAt] at found
  split at found
  case h_1 items eq =>
    cases found
    exact ⟨eq, rfl⟩
  case h_2 => cases found

/-- A mapping is found under its key. -/
lemma dictAt_eq_some {mapping : List (String × Json)} {key : String} {v : Json} (found : dictAt mapping key = some v) :
    Json.get? mapping key = some v ∧ isNested v = true := by
  rw [dictAt] at found
  split at found
  case h_1 entries eq =>
    cases found
    exact ⟨eq, rfl⟩
  case h_2 => cases found

/-- What is pushed is a nested value of the mapping. -/
lemma of_mem_pushes {mapping : List (String × Json)} {v : Json} (mem : v ∈ pushes mapping) :
    ∃ key, Json.get? mapping key = some v ∧ isNested v = true := by
  rw [pushes, List.mem_append, List.mem_append, List.mem_filterMap, List.mem_filterMap, List.mem_filterMap] at mem
  obtain ⟨key, -, found⟩ | ⟨key, -, found⟩ | ⟨key, -, found⟩ := mem
  · exact ⟨key, listAt_eq_some found⟩
  · obtain here | ⟨-, here⟩ := Option.or_eq_some_iff.1 found
    · exact ⟨key, dictAt_eq_some here⟩
    · exact ⟨key, listAt_eq_some here⟩
  · exact ⟨key, dictAt_eq_some found⟩

/-- No more is pushed than there are keys of wrappers. -/
lemma length_pushes (mapping : List (String × Json)) : (pushes mapping).length ≤ 13 := by
  rw [pushes, List.length_append, List.length_append]
  have batch : (BATCH_KEYS.filterMap (listAt mapping)).length ≤ 6 := List.length_filterMap_le ..
  have container : (CONTAINER_KEYS.filterMap fun key => (dictAt mapping key).or (listAt mapping key)).length ≤ 3 :=
    List.length_filterMap_le ..
  have frame : (FRAME_KEYS.filterMap (dictAt mapping)).length ≤ 4 := List.length_filterMap_le ..
  omega

/-- The elements of a value weigh no more than it does. -/
lemma weight_elements (v : Json) : weightItems (elements v) ≤ weight v := by
  cases v <;> simp [elements, weight, weightItems]

/-- The elements of several values weigh no more than these together. -/
lemma weight_flatMap {bound : ℕ} {vs : List Json} (light : ∀ v ∈ vs, weight v ≤ bound) :
    weightItems (vs.flatMap elements) ≤ vs.length * bound := by
  induction vs with
  | nil => exact Nat.zero_le _
  | cons v vs ih =>
    rw [List.flatMap_cons, weightItems_append, List.length_cons, Nat.succ_mul, Nat.add_comm]
    exact Nat.add_le_add (ih fun w mem => light w (List.mem_cons_of_mem v mem))
      ((weight_elements v).trans (light v (List.mem_cons_self ..)))

/-- What a mapping puts on the stack is lighter than the mapping. -/
lemma weight_pushes (mapping : List (String × Json)) :
    weightItems ((pushes mapping).reverse.flatMap elements) < weight (.dict mapping) := by
  have each : ∀ v ∈ (pushes mapping).reverse, weight v ≤ weightEntries mapping := fun v mem => by
    obtain ⟨key, found, -⟩ := of_mem_pushes (List.mem_reverse.1 mem)
    exact weight_get? found
  have all := weight_flatMap each
  rw [List.length_reverse] at all
  rw [weight]
  have most := Nat.mul_le_mul_right (weightEntries mapping) (length_pushes mapping)
  omega

/-- The loop of `iter_flat_ticker_tuples` over its stack, whose top is the head. -/
def runStack (floats : Floats) (drop_invalid : Bool) : List Json → Gen PyError TelemetryTuple
  | [] => .done
  | .none :: stack => runStack floats drop_invalid stack
  | .dict mapping :: stack =>
    if looks_like_frame mapping then
      (yieldFrame floats drop_invalid mapping).andThen (runStack floats drop_invalid stack)
    else if pushes mapping ≠ [] ∨ drop_invalid then
      runStack floats drop_invalid ((pushes mapping).reverse.flatMap elements ++ stack)
    else .raise (.valueError s!"Unsupported ticker payload shape: {floats.reprMapping mapping}")
  | .list items :: stack => runStack floats drop_invalid (items ++ stack)
  | value :: stack =>
    if drop_invalid then runStack floats drop_invalid stack
    else .raise (.exception "TypeError" s!"Unsupported ticker payload type: {typeName value}")
termination_by stack => weightItems stack
decreasing_by
  all_goals simp only [weightItems, weightItems_append]
  · exact Nat.lt_add_of_pos_left (weight_pos _)
  · exact Nat.lt_add_of_pos_left (weight_pos _)
  · exact Nat.add_lt_add_right (weight_pushes mapping) _
  · rw [weight]
    omega
  · exact Nat.lt_add_of_pos_left (weight_pos _)

/-- `iter_flat_ticker_tuples`. -/
def iter_flat_ticker_tuples (floats : Floats) (drop_invalid : Bool) (payloads : List Json) :
    Gen PyError TelemetryTuple :=
  .forEach payloads fun payload => runStack floats drop_invalid [payload]

/-- `flatten_telemetry_frames`. -/
def flatten_telemetry_frames (floats : Floats) (drop_invalid : Bool) (payloads : List Json) :
    Except PyError (List TelemetryTuple) :=
  (iter_flat_ticker_tuples floats drop_invalid payloads).toList

/-- `parse_raw_pack` with the decoder of the text. -/
def parse_raw_pack (floats : Floats) (decode : List UInt8 → Except PyError Json) (drop_invalid : Bool)
    (raw : List UInt8) : Except PyError (List TelemetryTuple) :=
  if raw = [] then .error (.valueError "raw pack must not be empty")
  else do
    let decoded ← decode raw
    flatten_telemetry_frames floats drop_invalid (elements decoded)

end Stack

section Stream

/-- The events of `ijson.parse`; the events of scalars are one, with the value. -/
inductive Event where
  | start_map
  | end_map
  | map_key (key : String)
  | scalar (value : Json)
  | start_array
  | end_array

mutual

/-- The events of a document, in its order. -/
def events : Json → List Event
  | .list items => .start_array :: (eventsOfItems items ++ [.end_array])
  | .dict entries => .start_map :: (eventsOfEntries entries ++ [.end_map])
  | value => [.scalar value]

def eventsOfItems : List Json → List Event
  | [] => []
  | v :: items => events v ++ eventsOfItems items

def eventsOfEntries : List (String × Json) → List Event
  | [] => []
  | (key, v) :: entries => .map_key key :: (events v ++ eventsOfEntries entries)

end

/-- The variables of the loop of `iter_price_events_from_stream`; the top of the stack is the head. -/
structure Tokens where
  object_stack : List (ℤ × List (String × Json))
  current_key : Option String
  depth : ℤ

/-- The variables before the loop. -/
def Tokens.start : Tokens := ⟨[], none, 0⟩

/-- `_parse_frame_dict`. -/
def parse_frame_dict (floats : Floats) (drop_invalid : Bool) (frame : List (String × Json)) :
    Except PyError (Option TelemetryTuple) :=
  if looks_like_frame frame then
    match flatten_frame floats frame with
    | .ok result => .ok (some result)
    | .error e => if isTypeOrValueError e ∧ drop_invalid then .ok none else .error e
  else if drop_invalid then .ok none
  else .error (.valueError s!"Unsupported ticker payload shape: {floats.reprMapping frame}")

/-- What the end of a mapping yields. -/
def endFrame (floats : Floats) (drop_invalid : Bool) (frame_dict : List (String × Json)) : Gen PyError TelemetryTuple :=
  if looks_like_frame frame_dict then
    match parse_frame_dict floats drop_invalid frame_dict with
    | .ok (some result) => .yield result
    | .ok none => .done
    | .error e => .raise e
  else .done

/-- One turn of the loop: what it yields, and the variables after it. -/
def onEvent (floats : Floats) (drop_invalid : Bool) (s : Tokens) : Event → Gen PyError TelemetryTuple × Tokens
  | .start_map => (.done, ⟨(s.depth + 1, []) :: s.object_stack, none, s.depth + 1⟩)
  | .end_map =>
    match s.object_stack with
    | (_, frame_dict) :: rest => (endFrame floats drop_invalid frame_dict, ⟨rest, none, s.depth - 1⟩)
    | [] => (.done, ⟨[], none, s.depth - 1⟩)
  | .map_key key => (.done, { s with current_key := some key })
  | .scalar value =>
    match s.object_stack, s.current_key with
    | (open_depth, frame_dict) :: rest, some key =>
      (.done, { s with object_stack := (open_depth, Json.set frame_dict key value) :: rest, current_key := none })
    | _, _ => (.done, s)
  | .start_array => (.done, { s with current_key := none })
  | .end_array => (.done, { s with current_key := none })

/-- The loop of `iter_price_events_from_stream`. -/
def runTokens (floats : Floats) (drop_invalid : Bool) (s : Tokens) : List Event → Gen PyError TelemetryTuple
  | [] => .done
  | e :: es =>
    let (yielded, s') := onEvent floats drop_invalid s e
    yielded.andThen (runTokens floats drop_invalid s' es)

/-- `iter_price_events_from_stream`. -/
def iter_price_events_from_stream (floats : Floats) (drop_invalid : Bool) (source : List Event) :
    Gen PyError TelemetryTuple :=
  runTokens floats drop_invalid .start source

end Stream

/-- The loop that groups frames: the segments that are full, and the current one. -/
def segmentLoop (segment_size : ℤ) (frames : List TelemetryTuple) : List (List TelemetryTuple) × List TelemetryTuple :=
  frames.foldl (fun s frame =>
    let current := s.2 ++ [frame]
    if (current.length : ℤ) = segment_size then (s.1 ++ [current], []) else (s.1, current)) ([], [])

/-- What `build_telemetry_segments` and `build_segments_from_stream` make of the frames of their iterator. -/
def segmentsOf (segment_size : ℤ) (frames : Gen PyError TelemetryTuple) : Except PyError (List (List TelemetryTuple)) :=
  if segment_size ≤ 0 then .error (.valueError "segment_size must be greater than zero")
  else do
    let (segments, current) := segmentLoop segment_size (← frames.toList)
    return if current = [] then segments else segments ++ [current]

/-- `build_telemetry_segments`. -/
def build_telemetry_segments (floats : Floats) (payloads : List Json) (segment_size : ℤ) (drop_invalid : Bool) :
    Except PyError (List (List TelemetryTuple)) :=
  segmentsOf segment_size (iter_flat_ticker_tuples floats drop_invalid payloads)

/-- `build_segments_from_stream`. -/
def build_segments_from_stream (floats : Floats) (source : List Event) (segment_size : ℤ) (drop_invalid : Bool) :
    Except PyError (List (List TelemetryTuple)) :=
  segmentsOf segment_size (iter_price_events_from_stream floats drop_invalid source)

section
variable {floats : Floats} {drop : Bool}

/-! ### The stack -/

/-- The items of a list take its place on the stack. -/
lemma runStack_list (items stack : List Json) :
    runStack floats drop (.list items :: stack) = runStack floats drop (items ++ stack) := by
  rw [runStack]

/-- A scalar is dropped or raises. -/
lemma runStack_scalar {v : Json} {stack : List Json} (present : v ≠ .none) (scalar : isNested v = false) :
    runStack floats drop (v :: stack) =
      if drop then runStack floats drop stack
      else .raise (.exception "TypeError" s!"Unsupported ticker payload type: {typeName v}") := by
  cases v with
  | none => exact absurd rfl present
  | list items => cases scalar
  | dict mapping => cases scalar
  | bool b | int n | float x | str s => rw [runStack] <;> nofun

/-- What is lower in the stack waits for what is higher. -/
lemma runStack_append (xs ys : List Json) :
    runStack floats drop (xs ++ ys) = (runStack floats drop xs).andThen (runStack floats drop ys) := by
  match xs with
  | [] => rw [List.nil_append, runStack, Gen.done_andThen]
  | v :: xs =>
    by_cases scalar : v ≠ .none ∧ isNested v = false
    · rw [List.cons_append, runStack_scalar scalar.1 scalar.2, runStack_scalar scalar.1 scalar.2]
      split
      · exact runStack_append xs ys
      · rfl
    · cases v with
      | none => rw [List.cons_append, runStack, runStack, runStack_append xs ys]
      | list items =>
        rw [List.cons_append, runStack_list, runStack_list, ← List.append_assoc, runStack_append (items ++ xs) ys]
      | dict mapping =>
        rw [List.cons_append, runStack, runStack]
        split
        · rw [runStack_append xs ys, Gen.andThen_assoc]
        · split
          · rw [← List.append_assoc, runStack_append (_ ++ xs) ys]
          · rfl
      | bool b | int n | float x | str s => exact absurd ⟨nofun, rfl⟩ scalar
termination_by weightItems xs
decreasing_by
  all_goals simp only [weightItems, weightItems_append]
  · exact Nat.lt_add_of_pos_left (weight_pos _)
  · exact Nat.lt_add_of_pos_left (weight_pos _)
  · rw [weight]
    omega
  · exact Nat.add_lt_add_right (weight_pushes mapping) _
  · exact Nat.lt_add_of_pos_left (weight_pos _)

/-- The stack is a loop over its items. -/
lemma runStack_eq_forEach (xs : List Json) :
    runStack floats drop xs = .forEach xs fun v => runStack floats drop [v] := by
  induction xs with
  | nil => rw [runStack, Gen.forEach_nil]
  | cons x xs ih => rw [Gen.forEach_cons, ← ih, ← runStack_append, List.singleton_append]

/-- A nested value on the stack is its elements. -/
lemma runStack_elements (v : Json) : runStack floats drop (elements v) = runStack floats drop [v] := by
  cases v with
  | list items => rw [runStack_list, List.append_nil, elements]
  | none | bool b | int n | float x | str s | dict m => rfl

/-- The stack of a mapping that is no frame is a loop over what it pushes, the last one first. -/
lemma runStack_pushes (vs : List Json) :
    runStack floats drop (vs.flatMap elements) = .forEach vs fun v => runStack floats drop [v] := by
  rw [runStack_eq_forEach, Gen.forEach_flatMap]
  exact Gen.forEach_congr fun v _ => by rw [← runStack_eq_forEach, runStack_elements]

/-! ### The stream -/

/-- What the loop has collected of the entries of a mapping. -/
def gathered (frame entries : List (String × Json)) : List (String × Json) :=
  Json.update frame (entries.filter fun e => !isNested e.2)

mutual

/-- What the events of a document yield: the frames of its parts, and each mapping's own after them. -/
def streamed (floats : Floats) (drop : Bool) : Json → Gen PyError TelemetryTuple
  | .list items => streamedItems floats drop items
  | .dict entries => (streamedEntries floats drop entries).andThen (endFrame floats drop (gathered [] entries))
  | _ => .done

def streamedItems (floats : Floats) (drop : Bool) : List Json → Gen PyError TelemetryTuple
  | [] => .done
  | v :: items => (streamed floats drop v).andThen (streamedItems floats drop items)

def streamedEntries (floats : Floats) (drop : Bool) : List (String × Json) → Gen PyError TelemetryTuple
  | [] => .done
  | (_, v) :: entries => (streamed floats drop v).andThen (streamedEntries floats drop entries)

end

/-- Items are streamed one after the other. -/
lemma streamedItems_eq (items : List Json) :
    streamedItems floats drop items = .forEach items (streamed floats drop) := by
  induction items with
  | nil => rw [streamedItems, Gen.forEach_nil]
  | cons v items ih => rw [streamedItems, Gen.forEach_cons, ih]

/-- The values of a mapping are streamed one after the other. -/
lemma streamedEntries_eq (entries : List (String × Json)) :
    streamedEntries floats drop entries = .forEach (entries.map Prod.snd) (streamed floats drop) := by
  induction entries with
  | nil => rw [streamedEntries, List.map_nil, Gen.forEach_nil]
  | cons e entries ih => rw [streamedEntries, List.map_cons, Gen.forEach_cons, ih]

/-- A scalar streams nothing. -/
lemma streamed_scalar {v : Json} (scalar : isNested v = false) : streamed floats drop v = .done := by
  cases v with
  | list items => cases scalar
  | dict entries => cases scalar
  | none | bool b | int n | float x | str s => rw [streamed] <;> nofun

/-- The events are taken one after the other. -/
lemma runTokens_cons (s : Tokens) (e : Event) (es : List Event) :
    runTokens floats drop s (e :: es) =
      (onEvent floats drop s e).1.andThen (runTokens floats drop (onEvent floats drop s e).2 es) := rfl

/-- A scalar is gathered under its key. -/
lemma gathered_scalar {frame entries : List (String × Json)} {key : String} {v : Json} (scalar : isNested v = false) :
    gathered frame ((key, v) :: entries) = gathered (Json.set frame key v) entries := by
  have kept : (!isNested v) = true := congrArg (!·) scalar
  rw [gathered, List.filter_cons, if_pos kept]
  rfl

/-- A nested value is not. -/
lemma gathered_nested {frame entries : List (String × Json)} {key : String} {v : Json} (nested : isNested v = true) :
    gathered frame ((key, v) :: entries) = gathered frame entries := by
  have dropped : ¬(!isNested v) = true := by simp [nested]
  rw [gathered, List.filter_cons, if_neg dropped]
  rfl

/-- A scalar is one event. -/
lemma events_scalar {v : Json} (scalar : isNested v = false) : events v = [.scalar v] := by
  cases v with
  | list items => cases scalar
  | dict entries => cases scalar
  | none | bool b | int n | float x | str s => rw [events] <;> nofun

/-- A scalar outside of a mapping's entries is passed over. -/
lemma onEvent_loose {s : Tokens} (free : s.current_key = none) (v : Json) :
    onEvent floats drop s (.scalar v) = (.done, s) := by
  rw [onEvent]
  split
  case h_1 waits => cases free.symm.trans waits
  case h_2 => rfl

mutual

/-- The events of a nested value yield what it streams, and leave the mappings around it as they are. -/
lemma runTokens_nested {v : Json} (nested : isNested v = true) (s : Tokens) (es : List Event) :
    runTokens floats drop s (events v ++ es) =
      (streamed floats drop v).andThen (runTokens floats drop { s with current_key := none } es) := by
  match v with
  | .list items =>
    rw [events, List.cons_append, runTokens_cons, streamed, List.append_assoc]
    exact (Gen.done_andThen _).trans (runTokens_items items _ rfl es)
  | .dict entries =>
    rw [events, List.cons_append, runTokens_cons, streamed, List.append_assoc, Gen.andThen_assoc]
    refine (Gen.done_andThen _).trans ((runTokens_entries entries _ [] _ _ _).trans ?_)
    rw [List.singleton_append, runTokens_cons, onEvent, add_sub_cancel_right]

/-- The events of items yield what these stream. -/
lemma runTokens_items (items : List Json) (s : Tokens) (free : s.current_key = none) (es : List Event) :
    runTokens floats drop s (eventsOfItems items ++ ([.end_array] ++ es)) =
      (streamedItems floats drop items).andThen (runTokens floats drop s es) := by
  have same : { s with current_key := none } = s := free ▸ rfl
  match items with
  | [] =>
    rw [eventsOfItems, streamedItems, List.nil_append, List.singleton_append, runTokens_cons, onEvent, same]
  | v :: items =>
    rw [eventsOfItems, streamedItems, List.append_assoc, Gen.andThen_assoc]
    by_cases nested : isNested v = true
    · rw [runTokens_nested nested, same, runTokens_items items s free es]
    · have scalar := Bool.eq_false_iff.2 nested
      rw [events_scalar scalar, streamed_scalar scalar, List.singleton_append, runTokens_cons, onEvent_loose free]
      exact congrArg _ (runTokens_items items s free es)

/-- The events of entries yield what their values stream, and gather the scalars. -/
lemma runTokens_entries (entries : List (String × Json)) (opened : ℤ) (frame : List (String × Json))
    (rest : List (ℤ × List (String × Json))) (depth : ℤ) (es : List Event) :
    runTokens floats drop ⟨(opened, frame) :: rest, none, depth⟩ (eventsOfEntries entries ++ es) =
      (streamedEntries floats drop entries).andThen
        (runTokens floats drop ⟨(opened, gathered frame entries) :: rest, none, depth⟩ es) := by
  match entries with
  | [] => rfl
  | (key, v) :: entries =>
    rw [eventsOfEntries, streamedEntries, List.cons_append, runTokens_cons, List.append_assoc, Gen.andThen_assoc]
    refine (Gen.done_andThen _).trans ?_
    by_cases nested : isNested v = true
    · rw [runTokens_nested nested, gathered_nested nested, ← runTokens_entries entries opened frame rest depth es]
      rfl
    · have scalar := Bool.eq_false_iff.2 nested
      rw [events_scalar scalar, streamed_scalar scalar, gathered_scalar scalar, List.singleton_append, runTokens_cons,
        ← runTokens_entries entries opened _ rest depth es]
      rfl

end

/-- The stream of a document is what its events yield. -/
lemma iter_price_events_eq (document : Json) :
    iter_price_events_from_stream floats drop (events document) = streamed floats drop document := by
  by_cases nested : isNested document = true
  · have run := @runTokens_nested floats drop document nested .start []
    rw [List.append_nil] at run
    exact run.trans (Gen.andThen_done _)
  · have scalar := Bool.eq_false_iff.2 nested
    rw [streamed_scalar scalar, events_scalar scalar]
    rfl

/-! ### Documents that both read alike -/

/-- `_flatten_frame` reads these keys. -/
def FIELD_KEYS : List String := ASSET_KEYS ++ PRICE_KEYS ++ TIMESTAMP_KEYS ++ SEQUENCE_KEYS ++ FLAGS_KEYS

/-- No part of the value looks like a frame. -/
inductive Quiet : Json → Prop
  | scalar {v : Json} (scalar : isNested v = false) : Quiet v
  | list {items : List Json} (each : ∀ v ∈ items, Quiet v) : Quiet (.list items)
  | dict {entries : List (String × Json)} (nodup : (entries.map Prod.fst).Nodup)
      (plain : looks_like_frame entries = false) (each : ∀ e ∈ entries, Quiet e.2) : Quiet (.dict entries)

/-- The supported shapes: frames whose fields are scalars, sequences of supported shapes, and mappings of which the keys
of a wrapper hold supported shapes, in the order in which the stack takes them, and the others nothing of interest. With
`drop_invalid` scalars are supported, and wrappers of nothing. -/
inductive Aligned (drop : Bool) : Json → Prop
  | null : Aligned drop .none
  | scalar {v : Json} (dropped : drop = true) (scalar : isNested v = false) : Aligned drop v
  | list {items : List Json} (each : ∀ v ∈ items, Aligned drop v) : Aligned drop (.list items)
  | frame {entries : List (String × Json)} (nodup : (entries.map Prod.fst).Nodup)
      (frame : looks_like_frame entries = true)
      (fields : ∀ key ∈ FIELD_KEYS, ∀ v, Json.get? entries key = some v → isNested v = false)
      (quiet : ∀ e ∈ entries, Quiet e.2) : Aligned drop (.dict entries)
  | wrapper {entries : List (String × Json)} (nodup : (entries.map Prod.fst).Nodup)
      (plain : looks_like_frame entries = false) (inside : Json → Bool)
      (ordered : (entries.map Prod.snd).filter inside = (pushes entries).reverse)
      (quiet : ∀ e ∈ entries, inside e.2 = false → Quiet e.2) (expanded : pushes entries ≠ [] ∨ drop = true)
      (each : ∀ v ∈ pushes entries, Aligned drop v) : Aligned drop (.dict entries)

/-- Of an entry, the end of the mapping finds a scalar. -/
lemma get?_gathered {entries : List (String × Json)} (nodup : (entries.map Prod.fst).Nodup) (key : String) :
    Json.get? (gathered [] entries) key = (Json.get? entries key).filter fun v => !isNested v := by
  have keys : ((entries.filter fun e => !isNested e.2).map Prod.fst).Nodup :=
    nodup.sublist (List.Sublist.map _ List.filter_sublist)
  have found : Json.get? (gathered [] entries) key = (Json.get? (entries.filter fun e => !isNested e.2) key).or none :=
    Json.get?_update [] keys key
  rw [found, Option.or_none, Json.get?_filter nodup fun v => !isNested v]

/-- Only what a mapping has is found at its end. -/
lemma has_any_gathered {entries : List (String × Json)} (nodup : (entries.map Prod.fst).Nodup) {keys : List String}
    (present : has_any (gathered [] entries) keys = true) : has_any entries keys = true := by
  rw [has_any, first_present, List.findSome?_isSome_iff] at present ⊢
  obtain ⟨key, mem, found⟩ := present
  rw [get?_gathered nodup] at found
  exact ⟨key, mem, Option.isSome_of_isSome_filter _ _ found⟩

/-- A mapping that does not look like a frame does not look so at its end. -/
lemma plain_gathered {entries : List (String × Json)} (nodup : (entries.map Prod.fst).Nodup)
    (plain : looks_like_frame entries = false) : looks_like_frame (gathered [] entries) = false := by
  refine Bool.eq_false_iff.2 fun looks => Bool.eq_false_iff.1 plain ?_
  rw [looks_like_frame, Bool.and_eq_true, Bool.and_eq_true] at looks ⊢
  exact ⟨⟨has_any_gathered nodup looks.1.1, has_any_gathered nodup looks.1.2⟩, has_any_gathered nodup looks.2⟩

/-- A mapping that does not look like a frame ends without one. -/
lemma endFrame_plain {entries : List (String × Json)} (plain : looks_like_frame entries = false) :
    endFrame floats drop entries = .done := by
  rw [endFrame, plain]
  rfl

/-- A quiet value streams nothing. -/
lemma streamed_quiet {v : Json} (quiet : Quiet v) : streamed floats drop v = .done := by
  induction quiet with
  | scalar scalar => exact streamed_scalar scalar
  | list _ ih => rw [streamed, streamedItems_eq, Gen.forEach_eq_done ih]
  | dict nodup plain _ ih =>
    rw [streamed, streamedEntries_eq, endFrame_plain (plain_gathered nodup plain), Gen.andThen_done]
    refine Gen.forEach_eq_done fun v mem => ?_
    obtain ⟨e, inEntries, rfl⟩ := List.mem_map.1 mem
    exact ih e inEntries

/-- Where its fields are scalars, a frame is the same at its end. -/
lemma first_present_gathered {entries : List (String × Json)} (nodup : (entries.map Prod.fst).Nodup)
    {keys : List String}
    (fields : ∀ key ∈ keys, ∀ v, Json.get? entries key = some v → isNested v = false) :
    first_present (gathered [] entries) keys = first_present entries keys := by
  induction keys with
  | nil => rfl
  | cons key keys ih =>
    have same : Json.get? (gathered [] entries) key = Json.get? entries key := by
      rw [get?_gathered nodup]
      cases found : Json.get? entries key with
      | none => rfl
      | some v => rw [Option.filter_some, fields key (List.mem_cons_self ..) v found, Bool.not_false, if_pos rfl]
    rw [first_present, first_present, List.findSome?_cons, List.findSome?_cons, same]
    cases Json.get? entries key with
    | none => exact ih fun other mem => fields other (List.mem_cons_of_mem key mem)
    | some v => rfl

/-- The end of a frame yields what the stack yields for it. -/
lemma endFrame_gathered {entries : List (String × Json)} (nodup : (entries.map Prod.fst).Nodup)
    (frame : looks_like_frame entries = true)
    (fields : ∀ key ∈ FIELD_KEYS, ∀ v, Json.get? entries key = some v → isNested v = false) :
    endFrame floats drop (gathered [] entries) = yieldFrame floats drop entries := by
  have same : ∀ {keys : List String}, keys ⊆ FIELD_KEYS →
      first_present (gathered [] entries) keys = first_present entries keys := fun sub =>
    first_present_gathered nodup fun key mem => fields key (sub mem)
  have asset := same (show ASSET_KEYS ⊆ FIELD_KEYS by decide)
  have price := same (show PRICE_KEYS ⊆ FIELD_KEYS by decide)
  have timestamp := same (show TIMESTAMP_KEYS ⊆ FIELD_KEYS by decide)
  have sequence := same (show SEQUENCE_KEYS ⊆ FIELD_KEYS by decide)
  have flags := same (show FLAGS_KEYS ⊆ FIELD_KEYS by decide)
  have looks : looks_like_frame (gathered [] entries) = true := by
    rw [looks_like_frame, has_any, has_any, has_any, asset, price, timestamp]
    exact frame
  have flat : flatten_frame floats (gathered [] entries) = flatten_frame floats entries := by
    rw [flatten_frame, flatten_frame, asset, price, timestamp, sequence, flags]
  rw [endFrame, if_pos looks, parse_frame_dict, if_pos looks, yieldFrame, flat]
  cases flatten_frame floats entries with
  | ok result => rfl
  | error e =>
    by_cases caught : isTypeOrValueError e = true ∧ drop = true
    · simp only [if_pos caught]
    · simp only [if_neg caught]

/-- On the supported shapes the stack yields what the stream does. -/
lemma runStack_eq_streamed {document : Json} (aligned : Aligned drop document) :
    runStack floats drop [document] = streamed floats drop document := by
  induction aligned with
  | null => rw [runStack, runStack, streamed_scalar rfl]
  | @scalar v dropped scalar =>
    rw [streamed_scalar scalar]
    by_cases present : v = .none
    · rw [present, runStack, runStack]
    · rw [runStack_scalar present scalar, if_pos dropped, runStack]
  | list _ ih =>
    rw [runStack_list, List.append_nil, runStack_eq_forEach, streamed, streamedItems_eq, Gen.forEach_congr ih]
  | @frame entries nodup frame fields quiet =>
    have silent : streamedEntries floats drop entries = .done := by
      rw [streamedEntries_eq]
      refine Gen.forEach_eq_done fun v mem => ?_
      obtain ⟨e, inEntries, rfl⟩ := List.mem_map.1 mem
      exact streamed_quiet (quiet e inEntries)
    rw [runStack, if_pos frame, runStack, Gen.andThen_done, streamed, silent, Gen.done_andThen,
      endFrame_gathered nodup frame fields]
  | @wrapper entries nodup plain inside ordered quiet expanded _ ih =>
    have walk : streamedEntries floats drop entries = .forEach (pushes entries).reverse (streamed floats drop) := by
      rw [streamedEntries_eq, ← ordered]
      refine (Gen.forEach_filter inside fun v mem outside => ?_).symm
      obtain ⟨e, inEntries, rfl⟩ := List.mem_map.1 mem
      exact streamed_quiet (quiet e inEntries outside)
    rw [runStack, if_neg (Bool.eq_false_iff.1 plain), if_pos expanded, List.append_nil, runStack_pushes, streamed, walk,
      endFrame_plain (plain_gathered nodup plain), Gen.andThen_done]
    exact Gen.forEach_congr fun v mem => ih v (List.mem_reverse.1 mem)

/-- `parse_raw_pack` flattens the decoded document: the payloads of an array are what the stack takes from it. -/
lemma parse_raw_pack_eq {decode : List UInt8 → Except PyError Json} {raw : List UInt8} {document : Json}
    (present : raw ≠ []) (decoded : decode raw = .ok document) :
    parse_raw_pack floats decode drop raw = flatten_telemetry_frames floats drop [document] := by
  have same : iter_flat_ticker_tuples floats drop (elements document) =
      iter_flat_ticker_tuples floats drop [document] := by
    rw [iter_flat_ticker_tuples, ← runStack_eq_forEach, runStack_elements, iter_flat_ticker_tuples, Gen.forEach_cons,
      Gen.forEach_nil, Gen.andThen_done]
  rw [parse_raw_pack, if_neg present, decoded]
  exact congrArg Gen.toList same

end

/-- Full segments, and a current one that is not full, hold the frames in order. -/
lemma segmentLoop_spec {segment_size : ℤ} (pos : 0 < segment_size) (frames : List TelemetryTuple) :
    (segmentLoop segment_size frames).1.flatten ++ (segmentLoop segment_size frames).2 = frames ∧
      (∀ g ∈ (segmentLoop segment_size frames).1, (g.length : ℤ) = segment_size) ∧
      ((segmentLoop segment_size frames).2.length : ℤ) < segment_size := by
  induction frames using List.reverseRecOn with
  | nil => exact ⟨rfl, nofun, pos⟩
  | append_singleton frames frame ih =>
    obtain ⟨order, full, short⟩ := ih
    rw [segmentLoop, List.foldl_append, List.foldl_cons, List.foldl_nil, ← segmentLoop]
    generalize segmentLoop segment_size frames = s at order full short ⊢
    dsimp only
    split
    case isTrue fills =>
      refine ⟨?_, fun g mem => ?_, pos⟩
      · rw [List.flatten_append, List.flatten_singleton, List.append_nil, ← List.append_assoc, order]
      · obtain before | here := List.mem_append.1 mem
        · exact full g before
        · exact List.mem_singleton.1 here ▸ fills
    case isFalse room =>
      refine ⟨by rw [← List.append_assoc, order], full, lt_of_le_of_ne ?_ room⟩
      rw [List.length_append, List.length_singleton]
      push_cast
      omega

/-- The segments hold the frames in order, and all but the last are full. -/
lemma segmentsOf_ok {segment_size : ℤ} {frames : Gen PyError TelemetryTuple} {segments : List (List TelemetryTuple)}
    (ok : segmentsOf segment_size frames = .ok segments) :
    frames.toList = .ok segments.flatten ∧ (∀ g ∈ segments.dropLast, (g.length : ℤ) = segment_size) ∧
      ∀ g ∈ segments, 0 < g.length ∧ (g.length : ℤ) ≤ segment_size := by
  rw [segmentsOf] at ok
  split at ok
  case isTrue => cases ok
  case isFalse positive =>
    have pos := not_le.1 positive
    cases collect : frames.toList with
    | error e =>
      rw [collect] at ok
      cases ok
    | ok items =>
      rw [collect] at ok
      obtain ⟨order, full, short⟩ := segmentLoop_spec pos items
      have eq : (if (segmentLoop segment_size items).2 = [] then (segmentLoop segment_size items).1
          else (segmentLoop segment_size items).1 ++ [(segmentLoop segment_size items).2]) = segments :=
        Except.ok.inj ok
      generalize segmentLoop segment_size items = s at order full short eq
      split at eq
      case isTrue none =>
        rw [none, List.append_nil] at order
        refine ⟨by rw [← eq, order], fun g mem => full g (eq ▸ List.mem_of_mem_dropLast mem), fun g mem => ?_⟩
        have whole := full g (eq ▸ mem)
        omega
      case isFalse some =>
        subst eq
        refine ⟨by rw [List.flatten_append, List.flatten_singleton, order], fun g mem => ?_, fun g mem => ?_⟩
        · rw [List.dropLast_concat] at mem
          exact full g mem
        · obtain before | here := List.mem_append.1 mem
          · have whole := full g before
            omega
          · rw [List.mem_singleton.1 here]
            exact ⟨List.length_pos_iff.2 some, short.le⟩

/-- On the supported shapes the streaming path yields the frames of the in-memory path, in their order, and raises what
it raises, and so do the functions that collect them and group them into segments, which hold the frames in order and of
which all but the last are full. -/
theorem streaming_agrees (floats : Floats) (drop : Bool) {document : Json} (aligned : Aligned drop document) :
    iter_price_events_from_stream floats drop (events document) = iter_flat_ticker_tuples floats drop [document] ∧
      (∀ segment_size, build_segments_from_stream floats (events document) segment_size drop =
        build_telemetry_segments floats [document] segment_size drop) ∧
      (∀ segment_size segments, build_telemetry_segments floats [document] segment_size drop = .ok segments →
        flatten_telemetry_frames floats drop [document] = .ok segments.flatten ∧
          (∀ g ∈ segments.dropLast, (g.length : ℤ) = segment_size) ∧
          ∀ g ∈ segments, 0 < g.length ∧ (g.length : ℤ) ≤ segment_size) ∧
      ∀ decode raw, raw ≠ [] → decode raw = .ok document →
        parse_raw_pack floats decode drop raw =
          (iter_price_events_from_stream floats drop (events document)).toList := by
  have same : iter_price_events_from_stream floats drop (events document) =
      iter_flat_ticker_tuples floats drop [document] := by
    rw [iter_price_events_eq, ← runStack_eq_streamed aligned, iter_flat_ticker_tuples, Gen.forEach_cons,
      Gen.forEach_nil, Gen.andThen_done]
  refine ⟨same, fun segment_size => ?_, fun segment_size segments ok => segmentsOf_ok ok,
    fun decode raw present decoded => ?_⟩
  · rw [build_segments_from_stream, build_telemetry_segments, same]
  · rw [same, parse_raw_pack_eq present decoded]
    rfl

/-- A flat frame is supported. -/
lemma Aligned.flat {drop : Bool} {entries : List (String × Json)} (nodup : (entries.map Prod.fst).Nodup)
    (looks : looks_like_frame entries = true) (scalars : ∀ e ∈ entries, isNested e.2 = false) :
    Aligned drop (.dict entries) := by
  refine .frame nodup looks (fun key _ v found => ?_) fun e mem => .scalar (scalars e mem)
  obtain ⟨before, after, eq, -⟩ := List.lookup_eq_some_iff.1 found
  exact scalars (key, v) (eq ▸ List.mem_append_right before (List.mem_cons_self ..))

/-- A wrapper of two frames, with a mapping of another kind beside it: both paths yield the frames in the order of the
document. -/
theorem streaming_agrees_wrapper :
    let document := Json.dict [("type", .str "update"),
      ("data", .list [.dict [("asset", .str "NGN"), ("price", .str "5"), ("ts", .int 7)],
        .dict [("asset", .str "KES"), ("price", .str "6"), ("ts", .int 8)]]),
      ("meta", .dict [("v", .int 1)])]
    let floats : Floats := ⟨fun _ => "", fun n => some n, fun text => if text = "5" then some 5 else some 6⟩
    iter_price_events_from_stream floats false (events document) = iter_flat_ticker_tuples floats false [document] ∧
      (iter_price_events_from_stream floats false (events document)).toList.toOption =
        some [⟨"NGN", 5, 7, 0, 0⟩, ⟨"KES", 6, 8, 0, 0⟩] := by
  intro document floats
  have first : Aligned false (.dict [("asset", .str "NGN"), ("price", .str "5"), ("ts", .int 7)]) :=
    .flat (by decide) (by decide) (by decide)
  have second : Aligned false (.dict [("asset", .str "KES"), ("price", .str "6"), ("ts", .int 8)]) :=
    .flat (by decide) (by decide) (by decide)
  have frames : Aligned false (.list [.dict [("asset", .str "NGN"), ("price", .str "5"), ("ts", .int 7)],
      .dict [("asset", .str "KES"), ("price", .str "6"), ("ts", .int 8)]]) := by
    refine .list fun v mem => ?_
    simp only [List.mem_cons, List.not_mem_nil, or_false] at mem
    obtain rfl | rfl := mem
    · exact first
    · exact second
  have rest : Quiet (.dict [("v", .int 1)]) :=
    .dict (by decide) (by decide) fun e mem => .scalar (List.mem_singleton.1 mem ▸ rfl)
  have aligned : Aligned false document := by
    refine .wrapper (by decide) (by decide) (fun | .list _ => true | _ => false) rfl
      (fun e mem outside => ?_) (.inl nofun) fun v mem => List.mem_singleton.1 mem ▸ frames
    simp only [List.mem_cons, List.not_mem_nil, or_false] at mem
    obtain rfl | rfl | rfl := mem
    · exact .scalar rfl
    · cases outside
    · exact rest
  exact ⟨(streaming_agrees _ _ aligned).1, by decide +kernel⟩

end StellarFlow.Ingestion
