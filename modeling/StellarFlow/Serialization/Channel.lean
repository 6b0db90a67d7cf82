import Mathlib.Tactic.NormNum
import StellarFlow.Lib.Machine
import StellarFlow.Lib.RecordStream
import StellarFlow.Serialization.Telemetry

/-!
# Writes to message channels

Model of `StructPackEncoder` in `src/serialization/encoders.py`. Every write is a header and a packed payload;
`receive` is a receiver that believes the header. `channel_round_trip` is about any calls of one encoder, also those
that raise, and about what has arrived in any pieces.
-/

namespace StellarFlow.Serialization
open PyStruct TextCodec RecordStream

/-- `_HDR_STRUCT`, the format `>HBBIQQ`. -/
def hdrStruct : List Code := [.unsigned 2, .unsigned 1, .unsigned 1, .unsigned 4, .unsigned 8, .unsigned 8]

/-- `_HDR_SIZE`. -/
def hdrSize : ℕ := PyStruct.size hdrStruct

/-- `_RBM_STRUCT`, the format `>QQqQQQQqqQ`. -/
def rbmStruct : List Code :=
  [.unsigned 8, .unsigned 8, .signed 8, .unsigned 8, .unsigned 8, .unsigned 8, .unsigned 8, .signed 8, .signed 8,
    .unsigned 8]

/-- `_RBM_SIZE`. -/
def rbmSize : ℕ := PyStruct.size rbmStruct

/-- `_BPM_STRUCT`, the format `>QQqQQq`. -/
def bpmStruct : List Code := [.unsigned 8, .unsigned 8, .signed 8, .unsigned 8, .unsigned 8, .signed 8]

/-- `_BPM_SIZE`. -/
def bpmSize : ℕ := PyStruct.size bpmStruct

/-- `_HDR_MAGIC`. -/
def hdrMagic : ℤ := 0xBEEF

/-- `_WIRE_VERSION`. -/
def wireVersion : ℤ := 1

def ipcTypeTelemetryFrame : ℤ := 0x01
def ipcTypeTelemetryBundle : ℤ := 0x02
def ipcTypeRingBufferMetric : ℤ := 0x03
def ipcTypeBackpressureMetric : ℤ := 0x04

structure RingBufferMetric where
  size : ℤ
  capacity : ℤ
  utilization : ℤ
  totalEnqueued : ℤ
  totalDequeued : ℤ
  enqueueFailures : ℤ
  dequeueFailures : ℤ
  avgLatencyUs : ℤ
  peakLatencyUs : ℤ
  batchesProcessed : ℤ
  deriving DecidableEq

structure BackpressureMetric where
  queueLength : ℤ
  maxCapacity : ℤ
  saturation : ℤ
  droppedPackets : ℤ
  slowedIngestions : ℤ
  avgProcessingUs : ℤ
  deriving DecidableEq

/-- The arguments of `_RBM_STRUCT.pack`. -/
def RingBufferMetric.values (m : RingBufferMetric) : List Value :=
  [.int m.size, .int m.capacity, .int m.utilization, .int m.totalEnqueued, .int m.totalDequeued, .int m.enqueueFailures,
    .int m.dequeueFailures, .int m.avgLatencyUs, .int m.peakLatencyUs, .int m.batchesProcessed]

/-- The arguments of `_BPM_STRUCT.pack`. -/
def BackpressureMetric.values (m : BackpressureMetric) : List Value :=
  [.int m.queueLength, .int m.maxCapacity, .int m.saturation, .int m.droppedPackets, .int m.slowedIngestions,
    .int m.avgProcessingUs]

/-- An encoder, which counts its headers. -/
structure StructPackEncoder where
  seq : ℕ

namespace StructPackEncoder

/-- The arguments of `_HDR_STRUCT.pack`. -/
def headerValues (payloadType payloadLen seq now : ℤ) : List Value :=
  [.int hdrMagic, .int payloadType, .int wireVersion, .int payloadLen, .int seq, .int now]

/-- `_pack_header`; `now` is `_now_ms()`. The number is taken also where packing fails. -/
def packHeader (s : StructPackEncoder) (payloadType payloadLen now : ℤ) :
    Except PyError (List UInt8) × StructPackEncoder :=
  (PyStruct.pack .big hdrStruct (headerValues payloadType payloadLen s.seq now), { s with seq := s.seq + 1 })

/-- What the functions `encode_…` do with their payload, once it is packed. -/
def write (s : StructPackEncoder) (payloadType : ℤ) (packed : Except PyError (List UInt8)) (now : ℤ) :
    Except PyError (List UInt8) × StructPackEncoder :=
  match packed with
  | .error error => (.error error, s)
  | .ok payload =>
    let (header, s') := s.packHeader payloadType payload.length now
    (header.map (· ++ payload), s')

/-- `encode_telemetry_frame`. -/
def encodeTelemetryFrame (s : StructPackEncoder) (frame : TelemetryFrame) (now : ℤ) :=
  s.write ipcTypeTelemetryFrame (TelemetryEncoder.pack frame) now

/-- `encode_telemetry_bundle`. -/
def encodeTelemetryBundle (s : StructPackEncoder) (frames : List TelemetryFrame) (now : ℤ) :=
  s.write ipcTypeTelemetryBundle (TelemetryEncoder.packBundle frames) now

/-- `encode_ring_buffer_metric`. -/
def encodeRingBufferMetric (s : StructPackEncoder) (metric : RingBufferMetric) (now : ℤ) :=
  s.write ipcTypeRingBufferMetric (PyStruct.pack .big rbmStruct metric.values) now

/-- `encode_backpressure_metric`. -/
def encodeBackpressureMetric (s : StructPackEncoder) (metric : BackpressureMetric) (now : ℤ) :=
  s.write ipcTypeBackpressureMetric (PyStruct.pack .big bpmStruct metric.values) now

/-- The result of `decode_header`. -/
structure Header where
  payloadType : ℤ
  version : ℤ
  payloadLen : ℤ
  sequence : ℤ
  timestampMs : ℤ

/-- `f"{n:04X}"` for a number of two bytes. -/
def hex04 (n : ℕ) : String :=
  String.ofList ([n / 4096, n / 256 % 16, n / 16 % 16, n % 16].map fun digit => (Nat.digitChar digit).toUpper)

/-- `decode_header`. -/
def decodeHeader (data : List UInt8) : Except PyError Header := do
  let unpacked ← PyStruct.unpack .big hdrStruct (data.take hdrSize)
  match unpacked with
  | [.int magic, .int payloadType, .int version, .int payloadLen, .int sequence, .int timestampMs] =>
    if magic ≠ hdrMagic then
      .error (.valueError
        ("Invalid IPC frame magic: expected 0x" ++ hex04 hdrMagic.toNat ++ ", got 0x" ++ hex04 magic.toNat))
    else return ⟨payloadType, version, payloadLen, sequence, timestampMs⟩
  | _ => .error .indexError

/-- `decode_ring_buffer_metric`. -/
def decodeRingBufferMetric (data : List UInt8) : Except PyError RingBufferMetric := do
  let fields ← PyStruct.unpack .big rbmStruct (data.take rbmSize)
  match fields with
  | [.int size, .int capacity, .int utilization, .int totalEnqueued, .int totalDequeued, .int enqueueFailures,
      .int dequeueFailures, .int avgLatencyUs, .int peakLatencyUs, .int batchesProcessed] =>
    return ⟨size, capacity, utilization, totalEnqueued, totalDequeued, enqueueFailures, dequeueFailures, avgLatencyUs,
      peakLatencyUs, batchesProcessed⟩
  | _ => .error .indexError

/-- `decode_backpressure_metric`. -/
def decodeBackpressureMetric (data : List UInt8) : Except PyError BackpressureMetric := do
  let fields ← PyStruct.unpack .big bpmStruct (data.take bpmSize)
  match fields with
  | [.int queueLength, .int maxCapacity, .int saturation, .int droppedPackets, .int slowedIngestions,
      .int avgProcessingUs] =>
    return ⟨queueLength, maxCapacity, saturation, droppedPackets, slowedIngestions, avgProcessingUs⟩
  | _ => .error .indexError

end StructPackEncoder

/-- What is encoded: `IPCPayload`, or a bundle. -/
inductive IPCPayload where
  | telemetryFrame (frame : TelemetryFrame)
  | telemetryBundle (frames : List TelemetryFrame)
  | ringBufferMetric (metric : RingBufferMetric)
  | backpressureMetric (metric : BackpressureMetric)
  deriving DecidableEq

open StructPackEncoder in
/-- A call of the encoder, and the time at which it is made. -/
def StructPackEncoder.call (s : StructPackEncoder) :
    IPCPayload × ℤ → Except PyError (List UInt8) × StructPackEncoder
  | (.telemetryFrame frame, now) => s.encodeTelemetryFrame frame now
  | (.telemetryBundle frames, now) => s.encodeTelemetryBundle frames now
  | (.ringBufferMetric metric, now) => s.encodeRingBufferMetric metric now
  | (.backpressureMetric metric, now) => s.encodeBackpressureMetric metric now

/-- What the calls wrote. -/
def written (calls : List (IPCPayload × ℤ)) : List UInt8 :=
  ((Machine.answers StructPackEncoder.call ⟨0⟩ calls).filterMap Except.toOption).flatten

/-! ### The receiver -/

/-- A write that was received. -/
structure Message where
  payload : IPCPayload
  sequence : ℤ
  timestampMs : ℤ
  deriving DecidableEq

open StructPackEncoder in
/-- The payload that comes with a header. -/
def decodePayload (payloadType : ℤ) (data : List UInt8) : Option IPCPayload :=
  if payloadType = ipcTypeTelemetryFrame then (TelemetryEncoder.unpack data).toOption.map .telemetryFrame
  else if payloadType = ipcTypeTelemetryBundle then (TelemetryEncoder.unpackBundle data).toOption.map .telemetryBundle
  else if payloadType = ipcTypeRingBufferMetric then (decodeRingBufferMetric data).toOption.map .ringBufferMetric
  else if payloadType = ipcTypeBackpressureMetric then (decodeBackpressureMetric data).toOption.map .backpressureMetric
  else none

/-- A receiver that takes as many bytes as the header says. -/
def receive (data : List UInt8) : Option (Message × List UInt8) := do
  let header ← (StructPackEncoder.decodeHeader data).toOption
  let body := data.drop hdrSize
  guard (header.payloadLen ≤ body.length)
  let payload ← decodePayload header.payloadType (body.take header.payloadLen.toNat)
  return (⟨payload, header.sequence, header.timestampMs⟩, body.drop header.payloadLen.toNat)

/-! ### What is sent -/

namespace IPCPayload

/-- The type that stands in the header. -/
def type : IPCPayload → ℤ
  | .telemetryFrame _ => ipcTypeTelemetryFrame
  | .telemetryBundle _ => ipcTypeTelemetryBundle
  | .ringBufferMetric _ => ipcTypeRingBufferMetric
  | .backpressureMetric _ => ipcTypeBackpressureMetric

/-- The bytes that a payload takes. -/
def size : IPCPayload → ℕ
  | .telemetryFrame _ => frameSize
  | .telemetryBundle frames => frames.length * frameSize
  | .ringBufferMetric _ => rbmSize
  | .backpressureMetric _ => bpmSize

/-- Every number is in the range of its format. -/
def InRange : IPCPayload → Prop
  | .telemetryFrame frame => List.Forall₂ Accepts frameStruct (TelemetryEncoder.values frame)
  | .telemetryBundle frames => ∀ frame ∈ frames, List.Forall₂ Accepts frameStruct (TelemetryEncoder.values frame)
  | .ringBufferMetric metric => List.Forall₂ Accepts rbmStruct metric.values
  | .backpressureMetric metric => List.Forall₂ Accepts bpmStruct metric.values

instance : ∀ payload : IPCPayload, Decidable payload.InRange
  | .telemetryFrame _ => inferInstanceAs (Decidable (List.Forall₂ ..))
  | .telemetryBundle frames => inferInstanceAs (Decidable (∀ frame ∈ frames, _))
  | .ringBufferMetric _ => inferInstanceAs (Decidable (List.Forall₂ ..))
  | .backpressureMetric _ => inferInstanceAs (Decidable (List.Forall₂ ..))

end IPCPayload

/-- A frame whose asset id has lost what does not fit into eight bytes, and the NUL bytes at its end. -/
def TelemetryFrame.trimmed (frame : TelemetryFrame) : TelemetryFrame :=
  { frame with assetId := rstrip (frame.assetId.take 8) }

/-- A payload with trimmed asset ids. -/
def IPCPayload.trimmed : IPCPayload → IPCPayload
  | .telemetryFrame frame => .telemetryFrame frame.trimmed
  | .telemetryBundle frames => .telemetryBundle (frames.map TelemetryFrame.trimmed)
  | .ringBufferMetric metric => .ringBufferMetric metric
  | .backpressureMetric metric => .backpressureMetric metric

/-- The messages of some calls: those with a number out of range raise, and those whose length, number or time does not
fit into the header raise too, but take a number. -/
def sent : ℕ → List (IPCPayload × ℤ) → List Message
  | _, [] => []
  | seq, (payload, now) :: calls =>
    if payload.InRange then
      if payload.size < 2 ^ 32 ∧ seq < 2 ^ 64 ∧ 0 ≤ now ∧ now < 2 ^ 64 then
        ⟨payload.trimmed, seq, now⟩ :: sent (seq + 1) calls
      else sent (seq + 1) calls
    else sent seq calls

/-! ### Payloads -/

/-- Trimming changes no value that is packed. -/
lemma TelemetryFrame.values_trimmed (frame : TelemetryFrame) :
    TelemetryEncoder.values frame.trimmed = TelemetryEncoder.values frame := by
  have short : (frame.assetId.take 8).length ≤ 8 := List.length_take_le ..
  have kept : (rstrip (frame.assetId.take 8)).take 8 = rstrip (frame.assetId.take 8) :=
    List.take_of_length_le ((length_rstrip_le _).trans short)
  rw [TelemetryEncoder.values, TelemetryEncoder.values, trimmed, kept, ljust_rstrip short]

/-- A frame that is packed is in range once it is trimmed. -/
lemma TelemetryFrame.trimmed_inRange {frame : TelemetryFrame}
    (accepted : List.Forall₂ Accepts frameStruct (TelemetryEncoder.values frame)) : frame.trimmed.InRange := by
  simp only [frameStruct, TelemetryEncoder.values, List.forall₂_cons, Accepts] at accepted
  obtain ⟨-, price, volume, timestamp, sequence, flags, feedId, -⟩ := accepted
  have short : (frame.assetId.take 8).length ≤ 8 := List.length_take_le ..
  refine ⟨(length_rstrip_le _).trans short, getLast?_rstrip _, ?_, volume, timestamp, sequence, flags, feedId⟩
  show -2 ^ 63 ≤ frame.price ∧ frame.price < 2 ^ 63
  omega

/-- `pack` of the arguments. -/
def IPCPayload.pack : IPCPayload → Except PyError (List UInt8)
  | .telemetryFrame frame => TelemetryEncoder.pack frame
  | .telemetryBundle frames => TelemetryEncoder.packBundle frames
  | .ringBufferMetric metric => PyStruct.pack .big rbmStruct metric.values
  | .backpressureMetric metric => PyStruct.pack .big bpmStruct metric.values

/-- A call writes its payload. -/
lemma call_eq (s : StructPackEncoder) (payload : IPCPayload) (now : ℤ) :
    s.call (payload, now) = s.write payload.type payload.pack now := by
  cases payload with
  | telemetryFrame frame | telemetryBundle frames | ringBufferMetric metric | backpressureMetric metric => rfl

/-- A trimmed frame has the same bytes. -/
lemma pack_trimmed (frame : TelemetryFrame) : TelemetryEncoder.pack frame.trimmed = TelemetryEncoder.pack frame := by
  rw [TelemetryEncoder.pack, TelemetryEncoder.pack, frame.values_trimmed]

/-- Trimmed frames have the same bytes. -/
lemma packBundle_trimmed (frames : List TelemetryFrame) :
    TelemetryEncoder.packBundle (frames.map TelemetryFrame.trimmed) = TelemetryEncoder.packBundle frames := by
  have same : TelemetryEncoder.pack ∘ TelemetryFrame.trimmed = TelemetryEncoder.pack := funext pack_trimmed
  rw [TelemetryEncoder.packBundle, TelemetryEncoder.packBundle, List.mapM_map, same]

/-- A payload in range is packed, and decoded with trimmed asset ids. -/
lemma IPCPayload.pack_ok {payload : IPCPayload} (inRange : payload.InRange) :
    ∃ data, payload.pack = .ok data ∧ data.length = payload.size ∧
      decodePayload payload.type data = some payload.trimmed := by
  cases payload with
  | telemetryFrame frame =>
    obtain ⟨data, packed, length, unpacked⟩ := TelemetryEncoder.pack_ok (TelemetryFrame.trimmed_inRange inRange)
    rw [pack_trimmed] at packed
    refine ⟨data, packed, length, ?_⟩
    rw [decodePayload, type, if_pos rfl, unpacked]
    rfl
  | telemetryBundle frames =>
    have all : ∀ frame ∈ frames.map TelemetryFrame.trimmed, frame.InRange := fun frame mem => by
      obtain ⟨original, old, rfl⟩ := List.mem_map.1 mem
      exact TelemetryFrame.trimmed_inRange (inRange original old)
    obtain ⟨blocks, packed, lengths, each⟩ := TelemetryEncoder.packBundle_ok all
    rw [packBundle_trimmed] at packed
    refine ⟨blocks.flatten, packed, ?_, ?_⟩
    · rw [Blocks.length_flatten lengths, each.length_eq, List.length_map, size]
    · have unpacked : TelemetryEncoder.unpackBundle blocks.flatten = .ok (frames.map TelemetryFrame.trimmed) := by
        rw [TelemetryEncoder.unpackBundle_eq, Blocks.chunks_flatten (by decide) lengths]
        exact TelemetryEncoder.mapM_unpack each
      rw [decodePayload, type, if_neg (by decide), if_pos rfl, unpacked]
      rfl
  | ringBufferMetric metric =>
    obtain ⟨data, packed, length, unpacked⟩ := pack_of_fits .big (fits_of_accepts (by decide) inRange)
    have whole : data.take rbmSize = data := List.take_of_length_le (le_of_eq length)
    refine ⟨data, packed, length, ?_⟩
    rw [decodePayload, type, if_neg (by decide), if_neg (by decide), if_pos rfl,
      StructPackEncoder.decodeRingBufferMetric, whole, unpacked]
    rfl
  | backpressureMetric metric =>
    obtain ⟨data, packed, length, unpacked⟩ := pack_of_fits .big (fits_of_accepts (by decide) inRange)
    have whole : data.take bpmSize = data := List.take_of_length_le (le_of_eq length)
    refine ⟨data, packed, length, ?_⟩
    rw [decodePayload, type, if_neg (by decide), if_neg (by decide), if_neg (by decide), if_pos rfl,
      StructPackEncoder.decodeBackpressureMetric, whole, unpacked]
    rfl

/-- A bundle is not packed where a frame is not. -/
lemma packBundle_error {frames : List TelemetryFrame}
    (out : ¬∀ frame ∈ frames, List.Forall₂ Accepts frameStruct (TelemetryEncoder.values frame)) :
    TelemetryEncoder.packBundle frames = .error .structError := by
  suffices failed : frames.mapM TelemetryEncoder.pack = .error .structError by
    rw [TelemetryEncoder.packBundle, failed]
    rfl
  induction frames with
  | nil => exact absurd (fun _ mem => absurd mem List.not_mem_nil) out
  | cons frame frames ih =>
    rw [List.mapM_cons]
    by_cases first : List.Forall₂ Accepts frameStruct (TelemetryEncoder.values frame)
    · have rest := ih fun all => out (List.forall_mem_cons.2 ⟨first, all⟩)
      obtain ⟨data, packed, -⟩ := @IPCPayload.pack_ok (.telemetryFrame frame) first
      rw [show TelemetryEncoder.pack frame = .ok data from packed, rest]
      rfl
    · rw [TelemetryEncoder.pack, pack_of_not_accepts .little first]
      rfl

/-- A payload out of range is not packed. -/
lemma IPCPayload.pack_error {payload : IPCPayload} (out : ¬payload.InRange) : payload.pack = .error .structError := by
  cases payload with
  | telemetryFrame frame => exact pack_of_not_accepts .little out
  | telemetryBundle frames => exact packBundle_error out
  | ringBufferMetric metric => exact pack_of_not_accepts .big out
  | backpressureMetric metric => exact pack_of_not_accepts .big out

/-! ### Headers -/

/-- What the header has room for. -/
lemma header_accepts (payload : IPCPayload) (seq : ℕ) (now : ℤ) :
    List.Forall₂ Accepts hdrStruct (StructPackEncoder.headerValues payload.type payload.size seq now) ↔
      payload.size < 2 ^ 32 ∧ seq < 2 ^ 64 ∧ 0 ≤ now ∧ now < 2 ^ 64 := by
  have kind : 0 ≤ payload.type ∧ payload.type < 256 := by
    cases payload with
    | telemetryFrame frame | telemetryBundle frames | ringBufferMetric metric | backpressureMetric metric =>
      rw [IPCPayload.type]
      decide
  simp only [hdrStruct, StructPackEncoder.headerValues, List.forall₂_cons, Accepts, hdrMagic, wireVersion,
    List.forall₂_nil_left_iff]
  constructor
  · rintro ⟨-, -, -, length, number, time, -⟩
    omega
  · rintro ⟨length, number, low, high⟩
    refine ⟨?_, ?_, ?_, ?_, ?_, ?_, trivial⟩
    · omega
    · omega
    · omega
    · omega
    · omega
    · omega

/-- A header that was packed is read with its payload. -/
lemma receive_packed {payload : IPCPayload} {seq : ℕ} {now : ℤ} {data : List UInt8}
    (length : data.length = payload.size)
    (decoded : decodePayload payload.type data = some payload.trimmed)
    (room : List.Forall₂ Accepts hdrStruct (StructPackEncoder.headerValues payload.type payload.size seq now)) :
    ∃ header,
      PyStruct.pack .big hdrStruct (StructPackEncoder.headerValues payload.type data.length seq now) = .ok header ∧
      receive (header ++ data) = some (⟨payload.trimmed, seq, now⟩, []) := by
  obtain ⟨header, packed, width, unpacked⟩ := pack_of_fits .big (fits_of_accepts (by decide) room)
  refine ⟨header, by rw [length, packed], ?_⟩
  have first : (header ++ data).take hdrSize = header := List.take_left' width
  have rest : (header ++ data).drop hdrSize = data := List.drop_left' width
  have head : StructPackEncoder.decodeHeader (header ++ data) =
      .ok ⟨payload.type, wireVersion, payload.size, seq, now⟩ := by
    rw [StructPackEncoder.decodeHeader, first, unpacked]
    rfl
  have all : data.take payload.size = data := List.take_of_length_le (le_of_eq length)
  have none_ : data.drop payload.size = [] := List.drop_of_length_le (le_of_eq length)
  have enough : (payload.size : ℤ) ≤ data.length := by omega
  simp only [receive, head, Except.toOption, Option.bind_eq_bind, Option.bind_some, rest, guard, if_pos enough,
    Int.toNat_natCast, all, decoded, none_]
  rfl

/-- What is received has its header and its payload. -/
lemma receive_some {data rest : List UInt8} {message : Message} (received : receive data = some (message, rest)) :
    ∃ header payload, StructPackEncoder.decodeHeader data = .ok header ∧
      header.payloadLen ≤ (data.drop hdrSize).length ∧
      decodePayload header.payloadType ((data.drop hdrSize).take header.payloadLen.toNat) = some payload ∧
      message = ⟨payload, header.sequence, header.timestampMs⟩ ∧
      rest = (data.drop hdrSize).drop header.payloadLen.toNat := by
  rw [receive] at received
  obtain ⟨header, decoded, received⟩ := Option.bind_eq_some_iff.1 received
  obtain ⟨_, enough, received⟩ := Option.bind_eq_some_iff.1 received
  obtain ⟨payload, body, received⟩ := Option.bind_eq_some_iff.1 received
  cases received
  refine ⟨header, payload, ?_, ?_, body, rfl, rfl⟩
  · cases whole : StructPackEncoder.decodeHeader data with
    | error error =>
      rw [whole] at decoded
      cases decoded
    | ok header' =>
      rw [whole] at decoded
      cases decoded
      rfl
  · by_contra less
    rw [show guard _ = failure from if_neg less] at enough
    cases enough

/-- A header takes its size. -/
lemma hdrSize_le {data : List UInt8} {header : StructPackEncoder.Header}
    (decoded : StructPackEncoder.decodeHeader data = .ok header) : hdrSize ≤ data.length := by
  by_contra short
  have cut : (data.take hdrSize).length ≠ PyStruct.size hdrStruct := by
    rw [List.length_take]
    show ¬min hdrSize data.length = hdrSize
    omega
  rw [StructPackEncoder.decodeHeader, PyStruct.unpack, if_neg cut] at decoded
  cases decoded

/-- The receiver does not change its mind about what has arrived. -/
lemma receive_stable : Stable receive := by
  refine ⟨fun data message rest received => ?_, fun data message rest received later => ?_⟩
  · obtain ⟨header, payload, decoded, -, -, -, rfl⟩ := receive_some received
    have whole := hdrSize_le decoded
    have pos : 0 < hdrSize := by decide
    rw [List.length_drop, List.length_drop]
    omega
  · obtain ⟨header, payload, decoded, enough, body, rfl, rfl⟩ := receive_some received
    have whole := hdrSize_le decoded
    have length : header.payloadLen.toNat ≤ (data.drop hdrSize).length := Int.toNat_le.2 enough
    have head : StructPackEncoder.decodeHeader (data ++ later) = .ok header := by
      rw [StructPackEncoder.decodeHeader, List.take_append_of_le_length whole]
      exact decoded
    have more : header.payloadLen ≤ (data.drop hdrSize ++ later).length := by
      rw [List.length_append]
      omega
    simp only [receive, head, Except.toOption, Option.bind_eq_bind, Option.bind_some,
      List.drop_append_of_le_length whole, guard, if_pos more, List.take_append_of_le_length length, body,
      List.drop_append_of_le_length length]
    rfl

/-! ### Runs of an encoder -/

/-- A call of an encoder: a number out of range, a header without room, or a write that is received. -/
lemma call_cases (s : StructPackEncoder) (payload : IPCPayload) (now : ℤ) :
    ¬payload.InRange ∧ s.call (payload, now) = (.error .structError, s) ∨
      payload.InRange ∧ ¬(payload.size < 2 ^ 32 ∧ s.seq < 2 ^ 64 ∧ 0 ≤ now ∧ now < 2 ^ 64) ∧
        s.call (payload, now) = (.error .structError, ⟨s.seq + 1⟩) ∨
      payload.InRange ∧ (payload.size < 2 ^ 32 ∧ s.seq < 2 ^ 64 ∧ 0 ≤ now ∧ now < 2 ^ 64) ∧
        ∃ block, s.call (payload, now) = (.ok block, ⟨s.seq + 1⟩) ∧
          receive block = some (⟨payload.trimmed, s.seq, now⟩, []) := by
  rw [call_eq]
  by_cases inRange : payload.InRange
  · obtain ⟨data, packed, length, decoded⟩ := payload.pack_ok inRange
    rw [packed, StructPackEncoder.write, StructPackEncoder.packHeader]
    by_cases room : payload.size < 2 ^ 32 ∧ s.seq < 2 ^ 64 ∧ 0 ≤ now ∧ now < 2 ^ 64
    · obtain ⟨header, head, received⟩ := receive_packed length decoded ((header_accepts payload s.seq now).2 room)
      refine .inr (.inr ⟨inRange, room, header ++ data, ?_, received⟩)
      rw [head]
      rfl
    · have refused := pack_of_not_accepts .big (mt (header_accepts payload s.seq now).1 room)
      refine .inr (.inl ⟨inRange, room, ?_⟩)
      rw [length, refused]
      rfl
  · refine .inl ⟨inRange, ?_⟩
    rw [payload.pack_error inRange, StructPackEncoder.write]

/-- Every block that is written is received as the message that was sent. -/
lemma written_sent (s : StructPackEncoder) (calls : List (IPCPayload × ℤ)) :
    List.Forall₂ (fun block message => receive block = some (message, []))
      ((Machine.answers StructPackEncoder.call s calls).filterMap Except.toOption) (sent s.seq calls) := by
  induction calls generalizing s with
  | nil => exact .nil
  | cons call calls ih =>
    obtain ⟨payload, now⟩ := call
    rw [Machine.answers, sent]
    obtain ⟨out, raised⟩ | ⟨inRange, full, raised⟩ | ⟨inRange, room, block, wrote, received⟩ :=
      call_cases s payload now
    · rw [raised, if_neg out]
      exact ih s
    · rw [raised, if_pos inRange, if_neg full]
      exact ih ⟨s.seq + 1⟩
    · rw [wrote, if_pos inRange, if_pos room]
      exact .cons received (ih ⟨s.seq + 1⟩)

/-- However the calls go and in whatever pieces the writes arrive, what is received are the payloads of the calls that
did not raise, in their order and with their numbers, and nothing is left over. -/
theorem channel_round_trip (calls : List (IPCPayload × ℤ)) (chunks : List (List UInt8))
    (arrived : chunks.flatten = written calls) : feedAll receive [] chunks = (sent 0 calls, []) := by
  have empty : receive [] = none := rfl
  rw [receive_stable.feedAll_eq_readAll empty, List.nil_append, arrived, written]
  exact receive_stable.readAll_flatten empty (written_sent ⟨0⟩ calls)

/-- A frame and two bundles, of which the first cannot be sent, arrive byte by byte. -/
theorem channel_round_trip_bytes :
    feedAll receive [] ((written [(.telemetryFrame sampleFrame, 1), (.telemetryBundle [sampleFrame], -1),
      (.telemetryBundle [sampleFrame, sampleFrame], 2)]).map fun byte => [byte]) =
      ([⟨.telemetryFrame sampleFrame, 0, 1⟩, ⟨.telemetryBundle [sampleFrame, sampleFrame], 2, 2⟩], []) := by
  have received := channel_round_trip [(.telemetryFrame sampleFrame, 1), (.telemetryBundle [sampleFrame], -1),
    (.telemetryBundle [sampleFrame, sampleFrame], 2)] _ (List.flatMap_singleton' _)
  exact received.trans (by decide +kernel)

end StellarFlow.Serialization
