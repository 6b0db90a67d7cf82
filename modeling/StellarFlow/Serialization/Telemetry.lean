import StellarFlow.Lib.Blocks
import StellarFlow.Lib.Struct

/-!
# Telemetry bundles

Model of `TelemetryEncoder` and `bundle_frame_count` in `src/serialization/encoders.py`. A bundle is the packed
frames one after the other; `unpack_pack_bundle` says that it is cut back into the same frames, whatever is
left of a frame that has not arrived whole.
-/

namespace StellarFlow.Serialization
open PyStruct TextCodec

/-- `_FRAME_STRUCT`, the format `<8sqQQIHBB`. -/
def frameStruct : List Code :=
  [.bytes 8, .signed 8, .unsigned 8, .unsigned 8, .unsigned 4, .unsigned 2, .unsigned 1, .unsigned 1]

/-- `FRAME_SIZE`. -/
def frameSize : ℕ := PyStruct.size frameStruct

/-- `TelemetryFrame`. -/
structure TelemetryFrame where
  assetId : List UInt8
  price : ℤ
  volume : ℤ
  timestamp : ℤ
  sequence : ℤ
  flags : ℤ
  feedId : ℤ
  deriving DecidableEq

namespace TelemetryEncoder

/-- The arguments of `_STRUCT.pack` in `pack`. -/
def values (frame : TelemetryFrame) : List Value :=
  [.bytes (ljust (frame.assetId.take 8) 8), .int frame.price, .int frame.volume, .int frame.timestamp,
    .int frame.sequence, .int frame.flags, .int frame.feedId, .int 0]

/-- `pack`. -/
def pack (frame : TelemetryFrame) : Except PyError (List UInt8) :=
  PyStruct.pack .little frameStruct (values frame)

/-- `unpack`. -/
def unpack (data : List UInt8) : Except PyError TelemetryFrame := do
  let unpacked ← PyStruct.unpack .little frameStruct (data.take frameSize)
  match unpacked with
  | [.bytes assetId, .int price, .int volume, .int timestamp, .int sequence, .int flags, .int feedId, _] =>
    return ⟨rstrip assetId, price, volume, timestamp, sequence, flags, feedId⟩
  | _ => .error .indexError

/-- `pack_bundle`. -/
def packBundle (frames : List TelemetryFrame) : Except PyError (List UInt8) := do
  let packed ← frames.mapM pack
  return packed.flatten

/-- `range(0, stop, step)`. -/
def steps (stop step : ℕ) : List ℕ := (List.range ((stop + step - 1) / step)).map (· * step)

/-- `unpack_bundle`. -/
def unpackBundle (data : List UInt8) : Except PyError (List TelemetryFrame) :=
  ((steps data.length frameSize).filter (fun offset => data.length - offset ≥ frameSize)).mapM
    fun offset => unpack (Memory.slice data offset frameSize)

end TelemetryEncoder

/-- `bundle_frame_count`. -/
def bundleFrameCount (data : List UInt8) : ℕ := data.length / frameSize

/-- The asset id is at most eight bytes long and does not end in NUL, and every number is in the range of its
format. -/
structure TelemetryFrame.InRange (frame : TelemetryFrame) : Prop where
  short : frame.assetId.length ≤ 8
  trimmed : frame.assetId.getLast? ≠ some 0
  price : -2 ^ 63 ≤ frame.price ∧ frame.price < 2 ^ 63
  volume : 0 ≤ frame.volume ∧ frame.volume < 2 ^ 64
  timestamp : 0 ≤ frame.timestamp ∧ frame.timestamp < 2 ^ 64
  sequence : 0 ≤ frame.sequence ∧ frame.sequence < 2 ^ 32
  flags : 0 ≤ frame.flags ∧ frame.flags < 2 ^ 16
  feedId : 0 ≤ frame.feedId ∧ frame.feedId < 2 ^ 8

namespace TelemetryEncoder

/-- The values of a frame in range fit. -/
lemma values_fit {frame : TelemetryFrame} (inRange : frame.InRange) :
    List.Forall₂ Fits frameStruct (values frame) := by
  obtain ⟨short, -, price, volume, timestamp, sequence, flags, feedId⟩ := inRange
  have asset : (ljust (frame.assetId.take 8) 8).length = 8 :=
    length_ljust (by rw [List.length_take]; omega)
  refine .cons asset (.cons ⟨?_, ?_⟩ (.cons volume (.cons timestamp (.cons sequence (.cons flags
    (.cons feedId (.cons ⟨?_, ?_⟩ .nil)))))))
  · omega
  · omega
  · decide
  · decide

/-- A frame in range is packed into forty bytes and unpacked from them. -/
lemma pack_ok {frame : TelemetryFrame} (inRange : frame.InRange) :
    ∃ data, pack frame = .ok data ∧ data.length = frameSize ∧ unpack data = .ok frame := by
  obtain ⟨data, packed, length, unpacked⟩ := pack_of_fits .little (values_fit inRange)
  refine ⟨data, packed, length, ?_⟩
  have asset : rstrip (ljust (frame.assetId.take 8) 8) = frame.assetId := by
    rw [List.take_of_length_le inRange.short, rstrip_ljust inRange.trimmed]
  have whole : data.take frameSize = data := List.take_of_length_le (le_of_eq length)
  rw [unpack, whole, unpacked]
  show Except.ok (⟨rstrip (ljust (frame.assetId.take 8) 8), _, _, _, _, _, _⟩ : TelemetryFrame) = _
  rw [asset]

/-- Frames in range are packed into blocks. -/
lemma packBundle_ok {frames : List TelemetryFrame} (inRange : ∀ frame ∈ frames, frame.InRange) :
    ∃ blocks, packBundle frames = .ok blocks.flatten ∧ (∀ block ∈ blocks, block.length = frameSize) ∧
      List.Forall₂ (fun block frame => unpack block = .ok frame) blocks frames := by
  suffices packed : ∃ blocks, frames.mapM pack = .ok blocks ∧ (∀ block ∈ blocks, block.length = frameSize) ∧
      List.Forall₂ (fun block frame => unpack block = .ok frame) blocks frames by
    obtain ⟨blocks, mapped, lengths, each⟩ := packed
    refine ⟨blocks, ?_, lengths, each⟩
    rw [packBundle, mapped]
    rfl
  induction frames with
  | nil => exact ⟨[], rfl, fun _ mem => absurd mem List.not_mem_nil, .nil⟩
  | cons frame frames ih =>
    obtain ⟨block, one, length, back⟩ := pack_ok (inRange frame List.mem_cons_self)
    obtain ⟨blocks, mapped, lengths, each⟩ := ih fun frame mem => inRange frame (List.mem_cons_of_mem _ mem)
    refine ⟨block :: blocks, ?_, List.forall_mem_cons.2 ⟨length, lengths⟩, .cons back each⟩
    rw [List.mapM_cons, one, mapped]
    rfl

/-- The offsets of `unpack_bundle` are those of the whole blocks. -/
lemma filter_steps {size : ℕ} (pos : 0 < size) (stop : ℕ) :
    (steps stop size).filter (fun offset => stop - offset ≥ size) = (List.range (stop / size)).map (· * size) := by
  have inside : ∀ i, (stop - i * size ≥ size) ↔ i < stop / size := by
    intro i
    rw [Nat.lt_div_iff_mul_lt pos]
    constructor
    · omega
    · omega
  have all : (stop + size - 1) / size = stop / size + ((stop + size - 1) / size - stop / size) := by
    have le : stop / size ≤ (stop + size - 1) / size := Nat.div_le_div_right (by omega)
    omega
  rw [steps, all, List.range_add, List.map_append, List.filter_append, List.filter_eq_self.2, List.filter_eq_nil_iff.2,
    List.append_nil]
  · intro offset mem
    obtain ⟨i, index, rfl⟩ := List.mem_map.1 mem
    obtain ⟨j, -, rfl⟩ := List.mem_map.1 index
    rw [decide_eq_true_eq, inside]
    omega
  · intro offset mem
    obtain ⟨i, index, rfl⟩ := List.mem_map.1 mem
    rw [decide_eq_true_eq, inside]
    exact List.mem_range.1 index

/-- Unpacking cuts the data into blocks. -/
lemma unpackBundle_eq (data : List UInt8) : unpackBundle data = (Blocks.chunks frameSize data).mapM unpack := by
  rw [unpackBundle, filter_steps (by decide), Blocks.chunks, List.mapM_map, List.mapM_map]
  rfl

/-- Unpacking reads each of the blocks. -/
lemma mapM_unpack {blocks : List (List UInt8)} {frames : List TelemetryFrame}
    (each : List.Forall₂ (fun block frame => unpack block = .ok frame) blocks frames) :
    blocks.mapM unpack = .ok frames := by
  induction each with
  | nil => rfl
  | cons head tail ih =>
    rw [List.mapM_cons, head, ih]
    rfl

end TelemetryEncoder

/-- A bundle of frames in range is unpacked into the same frames and counts them, also when less than one
frame more has arrived. -/
theorem unpack_pack_bundle (frames : List TelemetryFrame) (inRange : ∀ frame ∈ frames, frame.InRange) :
    ∃ bundle, TelemetryEncoder.packBundle frames = .ok bundle ∧
      ∀ extra : List UInt8, extra.length < frameSize →
        TelemetryEncoder.unpackBundle (bundle ++ extra) = .ok frames ∧
        bundleFrameCount (bundle ++ extra) = frames.length := by
  obtain ⟨blocks, packed, lengths, each⟩ := TelemetryEncoder.packBundle_ok inRange
  refine ⟨blocks.flatten, packed, fun extra short => ?_⟩
  have cut := Blocks.chunks_append lengths short
  constructor
  · rw [TelemetryEncoder.unpackBundle_eq, cut]
    exact TelemetryEncoder.mapM_unpack each
  · have count := congrArg List.length cut
    rw [Blocks.chunks, List.length_map, List.length_range, each.length_eq] at count
    exact count

/-- A frame at the ends of its ranges. -/
def sampleFrame : TelemetryFrame :=
  ⟨[78, 71, 78, 47, 88, 76, 77], -2 ^ 63, 2 ^ 64 - 1, 0, 2 ^ 32 - 1, 2 ^ 16 - 1, 255⟩

/-- The sample is in range. -/
lemma sampleFrame_inRange : sampleFrame.InRange :=
  ⟨by decide, by decide, by decide, by decide, by decide, by decide, by decide, by decide⟩

/-- Two frames, and bytes that are none. -/
theorem unpack_pack_bundle_sample : ∃ bundle, TelemetryEncoder.packBundle [sampleFrame, sampleFrame] = .ok bundle ∧
    ∀ extra : List UInt8, extra.length < frameSize →
      TelemetryEncoder.unpackBundle (bundle ++ extra) = .ok [sampleFrame, sampleFrame] ∧
      bundleFrameCount (bundle ++ extra) = 2 := by
  refine unpack_pack_bundle [sampleFrame, sampleFrame] fun frame mem => ?_
  have same : frame = sampleFrame := by simpa using mem
  exact same ▸ sampleFrame_inRange

end StellarFlow.Serialization
