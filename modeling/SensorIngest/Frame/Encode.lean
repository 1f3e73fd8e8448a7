import SensorIngest.Frame.Decode

/-!
# Writing a frame

A `Draft` holds what a sender chooses; `Draft.encode` adds size, checksum and markers.
-/

namespace SensorIngest.Frame

/-- The content of a frame to be sent. -/
structure Draft where
  sensor : SensorId
  sequence : Nat := 0
  hardware : Triple := ⟨1, 0, 0⟩
  firmware : Triple := ⟨1, 0, 0⟩
  model : Triple := ⟨0, 0, 0⟩
  flags : Flags := ⟨0⟩
  segments : List Segment := []
deriving DecidableEq

namespace Draft

/-- Header fields, segment count and segments: what the checksum covers. The count is one byte, so
it is the number of segments modulo 256. -/
def payload (draft : Draft) : Bytes :=
  Bytes.ofNat 8 draft.sequence ++ draft.hardware.toBytes ++ draft.firmware.toBytes ++
    draft.sensor.toBytes ++ draft.model.toBytes ++ [0, 0, 0, 0, 0, draft.flags.bits] ++
    UInt8.ofNat draft.segments.length :: draft.segments.flatMap Segment.encode

def encode (draft : Draft) : Bytes :=
  let payload := draft.payload
  startMarker ++ version :: Bytes.ofNat 4 (payload.length + checksumLength) ++ payload ++
    Bytes.ofNat checksumLength (Bytes.checksum payload) ++ [endMarker]

end Draft

end SensorIngest.Frame
