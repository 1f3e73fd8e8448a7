import SensorIngest.Text.Hex
import SensorIngest.Frame.Segment

/-!
# Why a frame is refused

One constructor for each cause, and one line of text for each (`Error.message`).
-/

namespace SensorIngest.Frame

/-- A reason to refuse a frame or one of its segments. -/
inductive Error where
  | badStart
  | badVersion (found : UInt8)
  | badSize (size : Nat)
  | badEnd (found : UInt8)
  | badChecksum (stated computed : Nat)
  | truncated (need available : Nat)
  | segmentOverrun (index : Nat)
  | missingSegment (kind : Segment.Kind)
  | zeroSampleRate
deriving DecidableEq

namespace Error

def message : Error → String
  | badStart => "bad magic"
  | badVersion found => s!"unsupported version {found.toNat}"
  | badSize size => s!"payload size {size} out of range"
  | badEnd found => "missing trailer, found 0x" ++ Text.Hex.lower 2 found.toNat
  | badChecksum stated computed =>
    "checksum mismatch: frame says 0x" ++ Text.Hex.lower 4 stated ++
      ", computed 0x" ++ Text.Hex.lower 4 computed
  | truncated need available => s!"truncated: need {need} bytes, have {available}"
  | segmentOverrun index => s!"segment {index} overruns the frame"
  | missingSegment kind => s!"missing {kind.name} segment"
  | zeroSampleRate => "zero sample rate"

end Error

end SensorIngest.Frame
