import SensorIngest.SensorId
import SensorIngest.Frame.Span

/-!
# Packages

A frame on its way from the connection to the lane that processes its sensor.
-/

namespace SensorIngest

/-- One frame handed on for processing. -/
structure Package where
  sensor : SensorId
  sequence : Nat
  /-- Wall clock when the frame arrived. -/
  arrival : Micros
  /-- Selected for a statistics sample. -/
  sampled : Bool
  frame : Bytes
deriving DecidableEq

end SensorIngest
