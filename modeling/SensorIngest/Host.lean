import SensorIngest.Address.Endpoint
import SensorIngest.SystemError

/-!
# The host

What a program asks of the machine it runs on, as far as the answer may be a refusal.
-/

namespace SensorIngest

/-- How a machine answers. -/
structure Host where
  read : (path : String) → Except SystemError String
  /-- Makes a directory, with those above it, unless it exists. -/
  makeDirectory : (path : String) → Except SystemError Unit
  /-- Listens at an endpoint and says which port it got, as port 0 stands for any. -/
  listen : Endpoint → Except SystemError UInt16

end SensorIngest
