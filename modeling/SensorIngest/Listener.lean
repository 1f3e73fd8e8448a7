import SensorIngest.Address.Endpoint
import SensorIngest.SystemError

/-!
# Listening

A listener holds an endpoint for itself. Event loops watch it for connections; it is watched once or
not at all, and the host refuses to begin or end that a second time.
-/

namespace SensorIngest

/-- Something that accepts connections at an endpoint. -/
structure Listener where
  address : Endpoint
  /-- Connections are watched for. -/
  watched : Bool := false
deriving DecidableEq

namespace Listener

/-- The time after which an event loop runs its periodic work unless told otherwise, in
milliseconds. -/
def tickInterval : Nat := 1000

/-- Listens at an endpoint that no other listener holds. -/
def bind (held : List Listener) (address : Endpoint) : Except SystemError Listener :=
  if held.any (·.address = address) then .error .addressInUse else .ok { address }

def watch (l : Listener) : Except SystemError Listener :=
  if l.watched then .error .fileExists else .ok { l with watched := true }

/-- Watches for connections in another way. -/
def rewatch (l : Listener) : Except SystemError Listener :=
  if l.watched then .ok l else .error .noSuchFile

/-- Ends to watch for connections. -/
def unwatch (l : Listener) : Except SystemError Listener :=
  if l.watched then .ok { l with watched := false } else .error .noSuchFile

end Listener

end SensorIngest
