import SensorIngest.Event
import SensorIngest.Frame.Decode
import SensorIngest.SystemError

/-!
# Sinks

The consumers of processed packets. A lane makes a `Delivery` to each sink that is present, in a
fixed order. Sinks do their best: a failed delivery is counted and logged, and the next one is made
all the same.
-/

namespace SensorIngest

/-- A place for consumers of packets. -/
inductive Sink where
  /-- Forwards raw frames to a parent server. -/
  | proxy
  /-- Pushes decoded frames to subscribers. -/
  | broadcast
  /-- Forwards raw frames by remote calls. -/
  | grpc
  /-- Records acoustic samples. -/
  | file
  /-- Learns that a sensor is alive. -/
  | presence
deriving DecidableEq

namespace Sink

def name : Sink → String
  | proxy => "proxy"
  | broadcast => "broadcast"
  | grpc => "grpc"
  | file => "file"
  | presence => "presence"

/-- All sinks, in the order in which they are stopped. -/
def all : List Sink := [proxy, broadcast, grpc, file, presence]

end Sink

/-- Which sinks are present. -/
structure SinkSet where
  proxy : Bool := false
  broadcast : Bool := false
  grpc : Bool := false
  file : Bool := false
  presence : Bool := false
deriving DecidableEq

namespace SinkSet

def has (s : SinkSet) : Sink → Bool
  | .proxy => s.proxy
  | .broadcast => s.broadcast
  | .grpc => s.grpc
  | .file => s.file
  | .presence => s.presence

def ofList (sinks : List Sink) : SinkSet where
  proxy := sinks.contains .proxy
  broadcast := sinks.contains .broadcast
  grpc := sinks.contains .grpc
  file := sinks.contains .file
  presence := sinks.contains .presence

/-- The sinks that are present, in the order in which they are stopped. -/
def toList (s : SinkSet) : List Sink := Sink.all.filter s.has

/-- One line that says which sinks are present. -/
def describe (s : SinkSet) : String :=
  "Sinks \x7b " ++ ", ".intercalate (Sink.all.map fun k => k.name ++ ": " ++ toString (s.has k)) ++
    " \x7d"

end SinkSet

/-- Why a delivery failed. -/
inductive SinkError where
  | system (e : SystemError)
  | unavailable
  | rejected (reason : String)
deriving DecidableEq

def SinkError.message : SinkError → String
  | system e => "i/o error: " ++ e.message
  | unavailable => "sink unavailable"
  | rejected reason => "rejected: " ++ reason

/-- What a sink is given of a packet. -/
inductive Delivery where
  | proxy (sensor : SensorId) (raw : Bytes)
  | broadcast (sensor : SensorId) (frame : Frame)
  | grpc (sensor : SensorId) (raw : Bytes)
  | file (sensor : SensorId) (frame : Frame)
  | presence (sensor : SensorId)
deriving DecidableEq

namespace Delivery

def sink : Delivery → Sink
  | proxy .. => .proxy
  | broadcast .. => .broadcast
  | grpc .. => .grpc
  | file .. => .file
  | presence .. => .presence

def sensor : Delivery → SensorId
  | proxy sensor _ | broadcast sensor _ | grpc sensor _ | file sensor _ | presence sensor => sensor

end Delivery

end SensorIngest
