import SensorIngest.SensorId
import SensorIngest.Address.Endpoint
import SensorIngest.Counters

/-!
# Log events

What the server reports while it runs. An event has a level, a message and named fields; the fields
are texts.
-/

namespace SensorIngest

inductive Event.Level where
  | error
  | warn
  | info
  | debug
  | trace
deriving DecidableEq

def Event.Level.name : Event.Level → String
  | error => "ERROR"
  | warn => "WARN"
  | info => "INFO"
  | debug => "DEBUG"
  | trace => "TRACE"

/-- Something worth a line in the log. -/
inductive Event where
  | connectionOpened (peer : Endpoint) (eventLoop : Nat) (connections : Int)
  | connectionClosed (peer : Endpoint) (connections : Int) (released : Nat)
  | malformedFrame (peer : Endpoint) (reason : Frame.Error)
  | startupDropped (sensor : SensorId) (sequence : Nat) (peer : Endpoint)
  | endOfStream (sensor : SensorId) (sequence : Nat)
  | newSensor (sensor : SensorId) (peer : Endpoint) (resend : Bool)
  | duplicate (sensor : SensorId) (sequence : Nat)
  | requestingResend (sensor : SensorId) (request received redo : Nat)
  | sequenceBehind (sensor : SensorId) (sequence last : Nat) (restart : Bool)
  | staleParked (sensor : SensorId) (sequence : Nat)
  | forcingDrain (sensor : SensorId) (last released redo : Nat)
  | status (sensors : Nat) (readings : Counters)
  | decodeFailed (sensor : SensorId) (sequence : Nat) (reason : Frame.Error)
  | packetSkipped (sensor : SensorId) (sequence : Nat) (reason : Frame.Error)
  | badArcSegment (sensor : SensorId) (sequence : Nat) (reason : Frame.Error)
  | alignmentAdjusted (sensor : SensorId) (sequence : Nat) (kind : Adjustment) (clock : Micros)
      (tracked : Int) (anchor offset : Micros)
  | sample (sensor : SensorId) (sequence rate samples : Nat) (offset : Micros)
  | sinkFailed (sink : String) (sensor : SensorId) (reason : String)
  | laneClosed (sensor : SensorId) (sequence : Nat)
  | sensorOnline (sensor : SensorId)
  | sensorOffline (sensor : SensorId)
  | recording (sensor : SensorId) (path : String)
  | recordingNotFlushed (sensor : SensorId) (reason : String)

namespace Event

def level : Event → Level
  | decodeFailed .. | packetSkipped .. | badArcSegment .. => .error
  | malformedFrame .. | sinkFailed .. | laneClosed .. | recordingNotFlushed .. => .warn
  | connectionOpened .. | connectionClosed .. | startupDropped .. | endOfStream .. | newSensor ..
  | alignmentAdjusted .. | sensorOnline .. | sensorOffline .. => .info
  | requestingResend .. | sequenceBehind .. | forcingDrain .. | status .. | sample ..
  | recording .. => .debug
  | duplicate .. | staleParked .. => .trace

def message : Event → String
  | connectionOpened .. => "connection opened"
  | connectionClosed .. => "connection closed"
  | malformedFrame .. => "malformed frame"
  | startupDropped .. => "dropping startup packet"
  | endOfStream .. => "end of stream"
  | newSensor .. => "new sensor"
  | duplicate .. => "duplicate retransmission"
  | requestingResend .. => "requesting resend"
  | sequenceBehind .. => "sequence behind, flushing buffer"
  | staleParked .. => "dropping stale buffered packet"
  | forcingDrain .. => "resend timeout, forcing drain"
  | status .. => "stats"
  | decodeFailed .. => "decode failed"
  | packetSkipped .. => "packet skipped"
  | badArcSegment .. => "bad arc segment"
  | alignmentAdjusted .. => "alignment adjusted"
  | sample .. => "sample"
  | sinkFailed .. => "sink write failed"
  | laneClosed .. => "lane closed, packet dropped"
  | sensorOnline .. => "sensor online"
  | sensorOffline .. => "sensor offline"
  | recording .. => "recording"
  | recordingNotFlushed .. => "failed to flush recording"

/-- The named fields of an event. -/
def fields : Event → List (String × String)
  | connectionOpened peer eventLoop connections =>
    [("peer", peer.text), ("event_loop", toString eventLoop),
      ("connections", toString connections)]
  | connectionClosed peer connections released =>
    [("peer", peer.text), ("connections", toString connections), ("released", toString released)]
  | malformedFrame peer reason => [("peer", peer.text), ("error", reason.message)]
  | startupDropped sensor sequence peer =>
    [("sensor", sensor.label), ("seq", toString sequence), ("peer", peer.text)]
  | newSensor sensor peer resend =>
    [("sensor", sensor.label), ("peer", peer.text), ("resend", toString resend)]
  | requestingResend sensor request received redo =>
    [("sensor", sensor.label), ("request", toString request), ("received", toString received),
      ("redo", toString redo)]
  | sequenceBehind sensor sequence last restart =>
    [("sensor", sensor.label), ("seq", toString sequence), ("last", toString last),
      ("restart", toString restart)]
  | forcingDrain sensor last released redo =>
    [("sensor", sensor.label), ("last", toString last), ("released", toString released),
      ("redo", toString redo)]
  | status sensors readings =>
    [("sensors", toString sensors), ("connections", toString readings.connections),
      ("packets", toString readings.packets), ("dispatched", toString readings.dispatched),
      ("queued", toString readings.queued), ("resend_requests", toString readings.resendRequests)]
  | decodeFailed sensor sequence reason | packetSkipped sensor sequence reason
  | badArcSegment sensor sequence reason =>
    [("sensor", sensor.label), ("seq", toString sequence), ("error", reason.message)]
  | alignmentAdjusted sensor sequence kind clock tracked anchor offset =>
    [("sensor", sensor.label), ("seq", toString sequence), ("kind", kind.word),
      ("aligntime", toString clock), ("tracked", toString tracked), ("anchor", toString anchor),
      ("offset", toString offset)]
  | sample sensor sequence rate samples offset =>
    [("sensor", sensor.label), ("seq", toString sequence), ("rate", toString rate),
      ("samples", toString samples), ("offset", toString offset)]
  | sinkFailed sink sensor reason =>
    [("sink", sink), ("sensor", sensor.label), ("error", reason)]
  | endOfStream sensor sequence | duplicate sensor sequence | staleParked sensor sequence
  | laneClosed sensor sequence => [("sensor", sensor.label), ("seq", toString sequence)]
  | sensorOnline sensor | sensorOffline sensor => [("sensor", sensor.label)]
  | recording sensor path => [("sensor", sensor.label), ("path", path)]
  | recordingNotFlushed sensor reason => [("sensor", sensor.label), ("error", reason)]

end Event

end SensorIngest
