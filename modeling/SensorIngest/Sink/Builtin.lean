import SensorIngest.Lane.Outlets
import SensorIngest.Sink.Forwarder
import SensorIngest.Sink.Presence
import SensorIngest.Sink.Recorder

/-!
# Built-in sinks

The sinks that a server can provide by itself: the presence tracker, the recorder and the forwarder
to a parent server. Subscribers and remote calls are always supplied by the application.
-/

namespace SensorIngest

/-- The built-in sinks in use. -/
structure Builtin where
  presence : Option PresenceTracker := none
  recorder : Option Recorder := none
  forwarder : Option Forwarder := none
  now : Micros
  /-- The parent server can be reached. -/
  parentReachable : Bool := false

namespace Builtin

open Lane (Answer Outlets)

/-- The answer that an outcome stands for. -/
def answerOf : Except SinkError α → Answer
  | .ok _ => .done
  | .error reason => .failed reason

/-- Answers a delivery. One to a sink that is not built in is taken as made. -/
def answer (b : Builtin) : Delivery → Builtin × List Event × Answer
  | .presence id =>
    match b.presence with
    | none => (b, [], .done)
    | some tracker =>
      let (tracker, events) := tracker.sync b.now id
      ({ b with presence := some tracker }, events, .done)
  | .file id frame =>
    match b.recorder with
    | none => (b, [], .done)
    | some recorder =>
      let (recorder, events, outcome) := recorder.write id frame
      ({ b with recorder := some recorder }, events, answerOf outcome)
  | .proxy id raw =>
    match b.forwarder with
    | none => (b, [], .done)
    | some forwarder =>
      let (forwarder, outcome) := forwarder.write b.parentReachable id raw
      ({ b with forwarder := some forwarder }, [], answerOf outcome)
  | .broadcast .. | .grpc .. => (b, [], .done)

/-- The built-in sinks as outlets of the lanes. -/
def outlets : Outlets Builtin := ⟨answer⟩

def stop (b : Builtin) : Builtin × List Event :=
  let stopped := b.recorder.map Recorder.stop
  ({ b with forwarder := b.forwarder.map Forwarder.stop, recorder := stopped.map Prod.fst },
    (stopped.map Prod.snd).getD [])

/-- The sensors that are online; none without a presence tracker. -/
def online (b : Builtin) : List SensorId :=
  (b.presence.map (·.online b.now)).getD []

end Builtin

end SensorIngest
