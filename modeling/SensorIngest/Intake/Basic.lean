import SensorIngest.Frame.Header
import SensorIngest.Registry
import SensorIngest.Reply
import SensorIngest.Session.Gap

/-!
# The receive path

Every frame that a connection delivers passes here: boot noise is dropped, the session of the sensor
puts the frame in its place, and the sensor gets its reply. `Intake.step` takes in one input and
returns the reply and the effects; `Intake.run` does so for a list of inputs.

The setting `resend` says whether gaps are closed by resending. It is apart from the registry's,
which says whether sessions have a backlog: a session without one hands packets on as they come.
-/

namespace SensorIngest

open Intake (Effect)

/-- The receive path and what it remembers. -/
structure Intake where
  /-- Gaps are closed by resending. -/
  resend : Bool
  registry : Registry

namespace Intake

/-- The receive path of a server that has seen nothing yet. -/
def new (resend : Bool) : Intake := ⟨resend, { buffering := resend }⟩

/-- Frames of sensors that cannot be answered are boot noise up to this sequence. -/
def startupSequence : Nat := 2

/-- The time between two status reports, in milliseconds. -/
def statusInterval : Nat := 1000

/-- What happens at a connection. -/
inductive Input where
  | opened (peer : Endpoint) (eventLoop : Nat)
  | closed (peer : Endpoint)
  | frame (peer : Endpoint) (raw : Bytes)
  | malformed (peer : Endpoint) (reason : Frame.Error)
  /-- It is time for a status report. -/
  | tick

/-- What a step leaves behind. -/
structure Outcome where
  intake : Intake
  reply : Option Reply := none
  effects : List Effect := []

def refuse (peer : Endpoint) (reason : Frame.Error) : List Effect :=
  [.tick .malformed, .log (.malformedFrame peer reason)]

/-- The acknowledgement of a frame, for sensors that listen. -/
def acknowledge (header : Frame.Header) : Option Reply :=
  if header.flags.response then some (.ack header.sequence) else none

/-- Follows up on the verdict: a packet that may proceed is handed on with all that waited for
it. -/
def conclude (header : Frame.Header) (now : Micros) (sampled : Bool) (raw : Bytes) :
    Session × Session.Verdict × List Effect → Session × Option Reply × List Effect
  | (s, .parked, offered) => (s, none, offered)
  | (s, .ask wanted, offered) => (s, some (.resend s.sensor wanted), offered)
  | (s, .stale, offered) => (s, acknowledge header, offered)
  | (s, .proceed, offered) =>
    let (s, handed) := s.handOff header.sequence now sampled raw
    let (s, drained) := s.drainContiguous
    (s, acknowledge header, offered ++ handed ++ drained)

/-- Puts a frame of a session in its place and returns the acknowledgement or request for it. A
sensor that cannot be answered gets no acknowledgement. -/
def sequence (resend : Bool) (s : Session) (header : Frame.Header) (now : Micros) (sampled : Bool)
    (raw : Bytes) : Session × Option Reply × List Effect :=
  let seq := header.sequence
  if header.flags.response ∧ seq = s.lastSequence then
    (s, acknowledge header, [.tick .duplicates, .log (.duplicate s.sensor seq)])
  else if !resend then
    let (s, effects) := s.handOff seq now sampled raw
    (s, acknowledge header, effects)
  else conclude header now sampled raw (s.offer seq now raw)

def receive (i : Intake) (now : Micros) (peer : Endpoint) (raw : Bytes) : Outcome :=
  match Frame.Header.read raw with
  | .error reason => { intake := i, effects := refuse peer reason }
  | .ok header =>
    let seq := header.sequence
    let id := header.sensor
    let respond := header.flags.response
    if seq ≤ startupSequence ∧ !respond then
      { intake := i
        effects := [.tick .startupDrops, .log (.startupDropped id seq peer)] }
    else
      let ending := if header.flags.endOfStream then [Effect.log (.endOfStream id seq)] else []
      let (session, created, registry) := i.registry.session id peer
      let greeting := if created then [Effect.log (.newSensor id peer i.resend)] else []
      let (session, sampled) := { session with holding := session.holding || respond }.touch peer now
      let (session, reply, effects) := sequence i.resend session header now sampled raw
      { intake := { i with registry := registry.put session }
        reply
        effects := ending ++ greeting ++ [.tick .packets, .count .bytes raw.length] ++ effects }

/-- A connection closes: the sessions that only it used end. -/
def close (i : Intake) (readings : Counters) (peer : Endpoint) : Outcome :=
  let (released, registry) := i.registry.release peer
  { intake := { i with registry }
    effects := .move .connections (-1) :: released.map Effect.forget ++
      [.log (.connectionClosed peer (readings.connections - 1) released.length)] }

/-- Takes in one input at a time of the wall clock. The readings are those of the counters before
it. -/
def step (i : Intake) (readings : Counters) (now : Micros) : Input → Outcome
  | .opened peer eventLoop =>
    { intake := i
      effects := [.move .connections 1,
        .log (.connectionOpened peer eventLoop (readings.connections + 1))] }
  | .closed peer => i.close readings peer
  | .frame peer raw => i.receive now peer raw
  | .malformed peer reason => { intake := i, effects := refuse peer reason }
  | .tick => { intake := i, effects := [.log (.status i.registry.size readings)] }

/-- Takes in inputs one after the other, each at its time, and returns what each of them left
behind. -/
def run (i : Intake) (readings : Counters) : List (Micros × Input) → List Outcome
  | [] => []
  | (now, input) :: rest =>
    let outcome := i.step readings now input
    outcome :: outcome.intake.run (Effect.applyAll readings outcome.effects) rest

end Intake

end SensorIngest
