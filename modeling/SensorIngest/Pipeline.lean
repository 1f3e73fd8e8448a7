import SensorIngest.Frame.Stream
import SensorIngest.Intake.Basic
import SensorIngest.Lane.Router

/-!
# From bytes to sinks

A pipeline takes the bytes of connections, cuts frames out of them, passes these through the receive
path and has the lanes process what that hands on, at once. It returns the replies for the sensors.
-/

namespace SensorIngest

open Lane (Outlets Plant)

/-- Connections, receive path and lanes. -/
structure Pipeline (σ : Type) where
  /-- Frames with a wrong checksum are refused. -/
  verifying : Bool
  intake : Intake
  plant : Plant σ
  /-- The bytes of each connection that are not yet part of a frame. -/
  streams : List (Endpoint × Frame.Stream) := []

namespace Pipeline

variable {σ : Type}

/-- Changes the counters of a plant. -/
def tallied (p : Plant σ) (change : Counters → Counters) : Plant σ :=
  { p with scene := { p.scene with counters := change p.scene.counters } }

/-- Carries out an effect of the receive path. A package is counted and processed as soon as it is
handed on. -/
def performOne (o : Outlets σ) (p : Plant σ) : Intake.Effect → Plant σ
  | .dispatch package =>
    ((tallied p (·.count 1 .dispatched)).dispatch o package).settle o package.sensor
  | .forget id => (p.forget o id).settle o id
  | .log event => { p with scene := p.scene.report [event] }
  | .count tally n => tallied p (·.count n tally)
  | .move gauge step => tallied p (·.move step gauge)

/-- Carries out the effects of the receive path in order. -/
def perform (o : Outlets σ) (p : Plant σ) (effects : List Intake.Effect) : Plant σ :=
  effects.foldl (performOne o) p

/-- Takes in one input of the receive path. -/
def step (o : Outlets σ) (p : Pipeline σ) (now : Micros) (input : Intake.Input) :
    Pipeline σ × Option Reply :=
  let outcome := p.intake.step p.plant.scene.counters now input
  ({ p with intake := outcome.intake, plant := perform o p.plant outcome.effects }, outcome.reply)

/-- The stream of a connection, and those of the others. -/
def parted (peer : Endpoint) :
    List (Endpoint × Frame.Stream) → Option Frame.Stream × List (Endpoint × Frame.Stream)
  | [] => (none, [])
  | (owner, stream) :: rest =>
    if owner = peer then (some stream, rest)
    else
      let (found, others) := parted peer rest
      (found, (owner, stream) :: others)

def stream (p : Pipeline σ) (peer : Endpoint) : Frame.Stream :=
  (parted peer p.streams).1.getD { verifying := p.verifying }

def opened (o : Outlets σ) (p : Pipeline σ) (now : Micros) (peer : Endpoint) : Pipeline σ :=
  let streams := (peer, { verifying := p.verifying }) :: (parted peer p.streams).2
  ({ p with streams }.step o now (.opened peer 0)).1

/-- A connection closes. What it had not completed is lost. -/
def closed (o : Outlets σ) (p : Pipeline σ) (now : Micros) (peer : Endpoint) : Pipeline σ :=
  ({ p with streams := (parted peer p.streams).2 }.step o now (.closed peer)).1

/-- What a connection has to say to its sensor, and what it has refused. -/
structure Response where
  replies : List Reply := []
  refused : List Frame.Error := []

/-- Takes in results of a stream one after the other. -/
def takeResults (o : Outlets σ) (now : Micros) (peer : Endpoint) :
    Pipeline σ → List (Except Frame.Error Bytes) → Pipeline σ × Response
  | p, [] => (p, {})
  | p, .ok frame :: rest =>
    let (p, reply) := p.step o now (.frame peer frame)
    let (p, response) := takeResults o now peer p rest
    (p, { response with replies := reply.toList ++ response.replies })
  | p, .error reason :: rest =>
    let (p, _) := p.step o now (.malformed peer reason)
    let (p, response) := takeResults o now peer p rest
    (p, { response with refused := reason :: response.refused })

/-- A connection delivers bytes. -/
def received (o : Outlets σ) (p : Pipeline σ) (now : Micros) (peer : Endpoint) (bytes : Bytes) :
    Pipeline σ × Response :=
  let (found, others) := parted peer p.streams
  let (results, stream) := ((found.getD { verifying := p.verifying }).feed bytes).drain
  takeResults o now peer { p with streams := (peer, stream) :: others } results

/-- The bytes of a connection that are not yet part of a frame. -/
def pending (p : Pipeline σ) (peer : Endpoint) : Nat := (p.stream peer).buffered

end Pipeline

end SensorIngest
