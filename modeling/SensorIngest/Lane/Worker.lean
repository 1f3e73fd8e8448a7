import SensorIngest.Package
import SensorIngest.ShardedMap
import SensorIngest.Sink.Basic

/-!
# Lane workers

A worker processes the packets of its lane one after the other: it decodes the frame, places the
packet on the device clock of its sensor, and delivers it to the sinks. What it asks of its
surroundings is a list of effects. How a delivery turns out does not come back to the worker, so it
cannot change what the worker does next.
-/

namespace SensorIngest

/-- Where a packet was placed in time. -/
structure Placement where
  sequence : Nat
  /-- The device clock at the first sample. -/
  clock : Micros
  /-- The wall clock at arrival. -/
  arrival : Micros
  kind : Adjustment
deriving DecidableEq

namespace Lane

/-- One thing that a worker asks for. -/
inductive Effect where
  | count (tally : Tally)
  | move (gauge : Gauge) (step : Int)
  | log (event : Event)
  | deliver (delivery : Delivery)

def Effect.delivery? : Effect → Option Delivery
  | deliver delivery => some delivery
  | _ => none

/-- The work of a lane. -/
inductive Item where
  | packet (package : Package)
  | forget (sensor : SensorId)
deriving DecidableEq

def Item.sensor : Item → SensorId
  | packet package => package.sensor
  | forget sensor => sensor

/-- What all workers have in common. -/
structure Settings where
  /-- Tolerated drift of a device clock; not positive for any drift. -/
  threshold : Micros := 1000000
  /-- Frames go to the proxy after they are placed in time rather than before they are decoded. -/
  proxyAligned : Bool := true
  sinks : SinkSet := {}

/-- The worker of one lane. -/
structure Worker where
  settings : Settings
  /-- The device clocks of the lane's sensors. -/
  timelines : SensorMap Timeline := ∅
  /-- The last placement of each of them. -/
  placements : SensorMap Placement := ∅

namespace Worker

/-- The effect of a delivery, if its sink is present. -/
def offer (w : Worker) (delivery : Delivery) : List Effect :=
  if w.settings.sinks.has delivery.sink then [.deliver delivery] else []

/-- Deliveries that are made of every packet, even one that cannot be decoded. -/
def early (w : Worker) (p : Package) : List Effect :=
  w.offer (.presence p.sensor) ++
    if w.settings.proxyAligned then [] else w.offer (.proxy p.sensor p.frame)

/-- Deliveries that are made of a packet that has been placed in time. -/
def late (w : Worker) (id : SensorId) (frame : Frame) : List Effect :=
  (if w.settings.proxyAligned then w.offer (.proxy id frame.raw) else []) ++
    w.offer (.broadcast id frame) ++ w.offer (.grpc id frame.raw) ++ w.offer (.file id frame)

/-- A packet that cannot be placed in time is counted and reported. -/
def skip (p : Package) : Frame.Error → List Effect
  | .missingSegment kind =>
    [.count .missingSegments, .log (.packetSkipped p.sensor p.sequence (.missingSegment kind))]
  | reason => [.count .decodeErrors, .log (.badArcSegment p.sensor p.sequence reason)]

/-- Places a packet on the device clock of its sensor, which knows sequences as signed numbers. -/
def place (w : Worker) (p : Package) (span : Frame.Span) : Worker × List Effect :=
  let timeline := (w.timelines[p.sensor]?).getD { threshold := w.settings.threshold }
  let (timeline, kind) := timeline.next (Word.signed p.sequence) span.fill p.arrival span.duration
  let offset := Word.signed (p.arrival - span.duration - timeline.clock)
  let report := if kind = .aligned then [] else
    [Effect.log (.alignmentAdjusted p.sensor p.sequence kind timeline.clock
      timeline.lastSequence timeline.anchor offset)]
  let sample := if p.sampled then
    [Effect.log (.sample p.sensor p.sequence span.rate span.samples offset)] else []
  ({ w with
      timelines := w.timelines.insert p.sensor timeline
      placements := w.placements.insert p.sensor ⟨p.sequence, timeline.clock, p.arrival, kind⟩ },
    .count (.adjusted kind) :: report ++ sample)

def process (w : Worker) (p : Package) : Worker × List Effect :=
  match Frame.decode p.frame with
  | .error reason =>
    (w, w.early p ++ [.count .decodeErrors, .log (.decodeFailed p.sensor p.sequence reason)])
  | .ok frame =>
    match frame.span with
    | .error reason => (w, w.early p ++ skip p reason)
    | .ok span =>
      let (placed, effects) := w.place p span
      (placed, w.early p ++ effects ++ w.late p.sensor frame)

def forget (w : Worker) (id : SensorId) : Worker :=
  { w with timelines := w.timelines.erase id, placements := w.placements.erase id }

/-- Does one item of work. A packet stops waiting when its turn comes. -/
def handle (w : Worker) : Item → Worker × List Effect
  | .packet p =>
    let (w, effects) := w.process p
    (w, .move .queued (-1) :: effects)
  | .forget id => (w.forget id, [])

def handleAll (w : Worker) : List Item → Worker × List Effect
  | [] => (w, [])
  | item :: rest =>
    let (w, effects) := w.handle item
    let (w, more) := w.handleAll rest
    (w, effects ++ more)

end Worker

end Lane

end SensorIngest
