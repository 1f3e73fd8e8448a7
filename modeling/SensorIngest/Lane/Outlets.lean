import SensorIngest.Lane.Worker

/-!
# Performing the effects of a lane

What is behind the sinks is a parameter: a state, and a function that answers a delivery. `perform`
carries out effects in order. A failed delivery is counted and logged and changes nothing else; a
crash ends the lane at once.
-/

namespace SensorIngest.Lane

/-- How a delivery turns out. -/
inductive Answer where
  | done
  | failed (reason : SinkError)
  /-- The consumer takes the lane down with it. -/
  | crashed
deriving DecidableEq

/-- What is behind the sinks: how it answers a delivery, and what it logs meanwhile. -/
structure Outlets (σ : Type) where
  answer : σ → Delivery → σ × List Event × Answer

/-- The state of what is behind the sinks, the counters, and what has been logged. -/
structure Scene (σ : Type) where
  outlets : σ
  counters : Counters := {}
  log : Array Event := #[]
  /-- A delivery has ended the lane. -/
  crashed : Bool := false

namespace Scene

variable {σ : Type}

def report (s : Scene σ) (events : List Event) : Scene σ :=
  { s with log := s.log.appendList events }

def deliver (o : Outlets σ) (s : Scene σ) (d : Delivery) : Scene σ :=
  let (outlets, events, answer) := o.answer s.outlets d
  let s := { s with outlets }.report events
  match answer with
  | .done => s
  | .crashed => { s with crashed := true }
  | .failed reason =>
    { s with counters := s.counters.count 1 .sinkErrors }.report
      [.sinkFailed d.sink.name d.sensor reason.message]

def performOne (o : Outlets σ) (s : Scene σ) : Effect → Scene σ
  | .count tally => { s with counters := s.counters.count 1 tally }
  | .move gauge step => { s with counters := s.counters.move step gauge }
  | .log event => s.report [event]
  | .deliver d => s.deliver o d

/-- Carries out effects in order, up to a crash. -/
def perform (o : Outlets σ) (s : Scene σ) : List Effect → Scene σ
  | [] => s
  | effect :: rest =>
    let s := s.performOne o effect
    if s.crashed then s else perform o s rest

end Scene

end SensorIngest.Lane
