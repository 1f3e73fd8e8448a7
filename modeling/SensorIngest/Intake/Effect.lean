import SensorIngest.Event
import SensorIngest.Package

/-!
# Effects of the receive path

The receive path is a function of its state. What it asks of its surroundings is a list of effects,
in the order in which they happen: counting, logging, handing a package on, and telling the lanes to
forget a sensor. Handing a package on also counts it.
-/

namespace SensorIngest.Intake

/-- One thing that the receive path asks for. -/
inductive Effect where
  | count (tally : Tally) (n : Nat)
  | move (gauge : Gauge) (step : Int)
  | log (event : Event)
  | dispatch (package : Package)
  | forget (sensor : SensorId)

namespace Effect

abbrev tick (tally : Tally) : Effect := .count tally 1

def package? : Effect → Option Package
  | dispatch package => some package
  | _ => none

def forgotten? : Effect → Option SensorId
  | forget sensor => some sensor
  | _ => none

def event? : Effect → Option Event
  | log event => some event
  | _ => none

/-- The packages handed on, in order. -/
def packages (effects : List Effect) : List Package := effects.filterMap package?

@[simp] theorem packages_nil : packages [] = [] := rfl

@[simp] theorem packages_append (first rest : List Effect) :
    packages (first ++ rest) = packages first ++ packages rest := List.filterMap_append

@[simp] theorem packages_dispatch (p : Package) (rest : List Effect) :
    packages (.dispatch p :: rest) = p :: packages rest := rfl

@[simp] theorem packages_count (tally : Tally) (n : Nat) (rest : List Effect) :
    packages (.count tally n :: rest) = packages rest := rfl

@[simp] theorem packages_move (gauge : Gauge) (step : Int) (rest : List Effect) :
    packages (.move gauge step :: rest) = packages rest := rfl

@[simp] theorem packages_log (event : Event) (rest : List Effect) :
    packages (.log event :: rest) = packages rest := rfl

@[simp] theorem packages_forget (sensor : SensorId) (rest : List Effect) :
    packages (.forget sensor :: rest) = packages rest := rfl

/-- The sensors forgotten, in order. -/
def forgotten (effects : List Effect) : List SensorId := effects.filterMap forgotten?

/-- The counters after an effect. -/
def applyTo (c : Counters) : Effect → Counters
  | count tally n => c.count n tally
  | move gauge step => c.move step gauge
  | dispatch _ => c.count 1 .dispatched
  | log _ | forget _ => c

def applyAll (c : Counters) (effects : List Effect) : Counters := effects.foldl applyTo c

end Effect

end SensorIngest.Intake
