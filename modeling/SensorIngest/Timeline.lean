import SensorIngest.Frame.Span
import SensorIngest.Word

/-!
# The device clock of a sensor

Arrival times jitter with the network, sample counts do not. A `Timeline` keeps a clock that advances
by exactly the duration of each packet in sequence, and goes back to the arrival clock only when the
two have drifted apart by more than a threshold. With `anchor = arrival - duration`:

| Packet | Outcome | Clock afterwards |
|---|---|---|
| the first one, or a sequence that does not advance | reset | anchor |
| a sequence that leaves a gap | broken | anchor |
| clock + duration under anchor - threshold | corrected | anchor |
| clock + duration over anchor + threshold | dropped | as before |
| any other | aligned | clock + duration |

A threshold that is not positive turns the two comparisons off. Since durations are rounded down,
every third packet in a row that lost a fraction advances the clock by one more microsecond. Sequences
and times are signed numbers of 64 bits here, and every sum and difference of them wraps around.
-/

namespace SensorIngest

/-- How a packet moved the device clock. -/
inductive Adjustment where
  | aligned
  | broken
  | dropped
  | corrected
  | reset
deriving DecidableEq

def Adjustment.word : Adjustment → String
  | aligned => "align"
  | broken => "broken"
  | dropped => "drop"
  | corrected => "corr"
  | reset => "reset"

/-- The device clock of one sensor. -/
structure Timeline where
  /-- Microseconds of tolerated drift; not positive for any drift. -/
  threshold : Micros
  lastSequence : Int := 0
  /-- The clock; zero before the first packet. -/
  clock : Micros := 0
  /-- The arrival clock less the duration, when the device clock last moved. -/
  anchor : Micros := 0
  /-- Packets in a row whose duration lost a fraction since the clock was last compensated. -/
  fills : Nat := 0
deriving DecidableEq

namespace Timeline

/-- Fractions are made up for by a microsecond every so many packets. -/
def fillPeriod : Nat := 3

/-- Starts over at a packet. -/
def restartAt (t : Timeline) (sequence : Int) (anchor : Micros) : Timeline :=
  { t with lastSequence := sequence, clock := anchor, anchor, fills := 0 }

/-- Moves on by the duration of the next packet. -/
def advance (t : Timeline) (duration anchor : Micros) (fill : Bool) : Timeline :=
  let moved := { t with
    lastSequence := Word.signed (t.lastSequence + 1)
    clock := Word.signed (t.clock + duration), anchor }
  if !fill then { moved with fills := 0 }
  else if t.fills + 1 < fillPeriod then { moved with fills := t.fills + 1 }
  else { moved with fills := 0, clock := Word.signed (moved.clock + 1) }

/-- Takes in one packet. The clock afterwards is the time of its first sample. -/
def next (t : Timeline) (sequence : Int) (fill : Bool) (arrival duration : Micros) :
    Timeline × Adjustment :=
  let anchor := Word.signed (arrival - duration)
  let due := Word.signed (t.lastSequence + 1)
  let ahead := Word.signed (t.clock + duration)
  if t.clock = 0 then (t.restartAt sequence anchor, .reset)
  else if sequence ≠ due then
    (t.restartAt sequence anchor, if sequence ≤ t.lastSequence then .reset else .broken)
  else if t.threshold ≤ 0 then (t.advance duration anchor fill, .aligned)
  else if ahead < Word.signed (anchor - t.threshold) then
    (t.restartAt sequence anchor, .corrected)
  else if Word.signed (anchor + t.threshold) < ahead then
    ({ t with lastSequence := due }, .dropped)
  else (t.advance duration anchor fill, .aligned)

end Timeline

end SensorIngest
