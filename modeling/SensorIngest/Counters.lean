import SensorIngest.Timeline

/-!
# Counters

What a running server counts. A `Tally` only grows, a `Gauge` goes up and down.
-/

namespace SensorIngest

/-- Something counted once and for all. -/
inductive Tally where
  | packets
  | bytes
  /-- Frames ignored as boot noise. -/
  | startupDrops
  | duplicates
  /-- Inputs that are not frames. -/
  | malformed
  /-- Packages whose frame cannot be decoded. -/
  | decodeErrors
  /-- Packages without acoustic data. -/
  | missingSegments
  | resendRequests
  /-- Gaps for which a resend was requested. -/
  | resendTotal
  /-- Gaps closed by the frame that was requested. -/
  | resendSuccess
  /-- Gaps given up on. -/
  | forcedDrains
  | dispatched
  | sinkErrors
  /-- Packages by what they did to the device clock. -/
  | adjusted (kind : Adjustment)
deriving DecidableEq

/-- Something that there are more or less of. -/
inductive Gauge where
  | connections
  /-- Packages that wait in a lane. -/
  | queued
deriving DecidableEq

/-- Packages by what they did to the device clock. -/
structure AdjustmentCounts where
  aligned : Nat := 0
  broken : Nat := 0
  dropped : Nat := 0
  corrected : Nat := 0
  reset : Nat := 0
deriving DecidableEq

structure Counters where
  connections : Int := 0
  packets : Nat := 0
  bytes : Nat := 0
  startupDrops : Nat := 0
  duplicates : Nat := 0
  malformed : Nat := 0
  decodeErrors : Nat := 0
  missingSegments : Nat := 0
  resendRequests : Nat := 0
  resendTotal : Nat := 0
  resendSuccess : Nat := 0
  forcedDrains : Nat := 0
  dispatched : Nat := 0
  queued : Int := 0
  sinkErrors : Nat := 0
  adjusted : AdjustmentCounts := {}
deriving DecidableEq

/-- Counts one packet by its adjustment. -/
def AdjustmentCounts.count (c : AdjustmentCounts) (n : Nat) : Adjustment → AdjustmentCounts
  | .aligned => { c with aligned := c.aligned + n }
  | .broken => { c with broken := c.broken + n }
  | .dropped => { c with dropped := c.dropped + n }
  | .corrected => { c with corrected := c.corrected + n }
  | .reset => { c with reset := c.reset + n }

/-- The readings by name. -/
def AdjustmentCounts.readings (c : AdjustmentCounts) : List (String × Int) :=
  [("align", c.aligned), ("broken", c.broken), ("drop", c.dropped), ("corr", c.corrected),
    ("reset", c.reset)]

namespace Counters

/-- The readings by name, but for those by adjustment. -/
def readings (c : Counters) : List (String × Int) :=
  [("connections", c.connections), ("packets", c.packets), ("bytes", c.bytes),
    ("startup_drops", c.startupDrops), ("duplicates", c.duplicates), ("malformed", c.malformed),
    ("decode_errors", c.decodeErrors), ("missing_segments", c.missingSegments),
    ("resend_requests", c.resendRequests), ("resend_total", c.resendTotal),
    ("resend_success", c.resendSuccess), ("forced_drains", c.forcedDrains),
    ("dispatched", c.dispatched), ("queued", c.queued), ("sink_errors", c.sinkErrors)]

def count (c : Counters) (n : Nat) : Tally → Counters
  | .packets => { c with packets := c.packets + n }
  | .bytes => { c with bytes := c.bytes + n }
  | .startupDrops => { c with startupDrops := c.startupDrops + n }
  | .duplicates => { c with duplicates := c.duplicates + n }
  | .malformed => { c with malformed := c.malformed + n }
  | .decodeErrors => { c with decodeErrors := c.decodeErrors + n }
  | .missingSegments => { c with missingSegments := c.missingSegments + n }
  | .resendRequests => { c with resendRequests := c.resendRequests + n }
  | .resendTotal => { c with resendTotal := c.resendTotal + n }
  | .resendSuccess => { c with resendSuccess := c.resendSuccess + n }
  | .forcedDrains => { c with forcedDrains := c.forcedDrains + n }
  | .dispatched => { c with dispatched := c.dispatched + n }
  | .sinkErrors => { c with sinkErrors := c.sinkErrors + n }
  | .adjusted kind => { c with adjusted := c.adjusted.count n kind }

def move (c : Counters) (step : Int) : Gauge → Counters
  | .connections => { c with connections := c.connections + step }
  | .queued => { c with queued := c.queued + step }

end Counters

end SensorIngest
