import SensorIngest.Sink.Basic

/-!
# Forwarding to a parent server

Raw frames go to a parent server over one connection for each partition of the sensors, so that the
frames of a sensor stay in order. A connection is tried for when it is first wanted. After a failure
its frames are dropped until a later attempt succeeds.
-/

namespace SensorIngest

/-- The connection of one partition. -/
structure Forwarder.Slot where
  /-- A frame has asked for the connection. -/
  wanted : Bool := false
  connected : Bool := false
deriving DecidableEq

/-- The connections to a parent server. -/
structure Forwarder where
  slots : Array Forwarder.Slot
deriving DecidableEq

namespace Forwarder

/-- A forwarder with one slot for each lane, at least one. -/
def new (lanes : Nat) : Forwarder := ⟨Array.replicate (max lanes 1) {}⟩

def slotOf (f : Forwarder) (id : SensorId) : Nat := id.shard (f.slots.size - 1)

/-- Forwards a frame and returns the number of bytes taken. `reachable` says whether an attempt to
connect succeeds. -/
def write (f : Forwarder) (reachable : Bool) (id : SensorId) (raw : Bytes) :
    Forwarder × Except SinkError Nat :=
  let slot := f.slots.getD (f.slotOf id) {}
  let slot := if slot.wanted then slot else ⟨true, reachable⟩
  (⟨f.slots.setIfInBounds (f.slotOf id) slot⟩,
    if slot.connected then .ok raw.length else .error .unavailable)

/-- Tries again for every connection that is wanted and missing. -/
def reconnect (f : Forwarder) (reachable : Bool) : Forwarder :=
  ⟨f.slots.map fun s => if s.wanted && !s.connected then { s with connected := reachable } else s⟩

def stop (f : Forwarder) : Forwarder := ⟨f.slots.map fun s => { s with connected := false }⟩

def connected (f : Forwarder) : Nat := f.slots.countP (·.connected)

end Forwarder

end SensorIngest
