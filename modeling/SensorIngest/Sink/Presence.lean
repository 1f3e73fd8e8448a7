import SensorIngest.Event
import SensorIngest.ShardedMap

/-!
# Presence

When each sensor was first and last heard from. A sensor is online while its silence is at most
`idleLimit`. Those that are not are forgotten in sweeps, which run along with reports of other
sensors, at least `sweepInterval` apart; whether a sweep has run does not show in who is online.
-/

namespace SensorIngest

/-- When a sensor was heard from. -/
structure Presence where
  firstSeen : Micros
  lastPacket : Micros
deriving DecidableEq

/-- The sensors heard from and not yet forgotten. -/
structure PresenceTracker where
  seen : ShardedMap Presence := .empty ShardedMap.defaultShards
  lastSweep : Micros

namespace PresenceTracker

/-- The longest silence of a sensor that is online. -/
def idleLimit : Micros := 5000000

/-- The shortest time between two sweeps. -/
def sweepInterval : Micros := 60000000

/-- A tracker that has heard of no sensor. Its first sweep counts from now. -/
def new (now : Micros) : PresenceTracker := { lastSweep := now }

/-- The silence is within the limit. -/
def Presence.isOnline (p : Presence) (now : Micros) : Bool := now - p.lastPacket ≤ idleLimit

/-- When a sensor was heard from, unless it is unknown or forgotten. -/
def get? (t : PresenceTracker) (id : SensorId) : Option Presence := t.seen.get? id

/-- The sensors that are online, in ascending order. -/
def online (t : PresenceTracker) (now : Micros) : List SensorId :=
  t.seen.sortedKeys.filter fun id => (t.seen.get? id).any (Presence.isOnline · now)

/-- Forgets the sensors that are not online and lists them. -/
def expire (t : PresenceTracker) (now : Micros) :
    List SensorId × PresenceTracker × List Event :=
  let (gone, seen) := t.seen.retain fun _ p => Presence.isOnline p now
  (gone, { seen, lastSweep := now }, gone.map .sensorOffline)

/-- Reports that a sensor has been heard from, and sweeps when that is due. -/
def sync (t : PresenceTracker) (now : Micros) (id : SensorId) : PresenceTracker × List Event :=
  let (known, created, seen) := t.seen.getOrInsert id ⟨now, now⟩
  let (seen, events) : ShardedMap Presence × List Event :=
    if created then (seen, [.sensorOnline id])
    else (seen.insert id { known with lastPacket := now }, [])
  let t := { t with seen }
  if sweepInterval ≤ now - t.lastSweep then
    let (_, t, swept) := t.expire now
    (t, events ++ swept)
  else (t, events)

end PresenceTracker

end SensorIngest
