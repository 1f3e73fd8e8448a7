import SensorIngest.ShardedMap
import SensorIngest.Session.Basic

/-!
# The registry of sessions

One session for each sensor, created when the sensor is first seen and dropped when the connection
it last used closes, unless the session is held.
-/

namespace SensorIngest

/-- The live sessions. -/
structure Registry where
  /-- New sessions get a backlog. -/
  buffering : Bool
  sessions : ShardedMap Session := .empty ShardedMap.defaultShards

namespace Registry

def get? (r : Registry) (id : SensorId) : Option Session := r.sessions.get? id

def put (r : Registry) (session : Session) : Registry :=
  { r with sessions := r.sessions.insert session.sensor session }

/-- The session of a sensor, created if there is none. The flag says whether that is so. -/
def session (r : Registry) (id : SensorId) (peer : Endpoint) : Session × Bool × Registry :=
  let (session, created, sessions) := r.sessions.getOrInsert id (.new id peer r.buffering)
  (session, created, { r with sessions })

/-- Drops the sessions that were last seen at an address and are not held, and lists their
sensors. -/
def release (r : Registry) (peer : Endpoint) : List SensorId × Registry :=
  let (removed, sessions) := r.sessions.retain fun _ s => s.holding || s.peer ≠ peer
  (removed, { r with sessions })

/-- The sensors with a session, in ascending order. -/
def ids (r : Registry) : List SensorId := r.sessions.sortedKeys

def size (r : Registry) : Nat := r.sessions.size

end Registry

end SensorIngest
