import Std.Data.ExtTreeMap
import SensorIngest.SensorId

/-!
# Maps by sensor

`SensorMap` is a finite map, equal to another one as soon as all lookups agree. `ShardedMap` spreads
such a map over a power of two of partitions by the low bits of the identifier, so that sensors that
have nothing to do with each other rarely share one.
-/

namespace SensorIngest

/-- A finite map by sensor. -/
abbrev SensorMap (V : Type) : Type := Std.ExtTreeMap SensorId V

/-- A finite map by sensor in several partitions. -/
structure ShardedMap (V : Type) where
  shards : Array (SensorMap V)
  shards_pos : 0 < shards.size

namespace ShardedMap

variable {V : Type}

/-- The number of partitions where no other is asked for. -/
def defaultShards : Nat := 16

/-- An empty map with at least `shards` partitions, rounded up to a power of two. -/
def empty (shards : Nat) : ShardedMap V where
  shards := Array.replicate (max shards 1).nextPowerOfTwo ∅
  shards_pos := by
    rw [Array.size_replicate]
    exact Nat.pos_of_isPowerOfTwo (Nat.isPowerOfTwo_nextPowerOfTwo _)

/-- The partition that owns a sensor. -/
def slot (m : ShardedMap V) (id : SensorId) : Fin m.shards.size :=
  ⟨id.shard (m.shards.size - 1),
    Nat.lt_of_le_of_lt (id.shard_le _) (Nat.sub_lt m.shards_pos Nat.one_pos)⟩

def shardOf (m : ShardedMap V) (id : SensorId) : SensorMap V := m.shards[m.slot id]

def setShard (m : ShardedMap V) (id : SensorId) (shard : SensorMap V) : ShardedMap V where
  shards := m.shards.set (m.slot id) shard
  shards_pos := by rw [Array.size_set]; exact m.shards_pos

def get? (m : ShardedMap V) (id : SensorId) : Option V := (m.shardOf id)[id]?

def contains (m : ShardedMap V) (id : SensorId) : Bool := (m.shardOf id).contains id

/-- What a function makes of the value of a sensor. -/
def view {W : Type} (m : ShardedMap V) (id : SensorId) (f : V → W) : Option W := (m.get? id).map f

/-- Gives a sensor a value, in place of any that it has. -/
def insert (m : ShardedMap V) (id : SensorId) (value : V) : ShardedMap V :=
  m.setShard id ((m.shardOf id).insert id value)

def erase (m : ShardedMap V) (id : SensorId) : ShardedMap V :=
  m.setShard id ((m.shardOf id).erase id)

/-- The value of a sensor, which is `value` from now on if there was none. The flag says whether that
is so. -/
def getOrInsert (m : ShardedMap V) (id : SensorId) (value : V) : V × Bool × ShardedMap V :=
  match m.get? id with
  | some old => (old, false, m)
  | none => (value, true, m.insert id value)

/-- Keeps the values that pass a test, and lists the sensors of the others, partition by
partition. -/
def retain (m : ShardedMap V) (keep : SensorId → V → Bool) : List SensorId × ShardedMap V :=
  (m.shards.toList.flatMap fun shard => (shard.filter fun id v => !keep id v).keys,
    { shards := m.shards.map (·.filter keep)
      shards_pos := by rw [Array.size_map]; exact m.shards_pos })

/-- The sensors with a value, partition by partition. -/
def keys (m : ShardedMap V) : List SensorId := m.shards.toList.flatMap (·.keys)

/-- The sensors with a value, in ascending order. -/
def sortedKeys (m : ShardedMap V) : List SensorId :=
  m.keys.mergeSort (·.value ≤ ·.value)

def size (m : ShardedMap V) : Nat := m.shards.foldl (fun n shard => n + shard.size) 0

def isEmpty (m : ShardedMap V) : Bool := m.size = 0

end ShardedMap

end SensorIngest
