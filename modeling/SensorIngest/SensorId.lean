import SensorIngest.Text.Hex

/-!
# Sensor identifiers

A sensor is known by a 48-bit hardware number. It travels as six bytes and is shown as twelve
capital hexadecimal digits. Its low bits choose the partition that owns the sensor
(`SensorId.shard`).
-/

namespace SensorIngest

/-- A 48-bit hardware number. -/
structure SensorId where
  value : Nat
  value_lt : value < 281474976710656
deriving DecidableEq

namespace SensorId

/-- The identifier in the low 48 bits of a number. -/
def ofNat (n : Nat) : SensorId :=
  ⟨n % 281474976710656, Nat.mod_lt _ (by decide)⟩

@[ext] theorem ext {a b : SensorId} (h : a.value = b.value) : a = b := by
  cases a; cases b; cases h; rfl

@[simp] theorem ofNat_value (id : SensorId) : ofNat id.value = id :=
  SensorId.ext (Nat.mod_eq_of_lt id.value_lt)

instance : Inhabited SensorId := ⟨ofNat 0⟩

instance : Ord SensorId := ⟨compareOn value⟩

instance : Std.TransOrd SensorId :=
  inferInstanceAs (Std.TransCmp (compareOn value))

instance : Std.LawfulEqOrd SensorId where
  eq_of_compare h := SensorId.ext (Nat.compare_eq_eq.mp h)

def toBytes (id : SensorId) : Bytes :=
  Bytes.ofNat 6 id.value

/-- The identifier in a six-byte field. -/
def ofBytes (bytes : Bytes) : SensorId :=
  ofNat (Bytes.toNat bytes)

/-- Twelve capital hexadecimal digits. -/
def label (id : SensorId) : String :=
  Text.Hex.upper 12 id.value

/-- The partition that owns a sensor, among those that the bits of `mask` tell apart. -/
def shard (id : SensorId) (mask : Nat) : Nat :=
  id.value &&& mask

theorem shard_le (id : SensorId) (mask : Nat) : id.shard mask ≤ mask :=
  Nat.and_le_right

end SensorId

end SensorIngest
