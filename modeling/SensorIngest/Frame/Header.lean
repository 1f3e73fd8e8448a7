import SensorIngest.SensorId
import SensorIngest.Frame.Error

/-!
# The fixed header

Whoever passes frames on without looking at their data needs only the header: sensor, sequence and
flags. Reading it asks for its 38 bytes and nothing else.
-/

namespace SensorIngest.Frame

/-- The flag byte of a frame. -/
structure Flags where
  bits : UInt8
deriving DecidableEq

/-- The sensor listens for acknowledgements and resend requests. -/
def Flags.response (flags : Flags) : Bool :=
  flags.bits &&& 0x20 != 0

/-- The frame is the last one of a recording. -/
def Flags.endOfStream (flags : Flags) : Bool :=
  flags.bits &&& 0x40 != 0

/-- Three bytes, as in a version number. -/
structure Triple where
  first : UInt8
  second : UInt8
  third : UInt8
deriving DecidableEq

def Triple.toBytes (t : Triple) : Bytes := [t.first, t.second, t.third]

/-- The lowest three bytes of a number. -/
def Triple.ofNat (n : Nat) : Triple :=
  ⟨UInt8.ofNat (n / 65536), UInt8.ofNat (n / 256), UInt8.ofNat n⟩

/-- What every frame says about itself. -/
structure Header where
  sequence : Nat
  hardware : Triple
  firmware : Triple
  sensor : SensorId
  model : Triple
  flags : Flags
deriving DecidableEq

/-- Reads the header's fields at their places. -/
def Header.read (raw : Bytes) : Except Error Header :=
  if (raw.take headerLength).length < headerLength then
    .error (.truncated headerLength raw.length)
  else
    .ok {
      sequence := field raw 9 8
      hardware := .ofNat (field raw 17 3)
      firmware := .ofNat (field raw 20 3)
      sensor := .ofNat (field raw 23 6)
      model := .ofNat (field raw 29 3)
      flags := ⟨UInt8.ofNat (field raw 37 1)⟩ }

end SensorIngest.Frame
