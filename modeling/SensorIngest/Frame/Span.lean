import SensorIngest.Frame.Error

/-!
# The time that acoustic samples cover

An acoustic body is a four-byte sample rate and then two bytes a sample. Its span is the number of
whole samples at that rate, in whole microseconds.
-/

namespace SensorIngest

/-- Microseconds, of the wall clock or of a sensor's own clock. -/
abbrev Micros := Int

namespace Frame

/-- How many samples a segment holds, and for how long they last. -/
structure Span where
  rate : Nat
  samples : Nat
  /-- Whole microseconds, rounded down. -/
  duration : Micros
  /-- Whether rounding lost a fraction of a microsecond. -/
  fill : Bool
deriving DecidableEq

/-- The span of a number of samples at a positive rate. -/
def Span.of (rate samples : Nat) : Span :=
  { rate, samples
    duration := (samples * 1000000 / rate : Nat)
    fill := samples * 1000000 % rate != 0 }

/-- The span of an acoustic body. An odd last byte is not a sample. -/
def Span.ofBody (body : Bytes) : Except Error Span :=
  match body with
  | r₃ :: r₂ :: r₁ :: r₀ :: pcm =>
    let rate := Bytes.toNat [r₃, r₂, r₁, r₀]
    if rate = 0 then .error .zeroSampleRate else .ok (.of rate (pcm.length / 2))
  | short => .error (.truncated 4 short.length)

end Frame

end SensorIngest
