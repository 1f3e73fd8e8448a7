import SensorIngest.Frame.Layout

/-!
# Data segments

A segment is a kind byte, a four-byte length and a body. Acoustic segments carry a sample rate and
sixteen-bit samples; their `Span` says how much time the samples cover.
-/

namespace SensorIngest.Frame

/-- What the body of a segment holds. -/
inductive Segment.Kind where
  /-- A sample rate and sixteen-bit acoustic samples. -/
  | arc
  /-- A rate code and triples of sixteen-bit accelerations. -/
  | vibration
  /-- Hundredths of a degree. -/
  | temperature
  /-- A code without a meaning here. -/
  | unknown (code : UInt8)
deriving DecidableEq

namespace Segment.Kind

def ofByte : UInt8 → Kind
  | 1 => arc
  | 2 => vibration
  | 3 => temperature
  | code => unknown code

def toByte : Kind → UInt8
  | arc => 1
  | vibration => 2
  | temperature => 3
  | unknown code => code

@[simp] theorem toByte_ofByte (b : UInt8) : (ofByte b).toByte = b := by
  unfold ofByte; split <;> rfl

def name : Kind → String
  | arc => "Arc"
  | vibration => "Vibration"
  | temperature => "Temperature"
  | unknown code => s!"Unknown({code.toNat})"

end Segment.Kind

/-- One entry of a frame's segment group. -/
structure Segment where
  kind : Segment.Kind
  body : Bytes
deriving DecidableEq

/-- An acoustic segment of sixteen-bit samples. -/
def Segment.acoustic (rate : Nat) (samples : List Int) : Segment :=
  ⟨.arc, Bytes.ofNat 4 rate ++ samples.flatMap Bytes.ofSample⟩

def Segment.degrees (hundredths : Int) : Segment :=
  ⟨.temperature, (Bytes.ofSample hundredths).reverse⟩

/-- The bytes of a segment in its group. -/
def Segment.encode (segment : Segment) : Bytes :=
  segment.kind.toByte :: Bytes.ofNat 4 segment.body.length ++ segment.body

end SensorIngest.Frame
