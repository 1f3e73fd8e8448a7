/-!
# Test tone

The samples of a simulated sensor: a sine with a period of 64 π samples that goes on smoothly from one
packet to the next.
-/

namespace SensorIngest.Simulator

/-- The sample at a position from the start of the tone, rounded toward zero. -/
def sample (position : Nat) : Int :=
  (Float.sin ((UInt64.ofNat position).toFloat / 32.0) * 8000.0).toInt16.toInt

def tone (sequence samples : Nat) : List Int :=
  (List.range samples).map fun i => sample (sequence * samples + i)

end SensorIngest.Simulator
