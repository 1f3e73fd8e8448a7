/-!
# Machine words

Sequences are unsigned numbers of 64 bits, and times are signed ones. A result that 64 bits do not hold
wraps around: it is the number that 64 bits hold in its place. A result that they do hold stays itself.
-/

namespace SensorIngest.Word

/-- The unsigned number of 64 bits in place of a result. -/
def unsigned (n : Nat) : Nat := n % 18446744073709551616

/-- The signed number of 64 bits in place of a result. -/
def signed (n : Int) : Int := n.bmod 18446744073709551616

end SensorIngest.Word
