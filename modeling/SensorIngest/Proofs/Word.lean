import Mathlib.Algebra.Ring.Int.Defs
import Mathlib.Algebra.Ring.Nat
import SensorIngest.Word

/-!
# Machine words

What 64 bits hold stays itself, so that where nothing wraps around the numbers of the program are the
integers.
-/

namespace SensorIngest.Word

theorem unsigned_eq {n : Nat} (fits : n < 2 ^ 64) : unsigned n = n := Nat.mod_eq_of_lt fits

theorem signed_eq {n : Int} (low : -2 ^ 63 ≤ n) (high : n < 2 ^ 63) : signed n = n :=
  Int.bmod_eq_of_le low high

theorem signed_lt (n : Int) : signed n < 2 ^ 63 := Int.bmod_lt (by decide)

/-- A sum that is wrapped around once at the end is the same as one wrapped around on the way. -/
theorem signed_signed_add (n m : Int) : signed (signed n + m) = signed (n + m) := Int.bmod_add_bmod

theorem signed_ne_zero {n : Int} (pos : 0 < n) (high : n < 2 ^ 64) : signed n ≠ 0 := by
  unfold signed
  rw [Int.bmod_def]
  omega

end SensorIngest.Word
