/-!
# Byte strings

Octet strings are plain lists, so that a format is a concatenation of its fields. `Bytes.ofNat` and
`Bytes.toNat` write and read fixed-width numbers, most significant byte first. `Bytes.checksum` is
the sum of all bytes in sixteen bits.
-/

namespace SensorIngest

abbrev Bytes := List UInt8

namespace Bytes

/-- The number a byte string spells, most significant byte first. -/
def toNat (bytes : Bytes) : Nat :=
  bytes.foldl (fun n b => n * 256 + b.toNat) 0

/-- The lowest `width` bytes of a number, most significant first. -/
def ofNat : (width : Nat) → Nat → Bytes
  | 0, _ => []
  | width + 1, n => ofNat width (n / 256) ++ [UInt8.ofNat n]

@[simp] theorem length_ofNat (width n : Nat) : (ofNat width n).length = width := by
  induction width generalizing n with
  | zero => rfl
  | succ width ih => simp [ofNat, ih]

@[simp] theorem toNat_nil : toNat [] = 0 := rfl

theorem toNat_concat (bytes : Bytes) (b : UInt8) :
    toNat (bytes ++ [b]) = toNat bytes * 256 + b.toNat := by
  simp [toNat]

/-- The sum of all bytes, kept in sixteen bits. -/
def checksum (bytes : Bytes) : Nat :=
  bytes.foldl (fun sum b => sum + b.toNat) 0 % 65536

theorem checksum_lt (bytes : Bytes) : checksum bytes < 65536 :=
  Nat.mod_lt _ (by decide)

/-- The two's complement of a number in sixteen bits, least significant byte first. -/
def ofSample (sample : Int) : Bytes :=
  let word := (sample % 65536).toNat
  [UInt8.ofNat word, UInt8.ofNat (word / 256)]

end Bytes

end SensorIngest
