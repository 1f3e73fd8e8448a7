import SensorIngest.Bytes

/-!
# Hexadecimal text

Numbers at a fixed count of digits, in either case, and byte strings at two lower-case digits a
byte.
-/

namespace SensorIngest.Text.Hex

/-- A digit below sixteen, small letters above nine. -/
def lowerDigit (n : Nat) : Char :=
  if n < 10 then Char.ofNat (48 + n) else Char.ofNat (87 + n)

/-- A digit below sixteen, capitals above nine. -/
def upperDigit (n : Nat) : Char :=
  if n < 10 then Char.ofNat (48 + n) else Char.ofNat (55 + n)

/-- The last `width` base-sixteen digits of a number, most significant first. -/
def digits (digit : Nat → Char) : (width : Nat) → Nat → List Char
  | 0, _ => []
  | width + 1, n => digits digit width (n / 16) ++ [digit (n % 16)]

/-- The last `width` hexadecimal digits of a number in small letters. -/
def lower (width n : Nat) : String :=
  String.ofList (digits lowerDigit width n)

/-- The last `width` hexadecimal digits of a number in capitals. -/
def upper (width n : Nat) : String :=
  String.ofList (digits upperDigit width n)

/-- Two lower-case digits a byte. -/
def ofBytes (bytes : Bytes) : String :=
  bytes.foldl
    (fun text b => (text.push (lowerDigit (b.toNat / 16))).push (lowerDigit (b.toNat % 16))) ""

/-- The value of a hexadecimal digit of either case. -/
def value? (c : Char) : Option Nat :=
  if '0' ≤ c ∧ c ≤ '9' then some (c.toNat - 48)
  else if 'a' ≤ c ∧ c ≤ 'f' then some (c.toNat - 87)
  else if 'A' ≤ c ∧ c ≤ 'F' then some (c.toNat - 55)
  else none

end SensorIngest.Text.Hex
