import SensorIngest.Text.Numeral

/-!
# Decimal fractions and their nearest doubles

`Decimal.read?` reads a decimal fraction with an optional exponent. `Decimal.toFloat` is the double
nearest to it, of two equally near ones the one with an even last bit; what is too large becomes
infinite. The rounding is done on whole numbers.
-/

namespace SensorIngest.Text

/-- The number `coefficient · 10 ^ exponent`, with a sign. -/
structure Decimal where
  negative : Bool
  coefficient : Nat
  exponent : Int
deriving DecidableEq

namespace Decimal

/-- The bits of the positive infinite double. -/
def infinity : Nat := 0x7FF0000000000000

/-- The bit that makes a double negative. -/
def signBit : Nat := 0x8000000000000000

/-- A quotient rounded to the nearest whole number, half-way to the even one. -/
def roundHalfEven (num den : Nat) : Nat :=
  let q := num / den
  let r := num % den
  if 2 * r < den then q else if den < 2 * r then q + 1 else q + q % 2

/-- The power of two that the last bit of the double nearest to `num / den` stands for. A double has
53 bits, and none below the power -1074. -/
def lastPlace (num den : Nat) : Int :=
  let k : Int := (num.log2 : Int) - den.log2
  let reached := den <<< k.toNat ≤ num <<< (-k).toNat
  max (if reached then k - 52 else k - 53) (-1074)

/-- The bits of the double nearest to `num / den`, both positive. The exponent field counts from the
smallest last place, so a carry out of the fraction goes where it belongs. -/
def nearest (num den : Nat) : Nat :=
  let place := lastPlace num den
  let fraction := roundHalfEven (num <<< (-place).toNat) (den <<< place.toNat)
  min ((place + 1074).toNat * 4503599627370496 + fraction) infinity

/-- The bits of the double nearest to the absolute value. Exponents that decide by themselves are told
apart first, so that no power grows beyond need. -/
def magnitude (d : Decimal) : Nat :=
  if d.coefficient = 0 then 0
  else if 400 < d.exponent then infinity
  else if d.coefficient.log2 + 1 + 3 * d.exponent < -1076 then 0
  else
    nearest (d.coefficient * Nat.pow 10 d.exponent.toNat) (Nat.pow 10 (-d.exponent).toNat)

/-- The double nearest to a decimal fraction. -/
def toFloat (d : Decimal) : Float :=
  Float.ofBits (UInt64.ofNat (if d.negative then signBit + d.magnitude else d.magnitude))

/-- A sign at the front of a text, and the text behind it. The flag says that it is a minus sign. -/
def takeSign : List Char → Bool × List Char
  | '-' :: cs => (true, cs)
  | '+' :: cs => (false, cs)
  | cs => (false, cs)

/-- Reads an exponent behind its mark. -/
def readExponent? (cs : List Char) : Option Int :=
  let (negative, cs) := takeSign cs
  match Numeral.takeDigits 10 cs with
  | ([], _) => none
  | (digits, []) =>
    let n : Int := Numeral.ofDigits 10 digits
    some (if negative then -n else n)
  | _ => none

/-- Reads a whole text as a decimal fraction. A point may lack digits on one of its sides. -/
def read? (cs : List Char) : Option Decimal :=
  let (negative, cs) := takeSign cs
  let (whole, cs) := Numeral.takeDigits 10 cs
  let (fraction, cs) := match cs with
    | '.' :: cs => Numeral.takeDigits 10 cs
    | cs => ([], cs)
  let scaled (exponent : Int) : Decimal :=
    ⟨negative, Numeral.ofDigits 10 (whole ++ fraction), exponent - fraction.length⟩
  if (whole ++ fraction).isEmpty then none
  else match cs with
    | [] => some (scaled 0)
    | 'e' :: cs | 'E' :: cs => (readExponent? cs).map scaled
    | _ => none

/-- Reads a whole text as a double: a decimal fraction, or the name of a double that is not finite, in
letters of either case. -/
def readFloat? (text : String) : Option Float :=
  let (negative, cs) := takeSign text.toList
  let name := String.ofList (cs.map Char.toLower)
  if name = "nan" then some (Float.ofBits 0x7FF8000000000000)
  else if name = "inf" ∨ name = "infinity" then
    some (Float.ofBits (UInt64.ofNat (if negative then signBit + infinity else infinity)))
  else (read? text.toList).map toFloat

end Decimal

end SensorIngest.Text
