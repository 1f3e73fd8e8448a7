import SensorIngest.Text.Decimal
import SensorIngest.Toml.Scan

/-!
# Numbers of a document

Whole numbers have 64 bits with a sign. They are written in base ten without leading zeros, or behind
a mark in base two, eight or sixteen; single underscores may stand between digits. Other numbers are
doubles, and one that is too large is refused.
-/

namespace SensorIngest.Toml.Number

open Scan Text

def isDigit (c : Char) : Bool := '0' ≤ c && c ≤ '9'

def isSign (c : Char) : Bool := c = '+' || c = '-'

/-- Takes digits of a kind, with single underscores left out from between them. -/
def digits (p : Char → Bool) : Scan (List Char) := do
  let first ← one p
  let rest ← many (do discard (accept "_"); one p)
  return first :: rest

/-- Takes a zero, or digits that begin with another one. -/
def whole : Scan (List Char) := fun cs =>
  match cs with
  | '0' :: rest => some (['0'], rest)
  | cs => digits isDigit cs

/-- Takes a sign, if there is one. -/
def sign : Scan (List Char) := do
  return (← optional (one isSign)).toList

/-- A number that has to fit into 64 bits with a sign. -/
def fit (n : Int) : Scan Int :=
  if -9223372036854775808 ≤ n ∧ n ≤ 9223372036854775807 then pure n else failure

/-- Takes digits of a base behind its mark. -/
def marked (mark : String) (radix : Nat) : Scan Int := do
  expect mark
  let ds ← digits fun c => (Numeral.digit? radix c).isSome
  fit (Numeral.ofDigits radix (ds.filterMap (Numeral.digit? radix)))

/-- Takes a whole number in base ten. -/
def decimal : Scan Int := do
  let s ← sign
  let n : Int := Numeral.ofDigits 10 ((← whole).filterMap (Numeral.digit? 10))
  fit (if s = ['-'] then -n else n)

def integer : Scan Int := marked "0x" 16 <|> marked "0o" 8 <|> marked "0b" 2 <|> decimal

/-- Takes a point and the digits behind it. -/
def fraction : Scan (List Char) := do
  expect "."
  return '.' :: (← digits isDigit)

def exponent : Scan (List Char) := do
  discard (one fun c => c = 'e' || c = 'E')
  let s ← sign
  return 'e' :: s ++ (← digits isDigit)

/-- Takes a number with a fraction, an exponent or both. -/
def finite : Scan Float := do
  let s ← sign
  let n ← whole
  let f ← optional fraction
  let e ← optional exponent
  if f = none ∧ e = none then failure
  match Decimal.read? (s ++ n ++ f.getD [] ++ e.getD []) with
  | none => failure
  | some d => if d.negative ∨ d.magnitude < Decimal.infinity then return d.toFloat else failure

/-- Takes the name of a double that is not finite. -/
def named : Scan Float := do
  let s ← sign
  if ← accept "nan" then return 0.0 / 0.0
  expect "inf"
  return if s = ['-'] then -1.0 / 0.0 else 1.0 / 0.0

def float : Scan Float := finite <|> named

end SensorIngest.Toml.Number
