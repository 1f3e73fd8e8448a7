import SensorIngest.Text.Hex

/-!
# Unsigned numerals

`readNat` reads a whole text as a number that has to fit below a limit, and says why it cannot. The
first character that is wrong decides. `takeDigits` splits a run of digits off the front of a text.
-/

namespace SensorIngest.Text.Numeral

inductive Failure where
  | empty
  | invalidDigit
  | tooLarge
deriving DecidableEq

def Failure.message : Failure → String
  | empty => "cannot parse integer from empty string"
  | invalidDigit => "invalid digit found in string"
  | tooLarge => "number too large to fit in target type"

/-- The value of a digit below `radix`, which is at most sixteen. -/
def digit? (radix : Nat) (c : Char) : Option Nat :=
  (Hex.value? c).filter (· < radix)

/-- Appends digits to a number that has to stay below `limit`. -/
def extend (radix limit : Nat) : (value : Nat) → List Char → Except Failure Nat
  | value, [] => .ok value
  | value, c :: rest =>
    match digit? radix c with
    | none => .error .invalidDigit
    | some d =>
      let value := value * radix + d
      if value < limit then extend radix limit value rest else .error .tooLarge

/-- Reads a number below `limit`. One plus sign may stand before the digits. -/
def readNat (radix limit : Nat) (text : String) : Except Failure Nat :=
  match text.toList with
  | [] => .error .empty
  | ['+'] => .error .invalidDigit
  | '+' :: digits => extend radix limit 0 digits
  | digits => extend radix limit 0 digits

/-- The digits at the front of a text, and the text behind them. -/
def takeDigits (radix : Nat) : List Char → List Nat × List Char
  | [] => ([], [])
  | c :: rest =>
    match digit? radix c with
    | none => ([], c :: rest)
    | some d =>
      let (ds, rest) := takeDigits radix rest
      (d :: ds, rest)

/-- The number that digits spell, most significant first. -/
def ofDigits (radix : Nat) (digits : List Nat) : Nat :=
  digits.foldl (fun n d => n * radix + d) 0

end SensorIngest.Text.Numeral
