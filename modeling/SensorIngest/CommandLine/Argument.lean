import SensorIngest.Text.Cut
import SensorIngest.Text.Numeral
import SensorIngest.Text.Quoted

/-!
# Arguments

What may be wrong with the arguments of a program, and how numbers among them are read.
-/

namespace SensorIngest.CommandLine

open Text

inductive ArgumentError where
  | missingValue (flag : String)
  | badValue (value flag : String)
  | unknown (argument : String)
  | badSensor (value : String) (reason : Numeral.Failure)
  | zeroRate
deriving DecidableEq

def ArgumentError.message : ArgumentError → String
  | missingValue flag => s!"missing value for {flag}"
  | badValue value flag => s!"invalid value {quote value} for {flag}"
  | unknown argument => s!"unknown argument: {argument}"
  | badSensor value reason => s!"invalid sensor id {quote value}: {reason.message}"
  | zeroRate => "--rate must be positive"

/-- A number in base ten below a limit. -/
def number (limit : Nat) (value flag : String) : Except ArgumentError Nat :=
  (Numeral.readNat 10 limit value).mapError fun _ => .badValue value flag

def limit64 : Nat := 18446744073709551616

/-- What a program leaves behind: the code it ends with and the lines of its error stream. -/
structure Transcript where
  code : Nat
  lines : List String
deriving DecidableEq

/-- A program that says what went wrong, and ends. What it says may hold ends of lines. -/
def Transcript.failed (said : String) : Transcript := ⟨1, Text.lines said⟩

end SensorIngest.CommandLine
