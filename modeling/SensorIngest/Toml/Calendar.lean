import SensorIngest.Toml.Number
import SensorIngest.Toml.Value

/-!
# Dates and times of a document

A date, a time of day, or both, and then perhaps the distance from universal time. A date has to be
one of the calendar. A second may be a leap second.
-/

namespace SensorIngest.Toml.Calendar

open Scan Number Text

/-- Takes a number of exactly `width` digits within bounds. -/
def bounded (width low high : Nat) : Scan Nat := do
  let n := Numeral.ofDigits 10 ((← exactly isDigit width).filterMap (Numeral.digit? 10))
  if low ≤ n ∧ n ≤ high then return n else failure

def daysIn (year month : Nat) : Nat :=
  if month = 2 then
    if year % 4 = 0 ∧ (year % 100 ≠ 0 ∨ year % 400 = 0) then 29 else 28
  else if month = 4 ∨ month = 6 ∨ month = 9 ∨ month = 11 then 30
  else 31

def date : Scan Date := do
  let year ← bounded 4 0 9999
  expect "-"
  let month ← bounded 2 1 12
  expect "-"
  let day ← bounded 2 1 (daysIn year month)
  return ⟨year, month, day⟩

/-- The nanoseconds that the digits behind a decimal point stand for. Digits beyond the ninth do not
count. -/
def nanoseconds (ds : List Nat) : Nat :=
  Numeral.ofDigits 10 ((ds ++ List.replicate 9 0).take 9)

def time : Scan Time := do
  let hour ← bounded 2 0 23
  expect ":"
  let minute ← bounded 2 0 59
  expect ":"
  let second ← bounded 2 0 60
  let ds ← optional do
    expect "."
    let first ← one isDigit
    return first :: (← takeWhile isDigit)
  return ⟨hour, minute, second, nanoseconds ((ds.getD []).filterMap (Numeral.digit? 10))⟩

/-- Takes a distance from universal time, in minutes. -/
def distance : Scan Int := do
  let utc ← optional (one fun c => c = 'Z' || c = 'z')
  if utc.isSome then return 0
  let s ← one isSign
  let hour ← bounded 2 0 23
  expect ":"
  let minute ← bounded 2 0 59
  let n : Int := hour * 60 + minute
  return if s = '-' then -n else n

def timeOfDate (d : Date) : Scan Moment := do
  discard (one fun c => c = 'T' || c = 't' || c = ' ')
  let t ← time
  match ← optional distance with
  | none => return .floating d t
  | some minutes => return .offset d t minutes

def moment : Scan Moment :=
  (do
    let d ← date
    return (← optional (timeOfDate d)).getD (.date d)) <|>
  (do return .time (← time))

end SensorIngest.Toml.Calendar
