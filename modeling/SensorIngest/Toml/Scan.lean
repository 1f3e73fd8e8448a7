/-!
# Scanning text

A scan takes something from the front of a text or fails; a scan that fails takes nothing. `many` and
`separated` repeat a scan. Blanks, comments and ends of lines are scanned here too, as they may stand
in most places of a document.
-/

namespace SensorIngest.Toml

/-- Takes a value from the front of a text, or fails. -/
abbrev Scan (α : Type) := StateT (List Char) Option α

namespace Scan

/-- The text behind `expected`, if the text begins with it. -/
def strip? : (expected : List Char) → List Char → Option (List Char)
  | [], cs => some cs
  | _ :: _, [] => none
  | e :: expected, c :: cs => if e = c then strip? expected cs else none

def expect (text : String) : Scan Unit := fun cs => (strip? text.toList cs).map ((), ·)

/-- Takes this text if it is there, and says whether it was. -/
def accept (text : String) : Scan Bool := fun cs =>
  match strip? text.toList cs with
  | some rest => some (true, rest)
  | none => some (false, cs)

/-- Takes characters as long as they are of a kind. -/
def takeWhile (p : Char → Bool) : Scan (List Char) := fun cs => some (cs.span p)

/-- Takes one character of a kind. -/
def one (p : Char → Bool) : Scan Char
  | c :: cs => if p c then some (c, cs) else none
  | [] => none

/-- Takes exactly `n` characters of a kind. -/
def exactly (p : Char → Bool) : (n : Nat) → Scan (List Char)
  | 0 => pure []
  | n + 1 => do return (← one p) :: (← exactly p n)

/-- Succeeds at the end of the text. -/
def atEnd : Scan Unit
  | [] => some ((), [])
  | _ :: _ => none

/-- Repeats a scan until it fails, at most once for each character of `bound`. -/
def repeatUpTo (s : Scan α) : (bound : List Char) → List Char → List α × List Char
  | [], cs => ([], cs)
  | _ :: bound, cs =>
    match s cs with
    | none => ([], cs)
    | some (a, rest) =>
      let (as, rest) := repeatUpTo s bound rest
      (a :: as, rest)

/-- Repeats a scan until it fails. Every repetition has to take something, so there are at most as many
as there are characters. -/
def many (s : Scan α) : Scan (List α) := fun cs => some (repeatUpTo s cs cs)

/-- Repeats a scan, with a separator between repetitions. -/
def separated (s : Scan α) (separator : String) : Scan (List α) := do
  match ← optional s with
  | none => return []
  | some a => return a :: (← many (do expect separator; s))

/-! ## Between the parts of a document -/

def isBlank (c : Char) : Bool := c = ' ' || c = '\t'

/-- A character that may stand in a comment: no control but the tab. -/
def isPlain (c : Char) : Bool := c = '\t' || (' ' ≤ c && c ≠ '\x7f')

def blanks : Scan Unit := discard (takeWhile isBlank)

/-- Takes the end of a line, of either form. -/
def newline : Scan Unit := expect "\n" <|> expect "\r\n"

def comment : Scan Unit := do
  expect "#"
  discard (takeWhile isPlain)

/-- Takes what may follow on the line of a complete part: blanks and a comment. -/
def endOfLine : Scan Unit := do
  blanks
  discard (optional comment)
  newline <|> atEnd

/-- Takes blanks, line ends and comments that end with their line. -/
def filler : Scan Unit := do
  blanks
  discard (many (do discard (optional comment); newline; blanks))

end Scan

end SensorIngest.Toml
