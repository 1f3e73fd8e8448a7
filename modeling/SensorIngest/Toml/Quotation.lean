import SensorIngest.Text.Numeral
import SensorIngest.Toml.Scan

/-!
# Strings of a document

Strings stand in double quotes, where a backslash starts an escape, or in apostrophes, where all is
meant as it is. Three quotes on each side allow line ends in between; the first line end is left out
if it follows the quotes at once, and a backslash at the end of a line leaves out the blanks and line
ends behind it.
-/

namespace SensorIngest.Toml.Quotation

open Scan

/-- A character that stands for itself between double quotes. -/
def isBasic (c : Char) : Bool := isPlain c && c ≠ '"' && c ≠ '\\'

/-- A character that may stand between apostrophes. -/
def isLiteral (c : Char) : Bool := isPlain c && c ≠ '\''

def isHexDigit (c : Char) : Bool := (Text.Hex.value? c).isSome

/-- Takes a code point of `width` hexadecimal digits. -/
def codePoint (width : Nat) : Scan Char := do
  let n := Text.Numeral.ofDigits 16 ((← exactly isHexDigit width).filterMap Text.Hex.value?)
  if n.isValidChar then return Char.ofNat n else failure

def escape : Scan Char := do
  expect "\\"
  match ← one fun _ => true with
  | 'b' => return '\x08'
  | 't' => return '\t'
  | 'n' => return '\n'
  | 'f' => return '\x0c'
  | 'r' => return '\r'
  | '"' => return '"'
  | '\\' => return '\\'
  | 'u' => codePoint 4
  | 'U' => codePoint 8
  | _ => failure

def basic : Scan String := do
  expect "\""
  let cs ← many (one isBasic <|> escape)
  expect "\""
  return String.ofList cs

def literal : Scan String := do
  expect "'"
  let cs ← takeWhile isLiteral
  expect "'"
  return String.ofList cs

/-- Takes one or two quotes that do not end a string of several lines. -/
def innerQuotes (q : Char) : Scan (List Char) := do
  let qs ← takeWhile (· = q)
  if qs ≠ [] ∧ qs.length < 3 then return qs else failure

/-- Takes the quotes that end a string of several lines. Up to two before the last three belong to the
string. -/
def closingQuotes (q : Char) : Scan (List Char) := do
  let qs ← takeWhile (· = q)
  if 3 ≤ qs.length ∧ qs.length ≤ 5 then return qs.drop 3 else failure

def lineEnd : Scan Char := do
  newline
  return '\n'

/-- Takes a backslash at the end of a line, with all blanks and line ends behind it. -/
def continuation : Scan Unit := do
  expect "\\"
  blanks
  newline
  discard (many (one isBlank <|> lineEnd))

/-- Takes a string of several lines between quotes of one kind, made of parts. -/
def lines (q : Char) (part : Scan (List Char)) : Scan String := do
  expect (String.ofList [q, q, q])
  discard (optional newline)
  let parts ← many (part <|> innerQuotes q)
  let last ← closingQuotes q
  return String.ofList (parts.flatten ++ last)

/-- Takes a string of several lines in double quotes. -/
def basicLines : Scan String :=
  lines '"' ((do continuation; return []) <|> (do return [← one isBasic <|> escape <|> lineEnd]))

/-- Takes a string of several lines in apostrophes. -/
def literalLines : Scan String :=
  lines '\'' (do return [← one isLiteral <|> lineEnd])

def any : Scan String := basicLines <|> basic <|> literalLines <|> literal

end SensorIngest.Toml.Quotation
