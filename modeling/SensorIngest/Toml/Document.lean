import SensorIngest.Toml.Calendar
import SensorIngest.Toml.Quotation

/-!
# Documents

A document is a list of lines: keys with values, and headers that say which table the keys behind
them belong to. `Document.lines` reads the lines, `Document.assemble` makes a table of them, and
`Document.read?` does both. Nesting and dotted keys are bounded.
-/

namespace SensorIngest.Toml

open Scan

/-- Arrays and inline tables may be nested this deep, and a key may have this many parts. -/
def maxDepth : Nat := 79

/-- A character of a key without quotes. -/
def isBare (c : Char) : Bool :=
  ('a' ≤ c && c ≤ 'z') || ('A' ≤ c && c ≤ 'Z') || Number.isDigit c || c = '_' || c = '-'

/-- Takes a key without dots. -/
def simpleKey : Scan String :=
  Quotation.basic <|> Quotation.literal <|> do
    let cs ← takeWhile isBare
    if cs = [] then failure else return String.ofList cs

/-- Takes a key, with blanks around each of its parts. -/
def key : Scan Key := do
  let parts ← separated (do blanks; let part ← simpleKey; blanks; return part) "."
  match parts.getLast? with
  | none => failure
  | some last =>
    if parts.length ≤ maxDepth then return ⟨parts.dropLast, last⟩ else failure

/-- Takes a value that is neither an array nor a table. -/
def scalar : Scan Value :=
  (do return .string (← Quotation.any)) <|>
  (do expect "true"; return .boolean true) <|>
  (do expect "false"; return .boolean false) <|>
  (do return .moment (← Calendar.moment)) <|>
  (do return .float (← Number.float)) <|>
  (do return .integer (← Number.integer))

def array (item : Scan Value) : Scan Value := do
  expect "["
  let items ← separated (do filler; let v ← item; filler; return v) ","
  unless items.isEmpty do
    discard (accept ",")
  filler
  expect "]"
  return .array items

/-- Takes a key and its value. -/
def pair (value : Scan Value) : Scan (Key × Value) := do
  let k ← key
  expect "="
  blanks
  return (k, ← value)

def inlineTable (value : Scan Value) : Scan Value := do
  expect "\x7b"
  let pairs ← separated (do let p ← pair value; blanks; return p) ","
  blanks
  expect "\x7d"
  match pairs.foldlM (fun (t : Table) (k, v) => t.put k v) [] with
  | none => failure
  | some t => return .table .inline t

/-- Takes a value with at most `depth` levels of arrays and inline tables. -/
def value : (depth : Nat) → Scan Value
  | 0 => scalar
  | depth + 1 => array (value depth) <|> inlineTable (value depth) <|> scalar

inductive Line where
  | pair (key : Key) (value : Value)
  /-- What follows belongs to a table. -/
  | header (key : Key)
  /-- What follows belongs to one more of several tables. -/
  | row (key : Key)

namespace Document

/-- Takes one line. Of an empty line or a comment nothing is kept. -/
def line : Scan (Option Line) :=
  (do newline; return none) <|>
  (do comment; newline <|> atEnd; return none) <|>
  (do expect "[["; let k ← key; expect "]]"; endOfLine; return some (.row k)) <|>
  (do expect "["; let k ← key; expect "]"; endOfLine; return some (.header k)) <|>
  (do let (k, v) ← pair (value maxDepth); endOfLine; return some (.pair k v))

/-- Takes a whole document, which may begin with a byte order mark. -/
def lines : Scan (List Line) := do
  discard (accept "\uFEFF")
  blanks
  let found ← many (do let l ← line; blanks; return l)
  atEnd
  return found.filterMap id

/-- A document in the making: its table, and the table that keys go to. -/
structure Draft where
  root : Table := []
  current : List String := []

def Draft.add (d : Draft) : Line → Option Draft
  | .pair k v => do
    let root ← Table.modify false (fun _ t => t.put k v) d.current .header d.root
    return { d with root }
  | .header k => do return ⟨← d.root.openTable k, k.path ++ [k.last]⟩
  | .row k => do return ⟨← d.root.openRow k, k.path ++ [k.last]⟩

def assemble (lines : List Line) : Option Table :=
  (lines.foldlM Draft.add {}).map Draft.root

def read? (text : String) : Option Table := do
  let (found, _) ← lines text.toList
  assemble found

end Document

end SensorIngest.Toml
