import SensorIngest.Text.Numeral

/-!
# IPv4 addresses

The dotted form has four decimal numbers without leading zeros (`IPv4.read`). The older classful
form, with one to four numbers that may be octal or hexadecimal, is read by `IPv4.readLoose?`.
-/

namespace SensorIngest.Address

open Text

/-- Four octets. -/
structure IPv4 where
  a : UInt8
  b : UInt8
  c : UInt8
  d : UInt8
deriving DecidableEq

namespace IPv4

/-- All interfaces of a host. -/
def unspecified : IPv4 := ⟨0, 0, 0, 0⟩

def loopback : IPv4 := ⟨127, 0, 0, 1⟩

def text (ip : IPv4) : String :=
  s!"{ip.a.toNat}.{ip.b.toNat}.{ip.c.toNat}.{ip.d.toNat}"

/-- The address in the low 32 bits of a number. -/
def ofNat (n : Nat) : IPv4 :=
  ⟨UInt8.ofNat (n / 16777216), UInt8.ofNat (n / 65536), UInt8.ofNat (n / 256), UInt8.ofNat n⟩

/-- A number of at most three digits, below 256 and without a leading zero. -/
def readOctet (cs : List Char) : Option (UInt8 × List Char) :=
  let (ds, rest) := Numeral.takeDigits 10 cs
  let n := Numeral.ofDigits 10 ds
  if ds = [] ∨ 3 < ds.length ∨ 255 < n ∨ (ds.head? = some 0 ∧ 1 < ds.length) then none
  else some (UInt8.ofNat n, rest)

def expect (c : Char) : List Char → Option (List Char)
  | [] => none
  | x :: rest => if x = c then some rest else none

/-- The dotted address at the front of a text, and the text behind it. -/
def read (cs : List Char) : Option (IPv4 × List Char) := do
  let (a, cs) ← readOctet cs
  let (b, cs) ← readOctet (← expect '.' cs)
  let (c, cs) ← readOctet (← expect '.' cs)
  let (d, cs) ← readOctet (← expect '.' cs)
  return (⟨a, b, c, d⟩, cs)

/-- A number that may be decimal, octal after `0` or hexadecimal after `0x`. -/
def readLooseNumber : List Char → Option (Nat × List Char)
  | '0' :: x :: cs =>
    let octal := some <| (Numeral.takeDigits 8 (x :: cs)).map (Numeral.ofDigits 8) id
    if x = 'x' ∨ x = 'X' then
      match Numeral.takeDigits 16 cs with
      | ([], _) => octal
      | (ds, rest) => some (Numeral.ofDigits 16 ds, rest)
    else octal
  | cs =>
    match Numeral.takeDigits 10 cs with
    | ([], _) => none
    | (ds, rest) => some (Numeral.ofDigits 10 ds, rest)

/-- Reads the rest of a loose address when `room` more bytes are to come: either an octet and a dot,
or a last number that fills all of them. -/
def readLooseFrom : (room : Nat) → (sofar : Nat) → List Char → Option Nat
  | 0, _, _ => none
  | room + 1, sofar, cs => do
    let (n, rest) ← readLooseNumber cs
    match rest with
    | [] => if n < 256 <<< (8 * room) then some ((sofar <<< (8 * (room + 1))) + n) else none
    | '.' :: rest => if n < 256 then readLooseFrom room (sofar * 256 + n) rest else none
    | _ => none

/-- A whole text with one to four numbers, of which the last one fills the remaining bytes. -/
def readLoose? (cs : List Char) : Option IPv4 :=
  (readLooseFrom 4 0 cs).map ofNat

end IPv4

end SensorIngest.Address
