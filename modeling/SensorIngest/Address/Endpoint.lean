import SensorIngest.Address.IPv6

/-!
# Endpoints

An address and a port. `Endpoint.text` and `Endpoint.parse?` write and read the usual form, with an
IPv6 address in square brackets.
-/

namespace SensorIngest

open Text Address

inductive IpAddress where
  | v4 (ip : IPv4)
  | v6 (ip : IPv6)
deriving DecidableEq

namespace IpAddress

def text : IpAddress → String
  | v4 ip => ip.text
  | v6 ip => ip.text

def parse? (source : String) : Option IpAddress :=
  match IPv4.read source.toList with
  | some (ip, []) => some (v4 ip)
  | _ =>
    match IPv6.read source.toList with
    | some (ip, []) => some (v6 ip)
    | _ => none

end IpAddress

/-- One end of a connection, or where a server listens. -/
structure Endpoint where
  ip : IpAddress
  port : UInt16
  /-- The zone of an IPv6 address, zero if there is none. -/
  zone : UInt32 := 0
deriving DecidableEq

namespace Endpoint

/-- All interfaces of the host. -/
def any (port : UInt16) : Endpoint := ⟨.v4 .unspecified, port, 0⟩

def localhost (port : UInt16) : Endpoint := ⟨.v4 .loopback, port, 0⟩

def text (e : Endpoint) : String :=
  match e.ip with
  | .v4 ip => s!"{ip.text}:{e.port.toNat}"
  | .v6 ip =>
    let zone := if e.zone = 0 then "" else s!"%{e.zone.toNat}"
    s!"[{ip.text}{zone}]:{e.port.toNat}"

/-- Decimal digits that spell a number below a limit, leading zeros allowed. -/
def readBelow (limit : Nat) (cs : List Char) : Option (Nat × List Char) :=
  let (ds, rest) := Numeral.takeDigits 10 cs
  let n := Numeral.ofDigits 10 ds
  if ds = [] ∨ limit ≤ n then none else some (n, rest)

/-- A colon and a port that end a text. -/
def readPort (cs : List Char) : Option UInt16 := do
  match ← readBelow 65536 (← IPv4.expect ':' cs) with
  | (port, []) => some (UInt16.ofNat port)
  | _ => none

def parse? (source : String) : Option Endpoint :=
  let v4 := do
    let (ip, rest) ← IPv4.read source.toList
    return (⟨.v4 ip, ← readPort rest, 0⟩ : Endpoint)
  let v6 := do
    let (ip, rest) ← IPv6.read (← IPv4.expect '[' source.toList)
    let (zone, rest) ← match rest with
      | '%' :: rest => readBelow 4294967296 rest
      | rest => some (0, rest)
    return (⟨.v6 ip, ← readPort (← IPv4.expect ']' rest), UInt32.ofNat zone⟩ : Endpoint)
  v4 <|> v6

end Endpoint

end SensorIngest
