import SensorIngest.Address.Endpoint

/-!
# From the text of an address to an endpoint

Configured addresses are written `host:port`. The host may be an IPv6 address without brackets or an
IPv4 address in a loose form. Host names are not looked up: they have no endpoint.
-/

namespace SensorIngest.Address

open Text

/-- Why a text names no endpoint. -/
inductive ResolveError where
  | noPort
  | badPort
  | unknownHost
deriving DecidableEq

def ResolveError.message : ResolveError → String
  | noPort => "invalid socket address"
  | badPort => "invalid port value"
  | unknownHost => "failed to lookup address information: Name or service not known"

def splitAtLastColon (cs : List Char) : Option (List Char × List Char) :=
  let reversed := cs.reverse
  let port := (reversed.takeWhile (· ≠ ':')).reverse
  match reversed.dropWhile (· ≠ ':') with
  | [] => none
  | _ :: host => some (host.reverse, port)

/-- A numeric host: loose IPv4, or IPv6 with an optional numeric zone. -/
def readHost (cs : List Char) : Option (IpAddress × UInt32) :=
  match IPv4.readLoose? cs with
  | some ip => some (.v4 ip, 0)
  | none =>
    match IPv6.read cs with
    | some (ip, []) => some (.v6 ip, 0)
    | some (ip, '%' :: zone) =>
      match Endpoint.readBelow 4294967296 zone with
      | some (n, []) => some (.v6 ip, UInt32.ofNat n)
      | _ => none
    | _ => none

def resolve (source : String) : Except ResolveError Endpoint :=
  match Endpoint.parse? source with
  | some endpoint => .ok endpoint
  | none =>
    match splitAtLastColon source.toList with
    | none => .error .noPort
    | some (host, port) =>
      match Numeral.readNat 10 65536 (String.ofList port) with
      | .error _ => .error .badPort
      | .ok port =>
        match readHost host with
        | none => .error .unknownHost
        | some (ip, zone) => .ok ⟨ip, UInt16.ofNat port, zone⟩

end SensorIngest.Address
