import SensorIngest.Address.Resolve
import SensorIngest.Lane.Router
import SensorIngest.Text.Quoted

/-!
# Configuration

The settings of a server, with a default for each. `Configuration.check` finds the first setting that
cannot be meant: a number of lanes that is not a power of two, a kind of network that is not served,
an address that names no endpoint.
-/

namespace SensorIngest

/-- Settings of the service itself. -/
structure Configuration.Service where
  /-- The kind of network; only one is served. -/
  netType : String := "tcp"
  host : String := "127.0.0.1"
  port : Nat := 8972
  /-- Idle time after which a connection is probed, in milliseconds; zero for never. -/
  keepalive : Nat := 60000
  lanes : Nat := 8
  /-- Network event loops; zero leaves the number to the host. -/
  eventLoops : Nat := 0
  resend : Bool := false
  /-- Tolerated drift of a device clock in milliseconds; not positive for any drift. -/
  threshold : Int := 1000
  verify : Bool := true
  /-- Frames go to the proxy after they are placed in time. -/
  proxyAligned : Bool := true
  pinLanes : Bool := false
deriving DecidableEq

/-- Settings of the proxy, which forwards frames to a parent server. -/
structure Configuration.Proxy where
  enabled : Bool := false
  parent : String := "127.0.0.1:9000"
  /-- Bound on connecting and writing, in milliseconds. -/
  timeout : Nat := 1000
  /-- Time between attempts to connect, in milliseconds. -/
  interval : Nat := 1000
deriving DecidableEq

/-- Settings of the recorder. -/
structure Configuration.Recording where
  enabled : Bool := false
  directory : String := "./data"
deriving DecidableEq

structure Configuration where
  service : Configuration.Service := {}
  proxy : Configuration.Proxy := {}
  recording : Configuration.Recording := {}
deriving DecidableEq

namespace Configuration

inductive Fault where
  | badLaneCount (lanes : Nat)
  | badNetType (netType : String)
  | badAddress (source : String)
deriving DecidableEq

def Fault.message : Fault → String
  | badLaneCount lanes => s!"lane count must be a power of two greater than 0, got {lanes}"
  | badNetType netType => s!"unsupported net type {Text.quote netType} (only \"tcp\")"
  | badAddress source => s!"invalid address {Text.quote source}"

def endpoint (source : String) : Except Fault Endpoint :=
  match Address.resolve source with
  | .ok endpoint => .ok endpoint
  | .error _ => .error (.badAddress source)

namespace Service

def listenAddress (s : Service) : Except Fault Endpoint :=
  endpoint s!"{s.host}:{s.port}"

/-- The bits of an identifier that tell the lane of a sensor, if the number of lanes is a power of
two. -/
def laneMask (s : Service) : Nat := s.lanes - 1

/-- A number within the signed numbers of 64 bits, or the bound that is nearest to it. -/
def clamp (n : Int) : Int := max (-9223372036854775808) (min n 9223372036854775807)

/-- The tolerated drift in microseconds. -/
def thresholdMicros (s : Service) : Micros := clamp (s.threshold * 1000)

/-- The idle time after which a connection is probed, in milliseconds. -/
def keepaliveTime (s : Service) : Option Nat :=
  if s.keepalive = 0 then none else some s.keepalive

/-- The number of event loops, unless it is left to the host. -/
def eventLoopCount (s : Service) : Option Nat :=
  if s.eventLoops = 0 then none else some s.eventLoops

/-- Finds the first setting that cannot be used. -/
def check (s : Service) : Except Fault Unit :=
  if !Lane.isPowerOfTwo s.lanes then .error (.badLaneCount s.lanes)
  else if s.netType ≠ "tcp" then .error (.badNetType s.netType)
  else s.listenAddress.map fun _ => ()

end Service

/-- Where the proxy forwards to. -/
def Proxy.parentAddress (p : Proxy) : Except Fault Endpoint := endpoint p.parent

/-- Finds the first setting that cannot be used. The parent only matters to a proxy that is enabled. -/
def check (c : Configuration) : Except Fault Unit := do
  c.service.check
  if c.proxy.enabled then discard c.proxy.parentAddress

end Configuration

end SensorIngest
