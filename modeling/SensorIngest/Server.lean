import SensorIngest.Configuration.Basic
import SensorIngest.Host
import SensorIngest.Pipeline
import SensorIngest.Sink.Builtin

/-!
# Servers

A server is a pipeline set up as its configuration says. The application may supply sinks of its own;
a proxy and a recorder that are enabled, and the presence tracker, are provided where it does not.
`Server.start` reports the first thing that is in the way: the configuration comes before the sinks,
and these before the endpoint.
-/

namespace SensorIngest

structure Server where
  configuration : Configuration
  address : Endpoint
  /-- The sinks that the application has supplied. -/
  supplied : SinkSet
  pipeline : Pipeline Builtin

namespace Server

inductive Failure where
  | configuration (fault : Configuration.Fault)
  | sink (reason : SystemError)
  | listen (reason : SystemError)
deriving DecidableEq

def Failure.message : Failure → String
  | configuration fault => "configuration: " ++ fault.message
  | sink reason => "failed to open sink: " ++ reason.message
  | listen reason => "failed to listen: " ++ reason.message

/-- All sinks of a server: those supplied, those enabled, and presence. -/
def sinks (c : Configuration) (supplied : SinkSet) : SinkSet :=
  { supplied with
    proxy := supplied.proxy || c.proxy.enabled
    file := supplied.file || c.recording.enabled
    presence := true }

/-- The sinks that a server provides by itself. -/
def provided (c : Configuration) (supplied : SinkSet) (now : Micros) : Builtin where
  now := now
  forwarder :=
    if c.proxy.enabled && !supplied.proxy then some (.new c.service.lanes) else none
  recorder := if c.recording.enabled && !supplied.file then some {} else none
  presence := if supplied.presence then none else some (.new now)

/-- The settings of the lanes. -/
def laneSettings (c : Configuration) (supplied : SinkSet) : Lane.Settings where
  threshold := c.service.thresholdMicros
  proxyAligned := c.service.proxyAligned
  sinks := sinks c supplied

/-- The directory that the recorder needs, if the server provides it. -/
def recordingDirectory (c : Configuration) (supplied : SinkSet) : Option String :=
  if c.recording.enabled && !supplied.file then some c.recording.directory else none

/-- Starts a server. -/
def start (host : Host) (supplied : SinkSet) (c : Configuration) (now : Micros) :
    Except Failure Server := do
  c.check.mapError .configuration
  let address ← c.service.listenAddress.mapError .configuration
  match recordingDirectory c supplied with
  | none => pure ()
  | some directory => (host.makeDirectory directory).mapError .sink
  let router ← (Lane.Router.start c.service.lanes Lane.defaultCapacity
    (laneSettings c supplied)).mapError fun e => .configuration (.badLaneCount e.lanes)
  let port ← (host.listen address).mapError .listen
  return {
    configuration := c
    address := { address with port }
    supplied
    pipeline := {
      verifying := c.service.verify
      intake := .new c.service.resend
      plant := ⟨router, { outlets := provided c supplied now }⟩ } }

/-- The bits that tell the lane of a sensor, for a remote call sink. -/
def shardMask? (s : Server) : Option Nat :=
  if s.supplied.grpc then some s.configuration.service.laneMask else none

/-- The sensors with a session, in ascending order. -/
def sensors (s : Server) : List SensorId := s.pipeline.intake.registry.ids

def session? (s : Server) (id : SensorId) : Option Session := s.pipeline.intake.registry.get? id

/-- The last placement of a sensor. -/
def placement? (s : Server) (id : SensorId) : Option Placement :=
  s.pipeline.plant.router.placement? id

/-- The sensors that are online at a time. None are known when the application tracks presence. -/
def online (s : Server) (now : Micros) : List SensorId :=
  ((s.pipeline.plant.scene.outlets.presence).map (·.online now)).getD []

def counters (s : Server) : Counters := s.pipeline.plant.scene.counters

def depths (s : Server) : List Nat := s.pipeline.plant.router.depths

def setClock (s : Server) (now : Micros) : Server :=
  { s with pipeline.plant.scene.outlets.now := now }

def opened (s : Server) (now : Micros) (peer : Endpoint) : Server :=
  let s := s.setClock now
  { s with pipeline := s.pipeline.opened Builtin.outlets now peer }

def received (s : Server) (now : Micros) (peer : Endpoint) (bytes : Bytes) :
    Server × Pipeline.Response :=
  let s := s.setClock now
  let (pipeline, response) := s.pipeline.received Builtin.outlets now peer bytes
  ({ s with pipeline }, response)

def closed (s : Server) (now : Micros) (peer : Endpoint) : Server :=
  let s := s.setClock now
  { s with pipeline := s.pipeline.closed Builtin.outlets now peer }

/-- The events logged since the last time. -/
def takeLog (s : Server) : Server × List Event :=
  ({ s with pipeline.plant.scene.log := #[] }, s.pipeline.plant.scene.log.toList)

/-- Stops a server: the lanes do what still waits, then the sinks stop. -/
def stop (s : Server) : Server :=
  let plant := s.pipeline.plant.close Builtin.outlets
  let (outlets, events) := plant.scene.outlets.stop
  { s with
    pipeline := { s.pipeline with
      plant := { plant with scene := { plant.scene with outlets }.report events } } }

end Server

end SensorIngest
