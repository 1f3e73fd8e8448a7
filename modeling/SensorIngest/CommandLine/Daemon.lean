import SensorIngest.CommandLine.Argument
import SensorIngest.Configuration.Document
import SensorIngest.Server

/-!
# The command line of the server

The arguments are read completely before anything else is done: `readSettings` lists what they set, or
finds the first that asks for help or is wrong. The configuration of the last document named is then
changed by the last value given for each setting.
-/

namespace SensorIngest.CommandLine.Daemon

inductive Flag where
  | document
  | host
  | port
  | lanes
  | resend
  | help
deriving DecidableEq

def Flag.ofText? : String → Option Flag
  | "--config" | "-c" => some document
  | "--host" => some host
  | "--port" | "-p" => some port
  | "--lanes" | "-l" => some lanes
  | "--resend" => some resend
  | "--help" | "-h" => some help
  | _ => none

/-- Something that the arguments set. -/
inductive Setting where
  | document (path : String)
  | host (name : String)
  | port (n : Nat)
  | lanes (n : Nat)
  | resend
deriving DecidableEq

/-- The setting that a value stands for behind a flag that takes one. -/
def Setting.ofValue (value spelling : String) : Flag → Except ArgumentError Setting
  | .document => .ok (document value)
  | .host => .ok (host value)
  | .port => (number 65536 value spelling).map port
  | .lanes => (number limit64 value spelling).map lanes
  | .resend | .help => .error (.unknown spelling)

/-- Lists what arguments set, in order. There is no list when help is asked for first. -/
def readSettings : List String → Except ArgumentError (Option (List Setting))
  | [] => .ok (some [])
  | spelling :: rest =>
    match Flag.ofText? spelling with
    | none => .error (.unknown spelling)
    | some .help => .ok none
    | some .resend => do return (← readSettings rest).map (Setting.resend :: ·)
    | some flag =>
      match rest with
      | [] => .error (.missingValue spelling)
      | value :: rest => do
        let setting ← Setting.ofValue value spelling flag
        return (← readSettings rest).map (setting :: ·)

/-- What is to be changed about a configuration. -/
structure Request where
  document : Option String := none
  host : Option String := none
  port : Option Nat := none
  lanes : Option Nat := none
  resend : Bool := false
deriving DecidableEq

namespace Request

/-- Takes in a setting. The last one of its kind counts. -/
def add (r : Request) : Setting → Request
  | .document path => { r with document := some path }
  | .host name => { r with host := some name }
  | .port n => { r with port := some n }
  | .lanes n => { r with lanes := some n }
  | .resend => { r with resend := true }

def ofSettings (settings : List Setting) : Request := settings.foldl add {}

/-- A configuration with the requested changes. -/
def apply (r : Request) (c : Configuration) : Configuration :=
  { c with
    service := { c.service with
      host := r.host.getD c.service.host
      port := r.port.getD c.service.port
      lanes := r.lanes.getD c.service.lanes
      resend := r.resend || c.service.resend } }

end Request

/-- Why there is no configuration. -/
inductive Failure where
  | argument (error : ArgumentError)
  | unreadable (path : String) (reason : SystemError)
  | malformed
deriving DecidableEq

def Failure.message : Failure → String
  | argument error => error.message
  | unreadable path reason => s!"failed to read {path}: {reason.message}"
  | malformed => "invalid config"

/-- The configuration of a document, or all defaults where none is named. -/
def load (host : Host) : Option String → Except Failure Configuration
  | none => .ok {}
  | some path =>
    match host.read path with
    | .error reason => .error (.unreadable path reason)
    | .ok source =>
      match Configuration.ofDocument? source with
      | none => .error .malformed
      | some c => .ok c

/-- The configuration that arguments ask for. There is none when help is asked for. -/
def configuration (host : Host) (arguments : List String) :
    Except Failure (Option Configuration) :=
  match readSettings arguments with
  | .error error => .error (.argument error)
  | .ok none => .ok none
  | .ok (some settings) =>
    let request := Request.ofSettings settings
    (load host request.document).map fun c => some (request.apply c)

def usage : List String := [
  "telemux - sensor telemetry ingestion server",
  "",
  "USAGE:",
  "    telemux [OPTIONS]",
  "",
  "OPTIONS:",
  "    -c, --config <PATH>     TOML configuration file",
  "        --host <HOST>       Listen host (default: 127.0.0.1)",
  "    -p, --port <PORT>       Listen port (default: 8972)",
  "    -l, --lanes <N>         Dispatch lanes, a power of two (default: 8)",
  "        --resend            Enable gap resend requests",
  "    -h, --help              Print this help message",
  "",
  "ENVIRONMENT:",
  "    RUST_LOG                Log filter (default: telemux=info)",
  "",
  "EXAMPLE:",
  "    telemux -c telemux.toml --port 9000 --resend",
  ""]

/-- A line of the server's own. -/
def say (text : String) : String := "telemux: " ++ text

inductive Beginning where
  | help
  | failed (message : String)
  | running (server : Server)

/-- Begins a run. -/
def begin (host : Host) (now : Micros) (arguments : List String) : Beginning :=
  match configuration host arguments with
  | .error e => .failed ("configuration: " ++ e.message)
  | .ok none => .help
  | .ok (some c) =>
    match Server.start host {} c now with
    | .error e => .failed e.message
    | .ok server => .running server

/-- What a run leaves behind that is ended by a signal once it listens. -/
def transcript (host : Host) (now : Micros) (signal : Nat) (arguments : List String) :
    Transcript :=
  match begin host now arguments with
  | .help => ⟨0, usage⟩
  | .failed message => .failed (say message)
  | .running server => ⟨0, [
      say s!"listening on {server.address.text}",
      say s!"received signal Some({signal}), shutting down",
      say "stopped"]⟩

end SensorIngest.CommandLine.Daemon
