import SensorIngest.Address.Resolve
import SensorIngest.CommandLine.Argument
import SensorIngest.SensorId
import SensorIngest.SystemError
import SensorIngest.Text.Decimal

/-!
# The command line of the simulator

The simulator sends the frames of one sensor to a server. Its arguments are read in order; the first
that asks for help or is wrong decides, and the last value of a setting counts.
-/

namespace SensorIngest.CommandLine.Simulator

open Text

/-- What the simulator is to do. -/
structure Options where
  address : String := "127.0.0.1:8972"
  sensor : SensorId := .ofNat 1
  count : Nat := 1000
  start : Nat := 1
  /-- The time between packets, in milliseconds. -/
  interval : Nat := 10
  rate : Nat := 16000
  /-- The probability that a packet is sent behind the next one. -/
  shuffle : Float := 0.0
  response : Bool := false

inductive Flag where
  | address
  | sensor
  | count
  | start
  | interval
  | rate
  | shuffle
  | response
  | help
deriving DecidableEq

def Flag.ofText? : String → Option Flag
  | "--addr" | "-a" => some address
  | "--sensor" | "-s" => some sensor
  | "--count" | "-n" => some count
  | "--start" => some start
  | "--interval-ms" => some interval
  | "--rate" => some rate
  | "--shuffle" => some shuffle
  | "--response" => some response
  | "--help" | "-h" => some help
  | _ => none

/-- A probability: what is below 0 or above 1 becomes the nearer bound. What is not a number stays. -/
def clampUnit (x : Float) : Float := if x < 0.0 then 0.0 else if 1.0 < x then 1.0 else x

/-- Takes in the value behind a flag that takes one. -/
def Options.set (o : Options) (value spelling : String) : Flag → Except ArgumentError Options
  | .address => .ok { o with address := value }
  | .sensor =>
    match Numeral.readNat 16 limit64 value with
    | .ok n => .ok { o with sensor := .ofNat n }
    | .error reason => .error (.badSensor value reason)
  | .count => do return { o with count := ← number limit64 value spelling }
  | .start => do return { o with start := ← number limit64 value spelling }
  | .interval => do return { o with interval := ← number limit64 value spelling }
  | .rate => do return { o with rate := ← number 4294967296 value spelling }
  | .shuffle =>
    match Decimal.readFloat? value with
    | some x => .ok { o with shuffle := clampUnit x }
    | none => .error (.badValue value spelling)
  | .response | .help => .error (.unknown spelling)

/-- Takes in arguments. There are no options when help is asked for first. -/
def Options.read (o : Options) : List String → Except ArgumentError (Option Options)
  | [] => if o.rate = 0 then .error .zeroRate else .ok (some o)
  | spelling :: rest =>
    match Flag.ofText? spelling with
    | none => .error (.unknown spelling)
    | some .help => .ok none
    | some .response => { o with response := true }.read rest
    | some flag =>
      match rest with
      | [] => .error (.missingValue spelling)
      | value :: rest => do (← o.set value spelling flag).read rest

def usage : List String := [
  "sensor-sim - telemux sensor simulator",
  "",
  "USAGE:",
  "    sensor-sim [OPTIONS]",
  "",
  "OPTIONS:",
  "    -a, --addr <ADDR>        Server address (default: 127.0.0.1:8972)",
  "    -s, --sensor <HEX>       48-bit sensor id in hex (default: 1)",
  "    -n, --count <N>          Packets to send (default: 1000)",
  "        --start <SEQ>        First sequence number (default: 1)",
  "        --interval-ms <MS>   Packet interval (default: 10)",
  "        --rate <HZ>          Arc sample rate (default: 16000)",
  "        --shuffle <P>        Probability of swapping a packet with the next",
  "        --response           Set the response flag (acks and resends)",
  "    -h, --help               Print this help message",
  ""]

/-- A line of the simulator's own. -/
def say (text : String) : String := "sensor-sim: " ++ text

inductive Beginning where
  | help
  | failed (message : String)
  /-- It remains to connect to a server. -/
  | connecting (server : Endpoint) (options : Options)

/-- Begins a run. -/
def begin (arguments : List String) : Beginning :=
  match ({} : Options).read arguments with
  | .error e => .failed e.message
  | .ok none => .help
  | .ok (some options) =>
    match Address.resolve options.address with
    | .error e => .failed e.message
    | .ok server => .connecting server options

/-- What a run leaves behind that no server answers. -/
def transcript (refusal : SystemError) (arguments : List String) : Transcript :=
  match begin arguments with
  | .help => ⟨0, usage⟩
  | .failed message => .failed (say message)
  | .connecting .. => .failed (say refusal.message)

end SensorIngest.CommandLine.Simulator
