import SensorIngest.CommandLine.Daemon

/-!
# The program

The server with standard input as its only connection. Replies go to standard output; the program's
own lines and the events it logs, but for the finer ones, go to standard error.
-/

namespace SensorIngest.Main

open CommandLine

def clock : IO Micros := return ((← IO.monoNanosNow) / 1000 : Nat)

/-- The refusal behind a failure to read a file. -/
def refusal : IO.Error → SystemError
  | .inappropriateType _ 21 _ => .isADirectory
  | .inappropriateType .. => .notADirectory
  | .invalidArgument _ 22 _ => .zeroInName
  | .invalidArgument .. => .nameTooLong
  | .userError _ => .notText
  | _ => .noSuchFile

def readText (path : String) : IO (Except SystemError String) :=
  try
    let text ← IO.FS.readFile path
    return .ok text
  catch e => return .error (refusal e)

/-- The document that arguments name, read before it is asked for. -/
def readDocument (arguments : List String) : IO (Except SystemError String) :=
  match Daemon.readSettings arguments with
  | .ok (some settings) =>
    match (CommandLine.Daemon.Request.ofSettings settings).document with
    | some path => readText path
    | none => return .error .noSuchFile
  | _ => return .error .noSuchFile

/-- The machine as it appears to a program that has one connection. -/
def host (document : Except SystemError String) : Host where
  read _ := document
  makeDirectory _ := .ok ()
  listen e := .ok e.port

/-- Writes the events that matter without asking, and forgets them all. -/
def writeLog (s : Server) : IO Server := do
  let (s, events) := s.takeLog
  for e in events do
    if e.level = .error ∨ e.level = .warn ∨ e.level = .info then
      let fields := e.fields.map fun (name, text) => " " ++ name ++ "=" ++ text
      IO.eprintln (e.level.name ++ " " ++ e.message ++ String.join fields)
  return s

/-- Passes standard input through a server. -/
def serve (server : Server) : IO Unit := do
  let input ← IO.getStdin
  let output ← IO.getStdout
  let peer := Endpoint.localhost 0
  let mut s := server.opened (← clock) peer
  repeat
    let bytes ← input.read 65536
    if bytes.isEmpty then break
    let (next, response) := s.received (← clock) peer bytes.toList
    s ← writeLog next
    output.write ⟨(response.replies.flatMap Reply.encode).toArray⟩
    output.flush
  discard (writeLog (s.closed (← clock) peer).stop)

end SensorIngest.Main

open SensorIngest in
/-- Runs the server as the arguments say. -/
def main (arguments : List String) : IO UInt32 := do
  let host := Main.host (← Main.readDocument arguments)
  match CommandLine.Daemon.begin host (← Main.clock) arguments with
  | .help =>
    CommandLine.Daemon.usage.forM IO.eprintln
    return 0
  | .failed message =>
    IO.eprintln (CommandLine.Daemon.say message)
    return 1
  | .running server =>
    IO.eprintln (CommandLine.Daemon.say ("listening on " ++ server.address.text))
    Main.serve server
    IO.eprintln (CommandLine.Daemon.say "stopped")
    return 0
