import SensorIngest.Session.Backlog
import SensorIngest.Intake.Effect

/-!
# Sessions

A session keeps what the server knows of one sensor: the connection it last used, the highest
sequence handed on, and, where gaps are closed by resending, the packets that wait behind a gap.
-/

namespace SensorIngest

/-- A resend request without an answer yet. -/
structure Session.Request where
  sequence : Nat
  sentAt : Micros
deriving DecidableEq

/-- What the server knows of one sensor. -/
structure Session where
  sensor : SensorId
  /-- The connection that last delivered a packet. -/
  peer : Endpoint
  /-- The session outlives its connection, since the sensor has used the reply channel. -/
  holding : Bool := false
  /-- The highest sequence handed on since the counter last restarted; zero before the first. -/
  lastSequence : Nat := 0
  lastArrival : Micros := 0
  /-- Packets since the last statistics sample. -/
  sinceSample : Nat := 0
  /-- Packets ahead of their turn; only where resending is on. -/
  backlog : Option Backlog := none
  /-- Requests sent for the current gap. -/
  redo : Nat := 0
  request : Option Session.Request := none

namespace Session

/-- Packets between two statistics samples. -/
def sampleInterval : Nat := 1000

/-- A lower sequence that is at most this is a restarted counter. -/
def restartSequence : Nat := 2

/-- A sequence that is lower by more than this is a restarted counter. -/
def restartWindow : Nat := 10000

/-- A new session, with a backlog if resending is on. -/
def new (sensor : SensorId) (peer : Endpoint) (buffering : Bool) : Session :=
  { sensor, peer, backlog := if buffering then some {} else none }

/-- Notes the arrival of a packet; the flag selects every so many for a sample. -/
def touch (s : Session) (peer : Endpoint) (now : Micros) : Session × Bool :=
  let sampled := decide (sampleInterval < s.sinceSample + 1)
  ({ s with peer, lastArrival := now, sinceSample := if sampled then 0 else s.sinceSample + 1 },
    sampled)

/-- The sensor has restarted its counter, rather than sent a packet again: the sequence goes back,
to the very start or by more than the restart window. -/
def isRestart (s : Session) (sequence : Nat) : Bool :=
  sequence < s.lastSequence &&
    (sequence ≤ restartSequence || restartWindow < s.lastSequence - sequence)

/-- Hands a packet on. The highest sequence goes down only when the counter has restarted. -/
def handOff (s : Session) (sequence : Nat) (arrival : Micros) (sampled : Bool) (frame : Bytes) :
    Session × List Intake.Effect :=
  ({ s with
      lastSequence := if s.isRestart sequence then sequence else max s.lastSequence sequence },
    [.dispatch ⟨s.sensor, sequence, arrival, sampled, frame⟩])

/-- Hands on a packet that has waited. -/
def release (s : Session) (p : Parked) : Session × List Intake.Effect :=
  s.handOff p.sequence p.arrival false p.frame

def parked (s : Session) : Nat := (s.backlog.map Backlog.size).getD 0

/-- What a session shows when it is inspected. -/
structure Snapshot where
  sensor : SensorId
  peer : Endpoint
  holding : Bool
  lastSequence : Nat
  lastArrival : Micros
  /-- The packets that wait. -/
  parked : Nat
  /-- The summed length of their frames. -/
  parkedBytes : Nat
  redo : Nat
  /-- The sequence asked for, while there is no answer. -/
  requested : Option Nat
deriving DecidableEq

def snapshot (s : Session) : Snapshot where
  sensor := s.sensor
  peer := s.peer
  holding := s.holding
  lastSequence := s.lastSequence
  lastArrival := s.lastArrival
  parked := s.parked
  parkedBytes := (s.backlog.map (·.bytes)).getD 0
  redo := s.redo
  requested := s.request.map (·.sequence)

end Session

end SensorIngest
