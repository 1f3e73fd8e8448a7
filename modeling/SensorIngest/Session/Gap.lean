import SensorIngest.Session.Basic
import SensorIngest.Word

/-!
# Closing gaps

With resending on, a packet that skips ahead of its turn is parked and the sensor is asked for the
first missing one. Requests for a gap are spaced by `resendInterval`. After `maxRedo` of them, or
when the backlog is full, the oldest parked packet is released nonetheless and the gap is given up
on, so that what waits is not held back for good.

A packet that does not advance the sequence releases the whole backlog in order. It is then either
taken for a late copy, which is not handed on, or for the first packet after a counter restart, which
is.

The sequence behind the largest one of 64 bits is zero. So with that one handed on, every packet but
those with sequence zero is ahead of its turn, and the sequence that is asked for is zero.
-/

namespace SensorIngest.Session

open Intake (Effect)

/-- Requests for one gap before it is given up on. -/
def maxRedo : Nat := 5

/-- Requests for the same gap are more than this apart. -/
def resendInterval : Micros := 5000000

/-- What to do with a packet that was offered. -/
inductive Verdict where
  /-- It is not ahead of its turn: hand it on. -/
  | proceed
  /-- It waits, and there is nothing to say. -/
  | parked
  /-- It waits, and the sensor shall send this sequence again. -/
  | ask (sequence : Nat)
  /-- Its turn has passed: it is not handed on. -/
  | stale
deriving DecidableEq

/-- The sequence behind the last one handed on. -/
def following (s : Session) : Nat := Word.unsigned (s.lastSequence + 1)

/-- Forgets a request that the sequence has passed. -/
def dropPassedRequest (s : Session) : Session :=
  { s with request := s.request.filter fun r => s.lastSequence < r.sequence }

/-- Hands on the packets that continue the sequence. A parked packet that the sequence has passed is
a duplicate. -/
def drainContiguous (s : Session) : Session × List Effect :=
  match _hb : s.backlog with
  | none => (s, [])
  | some b =>
    match _h : b.popThrough s.following with
    | none => (s, [])
    | some (p, b') =>
      let s' := { s with backlog := some b' }
      if p.sequence < s.following then
        let (s'', effects) := s'.drainContiguous
        (s'', .log (.staleParked s.sensor p.sequence) :: .tick .duplicates :: effects)
      else
        let (s'', effects) := (s'.release p).1.drainContiguous
        (s'', (s'.release p).2 ++ effects)
termination_by s.parked
decreasing_by
  all_goals
    have := Backlog.size_popThrough _h
    simpa [parked, release, handOff, _hb] using this

def releaseAll (s : Session) : List Parked → Session × List Effect
  | [] => (s, [])
  | p :: rest =>
    let (s', effects) := s.release p
    let (s'', more) := s'.releaseAll rest
    (s'', effects ++ more)

def drainAll (s : Session) : Session × List Effect :=
  match s.backlog with
  | none => (s, [])
  | some b =>
    let (s', effects) := s.releaseAll b.drain.1
    ({ s' with backlog := some b.drain.2 }, effects)

/-- Gives up on the gap: hands on the oldest parked packet and all that continue it. -/
def forceDrain (s : Session) : Session × List Effect :=
  let (s, effects) : Session × List Effect :=
    match s.backlog.bind Backlog.popOldest with
    | none => (s, [])
    | some (p, b) =>
      let (s', effects) := { s with backlog := some b }.release p
      (s', .log (.forcingDrain s.sensor s.lastSequence p.sequence s.redo) ::
        .tick .forcedDrains :: effects)
  let (s, more) := { s with redo := 0 }.dropPassedRequest.drainContiguous
  (s, effects ++ more)

/-- A request for the first missing packet is due: none is open, or the open one is too old. -/
def requestDue (s : Session) (now : Micros) : Bool :=
  match s.request with
  | none => true
  | some r => resendInterval < Word.signed (now - r.sentAt)

/-- The request for a sequence. Zero stands for no request. -/
def Request.of? (sequence : Nat) (sentAt : Micros) : Option Request :=
  if sequence = 0 then none else some ⟨sequence, sentAt⟩

/-- Parks a packet behind a gap, and asks for the first missing one when that is due. -/
def park (s : Session) (b : Backlog) (p : Parked) : Session × Verdict × List Effect :=
  let (b, insertion) := b.insert p
  let effects := if insertion = .duplicate then [.tick .duplicates] else []
  let s := { s with backlog := some b }
  if s.requestDue p.arrival then
    let wanted := s.following
    let redo := s.redo + 1
    ({ s with redo, request := Request.of? wanted p.arrival }, .ask wanted,
      effects ++ (if redo = 1 then [.tick .resendTotal] else []) ++
        [.tick .resendRequests,
          .log (.requestingResend s.sensor wanted p.sequence redo)])
  else (s, .parked, effects)

/-- Lets in a packet that is not ahead of its turn. One that does not advance the sequence first
releases the whole backlog. -/
def accept (s : Session) (sequence : Nat) : Session × Verdict × List Effect :=
  let s := { s with redo := 0 }
  if 0 < s.lastSequence ∧ sequence ≤ s.lastSequence then
    let restart := s.isRestart sequence
    let behind := Effect.log (.sequenceBehind s.sensor sequence s.lastSequence restart)
    let (s, effects) := s.drainAll
    if restart then ({ s with request := none }, .proceed, behind :: effects)
    else (s.dropPassedRequest, .stale, behind :: effects ++ [.tick .duplicates])
  else
    if (s.request.map (·.sequence)) = some sequence then
      ({ s with request := none }, .proceed, [.tick .resendSuccess])
    else (s, .proceed, [])

/-- The packet skips over one that has not arrived. -/
def isAhead (s : Session) (sequence : Nat) : Bool :=
  0 < s.lastSequence && s.following < sequence

/-- The backlog is full, or no further request is left for the gap. -/
def isExhausted (s : Session) : Bool := s.backlog.any Backlog.isFull || maxRedo ≤ s.redo

/-- Gives up on the gap when there is nothing else left to do. -/
def makeRoom (s : Session) : Session × List Effect :=
  if s.isExhausted then s.forceDrain else (s, [])

/-- Parks a packet that is still ahead of its turn, and lets in any other. -/
def settle (s : Session) (p : Parked) : Session × Verdict × List Effect :=
  if s.following < p.sequence then
    match s.backlog with
    | none => (s, .proceed, [])
    | some b => s.park b p
  else s.accept p.sequence

/-- Offers a packet. Packets that waited may be handed on before it. -/
def offer (s : Session) (sequence : Nat) (now : Micros) (frame : Bytes) :
    Session × Verdict × List Effect :=
  if s.isAhead sequence then
    let (s, drained) := s.makeRoom
    let (s, verdict, effects) := s.settle ⟨sequence, now, frame⟩
    (s, verdict, drained ++ effects)
  else s.accept sequence

end SensorIngest.Session
