import SensorIngest.Proofs.Frame.Access
import SensorIngest.Proofs.Intake.Invariant
import SensorIngest.Proofs.Session.Arithmetic

/-!
# The arithmetic of the receive path

What the receive path computes for a frame is in range while all its sessions fit, the frame's
sequence has one behind it in 64 bits and the wall clock shows its time (`Checked.receive_eq`). Every
step keeps the sessions so, whatever the settings, and so does every run that starts without sessions
(`Checked.run_eq`).
-/

namespace SensorIngest

open Intake (Effect)
open Checked (bind_of)

namespace Session

variable {s : Session}

theorem Fits.conclude {offered : Session × Verdict × List Effect} (h : offered.1.Fits)
    {header : Frame.Header} (bearable : Bearable header.sequence) (now : Micros) (sampled : Bool)
    (raw : Bytes) : (Intake.conclude header now sampled raw offered).1.Fits := by
  obtain ⟨s, verdict, effects⟩ := offered
  cases verdict with
  | parked | ask | stale => exact h
  | proceed => exact (Fits.handOff h bearable now sampled raw).drainContiguous

theorem Fits.sequence (h : s.Fits) (resend : Bool) {header : Frame.Header}
    (bearable : Bearable header.sequence) {now : Micros} (dated : Dated now) (sampled : Bool)
    (raw : Bytes) : (Intake.sequence resend s header now sampled raw).1.Fits := by
  unfold Intake.sequence
  dsimp only
  split
  · exact h
  · split
    · exact h.handOff bearable now sampled raw
    · exact (h.offer bearable dated raw).conclude bearable now sampled raw

theorem Fits.greet (h : s.Fits) (a : Arrival) : (s.greet a).1.Fits := h.congr rfl rfl fun _ => id

theorem Fits.receive (h : s.Fits) (resend : Bool) {a : Arrival} (bearable : Bearable a.sequence)
    (dated : Dated a.now) : (s.receive resend a).1.Fits :=
  (h.greet a).sequence resend bearable dated (s.greet a).2 a.raw

end Session

namespace Intake

variable {i : Intake} {now : Micros} {input : Input}

/-- Every live session fits. -/
def Fits (i : Intake) : Prop := ∀ id s, i.registry.get? id = some s → s.Fits

theorem Fits.step (h : i.Fits) (keyed : i.Keyed) (bearable : input.Bearable now)
    (dated : Session.Dated now) (readings : Counters) : (i.step readings now input).intake.Fits := by
  refine forall_sessions_step_of keyed readings ?_ ?_ h
  · intro id peer
    exact Session.fits_new id peer i.registry.buffering
  · intro s a arrives own real fits
    have time : Session.Dated a.now := (Arrival.of?_eq_some arrives).1 ▸ dated
    exact fits.receive i.resend (bearable a arrives) time

/-- All sessions fit after every step of a run. -/
theorem Fits.run (h : i.Fits) (keyed : i.Keyed) (readings : Counters) {inputs : List (Micros × Input)}
    (bearable : ∀ x ∈ inputs, x.2.Bearable x.1) (dated : ∀ x ∈ inputs, Session.Dated x.1) :
    ∀ o ∈ i.run readings inputs, o.intake.Fits := by
  induction inputs generalizing i readings with
  | nil => nofun
  | cons x inputs ih =>
    obtain ⟨first, others⟩ := List.forall_mem_cons.1 bearable
    obtain ⟨soon, later⟩ := List.forall_mem_cons.1 dated
    have stepped := h.step keyed first soon readings
    exact List.forall_mem_cons.2
      ⟨stepped, ih stepped (keyed.step readings x.1 x.2) (Effect.applyAll readings _) others later⟩

/-! ## Each step in range -/

namespace Checked

open Session.Checked (handOff handOff_eq drainContiguous drainContiguous_eq offer offer_eq)

/-- `Intake.conclude`, in range. -/
def conclude (header : Frame.Header) (now : Micros) (sampled : Bool) (raw : Bytes) :
    Session × Session.Verdict × List Effect → Option (Session × Option Reply × List Effect)
  | (s, .parked, offered) => some (s, none, offered)
  | (s, .ask wanted, offered) => some (s, some (.resend s.sensor wanted), offered)
  | (s, .stale, offered) => some (s, acknowledge header, offered)
  | (s, .proceed, offered) => do
    let (s, handed) ← handOff s header.sequence now sampled raw
    let (s, drained) ← drainContiguous s
    return (s, acknowledge header, offered ++ handed ++ drained)

theorem conclude_eq {offered : Session × Session.Verdict × List Effect} (h : offered.1.Fits)
    {header : Frame.Header} (bearable : Session.Bearable header.sequence) (now : Micros)
    (sampled : Bool) (raw : Bytes) : conclude header now sampled raw offered =
      some (Intake.conclude header now sampled raw offered) := by
  obtain ⟨s, verdict, effects⟩ := offered
  cases verdict with
  | parked | ask | stale => rfl
  | proceed =>
    have handed := Session.Fits.handOff h bearable now sampled raw
    rw [conclude, bind_of (handOff_eq _ _ _ _ _)]
    dsimp only
    rw [bind_of (drainContiguous_eq handed)]
    rfl

/-- `Intake.sequence`, in range. -/
def sequence (resend : Bool) (s : Session) (header : Frame.Header) (now : Micros) (sampled : Bool)
    (raw : Bytes) : Option (Session × Option Reply × List Effect) :=
  let seq := header.sequence
  if header.flags.response ∧ seq = s.lastSequence then
    return (s, acknowledge header, [.tick .duplicates, .log (.duplicate s.sensor seq)])
  else if !resend then do
    let (s, effects) ← handOff s seq now sampled raw
    return (s, acknowledge header, effects)
  else do
    conclude header now sampled raw (← offer s seq now raw)

theorem sequence_eq {s : Session} (h : s.Fits) (resend : Bool) {header : Frame.Header}
    (bearable : Session.Bearable header.sequence) {now : Micros} (dated : Session.Dated now)
    (sampled : Bool) (raw : Bytes) :
    sequence resend s header now sampled raw =
      some (Intake.sequence resend s header now sampled raw) := by
  rw [sequence, Intake.sequence]
  dsimp only
  rw [bind_of (handOff_eq _ _ _ _ _), bind_of (offer_eq h _ dated _),
    conclude_eq (h.offer bearable dated raw) bearable]
  split
  · rfl
  · split <;> rfl

/-- `Intake.receive`, in range. -/
def receive (i : Intake) (now : Micros) (peer : Endpoint) (raw : Bytes) : Option Outcome := do
  match ← Frame.Checked.header raw with
  | .error reason => return { intake := i, effects := refuse peer reason }
  | .ok header =>
    let seq := header.sequence
    let id := header.sensor
    let respond := header.flags.response
    if seq ≤ startupSequence ∧ !respond then
      return { intake := i
               effects := [.tick .startupDrops, .log (.startupDropped id seq peer)] }
    else
      let ending := if header.flags.endOfStream then [Effect.log (.endOfStream id seq)] else []
      let (session, created, registry) := i.registry.session id peer
      let greeting := if created then [Effect.log (.newSensor id peer i.resend)] else []
      let (session, sampled) := { session with holding := session.holding || respond }.touch peer now
      let (session, reply, effects) ← sequence i.resend session header now sampled raw
      return { intake := { i with registry := registry.put session }
               reply
               effects := ending ++ greeting ++ [.tick .packets, .count .bytes raw.length] ++ effects }

theorem receive_eq (h : i.Fits) {peer : Endpoint} {raw : Bytes}
    (bearable : Input.Bearable now (.frame peer raw)) (dated : Session.Dated now) :
    receive i now peer raw = some (i.receive now peer raw) := by
  rw [receive, Intake.receive, bind_of (Frame.Checked.header_eq raw)]
  cases read : Frame.Header.read raw with
  | error reason => rfl
  | ok header =>
    let a : Arrival := ⟨now, peer, raw, header, read⟩
    have found : (i.registry.session header.sensor peer).1.Fits := by
      rw [show (i.registry.session header.sensor peer).1 = i.sessionFor a from session_fst i a]
      exact sessionFor_of Session.Fits (Session.fits_new _ _ _) (h _)
    have greeted := found.greet a
    dsimp only
    split
    · rfl
    · have own : Session.Bearable header.sequence := bearable a (Arrival.of?_frame now peer read)
      exact bind_of (sequence_eq greeted i.resend own dated _ raw) _

/-- `Intake.step`, in range. -/
def step (i : Intake) (readings : Counters) (now : Micros) : Input → Option Outcome
  | .frame peer raw => receive i now peer raw
  | input => some (i.step readings now input)

/-- `Intake.run`, in range. -/
def run (i : Intake) (readings : Counters) : List (Micros × Input) → Option (List Outcome)
  | [] => some []
  | (now, input) :: rest => do
    let outcome ← step i readings now input
    let more ← run outcome.intake (Effect.applyAll readings outcome.effects) rest
    return outcome :: more

theorem step_eq (h : i.Fits) (bearable : input.Bearable now) (dated : Session.Dated now)
    (readings : Counters) :
    step i readings now input = some (i.step readings now input) := by
  cases input with
  | frame peer raw => exact receive_eq h bearable dated
  | _ => rfl

/-- A run on frames whose sequences have one behind them, at times of a wall clock, stays in range. -/
theorem run_eq (h : i.Fits) (keyed : i.Keyed) (readings : Counters) {inputs : List (Micros × Input)}
    (bearable : ∀ x ∈ inputs, x.2.Bearable x.1) (dated : ∀ x ∈ inputs, Session.Dated x.1) :
    run i readings inputs = some (i.run readings inputs) := by
  induction inputs generalizing i readings with
  | nil => rfl
  | cons x inputs ih =>
    obtain ⟨now, input⟩ := x
    obtain ⟨first, others⟩ := List.forall_mem_cons.1 bearable
    obtain ⟨soon, rest⟩ := List.forall_mem_cons.1 dated
    have later := ih (h.step keyed first soon readings) (keyed.step readings now input)
      (Effect.applyAll readings (i.step readings now input).effects) others rest
    rw [run, bind_of (step_eq h first soon readings), bind_of later]
    rfl

end Checked

end Intake

end SensorIngest
