import SensorIngest.Proofs.Intake.Isolation
import SensorIngest.Proofs.Intake.Watch

/-!
# How long a session lives

A `Tenure` is the receive path with the frames counted for one sensor since the lanes were last told
to forget it. The sensor has a session as long as there are such frames, the session stands at the
peer of the last of them, and is held if one of them came from a sensor that listens
(`Tenure.Faithful`). A connection that closes ends the other sessions that stand at its peer, and has
each of their sensors forgotten once (`Intake.forgotten_exact`). So a session that is held lives for
good (`Intake.session_lifetime`).
-/

namespace SensorIngest

open Intake (Effect Input)

/-! ## What a frame makes of its session -/

namespace Session

variable {s : Session}

/-- Where the sensor was last heard, and whether its session is held. -/
def contact (s : Session) : Endpoint × Bool := (s.peer, s.holding)

theorem contact_releaseAll (ps : List Parked) : (s.releaseAll ps).1.contact = s.contact := by
  induction ps generalizing s with
  | nil => rfl
  | cons p ps ih => exact ih

theorem contact_drainContiguous (s : Session) : s.drainContiguous.1.contact = s.contact := by
  fun_induction drainContiguous s with
  | case1 | case2 => rfl
  | case3 s b _ p b' _ s' _ t effects eq ih =>
    rw [eq] at ih
    exact ih
  | case4 s b _ p b' _ s' _ t effects eq ih =>
    rw [eq] at ih
    exact ih

theorem contact_drainAll (s : Session) : s.drainAll.1.contact = s.contact := by
  unfold drainAll
  split
  · rfl
  · exact contact_releaseAll _

theorem contact_forceDrain (s : Session) : s.forceDrain.1.contact = s.contact := by
  unfold forceDrain
  cases s.backlog.bind Backlog.popOldest with
  | none => exact contact_drainContiguous _
  | some popped => exact contact_drainContiguous _

theorem contact_park (s : Session) (b : Backlog) (p : Parked) :
    (s.park b p).1.contact = s.contact := by
  unfold park
  dsimp only
  split <;> rfl

theorem contact_accept (s : Session) (sequence : Nat) :
    (s.accept sequence).1.contact = s.contact := by
  unfold accept
  dsimp only
  split
  · have drained := contact_drainAll { s with redo := 0 }
    split
    · exact drained
    · exact drained
  · split <;> rfl

theorem contact_makeRoom (s : Session) : s.makeRoom.1.contact = s.contact := by
  unfold makeRoom
  split
  · exact contact_forceDrain s
  · rfl

theorem contact_settle (s : Session) (p : Parked) : (s.settle p).1.contact = s.contact := by
  unfold settle
  split
  · split
    · rfl
    · exact contact_park s _ p
  · exact contact_accept s p.sequence

theorem contact_offer (s : Session) (sequence : Nat) (now : Micros) (frame : Bytes) :
    (s.offer sequence now frame).1.contact = s.contact := by
  unfold offer
  split
  · exact (contact_settle _ _).trans (contact_makeRoom s)
  · exact contact_accept s sequence

theorem contact_conclude (header : Frame.Header) (now : Micros) (sampled : Bool) (raw : Bytes)
    (offered : Session × Verdict × List Effect) :
    (Intake.conclude header now sampled raw offered).1.contact = offered.1.contact := by
  obtain ⟨s, verdict, effects⟩ := offered
  cases verdict with
  | parked | ask | stale => rfl
  | proceed => exact contact_drainContiguous _

/-- Whatever becomes of a frame, it moves its session to its peer, and a sensor that listens holds
its session. -/
theorem contact_receive (s : Session) (resend : Bool) (a : Arrival) :
    (s.receive resend a).1.contact = (a.peer, s.holding || a.responds) := by
  unfold receive Intake.sequence
  dsimp only
  split
  · rfl
  · split
    · rfl
    · exact (contact_conclude _ _ _ _ _).trans (contact_offer _ _ _ _)

end Session

/-! ## What a closing connection ends -/

namespace Intake

variable {i : Intake} {id : SensorId} {readings : Counters} {now : Micros} {input : Input}
  {a : Arrival}

theorem Input.spares_eq_false {s : Session} :
    input.spares s = false ↔ s.holding = false ∧ input = .closed s.peer := by
  cases input with
  | closed peer =>
    rw [spares, Bool.or_eq_false_iff, decide_eq_false_iff_not, not_not, Input.closed.injEq,
      eq_comm (a := peer)]
  | _ => exact iff_of_false nofun nofun

theorem forgotten_close (i : Intake) (readings : Counters) (peer : Endpoint) :
    Effect.forgotten (i.close readings peer).effects =
      (i.registry.sessions.retain fun _ s => (Input.closed peer).spares s).1 := by
  have forget (ids : List SensorId) : Effect.forgotten (ids.map Effect.forget) = ids := by
    induction ids with
    | nil => rfl
    | cons id ids ih => exact congrArg (id :: ·) ih
  simp only [close, Effect.forgotten_append, Effect.forgotten_move, List.cons_append, forget,
    Effect.forgotten_log, Effect.forgotten_nil, List.append_nil]
  rfl

/-- Exactly the sensors are forgotten whose sessions stand at a peer that closes and are not held, and
each of them once. -/
theorem forgotten_exact (placed : i.Placed) (readings : Counters) (now : Micros) (input : Input) :
    let forgotten := Effect.forgotten (i.step readings now input).effects
    forgotten.Nodup ∧ ∀ id, id ∈ forgotten ↔
      ∃ s, i.registry.get? id = some s ∧ s.holding = false ∧ input = .closed s.peer := by
  intro forgotten
  cases input with
  | closed peer =>
    let keep (_ : SensorId) (s : Session) : Bool := (Input.closed peer).spares s
    have listed : forgotten = (i.registry.sessions.retain keep).1 :=
      forgotten_close i readings peer
    rw [listed]
    refine ⟨placed.nodup_failing keep, fun id => ?_⟩
    refine (placed.mem_flatMap_failing keep id).trans (exists_congr fun s => ?_)
    rw [Option.filter_eq_some_iff, Bool.not_eq_true', Input.spares_eq_false]
    exact Iff.rfl
  | _ =>
    have none : forgotten = [] := forgotten_step i readings now fun _ => nofun
    rw [none]
    exact ⟨.nil, fun id => iff_of_false List.not_mem_nil nofun⟩

/-- An input that is not a frame for a session ends it if it has the sensor forgotten, and leaves it as
it is if not. -/
theorem get?_step_of_forgotten (placed : i.Placed) (keyed : i.Keyed) (readings : Counters)
    (other : Arrival.for? id now input = none) :
    (i.step readings now input).intake.registry.get? id =
      if id ∈ Effect.forgotten (i.step readings now input).effects then none
      else i.registry.get? id := by
  have gone := (forgotten_exact placed readings now input).2 id
  rw [get?_step_of_none readings keyed other]
  cases found : i.registry.get? id with
  | none => exact (ite_self _).symm
  | some s =>
    have ends : id ∈ Effect.forgotten (i.step readings now input).effects ↔
        input.spares s = false := by
      rw [gone, found, Input.spares_eq_false]
      simp
    rw [Option.filter_some]
    cases spared : input.spares s with
    | true => rw [if_pos rfl, if_neg (by simp [ends, spared])]
    | false => rw [if_neg nofun, if_pos (ends.2 spared)]

end Intake

/-! ## Tenure -/

/-- The receive path, and the frames that were counted for a sensor since it was last forgotten. -/
structure Tenure where
  intake : Intake
  readings : Counters
  frames : List Arrival := []

namespace Tenure

def session? (t : Tenure) (id : SensorId) : Option Session := t.intake.registry.get? id

/-- Takes in one input. -/
def step (id : SensorId) (t : Tenure) : Micros × Input → Tenure
  | (now, input) =>
    let outcome := t.intake.step t.readings now input
    { intake := outcome.intake
      readings := Effect.applyAll t.readings outcome.effects
      frames :=
        if id ∈ Effect.forgotten outcome.effects then []
        else t.frames ++ (Arrival.for? id now input).toList }

/-- What the frames since the sensor was last forgotten say of its session. -/
structure Faithful (id : SensorId) (t : Tenure) : Prop where
  keyed : t.intake.Keyed
  placed : t.intake.Placed
  idle : t.session? id = none ↔ t.frames = []
  contact : ∀ s, t.session? id = some s →
    t.frames.getLast?.map (·.peer) = some s.peer ∧ s.holding = t.frames.any (·.responds)

variable {id : SensorId} {t : Tenure} {now : Micros} {input : Input} {a : Arrival}

/-- A frame for the sensor joins those before it. -/
theorem Faithful.step_some (h : t.Faithful id) (own : Arrival.for? id now input = some a) :
    (t.step id (now, input)).Faithful id := by
  have keyed := h.keyed.step t.readings now input
  have placed := h.placed.step t.readings now input
  have kept : Effect.forgotten (t.intake.step t.readings now input).effects = [] := by
    obtain ⟨rfl, rfl, -⟩ := Arrival.for?_eq_some own
    exact Intake.forgotten_step _ _ _ fun peer closed => by cases closed
  have frames : (t.step id (now, input)).frames = t.frames ++ [a] := by
    simp only [step, kept, own]
    exact if_neg List.not_mem_nil
  obtain ⟨rfl, rfl, rfl, real⟩ := Arrival.for?_eq_some own
  have live : (t.step a.header.sensor (a.now, .frame a.peer a.raw)).session? a.header.sensor =
      some ((t.intake.sessionFor a).receive t.intake.resend a).1 := by
    have found := Intake.get?_receive h.keyed real a.header.sensor
    rwa [if_pos rfl] at found
  refine ⟨keyed, placed, ?_, ?_⟩
  · rw [live, frames]
    simp
  · intro s found
    have same := (t.intake.sessionFor a).contact_receive t.intake.resend a
    cases live.symm.trans found
    obtain ⟨peer, holding⟩ := Prod.mk.inj same
    have before : (t.intake.sessionFor a).holding = t.frames.any (·.responds) := by
      unfold Intake.sessionFor
      cases was : t.intake.registry.get? a.header.sensor with
      | none =>
        rw [h.idle.1 was]
        rfl
      | some s => exact (h.contact s was).2
    rw [frames, List.getLast?_concat, List.any_append, holding, before, peer]
    exact ⟨rfl, by simp⟩

/-- Every other input leaves the session and does not have the sensor forgotten, or ends it and
does. -/
theorem Faithful.step_none (h : t.Faithful id) (other : Arrival.for? id now input = none) :
    (t.step id (now, input)).Faithful id := by
  have keyed := h.keyed.step t.readings now input
  have placed := h.placed.step t.readings now input
  have live := Intake.get?_step_of_forgotten h.placed h.keyed t.readings other
  by_cases gone : id ∈ Effect.forgotten (t.intake.step t.readings now input).effects
  · have frames : (t.step id (now, input)).frames = [] := if_pos gone
    have ended : (t.step id (now, input)).session? id = none := live.trans (if_pos gone)
    refine ⟨keyed, placed, iff_of_true ended frames, ?_⟩
    rw [ended]
    nofun
  · have frames : (t.step id (now, input)).frames = t.frames := by
      simp only [step, if_neg gone, other]
      exact List.append_nil _
    have stays : (t.step id (now, input)).session? id = t.session? id := live.trans (if_neg gone)
    refine ⟨keyed, placed, ?_, ?_⟩
    · rw [stays, frames]
      exact h.idle
    · rw [stays, frames]
      exact h.contact

theorem Faithful.step (h : t.Faithful id) (x : Micros × Input) : (t.step id x).Faithful id := by
  obtain ⟨now, input⟩ := x
  cases own : Arrival.for? id now input with
  | none => exact h.step_none own
  | some a => exact h.step_some own

theorem Faithful.foldl_step (h : t.Faithful id) (inputs : List (Micros × Input)) :
    (inputs.foldl (Tenure.step id) t).Faithful id := by
  induction inputs generalizing t with
  | nil => exact h
  | cons x rest ih => exact ih (h.step x)

/-- A session that is held is never ended, so that its frames are not forgotten. -/
theorem Faithful.held_step (h : t.Faithful id) (held : t.frames.any (·.responds) = true)
    (x : Micros × Input) :
    t.frames <+: (t.step id x).frames ∧ (t.step id x).frames.any (·.responds) = true := by
  have kept : id ∉ Effect.forgotten (t.intake.step t.readings x.1 x.2).effects := by
    intro gone
    obtain ⟨s, found, loose, -⟩ :=
      ((Intake.forgotten_exact h.placed t.readings x.1 x.2).2 id).1 gone
    have same := (h.contact s found).2
    rw [loose, held] at same
    cases same
  have frames : (t.step id x).frames = t.frames ++ (Arrival.for? id x.1 x.2).toList := if_neg kept
  rw [frames, List.any_append, held]
  exact ⟨List.prefix_append _ _, rfl⟩

theorem Faithful.held_foldl (h : t.Faithful id) (held : t.frames.any (·.responds) = true)
    (inputs : List (Micros × Input)) :
    let later := inputs.foldl (Tenure.step id) t
    t.frames <+: later.frames ∧ later.frames.any (·.responds) = true := by
  induction inputs generalizing t with
  | nil => exact ⟨List.prefix_rfl, held⟩
  | cons x rest ih =>
    obtain ⟨first, still⟩ := h.held_step held x
    obtain ⟨goes, last⟩ := ih (h.step x) still
    exact ⟨first.trans goes, last⟩

end Tenure

namespace Intake

/-- Takes in inputs one after the other, and notes the frames of a sensor. -/
def tenure (i : Intake) (readings : Counters) (id : SensorId) (inputs : List (Micros × Input)) :
    Tenure :=
  inputs.foldl (Tenure.step id) { intake := i, readings }

theorem tenure_faithful (resend buffering : Bool) (readings : Counters) (id : SensorId)
    (inputs : List (Micros × Input)) :
    (tenure ⟨resend, { buffering }⟩ readings id inputs).Faithful id := by
  have empty := Registry.get?_empty buffering id
  refine Tenure.Faithful.foldl_step ?_ inputs
  refine ⟨keyed_empty resend buffering, placed_empty resend buffering, iff_of_true empty rfl, ?_⟩
  intro s found
  cases empty.symm.trans found

/-- Whatever the settings and the run, a sensor has a session exactly when a frame has been counted for
it since it was last forgotten. The session stands at the peer of the last of these frames, and is
held when one of them is from a sensor that listens. A sensor is forgotten exactly when the peer
closes at which its session stands and the session is not held, and is forgotten once; the other
sessions stay as they are. So a session that is held lives on whatever comes. -/
theorem session_lifetime (resend buffering : Bool) (readings : Counters) (id : SensorId)
    (inputs : List (Micros × Input)) :
    let t := tenure ⟨resend, { buffering }⟩ readings id inputs
    (t.session? id = none ↔ t.frames = []) ∧
      (∀ s, t.session? id = some s →
        t.frames.getLast?.map (·.peer) = some s.peer ∧ s.holding = t.frames.any (·.responds)) ∧
      (∀ now input,
        let forgotten := Effect.forgotten (t.intake.step t.readings now input).effects
        forgotten.Nodup ∧ ∀ other, other ∈ forgotten ↔
          ∃ s, t.session? other = some s ∧ s.holding = false ∧ input = .closed s.peer) ∧
      (∀ now peer other,
        let closed := t.intake.step t.readings now (.closed peer)
        closed.intake.registry.get? other =
          if other ∈ Effect.forgotten closed.effects then none else t.session? other) ∧
      ∀ more : List (Micros × Input), t.frames.any (·.responds) = true →
        let later := more.foldl (Tenure.step id) t
        t.frames <+: later.frames ∧ (later.session? id).any (·.holding) = true := by
  intro t
  have h : t.Faithful id := tenure_faithful resend buffering readings id inputs
  refine ⟨h.idle, h.contact, forgotten_exact h.placed t.readings, fun now peer other => ?_,
    fun more held => ?_⟩
  · exact get?_step_of_forgotten h.placed h.keyed t.readings rfl
  · obtain ⟨goes, still⟩ := h.held_foldl held more
    have later := h.foldl_step more
    refine ⟨goes, ?_⟩
    cases live : (more.foldl (Tenure.step id) t).session? id with
    | none =>
      rw [later.idle.1 live] at still
      cases still
    | some s => exact (later.contact s live).2.trans still

/-- The peer of two sensors closes, one of which listens. -/
theorem session_lifetime_held :
    let t := tenure ⟨true, { buffering := true }⟩ {} (.ofNat 7)
      [oneWay 7 1 10, oneWay 9 2 30, probe 3 11]
    let closes := [(4, Input.closed (.localhost 4000))]
    t.frames.any (·.responds) = true ∧
      Effect.forgotten (t.intake.step t.readings 4 (.closed (.localhost 4000))).effects =
        [.ofNat 9] ∧
      ((closes.foldl (Tenure.step (.ofNat 7)) t).session? (.ofNat 7)).any (·.holding) = true := by
  intro t closes
  obtain ⟨-, -, -, -, lives⟩ := session_lifetime true true {} (.ofNat 7)
    [oneWay 7 1 10, oneWay 9 2 30, probe 3 11]
  have held : t.frames.any (·.responds) = true := by decide +kernel
  exact ⟨held, by decide +kernel, (lives closes held).2⟩

end Intake

end SensorIngest
