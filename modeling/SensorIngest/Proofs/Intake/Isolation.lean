import SensorIngest.Frame.Encode
import SensorIngest.Proofs.Lane.Schedule

/-!
# Sensors do not interfere

Sensors share the registry, its partitions, the connections and the counters. Still all that a run
shows of one of them, which is the answers to its frames, what the lanes get for it and its session
(`Intake.showing`), is what its own frames and the closing connections make of its session alone
(`Showing.alone`, `showing_eq_alone`). So the frames of other sensors can be left out of a run, and
may come in any order between those of the sensor (`sensors_isolated`).
-/

namespace SensorIngest

open Intake (Effect Input)
open Lane (Item)

/-! ## Inputs -/

namespace Intake.Input

/-- The sensor of a frame, if its header can be read. -/
def sensor? : Input → Option SensorId
  | .frame _ raw => (Frame.Header.read raw).toOption.map (·.sensor)
  | _ => none

/-- A frame of another sensor. -/
def isForeign (id : SensorId) (input : Input) : Bool := input.sensor?.any (· ≠ id)

/-- A frame of the sensor, or a connection that closes. -/
def concerns (id : SensorId) : Input → Bool
  | .closed _ => true
  | input => input.sensor? = some id

theorem not_isForeign_of_concerns {id : SensorId} {input : Input} (h : input.concerns id = true) :
    input.isForeign id = false := by
  cases input with
  | closed => rfl
  | frame peer raw =>
    have own : Input.sensor? (.frame peer raw) = some id := of_decide_eq_true h
    rw [isForeign, own]
    simp
  | _ => cases h

end Intake.Input

/-- The arrival that a frame of a sensor brings to its session. -/
theorem Arrival.sensor?_of_for? {id : SensorId} {now : Micros} {input : Input} {a : Arrival}
    (own : Arrival.for? id now input = some a) : input.sensor? = some id := by
  obtain ⟨rfl, rfl, rfl, -⟩ := Arrival.for?_eq_some own
  rw [Input.sensor?, a.read]
  rfl

/-! ## What is seen of a sensor -/

/-- What is seen of one sensor. -/
structure Showing where
  /-- The answers to its frames. -/
  replies : List (Option Reply) := []
  /-- What the lanes get for it. -/
  items : List Item := []
  session? : Option Session := none

namespace Showing

/-- One after the other. -/
def andThen (first rest : Showing) : Showing where
  replies := first.replies ++ rest.replies
  items := first.items ++ rest.items
  session? := rest.session?

/-- What one input makes of a sensor with this session. -/
def next (resend buffering : Bool) (id : SensorId) (s? : Option Session) (now : Micros)
    (input : Input) : Showing :=
  match Arrival.for? id now input with
  | some a =>
    let (session, reply, effects) := (s?.getD (.new id a.peer buffering)).receive resend a
    { replies := [reply]
      items := (Effect.packages effects).map .packet
      session? := some session }
  | none =>
    { replies := if input.sensor? = some id then [none] else []
      items := (s?.filter fun s => !input.spares s).toList.map fun _ => .forget id
      session? := s?.filter input.spares }

/-- What inputs make of a sensor with this session, as if there were no other one. -/
def alone (resend buffering : Bool) (id : SensorId) (s? : Option Session) :
    List (Micros × Input) → Showing
  | [] => { session? := s? }
  | (now, input) :: rest =>
    let first := next resend buffering id s? now input
    first.andThen (alone resend buffering id first.session? rest)

variable {resend buffering : Bool} {id : SensorId}

theorem next_of_not_concerns {input : Input} (h : input.concerns id = false) (s? : Option Session)
    (now : Micros) : next resend buffering id s? now input = { session? := s? } := by
  have foreign : input.sensor? ≠ some id := by
    cases input with
    | closed => cases h
    | _ => exact of_decide_eq_false h
  have spared : input.spares = fun _ => true := by
    cases input with
    | closed => cases h
    | _ => rfl
  unfold next
  cases own : Arrival.for? id now input with
  | some a => exact absurd (Arrival.sensor?_of_for? own) foreign
  | none =>
    rw [spared, if_neg foreign]
    cases s? <;> rfl

/-- Inputs that do not concern a sensor change nothing of what is seen of it. -/
theorem alone_filter (s? : Option Session) (inputs : List (Micros × Input)) :
    alone resend buffering id s? (inputs.filter (·.2.concerns id)) =
      alone resend buffering id s? inputs := by
  induction inputs generalizing s? with
  | nil => rfl
  | cons x rest ih =>
    obtain ⟨now, input⟩ := x
    rw [List.filter_cons]
    cases concerns : input.concerns id with
    | true => exact congrArg (andThen _) (ih _)
    | false =>
      have nothing : next resend buffering id s? now input = { session? := s? } :=
        next_of_not_concerns concerns s? now
      rw [alone, nothing]
      exact ih s?

end Showing

namespace Intake

/-- What the lanes get for a sensor. -/
def itemsFor (id : SensorId) (effects : List Effect) : List Item :=
  (effects.filterMap Item.of?).filter (·.sensor = id)

/-- What a run shows of a sensor. -/
def showing (i : Intake) (readings : Counters) (id : SensorId) (inputs : List (Micros × Input)) :
    Showing :=
  let outcomes := i.run readings inputs
  { replies := ((inputs.zip outcomes).filter (·.1.2.sensor? = some id)).map (·.2.reply)
    items := itemsFor id (outcomes.flatMap (·.effects))
    session? := ((outcomes.map (·.intake)).getLastD i).registry.get? id }

/-! ## One step -/

/-- Every session stands in the partition of its sensor. -/
def Placed (i : Intake) : Prop := i.registry.sessions.Placed

variable {i : Intake}

theorem placed_empty (resend buffering : Bool) : Placed ⟨resend, { buffering }⟩ :=
  ShardedMap.placed_empty _

theorem Placed.step (h : i.Placed) (readings : Counters) (now : Micros) (input : Input) :
    (i.step readings now input).intake.Placed := by
  cases input with
  | opened | malformed | tick => exact h
  | closed peer => exact ShardedMap.Placed.retain h _
  | frame peer raw =>
    simp only [Intake.step, receive]
    split
    · exact h
    · split
      · exact h
      · exact (ShardedMap.Placed.getOrInsert h _ _).insert _ _

theorem itemsFor_of_kept {effects : List Effect} (kept : Effect.forgotten effects = [])
    (id : SensorId) :
    itemsFor id effects = ((Effect.packages effects).filter (·.sensor = id)).map .packet := by
  rw [itemsFor, Item.filterMap_of? kept, List.filter_map]
  rfl

/-- Noise gets no answer. -/
theorem reply_of_none {id : SensorId} {now : Micros} {input : Input} (readings : Counters)
    (other : Arrival.for? id now input = none) (own : input.sensor? = some id) :
    (i.step readings now input).reply = none := by
  cases input with
  | frame peer raw =>
    cases read : Frame.Header.read raw with
    | error reason => simp only [step, receive, read]
    | ok header =>
      let a : Arrival := ⟨now, peer, raw, header, read⟩
      have sensor : a.header.sensor = id := by
        rw [Input.sensor?, read] at own
        exact Option.some.inj own
      have noise := (Arrival.for?_eq_none other (Arrival.of?_frame now peer read)).resolve_right
        (not_not_intro sensor)
      change (i.receive a.now a.peer a.raw).reply = none
      rw [receive_noise noise]
  | _ => cases own

/-- A connection that closes has the lanes forget the sensors whose sessions it ends. -/
theorem itemsFor_close (placed : i.Placed) (readings : Counters) (id : SensorId)
    (peer : Endpoint) :
    itemsFor id (i.close readings peer).effects =
      ((i.registry.get? id).filter fun s => !(Input.closed peer).spares s).toList.map
        fun _ => .forget id := by
  let keep (_ : SensorId) (s : Session) : Bool := s.holding || s.peer ≠ peer
  have forgets (ids : List SensorId) :
      (ids.map Effect.forget).filterMap Item.of? = ids.map Item.forget := by
    rw [List.filterMap_map]
    exact congrFun List.filterMap_eq_map ids
  have items : (i.close readings peer).effects.filterMap Item.of? =
      (i.registry.sessions.retain keep).1.map .forget := by
    simp only [close, List.filterMap_cons, List.filterMap_append, List.filterMap_nil, Item.of?,
      List.append_nil, forgets]
    rfl
  rw [itemsFor, items, List.filter_map]
  change ((i.registry.sessions.retain keep).1.filter (· = id)).map Item.forget = _
  rw [placed.filter_retain, List.map_map]
  rfl

/-- What one step shows of a sensor is what the input makes of its session. -/
theorem step_shows (keyed : i.Keyed) (placed : i.Placed) (readings : Counters) (id : SensorId)
    (now : Micros) (input : Input) :
    let outcome := i.step readings now input
    ({ replies := if input.sensor? = some id then [outcome.reply] else []
       items := itemsFor id outcome.effects
       session? := outcome.intake.registry.get? id } : Showing) =
      .next i.resend i.registry.buffering id (i.registry.get? id) now input := by
  unfold Showing.next
  cases own : Arrival.for? id now input with
  | some a =>
    have sensor := Arrival.sensor?_of_for? own
    obtain ⟨rfl, rfl, rfl, real⟩ := Arrival.for?_eq_some own
    have kept : Effect.forgotten (i.step readings a.now (.frame a.peer a.raw)).effects = [] := by
      refine forgotten_step i readings a.now fun peer closed => ?_
      cases closed
    simp only [itemsFor_of_kept kept, sensor, if_true]
    simp only [step, reply_receive real, packages_receive keyed real, get?_receive keyed real,
      if_true]
    rfl
  | none =>
    dsimp only
    rw [get?_step_of_none readings keyed own, Showing.mk.injEq]
    refine ⟨?_, ?_, rfl⟩
    · by_cases sensor : input.sensor? = some id
      · rw [if_pos sensor, if_pos sensor, reply_of_none readings own sensor]
      · rw [if_neg sensor, if_neg sensor]
    · cases input with
      | closed peer => exact itemsFor_close placed readings id peer
      | _ =>
        refine (itemsFor_of_kept (forgotten_step i readings now fun peer closed => ?_) id).trans ?_
        · cases closed
        · rw [packages_step_of_none keyed own]
          cases i.registry.get? id <;> rfl

/-! ## Runs -/

theorem showing_cons (readings : Counters) (id : SensorId) (now : Micros) (input : Input)
    (rest : List (Micros × Input)) :
    let outcome := i.step readings now input
    i.showing readings id ((now, input) :: rest) =
      Showing.andThen
        { replies := if input.sensor? = some id then [outcome.reply] else []
          items := itemsFor id outcome.effects }
        (outcome.intake.showing (Effect.applyAll readings outcome.effects) id rest) := by
  intro outcome
  simp only [showing, run, Showing.andThen, List.zip_cons_cons, List.filter_cons,
    List.flatMap_cons, itemsFor, List.filterMap_append, List.filter_append, List.map_cons,
    List.getLastD_cons, Showing.mk.injEq]
  refine ⟨?_, rfl, rfl⟩
  by_cases sensor : input.sensor? = some id
  · rw [if_pos sensor, if_pos (decide_eq_true sensor)]
    rfl
  · rw [if_neg sensor, if_neg (mt of_decide_eq_true sensor)]
    rfl

/-- What a run shows of a sensor is what its inputs make of the session of the sensor. -/
theorem showing_eq_alone (keyed : i.Keyed) (placed : i.Placed) (readings : Counters)
    (id : SensorId) (inputs : List (Micros × Input)) :
    i.showing readings id inputs =
      .alone i.resend i.registry.buffering id (i.registry.get? id) inputs := by
  induction inputs generalizing i readings with
  | nil => rfl
  | cons x rest ih =>
    obtain ⟨now, input⟩ := x
    obtain ⟨resend, buffering⟩ := settings_step i readings now input
    have first := step_shows keyed placed readings id now input
    rw [showing_cons, ih (keyed.step readings now input) (placed.step readings now input), resend,
      buffering, Showing.alone, ← first]
    rfl

/-- All that is seen of a sensor stays the same when the frames of other sensors are left out of a
run. So any two runs show the same of it in which its own frames, each at its time, and the
connections that close are the same in the same order. -/
theorem sensors_isolated (resend buffering : Bool) (readings : Counters) (id : SensorId)
    (inputs : List (Micros × Input)) :
    let i : Intake := ⟨resend, { buffering }⟩
    i.showing readings id (inputs.filter (!·.2.isForeign id)) = i.showing readings id inputs ∧
      ∀ (others : List (Micros × Input)) (readings' : Counters),
        others.filter (·.2.concerns id) = inputs.filter (·.2.concerns id) →
          i.showing readings' id others = i.showing readings id inputs := by
  intro i
  have keyed : i.Keyed := keyed_empty resend buffering
  have placed : i.Placed := placed_empty resend buffering
  have same (others : List (Micros × Input)) (readings' : Counters)
      (alike : others.filter (·.2.concerns id) = inputs.filter (·.2.concerns id)) :
      i.showing readings' id others = i.showing readings id inputs := by
    rw [showing_eq_alone keyed placed, showing_eq_alone keyed placed, ← Showing.alone_filter,
      alike, Showing.alone_filter]
  refine ⟨same _ _ ?_, same⟩
  rw [List.filter_filter]
  refine List.filter_congr fun x _ => ?_
  cases concerns : x.2.concerns id with
  | false => rfl
  | true => rw [Input.not_isForeign_of_concerns concerns]; rfl

/-- A frame without data, from a sensor that does not listen. -/
def oneWay (id : Nat) (now : Micros) (sequence : Nat) : Micros × Input :=
  (now, .frame (.localhost 4000) (Frame.Draft.encode { sensor := .ofNat id, sequence }))

/-- A sensor is heard and forgotten among the frames of another one. -/
theorem sensors_isolated_interleaved :
    let i : Intake := new true
    let inputs := [oneWay 7 1 10, oneWay 9 2 30, oneWay 7 3 12, oneWay 7 4 11, oneWay 9 5 29,
      (6, .closed (.localhost 4000))]
    let others := [oneWay 9 0 50, oneWay 7 1 10, oneWay 7 3 12, oneWay 9 4 2, oneWay 7 4 11,
      (6, .closed (.localhost 4000)), oneWay 9 7 51]
    others.filter (·.2.concerns (.ofNat 7)) = inputs.filter (·.2.concerns (.ofNat 7)) ∧
      (i.showing {} (.ofNat 7) inputs).items.length = 4 ∧
      i.showing {} (.ofNat 7) others = i.showing {} (.ofNat 7) inputs := by
  intro i inputs others
  have alike : others.filter (·.2.concerns (.ofNat 7)) =
      inputs.filter (·.2.concerns (.ofNat 7)) := by rfl
  exact ⟨alike, by decide +kernel, (sensors_isolated true true {} _ inputs).2 others {} alike⟩

end Intake

end SensorIngest
