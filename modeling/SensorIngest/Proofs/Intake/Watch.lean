import Mathlib.Data.List.Induction
import SensorIngest.Frame.Encode
import SensorIngest.Proofs.Intake.Step

/-!
# Watching one sensor

The life of a session is what its frames have made of it (`Life.after`): its state, the replies
it gave and the effects of its frames. `Intake.watch` runs the receive path and notes the same of the
live session of one sensor, from outside. Both agree, whatever else the inputs bring
(`Intake.watch_faithful`), so that what holds of every life holds after every run.
-/

namespace SensorIngest

open Intake (Effect Input)

/-! ## Lives -/

/-- A session, the replies that it gave, and the effects of its frames. -/
structure Life where
  session : Session
  replies : List (Option Reply) := []
  effects : List Effect := []

namespace Life

/-- The life of a session that a frame creates. -/
def born (buffering : Bool) (a : Arrival) : Life :=
  { session := .new a.header.sensor a.peer buffering }

/-- The life after one more frame. The first frame creates the session. -/
def next (resend buffering : Bool) (was : Option Life) (a : Arrival) : Life :=
  let life := was.getD (born buffering a)
  let (session, reply, effects) := life.session.receive resend a
  { session
    replies := life.replies ++ [reply]
    effects := life.effects ++ (a.preface resend was.isNone ++ effects) }

def delivered (life : Life) : List Package := Effect.packages life.effects

/-- The life of the session that has received these frames, and no others, since it was created. -/
def after (resend buffering : Bool) (as : List Arrival) : Option Life :=
  as.foldl (fun was a => some (next resend buffering was a)) none

variable {resend buffering : Bool} {as : List Arrival}

@[simp] theorem after_append_singleton (as : List Arrival) (a : Arrival) :
    after resend buffering (as ++ [a]) = some (next resend buffering (after resend buffering as) a) := by
  rw [after, List.foldl_append]
  rfl

/-- A frame that comes first creates the session. -/
theorem after_eq_none : after resend buffering as = none ↔ as = [] := by
  rcases List.eq_nil_or_concat as with rfl | ⟨before, a, rfl⟩
  · exact iff_of_true rfl rfl
  · rw [List.concat_eq_append, after_append_singleton]
    exact iff_of_false nofun (by simp)

end Life

/-! ## Watching -/

/-- The receive path, and what the frames of one sensor have done to its live session. -/
structure Watch where
  intake : Intake
  readings : Counters
  received : List Arrival := []
  replies : List (Option Reply) := []
  effects : List Effect := []

namespace Watch

def session? (w : Watch) (id : SensorId) : Option Session := w.intake.registry.get? id

def delivered (w : Watch) : List Package := Effect.packages w.effects

/-- The packages that an input hands on for the sensor. -/
def handed (id : SensorId) (w : Watch) (now : Micros) (input : Input) : List Package :=
  (Effect.packages (w.intake.step w.readings now input).effects).filter (·.sensor = id)

/-- Takes in one input. What was noted is forgotten with the session. -/
def step (id : SensorId) (w : Watch) : Micros × Input → Watch
  | (now, input) =>
    let outcome := w.intake.step w.readings now input
    let readings := Effect.applyAll w.readings outcome.effects
    if (outcome.intake.registry.get? id).isNone then { intake := outcome.intake, readings }
    else
      match Arrival.for? id now input with
      | none => { w with intake := outcome.intake, readings }
      | some a =>
        { intake := outcome.intake
          readings
          received := w.received ++ [a]
          replies := w.replies ++ [outcome.reply]
          effects := w.effects ++ outcome.effects }

/-- The receive path is sound, and what was noted is the life of the live session. -/
structure Faithful (resend buffering : Bool) (id : SensorId) (w : Watch) : Prop where
  settings : w.intake.resend = resend ∧ w.intake.registry.buffering = buffering
  keyed : w.intake.Keyed
  own : ∀ a ∈ w.received, a.header.sensor = id ∧ a.isNoise = false
  life : Life.after resend buffering w.received =
    (w.session? id).map fun s => ⟨s, w.replies, w.effects⟩
  idle : w.session? id = none → w.replies = [] ∧ w.effects = []

end Watch

/-- Takes in inputs one after the other and watches a sensor. -/
def Intake.watch (i : Intake) (readings : Counters) (id : SensorId)
    (inputs : List (Micros × Input)) : Watch :=
  inputs.foldl (Watch.step id) { intake := i, readings }

namespace Watch

variable {resend buffering : Bool} {id : SensorId} {w : Watch} {now : Micros} {input : Input}
  {a : Arrival}

/-- Watching does not change what is watched. -/
theorem intake_step (id : SensorId) (w : Watch) (now : Micros) (input : Input) :
    let outcome := w.intake.step w.readings now input
    (w.step id (now, input)).intake = outcome.intake ∧
      (w.step id (now, input)).readings = Effect.applyAll w.readings outcome.effects := by
  simp only [step]
  split
  · exact ⟨rfl, rfl⟩
  · split <;> exact ⟨rfl, rfl⟩

/-- What was noted before a frame, with the session that the frame finds. -/
theorem Faithful.life_before (h : w.Faithful resend buffering id) (own : a.header.sensor = id) :
    (Life.after resend buffering w.received).getD (.born buffering a) =
      ⟨w.intake.sessionFor a, w.replies, w.effects⟩ := by
  rw [Intake.sessionFor, own, h.settings.2, h.life]
  have idle := h.idle
  unfold session? at idle ⊢
  cases live : w.intake.registry.get? id with
  | none =>
    obtain ⟨replies, effects⟩ := idle live
    rw [replies, effects, ← own]
    rfl
  | some s => rfl

/-- What a step notes of a frame for the session. -/
theorem step_of_some (keyed : w.intake.Keyed) (own : Arrival.for? id now input = some a) :
    let outcome := w.intake.step w.readings now input
    w.step id (now, input) =
      { intake := outcome.intake
        readings := Effect.applyAll w.readings outcome.effects
        received := w.received ++ [a]
        replies := w.replies ++ [outcome.reply]
        effects := w.effects ++ outcome.effects } := by
  have found := own
  obtain ⟨rfl, rfl, rfl, real⟩ := Arrival.for?_eq_some own
  have live := Intake.get?_receive keyed real a.header.sensor
  rw [if_pos rfl] at live
  simp only [step, Intake.step, live, found]
  rfl

/-- A frame for the session is the next one of its life. -/
theorem Faithful.step_some (h : w.Faithful resend buffering id)
    (own : Arrival.for? id now input = some a) :
    (w.step id (now, input)).Faithful resend buffering id := by
  have kept := h.keyed.step w.readings now input
  have settings := Intake.settings_step w.intake w.readings now input
  rw [step_of_some h.keyed own]
  obtain ⟨rfl, rfl, rfl, real⟩ := Arrival.for?_eq_some own
  have live := Intake.get?_receive h.keyed real a.header.sensor
  rw [if_pos rfl] at live
  refine ⟨?_, kept, ?_, ?_, ?_⟩
  · exact ⟨settings.1.trans h.settings.1, settings.2.trans h.settings.2⟩
  · intro b mem
    rcases List.mem_append.1 mem with mem | mem
    · exact h.own b mem
    · cases List.mem_singleton.1 mem
      exact ⟨rfl, real⟩
  · have before := h.life_before (a := a) rfl
    have created : (Life.after resend buffering w.received).isNone =
        (w.intake.registry.get? a.header.sensor).isNone := by
      rw [h.life, session?]
      exact Option.isNone_map
    rw [Life.after_append_singleton, Life.next, before, created, ← h.settings.1]
    simp only [session?, Intake.step, live, Intake.reply_receive real, Intake.effects_receive real]
    rfl
  · intro gone
    simp only [session?, Intake.step, live] at gone
    cases gone

/-- All that a frame does is done by its session, and noted. -/
theorem Faithful.noted (h : w.Faithful resend buffering id)
    (own : Arrival.for? id now input = some a) :
    let result := (w.intake.sessionFor a).receive resend a
    let v := w.step id (now, input)
    v.session? id = some result.1 ∧ v.received = w.received ++ [a] ∧
      v.replies = w.replies ++ [result.2.1] ∧
      v.delivered = w.delivered ++ Effect.packages result.2.2 ∧
      w.handed id now input = Effect.packages result.2.2 := by
  have noted := step_of_some h.keyed own
  obtain ⟨rfl, rfl, rfl, real⟩ := Arrival.for?_eq_some own
  have live := Intake.get?_receive h.keyed real a.header.sensor
  rw [if_pos rfl] at live
  simp only [noted, session?, delivered, handed, Intake.step, live, Intake.reply_receive real,
    Intake.packages_receive h.keyed real, h.settings.1, true_and]
  rw [Effect.packages_append, Intake.effects_receive real, Effect.packages_append,
    Arrival.packages_preface, h.settings.1]
  exact ⟨rfl, trivial⟩

/-- Every other input leaves the session and what was noted, or ends both. -/
theorem step_of_none (keyed : w.intake.Keyed) (other : Arrival.for? id now input = none) :
    let v := w.step id (now, input)
    v.session? id = none ∧ v.received = [] ∧ v.replies = [] ∧ v.effects = [] ∨
      v.session? id = w.session? id ∧ v.received = w.received ∧ v.replies = w.replies ∧
        v.effects = w.effects := by
  have live := Intake.get?_step_of_none w.readings keyed other
  simp only [step, other]
  split
  · rename_i ended
    exact .inl ⟨Option.isNone_iff_eq_none.1 ended, rfl, rfl, rfl⟩
  · rename_i stays
    obtain ⟨s, remains⟩ := Option.ne_none_iff_exists'.1 (mt Option.isNone_iff_eq_none.2 stays)
    refine .inr ⟨?_, rfl, rfl, rfl⟩
    rw [session?, session?, remains]
    rw [live, Option.filter_eq_some_iff] at remains
    exact remains.1.symm

theorem Faithful.step_none (h : w.Faithful resend buffering id)
    (other : Arrival.for? id now input = none) :
    (w.step id (now, input)).Faithful resend buffering id := by
  obtain ⟨intake, -⟩ := intake_step id w now input
  obtain ⟨resends, buffers⟩ := Intake.settings_step w.intake w.readings now input
  have kept := h.keyed.step w.readings now input
  rw [← intake] at resends buffers kept
  have settings := And.intro (resends.trans h.settings.1) (buffers.trans h.settings.2)
  rcases step_of_none h.keyed other with
    ⟨session, received, replies, effects⟩ | ⟨session, received, replies, effects⟩
  · refine ⟨settings, kept, ?_, ?_, fun _ => ⟨replies, effects⟩⟩
    · rw [received]
      nofun
    · rw [received, session]
      rfl
  · refine ⟨settings, kept, received ▸ h.own, ?_, ?_⟩
    · rw [received, session, replies, effects]
      exact h.life
    · rw [session, replies, effects]
      exact h.idle

theorem Faithful.step (h : w.Faithful resend buffering id) (input : Micros × Input) :
    (w.step id input).Faithful resend buffering id := by
  obtain ⟨now, input⟩ := input
  cases own : Arrival.for? id now input with
  | none => exact h.step_none own
  | some a => exact h.step_some own

/-- With resending on, what was noted is the life of the live session, and the sequences of its frames
have others behind them. -/
structure Steady (id : SensorId) (w : Watch) : Prop extends w.Faithful true true id where
  bearable : ∀ a ∈ w.received, Session.Bearable a.sequence

theorem Steady.step (h : w.Steady id)
    (bearable : ∀ a, Arrival.for? id now input = some a → Session.Bearable a.sequence) :
    (w.step id (now, input)).Steady id := by
  refine ⟨h.toFaithful.step (now, input), ?_⟩
  simp only [Watch.step]
  split
  · exact nofun
  · split
    · exact h.bearable
    · rename_i a own
      exact List.forall_mem_append.2 ⟨h.bearable, List.forall_mem_singleton.2 (bearable a own)⟩

end Watch

namespace Intake

/-- Nothing is noted yet, and no session is there. -/
theorem faithful_new (resend : Bool) (readings : Counters) (id : SensorId) :
    Watch.Faithful resend resend id { intake := .new resend, readings } := by
  have empty : (new resend).registry.get? id = none := ShardedMap.get?_empty _ _
  refine ⟨⟨rfl, rfl⟩, keyed_empty resend resend, nofun, ?_, fun _ => ⟨rfl, rfl⟩⟩
  rw [Watch.session?, empty]
  rfl

/-- After every run the live session has had the life that was noted. -/
theorem watch_faithful (resend : Bool) (readings : Counters) (id : SensorId)
    (inputs : List (Micros × Input)) :
    ((new resend).watch readings id inputs).Faithful resend resend id := by
  unfold watch
  induction inputs using List.reverseRecOn with
  | nil => exact faithful_new resend readings id
  | append_singleton inputs input ih =>
    rw [List.foldl_append]
    exact ih.step input

theorem watch_steady (readings : Counters) (id : SensorId) {inputs : List (Micros × Input)}
    (bearable : ∀ x ∈ inputs, ∀ a, Arrival.for? id x.1 x.2 = some a → Session.Bearable a.sequence) :
    ((new true).watch readings id inputs).Steady id := by
  unfold watch
  induction inputs using List.reverseRecOn with
  | nil => exact ⟨faithful_new true readings id, nofun⟩
  | append_singleton inputs input ih =>
    rw [List.forall_mem_append] at bearable
    rw [List.foldl_append]
    exact (ih bearable.1).step (bearable.2 input (List.mem_singleton_self _))

/-- A frame without data, from a sensor that listens. -/
def probe (now : Micros) (sequence : Nat) : Micros × Input :=
  (now, .frame (.localhost 4000)
    (Frame.Draft.encode { sensor := .ofNat 7, sequence, flags := ⟨0x20⟩ }))

end Intake

end SensorIngest
