import SensorIngest.Proofs.Intake.Accounting
import SensorIngest.Proofs.Intake.Isolation
import SensorIngest.Proofs.Intake.Requests

/-!
# The sessions of a sensor, one after the other

`Annals` are a watch that also counts how often the sensor has restarted its counter, and keeps what
was noted of a session when it ends (`Term`). The packages of a session go back exactly where the
counter restarted, and all that holds of the frames received holds of them (`Term.Sound`). What the
lanes get for the sensor is what its sessions have handed on, with word to forget the sensor behind
each that has ended (`Annals.Faithful`).
-/

namespace SensorIngest

open Intake (Effect Input)
open Lane (Item)

/-! ## One frame -/

namespace Session

variable {s t : Session} {b c : Backlog} {a : Arrival} {ps : List Parked} {sampled : Bool}
  {effects : List Effect} {r : Session × Option Reply × List Effect} {last : Nat}

/-- Packets that have waited do not go back. -/
theorem stepsBack_package (sensor : SensorId) (above : ∀ p ∈ ps, last < p.sequence)
    (sorted : ps.Pairwise (·.sequence < ·.sequence)) :
    steps goesBack last (ps.map (·.package sensor)) = 0 := by
  induction ps generalizing last with
  | nil => rfl
  | cons p ps ih =>
    obtain ⟨next, rest⟩ := List.pairwise_cons.1 sorted
    have lt := above p List.mem_cons_self
    change (goesBack last p.sequence).toNat + steps goesBack p.sequence (ps.map _) = 0
    rw [goesBack_eq_false (Nat.le_of_lt lt), ih next rest]
    rfl

theorem Room.stepsBack (room : Room s b a ps t c effects) (h : s.Ordered b) :
    steps goesBack s.lastSequence (Effect.packages effects) = 0 := by
  rw [room.packages]
  exact stepsBack_package _ (fun p mem => h.above p (room.releases.mem mem)) room.releases.sorted

/-- What a frame that settles hands on goes back once if the frame restarts the counter, and else
not at all. -/
theorem Settles.stepsBack (settles : Settles s b a sampled r c) (h : s.Ordered b) :
    steps goesBack s.lastSequence (Effect.packages r.2.2) = (s.isRestart a.sequence).toNat := by
  have waiting : steps goesBack s.lastSequence (b.entries.map (·.package s.sensor)) = 0 :=
    stepsBack_package s.sensor h.above b.entries_sorted
  cases settles with
  | waits started ahead =>
    rw [packages_repeatedly, isRestart_eq_false (Nat.le_of_lt (Nat.lt_of_succ_lt ahead))]
    rfl
  | asks started ahead =>
    rw [Effect.packages_append, packages_repeatedly, packages_requesting,
      isRestart_eq_false (Nat.le_of_lt (Nat.lt_of_succ_lt ahead))]
    rfl
  | @inTurn run c next above left consecutive gap =>
    have behind : steps goesBack a.sequence (run.map (·.package s.sensor)) = 0 :=
      stepsBack_package _ (lt_of_consecutive consecutive) left.sorted
    have still := isRestart_eq_false (Nat.le_of_lt above)
    simp only [Effect.packages_append, packages_answered, Effect.packages_dispatch,
      packages_handed, List.nil_append, steps]
    rw [still]
    exact (congrArg _ behind).trans (congrArg Bool.toNat still)
  | late started le same =>
    simp only [List.cons_append, packages_behind, Effect.packages_append, packages_handed,
      Effect.packages_count, Effect.packages_nil, List.append_nil]
    rw [same]
    exact waiting
  | restarted restart =>
    simp only [List.cons_append, packages_behind, Effect.packages_append, packages_handed,
      Effect.packages_dispatch, Effect.packages_nil, steps_append, waiting, lastSequence_package]
    change 0 + (goesBack _ a.sequence).toNat = _
    rw [h.goesBack_reach restart, restart]
    rfl

theorem Takes.stepsBack (takes : Takes s b a r c) (h : s.Ordered b) :
    steps goesBack s.lastSequence (Effect.packages r.2.2) = (s.restarts a).toNat := by
  cases takes with
  | repeated responds same =>
    rw [restarts_repeated h.last same]
    rfl
  | settled fresh room settles =>
    have greeted := h.greet a
    have made := room.stepsBack greeted
    have settled := settles.stepsBack (room.ordered greeted)
    rw [(room.advances greeted).last] at settled
    rw [Effect.packages_append, steps_append]
    exact (congrArg₂ (· + ·) made settled).trans (Nat.zero_add _)

end Session

/-! ## Terms -/

/-- What a session did from its first frame on. -/
structure Term where
  /-- What it handed on. -/
  packages : List Package
  /-- How often the sensor restarted its counter. -/
  restarts : Nat

namespace Term

/-- What the lanes get of a session that has ended. -/
def items (id : SensorId) (t : Term) : List Item := t.packages.map .packet ++ [.forget id]

/-- The packages are good ones of the sensor, and go back where the counter restarted. -/
structure Sound (id : SensorId) (good : Parked → Prop) (t : Term) : Prop where
  own : ∀ p ∈ t.packages, p.sensor = id ∧ good p.parked
  follows : Follows (fun _ => True) 0 t.packages
  back : steps goesBack 0 t.packages = t.restarts

theorem sound_nil (id : SensorId) (good : Parked → Prop) : Sound id good ⟨[], 0⟩ where
  own := nofun
  follows := trivial
  back := rfl

end Term

/-- A watch that counts the restarts of the counter and remembers the sessions that have ended. -/
structure Annals where
  watch : Watch
  restarts : Nat := 0
  ended : List Term := []

namespace Annals

/-- What the live session has done; nothing if there is none. -/
def current (l : Annals) : Term := ⟨l.watch.delivered, l.restarts⟩

/-- All sessions of the sensor, the live one last. -/
def terms (l : Annals) : List Term := l.ended ++ [l.current]

/-- What the lanes have got for the sensor. -/
def sent (id : SensorId) (l : Annals) : List Item :=
  l.ended.flatMap (Term.items id) ++ l.current.packages.map .packet

/-- Takes in one input. A session that ends is remembered. -/
def step (id : SensorId) (l : Annals) : Micros × Input → Annals
  | (now, input) =>
    let watch := l.watch.step id (now, input)
    if (l.watch.session? id).isSome && (watch.session? id).isNone then { watch, ended := l.terms }
    else
      let restarted := (Arrival.for? id now input).any fun a =>
        (l.watch.intake.sessionFor a).restarts a
      { watch, restarts := l.restarts + restarted.toNat, ended := l.ended }

/-- The receive path is sound, only good packets wait or were handed on, and what was noted is what
the lanes have got. -/
structure Faithful (id : SensorId) (good : Parked → Prop) (sent : List Item) (l : Annals) :
    Prop where
  watch : l.watch.Steady id
  placed : l.watch.intake.Placed
  waiting : ∀ s, l.watch.session? id = some s → ∀ p ∈ s.waiting, good p
  terms : ∀ t ∈ l.terms, t.Sound id good
  idle : l.watch.session? id = none → l.restarts = 0
  sent : l.sent id = sent

variable {id : SensorId} {good : Parked → Prop} {sent : List Item} {l : Annals} {now : Micros}
  {input : Input} {a : Arrival}

theorem Faithful.placed_step (h : l.Faithful id good sent) (x : Micros × Input) :
    (l.watch.step id x).intake.Placed := by
  rw [(Watch.intake_step id l.watch x.1 x.2).1]
  exact h.placed.step l.watch.readings x.1 x.2

/-- What a frame leaves to be noted. -/
theorem Faithful.step_of_some (h : l.Faithful id good sent)
    (own : Arrival.for? id now input = some a) :
    l.step id (now, input) =
      { watch := l.watch.step id (now, input)
        restarts := l.restarts + ((l.watch.intake.sessionFor a).restarts a).toNat
        ended := l.ended } := by
  obtain ⟨live, -⟩ := h.watch.noted own
  rw [step, live, own]
  simp only [Option.isNone_some, Bool.and_false, Bool.false_eq_true, if_false, Option.any_some]

/-- The session that a frame finds holds good packets only. -/
theorem Faithful.waiting_sessionFor (h : l.Faithful id good sent) (own : a.header.sensor = id) :
    ∀ p ∈ (l.watch.intake.sessionFor a).waiting, good p := by
  unfold Intake.sessionFor
  rw [own]
  cases live : l.watch.intake.registry.get? id with
  | none =>
    rw [h.watch.settings.2]
    exact nofun
  | some s => exact h.waiting s live

/-- What a frame hands on comes after what its session has handed on before. -/
theorem Faithful.current_append (h : l.Faithful id good sent)
    (own : Arrival.for? id now input = some a) (fine : good a.parked)
    (bearable : Session.Bearable a.sequence) :
    let s := l.watch.intake.sessionFor a
    (∀ p ∈ (s.receive true a).1.waiting, good p) ∧
      Term.Sound id good ⟨l.watch.delivered ++ Effect.packages (s.receive true a).2.2,
        l.restarts + (s.restarts a).toNat⟩ := by
  intro s
  have found := h.watch.orderly_before own
  have waited := h.waiting_sessionFor (Arrival.for?_eq_some own).2.2.1
  have before := h.terms l.current (List.mem_append_right _ (List.mem_singleton_self _))
  obtain ⟨-, -, rfl, real⟩ := Arrival.for?_eq_some own
  obtain ⟨b, ordered⟩ := found.ordered
  obtain ⟨c, takes⟩ := Session.receive_takes ordered found.sensor real bearable
  have advances := takes.advances ordered
  have back := takes.stepsBack ordered
  have last : s.lastSequence = lastSequence 0 l.watch.delivered := found.last
  obtain ⟨repeated, -, split⟩ := (s.receive_balanced true a).split
  have all : ∀ p ∈ (Effect.packages (s.receive true a).2.2).map Package.parked ++
      ((s.receive true a).1.waiting ++ repeated), good p := by
    intro p mem
    rcases List.mem_cons.1 (split.mem_iff.2 mem) with rfl | mem
    · exact fine
    · exact waited p mem
  simp only [List.forall_mem_append, List.forall_mem_map] at all
  refine ⟨all.2.1, ?_, ?_, ?_⟩
  · refine List.forall_mem_append.2 ⟨before.own, fun p mem => ⟨?_, all.1 p mem⟩⟩
    exact (s.receive_speaks found.sensor true a).2 p mem
  · exact before.follows.append (last ▸ advances.follows.mono fun _ _ => trivial)
  · rw [steps_append, ← last, back]
    exact congrArg (· + _) before.back

theorem Faithful.step_some (h : l.Faithful id good sent)
    (own : Arrival.for? id now input = some a) (fine : good a.parked)
    (bearable : Session.Bearable a.sequence) :
    (l.step id (now, input)).Faithful id good
      (sent ++ Intake.itemsFor id (l.watch.intake.step l.watch.readings now input).effects) := by
  obtain ⟨live, -, -, delivered, handed⟩ := h.watch.noted own
  obtain ⟨waiting, current⟩ := h.current_append own fine bearable
  have items : Intake.itemsFor id (l.watch.intake.step l.watch.readings now input).effects =
      (l.watch.handed id now input).map .packet := by
    refine Intake.itemsFor_of_kept (Intake.forgotten_step _ _ _ fun peer closed => ?_) id
    subst closed
    cases own
  have bears (x : Arrival) (found : Arrival.for? id now input = some x) :
      Session.Bearable x.sequence := by
    cases own.symm.trans found
    exact bearable
  rw [h.step_of_some own, items, handed]
  refine ⟨h.watch.step bears, h.placed_step (now, input), ?_, ?_, ?_, ?_⟩
  · rintro s found
    cases live.symm.trans found
    exact waiting
  · intro t mem
    rcases List.mem_append.1 mem with mem | mem
    · exact h.terms t (List.mem_append_left _ mem)
    · cases List.mem_singleton.1 mem
      rw [Annals.current, delivered]
      exact current
  · intro gone
    cases live.symm.trans gone
  · rw [← h.sent]
    simp only [Annals.sent, Annals.current, delivered, List.map_append, List.append_assoc]

/-- Nothing happens to the session. -/
theorem Faithful.step_kept (h : l.Faithful id good sent)
    (other : Arrival.for? id now input = none)
    (session : (l.watch.step id (now, input)).session? id = l.watch.session? id) :
    (l.step id (now, input)).Faithful id good sent := by
  have delivered : (l.watch.step id (now, input)).delivered = l.watch.delivered := by
    rcases Watch.step_of_none h.watch.keyed other with ⟨gone, -, -, effects⟩ | ⟨-, -, -, effects⟩
    · rw [Watch.delivered, effects, Watch.delivered, (h.watch.idle (session.symm.trans gone)).2]
    · rw [Watch.delivered, effects]
      rfl
  have kept : l.step id (now, input) = { l with watch := l.watch.step id (now, input) } := by
    rw [step, session, other]
    cases l.watch.session? id <;> rfl
  have current : (l.step id (now, input)).current = l.current := by
    rw [kept, Annals.current, Annals.current, delivered]
  rw [kept] at current ⊢
  have watch : (l.watch.step id (now, input)).Steady id := by
    refine h.watch.step fun x found => ?_
    cases other.symm.trans found
  refine ⟨watch, h.placed_step (now, input), session ▸ h.waiting, ?_, session ▸ h.idle, ?_⟩
  · rw [Annals.terms, current]
    exact h.terms
  · rw [Annals.sent, current]
    exact h.sent

/-- The session ends, and the lanes are told to forget the sensor. -/
theorem Faithful.step_ended (h : l.Faithful id good sent) {s : Session}
    (other : Arrival.for? id now input = none) (live : l.watch.session? id = some s)
    (gone : (l.watch.step id (now, input)).session? id = none) :
    (l.step id (now, input)).Faithful id good (sent ++ [.forget id]) := by
  have ended : l.step id (now, input) =
      { watch := l.watch.step id (now, input), ended := l.terms } := by
    rw [step, live, gone]
    rfl
  have watch : (l.watch.step id (now, input)).Steady id :=
    h.watch.step fun x found => nomatch other.symm.trans found
  have current : (l.step id (now, input)).current = ⟨[], 0⟩ := by
    rw [ended, Annals.current, Watch.delivered, (watch.idle gone).2]
    rfl
  rw [ended] at current ⊢
  refine ⟨watch, h.placed_step (now, input), fun t found => ?_, ?_, fun _ => rfl, ?_⟩
  · cases gone.symm.trans found
  · rw [Annals.terms, current]
    exact List.forall_mem_append.2 ⟨h.terms, by simpa using Term.sound_nil id good⟩
  · rw [Annals.sent, current, ← h.sent, Annals.sent, Annals.terms]
    simp [Term.items]

theorem Faithful.step_none (h : l.Faithful id good sent)
    (other : Arrival.for? id now input = none) :
    (l.step id (now, input)).Faithful id good
      (sent ++ Intake.itemsFor id (l.watch.intake.step l.watch.readings now input).effects) := by
  have shows := Intake.step_shows h.watch.keyed h.placed l.watch.readings id now input
  simp only [Showing.next, other, Showing.mk.injEq] at shows
  obtain ⟨-, items, session⟩ := shows
  have after : (l.watch.step id (now, input)).session? id =
      (l.watch.session? id).filter input.spares := by
    rw [Watch.session?, (Watch.intake_step id l.watch now input).1]
    exact session
  have kept := h.step_kept other
  rw [items]
  cases live : l.watch.session? id with
  | none =>
    rw [show l.watch.intake.registry.get? id = none from live]
    rw [live] at after kept
    exact (List.append_nil sent).symm ▸ kept after
  | some s =>
    rw [show l.watch.intake.registry.get? id = some s from live, Option.filter_some]
    rw [live, Option.filter_some] at after
    cases spared : input.spares s with
    | true =>
      rw [spared, if_pos rfl, ← live] at after
      exact (List.append_nil sent).symm ▸ kept after
    | false =>
      rw [spared, if_neg Bool.false_ne_true] at after
      exact h.step_ended other live after

/-- Every input keeps the annals true, if it brings nothing but good frames. -/
theorem Faithful.step (h : l.Faithful id good sent)
    (fine : ∀ a, input.counted? now = some a → good a.parked)
    (careful : ∀ p, good p → Session.Bearable p.sequence) : (l.step id (now, input)).Faithful id good
      (sent ++ Intake.itemsFor id (l.watch.intake.step l.watch.readings now input).effects) := by
  cases own : Arrival.for? id now input with
  | none => exact h.step_none own
  | some a =>
    have found := own
    rw [Intake.for?_eq_counted] at found
    have good := fine a (Option.filter_eq_some_iff.1 found).1
    exact h.step_some own good (careful a.parked good)

end Annals

namespace Intake

end Intake

end SensorIngest
