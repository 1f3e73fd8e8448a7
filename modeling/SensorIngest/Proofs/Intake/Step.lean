import SensorIngest.Proofs.Session.Arrival
import SensorIngest.Proofs.Session.Release
import SensorIngest.Proofs.ShardedMap

/-!
# One step, as the session of a sensor sees it

`Arrival.for?` says which inputs are frames for the session of a sensor. Such a frame is received by
that session, and all packages and the reply of the step are the session's (`get?_receive`,
`reply_receive`, `effects_receive`). Every other input hands nothing on for the sensor, and leaves
its session as it is or ends it (`get?_step_of_none`, `packages_step_of_none`).
-/

namespace SensorIngest

open Intake (Effect Input)

/-! ## Inputs as a session sees them -/

namespace Arrival

variable {id : SensorId} {now : Micros} {input : Input} {a : Arrival}

/-- The arrival that an input brings. -/
def of? (now : Micros) : Input → Option Arrival
  | .frame peer raw =>
    match read : Frame.Header.read raw with
    | .ok header => some ⟨now, peer, raw, header, read⟩
    | .error _ => none
  | _ => none

/-- The arrival that an input brings to the session of a sensor. -/
def for? (id : SensorId) (now : Micros) (input : Input) : Option Arrival :=
  (of? now input).filter fun a => a.header.sensor = id && !a.isNoise

theorem of?_eq_some (h : of? now input = some a) : now = a.now ∧ input = .frame a.peer a.raw := by
  cases input with
  | frame peer raw =>
    simp only [of?] at h
    split at h
    · cases h
      exact ⟨rfl, rfl⟩
    · cases h
  | _ => cases h

theorem of?_frame (now : Micros) (peer : Endpoint) {raw : Bytes} {header : Frame.Header}
    (read : Frame.Header.read raw = .ok header) :
    of? now (.frame peer raw) = some ⟨now, peer, raw, header, read⟩ := by
  simp only [of?]
  split
  · rename_i other
    cases read.symm.trans other
    rfl
  · rename_i other
    cases read.symm.trans other

theorem for?_eq_some (h : for? id now input = some a) :
    now = a.now ∧ input = .frame a.peer a.raw ∧ a.header.sensor = id ∧ a.isNoise = false := by
  obtain ⟨found, keep⟩ := Option.filter_eq_some_iff.1 h
  simp only [Bool.and_eq_true, decide_eq_true_eq, Bool.not_eq_true'] at keep
  obtain ⟨rfl, rfl⟩ := of?_eq_some found
  exact ⟨rfl, rfl, keep⟩

/-- A frame that is not for a session is noise or comes from another sensor. -/
theorem for?_eq_none (h : for? id now input = none) (found : of? now input = some a) :
    a.isNoise = true ∨ a.header.sensor ≠ id := by
  rw [for?, found, Option.filter_eq_none_iff] at h
  have := h a rfl
  simp only [Bool.and_eq_true, decide_eq_true_eq, Bool.not_eq_true', not_and] at this
  by_cases own : a.header.sensor = id
  · exact .inl (by simpa using this own)
  · exact .inr own

end Arrival

/-- A frame that the input brings has a sequence with another one behind it. -/
def Intake.Input.Bearable (now : Micros) (input : Input) : Prop :=
  ∀ a, Arrival.of? now input = some a → Session.Bearable a.sequence

instance (now : Micros) (input : Input) : Decidable (input.Bearable now) :=
  decidable_of_iff ((Arrival.of? now input).all fun a => decide (Session.Bearable a.sequence)) <| by
    unfold Intake.Input.Bearable
    cases Arrival.of? now input <;> simp

theorem Intake.Input.Bearable.of_for? {now : Micros} {input : Input} (h : input.Bearable now)
    (id : SensorId) (a : Arrival) (own : Arrival.for? id now input = some a) :
    Session.Bearable a.sequence := h a (Option.filter_eq_some_iff.1 own).1

/-- The session stays when an input comes that is not a frame for it. -/
def Intake.Input.spares : Input → Session → Bool
  | .closed peer, s => s.holding || s.peer ≠ peer
  | _, _ => true

theorem Registry.get?_empty (buffering : Bool) (id : SensorId) :
    ({ buffering } : Registry).get? id = none := ShardedMap.get?_empty _ _

/-! ## One step -/

namespace Intake

variable {i : Intake} {id : SensorId} {readings : Counters} {now : Micros} {input : Input}
  {a : Arrival}

/-- Every session stands under its own sensor. -/
def Keyed (i : Intake) : Prop := ∀ id s, i.registry.get? id = some s → s.sensor = id

theorem keyed_empty (resend buffering : Bool) : Keyed ⟨resend, { buffering }⟩ := by
  intro id s found
  cases (Registry.get?_empty buffering id).symm.trans found

/-- The session that a frame finds, created if there is none. -/
def sessionFor (i : Intake) (a : Arrival) : Session :=
  (i.registry.get? a.header.sensor).getD (.new a.header.sensor a.peer i.registry.buffering)

/-- What holds of new sessions and of the live ones holds of the session that a frame finds. -/
theorem sessionFor_of (P : Session → Prop)
    (born : P (.new a.header.sensor a.peer i.registry.buffering))
    (live : ∀ s, i.registry.get? a.header.sensor = some s → P s) : P (i.sessionFor a) := by
  unfold sessionFor
  cases found : i.registry.get? a.header.sensor with
  | none => exact born
  | some s => exact live s found

theorem session_fst (i : Intake) (a : Arrival) :
    (i.registry.session a.header.sensor a.peer).1 = i.sessionFor a :=
  ShardedMap.getOrInsert_fst _ _ _

theorem session_created (i : Intake) (a : Arrival) :
    (i.registry.session a.header.sensor a.peer).2.1 =
      (i.registry.get? a.header.sensor).isNone :=
  ShardedMap.getOrInsert_created _ _ _

theorem Keyed.sessionFor (h : i.Keyed) (a : Arrival) :
    (i.sessionFor a).sensor = a.header.sensor :=
  sessionFor_of (·.sensor = a.header.sensor) rfl (h _)

/-- A frame changes the session of its sensor and no other. -/
theorem get?_receive (h : i.Keyed) (real : a.isNoise = false) (id : SensorId) :
    (i.receive a.now a.peer a.raw).intake.registry.get? id =
      if a.header.sensor = id then some ((i.sessionFor a).receive i.resend a).1
      else i.registry.get? id := by
  rw [receive_arrival real]
  dsimp only
  rw [session_fst]
  have own := ((i.sessionFor a).receive_speaks (h.sessionFor a) i.resend a).1
  simp only [Registry.put, Registry.get?, own]
  exact ShardedMap.get?_insert_getOrInsert _ _ _ _ _

theorem reply_receive (real : a.isNoise = false) :
    (i.receive a.now a.peer a.raw).reply = ((i.sessionFor a).receive i.resend a).2.1 := by
  rw [receive_arrival real, ← session_fst]

theorem effects_receive (real : a.isNoise = false) :
    (i.receive a.now a.peer a.raw).effects =
      a.preface i.resend (i.registry.get? a.header.sensor).isNone ++
        ((i.sessionFor a).receive i.resend a).2.2 := by
  rw [receive_arrival real, ← session_fst, ← session_created]

/-- An input that is not a frame for a session leaves it as it is, or ends it. -/
theorem get?_step_of_none (readings : Counters) (h : i.Keyed)
    (other : Arrival.for? id now input = none) :
    (i.step readings now input).intake.registry.get? id =
      (i.registry.get? id).filter input.spares := by
  have same : (i.registry.get? id).filter (fun _ => true) = i.registry.get? id := by
    cases i.registry.get? id <;> rfl
  cases input with
  | opened | malformed | tick => exact same.symm
  | closed peer => exact ShardedMap.get?_retain _ _ _
  | frame peer raw =>
    refine Eq.trans ?_ same.symm
    cases read : Frame.Header.read raw with
    | error reason => simp only [step, receive, read]
    | ok header =>
      let a : Arrival := ⟨now, peer, raw, header, read⟩
      change (i.receive a.now a.peer a.raw).intake.registry.get? id = _
      cases noise : a.isNoise with
      | true => rw [receive_noise noise]
      | false =>
        have apart := (Arrival.for?_eq_none other (Arrival.of?_frame now peer read)).resolve_left
          (Bool.eq_false_iff.1 noise)
        rw [get?_receive h noise id, if_neg apart]

/-- Only a frame for a session hands packages of its sensor on. -/
theorem packages_step_of_none (h : i.Keyed) (other : Arrival.for? id now input = none) :
    (Effect.packages (i.step readings now input).effects).filter (·.sensor = id) = [] := by
  cases input with
  | opened | malformed | tick => rfl
  | closed peer =>
    have forget (ids : List SensorId) : Effect.packages (ids.map Effect.forget) = [] := by
      induction ids with
      | nil => rfl
      | cons _ _ ih => exact ih
    simp [step, close, forget]
  | frame peer raw =>
    cases read : Frame.Header.read raw with
    | error reason => simp [step, receive, read, refuse]
    | ok header =>
      let a : Arrival := ⟨now, peer, raw, header, read⟩
      change (Effect.packages (i.receive a.now a.peer a.raw).effects).filter _ = _
      cases noise : a.isNoise with
      | true => simp [receive_noise noise]
      | false =>
        have apart := (Arrival.for?_eq_none other (Arrival.of?_frame now peer read)).resolve_left
          (Bool.eq_false_iff.1 noise)
        have speaks := (i.sessionFor a).receive_speaks (h.sessionFor a) i.resend a
        rw [effects_receive noise, Effect.packages_append, Arrival.packages_preface,
          List.nil_append, List.filter_eq_nil_iff]
        intro p mem
        simpa [speaks.2 p mem] using apart

/-- All packages that a frame hands on are those of its sensor. -/
theorem packages_receive (h : i.Keyed) (real : a.isNoise = false) :
    (Effect.packages (i.receive a.now a.peer a.raw).effects).filter
        (·.sensor = a.header.sensor) =
      Effect.packages ((i.sessionFor a).receive i.resend a).2.2 := by
  have speaks := (i.sessionFor a).receive_speaks (h.sessionFor a) i.resend a
  rw [effects_receive real, Effect.packages_append, Arrival.packages_preface, List.nil_append,
    List.filter_eq_self]
  intro p mem
  simpa using speaks.2 p mem

theorem Keyed.step (h : i.Keyed) (readings : Counters) (now : Micros) (input : Input) :
    (i.step readings now input).intake.Keyed := by
  intro id s found
  cases own : Arrival.for? id now input with
  | none =>
    rw [get?_step_of_none readings h own] at found
    exact h id s (Option.filter_eq_some_iff.1 found).1
  | some a =>
    obtain ⟨rfl, rfl, rfl, real⟩ := Arrival.for?_eq_some own
    rw [Intake.step, get?_receive h real a.header.sensor, if_pos rfl] at found
    cases found
    exact ((i.sessionFor a).receive_speaks (h.sessionFor a) i.resend a).1

theorem settings_step (i : Intake) (readings : Counters) (now : Micros) (input : Input) :
    (i.step readings now input).intake.resend = i.resend ∧
      (i.step readings now input).intake.registry.buffering = i.registry.buffering := by
  cases input with
  | opened | malformed | tick | closed => exact ⟨rfl, rfl⟩
  | frame peer raw =>
    simp only [step, receive]
    split
    · exact ⟨rfl, rfl⟩
    · split <;> exact ⟨rfl, rfl⟩

end Intake

end SensorIngest
