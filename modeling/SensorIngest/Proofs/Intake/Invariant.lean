import SensorIngest.Proofs.Intake.Watch
import SensorIngest.Proofs.Session.Bounds

/-!
# What holds of every live session

A property of new sessions that every frame for a session keeps holds of all live sessions after
every run (`forall_sessions_step`). With resending on, each of them is in order and within its
bounds, and no packet that waits is passed by the sequence (`Intake.sessions_bounded`).
-/

namespace SensorIngest.Intake

variable {i : Intake} {P : Session → Prop}

/-- A step keeps what the frame that it takes in keeps of its session. -/
theorem forall_sessions_step_of (keyed : i.Keyed) (readings : Counters) {now : Micros}
    {input : Input} (born : ∀ id peer, P (.new id peer i.registry.buffering))
    (next : ∀ s a, Arrival.of? now input = some a → s.sensor = a.header.sensor →
      a.isNoise = false → P s → P (s.receive i.resend a).1)
    (h : ∀ id s, i.registry.get? id = some s → P s) :
    ∀ id s, (i.step readings now input).intake.registry.get? id = some s → P s := by
  intro id s found
  cases own : Arrival.for? id now input with
  | none =>
    rw [get?_step_of_none readings keyed own] at found
    exact h id s (Option.filter_eq_some_iff.1 found).1
  | some a =>
    have arrives := (Option.filter_eq_some_iff.1 own).1
    obtain ⟨rfl, rfl, rfl, real⟩ := Arrival.for?_eq_some own
    rw [Intake.step, get?_receive keyed real a.header.sensor, if_pos rfl] at found
    cases found
    exact next _ a arrives (keyed.sessionFor a) real (sessionFor_of P (born _ _) (h _))

/-- A step keeps what every frame keeps of its session. -/
theorem forall_sessions_step (keyed : i.Keyed)
    (born : ∀ id peer, P (.new id peer i.registry.buffering))
    (next : ∀ s a, s.sensor = a.header.sensor → a.isNoise = false → P s →
      P (s.receive i.resend a).1)
    (h : ∀ id s, i.registry.get? id = some s → P s) (readings : Counters) (now : Micros)
    (input : Input) :
    ∀ id s, (i.step readings now input).intake.registry.get? id = some s → P s :=
  forall_sessions_step_of keyed readings born (fun s a _ => next s a) h

/-- Every session stands under its sensor and is within its bounds. -/
structure Sound (i : Intake) : Prop where
  resend : i.resend = true
  buffering : i.registry.buffering = true
  keyed : i.Keyed
  bounded : ∀ id s, i.registry.get? id = some s → ∃ b, s.Bounded b

theorem sound_new : (new true).Sound where
  resend := rfl
  buffering := rfl
  keyed := keyed_empty true true
  bounded := by
    intro id s found
    cases (Registry.get?_empty true id).symm.trans found

theorem Sound.step (h : i.Sound) (readings : Counters) {now : Micros} {input : Input}
    (bearable : input.Bearable now) : (i.step readings now input).intake.Sound := by
  obtain ⟨resend, buffering⟩ := settings_step i readings now input
  refine ⟨resend.trans h.resend, buffering.trans h.buffering, h.keyed.step readings now input, ?_⟩
  apply forall_sessions_step_of h.keyed readings ?_ ?_ h.bounded
  · intro id peer
    rw [h.buffering]
    exact ⟨_, Session.bounded_new id peer⟩
  · rintro s a arrives own real ⟨b, bounded⟩
    rw [h.resend]
    have bearable := bearable a arrives
    obtain ⟨c, takes⟩ := Session.receive_takes bounded.ordered own real bearable
    exact ⟨c, takes.bounded bounded bearable⟩

theorem Sound.sessionFor (h : i.Sound) (a : Arrival) : ∃ b, (i.sessionFor a).Bounded b := by
  refine sessionFor_of (∃ b, ·.Bounded b) ?_ (h.bounded _)
  rw [h.buffering]
  exact ⟨_, Session.bounded_new _ _⟩

/-- No step finds a packet that has waited past its turn. -/
theorem Sound.punctual_step (h : i.Sound) (readings : Counters) {now : Micros} {input : Input}
    (bearable : input.Bearable now) : Session.Punctual (i.step readings now input).effects := by
  intro id q
  cases input with
  | opened | malformed | tick => simp [Intake.step, refuse]
  | closed peer => simp [Intake.step, close]
  | frame peer raw =>
    cases read : Frame.Header.read raw with
    | error reason => simp [Intake.step, receive, read, refuse]
    | ok header =>
      let a : Arrival := ⟨now, peer, raw, header, read⟩
      change _ ∉ (i.receive a.now a.peer a.raw).effects
      cases noise : a.isNoise with
      | true => simp [receive_noise noise]
      | false =>
        obtain ⟨b, bounded⟩ := h.sessionFor a
        obtain ⟨c, takes⟩ := Session.receive_takes bounded.ordered (h.keyed.sessionFor a) noise
          (bearable a (Arrival.of?_frame now peer read))
        have preface : .log (.staleParked id q) ∉
            a.preface i.resend (i.registry.get? a.header.sensor).isNone := by
          unfold Arrival.preface
          split <;> split <;> simp
        rw [effects_receive noise, h.resend, List.mem_append]
        rintro (mem | mem)
        · exact preface (h.resend ▸ mem)
        · exact takes.punctual id q mem

/-- With resending on and sequences that have others behind them, after every step of every run each live
session is in order and within its bounds, and no packet was found to have waited past its turn. -/
theorem sessions_bounded (readings : Counters) (inputs : List (Micros × Input))
    (bearable : ∀ x ∈ inputs, x.2.Bearable x.1) : ∀ outcome ∈ (new true).run readings inputs,
      (∀ id s, outcome.intake.registry.get? id = some s → ∃ b, s.Bounded b) ∧
        Session.Punctual outcome.effects := by
  have run : ∀ (i : Intake) (readings : Counters), i.Sound → ∀ outcome ∈ i.run readings inputs,
      outcome.intake.Sound ∧ Session.Punctual outcome.effects := by
    induction inputs with
    | nil => exact fun _ _ _ => nofun
    | cons x rest ih =>
      obtain ⟨now, input⟩ := x
      rw [List.forall_mem_cons] at bearable
      intro i readings sound outcome mem
      have stepped := sound.step readings bearable.1
      rcases List.mem_cons.1 mem with rfl | mem
      · exact ⟨stepped, sound.punctual_step readings bearable.1⟩
      · exact ih bearable.2 _ _ stepped outcome mem
  intro outcome mem
  obtain ⟨sound, punctual⟩ := run _ readings sound_new outcome mem
  exact ⟨sound.bounded, punctual⟩

/-- A session behind a gap that it has asked for. -/
theorem sessions_bounded_gap :
    let inputs := [probe 0 10, probe 1 12]
    let outcomes := (new true).run {} inputs
    (∀ x ∈ inputs, x.2.Bearable x.1) ∧
      ∃ outcome ∈ outcomes, ∃ s, outcome.intake.registry.get? (.ofNat 7) = some s ∧
        s.request = some ⟨11, 1⟩ ∧ s.redo = 1 ∧ s.parked = 1 ∧ ∃ b, s.Bounded b := by
  intro inputs outcomes
  have bearable : ∀ x ∈ inputs, x.2.Bearable x.1 := by decide +kernel
  have found : outcomes.getLast?.any fun outcome =>
      (outcome.intake.registry.get? (.ofNat 7)).any fun s =>
        s.request = some ⟨11, 1⟩ ∧ s.redo = 1 ∧ s.parked = 1 := by decide +kernel
  obtain ⟨outcome, last, found⟩ := (Option.any_eq_true _ _).1 found
  obtain ⟨s, live, facts⟩ := (Option.any_eq_true _ _).1 found
  obtain ⟨request, redo, parked⟩ := of_decide_eq_true facts
  have mem := List.mem_of_getLast? last
  have bounded := (sessions_bounded {} inputs bearable outcome mem).1 _ s live
  exact ⟨bearable, outcome, mem, s, live, request, redo, parked, bounded⟩

end SensorIngest.Intake
