import SensorIngest.Proofs.Intake.Accounting
import SensorIngest.Proofs.Intake.Isolation
import SensorIngest.Proofs.Intake.Replies

/-!
# Replies to sensors that do not listen

A frame says whether its sensor listens (`Arrival.responds`). A sensor that does not is never sent an
acknowledgement, but it is sent requests as if it did. `Session.asks?` is what a frame makes a session
ask for, and `Intake.replies_unheard` says that after every run a frame of a sensor that does not listen
is answered by this request and by nothing else. Without resending it is not answered at all.
-/

namespace SensorIngest

open Intake (Effect Input)

namespace Session

variable {s : Session} {a : Arrival}

/-! ## What a session asks for -/

/-- The sequence that a parked packet makes a session ask for. -/
def Verdict.asked? : Verdict → Option Nat
  | ask wanted => some wanted
  | proceed | parked | stale => none

/-- The first missing sequence, if a packet skips over it and has to wait, and a request is due. -/
def misses? (s : Session) (sequence : Nat) (now : Micros) : Option Nat :=
  if s.following < sequence ∧ s.backlog.isSome ∧ s.requestDue now then some s.following else none

/-- What a frame makes a session ask for, once room has been made for it. One that repeats the last one
of a sensor that listens is never ahead of its turn, whatever the sequence behind is. -/
def asks? (s : Session) (a : Arrival) : Option Nat :=
  let noted := (s.greet a).1
  if a.responds ∧ a.sequence = noted.lastSequence then none
  else if noted.isAhead a.sequence then noted.makeRoom.1.misses? a.sequence a.now
  else none

theorem asked?_park (s : Session) (b : Backlog) (p : Parked) :
    (s.park b p).2.1.asked? =
      if s.requestDue p.arrival then some s.following else none := by
  have due : { s with backlog := some (b.insert p).1 }.requestDue p.arrival =
      s.requestDue p.arrival := rfl
  unfold park
  dsimp only
  rw [due]
  split
  · rfl
  · rfl

theorem asked?_accept (s : Session) (sequence : Nat) : (s.accept sequence).2.1.asked? = none := by
  unfold accept
  dsimp only
  split
  · split <;> rfl
  · split <;> rfl

theorem asked?_settle (s : Session) (p : Parked) :
    (s.settle p).2.1.asked? = s.misses? p.sequence p.arrival := by
  unfold settle misses?
  by_cases ahead : s.following < p.sequence
  · rw [if_pos ahead]
    cases waiting : s.backlog with
    | none => simp [Verdict.asked?]
    | some b => simp [asked?_park, ahead]
  · rw [if_neg ahead, if_neg fun missing => ahead missing.1]
    exact s.asked?_accept p.sequence

theorem asked?_offer (s : Session) (sequence : Nat) (now : Micros) (frame : Bytes) :
    (s.offer sequence now frame).2.1.asked? =
      if s.isAhead sequence then s.makeRoom.1.misses? sequence now else none := by
  unfold offer
  split
  · exact s.makeRoom.1.asked?_settle ⟨sequence, now, frame⟩
  · exact s.asked?_accept sequence

/-! ## What a sensor is sent -/

theorem conclude_asks_iff (a : Arrival) (sampled : Bool) (offered : Session × Verdict × List Effect)
    (id : SensorId) (wanted : Nat) :
    (Intake.conclude a.header a.now sampled a.raw offered).2.1 = some (.resend id wanted) ↔
      id = offered.1.sensor ∧ offered.2.1.asked? = some wanted := by
  obtain ⟨t, verdict, effects⟩ := offered
  cases verdict with
  | parked => simp [Intake.conclude, Verdict.asked?]
  | ask => simp [Intake.conclude, Verdict.asked?, eq_comm]
  | proceed | stale =>
    refine iff_of_false (Intake.acknowledge_ne_resend _ _ _) ?_
    rintro ⟨-, ⟨⟩⟩

theorem responds_of_acknowledge {q : Nat} (acked : Intake.acknowledge a.header = some (.ack q)) :
    a.responds = true := by
  by_contra mute
  rw [acknowledge_of_mute (Bool.eq_false_iff.2 mute)] at acked
  cases acked

theorem responds_of_conclude (sampled : Bool) (offered : Session × Verdict × List Effect) {q : Nat}
    (acked : (Intake.conclude a.header a.now sampled a.raw offered).2.1 = some (.ack q)) :
    a.responds = true := by
  obtain ⟨t, verdict, effects⟩ := offered
  cases verdict with
  | parked | ask => cases acked
  | proceed | stale => exact responds_of_acknowledge acked

/-- A request is sent for what the session asks for, whether the sensor listens or not. -/
theorem receive_asks_iff (own : s.sensor = a.header.sensor) (resend : Bool) {id : SensorId}
    {wanted : Nat} : (s.receive resend a).2.1 = some (.resend id wanted) ↔
      id = a.header.sensor ∧ resend = true ∧ s.asks? a = some wanted := by
  have acknowledged := Intake.acknowledge_ne_resend a.header id wanted
  unfold receive Intake.sequence asks?
  dsimp only
  split
  · rename_i repeated
    have repeated : a.responds = true ∧ a.sequence = (s.greet a).1.lastSequence := repeated
    rw [if_pos repeated]
    refine iff_of_false acknowledged ?_
    rintro ⟨-, -, ⟨⟩⟩
  · rename_i fresh
    have fresh : ¬ (a.responds = true ∧ a.sequence = (s.greet a).1.lastSequence) := fresh
    rw [if_neg fresh]
    cases resend with
    | false =>
      refine iff_of_false acknowledged ?_
      rintro ⟨-, ⟨⟩, -⟩
    | true =>
      have speaks := offer_speaks (s := (s.greet a).1) own a.sequence a.now a.raw
      have concluded := conclude_asks_iff a (s.greet a).2
        ((s.greet a).1.offer a.sequence a.now a.raw) id wanted
      rw [speaks.1, asked?_offer] at concluded
      refine concluded.trans ?_
      rw [eq_self, true_and]

/-- An acknowledgement is sent only to a sensor that listens. -/
theorem responds_of_receive (resend : Bool) {q : Nat}
    (acked : (s.receive resend a).2.1 = some (.ack q)) : a.responds = true := by
  unfold receive Intake.sequence at acked
  dsimp only at acked
  split at acked
  · rename_i repeated
    exact repeated.1
  · split at acked
    · exact responds_of_acknowledge acked
    · exact responds_of_conclude _ _ acked

end Session

/-! ## Every run -/

namespace Ledger

theorem settings_after (resend buffering : Bool) (inputs : List (Micros × Input)) :
    (after resend buffering inputs).intake.resend = resend := by
  induction inputs using List.reverseRecOn with
  | nil => rfl
  | append_singleton inputs x ih =>
    obtain ⟨now, input⟩ := x
    rw [after_append_singleton]
    exact (Intake.settings_step _ _ _ _).1.trans ih

end Ledger

namespace Intake

variable {i : Intake} {a : Arrival}

/-- What a frame makes the receive path ask for. -/
def asks? (i : Intake) (a : Arrival) : Option Nat :=
  if i.resend = true ∧ a.isNoise = false then (i.sessionFor a).asks? a else none

theorem step_of_none (readings : Counters) {now : Micros} {input : Input}
    (none : Arrival.of? now input = none) : (i.step readings now input).reply = .none := by
  cases input with
  | opened | closed | malformed | tick => rfl
  | frame peer raw =>
    cases read : Frame.Header.read raw with
    | error reason =>
      simp only [step, receive, read]
    | ok header => cases none.symm.trans (Arrival.of?_frame now peer read)

/-- A frame is acknowledged only if its sensor listens, but it brings a request whenever there is
something to ask for. -/
theorem reply_of_some (keyed : i.Keyed) :
    let reply := (i.receive a.now a.peer a.raw).reply
    (∀ q, reply = some (.ack q) → a.responds = true) ∧
      ∀ id wanted, reply = some (.resend id wanted) ↔
        id = a.header.sensor ∧ i.asks? a = some wanted := by
  intro reply
  unfold asks?
  cases noise : a.isNoise with
  | true =>
    have silent : reply = none := congrArg Outcome.reply (receive_noise noise)
    rw [silent]
    simp
  | false =>
    have received : reply = ((i.sessionFor a).receive i.resend a).2.1 := reply_receive noise
    rw [received]
    refine ⟨fun q => Session.responds_of_receive i.resend, fun id wanted => ?_⟩
    rw [Session.receive_asks_iff (keyed.sessionFor a)]
    cases i.resend <;> simp

/-- Whatever has been received and whatever the settings, only frames are answered. Acknowledgements go
to sensors that listen. Requests go to any sensor whose frame makes the receive path ask for another
one, so a reply reaches a sensor that does not listen exactly when there is something to ask for.
Without resending there never is. -/
theorem replies_unheard (resend buffering : Bool) (inputs : List (Micros × Input)) (now : Micros)
    (input : Input) :
    let l := Ledger.after resend buffering inputs
    let reply := (l.intake.step l.readings now input).reply
    (Arrival.of? now input = none → reply = none) ∧
    ∀ a, Arrival.of? now input = some a →
      (∀ q, reply = some (.ack q) → a.responds = true) ∧
      (∀ id wanted, reply = some (.resend id wanted) ↔
        id = a.header.sensor ∧ l.intake.asks? a = some wanted) ∧
      ((reply.isSome → a.responds = true) ↔ a.responds = true ∨ l.intake.asks? a = none) ∧
      (resend = false → l.intake.asks? a = none) := by
  intro l reply
  have keyed : l.intake.Keyed := (Ledger.accounts_after resend buffering inputs).keyed
  refine ⟨step_of_none l.readings, fun a found => ?_⟩
  obtain ⟨rfl, rfl⟩ := Arrival.of?_eq_some found
  obtain ⟨acks, requests⟩ := reply_of_some (a := a) keyed
  refine ⟨acks, requests, ⟨fun heard => ?_, fun fine some => ?_⟩, fun off => ?_⟩
  · cases asked : l.intake.asks? a with
    | none => exact .inr rfl
    | some wanted => exact .inl (heard (Option.isSome_of_eq_some ((requests _ _).2 ⟨rfl, asked⟩)))
  · rcases fine with responds | nothing
    · exact responds
    · obtain ⟨answer, answered⟩ := Option.isSome_iff_exists.1 some
      cases answer with
      | ack q => exact acks q answered
      | resend id wanted =>
        obtain ⟨-, asked⟩ := (requests id wanted).1 answered
        cases nothing.symm.trans asked
  · have setting : l.intake.resend = resend := Ledger.settings_after resend buffering inputs
    rw [asks?, setting, off]
    rfl

/-- A sensor that does not listen leaves out a frame and is asked for it. -/
theorem replies_unheard_gap :
    let l := Ledger.after true true [oneWay 7 0 10]
    let raw := Frame.Draft.encode { sensor := .ofNat 7, sequence := 12 }
    let reply := (l.intake.step l.readings 1 (.frame (.localhost 4000) raw)).reply
    reply = some (.resend (.ofNat 7) 11) ∧
      ∃ a, Arrival.of? 1 (.frame (.localhost 4000) raw) = some a ∧ a.responds = false ∧
        l.intake.asks? a = some 11 := by
  intro l raw reply
  have asks : reply = some (.resend (.ofNat 7) 11) := by decide +kernel
  have parsed : Frame.Header.read raw =
      .ok ⟨12, ⟨1, 0, 0⟩, ⟨1, 0, 0⟩, .ofNat 7, ⟨0, 0, 0⟩, ⟨0⟩⟩ := by decide +kernel
  have mute : Frame.Flags.response ⟨0⟩ = false := by decide
  have found := Arrival.of?_frame 1 (.localhost 4000) parsed
  obtain ⟨-, answers⟩ :=
    replies_unheard true true [oneWay 7 0 10] 1 (.frame (.localhost 4000) raw)
  obtain ⟨-, requests, -⟩ := answers _ found
  exact ⟨asks, _, found, mute, ((requests _ _).1 asks).2⟩

end Intake

end SensorIngest
