import SensorIngest.Proofs.Intake.Invariant
import SensorIngest.Proofs.Intake.Loss
import SensorIngest.Proofs.Intake.Requests

/-!
# What a reply says of the session

With resending on, a sensor can tell from the reply to a frame what the server now knows of it
(`Session.Agrees`). An acknowledged frame does not wait, and every other frame of a sensor that
listens does. A request comes of a frame that waits, is the one the session remembers, and is for the
first missing sequence. This holds in every state that a server can reach (`Intake.Reachable`) by
sequences that have others behind them, since nothing waits there that the sequence has passed.
-/

namespace SensorIngest

open Intake (Effect Input)

namespace Session

variable {s : Session} {b c : Backlog} {a : Arrival} {sampled : Bool}
  {r : Session × Option Reply × List Effect}

/-! ## One frame -/

/-- A session `s` has taken in a frame and is `t` now. The reply agrees with `t`, and a frame that
repeats the last one has changed nothing that the session waits for. -/
structure Agrees (s : Session) (a : Arrival) (t : Session) (reply : Option Reply)
    (effects : List Effect) : Prop where
  acked : a.responds = true → (reply = some (.ack a.sequence) ↔ t.waits a.sequence = false)
  asked : ∀ id wanted, reply = some (.resend id wanted) →
    t.waits a.sequence = true ∧ id = a.header.sensor ∧ t.request = some ⟨wanted, a.now⟩ ∧
      wanted = t.lastSequence + 1
  mute : a.responds = false → ∀ q, reply ≠ some (.ack q)
  repeated : a.responds = true → a.sequence = s.lastSequence →
    reply = some (.ack a.sequence) ∧ Effect.packages effects = [] ∧ t.backlog = s.backlog ∧
      t.redo = s.redo ∧ t.request = s.request

theorem acknowledge_of_responds (responds : a.responds = true) :
    Intake.acknowledge a.header = some (.ack a.sequence) := if_pos responds

theorem acknowledge_of_mute (mute : a.responds = false) : Intake.acknowledge a.header = none :=
  if_neg (Bool.eq_false_iff.1 mute)

/-- A frame of a sensor that listens is acknowledged unless it waits. -/
theorem Settles.ack_of_not_contains (settles : Settles s b a sampled r c)
    (responds : a.responds = true) (gone : c.contains a.sequence = false) :
    r.2.1 = some (.ack a.sequence) := by
  cases settles with
  | waits | asks => exact absurd (b.contains_insert a.parked) (Bool.eq_false_iff.1 gone)
  | inTurn | late | restarted => exact acknowledge_of_responds responds

theorem Takes.ack_iff (takes : Takes s b a r c) (h : s.Ordered b) (responds : a.responds = true) :
    r.2.1 = some (.ack a.sequence) ↔ c.contains a.sequence = false := by
  refine ⟨fun acked => (takes.ack h acked).2, fun gone => ?_⟩
  cases takes with
  | repeated => exact acknowledge_of_responds responds
  | settled fresh room settles => exact settles.ack_of_not_contains responds gone

/-- A frame that brings a request waits, and the session remembers the request. -/
theorem Settles.ask (settles : Settles s b a sampled r c) {id : SensorId} {wanted : Nat}
    (asks : r.2.1 = some (.resend id wanted)) :
    c.contains a.sequence = true ∧ r.1.request = some ⟨wanted, a.now⟩ := by
  cases settles with
  | waits => cases asks
  | asks =>
    cases asks
    exact ⟨b.contains_insert a.parked, rfl⟩
  | inTurn | late | restarted => exact absurd asks (Intake.acknowledge_ne_resend _ _ _)

theorem Takes.ask (takes : Takes s b a r c) {id : SensorId} {wanted : Nat}
    (asks : r.2.1 = some (.resend id wanted)) :
    c.contains a.sequence = true ∧ r.1.request = some ⟨wanted, a.now⟩ := by
  cases takes with
  | repeated => exact absurd asks (Intake.acknowledge_ne_resend _ _ _)
  | settled fresh room settles => exact settles.ask asks

theorem Takes.mute (takes : Takes s b a r c) (silent : a.responds = false) (q : Nat) :
    r.2.1 ≠ some (.ack q) := by
  have nothing := acknowledge_of_mute silent
  cases takes with
  | repeated responds => exact absurd responds (Bool.eq_false_iff.1 silent)
  | settled fresh room settles => cases settles <;> simp [nothing]

theorem Takes.agrees (takes : Takes s b a r c) (h : s.Ordered b) (own : s.sensor = a.header.sensor)
    (bearable : Bearable a.sequence) : s.Agrees a r.1 r.2.1 r.2.2 where
  acked responds := by
    rw [(takes.ordered h bearable).waits_eq]
    exact takes.ack_iff h responds
  asked id wanted asks := by
    obtain ⟨named, next⟩ := takes.wants asks
    obtain ⟨waits, remembered⟩ := takes.ask asks
    exact ⟨((takes.ordered h bearable).waits_eq _).trans waits, named.trans own, remembered, next⟩
  mute := takes.mute
  repeated responds same := by
    cases takes with
    | repeated => exact ⟨acknowledge_of_responds responds, rfl, rfl, rfl, rfl⟩
    | settled fresh => exact absurd same (fresh responds)

end Session

/-! ## Every reachable state -/

namespace Intake

variable {i : Intake}

/-- The states of the receive path of a server with resending on, as long as every sequence has another
one behind it. -/
inductive Reachable : Intake → Prop
  | new : Reachable (new true)
  | step {i : Intake} (before : Reachable i) (readings : Counters) {now : Micros} {input : Input}
      (bearable : input.Bearable now) : Reachable (i.step readings now input).intake

theorem Reachable.sound (reachable : i.Reachable) : i.Sound := by
  induction reachable with
  | new => exact sound_new
  | step _ readings bearable sound => exact sound.step readings bearable

/-- Every run of a reachable state goes through reachable states. -/
theorem Reachable.run (reachable : i.Reachable) (readings : Counters) {inputs : List (Micros × Input)}
    (bearable : ∀ x ∈ inputs, x.2.Bearable x.1) :
    ∀ outcome ∈ i.run readings inputs, outcome.intake.Reachable := by
  induction inputs generalizing i readings with
  | nil => exact nofun
  | cons x rest ih =>
    rw [List.forall_mem_cons] at bearable
    intro outcome mem
    have stepped := reachable.step readings bearable.1
    rcases List.mem_cons.1 mem with rfl | later
    · exact stepped
    · exact ih stepped _ bearable.2 outcome later

/-- What is as long as a header is the frame of an arrival. -/
theorem exists_arrival (now : Micros) (peer : Endpoint) {raw : Bytes}
    (long : Frame.headerLength ≤ raw.length) :
    ∃ a : Arrival, a.now = now ∧ a.peer = peer ∧ a.raw = raw := by
  have whole : ¬ (raw.take Frame.headerLength).length < Frame.headerLength := by
    rw [List.length_take]
    omega
  exact ⟨⟨now, peer, raw, _, if_neg whole⟩, rfl, rfl, rfl⟩

/-- In every state that a server with resending on can reach, a frame that is as long as a header and no
boot noise gets a reply that agrees with the session of its sensor afterwards. -/
theorem replies_agree (reachable : i.Reachable) (now : Micros) (peer : Endpoint) (raw : Bytes)
    (long : Frame.headerLength ≤ raw.length) (bearable : Input.Bearable now (.frame peer raw)) :
    let outcome := i.receive now peer raw
    ∃ a : Arrival, a.now = now ∧ a.peer = peer ∧ a.raw = raw ∧ (a.isNoise = false →
      ∃ s, outcome.intake.registry.get? a.header.sensor = some s ∧
        (i.sessionFor a).Agrees a s outcome.reply outcome.effects) := by
  intro outcome
  obtain ⟨a, rfl, rfl, rfl⟩ := exists_arrival now peer long
  refine ⟨a, rfl, rfl, rfl, fun real => ?_⟩
  have sound := reachable.sound
  obtain ⟨b, bounded⟩ := sound.sessionFor a
  have own := sound.keyed.sessionFor a
  have bears : Session.Bearable a.sequence := bearable a (Arrival.of?_frame a.now a.peer a.read)
  obtain ⟨c, takes⟩ := Session.receive_takes bounded.ordered own real bears
  obtain ⟨acked, asked, mute, repeated⟩ := takes.agrees bounded.ordered own bears
  have live : outcome.intake.registry.get? a.header.sensor =
      some ((i.sessionFor a).receive true a).1 := by
    rw [get?_receive sound.keyed real, if_pos rfl, sound.resend]
  have reply : outcome.reply = ((i.sessionFor a).receive true a).2.1 := by
    rw [reply_receive real, sound.resend]
  have handed : Effect.packages outcome.effects =
      Effect.packages ((i.sessionFor a).receive true a).2.2 := by
    rw [effects_receive real, Effect.packages_append, Arrival.packages_preface, List.nil_append,
      sound.resend]
  refine ⟨_, live, ?_⟩
  rw [reply]
  exact ⟨acked, asked, mute, handed ▸ repeated⟩

/-- A gap that was asked for a while ago is asked for again. -/
theorem replies_agree_again :
    let i := (((new true).step {} 0 (probe 0 10).2).intake.step {} 1 (probe 1 12).2).intake
    let raw := Frame.Draft.encode { sensor := .ofNat 7, sequence := 13, flags := ⟨0x20⟩ }
    let outcome := i.receive 5000002 (.localhost 4000) raw
    i.Reachable ∧ Frame.headerLength ≤ raw.length ∧
      Input.Bearable 5000002 (.frame (.localhost 4000) raw) ∧
      outcome.reply = some (.resend (.ofNat 7) 11) ∧
        ∃ s, outcome.intake.registry.get? (.ofNat 7) = some s ∧ s.waits 13 = true ∧
          s.request = some ⟨11, 5000002⟩ ∧ s.lastSequence = 10 := by
  intro i raw outcome
  have first : (probe 0 10).2.Bearable 0 := by decide +kernel
  have second : (probe 1 12).2.Bearable 1 := by decide +kernel
  have reachable : i.Reachable := .step (.step .new {} first) {} second
  have long : Frame.headerLength ≤ raw.length := by decide +kernel
  have bearable : Input.Bearable 5000002 (.frame (.localhost 4000) raw) := by decide +kernel
  have asks : outcome.reply = some (.resend (.ofNat 7) 11) := by decide +kernel
  obtain ⟨⟨_, _, _, header, read⟩, rfl, rfl, rfl, agrees⟩ :=
    replies_agree reachable 5000002 (.localhost 4000) raw long bearable
  have parsed : Frame.Header.read raw =
      .ok ⟨13, ⟨1, 0, 0⟩, ⟨1, 0, 0⟩, .ofNat 7, ⟨0, 0, 0⟩, ⟨0x20⟩⟩ := by decide +kernel
  cases parsed.symm.trans read
  obtain ⟨s, live, agreed⟩ := agrees rfl
  obtain ⟨waits, -, request, next⟩ := agreed.asked _ _ asks
  exact ⟨reachable, long, bearable, asks, s, live, waits, request, (Nat.succ.inj next).symm⟩

end Intake

end SensorIngest
