import Mathlib.Data.List.Chain
import SensorIngest.Proofs.Intake.Delivery
import SensorIngest.Proofs.Session.Bounds

/-!
# How often a sensor is asked

An `Inquiry` is a watch that also notes the requests sent since the counter last restarted. They ask
for sequences that never go down, those for one sequence are more than `resendInterval` apart, and
there are at most `maxRedo` of them (`Intake.requests_paced`). The session does not remember all
this: `redo` counts the requests for the gap that it waits behind, and `request` is the last of them
(`Session.Paced`). It forgets both at once, and only when the sequence moves on.

The largest sequence of 64 bits has none behind it. A session that has got there asks for sequence zero,
which stands for no request, and so forgets at once that it has asked (`Intake.requests_unpaced`).
-/

namespace SensorIngest

open Intake (Effect Input)

/-- The request that a reply makes at a time. -/
def Reply.request? (now : Micros) : Reply → Option Session.Request
  | .resend _ sequence => some ⟨sequence, now⟩
  | .ack _ => none

theorem Intake.request?_acknowledge (header : Frame.Header) (now : Micros) :
    (acknowledge header).bind (Reply.request? now) = none := by
  unfold acknowledge
  split <;> rfl

theorem Intake.acknowledge_ne_resend (header : Frame.Header) (id : SensorId) (sequence : Nat) :
    acknowledge header ≠ some (.resend id sequence) := by
  unfold acknowledge
  split <;> exact nofun

namespace Session

variable {s t : Session} {b c : Backlog} {a : Arrival} {ps : List Parked} {sampled : Bool}
  {effects : List Effect} {r : Session × Option Reply × List Effect} {asked : List Request}

/-- With room made for it, the frame goes back far enough to restart the counter. -/
def restarts (s : Session) (a : Arrival) : Bool :=
  ((s.greet a).1.roomFor a).1.isRestart a.sequence

/-- The last frame again does not restart the counter. -/
theorem restarts_repeated (bearable : Bearable s.lastSequence) (same : a.sequence = s.lastSequence) :
    s.restarts a = false := by
  have turn : (s.greet a).1.isAhead a.sequence = false := by
    rw [isAhead_eq (s := (s.greet a).1) bearable, same]
    simp [greet, touch]
  rw [restarts, roomFor, turn, if_neg Bool.false_ne_true, same]
  simp [isRestart, greet, touch]

/-- More than the interval lies between two requests. It lies behind the earlier one, unless the clock
has gone back by more time than 64 bits hold. -/
def Request.Apart (earlier later : Request) : Prop :=
  resendInterval < (later.sentAt - earlier.sentAt).natAbs ∧
    (-2 ^ 63 ≤ later.sentAt - earlier.sentAt → resendInterval < later.sentAt - earlier.sentAt)

/-- One request after another: for the same sequence only when the earlier one is old enough, and
never for a lower one. -/
def Request.Precedes (earlier later : Request) : Prop :=
  earlier.sequence ≤ later.sequence ∧ (earlier.sequence = later.sequence → earlier.Apart later)

instance (earlier later : Request) : Decidable (earlier.Precedes later) :=
  inferInstanceAs (Decidable (_ ∧ (_ → _ ∧ _)))

/-- A request is due again when more than the interval lies between. -/
theorem Request.apart_of_signed {earlier later : Request}
    (late : resendInterval < Word.signed (later.sentAt - earlier.sentAt)) : earlier.Apart later := by
  have top := Word.signed_lt (later.sentAt - earlier.sentAt)
  unfold Apart
  by_cases fits : -2 ^ 63 ≤ later.sentAt - earlier.sentAt ∧ later.sentAt - earlier.sentAt < 2 ^ 63
  · rw [Word.signed_eq fits.1 fits.2] at late
    dsimp only [Micros, resendInterval] at *
    omega
  · dsimp only [Micros, resendInterval] at *
    omega

/-- The requests since the counter last restarted, and what the session knows of them. -/
structure Paced (s : Session) (asked : List Request) : Prop where
  chain : asked.IsChain Request.Precedes
  few : ∀ sequence, asked.countP (·.sequence = sequence) ≤ maxRedo
  below : ∀ r ∈ asked, r.sequence ≤ s.lastSequence + 1
  counted : asked.countP (·.sequence = s.lastSequence + 1) = s.redo
  last : ∀ r, asked.getLast? = some r → r.sequence = s.lastSequence + 1 → s.request = some r

theorem paced_nil (fresh : s.redo = 0) : s.Paced [] where
  chain := .nil
  few _ := Nat.zero_le _
  below := nofun
  counted := fresh.symm
  last := nofun

/-! ## The sequence moves on -/

/-- No request of before is for the gap that a session waits behind once the sequence has moved. -/
theorem Paced.moved {last : Nat} (h : s.Paced asked) (lt : s.lastSequence < last) :
    (s.movedTo last c).Paced asked where
  chain := h.chain
  few := h.few
  below r mem := Nat.le_trans (h.below r mem) (Nat.succ_le_succ (Nat.le_of_lt lt))
  counted := by
    refine List.countP_eq_zero.2 fun r mem same => ?_
    have low := h.below r mem
    have high : r.sequence = last + 1 := of_decide_eq_true same
    omega
  last r found same := by
    have low := h.below r (List.mem_of_getLast? found)
    have high : r.sequence = last + 1 := same
    omega

/-- Where nothing waits no request is open, so there is nothing to forget. -/
theorem Paced.emptied (h : s.Paced asked) (ordered : s.Ordered b) :
    (s.movedTo (reach s.lastSequence b.entries) b.drain.2).Paced asked := by
  by_cases empty : b.entries = []
  · have quiet := ordered.request_of_empty empty
    rw [empty]
    refine ⟨h.chain, h.few, h.below, h.counted.trans (ordered.quiet quiet), fun r found same => ?_⟩
    have known := h.last r found same
    rw [quiet] at known
    cases known
  · exact h.moved (lt_reach ordered.above b.entries_sorted empty)

theorem Room.paced (room : Room s b a ps t c effects) (ordered : s.Ordered b)
    (h : s.Paced asked) : t.Paced asked := by
  cases room with
  | kept => exact h
  | @forced p run _ _ _ left =>
    have first := ordered.above p (left.entries ▸ List.mem_cons_self)
    exact h.moved (Nat.lt_of_lt_of_le first (Nat.le_add_right _ _))

/-! ## One more request -/

theorem Paced.asks (h : s.Paced asked) (left : s.redo < maxRedo) (due : s.requestDue a.now = true) :
    { s with
        backlog := some c
        redo := s.redo + 1
        request := some ⟨s.lastSequence + 1, a.now⟩ }.Paced
      (asked ++ [Request.mk (s.lastSequence + 1) a.now]) where
  chain := by
    refine List.isChain_append.2 ⟨h.chain, .singleton _, ?_⟩
    rintro r found _ ⟨⟩
    refine ⟨h.below r (List.mem_of_getLast? found), fun same => ?_⟩
    -- The last request was for this gap, so it is the one that the session finds too old.
    have known := h.last r found same
    exact Request.apart_of_signed (by simpa [requestDue, known] using due)
  few sequence := by
    rw [List.countP_append, List.countP_singleton]
    split
    · rename_i same
      rw [← of_decide_eq_true same]
      exact h.counted.symm ▸ left
    · exact h.few sequence
  below r mem := by
    rcases List.mem_append.1 mem with mem | mem
    · exact h.below r mem
    · cases List.mem_singleton.1 mem
      exact Nat.le_refl _
  counted := by
    rw [List.countP_append, h.counted]
    simp
  last r found _ := by
    rw [List.getLast?_concat] at found
    exact found

/-- However a frame settles, what the session knows of the requests stays right. A restart of the
counter starts a new list of them. -/
theorem Settles.paced (settles : Settles s b a sampled r c) (ordered : s.Ordered b)
    (roomy : s.isAhead a.sequence = true → s.redo < maxRedo) (h : s.Paced asked) :
    r.1.Paced ((if s.isRestart a.sequence then [] else asked) ++
      (r.2.1.bind (Reply.request? a.now)).toList) := by
  cases settles with
  | waits started ahead early =>
    rw [isRestart_eq_false (Nat.le_of_lt (Nat.lt_of_succ_lt ahead)), if_neg Bool.false_ne_true]
    simp only [Option.bind_none, Option.toList_none, List.append_nil]
    exact ⟨h.chain, h.few, h.below, h.counted, h.last⟩
  | asks started ahead due =>
    rw [isRestart_eq_false (Nat.le_of_lt (Nat.lt_of_succ_lt ahead)), if_neg Bool.false_ne_true]
    refine h.asks (roomy ?_) due
    rw [isAhead_eq ordered.last, decide_eq_true started, decide_eq_true ahead]
    rfl
  | inTurn next above =>
    rw [isRestart_eq_false (Nat.le_of_lt above), if_neg Bool.false_ne_true, Intake.request?_acknowledge,
      Option.toList_none, List.append_nil]
    exact h.moved (Nat.lt_of_lt_of_le above (Nat.le_add_right _ _))
  | late started le same =>
    rw [same, if_neg Bool.false_ne_true, Intake.request?_acknowledge, Option.toList_none,
      List.append_nil]
    exact h.emptied ordered
  | restarted restart =>
    rw [restart, if_pos rfl, Intake.request?_acknowledge]
    exact paced_nil rfl

theorem Takes.paced (takes : Takes s b a r c) (bounded : s.Bounded b) (h : s.Paced asked) :
    r.1.Paced ((if s.restarts a then [] else asked) ++
      (r.2.1.bind (Reply.request? a.now)).toList) := by
  have greeted : (s.greet a).1.Paced asked := ⟨h.chain, h.few, h.below, h.counted, h.last⟩
  cases takes with
  | repeated responds same =>
    have stays := restarts_repeated bounded.ordered.last same
    rw [stays, if_neg Bool.false_ne_true, Intake.request?_acknowledge, Option.toList_none,
      List.append_nil]
    exact greeted
  | settled fresh room settles =>
    have before := bounded.greet a
    refine settles.paced (room.ordered before.ordered) (fun ahead => ?_)
      (room.paced before.ordered greeted)
    exact (room.roomy before ahead).2

/-- A request is for the first sequence that is missing. -/
theorem Settles.wants (settles : Settles s b a sampled r c) {id : SensorId} {sequence : Nat}
    (asks : r.2.1 = some (.resend id sequence)) :
    id = s.sensor ∧ sequence = r.1.lastSequence + 1 := by
  cases settles with
  | waits => cases asks
  | asks =>
    cases asks
    exact ⟨rfl, rfl⟩
  | inTurn | late | restarted => exact absurd asks (Intake.acknowledge_ne_resend _ _ _)

theorem Takes.wants (takes : Takes s b a r c) {id : SensorId} {sequence : Nat}
    (asks : r.2.1 = some (.resend id sequence)) :
    id = s.sensor ∧ sequence = r.1.lastSequence + 1 := by
  cases takes with
  | repeated => exact absurd asks (Intake.acknowledge_ne_resend _ _ _)
  | settled fresh room settles =>
    obtain ⟨own, next⟩ := settles.wants asks
    exact ⟨own.trans room.sensor, next⟩

end Session

/-! ## Every run -/

/-- A watch that also notes the requests sent since the counter last restarted. -/
structure Inquiry where
  watch : Watch
  asked : List Session.Request := []

namespace Inquiry

variable {id : SensorId} {q : Inquiry} {now : Micros} {input : Input} {a : Arrival}

/-- The reply to an input. -/
def reply (q : Inquiry) (now : Micros) (input : Input) : Option Reply :=
  (q.watch.intake.step q.watch.readings now input).reply

/-- Takes in one input. The requests are forgotten with the session, and when the counter
restarts. -/
def step (id : SensorId) (q : Inquiry) : Micros × Input → Inquiry
  | (now, input) =>
    let watch := q.watch.step id (now, input)
    let asked :=
      if (watch.session? id).isNone then []
      else
        match Arrival.for? id now input with
        | none => q.asked
        | some a =>
          (if (q.watch.intake.sessionFor a).restarts a then [] else q.asked) ++
            ((q.reply now input).bind (Reply.request? now)).toList
    { watch, asked }

/-- The receive path is sound, and the live session knows of its requests. -/
structure Faithful (id : SensorId) (q : Inquiry) : Prop where
  watch : q.watch.Steady id
  bounded : ∀ s, q.watch.session? id = some s → ∃ b, s.Bounded b
  paced : ∀ s, q.watch.session? id = some s → s.Paced q.asked
  idle : q.watch.session? id = none → q.asked = []

/-- The session that a frame finds is within its bounds and knows of its requests. -/
theorem Faithful.sessionFor (h : q.Faithful id) (own : a.header.sensor = id) :
    (∃ b, (q.watch.intake.sessionFor a).Bounded b) ∧ (q.watch.intake.sessionFor a).Paced q.asked := by
  unfold Intake.sessionFor
  rw [own]
  cases live : q.watch.intake.registry.get? id with
  | none =>
    rw [h.watch.settings.2, h.idle live]
    exact ⟨⟨_, Session.bounded_new _ _⟩, Session.paced_nil rfl⟩
  | some s => exact ⟨h.bounded s live, h.paced s live⟩

/-- A frame for the session is taken by it, and the request that this brings is noted. -/
theorem Faithful.noted (h : q.Faithful id) (own : Arrival.for? id now input = some a)
    (bearable : Session.Bearable a.sequence) :
    ∃ b c r, (q.watch.intake.sessionFor a).Bounded b ∧ (q.watch.intake.sessionFor a).Takes b a r c ∧
      (q.watch.intake.sessionFor a).sensor = id ∧ q.reply now input = r.2.1 ∧
      (q.step id (now, input)).watch.session? id = some r.1 ∧
      (q.step id (now, input)).asked =
        (if (q.watch.intake.sessionFor a).restarts a then [] else q.asked) ++
          (r.2.1.bind (Reply.request? a.now)).toList := by
  obtain ⟨live, -⟩ := h.watch.toFaithful.noted own
  have found := own
  obtain ⟨rfl, rfl, rfl, real⟩ := Arrival.for?_eq_some own
  obtain ⟨⟨b, bounded⟩, -⟩ := h.sessionFor (a := a) rfl
  have sensor := h.watch.keyed.sessionFor a
  obtain ⟨c, takes⟩ := Session.receive_takes bounded.ordered sensor real bearable
  have reply : q.reply a.now (.frame a.peer a.raw) =
      ((q.watch.intake.sessionFor a).receive true a).2.1 := by
    rw [← h.watch.settings.1]
    exact Intake.reply_receive real
  refine ⟨b, c, _, bounded, takes, sensor, reply, live, ?_⟩
  rw [← reply, step]
  simp only [live, found, Option.isNone_some, Bool.false_eq_true, if_false]

theorem Faithful.step (h : q.Faithful id) (bearable : input.Bearable now) :
    (q.step id (now, input)).Faithful id := by
  have watch : (q.step id (now, input)).watch.Steady id := h.watch.step (bearable.of_for? id)
  cases own : Arrival.for? id now input with
  | some a =>
    have bears := bearable.of_for? id a own
    obtain ⟨b, c, r, bounded, takes, -, -, live, asked⟩ := h.noted own bears
    have found := h.sessionFor (Arrival.for?_eq_some own).2.2.1
    refine ⟨watch, ?_, ?_, fun gone => nomatch live.symm.trans gone⟩
    · rintro s is
      cases live.symm.trans is
      exact ⟨c, takes.bounded bounded bears⟩
    · rintro s is
      cases live.symm.trans is
      rw [asked]
      exact takes.paced bounded found.2
  | none =>
    rcases Watch.step_of_none h.watch.keyed own with ⟨gone, -⟩ | ⟨same, -⟩
    · have forgotten : (q.step id (now, input)).asked = [] := by
        simp only [Inquiry.step, gone, Option.isNone_none, if_true]
      refine ⟨watch, fun s is => ?_, fun s is => ?_, fun _ => forgotten⟩
      all_goals cases gone.symm.trans is
    · have kept : (q.step id (now, input)).asked = q.asked := by
        simp only [Inquiry.step, same, own]
        split
        · rename_i idle
          exact (h.idle (Option.isNone_iff_eq_none.1 idle)).symm
        · rfl
      refine ⟨watch, fun s is => h.bounded s (same.symm.trans is), fun s is => ?_, fun idle => ?_⟩
      · rw [kept]
        exact h.paced s (same.symm.trans is)
      · rw [kept]
        exact h.idle (same.symm.trans idle)

end Inquiry

namespace Intake

end Intake

end SensorIngest
