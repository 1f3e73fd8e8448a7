import Mathlib.Algebra.Order.BigOperators.Group.List
import Mathlib.Algebra.Order.Ring.Nat
import SensorIngest.Proofs.Intake.Accounting
import SensorIngest.Proofs.Intake.Invariant

/-!
# The statistics of resending

The counters are those of all sessions together, so each of them is compared to what the sessions may
still add to it. A session with an open request has one success ahead of it at most
(`Session.pending`), and the requests that are left for the gap (`Session.spare`). What a frame counts
is paid by what it takes from these, or by the new gap that it opens (`Session.Mindful.receive`). A
session that ends takes along what it has. Hence the order of the counters after every run
(`Intake.resends_consistent`), whatever the sequences are.
-/

namespace SensorIngest

open Intake (Effect Input)

/-- Counted of gaps, and of how they end. -/
def Tally.ofGap : Tally → Bool
  | resendRequests | resendTotal | resendSuccess | forcedDrains => true
  | _ => false

theorem Tally.ne_of_ofGap {tally : Tally} (own : tally.ofGap = true) : duplicates ≠ tally := by
  rintro rfl
  cases own

/-! ## What a session may still count -/

namespace Session

variable {s t u : Session} {b : Backlog} {p : Parked} {ps : List Parked} {sequence : Nat}
  {first rest effects : List Effect}

/-- The successes that are ahead. -/
def pending (s : Session) : Nat := if s.request.isSome then 1 else 0

/-- The requests that are left for a gap that has been asked for. -/
def spare (s : Session) : Nat := if s.redo = 0 then 0 else maxRedo - s.redo

/-- What is counted while a session becomes another one. -/
structure Charged (s t : Session) (effects : List Effect) : Prop where
  success : Effect.total .resendSuccess effects + t.pending ≤
    Effect.total .resendTotal effects + s.pending
  gaps : Effect.total .resendTotal effects ≤ Effect.total .resendRequests effects
  requests : Effect.total .resendRequests effects + t.spare ≤
    maxRedo * Effect.total .resendTotal effects + s.spare
  forced : Effect.total .forcedDrains effects ≤ (Effect.packages effects).length

theorem Charged.append (h : Charged s t first) (k : Charged t u rest) :
    Charged s u (first ++ rest) := by
  obtain ⟨success, gaps, requests, forced⟩ := h
  obtain ⟨success', gaps', requests', forced'⟩ := k
  constructor <;>
    simp only [Effect.total_append, Effect.packages_append, List.length_append, Nat.mul_add] <;>
    omega

/-- Nothing is counted of gaps. -/
def Uncounted (effects : List Effect) : Prop :=
  ∀ tally : Tally, tally.ofGap = true → Effect.total tally effects = 0

theorem Uncounted.append (h : Uncounted first) (k : Uncounted rest) : Uncounted (first ++ rest) :=
  fun tally own => (Effect.total_append first rest).trans (congrArg₂ (· + ·) (h tally own) (k tally own))

/-- Where nothing is counted of gaps, a request may still be dropped and a gap be forgotten. -/
theorem Uncounted.charged (nothing : Uncounted effects)
    (request : t.request.isSome = true → s.request.isSome = true) (redo : t.redo = s.redo ∨ t.redo = 0) :
    Charged s t effects := by
  have fewer : t.pending ≤ s.pending := by
    unfold pending
    split
    · rw [if_pos (request ‹_›)]
    · exact Nat.zero_le _
  have less : t.spare ≤ s.spare := by
    unfold spare
    rcases redo with same | none
    · rw [same]
    · rw [if_pos none]
      exact Nat.zero_le _
  constructor
  · rw [nothing _ rfl, nothing _ rfl]
    exact Nat.add_le_add_left fewer 0
  · rw [nothing .resendTotal rfl]
    exact Nat.zero_le _
  · rw [nothing _ rfl, nothing _ rfl]
    exact Nat.add_le_add_left less 0
  · rw [nothing _ rfl]
    exact Nat.zero_le _

/-! ## Handing on -/

/-- Packets leave, and nothing else happens that matters for a gap. -/
structure Hands (s t : Session) (effects : List Effect) : Prop where
  redo : t.redo = s.redo
  request : t.request = s.request
  buffers : t.backlog.isSome = s.backlog.isSome
  nothing : Uncounted effects

theorem Hands.append (h : Hands s t first) (k : Hands t u rest) : Hands s u (first ++ rest) :=
  ⟨k.redo.trans h.redo, k.request.trans h.request, k.buffers.trans h.buffers,
    h.nothing.append k.nothing⟩

theorem Hands.charged (h : Hands s t effects) : Charged s t effects :=
  h.nothing.charged (fun open_ => h.request ▸ open_) (.inl h.redo)

theorem hands_nil (s : Session) : Hands s s [] := ⟨rfl, rfl, rfl, fun _ _ => rfl⟩

theorem hands_handOff (s : Session) (sequence : Nat) (arrival : Micros) (sampled : Bool)
    (frame : Bytes) : Hands s (s.handOff sequence arrival sampled frame).1
      (s.handOff sequence arrival sampled frame).2 :=
  ⟨rfl, rfl, rfl, fun _ _ => rfl⟩

theorem hands_releaseAll (s : Session) (ps : List Parked) :
    Hands s (s.releaseAll ps).1 (s.releaseAll ps).2 := by
  induction ps generalizing s with
  | nil => exact hands_nil s
  | cons p ps ih => exact (hands_handOff s p.sequence p.arrival false p.frame).append (ih _)

theorem hands_drainAll (s : Session) : Hands s s.drainAll.1 s.drainAll.2 := by
  unfold drainAll
  cases hb : s.backlog with
  | none => exact hands_nil s
  | some b =>
    obtain ⟨redo, request, -, nothing⟩ := hands_releaseAll s b.drain.1
    exact ⟨redo, request, (congrArg Option.isSome hb).symm, nothing⟩

theorem hands_drainContiguous (s : Session) : Hands s s.drainContiguous.1 s.drainContiguous.2 := by
  fun_induction drainContiguous s with
  | case1 | case2 => exact hands_nil _
  | case3 s b hb p b' pop s' stale t effects eq ih =>
    rw [eq] at ih
    refine ⟨ih.redo, ih.request, ih.buffers.trans (congrArg Option.isSome hb).symm, ?_⟩
    intro tally own
    simp [Tally.ne_of_ofGap own, ih.nothing tally own]
  | case4 s b hb p b' pop s' turn t effects eq ih =>
    rw [eq] at ih
    obtain ⟨redo, request, buffers, nothing⟩ :=
      (hands_handOff s' p.sequence p.arrival false p.frame).append ih
    exact ⟨redo, request, buffers.trans (congrArg Option.isSome hb).symm, nothing⟩

/-! ## Requests -/

/-- The session buffers, and without an open request it has not asked, unless it has asked for sequence
zero. -/
structure Mindful (s : Session) : Prop where
  buffers : s.backlog.isSome = true
  quiet : s.request = none → s.redo = 0 ∨ s.following = 0

/-- A session that has not asked since the last gap. -/
structure Calm (s : Session) : Prop where
  buffers : s.backlog.isSome = true
  redo : s.redo = 0

theorem Calm.mindful (h : s.Calm) : s.Mindful := ⟨h.buffers, fun _ => .inl h.redo⟩

theorem Hands.calm (h : Hands s t effects) (calm : s.Calm) : t.Calm :=
  ⟨h.buffers.trans calm.buffers, h.redo.trans calm.redo⟩

theorem isSome_of_dropPassedRequest (open_ : s.dropPassedRequest.request.isSome = true) :
    s.request.isSome = true := by
  obtain ⟨r, kept⟩ := Option.isSome_iff_exists.1 open_
  exact Option.isSome_of_eq_some (Option.filter_eq_some_iff.1 kept).1

/-- A packet is handed on wherever a gap is given up on. -/
theorem charged_forceDrain (s : Session) : Charged s s.forceDrain.1 s.forceDrain.2 := by
  have drained (t : Session) : Charged t { t with redo := 0 }.dropPassedRequest.drainContiguous.1
      { t with redo := 0 }.dropPassedRequest.drainContiguous.2 := by
    have hands := hands_drainContiguous { t with redo := 0 }.dropPassedRequest
    refine hands.nothing.charged (fun open_ => ?_) (.inr hands.redo)
    exact isSome_of_dropPassedRequest (s := { t with redo := 0 }) (hands.request ▸ open_)
  unfold forceDrain
  cases s.backlog.bind Backlog.popOldest with
  | none => exact drained s
  | some popped =>
    have popped : Charged s ({ s with backlog := some popped.2 }.release popped.1).1
        (.log (.forcingDrain s.sensor s.lastSequence popped.1.sequence s.redo) ::
          .tick .forcedDrains :: ({ s with backlog := some popped.2 }.release popped.1).2) := by
      constructor <;> simp [release, handOff, pending, spare]
    exact popped.append (drained _)

theorem calm_forceDrain (buffers : s.backlog.isSome = true) : s.forceDrain.1.Calm := by
  unfold forceDrain
  cases s.backlog.bind Backlog.popOldest with
  | none => exact (hands_drainContiguous _).calm ⟨buffers, rfl⟩
  | some popped => exact (hands_drainContiguous _).calm ⟨rfl, rfl⟩

theorem charged_makeRoom (s : Session) : Charged s s.makeRoom.1 s.makeRoom.2 := by
  unfold makeRoom
  split
  · exact charged_forceDrain s
  · exact (hands_nil s).charged

/-- With room made, a further request may be made. -/
theorem Mindful.makeRoom (h : s.Mindful) : s.makeRoom.1.Mindful ∧ s.makeRoom.1.redo < maxRedo := by
  unfold Session.makeRoom
  split
  · have calm := calm_forceDrain h.buffers
    exact ⟨calm.mindful, calm.redo.symm ▸ (by decide : 0 < maxRedo)⟩
  · rename_i left
    rw [isExhausted, Bool.or_eq_true, not_or, decide_eq_true_eq] at left
    exact ⟨h, Nat.lt_of_not_le left.2⟩

/-- What is counted for a packet that is offered. One that may proceed leaves a session that has not
asked. -/
structure Offered (s : Session) (r : Session × Verdict × List Effect) : Prop where
  charged : Charged s r.1 r.2.2
  mindful : r.1.Mindful
  calm : r.2.1 = .proceed → r.1.Calm

/-- The first request for a gap opens it, and a further one is among those that are left. -/
theorem Mindful.charged_ask (h : s.Mindful) (few : s.redo < maxRedo) (now : Micros) (event : Event) :
    Charged s { s with
        backlog := some b, redo := s.redo + 1, request := Request.of? s.following now }
      ((if s.redo + 1 = 1 then [.tick .resendTotal] else []) ++
        [.tick .resendRequests, .log event]) := by
  -- Without an open request this is the first one, or one that is forgotten at once.
  have known : (Request.of? s.following now).isSome = true → s.redo ≠ 0 → s.request.isSome = true := by
    intro asks before
    obtain ⟨r, made⟩ := Option.isSome_iff_exists.1 asks
    refine Option.isSome_iff_ne_none.2 fun none => ?_
    exact (h.quiet none).elim before (Request.of?_eq_some made).1
  rw [maxRedo] at few
  by_cases none : s.redo = 0
  · constructor <;> simp [none, pending, spare, maxRedo]
    split <;> simp
  · rw [if_neg (by omega)]
    constructor
    · unfold pending
      dsimp only
      split
      · rw [if_pos (known ‹_› none)]
        simp
      · simp
    · simp
    · simp [none, spare, maxRedo]
      omega
    · simp

theorem Mindful.park (h : s.Mindful) (few : s.redo < maxRedo) (b : Backlog) (p : Parked) :
    Offered s (s.park b p) := by
  have repeated : Uncounted (if (b.insert p).2 = .duplicate then [.tick .duplicates] else []) := by
    intro tally own
    split
    · exact if_neg (Tally.ne_of_ofGap own)
    · rfl
  unfold Session.park
  dsimp only
  split
  · refine ⟨?_, ⟨rfl, fun none => .inr ?_⟩, nofun⟩
    · have waits : Charged s s _ := repeated.charged id (.inl rfl)
      rw [List.append_assoc]
      exact waits.append (h.charged_ask few p.arrival _)
    · by_contra nonzero
      exact nomatch (if_neg nonzero).symm.trans none
  · exact ⟨repeated.charged id (.inl rfl), ⟨rfl, h.quiet⟩, nofun⟩

theorem Mindful.accept (h : s.Mindful) (sequence : Nat) : Offered s (s.accept sequence) := by
  have drained := hands_drainAll { s with redo := 0 }
  have calm : { s with redo := 0 }.drainAll.1.Calm := drained.calm ⟨h.buffers, rfl⟩
  unfold Session.accept
  dsimp only
  split
  · split
    · refine ⟨Uncounted.charged ?_ nofun (.inr calm.redo), Calm.mindful ⟨calm.1, calm.2⟩,
        fun _ => ⟨calm.1, calm.2⟩⟩
      exact fun tally own => (Effect.total_log ..).trans (drained.nothing tally own)
    · refine ⟨Uncounted.charged (fun tally own => ?_) (fun open_ => ?_) (.inr calm.redo),
        Calm.mindful ⟨calm.1, calm.2⟩, nofun⟩
      · simp [drained.nothing tally own, Tally.ne_of_ofGap own]
      · have before := isSome_of_dropPassedRequest open_
        rwa [drained.request] at before
  · split
    · rename_i answer
      obtain ⟨r, open_, -⟩ := Option.map_eq_some_iff.1 answer
      refine ⟨?_, Calm.mindful ⟨h.buffers, rfl⟩, fun _ => ⟨h.buffers, rfl⟩⟩
      constructor <;> simp [pending, spare, open_]
    · refine ⟨Uncounted.charged (fun _ _ => rfl) id (.inr rfl), Calm.mindful ⟨h.buffers, rfl⟩,
        fun _ => ⟨h.buffers, rfl⟩⟩

theorem Mindful.settle (h : s.Mindful) (few : s.redo < maxRedo) (p : Parked) :
    Offered s (s.settle p) := by
  unfold Session.settle
  split
  · obtain ⟨b, hb⟩ := Option.isSome_iff_exists.1 h.buffers
    rw [hb]
    exact h.park few b p
  · exact h.accept p.sequence

theorem Mindful.offer (h : s.Mindful) (sequence : Nat) (now : Micros) (frame : Bytes) :
    Offered s (s.offer sequence now frame) := by
  unfold Session.offer
  split
  · obtain ⟨mindful, few⟩ := h.makeRoom
    obtain ⟨charged, mindful', calm⟩ := mindful.settle few ⟨sequence, now, frame⟩
    exact ⟨(charged_makeRoom s).append charged, mindful', calm⟩
  · exact h.accept sequence

/-! ## One frame -/

theorem Offered.conclude {r : Session × Verdict × List Effect} (h : Offered s r)
    (header : Frame.Header) (now : Micros) (sampled : Bool) (raw : Bytes) :
    let c := Intake.conclude header now sampled raw r
    Charged s c.1 c.2.2 ∧ c.1.Mindful := by
  obtain ⟨t, verdict, effects⟩ := r
  cases verdict with
  | parked | ask | stale => exact ⟨h.charged, h.mindful⟩
  | proceed =>
    have own := (hands_handOff t header.sequence now sampled raw).append (hands_drainContiguous _)
    dsimp only [Intake.conclude]
    rw [List.append_assoc]
    exact ⟨h.charged.append own.charged, (own.calm (h.calm rfl)).mindful⟩

/-- What a frame counts of gaps is paid by what its session had, and by the gaps that it opens. -/
theorem Mindful.receive (h : s.Mindful) (a : Arrival) :
    Charged s (s.receive true a).1 (s.receive true a).2.2 ∧ (s.receive true a).1.Mindful := by
  have greeted : (s.greet a).1.Mindful := ⟨h.buffers, h.quiet⟩
  have still : Charged s (s.greet a).1 [] := Uncounted.charged (fun _ _ => rfl) id (.inl rfl)
  unfold Session.receive Intake.sequence
  dsimp only
  split
  · refine ⟨Uncounted.charged (fun tally own => ?_) id (.inl rfl), greeted⟩
    simp [Tally.ne_of_ofGap own]
  · rw [if_neg (by decide)]
    obtain ⟨charged, mindful⟩ := (greeted.offer a.header.sequence a.now a.raw).conclude
      a.header a.now (s.greet a).2 a.raw
    exact ⟨still.append charged, mindful⟩

end Session

/-! ## All sessions together -/

/-- With resending on, every session buffers, and knows what it has asked for. -/
structure Intake.Minded (i : Intake) : Prop where
  resend : i.resend = true
  buffering : i.registry.buffering = true
  keyed : i.Keyed
  mindful : ∀ id s, i.registry.get? id = some s → s.Mindful

theorem Intake.mindful_new (id : SensorId) (peer : Endpoint) : (Session.new id peer true).Mindful :=
  ⟨rfl, fun _ => .inl rfl⟩

theorem Intake.minded_new : (new true).Minded where
  resend := rfl
  buffering := rfl
  keyed := keyed_empty true true
  mindful id _ found := nomatch (Registry.get?_empty true id).symm.trans found

theorem Intake.Minded.sessionFor {i : Intake} (h : i.Minded) (a : Arrival) :
    (i.sessionFor a).Mindful := by
  refine sessionFor_of Session.Mindful ?_ (h.mindful _)
  rw [h.buffering]
  exact mindful_new _ _

theorem Intake.Minded.step {i : Intake} (h : i.Minded) (readings : Counters) (now : Micros)
    (input : Input) : (i.step readings now input).intake.Minded := by
  obtain ⟨resend, buffering⟩ := settings_step i readings now input
  refine ⟨resend.trans h.resend, buffering.trans h.buffering, h.keyed.step readings now input, ?_⟩
  apply forall_sessions_step h.keyed ?_ ?_ h.mindful
  · intro id peer
    rw [h.buffering]
    exact mindful_new id peer
  · intro s a own real mindful
    rw [h.resend]
    exact (mindful.receive a).2

namespace Ledger

variable {l : Ledger} {x : Micros × Input} {a : Arrival} {f : Session → Nat}

/-- What the live sessions have of something, all in all. -/
def held (l : Ledger) (f : Session → Nat) : Nat := (l.intake.live.map f).sum

/-- A session that ends takes along what it has. -/
theorem held_step_of_none (f : Session → Nat) (other : x.2.counted? x.1 = none) :
    (l.step x).held f ≤ l.held f := by
  have left : (l.step x).intake.live = l.intake.live.filter x.2.spares :=
    Intake.live_step_of_uncounted l.readings other
  rw [held, held, left]
  exact (List.filter_sublist.map f).sum_le_sum fun _ _ => Nat.zero_le _

/-- A frame changes what its session has. -/
theorem held_step_of_some (minded : l.intake.Minded) (own : x.2.counted? x.1 = some a)
    (fresh : ∀ id peer, f (.new id peer true) = 0) :
    ∃ others, l.held f = f (l.intake.sessionFor a) + others ∧
      (l.step x).held f = f ((l.intake.sessionFor a).receive true a).1 + others := by
  obtain ⟨now, input⟩ := x
  obtain ⟨rfl, rfl, real⟩ := Intake.Input.counted?_eq_some own
  obtain ⟨others, before, after⟩ := Intake.live_receive minded.keyed real
  refine ⟨(others.map f).sum, ?_, ?_⟩
  · have found : ((l.intake.registry.get? a.header.sensor).toList.map f).sum =
        f (l.intake.sessionFor a) := by
      unfold Intake.sessionFor
      cases l.intake.registry.get? a.header.sensor with
      | none =>
        rw [minded.buffering]
        exact (fresh _ _).symm
      | some s => exact Nat.add_zero _
    rw [held, (before.map f).sum_eq, List.map_append, List.sum_append, found]
  · rw [minded.resend] at after
    exact (after.map f).sum_eq.trans List.sum_cons

/-- A frame counts for its arrival, and what its session counts. -/
theorem reading_step_of_some (minded : l.intake.Minded) (own : x.2.counted? x.1 = some a)
    {tally : Tally} (apart : .packets ≠ tally ∧ .bytes ≠ tally) :
    let effects := ((l.intake.sessionFor a).receive true a).2.2
    (l.step x).readings.reading tally = l.readings.reading tally + Effect.total tally effects +
      if tally = .dispatched then (Effect.packages effects).length else 0 := by
  obtain ⟨now, input⟩ := x
  obtain ⟨rfl, rfl, real⟩ := Intake.Input.counted?_eq_some own
  have counted := Effect.reading_applyAll l.readings
    (l.intake.receive a.now a.peer a.raw).effects tally
  have arrival : Effect.total tally [.tick .packets, .count .bytes a.raw.length] = 0 := by
    simp [apart]
  have total : Effect.total tally (l.intake.receive a.now a.peer a.raw).effects =
      Effect.total tally ((l.intake.sessionFor a).receive true a).2.2 := by
    rw [Intake.effects_receive real, Effect.total_append, Intake.total_preface, arrival,
      Nat.zero_add, minded.resend]
  have packages : Effect.packages (l.intake.receive a.now a.peer a.raw).effects =
      Effect.packages ((l.intake.sessionFor a).receive true a).2.2 := by
    rw [Intake.effects_receive real, Effect.packages_append, Arrival.packages_preface,
      List.nil_append, minded.resend]
  rw [total, packages] at counted
  exact counted

/-- Other inputs count for nothing but themselves. -/
theorem reading_step_of_none (keyed : l.intake.Keyed) (other : x.2.counted? x.1 = none)
    {tally : Tally} (apart : tally.ofInput = false) :
    (l.step x).readings.reading tally = l.readings.reading tally := by
  have counted := Effect.reading_applyAll l.readings
    (l.intake.step l.readings x.1 x.2).effects tally
  rw [Intake.total_step _ _ _ _ (.inr other), Intake.Input.total_charges_of_ne apart,
    Intake.packages_step_of_uncounted keyed other, List.length_nil, ite_self] at counted
  exact counted

/-- The counters are in order, with room for all that the live sessions may still count. -/
structure Consistent (l : Ledger) : Prop where
  minded : l.intake.Minded
  success : l.readings.reading .resendSuccess + l.held Session.pending ≤
    l.readings.reading .resendTotal
  gaps : l.readings.reading .resendTotal ≤ l.readings.reading .resendRequests
  requests : l.readings.reading .resendRequests + l.held Session.spare ≤
    Session.maxRedo * l.readings.reading .resendTotal
  forced : l.readings.reading .forcedDrains ≤ l.readings.reading .dispatched

theorem Consistent.step_none (h : l.Consistent) (other : x.2.counted? x.1 = none) :
    (l.step x).Consistent := by
  have same {tally : Tally} (apart : tally.ofInput = false) :=
    reading_step_of_none h.minded.keyed other apart
  have pending := held_step_of_none (l := l) Session.pending other
  have spare := held_step_of_none (l := l) Session.spare other
  refine ⟨h.minded.step l.readings x.1 x.2, ?_, ?_, ?_, ?_⟩
  · rw [same rfl, same rfl]
    exact Nat.le_trans (Nat.add_le_add_left pending _) h.success
  · rw [same rfl, same rfl]
    exact h.gaps
  · rw [same rfl, same rfl]
    exact Nat.le_trans (Nat.add_le_add_left spare _) h.requests
  · rw [same rfl, same rfl]
    exact h.forced

theorem Consistent.step_some (h : l.Consistent) (own : x.2.counted? x.1 = some a) :
    (l.step x).Consistent := by
  obtain ⟨paid, opened, asked, drained⟩ := ((h.minded.sessionFor a).receive a).1
  have counted {tally : Tally}
      (apart : .packets ≠ tally ∧ .bytes ≠ tally) (kept : tally ≠ .dispatched) :
      (l.step x).readings.reading tally = l.readings.reading tally +
        Effect.total tally ((l.intake.sessionFor a).receive true a).2.2 := by
    rw [reading_step_of_some h.minded own apart, if_neg kept, Nat.add_zero]
  have handed : l.readings.reading .dispatched +
      (Effect.packages ((l.intake.sessionFor a).receive true a).2.2).length ≤
        (l.step x).readings.reading .dispatched := by
    rw [reading_step_of_some h.minded own (by decide), if_pos rfl]
    omega
  obtain ⟨others, pending, pending'⟩ :=
    held_step_of_some (f := Session.pending) h.minded own fun _ _ => rfl
  obtain ⟨rest, spare, spare'⟩ :=
    held_step_of_some (f := Session.spare) h.minded own fun _ _ => rfl
  obtain ⟨minded, success, gaps, requests, forced⟩ := h
  refine ⟨minded.step l.readings x.1 x.2, ?_, ?_, ?_, ?_⟩
  · rw [counted (by decide) (by decide), counted (by decide) (by decide), pending']
    omega
  · rw [counted (by decide) (by decide), counted (by decide) (by decide)]
    exact Nat.add_le_add gaps opened
  · rw [counted (by decide) (by decide), counted (by decide) (by decide), spare', Nat.mul_add]
    omega
  · rw [counted (by decide) (by decide)]
    exact Nat.le_trans (Nat.add_le_add forced drained) handed

theorem Consistent.step (h : l.Consistent) (x : Micros × Input) : (l.step x).Consistent := by
  cases own : x.2.counted? x.1 with
  | none => exact h.step_none own
  | some a => exact h.step_some own

theorem consistent_after (inputs : List (Micros × Input)) :
    (after true true inputs).Consistent := by
  induction inputs using List.reverseRecOn with
  | nil =>
    have none : (Intake.new true).live = [] := ShardedMap.values_empty _
    have nothing (f : Session → Nat) : (after true true []).held f = 0 :=
      congrArg (fun sessions => (sessions.map f).sum) none
    refine ⟨Intake.minded_new, ?_, Nat.le_refl _, ?_, Nat.le_refl _⟩
    · rw [nothing]
      exact Nat.le_refl _
    · rw [nothing]
      exact Nat.le_refl _
  | append_singleton inputs x ih =>
    rw [after_append_singleton]
    exact ih.step x

end Ledger

/-- With resending on, after every run, over all sensors: there are no more successes than gaps that were
asked for, no more such gaps than requests, no more than `maxRedo` requests for each of them, and no
more gaps given up on than packages handed on. -/
theorem Intake.resends_consistent (inputs : List (Micros × Input)) :
    let c := (Ledger.after true true inputs).readings
    c.resendSuccess ≤ c.resendTotal ∧ c.resendTotal ≤ c.resendRequests ∧
      c.resendRequests ≤ Session.maxRedo * c.resendTotal ∧ c.forcedDrains ≤ c.dispatched := by
  intro c
  obtain ⟨-, success, gaps, requests, forced⟩ := Ledger.consistent_after inputs
  exact ⟨Nat.le_of_add_right_le success, gaps, Nat.le_of_add_right_le requests, forced⟩

/-- A gap that is closed by the frame that was asked for. -/
example :
    let c := (Ledger.after true true [Intake.probe 0 10, Intake.probe 1 12, Intake.probe 2 11]).readings
    c.resendSuccess = 1 ∧ c.resendTotal = 1 ∧ c.resendRequests = 1 ∧ c.dispatched = 3 := by
  decide +kernel

end SensorIngest
