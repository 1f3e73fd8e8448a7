import Mathlib.Algebra.GroupWithZero.Nat
import SensorIngest.Proofs.Intake.Delivery
import SensorIngest.Proofs.Lane.Worker
import SensorIngest.Proofs.Session.Balance
import SensorIngest.Proofs.Timeline.Run

/-!
# How a device clock follows a sensor

A timeline takes any packet for the next one. It starts over when the sequence does not advance, and
notes a gap when it skips (`Timeline.take_eq_reset`, `Timeline.take_eq_broken`). A clock of zero
stands for no packet at all, so this needs a clock that never comes back to zero. It does not if
packets arrive later than their samples began and do not last longer in all than 64 bits hold
(`Timeline.Runs`). For such packets a worker knows the sequence of the last one (`Worker.Tracks`), and
what it publishes of them tells how often they go back or skip (`Worker.Tracks.results`).
-/

namespace SensorIngest

theorem Frame.duration_nonneg {frame : Frame} {span : Frame.Span} (h : frame.span = .ok span) :
    0 ≤ span.duration := by
  unfold Frame.span at h
  split at h
  · cases h
  · unfold Frame.Span.ofBody at h
    split at h
    · dsimp only at h
      split at h
      · cases h
      · cases h
        exact Int.natCast_nonneg _
    · cases h

/-! ## A clock that runs -/

namespace Timeline

variable {t : Timeline} {p : Packet} {total : Micros}

/-- A packet that arrives after the time that its samples cover, with a sequence that stays itself, like
the one after it, in 64 bits. -/
structure Packet.Usable (p : Packet) : Prop where
  sequence : 0 ≤ p.sequence ∧ p.sequence < 2 ^ 63 - 1
  counts : 0 ≤ p.duration
  later : p.duration < p.arrival
  arrival : p.arrival < 2 ^ 63

/-- A clock that has started, after packets of a total duration. It may have wrapped around, but what it
stands for is not far: every microsecond that made up for lost fractions took three sequences. -/
structure Runs (t : Timeline) (total : Micros) : Prop where
  last : 0 ≤ t.lastSequence ∧ t.lastSequence < 2 ^ 63 - 1
  few : t.fills < fillPeriod
  clock : ∃ z, t.clock = Word.signed z ∧ 0 < z ∧ 3 * (z - 2 ^ 63 - total) + t.fills ≤ t.lastSequence

/-- A clock that has wrapped around once at most is not zero. -/
theorem Runs.clock_ne_zero (h : t.Runs total) (short : total ≤ 2 ^ 62) : t.clock ≠ 0 := by
  obtain ⟨last, -, z, clock, pos, high⟩ := h
  rw [clock]
  dsimp only [Micros] at *
  exact Word.signed_ne_zero pos (by omega)

theorem due_eq (last : 0 ≤ t.lastSequence ∧ t.lastSequence < 2 ^ 63 - 1) :
    Word.signed (t.lastSequence + 1) = t.lastSequence + 1 := Word.signed_eq (by omega) (by omega)

theorem Packet.Usable.anchor_eq (usable : p.Usable) :
    Word.signed (p.arrival - p.duration) = p.anchor := by
  obtain ⟨-, counts, later, arrival⟩ := usable
  unfold anchor
  dsimp only [Micros] at *
  exact Word.signed_eq (by omega) (by omega)

theorem runs_restartAt (usable : p.Usable) (started : 0 ≤ total) :
    (t.restartAt p.sequence p.anchor).Runs total where
  last := usable.sequence
  few := Nat.zero_lt_succ _
  clock := by
    obtain ⟨sequence, counts, later, arrival⟩ := usable
    have anchored : p.anchor = p.arrival - p.duration := rfl
    dsimp only [restartAt, Micros] at *
    exact ⟨p.anchor, (Word.signed_eq (by omega) (by omega)).symm, by omega, by omega⟩

theorem Runs.advance (h : t.Runs total) {duration : Micros} (counts : 0 ≤ duration)
    (next : t.lastSequence + 1 < 2 ^ 63 - 1) (anchor : Micros) (fill : Bool) :
    (t.advance duration anchor fill).Runs (total + duration) := by
  obtain ⟨last, few, z, clock, pos, high⟩ := h
  have onward : 0 ≤ Word.signed (t.lastSequence + 1) ∧
      Word.signed (t.lastSequence + 1) < 2 ^ 63 - 1 := by
    rw [due_eq last]
    omega
  have moved : Word.signed (t.clock + duration) = Word.signed (z + duration) := by
    rw [clock, Word.signed_signed_add]
  unfold fillPeriod at few
  unfold Timeline.advance
  dsimp only [Micros] at *
  rw [moved, Word.signed_signed_add]
  split
  · refine ⟨onward, Nat.zero_lt_succ _, z + duration, rfl, by omega, ?_⟩
    dsimp only [Micros]
    rw [due_eq last]
    omega
  · split
    · refine ⟨onward, ‹_›, z + duration, rfl, by omega, ?_⟩
      dsimp only [Micros]
      rw [due_eq last]
      omega
    · rename_i full
      unfold fillPeriod at full
      refine ⟨onward, Nat.zero_lt_succ _, z + duration + 1, rfl, by omega, ?_⟩
      dsimp only [Micros]
      rw [due_eq last]
      omega

/-- The first packet of all starts the clock. -/
theorem runs_take_of_idle (idle : t.clock = 0) (usable : p.Usable) (started : 0 ≤ total) :
    (t.take p).1.Runs total := by
  unfold take next
  rw [usable.anchor_eq]
  dsimp only
  rw [if_pos idle]
  exact runs_restartAt usable started

/-- A clock that runs goes on running. -/
theorem Runs.take (h : t.Runs total) (started : 0 ≤ total) (usable : p.Usable) :
    (t.take p).1.Runs (total + p.duration) := by
  have started : 0 ≤ total + p.duration := Int.add_nonneg started usable.counts
  have further (next : p.sequence = Word.signed (t.lastSequence + 1)) :
      t.lastSequence + 1 < 2 ^ 63 - 1 := by
    rw [due_eq h.last] at next
    exact next ▸ usable.sequence.2
  have restarts : (t.restartAt p.sequence (Word.signed (p.arrival - p.duration))).Runs
      (total + p.duration) := usable.anchor_eq ▸ runs_restartAt usable started
  unfold Timeline.take
  fun_cases next t p.sequence p.fill p.arrival p.duration with
  | case1 | case2 | case4 => exact restarts
  | case3 _ _ _ next | case6 _ _ _ _ next =>
    exact h.advance usable.counts (further (not_not.1 next)) _ _
  | case5 _ _ _ _ next =>
    obtain ⟨last, few, z, clock, pos, high⟩ := h
    have onward := further (not_not.1 next)
    have counts := usable.counts
    refine ⟨?_, few, z, clock, pos, ?_⟩
    · change 0 ≤ Word.signed (t.lastSequence + 1) ∧ Word.signed (t.lastSequence + 1) < 2 ^ 63 - 1
      rw [due_eq last]
      omega
    · change 3 * (z - 2 ^ 63 - (total + p.duration)) + t.fills ≤ Word.signed (t.lastSequence + 1)
      rw [due_eq last]
      dsimp only [Micros] at *
      omega

/-- The clock starts over where the sequence does not advance. -/
theorem take_eq_reset (last : 0 ≤ t.lastSequence ∧ t.lastSequence < 2 ^ 63 - 1) (p : Packet) :
    (t.take p).2 = .reset ↔ t.clock = 0 ∨ p.sequence ≤ t.lastSequence := by
  have due := due_eq last
  unfold take
  fun_cases next t p.sequence p.fill p.arrival p.duration with
  | case1 _ idle => exact iff_of_true rfl (.inl idle)
  | case2 _ _ running apart =>
    dsimp only
    split
    · exact iff_of_true rfl (.inr ‹_›)
    · exact iff_of_false (by rintro ⟨⟩) (not_or.2 ⟨running, ‹_›⟩)
  | case3 _ _ running next | case4 _ _ _ running next | case5 _ _ _ running next
  | case6 _ _ _ running next =>
    refine iff_of_false (by rintro ⟨⟩) (not_or.2 ⟨running, ?_⟩)
    rw [(not_not.1 next).trans due]
    omega

/-- A gap is noted where the sequence skips. -/
theorem take_eq_broken (last : 0 ≤ t.lastSequence ∧ t.lastSequence < 2 ^ 63 - 1) (p : Packet) :
    (t.take p).2 = .broken ↔ t.clock ≠ 0 ∧ t.lastSequence + 1 < p.sequence := by
  have due := due_eq last
  unfold take
  fun_cases next t p.sequence p.fill p.arrival p.duration with
  | case1 _ idle => exact iff_of_false (by rintro ⟨⟩) fun skips => skips.1 idle
  | case2 _ _ running apart =>
    have apart : p.sequence ≠ t.lastSequence + 1 := due ▸ apart
    dsimp only
    split
    · exact iff_of_false (by rintro ⟨⟩) fun skips => by omega
    · exact iff_of_true rfl ⟨running, by omega⟩
  | case3 _ _ running next | case4 _ _ _ running next | case5 _ _ _ running next
  | case6 _ _ _ running next =>
    refine iff_of_false (by rintro ⟨⟩) fun skips => Int.ne_of_gt skips.2 ?_
    exact (not_not.1 next).trans due

end Timeline

/-! ## Workers -/

/-- A packet that can be placed in time, arrives after the time that its samples cover and has a
sequence that stays itself, like the one after it, as a signed number of 64 bits. -/
def Parked.Usable (p : Parked) : Prop :=
  ∃ frame span, Frame.decode p.frame = .ok frame ∧ frame.span = .ok span ∧
    span.duration < p.arrival ∧ p.arrival < 2 ^ 63 ∧ p.sequence < 2 ^ 63 - 1

instance (p : Parked) : Decidable p.Usable :=
  let check (span : Frame.Span) :=
    decide (span.duration < p.arrival ∧ p.arrival < 2 ^ 63 ∧ p.sequence < 2 ^ 63 - 1)
  decidable_of_iff
    ((Frame.decode p.frame).toOption.any fun frame => frame.span.toOption.any check) <| by
      unfold Parked.Usable
      cases Frame.decode p.frame with
      | error => simp [Except.toOption]
      | ok frame => cases spans : frame.span <;> simp [Except.toOption, spans, check]

theorem Parked.Usable.bearable {p : Parked} (h : p.Usable) : Session.Bearable p.sequence := by
  obtain ⟨_, _, _, _, _, _, small⟩ := h
  unfold Session.Bearable
  omega

namespace Package

variable {p : Package} {ps : List Package}

/-- The packet as the timeline of its sensor takes it. -/
def timed (p : Package) (span : Frame.Span) : Timeline.Packet :=
  ⟨Word.signed p.sequence, span.fill, p.arrival, span.duration⟩

theorem sequence_timed (p : Package) (span : Frame.Span) :
    (p.timed span).sequence = Word.signed p.sequence := by
  dsimp only [timed]

/-- The same, if the packet can be placed in time. -/
def timed? (p : Package) : Option Timeline.Packet :=
  (Frame.decode p.frame).toOption.bind fun frame => frame.span.toOption.map p.timed

theorem timed?_eq_some {q : Timeline.Packet} :
    p.timed? = some q ↔
      ∃ frame span, Frame.decode p.frame = .ok frame ∧ frame.span = .ok span ∧ q = p.timed span := by
  unfold timed?
  cases decoded : Frame.decode p.frame with
  | error => simp [Except.toOption]
  | ok frame => cases spanned : frame.span <;> simp [Except.toOption, spanned, eq_comm]

/-- How long the samples of a packet last. -/
def duration (p : Package) : Micros := (p.timed?.map (·.duration)).getD 0

/-- How long the samples of packets last in all. -/
def lasting (ps : List Package) : Micros := (ps.map duration).sum

theorem duration_eq {frame : Frame} {span : Frame.Span} (decoded : Frame.decode p.frame = .ok frame)
    (spanned : frame.span = .ok span) : p.duration = span.duration := by
  rw [duration, timed?_eq_some.2 ⟨frame, span, decoded, spanned, rfl⟩]
  rfl

theorem duration_nonneg (p : Package) : 0 ≤ p.duration := by
  unfold duration
  cases timed : p.timed? with
  | none => exact Int.le_refl 0
  | some q =>
    obtain ⟨frame, span, -, spanned, rfl⟩ := timed?_eq_some.1 timed
    exact Frame.duration_nonneg spanned

theorem usable_timed (usable : p.parked.Usable) :
    ∃ q, p.timed? = some q ∧ q.Usable ∧ q.sequence = p.sequence ∧ p.duration = q.duration := by
  obtain ⟨frame, span, decoded, spanned, later, arrival, small⟩ := usable
  have small : p.sequence < 2 ^ 63 - 1 := small
  have signs : Word.signed p.sequence = p.sequence := Word.signed_eq (by omega) (by omega)
  have timed : p.timed? = some (p.timed span) := timed?_eq_some.2 ⟨frame, span, decoded, spanned, rfl⟩
  have sequence : (p.timed span).sequence = p.sequence := (p.sequence_timed span).trans signs
  refine ⟨p.timed span, timed, ⟨?_, Frame.duration_nonneg spanned, later, arrival⟩, sequence,
    duration_eq decoded spanned⟩
  rw [sequence]
  omega

theorem lasting_cons (p : Package) (ps : List Package) :
    lasting (p :: ps) = p.duration + lasting ps := List.sum_cons

theorem lasting_nonneg (ps : List Package) : 0 ≤ lasting ps := by
  induction ps with
  | nil => exact Int.le_refl 0
  | cons p ps ih =>
    rw [lasting_cons]
    exact Int.add_nonneg p.duration_nonneg ih

end Package

namespace Lane.Worker

variable {id : SensorId} {w : Worker} {last? : Option Nat} {p : Package} {ps : List Package}
  {total : Micros}

/-- A worker follows a sensor: it knows the sequence of the last packet, and the clock runs. -/
structure Tracks (id : SensorId) (w : Worker) (last? : Option Nat) (total : Micros) : Prop where
  last : (w.timelines[id]?).map (·.lastSequence) = last?.map Nat.cast
  running : ∀ t, w.timelines[id]? = some t → t.Runs total

/-- The timeline that a packet finds. -/
def timeline (w : Worker) (id : SensorId) : Timeline :=
  (w.timelines[id]?).getD { threshold := w.settings.threshold }

/-- The clock stands still before the first packet, and runs afterwards. -/
theorem Tracks.cases (h : Tracks id w last? total) :
    last? = none ∧ (w.timeline id).clock = 0 ∧ (w.timeline id).lastSequence = 0 ∨
      ∃ last, last? = some last ∧ (w.timeline id).Runs total ∧ (w.timeline id).lastSequence = last := by
  unfold timeline
  have last := h.last
  cases found : w.timelines[id]? with
  | none =>
    rw [found] at last
    exact .inl ⟨Option.map_eq_none_iff.1 last.symm, rfl, rfl⟩
  | some t =>
    rw [found] at last
    obtain ⟨n, known, same⟩ := Option.map_eq_some_iff.1 last.symm
    exact .inr ⟨n, known, h.running t found, same.symm⟩

/-- What a packet that can be placed in time leaves of its sensor. -/
theorem handle_timed (w : Worker) {q : Timeline.Packet} (timed : p.timed? = some q) :
    let moved := (w.timeline p.sensor).take q
    (w.handle (.packet p)).1.timelines[p.sensor]? = some moved.1 ∧
      (w.handle (.packet p)).1.placements[p.sensor]? =
        some ⟨p.sequence, moved.1.clock, p.arrival, moved.2⟩ := by
  obtain ⟨frame, span, decoded, spanned, rfl⟩ := Package.timed?_eq_some.1 timed
  have process : (w.handle (.packet p)).1 = (w.place p span).1 := by
    rw [Worker.handle, Worker.process, decoded]
    dsimp only
    rw [spanned]
  rw [process, place, Timeline.take, timeline]
  dsimp only [Package.timed]
  exact ⟨Std.ExtTreeMap.getElem?_insert_self, Std.ExtTreeMap.getElem?_insert_self⟩

/-- What is published of a packet tells whether it is the first one, goes back or skips. -/
theorem Tracks.handle (h : Tracks p.sensor w last? total) (started : 0 ≤ total)
    (usable : p.parked.Usable) :
    let v := (w.handle (.packet p)).1
    Tracks p.sensor v (some p.sequence) (total + p.duration) ∧
      ∃ placement, v.placements[p.sensor]? = some placement ∧ (total ≤ 2 ^ 62 →
        (placement.kind = .reset ↔ ∀ last ∈ last?, p.sequence ≤ last) ∧
        (placement.kind = .broken ↔ ∃ last ∈ last?, last + 1 < p.sequence)) := by
  intro v
  obtain ⟨q, timed, fine, sequence, duration⟩ := Package.usable_timed usable
  obtain ⟨timeline, placement⟩ := w.handle_timed timed
  rw [duration]
  refine ⟨⟨?_, ?_⟩, _, placement, fun short => ?_⟩
  · rw [timeline, Option.map_some, Timeline.take, Timeline.lastSequence_next, sequence]
    rfl
  · intro t found
    cases timeline.symm.trans found
    rcases h.cases with ⟨-, idle, -⟩ | ⟨-, -, runs, -⟩
    · exact Timeline.runs_take_of_idle idle fine (Int.add_nonneg started fine.counts)
    · exact runs.take started fine
  · dsimp only
    rcases h.cases with ⟨rfl, idle, zero⟩ | ⟨last, rfl, runs, same⟩
    · have range : 0 ≤ (w.timeline p.sensor).lastSequence ∧
          (w.timeline p.sensor).lastSequence < 2 ^ 63 - 1 := by
        rw [zero]
        decide
      rw [Timeline.take_eq_reset range, Timeline.take_eq_broken range]
      exact ⟨iff_of_true (.inl idle) (by simp), iff_of_false (fun h => h.1 idle) (by simp)⟩
    · have running := runs.clock_ne_zero short
      rw [Timeline.take_eq_reset runs.last, Timeline.take_eq_broken runs.last, sequence, same]
      simp only [running, Int.ofNat_le, false_or, Option.mem_def, Option.some.injEq, forall_eq',
        ne_eq, not_false_eq_true, true_and, exists_eq_left']
      omega

/-- How many placements are of a kind. -/
def outcomes (kind : Adjustment) (results : List (Item × Option Placement)) : Nat :=
  results.countP (·.2.any (·.kind = kind))

theorem outcomes_cons (kind : Adjustment) (item : Item) {placement? : Option Placement}
    {placement : Placement} (published : placement? = some placement)
    (rest : List (Item × Option Placement)) :
    outcomes kind ((item, placement?) :: rest) =
      (decide (placement.kind = kind)).toNat + outcomes kind rest := by
  rw [published, outcomes, List.countP_cons, Nat.add_comm]
  by_cases same : placement.kind = kind <;> simp [same, outcomes]

/-- From one packet on, the clock starts over where the sequence goes back, and notes a gap where it
skips, unless the packets last too long for the clock. -/
theorem Tracks.results {last : Nat} (h : Tracks id w (some last) total) (started : 0 ≤ total)
    (fine : ∀ p ∈ ps, p.sensor = id ∧ p.parked.Usable) :
    let results := w.results (ps.map .packet)
    (total + Package.lasting ps ≤ 2 ^ 62 →
      outcomes .reset results = steps (fun last next => next ≤ last) last ps ∧
        outcomes .broken results = steps (fun last next => last + 1 < next) last ps) ∧
      Tracks id (w.handleAll (ps.map .packet)).1 (some (lastSequence last ps))
        (total + Package.lasting ps) := by
  induction ps generalizing w last total with
  | nil => exact ⟨fun _ => ⟨rfl, rfl⟩, (Int.add_zero total).symm ▸ h⟩
  | cons p ps ih =>
    obtain ⟨⟨rfl, usable⟩, rest⟩ := List.forall_mem_cons.1 fine
    obtain ⟨tracks, placement, published, kinds⟩ := h.handle started usable
    have lasts := p.duration_nonneg
    have ahead := Package.lasting_nonneg ps
    obtain ⟨outcomes, after⟩ := ih tracks (Int.add_nonneg started lasts) rest
    rw [Package.lasting_cons, ← Int.add_assoc]
    refine ⟨fun short => ?_, ?_⟩
    · obtain ⟨resets, gaps⟩ := outcomes short
      obtain ⟨reset, broken⟩ := kinds (by
        change total + p.duration + Package.lasting ps ≤ 2 ^ 62 at short
        dsimp only [Micros] at *
        omega)
      simp only [Option.mem_def, Option.some.injEq, forall_eq', exists_eq_left'] at reset broken
      refine ⟨?_, ?_⟩
      · refine (outcomes_cons _ _ published _).trans ?_
        rw [resets, decide_eq_decide.2 reset]
        rfl
      · refine (outcomes_cons _ _ published _).trans ?_
        rw [gaps, decide_eq_decide.2 broken]
        rfl
    · rw [lastSequence_cons]
      exact after

/-- The clock also starts over at the first packet of all. -/
theorem Tracks.first (h : Tracks id w none 0)
    (fine : ∀ q ∈ p :: ps, q.sensor = id ∧ q.parked.Usable) :
    let results := w.results ((p :: ps).map .packet)
    (Package.lasting (p :: ps) ≤ 2 ^ 62 →
      outcomes .reset results = steps (fun last next => next ≤ last) p.sequence ps + 1 ∧
        outcomes .broken results = steps (fun last next => last + 1 < next) p.sequence ps) ∧
      Tracks id (w.handleAll ((p :: ps).map .packet)).1 (some (lastSequence p.sequence ps))
        (Package.lasting (p :: ps)) := by
  obtain ⟨⟨rfl, usable⟩, rest⟩ := List.forall_mem_cons.1 fine
  obtain ⟨tracks, placement, published, kinds⟩ := h.handle (Int.le_refl 0) usable
  obtain ⟨resets, gaps⟩ := kinds (by decide)
  rw [Int.zero_add] at tracks
  obtain ⟨outcomes, after⟩ := tracks.results p.duration_nonneg rest
  have reset : placement.kind = .reset := resets.2 nofun
  refine ⟨fun short => ?_, after⟩
  obtain ⟨resets, gaps⟩ := outcomes short
  refine ⟨?_, ?_⟩
  · refine (outcomes_cons _ _ published _).trans ?_
    rw [resets, reset]
    exact Nat.add_comm _ _
  · refine (outcomes_cons _ _ published _).trans ?_
    rw [gaps, reset]
    exact Nat.zero_add _

end Lane.Worker

end SensorIngest
