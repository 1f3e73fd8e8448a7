import Mathlib.Algebra.Order.BigOperators.Group.List
import Mathlib.Algebra.Order.Ring.Int
import SensorIngest.Configuration.Basic
import SensorIngest.Proofs.Frame.Access
import SensorIngest.Proofs.Timeline.Run

/-!
# The arithmetic of a timeline

`Checked.run` gives nothing where a number of 64 bits is passed. For packets as they arrive (`Within`)
all that can be passed are the limits that the clock is compared with, a threshold before and after
the arrival clock: a run is in range exactly if none of its packets is compared with such a limit
(`Overflows`). Clocks stay far from the ends however long the run is, since they advance by durations,
whose sum is bounded, and by a microsecond for every third packet in sequence, and sequences are
bounded (`InReach`).

A threshold is given in milliseconds and clamped to 64 bits when it is turned into microseconds. A
clamped threshold is itself in range, but an arrival clock plus it is not.
-/

namespace SensorIngest.Timeline

open SensorIngest.Checked (int int_eq int_eq_none bind_of)

variable {t : Timeline} {p : Packet} {ps : List Packet} {r : Timeline × Adjustment} {total : Micros}

/-! ## Packets as they arrive -/

/-- Sequence, arrival clock and duration are those of a packet that can arrive. -/
structure Packet.Credible (p : Packet) : Prop where
  sequence : 0 ≤ p.sequence ∧ p.sequence ≤ 2 ^ 63 - 2
  arrival : 0 ≤ p.arrival ∧ p.arrival ≤ 2 ^ 60
  duration : 0 ≤ p.duration ∧ p.duration ≤ 2 ^ 40

/-- Packets that can arrive, of a total duration that can pass. -/
structure Within (ps : List Packet) : Prop where
  credible : ∀ p ∈ ps, p.Credible
  total : (ps.map (·.duration)).sum < 2 ^ 60

/-- The packet is compared with a limit that 64 bits do not hold: it continues the sequence of a running
clock, and the threshold reaches too far before the arrival clock, or too far behind it for a packet that
is not corrected. -/
def Overflows (t : Timeline) (p : Packet) : Prop :=
  t.clock ≠ 0 ∧ p.sequence = t.lastSequence + 1 ∧ 0 < t.threshold ∧
    (p.anchor - t.threshold < -2 ^ 63 ∨
      p.anchor - t.threshold ≤ t.clock + p.duration ∧ 2 ^ 63 ≤ p.anchor + t.threshold)

instance (t : Timeline) (p : Packet) : Decidable (t.Overflows p) :=
  inferInstanceAs (Decidable (_ ∧ _))

/-- Where a timeline can be after packets of a total duration: every microsecond that made up for lost
fractions took three sequences. -/
structure InReach (t : Timeline) (total : Micros) : Prop where
  last : 0 ≤ t.lastSequence ∧ t.lastSequence ≤ 2 ^ 63 - 2
  few : t.fills < fillPeriod
  low : -2 ^ 40 ≤ t.clock
  high : 3 * (t.clock - 2 ^ 60 - total) + t.fills ≤ t.lastSequence

theorem inReach_start (threshold : Micros) : InReach { threshold } 0 where
  last := ⟨Int.le_refl 0, show (0 : Int) ≤ 2 ^ 63 - 2 by decide⟩
  few := Nat.zero_lt_succ _
  low := show -2 ^ 40 ≤ (0 : Int) by decide
  high := show 3 * ((0 : Int) - 2 ^ 60 - 0) + 0 ≤ 0 by decide

theorem InReach.progress (near : t.InReach total) (credible : p.Credible)
    (next : p.sequence = t.lastSequence + 1) : (t.progress p).InReach (total + p.duration) := by
  obtain ⟨last, few, low, high⟩ := near
  obtain ⟨⟨-, most⟩, -, counts, -⟩ := credible
  have onward : 0 ≤ t.lastSequence + 1 ∧ t.lastSequence + 1 ≤ 2 ^ 63 - 2 := by omega
  unfold fillPeriod at few
  unfold Timeline.progress
  dsimp only [Micros] at *
  split
  · refine ⟨onward, Nat.zero_lt_succ _, ?_, ?_⟩ <;> dsimp only [Micros] <;> omega
  · split
    · refine ⟨onward, ‹_›, ?_, ?_⟩ <;> dsimp only [Micros] <;> omega
    · rename_i full
      unfold fillPeriod at full
      refine ⟨onward, Nat.zero_lt_succ _, ?_, ?_⟩ <;> dsimp only [Micros] <;> omega

theorem InReach.restart (started : 0 ≤ total) (credible : p.Credible) :
    (t.restartAt p.sequence p.anchor).InReach (total + p.duration) := by
  obtain ⟨sequence, arrival, duration⟩ := credible
  refine ⟨sequence, Nat.zero_lt_succ _, ?_, ?_⟩
  · change -2 ^ 40 ≤ p.arrival - p.duration
    dsimp only [Micros] at *
    omega
  · change 3 * (p.arrival - p.duration - 2 ^ 60 - (total + p.duration)) + 0 ≤ p.sequence
    dsimp only [Micros] at *
    omega

/-- Every packet that can arrive leaves the timeline in reach. -/
theorem InReach.takes (near : t.InReach total) (started : 0 ≤ total) (credible : p.Credible)
    (takes : t.Takes p r) : r.1.InReach (total + p.duration) := by
  cases takes with
  | reset | broken | corrected => exact .restart started credible
  | aligned _ next => exact near.progress credible next
  | dropped _ next =>
    obtain ⟨last, few, low, high⟩ := near
    obtain ⟨⟨-, most⟩, -, counts, -⟩ := credible
    dsimp only [Micros] at *
    refine ⟨?_, few, low, ?_⟩ <;> dsimp only [Micros] <;> omega

/-! ## Which runs stay in range -/

/-- A clock in reach advances within 64 bits. -/
theorem Checked.advance_isSome (near : t.InReach total) (short : total + p.duration < 2 ^ 60)
    (credible : p.Credible) (next : p.sequence = t.lastSequence + 1) :
    (Checked.advance t p.duration p.anchor p.fill).isSome = true := by
  obtain ⟨last, few, low, high⟩ := near
  obtain ⟨⟨-, most⟩, -, counts, -⟩ := credible
  dsimp only [Micros] at *
  have behind : int (t.lastSequence + 1) = some (t.lastSequence + 1) :=
    int_eq (by omega) (by omega)
  have ahead : int (t.clock + p.duration) = some (t.clock + p.duration) :=
    int_eq (by omega) (by omega)
  have later : int (t.clock + p.duration + 1) = some (t.clock + p.duration + 1) :=
    int_eq (by omega) (by omega)
  rw [Checked.advance, bind_of behind, bind_of ahead]
  dsimp only
  rw [bind_of later]
  split
  · rfl
  · split <;> rfl

/-- Of what a packet in sequence is compared with, only the limits can be out of range. -/
theorem Checked.follow_isSome (near : t.InReach total) (short : total + p.duration < 2 ^ 60)
    (credible : p.Credible) (running : t.clock ≠ 0) (next : p.sequence = t.lastSequence + 1)
    (limited : 0 < t.threshold) :
    (Checked.follow t p p.anchor).isSome = true ↔ ¬ t.Overflows p := by
  obtain ⟨u, advanced⟩ := Option.isSome_iff_exists.1 (advance_isSome near short credible next)
  obtain ⟨last, few, low, high⟩ := near
  obtain ⟨sequence, arrival, duration⟩ := credible
  have anchored : p.anchor = p.arrival - p.duration := rfl
  dsimp only [Micros] at *
  have due : int (t.lastSequence + 1) = some (t.lastSequence + 1) := int_eq (by omega) (by omega)
  have ahead : int (t.clock + p.duration) = some (t.clock + p.duration) :=
    int_eq (by omega) (by omega)
  rw [Checked.follow, bind_of ahead, bind_of advanced]
  by_cases under : p.anchor - t.threshold < -2 ^ 63
  · rw [int_eq_none (.inl under)]
    exact iff_of_false nofun (not_not_intro ⟨running, next, limited, .inl under⟩)
  rw [bind_of (int_eq (Int.not_lt.1 under) (by omega))]
  by_cases behind : t.clock + p.duration < p.anchor - t.threshold
  · rw [if_pos behind]
    refine iff_of_true rfl ?_
    rintro ⟨-, -, -, beyond | ⟨reached, -⟩⟩
    · exact under beyond
    · exact Int.not_lt.2 reached behind
  have reached := Int.not_lt.1 behind
  rw [if_neg behind]
  by_cases beyond : 2 ^ 63 ≤ p.anchor + t.threshold
  · rw [int_eq_none (.inr beyond)]
    exact iff_of_false nofun (not_not_intro ⟨running, next, limited, .inr ⟨reached, beyond⟩⟩)
  rw [bind_of (int_eq (by omega) (Int.not_le.1 beyond)), bind_of due]
  refine iff_of_true ?_ fun overflows => overflows.2.2.2.elim under fun h => beyond h.2
  split <;> rfl

/-- For a packet that can arrive, only the limits can be out of range. -/
theorem Checked.take_isSome (near : t.InReach total) (short : total + p.duration < 2 ^ 60)
    (credible : p.Credible) : (Checked.take t p).isSome = true ↔ ¬ t.Overflows p := by
  have anchor : int (p.arrival - p.duration) = some p.anchor := by
    obtain ⟨-, arrival, duration⟩ := credible
    dsimp only [Micros] at *
    exact int_eq (by omega) (by omega)
  have due : int (t.lastSequence + 1) = some (t.lastSequence + 1) := by
    have last := near.last
    exact int_eq (by omega) (by omega)
  rw [Checked.take, bind_of anchor]
  by_cases idle : t.clock = 0
  · rw [if_pos idle]
    exact iff_of_true rfl fun overflows => overflows.1 idle
  rw [if_neg idle, bind_of due]
  by_cases next : p.sequence = t.lastSequence + 1
  case neg =>
    rw [if_pos next]
    exact iff_of_true rfl fun overflows => next overflows.2.1
  rw [if_neg (not_not_intro next)]
  by_cases free : t.threshold ≤ 0
  · obtain ⟨u, advanced⟩ := Option.isSome_iff_exists.1 (advance_isSome near short credible next)
    rw [if_pos free, bind_of advanced]
    exact iff_of_true rfl fun overflows => Int.not_lt.2 free overflows.2.2.1
  · rw [if_neg free]
    exact follow_isSome near short credible idle next (Int.not_le.1 free)

theorem Checked.take_eq (near : t.InReach total) (short : total + p.duration < 2 ^ 60)
    (credible : p.Credible) :
    Checked.take t p = if t.Overflows p then none else some (t.take p) := by
  have known := take_isSome near short credible
  cases taken : Checked.take t p with
  | none =>
    rw [taken] at known
    exact (if_pos (not_not.1 fun fits => nomatch known.2 fits)).symm
  | some r =>
    rw [taken] at known
    rw [if_neg (known.1 rfl), (Checked.takes taken).1]

/-- A packet is compared with such a limit when its turn comes. -/
def Overruns (t : Timeline) : List Packet → Prop
  | [] => False
  | p :: rest => t.Overflows p ∨ (t.take p).1.Overruns rest

instance decidableOverruns (t : Timeline) : (ps : List Packet) → Decidable (t.Overruns ps)
  | [] => inferInstanceAs (Decidable False)
  | p :: rest =>
    have := decidableOverruns (t.take p).1 rest
    inferInstanceAs (Decidable (_ ∨ _))

theorem total_nonneg (credible : ∀ p ∈ ps, p.Credible) : 0 ≤ (ps.map (·.duration)).sum := by
  apply List.sum_nonneg
  intro duration mem
  obtain ⟨p, member, rfl⟩ := List.mem_map.1 mem
  exact (credible p member).duration.1

theorem Checked.run_eq (near : t.InReach total) (started : 0 ≤ total)
    (credible : ∀ p ∈ ps, p.Credible) (short : total + (ps.map (·.duration)).sum < 2 ^ 60) :
    Checked.run t ps = if t.Overruns ps then none else some (t.run ps) := by
  induction ps generalizing t total with
  | nil => rfl
  | cons p ps ih =>
    obtain ⟨first, others⟩ := List.forall_mem_cons.1 credible
    have counts := first.duration.1
    have ahead := total_nonneg others
    rw [List.map_cons, List.sum_cons, ← Int.add_assoc] at short
    have soon : total + p.duration < 2 ^ 60 :=
      Int.lt_of_le_of_lt (Int.le_add_of_nonneg_right ahead) short
    rw [Checked.run, take_eq near soon first]
    by_cases beyond : t.Overflows p
    · rw [if_pos beyond, if_pos (.inl beyond)]
      rfl
    have taken : Checked.take t p = some (t.take p) :=
      (take_eq near soon first).trans (if_neg beyond)
    have near := near.takes started first (takes taken).2
    have rest := ih near (Int.add_nonneg started counts) others short
    rw [if_neg beyond, bind_of rfl, rest]
    by_cases later : (t.take p).1.Overruns ps
    · rw [if_pos later, if_pos (.inr later)]
      rfl
    · rw [if_neg later, if_neg fun h : t.Overruns (p :: ps) => h.elim beyond later]
      rfl

/-! ## Which thresholds keep every run in range -/

/-- The widest threshold behind which there is no limit out of range. -/
def widest : Micros := 2 ^ 63 - 1 - 2 ^ 60

theorem not_overruns (narrow : t.threshold ≤ widest) (credible : ∀ p ∈ ps, p.Credible) :
    ¬ t.Overruns ps := by
  induction ps generalizing t with
  | nil => exact id
  | cons p ps ih =>
    obtain ⟨⟨-, arrival, duration⟩, others⟩ := List.forall_mem_cons.1 credible
    have anchored : p.anchor = p.arrival - p.duration := rfl
    rintro (⟨-, -, -, beyond⟩ | later)
    · dsimp only [widest, Micros] at *
      omega
    · exact ih ((t.threshold_take p).symm ▸ narrow) others later

/-- Two packets in sequence that arrive as late as packets can. -/
def latest : List Packet :=
  [⟨1, false, 1152921504606846976, 0⟩, ⟨2, false, 1152921504606846976, 0⟩]

theorem within_latest : Within latest where
  credible p mem := by
    rcases List.mem_pair.1 mem with rfl | rfl <;> exact ⟨by decide, by decide, by decide⟩
  total := by decide

theorem overruns_latest {threshold : Micros} (wide : widest < threshold) :
    Overruns { threshold } latest := by
  have limited : 0 < threshold := Int.lt_trans (by decide) wide
  have low : (1152921504606846976 : Int) - 0 - threshold ≤ 1152921504606846976 - 0 + 0 := by
    dsimp only [Micros] at *
    omega
  have high : (2 : Int) ^ 63 ≤ 1152921504606846976 - 0 + threshold := by
    dsimp only [widest, Micros] at *
    omega
  have running : (1152921504606846976 : Int) - 0 ≠ 0 := by decide
  exact .inr (.inl ⟨running, rfl, limited, .inr ⟨low, high⟩⟩)

theorem Checked.run_start (threshold : Micros) (within : Within ps) :
    Checked.run { threshold } ps =
      if Overruns { threshold } ps then none else some (Timeline.run { threshold } ps) :=
  Checked.run_eq (inReach_start threshold) (Int.le_refl 0) within.credible
    ((Int.zero_add _).symm ▸ within.total)

theorem Checked.forall_run_iff (threshold : Micros) :
    (∀ ps, Within ps → Checked.run { threshold } ps = some (Timeline.run { threshold } ps)) ↔
      threshold ≤ widest := by
  constructor
  · intro inside
    by_contra wide
    have given := inside latest within_latest
    rw [run_start threshold within_latest, if_pos (overruns_latest (Int.not_le.1 wide))] at given
    cases given
  · intro narrow ps within
    rw [run_start threshold within, if_neg (not_overruns narrow within.credible)]

/-- Packets that can arrive are in range, unless the threshold is too wide. -/
theorem inRange_of_within {threshold : Micros} (narrow : threshold ≤ widest) (within : Within ps) :
    InRange { threshold } ps :=
  inRange_iff.2 ((Checked.forall_run_iff threshold).2 narrow ps within)

/-- A threshold in milliseconds, times a thousand and clamped. -/
theorem thresholdMicros_le_widest (s : Configuration.Service) :
    s.thresholdMicros ≤ widest ↔ s.threshold ≤ 8070450532247928 := by
  unfold Configuration.Service.thresholdMicros Configuration.Service.clamp
  dsimp only [widest, Micros]
  omega

/-! ## The durations of frames -/

theorem duration_le_of_ofBody {body : Bytes} {span : Frame.Span}
    (h : Frame.Span.ofBody body = .ok span) (short : body.length ≤ Frame.maxSize) :
    0 ≤ span.duration ∧ span.duration ≤ 2 ^ 40 := by
  match body with
  | [] | [_] | [_, _] | [_, _, _] => cases h
  | r₃ :: r₂ :: r₁ :: r₀ :: pcm =>
    have short : pcm.length + 4 ≤ 1048576 := short
    have scaled : pcm.length / 2 * 1000000 ≤ 2 ^ 40 := by omega
    dsimp only [Frame.Span.ofBody] at h
    split at h
    · cases h
    · cases h
      exact ⟨Int.natCast_nonneg _, Int.ofNat_le.2 (Nat.le_trans (Nat.div_le_self _ _) scaled)⟩

/-- The samples of a frame last for less than thirteen days, at whatever rate. -/
theorem duration_le_of_decode {raw : Bytes} {frame : Frame} {span : Frame.Span}
    (decoded : Frame.decode raw = .ok frame) (spanned : frame.span = .ok span) :
    0 ≤ span.duration ∧ span.duration ≤ 2 ^ 40 := by
  unfold Frame.span at spanned
  cases found : frame.segment? .arc with
  | none =>
    rw [found] at spanned
    cases spanned
  | some arc =>
    rw [found] at spanned
    exact duration_le_of_ofBody spanned (Frame.length_body_le decoded (Frame.segment?_mem found))

/-! ## Every run and every configuration -/

/-- With the threshold of a configuration, a run of packets that can arrive stays in range unless one of
them is compared with a limit out of range. None is, in any such run, exactly if the threshold is at most
8070450532247928 milliseconds. The durations are those of frames. -/
theorem run_in_range_iff (s : Configuration.Service) :
    (∀ ps, Within ps → Checked.run { threshold := s.thresholdMicros } ps =
      if Overruns { threshold := s.thresholdMicros } ps then none
      else some (run { threshold := s.thresholdMicros } ps)) ∧
    ((∀ ps, Within ps → Checked.run { threshold := s.thresholdMicros } ps =
      some (run { threshold := s.thresholdMicros } ps)) ↔ s.threshold ≤ 8070450532247928) ∧
    ∀ (raw : Bytes) (frame : Frame) (span : Frame.Span),
      Frame.decode raw = .ok frame → frame.span = .ok span →
        0 ≤ span.duration ∧ span.duration ≤ 2 ^ 40 := by
  refine ⟨fun ps => Checked.run_start s.thresholdMicros, ?_,
    fun raw frame span => duration_le_of_decode⟩
  exact (Checked.forall_run_iff s.thresholdMicros).trans (thresholdMicros_le_widest s)

/-- The clamped threshold, two packets of these days and a frame like theirs. -/
theorem run_in_range_iff_saturated :
    let s : Configuration.Service := { threshold := 9223372036854775807 }
    let usual : Configuration.Service := {}
    let ps : List Packet := [⟨1, false, 1700000000001000, 1000⟩, ⟨2, false, 1700000000002000, 1000⟩]
    let draft : Frame.Draft :=
      { sensor := .ofNat 1, sequence := 2, segments := [⟨.arc, [0, 0, 62, 128, 1, 0, 2, 0]⟩] }
    let frame : Frame :=
      { sequence := 2, hardware := draft.hardware, firmware := draft.firmware
        sensor := draft.sensor, model := draft.model, flags := draft.flags
        segments := draft.segments, raw := draft.encode }
    Within ps ∧ s.thresholdMicros = 9223372036854775807 ∧
      Checked.run { threshold := s.thresholdMicros } ps = none ∧
      Checked.run { threshold := usual.thresholdMicros } ps =
        some (run { threshold := usual.thresholdMicros } ps) ∧
      Frame.decode draft.encode = .ok frame ∧ frame.span = .ok (.of 16000 2) ∧
      0 ≤ (Frame.Span.of 16000 2).duration ∧ (Frame.Span.of 16000 2).duration ≤ 2 ^ 40 := by
  intro s usual ps draft frame
  have within : Within ps :=
    { credible := fun p mem => by
        rcases List.mem_pair.1 mem with rfl | rfl <;> exact ⟨by decide, by decide, by decide⟩
      total := by decide }
  have decoded : Frame.decode draft.encode = .ok frame := by decide +kernel
  have spanned : frame.span = .ok (.of 16000 2) := by decide
  obtain ⟨runs, -, spans⟩ := run_in_range_iff s
  refine ⟨within, by decide, ?_, ?_, decoded, spanned, spans _ _ _ decoded spanned⟩
  · exact (runs ps within).trans (if_pos (by decide))
  · exact (run_in_range_iff usual).2.1.2 (by decide) ps within

end SensorIngest.Timeline
