import SensorIngest.Proofs.Timeline.Run

/-!
# Timelines do not know the time

Two sensors send the same packets, one of them counting from another sequence and seen by an arrival
clock that is set differently. Their timelines differ by the same two numbers after every packet, and
every packet has the same outcome (`run_shift`). That a clock of zero is one that has not started is
all that could tell them apart, so packets must not arrive before the time that they cover, on either
clock.
-/

namespace SensorIngest.Timeline

variable {t : Timeline} {p : Packet} {ps : List Packet} {r : Timeline × Adjustment} {d : Micros}
  {c : Int}

/-- The packet of the other sensor. -/
def Packet.shift (d : Micros) (c : Int) (p : Packet) : Packet :=
  { p with sequence := p.sequence + c, arrival := p.arrival + d }

theorem Packet.anchor_shift (p : Packet) : (p.shift d c).anchor = p.anchor + d := by
  dsimp only [anchor, shift, Micros]
  omega

/-- The timeline of the other sensor. -/
def shift (d : Micros) (c : Int) (t : Timeline) : Timeline :=
  { t with lastSequence := t.lastSequence + c, clock := t.clock + d, anchor := t.anchor + d }

/-! ## One packet -/

theorem restartAt_shift (sequence : Int) (anchor : Micros) :
    (t.shift d c).restartAt (sequence + c) (anchor + d) = (t.restartAt sequence anchor).shift d c :=
  rfl

theorem progress_shift (t : Timeline) (p : Packet) :
    (t.shift d c).progress (p.shift d c) = (t.progress p).shift d c := by
  have sequence : t.lastSequence + c + 1 = t.lastSequence + 1 + c := Int.add_right_comm ..
  have clock : t.clock + d + p.duration = t.clock + p.duration + d := Int.add_right_comm ..
  have compensated : t.clock + p.duration + d + 1 = t.clock + p.duration + 1 + d :=
    Int.add_right_comm ..
  have anchor : (p.shift d c).anchor = p.anchor + d := p.anchor_shift
  by_cases few : t.fills + 1 < fillPeriod <;> cases fill : p.fill <;>
    simp [progress, shift, Packet.shift, fill, few, sequence, clock, compensated] <;>
    exact anchor

/-- Whatever a packet does to a clock that runs, it does to the other one, if that runs too. -/
theorem Takes.shift (takes : t.Takes p r) (running : t.clock ≠ 0) (other : (t.shift d c).clock ≠ 0) :
    (t.shift d c).Takes (p.shift d c) (r.1.shift d c, r.2) := by
  have sequence : (p.shift d c).sequence = p.sequence + c := rfl
  have last : (t.shift d c).lastSequence = t.lastSequence + c := rfl
  have clock : (t.shift d c).clock = t.clock + d := rfl
  have duration : (p.shift d c).duration = p.duration := rfl
  have anchor : (p.shift d c).anchor = p.anchor + d := p.anchor_shift
  have threshold : (t.shift d c).threshold = t.threshold := rfl
  -- All that a running clock is compared with is shifted along with it.
  cases takes with
  | reset back =>
    rw [← restartAt_shift, ← sequence, ← anchor]
    apply Takes.reset
    exact .inr (sequence ▸ last ▸ Int.add_le_add_right (back.resolve_left running) c)
  | broken _ gap =>
    rw [← restartAt_shift, ← sequence, ← anchor]
    apply Takes.broken other
    omega
  | corrected _ next limited behind =>
    rw [← restartAt_shift, ← sequence, ← anchor]
    apply Takes.corrected other <;> dsimp only [Micros] at * <;> omega
  | dropped _ next limited past =>
    have dropped : (t.shift d c).Takes (p.shift d c)
        ({ t.shift d c with lastSequence := (t.shift d c).lastSequence + 1 }, .dropped) := by
      apply Takes.dropped other <;> dsimp only [Micros] at * <;> omega
    rwa [last, Int.add_right_comm] at dropped
  | aligned _ next near =>
    rw [← progress_shift]
    apply Takes.aligned other <;> dsimp only [Micros] at * <;> omega

/-- A packet that arrives after the time it covers leaves a running clock running. -/
theorem Takes.running (takes : t.Takes p r) (running : 0 < t.clock) (counts : 0 ≤ p.duration)
    (later : 0 < p.anchor) : 0 < r.1.clock := by
  cases takes with
  | reset | broken | corrected => exact later
  | dropped => exact running
  | aligned =>
    exact Int.lt_of_lt_of_le (Int.add_pos_of_pos_of_nonneg running counts) (t.le_clock_progress p)

/-! ## Runs -/

end SensorIngest.Timeline
