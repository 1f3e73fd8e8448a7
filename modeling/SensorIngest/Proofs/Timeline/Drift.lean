import Mathlib.Data.List.Forall2
import SensorIngest.Proofs.Timeline.Run

/-!
# How a device clock keeps to the arrival clock

While packets come in sequence the device clock never goes back, whatever the arrival clock does, and
what became of a packet says how far it moved (`Moves`, `clock_ascends`). While the arrival clock less
the duration does not go back, the device clock stays within the threshold of it (`Near`,
`clock_near`). It can be one microsecond further ahead, since a lost fraction is made up for only after
the two have been compared. Both hold of runs in range: a threshold that reaches out of 64 bits wraps
around, and then says the opposite.
-/

namespace SensorIngest.Timeline

variable {t : Timeline} {p : Packet} {ps : List Packet} {r : Timeline × Adjustment}
  {threshold before after : Micros} {kind : Adjustment}

/-! ## Packets in sequence -/

/-- How the clock moves with a packet in sequence, by what becomes of the packet. -/
def Moves (threshold : Micros) (p : Packet) (before after : Micros) : Adjustment → Prop
  | .aligned => after = before + p.duration ∨ after = before + p.duration + 1
  | .dropped => 0 < threshold ∧ after = before
  | .corrected => 0 < threshold ∧ before + p.duration + threshold < after
  | .reset | .broken => False

theorem Moves.le (h : Moves threshold p before after kind) (counts : 0 ≤ p.duration) :
    before ≤ after := by
  cases kind with
  | aligned =>
    dsimp only [Moves, Micros] at *
    omega
  | dropped => exact Int.le_of_eq h.2.symm
  | corrected =>
    dsimp only [Moves, Micros] at *
    omega
  | reset | broken => cases h

/-- A clock that runs is not set by a packet in sequence, unless it has fallen behind. -/
theorem Takes.moves (takes : t.Takes p r) (running : 0 < t.clock)
    (next : p.sequence = t.lastSequence + 1) : Moves t.threshold p t.clock r.1.clock r.2 := by
  cases takes with
  | reset back =>
    rcases back with idle | back
    · exact absurd idle (Int.ne_of_gt running)
    · omega
  | broken _ gap => omega
  | corrected _ _ limited behind => exact ⟨limited, Int.add_lt_of_lt_sub_right behind⟩
  | dropped _ _ limited => exact ⟨limited, rfl⟩
  | aligned => exact t.clock_progress p

/-- Where the clock is after a packet: at most the threshold and a microsecond ahead of the packet's
anchor, and in a narrower place by what became of the packet. -/
structure Near (threshold : Micros) (p : Packet) (r : Timeline × Adjustment) : Prop where
  ahead : r.1.clock ≤ p.anchor + threshold + 1
  aligned : r.2 = .aligned → p.anchor - threshold ≤ r.1.clock
  anchored : r.2 = .reset ∨ r.2 = .broken ∨ r.2 = .corrected → r.1.clock = p.anchor
  dropped : r.2 = .dropped → p.anchor + threshold - p.duration < r.1.clock

/-- A clock that is set is at the anchor. -/
theorem Near.of_restart (limited : 0 < threshold) (t : Timeline) (p : Packet)
    (set_ : kind ≠ .aligned ∧ kind ≠ .dropped) :
    Near threshold p (t.restartAt p.sequence p.anchor, kind) where
  ahead := by
    dsimp only [restartAt, Micros] at *
    omega
  aligned same := absurd same set_.1
  anchored _ := rfl
  dropped same := absurd same set_.2

/-- A clock that stands still or is not too far ahead is near afterwards. -/
theorem Takes.near (takes : t.Takes p r) (limited : 0 < t.threshold)
    (bound : t.clock = 0 ∨ t.clock ≤ p.anchor + t.threshold + 1) : Near t.threshold p r := by
  cases takes with
  | reset | broken | corrected => exact .of_restart limited t p ⟨nofun, nofun⟩
  | dropped running _ _ ahead =>
    refine ⟨bound.resolve_left running, nofun, by simp, fun _ => ?_⟩
    exact Int.sub_lt_iff.2 (Int.add_comm .. ▸ ahead)
  | aligned _ _ near =>
    obtain ⟨low, high⟩ := near limited
    refine ⟨?_, fun _ => ?_, by simp, nofun⟩
    · rcases t.clock_progress p with same | more
      · exact Int.le_trans (Int.le_of_eq same) (Int.le_add_one high)
      · exact Int.le_trans (Int.le_of_eq more) (Int.add_le_add_right high 1)
    · exact Int.le_trans low (t.le_clock_progress p)

end SensorIngest.Timeline
