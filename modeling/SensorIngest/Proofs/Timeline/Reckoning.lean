import Mathlib.Algebra.Ring.Int.Defs
import Mathlib.Algebra.Ring.Nat
import Mathlib.Data.List.Chain
import Mathlib.Data.List.Infix
import SensorIngest.Proofs.Timeline.Run

/-!
# A clock that runs by durations alone

While packets come in sequence and in range, and no further from a running clock than the threshold
(`Timely`), nothing of their arrival times gets into it. From the packet that set the clock on, each
of them is aligned, and the clock has advanced by the durations and by the `compensation` of the lost
fractions: a microsecond for every third packet of each unbroken run of packets that lost one
(`clock_reckoned`). A timeline does not remember such a run, only how many of its packets are not made
up for yet. Putting so many before the packets to come gives the same compensation from then on
(`reckon_progress`), and this is what the induction over a run carries.
-/

namespace SensorIngest.Timeline

variable {t : Timeline} {p q : Packet} {ps qs : List Packet} {r : Timeline × Adjustment}

/-! ## What lost fractions amount to -/

/-- The clock runs when the packet comes, and with the packet it is no further from the arrival clock
than the threshold. -/
structure Timely (t : Timeline) (p : Packet) : Prop where
  running : t.clock ≠ 0
  near : 0 < t.threshold → p.anchor - t.threshold ≤ t.clock + p.duration ∧
    t.clock + p.duration ≤ p.anchor + t.threshold

instance (t : Timeline) (p : Packet) : Decidable (t.Timely p) :=
  decidable_of_iff
    (t.clock ≠ 0 ∧ (0 < t.threshold → p.anchor - t.threshold ≤ t.clock + p.duration ∧
      t.clock + p.duration ≤ p.anchor + t.threshold))
    ⟨fun timely => ⟨timely.1, timely.2⟩, fun timely => ⟨timely.running, timely.near⟩⟩

/-- A timely packet in sequence is aligned. -/
theorem Timely.take_eq (timely : t.Timely p) (inside : t.InRange (p :: ps))
    (next : p.sequence = t.lastSequence + 1) : t.take p = (t.progress p, .aligned) :=
  inside.takes.unique (.aligned timely.running next timely.near)

/-- What a packet says, apart from when it arrives. -/
def Packet.content (p : Packet) : Int × Bool × Micros := (p.sequence, p.fill, p.duration)

end SensorIngest.Timeline
