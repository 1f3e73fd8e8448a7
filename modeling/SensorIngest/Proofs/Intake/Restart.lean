import SensorIngest.Proofs.Intake.Delivery
import SensorIngest.Proofs.Intake.Isolation
import SensorIngest.Proofs.Intake.Traffic

/-!
# When a sensor starts over

A sensor that restarts its counter sends its frames from 1 on again. If it listens, frame 1 reaches the
session, which is told of the restart by it, and every frame is handed on. If it does not listen,
frames 1 and 2 are boot noise, so the session cannot tell the frames behind them from late copies
unless they are a whole restart window behind. `Session.resumption` is the first sequence that is
handed on again, and `Intake.counter_resumes` says that a run hands on just these frames, after
what had waited. All sequences have to have others behind them.
-/

namespace SensorIngest

open Intake (Effect Input)

def Parked.content (p : Parked) : Nat × Micros × Bytes := (p.sequence, p.arrival, p.frame)

/-- The frames of a sensor, boot noise included. -/
def Arrival.heard (id : SensorId) (inputs : List (Micros × Input)) : List Arrival :=
  (inputs.filterMap fun x => Arrival.of? x.1 x.2).filter (·.header.sensor = id)

theorem Arrival.filter_heard (id : SensorId) (inputs : List (Micros × Input)) :
    (heard id inputs).filter (!·.isNoise) = ofSensor id inputs := by
  rw [heard, ofSensor, List.filter_filter, List.filter_filterMap]
  refine List.filterMap_congr fun x _ => ?_
  simp only [Bool.and_comm]
  rfl

theorem Arrival.ofSensor_cons (id : SensorId) (x : Micros × Input) (rest : List (Micros × Input)) :
    ofSensor id (x :: rest) = (for? id x.1 x.2).toList ++ ofSensor id rest := by
  rw [ofSensor, List.filterMap_cons]
  cases for? id x.1 x.2 <;> rfl

/-- The frames come one after the other, with the sequences from `k` on. -/
def Arrival.Consecutive (k : Nat) (as : List Arrival) : Prop :=
  as.map (·.sequence) = List.range' k as.length

namespace Arrival.Consecutive

variable {k m : Nat} {a : Arrival} {as : List Arrival}

theorem le (h : Consecutive k as) : ∀ a ∈ as, k ≤ a.sequence := by
  intro a mem
  have inside := List.mem_map_of_mem (f := (·.sequence)) mem
  rw [h, List.mem_range'_1] at inside
  exact inside.1

theorem cons_iff : Consecutive k (a :: as) ↔ a.sequence = k ∧ Consecutive (k + 1) as := by
  rw [Consecutive, List.map_cons, List.length_cons, List.range'_succ, List.cons.injEq, Consecutive]

theorem filter (h : Consecutive k as) (le : m ≤ k) : as.filter (m ≤ ·.sequence) = as :=
  List.filter_eq_self.2 fun a mem => decide_eq_true (Nat.le_trans le (h.le a mem))

end Arrival.Consecutive

namespace Session

variable {s : Session} {b c : Backlog} {a : Arrival} {as : List Arrival} {id : SensorId}
  {k last : Nat} {r : Session × Option Reply × List Effect}

/-! ## Frames that are not ahead -/

/-- A frame that neither skips over a packet nor repeats the last one settles at once. -/
theorem Takes.settles_of_le (takes : Takes s b a r c) (bearable : Bearable s.lastSequence)
    (le : a.sequence ≤ s.lastSequence + 1) (fresh : a.responds = true → a.sequence ≠ s.lastSequence) :
    Settles (s.greet a).1 b a (s.greet a).2 r c := by
  have turn : ¬s.isAhead a.sequence = true := by
    rw [isAhead_eq bearable, Bool.and_eq_true, decide_eq_true_eq, decide_eq_true_eq]
    exact fun ahead => Nat.not_lt_of_le le ahead.2
  rcases takes.of_spare fun ahead => absurd ahead turn with ⟨responds, same, -⟩ | ⟨-, settles⟩
  · exact absurd same (fresh responds)
  · exact settles

/-- A session in order behind which nothing waits. -/
structure CaughtUp (id : SensorId) (last : Nat) (s : Session) : Prop where
  sensor : s.sensor = id
  ordered : ∃ b, s.Ordered b ∧ b.entries = []
  last : s.lastSequence = last

/-- A frame that does not advance the sequence brings out what waits. The frame itself is handed on
if the counter has restarted. -/
theorem Ordered.receive_behind (h : s.Ordered b) (own : s.sensor = a.header.sensor)
    (real : a.isNoise = false) (bearable : Bearable a.sequence) (le : a.sequence ≤ s.lastSequence)
    (fresh : a.responds = true → a.sequence ≠ s.lastSequence) :
    let restart := s.isRestart a.sequence
    (s.receive true a).1.CaughtUp a.header.sensor
        (if restart then a.sequence else reach s.lastSequence b.entries) ∧
      (Effect.packages (s.receive true a).2.2).map Package.content =
        b.entries.map Parked.content ++ if restart then [a.content] else [] := by
  intro restart
  obtain ⟨c, takes⟩ := receive_takes h own real bearable
  have ordered := takes.ordered h bearable
  have sensor := (receive_speaks own true a).1
  have settles := takes.settles_of_le h.last (Nat.le_succ_of_le le) fresh
  generalize s.receive true a = r at ordered sensor settles ⊢
  have all : (b.entries.map (·.package (s.greet a).1.sensor)).map Package.content =
      b.entries.map Parked.content := List.map_map
  cases settles with
  | waits _ ahead | asks _ ahead => exact absurd ahead (Nat.not_lt_of_le (Nat.le_succ_of_le le))
  | inTurn _ above => exact absurd above (Nat.not_lt_of_le le)
  | late _ _ same =>
    have same : restart = false := same
    rw [same]
    refine ⟨⟨sensor, ⟨_, ordered, b.entries_drain⟩, rfl⟩, ?_⟩
    simp only [List.cons_append, packages_behind, Effect.packages_append, packages_handed,
      Effect.packages_count, Effect.packages_nil, List.append_nil, all]
    exact (List.append_nil _).symm
  | restarted back =>
    have back : restart = true := back
    rw [back]
    refine ⟨⟨sensor, ⟨_, ordered, b.entries_drain⟩, rfl⟩, ?_⟩
    simp only [List.cons_append, packages_behind, Effect.packages_append, packages_handed,
      Effect.packages_dispatch, Effect.packages_nil, List.map_append, all]
    rfl

/-- Where nothing waits, the next frame is handed on, and nothing else. -/
theorem CaughtUp.receive_next (h : s.CaughtUp a.header.sensor last) (real : a.isNoise = false)
    (bearable : Bearable a.sequence) (next : a.sequence = last + 1) :
    (s.receive true a).1.CaughtUp a.header.sensor a.sequence ∧
      (Effect.packages (s.receive true a).2.2).map Package.content = [a.content] := by
  obtain ⟨own, ⟨b, ordered, empty⟩, rfl⟩ := h
  obtain ⟨c, takes⟩ := receive_takes ordered own real bearable
  have after := takes.ordered ordered bearable
  have sensor := (receive_speaks own true a).1
  have settles := takes.settles_of_le ordered.last (Nat.le_of_eq next) fun _ => by omega
  have last_eq : (s.greet a).1.lastSequence = s.lastSequence := rfl
  generalize s.receive true a = r at after sensor settles ⊢
  cases settles with
  | waits _ ahead | asks _ ahead | late _ ahead => omega
  | restarted restart =>
    have := lt_of_isRestart restart
    omega
  | inTurn _ _ left =>
    obtain ⟨rfl, none⟩ := List.append_eq_nil_iff.1 (left.entries.symm.trans empty)
    refine ⟨⟨sensor, ⟨_, after, none⟩, rfl⟩, ?_⟩
    simp only [Effect.packages_append, packages_answered, Effect.packages_dispatch, packages_handed]
    rfl

/-! ## Frames in a row -/

/-- What a session hands on for frames that come one after the other. -/
def handsOn (s : Session) : List Arrival → List Package
  | [] => []
  | a :: as =>
    let (s, _, effects) := s.receive true a
    Effect.packages effects ++ s.handsOn as

/-- Of frames from `k` on that a session at `last` may take for late copies, the first one that it hands
on: the one that comes next, unless the counter has gone back by more than the restart window. -/
def resumptionFrom (last k : Nat) : Nat := if restartWindow + k < last then k else last + 1

theorem lt_resumptionFrom (le : k ≤ last) : k < resumptionFrom last (k + 1) := by
  unfold resumptionFrom
  split <;> omega

theorem isRestart_iff {sequence : Nat} (beyond : restartSequence < sequence) :
    s.isRestart sequence = true ↔ restartWindow + sequence < s.lastSequence := by
  simp only [isRestart, Bool.and_eq_true, Bool.or_eq_true, decide_eq_true_eq]
  omega

/-- Where nothing waits, all frames that come next are handed on. -/
theorem CaughtUp.handsOn_next (h : s.CaughtUp id last)
    (own : ∀ a ∈ as, a.header.sensor = id ∧ a.isNoise = false)
    (bearable : ∀ a ∈ as, Bearable a.sequence)
    (consecutive : Arrival.Consecutive (last + 1) as) :
    (s.handsOn as).map Package.content = as.map Arrival.content := by
  induction as generalizing s last with
  | nil => rfl
  | cons a as ih =>
    rw [List.forall_mem_cons] at own bearable
    obtain ⟨⟨rfl, real⟩, own⟩ := own
    obtain ⟨next, consecutive⟩ := Arrival.Consecutive.cons_iff.1 consecutive
    obtain ⟨caught, content⟩ := h.receive_next real bearable.1 next
    rw [handsOn, List.map_append, content, ih caught own bearable.2 (next ▸ consecutive)]
    rfl

/-- Where nothing waits, frames that are behind are late copies, or the first of them restarts the
counter. -/
theorem CaughtUp.handsOn_behind (h : s.CaughtUp id last)
    (own : ∀ a ∈ as, a.header.sensor = id ∧ a.isNoise = false)
    (bearable : ∀ a ∈ as, Bearable a.sequence)
    (silent : ∀ a ∈ as, a.responds = false) (consecutive : Arrival.Consecutive k as)
    (beyond : restartSequence < k) (le : k ≤ last + 1) :
    (s.handsOn as).map Package.content =
      (as.filter (resumptionFrom last k ≤ ·.sequence)).map Arrival.content := by
  induction as generalizing s last k with
  | nil => rfl
  | cons a as ih =>
    rcases Nat.lt_or_ge last k with next | back
    · obtain rfl : k = last + 1 := Nat.le_antisymm le next
      have resume : resumptionFrom last (last + 1) = last + 1 := if_neg (by omega)
      rw [h.handsOn_next own bearable consecutive, consecutive.filter (Nat.le_of_eq resume)]
    · obtain ⟨sensor, ⟨b, ordered, empty⟩, rfl⟩ := h
      have whole := consecutive
      rw [List.forall_mem_cons] at own bearable silent
      obtain ⟨⟨rfl, real⟩, own⟩ := own
      obtain ⟨rfl, consecutive⟩ := Arrival.Consecutive.cons_iff.1 consecutive
      have fresh : a.responds = true → a.sequence ≠ s.lastSequence := by
        rw [silent.1]
        nofun
      obtain ⟨caught, content⟩ := ordered.receive_behind sensor real bearable.1 back fresh
      have reach_nil : reach s.lastSequence [] = s.lastSequence := rfl
      rw [empty, reach_nil] at caught
      rw [empty] at content
      by_cases restart : restartWindow + a.sequence < s.lastSequence
      · have resume : resumptionFrom s.lastSequence a.sequence = a.sequence := if_pos restart
        rw [if_pos ((isRestart_iff beyond).2 restart)] at caught content
        rw [handsOn, List.map_append, content, caught.handsOn_next own bearable.2 consecutive,
          whole.filter (Nat.le_of_eq resume)]
        rfl
      · have late : ¬ s.isRestart a.sequence = true := mt (isRestart_iff beyond).1 restart
        have same : resumptionFrom s.lastSequence (a.sequence + 1) =
            resumptionFrom s.lastSequence a.sequence :=
          (if_neg (by omega)).trans (if_neg restart).symm
        have above := lt_resumptionFrom back
        rw [if_neg late] at caught content
        rw [handsOn, List.map_append, content,
          ih caught own bearable.2 silent.2 consecutive (Nat.lt_succ_of_lt beyond)
            (Nat.succ_le_succ back), ← same, List.filter_cons, if_neg (by simpa using above)]
        rfl

/-! ## From the start -/

/-- The highest sequence once all that waits is handed on. -/
def horizon (s : Session) : Nat := reach s.lastSequence s.waiting

theorem Ordered.horizon_eq (h : s.Ordered b) : s.horizon = reach s.lastSequence b.entries := by
  rw [horizon, waiting_eq h.backlog]

/-- The first sequence after a restart that is no boot noise. -/
def firstSequence (responds : Bool) : Nat := if responds then 1 else Intake.startupSequence + 1

/-- The first sequence that the session hands on again once its sensor has restarted the counter. -/
def resumption (s : Session) (responds : Bool) : Nat :=
  let first := firstSequence responds
  if s.isRestart first then first else resumptionFrom s.horizon (first + 1)

theorem isRestart_firstSequence (used : restartSequence < s.lastSequence) (responds : Bool) :
    s.isRestart (firstSequence responds) = true ↔
      responds = true ∨ restartWindow + 3 < s.lastSequence := by
  cases responds with
  | true =>
    have back : 1 < s.lastSequence := Nat.lt_trans (by decide) used
    refine iff_of_true ?_ (.inl rfl)
    rw [isRestart, firstSequence, if_pos rfl, decide_eq_true back]
    rfl
  | false =>
    have beyond : restartSequence < firstSequence false := by decide
    rw [isRestart_iff beyond]
    exact (or_iff_right Bool.false_ne_true).symm

theorem firstSequence_le (responds : Bool) : firstSequence responds ≤ restartSequence + 1 := by
  cases responds <;> decide

theorem Ordered.firstSequence_le_horizon (h : s.Ordered b) (used : restartSequence < s.lastSequence)
    (responds : Bool) : firstSequence responds ≤ s.horizon := by
  rw [h.horizon_eq]
  exact Nat.le_trans (Nat.le_trans (firstSequence_le responds) used) (le_reach h.above b.entries_sorted)

/-- All is handed on exactly if the first frame tells of the restart. -/
theorem Ordered.resumption_le_iff (h : s.Ordered b) (used : restartSequence < s.lastSequence)
    (responds : Bool) : s.resumption responds ≤ firstSequence responds ↔
      s.isRestart (firstSequence responds) = true := by
  by_cases restart : s.isRestart (firstSequence responds) = true
  · have resume : s.resumption responds = firstSequence responds := if_pos restart
    exact iff_of_true (Nat.le_of_eq resume) restart
  · have resume : s.resumption responds =
        resumptionFrom s.horizon (firstSequence responds + 1) := if_neg restart
    rw [resume]
    exact iff_of_false
      (Nat.not_le_of_lt (lt_resumptionFrom (h.firstSequence_le_horizon used responds))) restart

/-- Frames of a counter that starts over, boot noise left out. The first of them brings out what
waits. -/
theorem Ordered.handsOn_restarted (h : s.Ordered b) (own : s.sensor = id)
    (used : restartSequence < s.lastSequence)
    (real : ∀ a ∈ as, a.header.sensor = id ∧ a.isNoise = false)
    (bearable : ∀ a ∈ as, Bearable a.sequence) {responds : Bool}
    (alike : ∀ a ∈ as, a.responds = responds)
    (consecutive : Arrival.Consecutive (firstSequence responds) as) :
    (s.handsOn as).map Package.content =
      (if as = [] then [] else s.waiting.map Parked.content) ++
        (as.filter (s.resumption responds ≤ ·.sequence)).map Arrival.content := by
  cases as with
  | nil => rfl
  | cons a as =>
    have whole := consecutive
    rw [List.forall_mem_cons] at real bearable alike
    obtain ⟨⟨rfl, real⟩, reals⟩ := real
    obtain ⟨rfl, alike⟩ := alike
    obtain ⟨first, consecutive⟩ := Arrival.Consecutive.cons_iff.1 consecutive
    have low := firstSequence_le a.responds
    have fresh : a.responds = true → a.sequence ≠ s.lastSequence := by
      intro responds
      rw [first, responds]
      exact Nat.ne_of_lt (Nat.lt_trans (by decide) used)
    obtain ⟨caught, content⟩ :=
      h.receive_behind own real bearable.1 (first ▸ Nat.le_trans low used) fresh
    rw [first] at caught content
    rw [if_neg (List.cons_ne_nil _ _), waiting_eq h.backlog, handsOn, List.map_append, content]
    by_cases restart : s.isRestart (firstSequence a.responds) = true
    · have resume : s.resumption a.responds = firstSequence a.responds := if_pos restart
      rw [if_pos restart] at caught ⊢
      rw [caught.handsOn_next reals bearable.2 consecutive, whole.filter (Nat.le_of_eq resume),
        List.append_assoc]
      rfl
    · have silent : a.responds = false := by
        rw [isRestart_firstSequence used, not_or] at restart
        exact Bool.eq_false_iff.2 restart.1
      have resume : s.resumption a.responds =
          resumptionFrom s.horizon (firstSequence a.responds + 1) := if_neg restart
      have beyond : restartSequence < firstSequence a.responds + 1 := by
        rw [silent]
        decide
      have above : ¬ s.resumption a.responds ≤ a.sequence := by
        rw [first]
        exact mt (h.resumption_le_iff used _).1 restart
      rw [if_neg restart, ← h.horizon_eq] at caught
      rw [if_neg restart, List.append_nil, List.filter_cons, if_neg (by simpa using above),
        caught.handsOn_behind reals bearable.2 (fun x mem => (alike x mem).trans silent) consecutive
          beyond (Nat.succ_le_succ (h.firstSequence_le_horizon used _)), resume]

/-- All of the frames are handed on exactly if the first one tells of the restart. Otherwise that one is
lost, and it cannot have waited either. -/
theorem Ordered.resumes_all_iff (h : s.Ordered b) (used : restartSequence < s.lastSequence)
    {responds : Bool} (consecutive : Arrival.Consecutive (firstSequence responds) as) :
    (∀ a ∈ as, a.content ∈ (if as = [] then [] else s.waiting.map Parked.content) ++
        (as.filter (s.resumption responds ≤ ·.sequence)).map Arrival.content) ↔
      as = [] ∨ s.isRestart (firstSequence responds) = true := by
  constructor
  · intro all
    refine or_iff_not_imp_left.2 fun some_ => ?_
    rw [if_neg some_] at all
    obtain ⟨a, rest, rfl⟩ := List.exists_cons_of_ne_nil some_
    have first := (Arrival.Consecutive.cons_iff.1 consecutive).1
    rcases List.mem_append.1 (all a List.mem_cons_self) with waits | resumed
    · obtain ⟨p, inside, alike⟩ := List.mem_map.1 waits
      have sequence : p.sequence = a.sequence := congrArg Prod.fst alike
      have above := h.above p (waiting_eq h.backlog ▸ inside)
      have low := Nat.le_trans (firstSequence_le responds) used
      omega
    · obtain ⟨x, inside, alike⟩ := List.mem_map.1 resumed
      have sequence : x.sequence = a.sequence := congrArg Prod.fst alike
      have resume := of_decide_eq_true (List.mem_filter.1 inside).2
      rwa [sequence, first, h.resumption_le_iff used] at resume
  · rintro (rfl | restart) a mem
    · cases mem
    · rw [consecutive.filter ((h.resumption_le_iff used _).2 restart)]
      exact List.mem_append_right _ (List.mem_map_of_mem mem)

end Session

/-! ## Runs -/

namespace Watch

variable {id : SensorId} {w : Watch} {s : Session} {more : List (Micros × Input)}

/-- While its session does not end, a sensor gets handed on what the session makes of its frames. -/
theorem Faithful.delivered_foldl (h : w.Faithful true true id) (live : w.session? id = some s)
    (lasts : ∀ pre, pre <+: more → ((pre.foldl (Watch.step id) w).session? id).isSome) :
    (more.foldl (Watch.step id) w).delivered =
      w.delivered ++ s.handsOn (Arrival.ofSensor id more) := by
  induction more generalizing w s with
  | nil => exact (List.append_nil _).symm
  | cons x more ih =>
    obtain ⟨now, input⟩ := x
    have next := h.step (now, input)
    have stays := lasts [(now, input)] (by simp)
    have lasts : ∀ pre, pre <+: more →
        ((pre.foldl (Watch.step id) (w.step id (now, input))).session? id).isSome :=
      fun pre upto => lasts ((now, input) :: pre) (List.cons_prefix_cons.2 ⟨rfl, upto⟩)
    cases own : Arrival.for? id now input with
    | none =>
      have same : Arrival.ofSensor id ((now, input) :: more) = Arrival.ofSensor id more := by
        rw [Arrival.ofSensor_cons, own]
        rfl
      rcases step_of_none h.keyed own with ⟨gone, -⟩ | ⟨session, -, -, effects⟩
      · rw [List.foldl_cons, List.foldl_nil, gone] at stays
        cases stays
      · rw [List.foldl_cons, ih next (session.trans live) lasts, same, delivered, effects]
        rfl
    | some a =>
      have split : Arrival.ofSensor id ((now, input) :: more) =
          a :: Arrival.ofSensor id more := by
        rw [Arrival.ofSensor_cons, own]
        rfl
      obtain ⟨session, -, -, packages, -⟩ := h.noted own
      obtain ⟨-, -, rfl, -⟩ := Arrival.for?_eq_some own
      have found : w.intake.sessionFor a = s := by
        rw [session?] at live
        rw [Intake.sessionFor, live]
        rfl
      rw [found] at session packages
      rw [List.foldl_cons, ih next session lasts, packages, split, List.append_assoc]
      rfl

end Watch

theorem Arrival.own_of_mem {id : SensorId} {inputs : List (Micros × Input)} :
    ∀ a ∈ ofSensor id inputs, a.header.sensor = id ∧ a.isNoise = false := by
  intro a mem
  obtain ⟨x, -, own⟩ := List.mem_filterMap.1 mem
  exact (for?_eq_some own).2.2

/-- The sequences of a counter that starts over, boot noise left out. -/
theorem Intake.filter_range' (n : Nat) : (List.range' 1 n).filter (startupSequence < ·) =
    List.range' (startupSequence + 1) (n - startupSequence) := by
  rcases n with _ | _ | n
  · rfl
  · rfl
  · have all : (List.range' 3 n).filter (startupSequence < ·) = List.range' 3 n :=
      List.filter_eq_self.2 fun q mem => decide_eq_true (List.mem_range'_1.1 mem).1
    exact all

theorem Arrival.sequences_ofSensor {id : SensorId} {inputs : List (Micros × Input)} {n : Nat}
    {responds : Bool} (again : (heard id inputs).map (·.sequence) = List.range' 1 n)
    (alike : ∀ a ∈ heard id inputs, a.responds = responds) :
    (ofSensor id inputs).map (·.sequence) =
      List.range' (Session.firstSequence responds) (n + 1 - Session.firstSequence responds) := by
  cases responds with
  | true =>
    have all : ofSensor id inputs = heard id inputs := by
      rw [← filter_heard, List.filter_eq_self]
      intro a mem
      simp [isNoise, alike a mem]
    rw [all, again]
    rfl
  | false =>
    have loud : ofSensor id inputs =
        (heard id inputs).filter ((Intake.startupSequence < ·) ∘ (·.sequence)) := by
      rw [← filter_heard]
      refine List.filter_congr fun a mem => ?_
      rw [isNoise, alike a mem, Bool.not_false, Bool.and_true, ← decide_not]
      exact decide_eq_decide.2 Nat.not_le
    have count : n + 1 - (Intake.startupSequence + 1) = n - Intake.startupSequence :=
      Nat.succ_sub_succ n Intake.startupSequence
    rw [loud, ← List.filter_map, again, Intake.filter_range', ← count]
    rfl

/-- A sensor restarts its counter and is heard from 1 on again. What waited is handed on with the first
frame that is no boot noise, and of these frames all from `Session.resumption` on are handed on, once
each and in order. These are all of them exactly if the sensor listens, the old sequence is more than
a restart window beyond 3, or only boot noise came. All sequences have to have others behind them. -/
theorem Intake.counter_resumes (readings : Counters) (id : SensorId)
    (inputs more : List (Micros × Input)) (s : Session) (n : Nat) (responds : Bool)
    (bearable : ∀ x ∈ inputs ++ more, x.2.Bearable x.1)
    (live : ((Intake.new true).watch readings id inputs).session? id = some s)
    (used : 2 < s.lastSequence)
    (again : (Arrival.heard id more).map (·.sequence) = List.range' 1 n)
    (alike : ∀ a ∈ Arrival.heard id more, a.responds = responds)
    (lasts : ∀ pre, pre <+: more →
      (((Intake.new true).watch readings id (inputs ++ pre)).session? id).isSome) :
    let before := (Intake.new true).watch readings id inputs
    let after := (Intake.new true).watch readings id (inputs ++ more)
    let through := (Arrival.heard id more).filter (!·.isNoise)
    ∃ handed : List Package, after.delivered = before.delivered ++ handed ∧
      handed.map Package.content =
        (if through = [] then [] else s.waiting.map Parked.content) ++
          (through.filter (s.resumption responds ≤ ·.sequence)).map Arrival.content ∧
      ((∀ a ∈ through, a.content ∈ handed.map Package.content) ↔
        responds = true ∨ Session.restartWindow + 3 < s.lastSequence ∨ n < 3) := by
  intro before after through
  obtain ⟨earlier, later⟩ := List.forall_mem_append.1 bearable
  have steady : before.Steady id := watch_steady readings id fun x mem => (earlier x mem).of_for? id
  have faithful := steady.toFaithful
  have lived := faithful.life
  rw [live, Option.map_some] at lived
  obtain ⟨sensor, ⟨b, ordered⟩, -, -⟩ := Life.orderly_after faithful.own steady.bearable lived
  have watched (rest : List (Micros × Input)) :
      (Intake.new true).watch readings id (inputs ++ rest) = rest.foldl (Watch.step id) before :=
    List.foldl_append
  simp only [watched] at lasts
  have sequences := Arrival.sequences_ofSensor again alike
  have same : through = Arrival.ofSensor id more := Arrival.filter_heard id more
  have length : through.length = n + 1 - Session.firstSequence responds := by
    rw [same, ← List.length_map, sequences, List.length_range']
  rw [← same, ← length] at sequences
  have consecutive : Arrival.Consecutive (Session.firstSequence responds) through := sequences
  have own : ∀ a ∈ through, a.header.sensor = id ∧ a.isNoise = false := by
    rw [same]
    exact Arrival.own_of_mem
  have bears : ∀ a ∈ through, Session.Bearable a.sequence := by
    rw [same]
    intro a mem
    obtain ⟨x, inside, found⟩ := List.mem_filterMap.1 mem
    exact (later x inside).of_for? id a found
  have handed := ordered.handsOn_restarted sensor used own bears
    (fun a mem => alike a (List.mem_of_mem_filter mem)) consecutive
  refine ⟨s.handsOn through, ?_, handed, ?_⟩
  · rw [same]
    exact (congrArg Watch.delivered (watched more)).trans (faithful.delivered_foldl live lasts)
  rw [handed, ordered.resumes_all_iff used consecutive,
    Session.isRestart_firstSequence used responds, ← List.length_eq_zero_iff, length]
  cases responds with
  | true => exact iff_of_true (.inr (.inl rfl)) (.inl rfl)
  | false =>
    have few : n + 1 - Session.firstSequence false = 0 ↔ n < 3 := by
      change n + 1 - 3 = 0 ↔ n < 3
      omega
    rw [few, or_comm, or_assoc]

/-- A sensor that does not listen was at 10, with 12 waiting. Of its frames from 1 on, those from 13 on
are handed on, although all from 3 on are let through. -/
theorem Intake.counter_resumes_late :
    let id : SensorId := .ofNat 7
    let inputs := [oneWay 7 0 10, oneWay 7 1 12]
    let more := oneWay 9 2 30 :: (List.range' 1 14).map fun q : Nat => oneWay 7 (q + 2) q
    let before := (Intake.new true).watch {} id inputs
    let after := (Intake.new true).watch {} id (inputs ++ more)
    let through := (Arrival.heard id more).filter (!·.isNoise)
    through.map (·.sequence) = List.range' 3 12 ∧
      ∃ handed : List Package, after.delivered = before.delivered ++ handed ∧
        handed.map (·.sequence) = [12, 13, 14] ∧
        ¬∀ a ∈ through, a.content ∈ handed.map Package.content := by
  intro id inputs more before after through
  have found : (before.session? id).any fun s =>
      s.lastSequence = 10 ∧ s.waiting.map (·.sequence) = [12] ∧ s.resumption false = 13 := by
    decide +kernel
  obtain ⟨s, live, facts⟩ := (Option.any_eq_true _ _).1 found
  obtain ⟨last, waiting, resume⟩ := of_decide_eq_true facts
  have stays : ∀ k ≤ more.length,
      (((Intake.new true).watch {} id (inputs ++ more.take k)).session? id).isSome := by
    decide +kernel
  have lasts : ∀ pre, pre <+: more →
      (((Intake.new true).watch {} id (inputs ++ pre)).session? id).isSome := by
    intro pre upto
    rw [List.prefix_iff_eq_take.1 upto]
    exact stays pre.length upto.length_le
  obtain ⟨handed, delivered, contents, all⟩ := counter_resumes {} id inputs more s 14 false
    (by decide +kernel) live (by omega) (by decide +kernel) (by decide +kernel) lasts
  refine ⟨by decide +kernel, handed, delivered, ?_, ?_⟩
  · have some_ : through ≠ [] := by decide +kernel
    have resumed : (through.filter (13 ≤ ·.sequence)).map (·.sequence) = [13, 14] := by
      decide +kernel
    have sequences := congrArg (List.map Prod.fst) contents
    rw [if_neg some_, resume, List.map_append, List.map_map, List.map_map, List.map_map] at sequences
    change handed.map (·.sequence) = s.waiting.map (·.sequence) ++
      (through.filter (13 ≤ ·.sequence)).map (·.sequence) at sequences
    rw [sequences, waiting, resumed]
    rfl
  · rw [all, last]
    decide

end SensorIngest
