import SensorIngest.Proofs.Intake.Watch
import SensorIngest.Proofs.Session.Outcome

/-!
# Ordered delivery

A session that closes gaps hands packages on with strictly ascending sequences until its sensor
restarts the counter. A restart is visible in what is handed on: it is the one place where the
sequence goes back, to the very start or by more than the restart window (`goesBack`), and the package
there is the frame that was just received. All this is about sequences with others behind them.
-/

namespace SensorIngest

open Intake (Effect Input)

/-! ## Sequences of packages -/

/-- The sequence of the last package, or `last` if there is none. -/
def lastSequence (last : Nat) (ps : List Package) : Nat := (ps.map (·.sequence)).getLastD last

/-- The counter goes back to the very start, or by more than the restart window. -/
def goesBack (last sequence : Nat) : Bool :=
  sequence < last &&
    (sequence ≤ Session.restartSequence || Session.restartWindow < last - sequence)

/-- The packages handed on since the counter last went back. -/
def sinceRestart (ps : List Package) : List Package :=
  ps.foldl (fun run p => if goesBack (lastSequence 0 run) p.sequence then [p] else run ++ [p]) []

section
variable {last : Nat} {ps qs : List Package} {p : Package} {own : Package → Prop}

@[simp] theorem lastSequence_nil (last : Nat) : lastSequence last [] = last := rfl

@[simp] theorem lastSequence_cons (last : Nat) (p : Package) (ps : List Package) :
    lastSequence last (p :: ps) = lastSequence p.sequence ps := by
  rw [lastSequence, List.map_cons, List.getLastD_cons]
  rfl

@[simp] theorem lastSequence_append (last : Nat) (ps qs : List Package) :
    lastSequence last (ps ++ qs) = lastSequence (lastSequence last ps) qs := by
  induction ps generalizing last with
  | nil => rfl
  | cons p ps ih => rw [List.cons_append, lastSequence_cons, ih, lastSequence_cons]

theorem getLast?_sequence (p : Package) (ps : List Package) :
    (p :: ps).getLast?.map (·.sequence) = some (lastSequence p.sequence ps) := by
  induction ps generalizing p with
  | nil => rfl
  | cons q ps ih => rw [List.getLast?_cons_cons, ih, lastSequence_cons]

theorem lastSequence_package (last : Nat) (sensor : SensorId) (ps : List Parked) :
    lastSequence last (ps.map (·.package sensor)) = Session.reach last ps := by
  rw [lastSequence, Session.reach, List.map_map]
  rfl

/-- Every package is above the one before it, unless it may go back and does. -/
def Follows (own : Package → Prop) (last : Nat) : List Package → Prop
  | [] => True
  | p :: rest =>
    (last < p.sequence ∨ own p ∧ goesBack last p.sequence = true) ∧ Follows own p.sequence rest

theorem Follows.append (h : Follows own last ps) (k : Follows own (lastSequence last ps) qs) :
    Follows own last (ps ++ qs) := by
  induction ps generalizing last with
  | nil => exact k
  | cons p ps ih =>
    rw [lastSequence_cons] at k
    exact ⟨h.1, ih h.2 k⟩

theorem Follows.of_append (h : Follows own last (ps ++ qs)) :
    Follows own last ps ∧ Follows own (lastSequence last ps) qs := by
  induction ps generalizing last with
  | nil => exact ⟨trivial, h⟩
  | cons p ps ih =>
    rw [List.cons_append] at h
    obtain ⟨front, rest⟩ := ih h.2
    exact ⟨⟨h.1, front⟩, by rwa [lastSequence_cons]⟩

theorem Follows.mono {all : Package → Prop} (h : Follows own last ps) (imp : ∀ p, own p → all p) :
    Follows all last ps := by
  induction ps generalizing last with
  | nil => trivial
  | cons p ps ih => exact ⟨h.1.imp_right (And.imp_left (imp p)), ih h.2⟩

/-- How often the step from one sequence to the next is of some kind. -/
def steps (kind : Nat → Nat → Bool) (last : Nat) : List Package → Nat
  | [] => 0
  | p :: rest => (kind last p.sequence).toNat + steps kind p.sequence rest

theorem steps_append (kind : Nat → Nat → Bool) (last : Nat) (ps qs : List Package) :
    steps kind last (ps ++ qs) = steps kind last ps + steps kind (lastSequence last ps) qs := by
  induction ps generalizing last with
  | nil => exact (Nat.zero_add _).symm
  | cons p ps ih => rw [List.cons_append, steps, steps, ih, lastSequence_cons, Nat.add_assoc]

theorem countP_zip (kind : Nat → Nat → Bool) (p : Package) (ps : List Package) :
    ((p :: ps).zip ps).countP (fun (p, q) => kind p.sequence q.sequence) =
      steps kind p.sequence ps := by
  induction ps generalizing p with
  | nil => rfl
  | cons q ps ih =>
    rw [List.zip_cons_cons, List.countP_cons, ih, steps, Nat.add_comm]
    cases known : kind p.sequence q.sequence <;> simp [known]

theorem goesBack_eq_false {last next : Nat} (le : last ≤ next) : goesBack last next = false := by
  rw [goesBack, decide_eq_false (Nat.not_lt_of_le le), Bool.false_and]

/-- Packages that follow go back wherever they do not advance. -/
theorem Follows.steps_back (h : Follows own last ps) :
    steps (fun last next => next ≤ last) last ps = steps goesBack last ps := by
  induction ps generalizing last with
  | nil => rfl
  | cons p ps ih =>
    have same : decide (p.sequence ≤ last) = goesBack last p.sequence := by
      rcases h.1 with above | ⟨-, back⟩
      · rw [goesBack_eq_false (Nat.le_of_lt above), decide_eq_false (Nat.not_le_of_lt above)]
      · obtain ⟨lower, -⟩ := Bool.and_eq_true_iff.1 back
        rw [back, decide_eq_true (Nat.le_of_lt (of_decide_eq_true lower))]
    rw [steps, steps, ih h.2, same]

/-- Parked packets follow in ascending order. -/
theorem follows_package {ps : List Parked} (sensor : SensorId)
    (above : ∀ p ∈ ps, last < p.sequence) (sorted : ps.Pairwise (·.sequence < ·.sequence)) :
    Follows own last (ps.map (·.package sensor)) := by
  induction ps generalizing last with
  | nil => trivial
  | cons p ps ih =>
    rw [List.pairwise_cons] at sorted
    exact ⟨.inl (above p List.mem_cons_self), ih sorted.1 sorted.2⟩

/-! ## Since the counter went back -/

theorem sinceRestart_append_singleton (ps : List Package) (p : Package) :
    sinceRestart (ps ++ [p]) =
      if goesBack (lastSequence 0 (sinceRestart ps)) p.sequence then [p]
      else sinceRestart ps ++ [p] := by
  rw [sinceRestart, List.foldl_append]
  rfl

theorem lastSequence_sinceRestart (ps : List Package) :
    lastSequence 0 (sinceRestart ps) = lastSequence 0 ps := by
  induction ps using List.reverseRecOn with
  | nil => rfl
  | append_singleton ps p ih =>
    rw [sinceRestart_append_singleton]
    split <;> simp

/-- The last one of packages in ascending order is the highest. -/
theorem le_lastSequence (last : Nat) (sorted : ps.Pairwise (·.sequence < ·.sequence)) (mem : p ∈ ps) :
    p.sequence ≤ lastSequence last ps := by
  induction ps using List.reverseRecOn with
  | nil => cases mem
  | append_singleton ps q ih =>
    rw [lastSequence_append]
    rcases List.mem_append.1 mem with mem | mem
    · exact Nat.le_of_lt ((List.pairwise_append.1 sorted).2.2 p mem q List.mem_cons_self)
    · cases List.mem_singleton.1 mem
      exact Nat.le_refl _

/-- A package that follows in order is above all since the counter went back. -/
theorem below_of_lt (sorted : (sinceRestart ps).Pairwise (·.sequence < ·.sequence))
    (lt : lastSequence 0 ps < p.sequence) : ∀ q ∈ sinceRestart ps, q.sequence < p.sequence := by
  intro q mem
  have := le_lastSequence 0 sorted mem
  rw [lastSequence_sinceRestart] at this
  exact Nat.lt_of_le_of_lt this lt

theorem sorted_sinceRestart_append (sorted : (sinceRestart ps).Pairwise (·.sequence < ·.sequence))
    (follows : Follows own (lastSequence 0 ps) qs) :
    (sinceRestart (ps ++ qs)).Pairwise (·.sequence < ·.sequence) := by
  -- A package that goes back starts anew, and any other one is above the highest so far.
  induction qs generalizing ps with
  | nil => rwa [List.append_nil]
  | cons q qs ih =>
    rw [List.append_cons]
    refine ih ?_ (by simpa using follows.2)
    rw [sinceRestart_append_singleton, lastSequence_sinceRestart]
    split
    · exact List.pairwise_singleton _ _
    · rename_i stays
      have lt := follows.1.resolve_right fun back => stays back.2
      refine List.pairwise_append.2 ⟨sorted, List.pairwise_singleton _ _, ?_⟩
      rintro p mem _ (_ | ⟨_, ⟨⟩⟩)
      exact below_of_lt sorted lt p mem

end

/-! ## One frame -/

namespace Session

variable {s t : Session} {b c : Backlog} {a : Arrival} {ps : List Parked} {sampled : Bool}
  {effects : List Effect} {r : Session × Option Reply × List Effect}

/-- Packages in order from where the session was to where it is. -/
structure Advances (a : Arrival) (s : Session) (ps : List Package) (t : Session) : Prop where
  follows : Follows (fun p => ∃ sampled, p = a.package sampled) s.lastSequence ps
  last : t.lastSequence = SensorIngest.lastSequence s.lastSequence ps

theorem Advances.append {ps qs : List Package} {u : Session} (h : Advances a s ps t)
    (k : Advances a t qs u) : Advances a s (ps ++ qs) u where
  follows := h.follows.append (h.last ▸ k.follows)
  last := by rw [k.last, h.last, lastSequence_append]

theorem Room.advances (room : Room s b a ps t c effects) (h : s.Ordered b) :
    Advances a s (Effect.packages effects) t := by
  rw [room.packages]
  refine ⟨follows_package _ (fun p mem => ?_) room.releases.sorted, ?_⟩
  · exact h.above p (room.releases.mem mem)
  · rw [lastSequence_package, room.lastSequence]

theorem lt_of_consecutive {last : Nat} {run : List Parked}
    (consecutive : run.map (·.sequence) = List.range' (last + 1) run.length) :
    ∀ p ∈ run, last < p.sequence := by
  intro p mem
  have inside := List.mem_map_of_mem (f := (·.sequence)) mem
  rw [consecutive, List.mem_range'_1] at inside
  exact inside.1

/-- A restart goes back from all that waits, too. -/
theorem Ordered.goesBack_reach (h : s.Ordered b) (restart : s.isRestart a.sequence = true) :
    goesBack (reach s.lastSequence b.entries) a.sequence = true :=
  isRestart_of_le (t := s.movedTo (reach s.lastSequence b.entries) b) restart
    (le_reach h.above b.entries_sorted)

theorem Settles.advances (settles : Settles s b a sampled r c) (h : s.Ordered b) :
    Advances a s (Effect.packages r.2.2) r.1 := by
  have waiting : Follows (fun p => ∃ sampled, p = a.package sampled) s.lastSequence _ :=
    follows_package s.sensor h.above b.entries_sorted
  cases settles with
  | waits =>
    rw [packages_repeatedly]
    exact ⟨trivial, rfl⟩
  | asks =>
    rw [Effect.packages_append, packages_repeatedly, packages_requesting]
    exact ⟨trivial, rfl⟩
  | @inTurn run c next above left consecutive gap =>
    have run_eq := reach_of_range' consecutive
    simp only [Effect.packages_append, packages_answered, Effect.packages_dispatch,
      packages_handed, List.nil_append]
    refine ⟨⟨.inl above, follows_package _ (lt_of_consecutive consecutive) left.sorted⟩, ?_⟩
    · rw [lastSequence_cons, lastSequence_package]
      exact run_eq.symm
  | late started le same =>
    simp only [List.cons_append, packages_behind, Effect.packages_append, packages_handed,
      Effect.packages_count, Effect.packages_nil, List.append_nil]
    exact ⟨waiting, (lastSequence_package _ _ _).symm⟩
  | restarted restart =>
    simp only [List.cons_append, packages_behind, Effect.packages_append, packages_handed,
      Effect.packages_dispatch, Effect.packages_nil]
    refine ⟨waiting.append ⟨.inr ⟨⟨sampled, rfl⟩, ?_⟩, trivial⟩, ?_⟩
    · rw [lastSequence_package]
      exact h.goesBack_reach restart
    · rw [lastSequence_append]
      rfl

theorem Takes.advances (takes : Takes s b a r c) (h : s.Ordered b) :
    Advances a s (Effect.packages r.2.2) r.1 := by
  cases takes with
  | repeated => exact ⟨trivial, rfl⟩
  | settled fresh room settles =>
    have greeted := h.greet a
    have all := (room.advances greeted).append (settles.advances (room.ordered greeted))
    rw [Effect.packages_append]
    exact ⟨all.follows, all.last⟩

end Session

/-! ## A whole life -/

/-- What holds of the life of a sensor's session with resending on. -/
structure Life.Orderly (id : SensorId) (life : Life) : Prop where
  sensor : life.session.sensor = id
  ordered : ∃ b, life.session.Ordered b
  last : life.session.lastSequence = lastSequence 0 life.delivered
  ascending : (sinceRestart life.delivered).Pairwise (·.sequence < ·.sequence)

namespace Life

variable {id : SensorId} {life : Life} {a : Arrival}

theorem orderly_born (a : Arrival) : (born true a).Orderly a.header.sensor where
  sensor := rfl
  ordered := ⟨_, Session.ordered_new _ _⟩
  last := rfl
  ascending := .nil

/-- A frame keeps the session in order, and its packages follow those handed on before. -/
theorem Orderly.receive (h : life.Orderly a.header.sensor) (real : a.isNoise = false)
    (bearable : Session.Bearable a.sequence) :
    (∃ b, (life.session.receive true a).1.Ordered b) ∧
      Session.Advances a life.session (Effect.packages (life.session.receive true a).2.2)
        (life.session.receive true a).1 := by
  obtain ⟨b, ordered⟩ := h.ordered
  obtain ⟨c, takes⟩ := Session.receive_takes ordered h.sensor real bearable
  exact ⟨⟨c, takes.ordered ordered bearable⟩, takes.advances ordered⟩

/-- The life before a frame: the one there is, or that of a session that the frame creates. -/
theorem orderly_getD (was : Option Life) (h : ∀ life, was = some life → life.Orderly a.header.sensor) :
    (was.getD (born true a)).Orderly a.header.sensor := by
  cases was with
  | none => exact orderly_born a
  | some life => exact h life rfl

theorem Orderly.next {was : Option Life} (h : (was.getD (born true a)).Orderly a.header.sensor)
    (real : a.isNoise = false) (bearable : Session.Bearable a.sequence) :
    (next true true was a).Orderly a.header.sensor := by
  obtain ⟨ordered, advances⟩ := h.receive real bearable
  have delivered : (Life.next true true was a).delivered =
      (was.getD (born true a)).delivered ++
        Effect.packages ((was.getD (born true a)).session.receive true a).2.2 := by
    simp [Life.next, Life.delivered]
  refine ⟨(Session.receive_speaks h.sensor true a).1, ordered, ?_, ?_⟩
  · rw [delivered, lastSequence_append, ← h.last]
    exact advances.last
  · rw [delivered]
    exact sorted_sinceRestart_append h.ascending (h.last ▸ advances.follows)

/-- Every life with resending on is orderly. -/
theorem orderly_after {as : List Arrival}
    (own : ∀ a ∈ as, a.header.sensor = id ∧ a.isNoise = false)
    (bearable : ∀ a ∈ as, Session.Bearable a.sequence) (h : after true true as = some life) :
    life.Orderly id := by
  induction as using List.reverseRecOn generalizing life with
  | nil => cases h
  | append_singleton as a ih =>
    obtain ⟨rfl, real⟩ := own a (by simp)
    rw [after_append_singleton, Option.some_inj] at h
    subst h
    have before := fun b mem => own b (List.mem_append_left [a] mem)
    rw [List.forall_mem_append] at bearable
    exact Orderly.next (orderly_getD _ fun life found => ih before bearable.1 found) real
      (bearable.2 a (List.mem_singleton_self a))

end Life

/-! ## Every run -/

namespace Watch

variable {id : SensorId} {w : Watch} {now : Micros} {input : Input} {a : Arrival}

/-- What was noted of the live session is in order. -/
theorem Steady.orderly (h : w.Steady id) :
    (sinceRestart w.delivered).Pairwise (·.sequence < ·.sequence) ∧
      ∀ s, w.session? id = some s → s.lastSequence = lastSequence 0 w.delivered := by
  cases live : w.session? id with
  | none =>
    rw [delivered, (h.idle live).2]
    refine ⟨.nil, fun s found => ?_⟩
    cases found
  | some s =>
    have life := h.life
    rw [live] at life
    have orderly := Life.orderly_after h.own h.bearable life
    refine ⟨orderly.ascending, fun t found => ?_⟩
    cases found
    exact orderly.last

/-- What a frame finds is in order. -/
theorem Steady.orderly_before (h : w.Steady id) (own : Arrival.for? id now input = some a) :
    (Life.mk (w.intake.sessionFor a) w.replies w.effects).Orderly id := by
  obtain ⟨-, -, rfl, -⟩ := Arrival.for?_eq_some own
  rw [← h.life_before rfl]
  exact Life.orderly_getD _ fun life found => Life.orderly_after h.own h.bearable found

end Watch

/-- With sequences that have others behind them, a package handed on is above all that were handed on
for the session since the counter last went back, unless it is the frame just received and the counter
goes back with it. After every step what was handed on since then has ascending sequences, and the
session's is the last of them. -/
theorem Intake.delivery_ordered (readings : Counters) (id : SensorId)
    (inputs : List (Micros × Input)) (now : Micros) (input : Input)
    (bearable : ∀ x ∈ inputs ++ [(now, input)], x.2.Bearable x.1) :
    let before := (Intake.new true).watch readings id inputs
    let after := before.step id (now, input)
    let handed := before.handed id now input
    (∀ pre p post, handed = pre ++ p :: post →
      (∀ q ∈ sinceRestart (before.delivered ++ pre), q.sequence < p.sequence) ∨
        (∃ a sampled, Arrival.for? id now input = some a ∧ p = a.package sampled) ∧
          goesBack (lastSequence 0 (before.delivered ++ pre)) p.sequence = true) ∧
    (handed ≠ [] → after.delivered = before.delivered ++ handed) ∧
    (sinceRestart after.delivered).Pairwise (·.sequence < ·.sequence) ∧
    ∀ s, after.session? id = some s → s.lastSequence = lastSequence 0 after.delivered := by
  intro before after handed
  obtain ⟨earlier, last⟩ := List.forall_mem_append.1 bearable
  have bearable := (last _ (List.mem_singleton_self _)).of_for? id
  have steady := watch_steady readings id fun x mem => (earlier x mem).of_for? id
  have faithful := steady.toFaithful
  have orderly := (steady.step bearable).orderly
  cases own : Arrival.for? id now input with
  | none =>
    have nothing : handed = [] := packages_step_of_none faithful.keyed own
    refine ⟨fun pre p post split => ?_, fun some_ => absurd nothing some_, orderly⟩
    rw [nothing] at split
    cases pre <;> cases split
  | some a =>
    obtain ⟨-, -, -, noted, packages⟩ := faithful.noted own
    refine ⟨fun pre p post split => ?_, fun _ => noted.trans (packages ▸ rfl), orderly⟩
    have found := steady.orderly_before own
    have next := bearable a own
    obtain ⟨-, -, rfl, real⟩ := Arrival.for?_eq_some own
    have follows := (found.receive real next).2.follows
    rw [← packages, show before.handed a.header.sensor now input = handed from rfl, split,
      found.last] at follows
    obtain ⟨front, next, -⟩ := follows.of_append
    rw [← lastSequence_append] at next
    rcases next with lt | ⟨⟨sampled, itself⟩, back⟩
    · exact .inl (below_of_lt (sorted_sinceRestart_append found.ascending front) lt)
    · exact .inr ⟨⟨a, sampled, rfl, itself⟩, back⟩

/-- The counter restarts from the highest sequence that there may be, and restarts again while a packet
waits, which goes first. -/
theorem Intake.delivery_ordered_restarted :
    let inputs := [probe 0 18446744073709551614, probe 1 18446744073709540000,
      probe 2 18446744073709540002]
    let before := (new true).watch {} (.ofNat 7) inputs
    let after := before.step (.ofNat 7) (probe 3 1)
    (∀ x ∈ inputs ++ [probe 3 1], x.2.Bearable x.1) ∧
      before.delivered.map (·.sequence) = [18446744073709551614, 18446744073709540000] ∧
      after.delivered.map (·.sequence) =
        [18446744073709551614, 18446744073709540000, 18446744073709540002, 1] ∧
      (sinceRestart after.delivered).Pairwise (·.sequence < ·.sequence) := by
  intro inputs before after
  have bearable : ∀ x ∈ inputs ++ [probe 3 1], x.2.Bearable x.1 := by decide +kernel
  obtain ⟨-, -, ascending, -⟩ := delivery_ordered {} (.ofNat 7) inputs 3 (probe 3 1).2 bearable
  exact ⟨bearable, by decide +kernel, by decide +kernel, ascending⟩

end SensorIngest
