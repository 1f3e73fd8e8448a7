import SensorIngest.Proofs.Backlog
import SensorIngest.Proofs.Word
import SensorIngest.Session.Gap

/-!
# Handing packets on

What `handOff`, `releaseAll`, `drainAll`, `drainContiguous` and `forceDrain` do to a session whose
parked packets all lie above the sequence: they hand on a front part of the backlog in ascending
order, and the sequence becomes that of the last packet handed on (`reach`). Each statement gives the
whole result. Where packets are handed on as long as they continue the sequence, every sequence has to
have another one behind it (`Bearable`).
-/

namespace SensorIngest

open Intake (Effect)

/-- A parked packet as it is handed on. -/
def Parked.package (p : Parked) (sensor : SensorId) : Package :=
  ⟨sensor, p.sequence, p.arrival, false, p.frame⟩

namespace Session

variable {s : Session} {b : Backlog} {p : Parked} {ps qs : List Parked} {last : Nat}

/-- The effects of handing parked packets on. -/
def handed (sensor : SensorId) (ps : List Parked) : List Effect :=
  ps.map fun p => .dispatch (p.package sensor)

@[simp] theorem packages_handed (sensor : SensorId) (ps : List Parked) :
    Effect.packages (handed sensor ps) = ps.map (·.package sensor) := by
  induction ps with
  | nil => rfl
  | cons p ps ih =>
    rw [handed, List.map_cons, Effect.packages_dispatch, List.map_cons, ← ih]
    rfl

/-! ## Sequences with another one behind them -/

/-- A sequence that 64 bits hold, like the one behind it. -/
def Bearable (sequence : Nat) : Prop := sequence < 2 ^ 64 - 1

instance (sequence : Nat) : Decidable (Bearable sequence) := inferInstanceAs (Decidable (_ < _))

theorem following_eq (bearable : Bearable s.lastSequence) : s.following = s.lastSequence + 1 :=
  Word.unsigned_eq (Nat.add_lt_of_lt_sub bearable)

theorem isAhead_eq (bearable : Bearable s.lastSequence) (sequence : Nat) :
    s.isAhead sequence = (0 < s.lastSequence && s.lastSequence + 1 < sequence : Bool) := by
  rw [isAhead, following_eq bearable]

theorem Bearable.handOff {sequence : Nat} (h : Bearable s.lastSequence) (bearable : Bearable sequence)
    (arrival : Micros) (sampled : Bool) (frame : Bytes) :
    Bearable (s.handOff sequence arrival sampled frame).1.lastSequence := by
  simp only [Session.handOff]
  split
  · exact bearable
  · rcases Nat.le_total s.lastSequence sequence with le | le
    · rw [Nat.max_eq_right le]
      exact bearable
    · rw [Nat.max_eq_left le]
      exact h

/-- Only a request for zero is none. -/
theorem Request.of?_eq_some {sequence : Nat} {sentAt : Micros} {r : Request}
    (h : Request.of? sequence sentAt = some r) : sequence ≠ 0 ∧ r = ⟨sequence, sentAt⟩ := by
  unfold Request.of? at h
  split at h
  · cases h
  · cases h
    exact ⟨‹_›, rfl⟩

/-! ## Where a list of packets ends -/

/-- The sequence after packets were handed on. -/
def reach (last : Nat) (ps : List Parked) : Nat := (ps.map (·.sequence)).getLastD last

@[simp] theorem reach_cons (last : Nat) (p : Parked) (ps : List Parked) :
    reach last (p :: ps) = reach p.sequence ps := by
  rw [reach, List.map_cons, List.getLastD_cons]
  rfl

theorem Bearable.reach (h : Bearable last) (all : ∀ p ∈ ps, Bearable p.sequence) :
    Bearable (reach last ps) := by
  induction ps generalizing last with
  | nil => exact h
  | cons p ps ih =>
    rw [List.forall_mem_cons] at all
    rw [reach_cons]
    exact ih all.1 all.2

theorem le_reach (above : ∀ p ∈ ps, last < p.sequence)
    (sorted : ps.Pairwise (·.sequence < ·.sequence)) : last ≤ reach last ps := by
  induction ps generalizing last with
  | nil => exact Nat.le_refl _
  | cons p ps ih =>
    rw [List.pairwise_cons] at sorted
    rw [reach_cons]
    exact Nat.le_trans (Nat.le_of_lt (above p List.mem_cons_self)) (ih sorted.1 sorted.2)

theorem sequence_le_reach (sorted : ps.Pairwise (·.sequence < ·.sequence)) (mem : p ∈ ps) :
    p.sequence ≤ reach last ps := by
  induction ps generalizing last with
  | nil => cases mem
  | cons q ps ih =>
    rw [List.pairwise_cons] at sorted
    rw [reach_cons]
    rcases List.mem_cons.1 mem with rfl | mem
    · exact le_reach sorted.1 sorted.2
    · exact ih sorted.2 mem

/-- Packets with consecutive sequences end where their number says. -/
theorem reach_of_range' (run : ps.map (·.sequence) = List.range' (last + 1) ps.length) :
    reach last ps = last + ps.length := by
  induction ps generalizing last with
  | nil => rfl
  | cons p ps ih =>
    simp only [List.map_cons, List.length_cons, List.range'_succ, List.cons.injEq] at run
    rw [reach_cons, run.1, ih run.2, List.length_cons]
    omega

/-- The sequence moves when a packet is handed on. -/
theorem lt_reach (above : ∀ p ∈ ps, last < p.sequence)
    (sorted : ps.Pairwise (·.sequence < ·.sequence)) (ne : ps ≠ []) : last < reach last ps := by
  obtain ⟨p, qs, rfl⟩ := List.exists_cons_of_ne_nil ne
  have first := above p List.mem_cons_self
  exact Nat.lt_of_lt_of_le first (sequence_le_reach sorted List.mem_cons_self)

/-! ## One packet, and a list of them -/

theorem handOff_eq {sequence : Nat} (arrival : Micros) (sampled : Bool) (frame : Bytes)
    (h : s.lastSequence < sequence ∨ s.isRestart sequence = true) :
    s.handOff sequence arrival sampled frame =
      ({ s with lastSequence := sequence },
        [.dispatch ⟨s.sensor, sequence, arrival, sampled, frame⟩]) := by
  rw [handOff]
  rcases h with lt | restart
  · have : s.isRestart sequence = false := by simp [isRestart]; omega
    rw [this, if_neg Bool.false_ne_true, Nat.max_eq_right (Nat.le_of_lt lt)]
  · rw [if_pos restart]

theorem release_eq (h : s.lastSequence < p.sequence) :
    s.release p = ({ s with lastSequence := p.sequence }, handed s.sensor [p]) :=
  handOff_eq p.arrival false p.frame (.inl h)

theorem releaseAll_eq (above : ∀ p ∈ ps, s.lastSequence < p.sequence)
    (sorted : ps.Pairwise (·.sequence < ·.sequence)) :
    s.releaseAll ps =
      ({ s with lastSequence := reach s.lastSequence ps }, handed s.sensor ps) := by
  induction ps generalizing s with
  | nil => rfl
  | cons p ps ih =>
    rw [List.pairwise_cons] at sorted
    rw [releaseAll, release_eq (above p List.mem_cons_self)]
    dsimp only
    rw [ih sorted.1 sorted.2, reach_cons]
    rfl

/-! ## Drains -/

theorem drainAll_eq (hb : s.backlog = some b)
    (above : ∀ p ∈ b.entries, s.lastSequence < p.sequence) :
    s.drainAll =
      ({ s with lastSequence := reach s.lastSequence b.entries, backlog := some b.drain.2 },
        handed s.sensor b.entries) := by
  have all := releaseAll_eq above b.entries_sorted
  rw [drainAll, hb]
  dsimp only
  rw [show b.drain.1 = b.entries from rfl, all]

/-- Nothing leaves a backlog that starts behind a gap. -/
theorem drainContiguous_of_gap (hb : s.backlog = some b)
    (gap : ∀ p ∈ b.entries, s.following < p.sequence) : s.drainContiguous = (s, []) := by
  have stay := Backlog.popThrough_of_lt gap
  unfold drainContiguous
  split
  · rfl
  · rename_i hb'
    cases hb.symm.trans hb'
    split
    · rfl
    · rename_i pop
      rw [stay] at pop
      cases pop

theorem drainContiguous_of_pop {c : Backlog} (hb : s.backlog = some b)
    (pop : b.popThrough s.following = some (p, c)) (turn : s.following ≤ p.sequence)
    (lt : s.lastSequence < p.sequence) :
    s.drainContiguous =
      let r := { s with lastSequence := p.sequence, backlog := some c }.drainContiguous
      (r.1, handed s.sensor [p] ++ r.2) := by
  rw [drainContiguous.eq_def]
  split
  · rename_i hb'
    rw [hb] at hb'
    cases hb'
  · rename_i hb'
    cases hb.symm.trans hb'
    split
    · rename_i pop'
      rw [pop] at pop'
      cases pop'
    · rename_i pop'
      cases pop.symm.trans pop'
      dsimp only
      rw [if_neg (Nat.not_lt_of_le turn), release_eq (s := { s with backlog := some c }) lt]

/-- Exactly the packets that continue the sequence without a gap are handed on. -/
theorem drainContiguous_eq (hb : s.backlog = some b) (bearable : Bearable s.lastSequence)
    (all : ∀ p ∈ b.entries, Bearable p.sequence)
    (above : ∀ p ∈ b.entries, s.lastSequence < p.sequence) :
    ∃ run c, b.Releases run c ∧
      run.map (·.sequence) = List.range' (s.lastSequence + 1) run.length ∧
      (∀ p ∈ c.entries, s.lastSequence + run.length + 1 < p.sequence) ∧
      s.drainContiguous =
        ({ s with lastSequence := s.lastSequence + run.length, backlog := some c },
          handed s.sensor run) := by
  -- On the list of what waits: its front leaves if it comes next, and otherwise nothing does.
  have limit := following_eq bearable
  induction e : b.entries generalizing s b with
  | nil =>
    have gap : ∀ q ∈ b.entries, s.lastSequence + 1 < q.sequence := by simp [e]
    exact ⟨[], b, .refl b, rfl, gap, by rw [drainContiguous_of_gap hb (limit ▸ gap), ← hb]; rfl⟩
  | cons p ps ih =>
    have sorted := b.entries_sorted
    rw [e, List.pairwise_cons] at sorted
    rw [e, List.forall_mem_cons] at all
    by_cases next : p.sequence = s.lastSequence + 1
    · obtain ⟨c, pop, front⟩ := Backlog.popOldest_of_cons e
      have rest : c.entries = ps := by simpa [e] using front.entries.symm
      rw [← Backlog.popThrough_of_cons e (Nat.le_of_eq (next.trans limit.symm))] at pop
      let moved := { s with lastSequence := p.sequence, backlog := some c }
      obtain ⟨run, d, left, consecutive, gap, eq⟩ :=
        ih (s := moved) rfl all.1 (rest ▸ all.2) (rest ▸ sorted.1) (following_eq all.1) rest
      simp only [moved, next] at consecutive gap eq
      refine ⟨p :: run, d, front.trans left, ?_, ?_, ?_⟩
      · rw [List.map_cons, consecutive, next, List.length_cons, List.range'_succ]
      · intro q mem
        have := gap q mem
        rw [List.length_cons]
        omega
      · rw [drainContiguous_of_pop hb pop (by omega) (by omega), next, eq, List.length_cons,
          Nat.add_right_comm, Nat.add_assoc s.lastSequence]
        rfl
    · have gap : ∀ q ∈ b.entries, s.lastSequence + 1 < q.sequence := by
        intro q mem
        have first := above p (e ▸ List.mem_cons_self)
        rcases List.mem_cons.1 (e ▸ mem) with rfl | mem
        · omega
        · have := sorted.1 q mem
          omega
      exact ⟨[], b, .refl b, rfl, gap, by rw [drainContiguous_of_gap hb (limit ▸ gap), ← hb]; rfl⟩

/-- A forced drain hands on the oldest packet, across the gap, and all that continue it. A request
stays open only for a sequence beyond the oldest. -/
theorem forceDrain_eq (hb : s.backlog = some b) (e : b.entries = p :: ps)
    (all : ∀ p ∈ b.entries, Bearable p.sequence) (first : s.lastSequence < p.sequence) :
    ∃ run c, b.Releases (p :: run) c ∧
      run.map (·.sequence) = List.range' (p.sequence + 1) run.length ∧
      (∀ q ∈ c.entries, p.sequence + run.length + 1 < q.sequence) ∧
      s.forceDrain =
        ({ s with
            lastSequence := p.sequence + run.length
            backlog := some c
            redo := 0
            request := s.request.filter fun r => p.sequence < r.sequence },
          .log (.forcingDrain s.sensor s.lastSequence p.sequence s.redo) :: .tick .forcedDrains ::
            handed s.sensor (p :: run)) := by
  have sorted := b.entries_sorted
  rw [e, List.pairwise_cons] at sorted
  rw [e, List.forall_mem_cons] at all
  obtain ⟨c, pop, front⟩ := Backlog.popOldest_of_cons e
  have rest : c.entries = ps := by simpa [e] using front.entries.symm
  let crossed := { s with lastSequence := p.sequence, backlog := some c, redo := 0 }.dropPassedRequest
  obtain ⟨run, d, left, consecutive, gap, drain⟩ :=
    drainContiguous_eq (s := crossed) rfl all.1 (rest ▸ all.2) (rest ▸ sorted.1)
  refine ⟨run, d, front.trans left, consecutive, gap, ?_⟩
  rw [forceDrain, hb, Option.bind_some, pop]
  simp only [release_eq (s := { s with backlog := some c }) first]
  rw [show Session.dropPassedRequest _ = crossed from rfl, drain]
  rfl

/-- There is nothing to hand on where nothing waits. -/
theorem forceDrain_of_empty (hb : s.backlog = some b) (empty : b.entries = []) :
    s.forceDrain = ({ s with redo := 0 }.dropPassedRequest, []) := by
  have nothing : s.backlog.bind Backlog.popOldest = none := by
    rw [hb, Option.bind_some, Backlog.popOldest, Backlog.oldest?_eq_head?, empty]
    rfl
  have stay := drainContiguous_of_gap (s := { s with redo := 0 }.dropPassedRequest) hb
    (by simp [empty])
  rw [forceDrain, nothing]
  simp only [stay, List.nil_append]

end Session

end SensorIngest
