import Mathlib.Data.List.Nodup
import SensorIngest.Proofs.Intake.Accounting
import SensorIngest.Proofs.Intake.Reordering

/-!
# Several sensors at once

While no connection closes, the receive path hands on for each sensor what the frames of this
sensor bring, and nothing is forgotten (`Lasting.watched`). If those of each sensor bring its
sequences once each, in any order (`Once`), then all of them are handed on in order, none of them
is a duplicate and no gap is given up on (`Lasting.delivered`).
-/

namespace SensorIngest

open Intake (Effect Input)
open Session (resendInterval)
open scoped List

/-! ## One sensor -/

/-- Frames that bring each of the `n` sequences from `s` on once, the lowest one first, in time and
within the bounds of a backlog. -/
structure Once (s n : Nat) (as : List Arrival) : Prop where
  pos : 0 < s
  range : s + n < 2 ^ 64
  first : ∀ a, as.head? = some a → a.sequence = s
  sequences : as.map (·.sequence) ~ List.range' s n
  window : ∃ start, ∀ a ∈ as, start ≤ a.now ∧ a.now ≤ start + 4 * resendInterval
  count : n ≤ 10000
  bytes : Backlog.frameBytes (as.map Arrival.parked) < 2097152

namespace Once

variable {s n : Nat} {as : List Arrival}

theorem nodup (h : Once s n as) : (as.map (·.sequence)).Nodup :=
  h.sequences.nodup_iff.2 List.nodup_range'

theorem firstCopy_eq (h : Once s n as) {a : Arrival} (mem : a ∈ as) :
    firstCopy as a.sequence = some a := by
  obtain ⟨b, found⟩ := Option.isSome_iff_exists.1 (firstCopy_isSome.2 ⟨a, mem, rfl⟩)
  have same : b.sequence = a.sequence := by simpa using List.find?_some found
  rw [found, List.inj_on_of_nodup_map h.nodup (List.mem_of_find?_eq_some found) mem same]

theorem shuffled (h : Once s n as) (some_ : as ≠ []) : Shuffled s n as where
  pos := h.pos
  range := h.range
  first := by
    obtain ⟨a, rest, rfl⟩ := List.exists_cons_of_ne_nil some_
    exact congrArg some (h.first a rfl)
  complete q := by
    rw [← List.mem_map, h.sequences.mem_iff, List.mem_range'_1]
  copies pre a post split := by
    rintro ⟨x, mem, same⟩
    have nodup := h.nodup
    rw [split, List.map_append, List.map_cons] at nodup
    have apart := List.disjoint_of_nodup_append nodup (List.mem_map_of_mem (f := (·.sequence)) mem)
    exact absurd (same ▸ List.mem_cons_self) apart
  window := h.window
  count := h.count
  bytes := by
    have all : (as.map (·.sequence)).filterMap (fun q => (firstCopy as q).map Arrival.parked) =
        as.map Arrival.parked := by
      rw [List.filterMap_map]
      refine (List.filterMap_congr fun a mem => ?_).trans (congrFun List.filterMap_eq_map as)
      rw [Function.comp_apply, h.firstCopy_eq mem]
      rfl
    have same := Backlog.frameBytes_eq_of_perm (h.sequences.filterMap fun q =>
      (firstCopy as q).map Arrival.parked)
    rw [← same, all]
    exact h.bytes

end Once

theorem Once.delivered {id : SensorId} {w : Watch} {s n : Nat} (h : Once s n w.received)
    (faithful : w.Faithful true true id) :
    w.delivered.map (fun p => some p.content) =
        (List.range' s n).map (fun q => (firstCopy w.received q).map Arrival.content) ∧
      ∀ k, .count .forcedDrains k ∉ w.effects := by
  obtain ⟨start, time⟩ := h.window
  cases lived : Life.after true true w.received with
  | none =>
    have nothing := Life.after_eq_none.1 lived
    rw [faithful.life, Option.map_eq_none_iff] at lived
    have count : n = 0 := by
      have length := h.sequences.length_eq
      rw [nothing] at length
      simpa using length.symm
    rw [Watch.delivered, (faithful.idle lived).2, count]
    exact ⟨rfl, fun _ => List.not_mem_nil⟩
  | some life =>
    have some_ : w.received ≠ [] := fun nothing => by
      rw [Life.after_eq_none.2 nothing] at lived
      cases lived
    have shuffled := h.shuffled some_
    obtain ⟨-, k, b, progress⟩ :=
      Progress.after id shuffled faithful.own time (List.prefix_refl _) lived
    obtain ⟨rfl, -⟩ := progress.complete shuffled
    have noted := faithful.life
    rw [lived] at noted
    obtain ⟨session, -, same⟩ := Option.map_eq_some_iff.1 noted.symm
    rw [← same] at progress
    exact ⟨progress.delivered, progress.calm⟩

/-! ## All sensors -/

/-- No connection closes. -/
def Intake.Lasting (inputs : List (Micros × Input)) : Prop :=
  ∀ x ∈ inputs, ∀ peer, x.2 ≠ .closed peer

theorem Intake.watch_append_singleton (i : Intake) (readings : Counters) (id : SensorId)
    (inputs : List (Micros × Input)) (x : Micros × Input) :
    i.watch readings id (inputs ++ [x]) = (i.watch readings id inputs).step id x := by
  rw [watch, List.foldl_append]
  rfl

/-- The frames for the session of a sensor. -/
def Arrival.ofSensor (id : SensorId) (inputs : List (Micros × Input)) : List Arrival :=
  inputs.filterMap fun x => Arrival.for? id x.1 x.2

namespace Watch

variable {resend buffering : Bool} {id : SensorId} {w : Watch} {input : Input}

/-- A session that is not there was not there before either, while no connection closes. -/
theorem Faithful.idle_of_step (h : w.Faithful resend buffering id) (now : Micros)
    (open_ : ∀ peer, input ≠ .closed peer) (other : Arrival.for? id now input = none)
    (gone : (w.step id (now, input)).session? id = none) : w.received = [] ∧ w.effects = [] := by
  have spared : input.spares = fun _ => true := by
    cases input with
    | closed peer => exact absurd rfl (open_ peer)
    | _ => rfl
  have stayed := Intake.get?_step_of_none w.readings h.keyed other
  rw [spared, ← (intake_step id w now input).1] at stayed
  have idle : w.session? id = none := by
    cases live : w.session? id with
    | none => rfl
    | some s =>
      rw [show w.intake.registry.get? id = some s from live] at stayed
      cases gone.symm.trans stayed
  have life := h.life
  rw [idle, Option.map_none, Life.after_eq_none] at life
  exact ⟨life, (h.idle idle).2⟩

/-- While no connection closes, nothing that was noted is forgotten. -/
theorem Faithful.lasting (h : w.Faithful resend buffering id) (now : Micros)
    (open_ : ∀ peer, input ≠ .closed peer) :
    let v := w.step id (now, input)
    v.received = w.received ++ (Arrival.for? id now input).toList ∧
      v.delivered = w.delivered ++ w.handed id now input ∧
      v.effects = w.effects ++ if (Arrival.for? id now input).isSome then
        (w.intake.step w.readings now input).effects else [] := by
  intro v
  cases own : Arrival.for? id now input with
  | some a =>
    obtain ⟨-, received, -, delivered, handed⟩ := h.noted own
    refine ⟨received, delivered.trans (congrArg _ handed.symm), ?_⟩
    exact congrArg Watch.effects (step_of_some h.keyed own)
  | none =>
    have nothing : w.handed id now input = [] := Intake.packages_step_of_none h.keyed own
    rw [nothing]
    simp only [Option.toList_none, Option.isSome_none, Bool.false_eq_true, if_false,
      List.append_nil]
    rcases step_of_none h.keyed own with
      ⟨session, received, -, effects⟩ | ⟨-, received, -, effects⟩
    · obtain ⟨unheard, before⟩ := h.idle_of_step now open_ own session
      exact ⟨received.trans unheard.symm, congrArg Effect.packages (effects.trans before.symm),
        effects.trans before.symm⟩
    · exact ⟨received, congrArg Effect.packages effects, effects⟩

end Watch

namespace Intake.Lasting

variable {inputs : List (Micros × Input)}

theorem forgotten (h : Lasting inputs) (i : Intake) (readings : Counters) :
    Effect.forgotten ((i.run readings inputs).flatMap (·.effects)) = [] := by
  induction inputs generalizing i readings with
  | nil => rfl
  | cons x inputs ih =>
    obtain ⟨now, input⟩ := x
    rw [Lasting, List.forall_mem_cons] at h
    rw [run, List.flatMap_cons, Effect.forgotten_append, forgotten_step i readings now h.1, ih h.2]
    rfl

/-- What was watched of a sensor is its part of all that happened. -/
theorem watched (h : Lasting inputs) (id : SensorId) :
    let w := (Intake.new true).watch {} id inputs
    let l := Ledger.after true true inputs
    w.intake = l.intake ∧ w.readings = l.readings ∧ w.received = Arrival.ofSensor id inputs ∧
      w.delivered = l.handed.filter (·.sensor = id) := by
  induction inputs using List.reverseRecOn with
  | nil => exact ⟨rfl, rfl, rfl, rfl⟩
  | append_singleton inputs x ih =>
    obtain ⟨now, input⟩ := x
    obtain ⟨intake, readings, received, delivered⟩ :=
      ih fun y mem => h y (List.mem_append_left _ mem)
    have faithful := watch_faithful true {} id inputs
    obtain ⟨more, handed, -⟩ := faithful.lasting now (h (now, input) (by simp))
    obtain ⟨stepped, read⟩ := Watch.intake_step id ((Intake.new true).watch {} id inputs) now input
    rw [watch_append_singleton, Ledger.after_append_singleton]
    refine ⟨?_, ?_, ?_, ?_⟩
    · rw [stepped, intake, readings]
      rfl
    · rw [read, intake, readings]
      rfl
    · rw [more, received, Arrival.ofSensor, Arrival.ofSensor, List.filterMap_append]
      cases own : Arrival.for? id now input <;> simp [own]
    · rw [handed, delivered, Watch.handed, intake, readings]
      exact (List.filter_append ..).symm

theorem forcedDrains_eq_zero (h : Lasting inputs)
    (calm : ∀ id n, .count .forcedDrains n ∉ ((Intake.new true).watch {} id inputs).effects) :
    (Ledger.after true true inputs).readings.forcedDrains = 0 := by
  induction inputs using List.reverseRecOn with
  | nil => rfl
  | append_singleton inputs x ih =>
    obtain ⟨now, input⟩ := x
    have lasting : Lasting inputs := fun y mem => h y (List.mem_append_left _ mem)
    have noted (id : SensorId) := ((watch_faithful true {} id inputs).lasting now
      (h (now, input) (by simp))).2.2
    simp only [watch_append_singleton, noted] at calm
    have before := ih lasting fun id n mem => calm id n (List.mem_append_left _ mem)
    have added := Effect.reading_applyAll (Ledger.after true true inputs).readings
      ((Ledger.after true true inputs).intake.step (Ledger.after true true inputs).readings now
        input).effects .forcedDrains
    have none : Effect.total .forcedDrains ((Ledger.after true true inputs).intake.step
        (Ledger.after true true inputs).readings now input).effects = 0 := by
      cases own : input.counted? now with
      | none =>
        rw [total_step _ _ _ _ (.inr own), Input.charges]
        split <;> split <;> rfl
      | some a =>
        have mine := own
        obtain ⟨rfl, rfl, real⟩ := Input.counted?_eq_some own
        have found : Arrival.for? a.header.sensor a.now (.frame a.peer a.raw) = some a := by
          rw [Intake.for?_eq_counted, mine]
          exact if_pos (decide_eq_true rfl)
        obtain ⟨intake, readings, -, -⟩ := lasting.watched a.header.sensor
        refine Effect.total_eq_zero fun n mem => calm a.header.sensor n ?_
        rw [found, Option.isSome_some, if_pos rfl, intake, readings]
        exact List.mem_append_right _ mem
    rw [Ledger.after_append_singleton]
    rw [none] at added
    exact added.trans before

theorem filter_counted (id : SensorId) (inputs : List (Micros × Input)) :
    (counted inputs).filter (·.header.sensor = id) = Arrival.ofSensor id inputs := by
  rw [counted, Arrival.ofSensor, List.filter_filterMap]
  exact List.filterMap_congr fun x _ => (Intake.for?_eq_counted id x.1 x.2).symm

/-- Where as many frames of each sensor were handed on as counted, none is left to repeat. -/
theorem duplicates_eq_zero {l : Ledger} (accounts : l.Accounts inputs)
    (all : ∀ id, (l.handed.filter (·.sensor = id)).length = (Arrival.ofSensor id inputs).length) :
    l.readings.duplicates = 0 := by
  obtain ⟨repeated, count, split⟩ := accounts.split
  have none : repeated = [] := by
    refine List.eq_nil_iff_forall_not_mem.2 fun tag mem => ?_
    have own := (split.filter (·.1 = tag.1)).length_eq
    have received : ((counted inputs).map Arrival.tag).filter (·.1 = tag.1) =
        (Arrival.ofSensor tag.1 inputs).map Arrival.tag := by
      rw [← filter_counted, List.filter_map]
      rfl
    have handed : (l.handed.map Package.tag).filter (·.1 = tag.1) =
        (l.handed.filter (·.sensor = tag.1)).map Package.tag := List.filter_map
    have same := all tag.1
    rw [List.filter_append, List.filter_append, received, handed] at own
    simp only [List.length_append, List.length_map] at own
    have left : repeated.filter (·.1 = tag.1) = [] := by
      rw [← List.length_eq_zero_iff]
      omega
    rw [List.filter_eq_nil_iff] at left
    exact left tag mem (decide_eq_true rfl)
  rw [← count, none]
  rfl

/-- Frames that come once each are handed on in order, and none of them is a duplicate. -/
theorem delivered (h : Lasting inputs) {first count : SensorId → Nat}
    (once : ∀ id, Once (first id) (count id) (Arrival.ofSensor id inputs)) :
    let l := Ledger.after true true inputs
    (∀ id, (l.handed.filter (·.sensor = id)).map (fun p => some p.content) =
        (List.range' (first id) (count id)).map fun q =>
          (firstCopy (Arrival.ofSensor id inputs) q).map Arrival.content) ∧
      l.readings.duplicates = 0 ∧ l.readings.forcedDrains = 0 := by
  intro l
  have all (id : SensorId) :
      (l.handed.filter (·.sensor = id)).map (fun p => some p.content) =
        ((List.range' (first id) (count id)).map fun q =>
          (firstCopy (Arrival.ofSensor id inputs) q).map Arrival.content) ∧
      ∀ k, .count .forcedDrains k ∉ ((Intake.new true).watch {} id inputs).effects := by
    obtain ⟨-, -, received, delivered⟩ := h.watched id
    have own := once id
    rw [← received] at own ⊢
    rw [← delivered]
    exact own.delivered (watch_faithful true {} id inputs)
  refine ⟨fun id => (all id).1, ?_, h.forcedDrains_eq_zero fun id => (all id).2⟩
  refine duplicates_eq_zero (Ledger.accounts_after true true inputs) fun id => ?_
  have handed := congrArg List.length (all id).1
  have received := (once id).sequences.length_eq
  simp only [List.length_map, List.length_range'] at handed received
  exact handed.trans received.symm

end Intake.Lasting

end SensorIngest
