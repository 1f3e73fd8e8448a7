import Mathlib.Data.Finmap
import SensorIngest.Proofs.Backlog

/-!
# A backlog is a finite map

What waits is a finite map from sequences to arrivals and frames (`Backlog.contents`). Operations and
what they answer are data here (`Op`, `Answer`), and `Contents.Yields` says what an operation answers
on a map and what it makes of it, without a word on backlogs. Every operation does on a backlog what
it does on the map of what waits (`Backlog.yields_perform`), and so does a run of them. The size and
the byte count are always those of the map, and the packets that were let in are those that left and
those that wait (`Backlog.contents_exact`).
-/

namespace SensorIngest

open scoped List

/-- A packet as an entry of a map. -/
def Parked.entry (p : Parked) : Σ _ : Nat, Micros × Bytes := ⟨p.sequence, p.arrival, p.frame⟩

theorem Parked.entry_injective : Function.Injective Parked.entry := by
  rintro ⟨sequence, arrival, frame⟩ ⟨_, _, _⟩ same
  cases same
  rfl

namespace Backlog

/-- An operation on a backlog. -/
inductive Op where
  | insert (p : Parked)
  | popOldest
  | popThrough (limit : Nat)
  | drain
deriving DecidableEq

/-- What an operation answers. -/
inductive Answer where
  | inserted (what : Insertion)
  /-- The packets that left, in order. -/
  | released (ps : List Parked)
deriving DecidableEq

/-! ## Maps -/

/-- Arrivals and frames by sequence. -/
abbrev Contents := Finmap fun _ : Nat => Micros × Bytes

namespace Contents

/-- The map has the packet. -/
def Has (m : Contents) (p : Parked) : Prop := m.lookup p.sequence = some (p.arrival, p.frame)

/-- The packet with the least sequence. -/
structure Oldest (m : Contents) (p : Parked) : Prop where
  has : m.Has p
  least : ∀ sequence ∈ m, p.sequence ≤ sequence

/-- The summed length of the frames. -/
def byteCount (m : Contents) : Nat := (m.entries.map fun e => e.2.2.length).sum

/-- On the map `m` an operation has this answer, and turns the map into `n`. -/
inductive Yields (m : Contents) : Op → Answer → (n : Contents) → Prop where
  | accepted {p : Parked} (fresh : p.sequence ∉ m) :
    Yields m (.insert p) (.inserted .accepted) (m.insert p.sequence (p.arrival, p.frame))
  | duplicate {p : Parked} (present : p.sequence ∈ m) :
    Yields m (.insert p) (.inserted .duplicate) m
  | oldest {p : Parked} (oldest : m.Oldest p) :
    Yields m .popOldest (.released [p]) (m.erase p.sequence)
  | nothing (empty : m = ∅) : Yields m .popOldest (.released []) m
  | within {p : Parked} {limit : Nat} (oldest : m.Oldest p) (le : p.sequence ≤ limit) :
    Yields m (.popThrough limit) (.released [p]) (m.erase p.sequence)
  | beyond {limit : Nat} (above : ∀ sequence ∈ m, limit < sequence) :
    Yields m (.popThrough limit) (.released []) m
  | drained {ps : List Parked} (ascending : ps.Pairwise (·.sequence < ·.sequence))
    (all : ∀ p, p ∈ ps ↔ m.Has p) : Yields m .drain (.released ps) ∅

/-- Operations with their answers, one after the other, turn a map into another one. -/
inductive Runs : Contents → List (Op × Answer) → Contents → Prop where
  | nil {m : Contents} : Runs m [] m
  | cons {m n last : Contents} {op : Op} {answer : Answer} {log : List (Op × Answer)} :
    m.Yields op answer n → Runs n log last → Runs m ((op, answer) :: log) last

end Contents

variable {b c : Backlog} {p : Parked} {ps : List Parked}

/-! ## What waits -/

/-- The packets that wait, by their sequences. -/
def contents (b : Backlog) : Contents where
  entries := Multiset.ofList (b.entries.map Parked.entry)
  nodupKeys := by
    rw [Multiset.coe_nodupKeys, List.NodupKeys, List.keys, List.map_map]
    exact List.pairwise_map.2 (b.entries_sorted.imp Nat.ne_of_lt)

theorem entries_contents (b : Backlog) :
    b.contents.entries = Multiset.ofList (b.entries.map Parked.entry) := rfl

theorem has_contents : b.contents.Has p ↔ p ∈ b.entries :=
  Finmap.lookup_eq_some_iff.trans (List.mem_map_of_injective Parked.entry_injective)

theorem mem_contents {sequence : Nat} : sequence ∈ b.contents ↔ b.contains sequence = true := by
  rw [contains_iff, Finmap.mem_iff]
  constructor
  · rintro ⟨⟨arrival, frame⟩, found⟩
    exact ⟨⟨sequence, arrival, frame⟩, has_contents.1 found, rfl⟩
  · rintro ⟨p, mem, rfl⟩
    exact ⟨_, has_contents.2 mem⟩

theorem contents_of_nil (h : b.entries = []) : b.contents = ∅ := by
  refine Finmap.ext ?_
  rw [entries_contents, h]
  rfl

theorem oldest_contents (h : b.entries = p :: ps) : b.contents.Oldest p where
  has := has_contents.2 (h ▸ List.mem_cons_self)
  least sequence mem := by
    obtain ⟨q, waits, rfl⟩ := contains_iff.1 (mem_contents.1 mem)
    have sorted := b.entries_sorted
    rw [h, List.pairwise_cons] at sorted
    rw [h, List.mem_cons] at waits
    rcases waits with rfl | later
    · exact Nat.le_refl _
    · exact Nat.le_of_lt (sorted.1 q later)

theorem contents_insert (fresh : b.contains p.sequence = false) :
    (b.insert p).1.contents = b.contents.insert p.sequence (p.arrival, p.frame) := by
  have absent : p.sequence ∉ b.contents := by simp [mem_contents, fresh]
  refine Finmap.ext ?_
  rw [Finmap.entries_insert_of_notMem absent]
  exact Multiset.coe_eq_coe.2 ((entries_insert_perm fresh).map Parked.entry)

/-- A packet that leaves takes its entry along. -/
theorem Releases.contents_eq (h : b.Releases [p] c) :
    c.contents = b.contents.erase p.sequence := by
  have sorted := b.entries_sorted
  rw [h.entries, List.singleton_append, List.pairwise_cons] at sorted
  refine Finmap.ext_lookup fun sequence => ?_
  by_cases own : sequence = p.sequence
  · subst own
    rw [Finmap.lookup_erase, Finmap.lookup_eq_none, mem_contents, Backlog.contains_iff]
    rintro ⟨q, waits, same⟩
    exact absurd same.symm (Nat.ne_of_lt (sorted.1 q waits))
  · rw [Finmap.lookup_erase_ne own]
    refine Option.ext fun ⟨arrival, frame⟩ => ?_
    let q : Parked := ⟨sequence, arrival, frame⟩
    have stays : q ≠ p := fun same => own (congrArg Parked.sequence same)
    have before : b.contents.Has q ↔ q ∈ b.entries := has_contents
    have after : c.contents.Has q ↔ q ∈ c.entries := has_contents
    rw [h.entries, List.singleton_append, List.mem_cons, or_iff_right stays] at before
    exact after.trans before.symm

theorem card_contents (b : Backlog) : b.contents.keys.card = b.size := by
  change Multiset.card (b.contents.entries.map Sigma.fst) = _
  rw [Multiset.card_map, entries_contents, Multiset.coe_card, List.length_map, length_entries]

theorem byteCount_contents (b : Backlog) : b.contents.byteCount = frameBytes b.entries := by
  rw [Contents.byteCount, entries_contents, Multiset.map_coe, Multiset.sum_coe]
  induction b.entries with
  | nil => rfl
  | cons p ps ih => exact congrArg (p.frame.length + ·) ih

/-! ## Operations -/

/-- What is answered when the lowest packet may have left. -/
def popped (b : Backlog) : Option (Parked × Backlog) → Answer × Backlog
  | none => (.released [], b)
  | some (p, c) => (.released [p], c)

def perform (b : Backlog) : Op → Answer × Backlog
  | .insert p =>
    let (b, what) := b.insert p
    (.inserted what, b)
  | .popOldest => b.popped b.popOldest
  | .popThrough limit => b.popped (b.popThrough limit)
  | .drain =>
    let (ps, b) := b.drain
    (.released ps, b)

/-- Does operations one after the other, and notes each with its answer. -/
def performAll (b : Backlog) : List Op → List (Op × Answer) × Backlog
  | [] => ([], b)
  | op :: ops =>
    let (answer, b) := b.perform op
    let (log, last) := b.performAll ops
    ((op, answer) :: log, last)

/-- An operation does on a backlog what it does on the map of what waits. -/
theorem yields_perform (b : Backlog) (op : Op) :
    b.contents.Yields op (b.perform op).1 (b.perform op).2.contents := by
  cases op with
  | insert p =>
    cases dup : b.contains p.sequence with
    | true =>
      rw [perform, insert_of_contains dup]
      exact .duplicate (mem_contents.2 dup)
    | false =>
      have what : (b.insert p).2 = .accepted := by simp [insert_snd, dup]
      simp only [perform, what, contents_insert dup]
      exact .accepted (by simp [mem_contents, dup])
  | popOldest =>
    cases all : b.entries with
    | nil =>
      have pop : b.popOldest = none := by simp [Backlog.popOldest, oldest?_eq_head?, all]
      rw [perform, pop]
      exact .nothing (contents_of_nil all)
    | cons p ps =>
      obtain ⟨c, pop, left⟩ := popOldest_of_cons all
      rw [perform, pop, popped, left.contents_eq]
      exact .oldest (oldest_contents all)
  | popThrough limit =>
    cases all : b.entries with
    | nil =>
      have pop : b.popThrough limit = none := popThrough_of_lt (by simp [all])
      rw [perform, pop]
      refine .beyond ?_
      simp [mem_contents, contains_iff, all]
    | cons p ps =>
      have oldest := oldest_contents all
      by_cases le : p.sequence ≤ limit
      · obtain ⟨c, pop, left⟩ := popOldest_of_cons all
        rw [perform, popThrough_of_cons all le, pop, popped, left.contents_eq]
        exact .within oldest le
      · have above (sequence : Nat) (mem : sequence ∈ b.contents) : limit < sequence :=
          Nat.lt_of_lt_of_le (Nat.lt_of_not_le le) (oldest.least sequence mem)
        have pop : b.popThrough limit = none := popThrough_of_lt fun q waits =>
          above _ (mem_contents.2 (contains_iff.2 ⟨q, waits, rfl⟩))
        rw [perform, pop]
        exact .beyond above
  | drain =>
    rw [perform, contents_of_nil b.entries_drain]
    exact .drained b.entries_sorted fun p => has_contents.symm

theorem runs_performAll (b : Backlog) (ops : List Op) :
    b.contents.Runs (b.performAll ops).1 (b.performAll ops).2.contents := by
  induction ops generalizing b with
  | nil => exact .nil
  | cons op ops ih => exact .cons (b.yields_perform op) (ih _)

theorem map_fst_performAll (b : Backlog) (ops : List Op) :
    (b.performAll ops).1.map Prod.fst = ops := by
  induction ops generalizing b with
  | nil => rfl
  | cons op ops ih => exact congrArg (op :: ·) (ih _)

/-- To drain a backlog is to take out the lowest packet as long as there is one. -/
theorem drain_eq_match (b : Backlog) :
    b.drain = match b.popOldest with
      | none => ([], b)
      | some (p, c) => (p :: c.drain.1, c.drain.2) := by
  cases pop : b.popOldest with
  | some pair =>
    obtain ⟨p, c⟩ := pair
    have front := (releases_of_popOldest pop).entries
    obtain ⟨_, -, same⟩ := Option.map_eq_some_iff.1 pop
    cases same
    rw [drain, front]
    rfl
  | none =>
    have nil : b.entries = [] := by
      rwa [popOldest, Option.map_eq_none_iff, oldest?_eq_head?, List.head?_eq_none_iff] at pop
    have waiting : b.waiting = ∅ := by
      rw [Std.ExtTreeMap.eq_empty_iff_size_eq_zero]
      exact b.length_entries.symm.trans (congrArg List.length nil)
    rw [drain, nil, ← waiting]
    rfl

theorem popped_releases {r : Option (Parked × Backlog)}
    (h : ∀ p c, r = some (p, c) → b.Releases [p] c) :
    ∃ ps c, b.popped r = (.released ps, c) ∧ b.Releases ps c := by
  cases r with
  | none => exact ⟨[], b, rfl, .refl b⟩
  | some pair => exact ⟨[pair.1], pair.2, rfl, h _ _ rfl⟩

/-- An operation puts a packet in, or takes packets out in order. -/
theorem perform_cases (b : Backlog) (op : Op) :
    (∃ p, op = .insert p) ∨ ∃ ps c, b.perform op = (.released ps, c) ∧ b.Releases ps c := by
  cases op with
  | insert p => exact .inl ⟨p, rfl⟩
  | popOldest => exact .inr (popped_releases fun _ _ => releases_of_popOldest)
  | popThrough => exact .inr (popped_releases fun _ _ => releases_of_popThrough)
  | drain => exact .inr ⟨_, _, rfl, b.releases_drain⟩

theorem insert_eq_duplicate_iff :
    b.insert p = (b, .duplicate) ↔ b.contains p.sequence = true := by
  refine ⟨fun same => ?_, insert_of_contains⟩
  have what := congrArg Prod.snd same
  rw [insert_snd] at what
  split at what
  · assumption
  · cases what

/-! ## Accounting -/

/-- The packets that were let in. -/
def accepted (log : List (Op × Answer)) : List Parked :=
  log.filterMap fun
    | (.insert p, .inserted .accepted) => some p
    | _ => none

/-- The packets that left. -/
def released (log : List (Op × Answer)) : List Parked :=
  log.flatMap fun
    | (_, .released ps) => ps
    | _ => []

theorem accepted_append (first second : List (Op × Answer)) :
    accepted (first ++ second) = accepted first ++ accepted second :=
  List.filterMap_append

theorem released_append (first second : List (Op × Answer)) :
    released (first ++ second) = released first ++ released second :=
  List.flatMap_append

/-- What operations keep, with their answers in `log`, when they leave `c` of `b`. -/
structure Keeps (b : Backlog) (log : List (Op × Answer)) (c : Backlog) : Prop where
  accounted : b.Accounted → c.Accounted
  maxEntries : c.maxEntries = b.maxEntries
  maxBytes : c.maxBytes = b.maxBytes
  /-- What waited and what was let in has left or waits. -/
  split : accepted log ++ b.entries ~ released log ++ c.entries

theorem Keeps.refl (b : Backlog) : b.Keeps [] b := ⟨id, rfl, rfl, .refl _⟩

theorem keeps_perform (b : Backlog) (op : Op) :
    b.Keeps [(op, (b.perform op).1)] (b.perform op).2 := by
  rcases b.perform_cases op with ⟨p, rfl⟩ | ⟨ps, c, does, left⟩
  · refine ⟨(·.insert p), maxEntries_insert b p, maxBytes_insert b p, ?_⟩
    cases dup : b.contains p.sequence with
    | true =>
      rw [perform, insert_of_contains dup]
      exact .refl _
    | false =>
      have what : (b.insert p).2 = .accepted := by simp [insert_snd, dup]
      simp only [perform, what]
      exact (entries_insert_perm dup).symm
  · rw [does]
    refine ⟨left.accounted, left.maxEntries, left.maxBytes, ?_⟩
    have none_ : accepted [(op, .released ps)] = [] := by cases op <;> rfl
    rw [none_, left.entries]
    simp [released]

theorem Keeps.trans {d : Backlog} {first second : List (Op × Answer)} (h : b.Keeps first c)
    (k : c.Keeps second d) : b.Keeps (first ++ second) d where
  accounted := k.accounted ∘ h.accounted
  maxEntries := k.maxEntries.trans h.maxEntries
  maxBytes := k.maxBytes.trans h.maxBytes
  split := by
    rw [accepted_append, released_append]
    calc
      accepted first ++ accepted second ++ b.entries
        ~ accepted second ++ (accepted first ++ b.entries) := by
          rw [← List.append_assoc]
          exact List.perm_append_comm.append_right _
      _ ~ accepted second ++ (released first ++ c.entries) := h.split.append_left _
      _ ~ released first ++ (accepted second ++ c.entries) := List.perm_append_comm_assoc _ _ _
      _ ~ released first ++ (released second ++ d.entries) := k.split.append_left _
      _ = released first ++ released second ++ d.entries := (List.append_assoc _ _ _).symm

theorem keeps_performAll (b : Backlog) (ops : List Op) :
    b.Keeps (b.performAll ops).1 (b.performAll ops).2 := by
  induction ops generalizing b with
  | nil => exact .refl b
  | cons op ops ih => exact (b.keeps_perform op).trans (ih _)

/-- Operations on a backlog that is empty at first answer what they answer on a map that is, and what
waits then is what the map has. A packet is refused, and nothing changes, if and only if its sequence
waits. The byte count is the summed length of the frames, the backlog is full if and only if the
number of packets or their bytes have reached the bound, and the packets that were let in are those
that left and those that wait. -/
theorem contents_exact (maxEntries maxBytes : Nat) (ops : List Op) :
    let start : Backlog := { maxEntries, maxBytes }
    let log := (start.performAll ops).1
    let b := (start.performAll ops).2
    log.map Prod.fst = ops ∧ Contents.Runs ∅ log b.contents ∧
      (∀ p, b.insert p = (b, .duplicate) ↔ p.sequence ∈ b.contents) ∧
      b.size = b.contents.keys.card ∧ b.bytes = b.contents.byteCount ∧
      (b.isFull = true ↔
        maxEntries ≤ b.contents.keys.card ∨ maxBytes ≤ b.contents.byteCount) ∧
      accepted log ~ released log ++ b.entries := by
  intro start log b
  have nil : start.entries = [] := rfl
  have empty : start.contents = ∅ := contents_of_nil nil
  have kept : start.Keeps log b := start.keeps_performAll ops
  have bytes : b.bytes = b.contents.byteCount :=
    (kept.accounted rfl).trans b.byteCount_contents.symm
  refine ⟨start.map_fst_performAll ops, empty ▸ start.runs_performAll ops, fun p => ?_,
    b.card_contents.symm, bytes, ?_, ?_⟩
  · exact insert_eq_duplicate_iff.trans mem_contents.symm
  · rw [isFull, Bool.or_eq_true, decide_eq_true_iff, decide_eq_true_iff, kept.maxEntries,
      kept.maxBytes, bytes, card_contents]
  · have split := kept.split
    rwa [nil, List.append_nil] at split

example :
    (performAll {} [.insert ⟨5, 0, [1]⟩, .insert ⟨4, 1, []⟩, .insert ⟨5, 2, []⟩, .popThrough 4,
      .popThrough 4, .drain]).1.map Prod.snd =
      [.inserted .accepted, .inserted .accepted, .inserted .duplicate, .released [⟨4, 1, []⟩],
        .released [], .released [⟨5, 0, [1]⟩]] := by
  decide +kernel

end Backlog

end SensorIngest
