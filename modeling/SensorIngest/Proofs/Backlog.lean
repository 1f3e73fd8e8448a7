import Mathlib.Data.List.Perm.Subperm
import SensorIngest.Session.Backlog

/-!
# The backlog as an ascending list

`Backlog.entries` lists the packets that wait with strictly ascending sequences, and a backlog is
known by this list: an insertion adds a packet that was not there, taking out takes from the front.
`Backlog.Releases b ps c` says that `c` is what is left of `b` once `ps` has left in order, and
`Backlog.Accounted` that the byte count is the sum of the waiting frames.
-/

namespace SensorIngest.Backlog

variable {b c d : Backlog} {p : Parked} {ps qs : List Parked}

/-! ## Entries -/

theorem mem_entries : p ∈ b.entries ↔ b.waiting[p.sequence]? = some (p.arrival, p.frame) := by
  obtain ⟨sequence, arrival, frame⟩ := p
  simp only [entries, List.mem_map, Prod.exists]
  rw [← Std.ExtTreeMap.mem_toList_iff_getElem?_eq_some]
  constructor
  · rintro ⟨q, t, f, mem, e⟩
    cases e
    exact mem
  · intro mem
    exact ⟨sequence, arrival, frame, mem, rfl⟩

theorem entries_sorted (b : Backlog) : b.entries.Pairwise (·.sequence < ·.sequence) := by
  rw [entries, List.pairwise_map]
  exact (Std.ExtTreeMap.ordered_keys_toList (t := b.waiting)).imp Nat.compare_eq_lt.1

theorem nodup_of_sorted (h : ps.Pairwise (·.sequence < ·.sequence)) : ps.Nodup :=
  h.imp fun lt e => absurd (congrArg Parked.sequence e) (Nat.ne_of_lt lt)

/-- Ascending lists with the same members are the same. -/
theorem eq_of_sorted (hp : ps.Pairwise (·.sequence < ·.sequence))
    (hq : qs.Pairwise (·.sequence < ·.sequence)) (h : ∀ p, p ∈ ps ↔ p ∈ qs) : ps = qs := by
  have perm : ps.Perm qs :=
    (List.perm_ext_iff_of_nodup (nodup_of_sorted hp) (nodup_of_sorted hq)).2 h
  refine perm.eq_of_pairwise (fun p q _ _ lt gt => ?_) hp hq
  exact absurd gt (Nat.lt_asymm lt)

theorem contains_iff {sequence : Nat} :
    b.contains sequence = true ↔ ∃ p ∈ b.entries, p.sequence = sequence := by
  rw [contains, Std.ExtTreeMap.contains_iff_mem, Std.ExtTreeMap.mem_iff_isSome_getElem?,
    Option.isSome_iff_exists]
  constructor
  · rintro ⟨⟨arrival, frame⟩, h⟩
    exact ⟨⟨sequence, arrival, frame⟩, mem_entries.2 h, rfl⟩
  · rintro ⟨p, h, rfl⟩
    exact ⟨_, mem_entries.1 h⟩

theorem not_contains_of_lt {sequence : Nat} (h : ∀ p ∈ b.entries, sequence < p.sequence) :
    b.contains sequence = false := by
  rw [Bool.eq_false_iff, ne_eq, contains_iff]
  rintro ⟨p, mem, rfl⟩
  exact Nat.lt_irrefl _ (h p mem)

@[simp] theorem length_entries (b : Backlog) : b.entries.length = b.size := by
  simp [entries, size]

/-! ## Byte count -/

/-- The summed length of frames. -/
def frameBytes : List Parked → Nat
  | [] => 0
  | p :: ps => p.frame.length + frameBytes ps

theorem frameBytes_eq_length (ps : List Parked) :
    frameBytes ps = (ps.flatMap (·.frame)).length := by
  induction ps with
  | nil => rfl
  | cons p ps ih => rw [frameBytes, ih, List.flatMap_cons, List.length_append]

theorem frameBytes_le_of_sublist (h : ps.Sublist qs) : frameBytes ps ≤ frameBytes qs := by
  induction h with
  | slnil => exact Nat.le_refl _
  | cons q _ ih => exact Nat.le_trans ih (Nat.le_add_left _ _)
  | cons_cons p _ ih => exact Nat.add_le_add_left ih _

theorem frameBytes_eq_of_perm (h : ps.Perm qs) : frameBytes ps = frameBytes qs := by
  induction h with
  | nil => rfl
  | cons p _ ih => rw [frameBytes, frameBytes, ih]
  | swap p q ps => exact Nat.add_left_comm _ _ _
  | trans _ _ first second => exact first.trans second

/-- Distinct members of a list are no longer than the list. -/
theorem frameBytes_le_of_subset (nodup : ps.Nodup) (sub : ps ⊆ qs) :
    frameBytes ps ≤ frameBytes qs := by
  obtain ⟨rs, perm, sublist⟩ := List.subperm_of_subset nodup sub
  rw [← frameBytes_eq_of_perm perm]
  exact frameBytes_le_of_sublist sublist

/-- The byte count is that of the waiting frames. -/
def Accounted (b : Backlog) : Prop := b.bytes = frameBytes b.entries

/-! ## Insertion -/

theorem insert_of_contains (h : b.contains p.sequence = true) : b.insert p = (b, .duplicate) := by
  simp [insert, h]

theorem insert_snd (b : Backlog) (p : Parked) :
    (b.insert p).2 = if b.contains p.sequence then .duplicate else .accepted := by
  unfold insert
  split <;> rfl

theorem mem_entries_insert (h : b.contains p.sequence = false) {q : Parked} :
    q ∈ (b.insert p).1.entries ↔ q = p ∨ q ∈ b.entries := by
  rw [mem_entries, insert, if_neg (by simp [h])]
  dsimp only
  rw [Std.ExtTreeMap.getElem?_insert]
  by_cases e : p.sequence = q.sequence
  · rw [if_pos (by simpa using e), Option.some_inj, Prod.mk.injEq]
    constructor
    · rintro ⟨arrival, frame⟩
      left
      cases p; cases q
      cases e; cases arrival; cases frame
      rfl
    · rintro (rfl | mem)
      · exact ⟨rfl, rfl⟩
      · rw [contains_iff.2 ⟨q, mem, e.symm⟩] at h
        cases h
  · rw [if_neg (by simpa using e), ← mem_entries]
    constructor
    · exact .inr
    · rintro (rfl | mem)
      · exact absurd rfl e
      · exact mem

theorem entries_insert_perm (h : b.contains p.sequence = false) :
    (b.insert p).1.entries.Perm (p :: b.entries) := by
  have fresh : p ∉ b.entries := by
    intro mem
    rw [contains_iff.2 ⟨p, mem, rfl⟩] at h
    cases h
  refine (List.perm_ext_iff_of_nodup (nodup_of_sorted (entries_sorted _))
    (List.nodup_cons.2 ⟨fresh, nodup_of_sorted (entries_sorted b)⟩)).2 fun q => ?_
  rw [mem_entries_insert h, List.mem_cons]

theorem contains_insert (b : Backlog) (p : Parked) : (b.insert p).1.contains p.sequence = true := by
  cases dup : b.contains p.sequence with
  | true => rw [insert_of_contains dup, dup]
  | false => exact contains_iff.2 ⟨p, (mem_entries_insert dup).2 (.inl rfl), rfl⟩

/-- Nothing that waits is lost by an insertion. -/
theorem contains_insert_of_contains {sequence : Nat} (h : b.contains sequence = true) :
    (b.insert p).1.contains sequence = true := by
  cases dup : b.contains p.sequence with
  | true => rwa [insert_of_contains dup]
  | false =>
    obtain ⟨q, mem, e⟩ := contains_iff.1 h
    exact contains_iff.2 ⟨q, (mem_entries_insert dup).2 (.inr mem), e⟩

/-- What waits after an insertion waited before, or is the new packet. -/
theorem eq_or_mem_of_mem_insert {q : Parked} (mem : q ∈ (b.insert p).1.entries) :
    q = p ∨ q ∈ b.entries := by
  cases dup : b.contains p.sequence with
  | true =>
    rw [insert_of_contains dup] at mem
    exact .inr mem
  | false => exact (mem_entries_insert dup).1 mem

theorem Accounted.insert (h : b.Accounted) (p : Parked) : (b.insert p).1.Accounted := by
  cases dup : b.contains p.sequence with
  | true => rwa [insert_of_contains dup]
  | false =>
    have perm := frameBytes_eq_of_perm (entries_insert_perm dup)
    have bytes : (b.insert p).1.bytes = b.bytes + p.frame.length := by simp [Backlog.insert, dup]
    rw [Accounted] at h ⊢
    rw [bytes, h, perm, frameBytes]
    exact Nat.add_comm _ _

@[simp] theorem maxEntries_insert (b : Backlog) (p : Parked) :
    (b.insert p).1.maxEntries = b.maxEntries := by
  unfold insert; split <;> rfl

@[simp] theorem maxBytes_insert (b : Backlog) (p : Parked) :
    (b.insert p).1.maxBytes = b.maxBytes := by
  unfold insert; split <;> rfl

/-! ## Taking out -/

/-- What is left of a backlog once packets have left it in order. -/
structure Releases (b : Backlog) (ps : List Parked) (c : Backlog) : Prop where
  entries : b.entries = ps ++ c.entries
  accounted : b.Accounted → c.Accounted
  maxEntries : c.maxEntries = b.maxEntries
  maxBytes : c.maxBytes = b.maxBytes

theorem Releases.refl (b : Backlog) : b.Releases [] b := ⟨rfl, id, rfl, rfl⟩

/-- A packet that waited has left or waits still. -/
theorem Releases.contains_iff {sequence : Nat} (h : b.Releases ps c) :
    b.contains sequence = true ↔
      sequence ∈ ps.map (·.sequence) ∨ c.contains sequence = true := by
  simp only [Backlog.contains_iff, h.entries, List.mem_append, List.mem_map]
  constructor
  · rintro ⟨p, mem | mem, e⟩
    · exact .inl ⟨p, mem, e⟩
    · exact .inr ⟨p, mem, e⟩
  · rintro (⟨p, mem, e⟩ | ⟨p, mem, e⟩)
    · exact ⟨p, .inl mem, e⟩
    · exact ⟨p, .inr mem, e⟩

theorem Releases.trans (h : b.Releases ps c) (k : c.Releases qs d) : b.Releases (ps ++ qs) d where
  entries := by rw [h.entries, k.entries, List.append_assoc]
  accounted := k.accounted ∘ h.accounted
  maxEntries := k.maxEntries.trans h.maxEntries
  maxBytes := k.maxBytes.trans h.maxBytes

/-- What leaves was waiting, in ascending order. -/
theorem Releases.sorted (h : b.Releases ps c) : ps.Pairwise (·.sequence < ·.sequence) :=
  (List.pairwise_append.1 (h.entries ▸ b.entries_sorted)).1

theorem Releases.mem (h : b.Releases ps c) (mem : p ∈ ps) : p ∈ b.entries := by
  rw [h.entries]
  exact List.mem_append_left _ mem

/-- What waits still was waiting. -/
theorem Releases.waited (h : b.Releases ps c) (mem : p ∈ c.entries) : p ∈ b.entries := by
  rw [h.entries]
  exact List.mem_append_right _ mem

theorem entries_of_erase (h : b.entries = p :: ps)
    (erased : c.waiting = b.waiting.erase p.sequence) : c.entries = ps := by
  have sorted := entries_sorted b
  rw [h, List.pairwise_cons] at sorted
  refine eq_of_sorted (entries_sorted c) sorted.2 fun q => ?_
  rw [mem_entries, erased, Std.ExtTreeMap.getElem?_erase]
  by_cases e : p.sequence = q.sequence
  · rw [if_pos (by simpa using e)]
    refine ⟨nofun, fun mem => ?_⟩
    exact absurd e (Nat.ne_of_lt (sorted.1 q mem))
  · rw [if_neg (by simpa using e), ← mem_entries, h, List.mem_cons]
    refine ⟨fun mem => mem.resolve_left ?_, .inr⟩
    rintro rfl
    exact e rfl

/-- The front of the list is what leaves first. -/
theorem popOldest_of_cons (h : b.entries = p :: ps) :
    ∃ c, b.popOldest = some (p, c) ∧ b.Releases [p] c := by
  let c := { b with waiting := b.waiting.erase p.sequence, bytes := b.bytes - p.frame.length }
  have tail : c.entries = ps := entries_of_erase h rfl
  refine ⟨c, ?_, ?_, ?_, rfl, rfl⟩
  · rw [popOldest, oldest?_eq_head?, h]
    rfl
  · rw [tail, h]
    rfl
  · intro accounted
    rw [Accounted, h, frameBytes] at accounted
    rw [Accounted, tail]
    change b.bytes - p.frame.length = _
    omega

theorem popThrough_of_lt {limit : Nat} (h : ∀ p ∈ b.entries, limit < p.sequence) :
    b.popThrough limit = none := by
  have first : b.first?.any (· ≤ limit) = false := by
    rw [first?, oldest?_eq_head?]
    cases e : b.entries with
    | nil => rfl
    | cons p ps =>
      rw [e] at h
      simpa using h p List.mem_cons_self
  simp [popThrough, first]

theorem popThrough_of_cons {limit : Nat} (h : b.entries = p :: ps) (le : p.sequence ≤ limit) :
    b.popThrough limit = b.popOldest := by
  have first : b.first?.any (· ≤ limit) = true := by
    rw [first?, oldest?_eq_head?, h]
    simpa using le
  simp [popThrough, first]

/-- What leaves first was the front of the list. -/
theorem releases_of_popOldest (pop : b.popOldest = some (p, c)) : b.Releases [p] c := by
  cases all : b.entries with
  | nil => simp [popOldest, oldest?_eq_head?, all] at pop
  | cons q ps =>
    obtain ⟨d, found, left⟩ := popOldest_of_cons all
    cases pop.symm.trans found
    exact left

theorem releases_of_popThrough {limit : Nat} (pop : b.popThrough limit = some (p, c)) :
    b.Releases [p] c := by
  unfold popThrough at pop
  split at pop
  · exact releases_of_popOldest pop
  · cases pop

theorem entries_drain (b : Backlog) : b.drain.2.entries = [] := by
  simp [drain, entries]

theorem contains_drain (b : Backlog) (sequence : Nat) : b.drain.2.contains sequence = false :=
  not_contains_of_lt (by simp [entries_drain])

theorem releases_drain (b : Backlog) : b.Releases b.entries b.drain.2 where
  entries := by rw [entries_drain, List.append_nil]
  accounted h := by
    have fold : ∀ (ps : List Parked) n,
        ps.foldl (fun n p => n - p.frame.length) n = n - frameBytes ps := by
      intro ps
      induction ps with
      | nil => intro n; rfl
      | cons p ps ih =>
        intro n
        rw [List.foldl_cons, ih, frameBytes]
        omega
    rw [Accounted, entries_drain]
    simp only [drain, fold]
    rw [h, Nat.sub_self]
    rfl
  maxEntries := rfl
  maxBytes := rfl

/-! ## Bounds -/

theorem isFull_eq_false_iff :
    b.isFull = false ↔ b.size < b.maxEntries ∧ b.bytes < b.maxBytes := by
  rw [isFull, Bool.or_eq_false_iff, decide_eq_false_iff_not, decide_eq_false_iff_not, Nat.not_le,
    Nat.not_le]

theorem ne_nil_of_isFull (entries : 0 < b.maxEntries) (bytes : 0 < b.maxBytes) (h : b.Accounted)
    (full : b.isFull = true) : b.entries ≠ [] := by
  intro e
  rw [isFull, ← length_entries, e, h, e, frameBytes] at full
  simp at full
  omega

end SensorIngest.Backlog
