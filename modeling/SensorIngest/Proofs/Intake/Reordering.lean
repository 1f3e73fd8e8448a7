import SensorIngest.Proofs.Intake.Watch
import SensorIngest.Proofs.Session.Outcome

/-!
# Exact reordering

Frames with consecutive sequences that come in any order, some of them more than once, are handed on
in order and once each, as long as they come soon enough after one another and fit the backlog
(`Shuffled`). No gap is given up on: requests for a gap are more than `resendInterval` apart, so fewer
than `maxRedo` of them fit into the time that the frames take. `Progress` is what holds after each
frame: the sequences below some bound were handed on, and every other frame received waits.
-/

namespace SensorIngest

open Intake (Effect Input)
open Session (resendInterval maxRedo)

/-! ## First copies -/

/-- What counts of a package: its sequence, when it came, and its bytes. -/
def Package.content (p : Package) : Nat × Micros × Bytes := (p.sequence, p.arrival, p.frame)

def Arrival.content (a : Arrival) : Nat × Micros × Bytes := (a.sequence, a.now, a.raw)

/-- The first frame with a sequence. -/
def firstCopy (as : List Arrival) (q : Nat) : Option Arrival := as.find? (·.sequence == q)

section
variable {as bs : List Arrival} {a : Arrival} {q : Nat}

theorem firstCopy_isSome : (firstCopy as q).isSome = true ↔ ∃ a ∈ as, a.sequence = q := by
  simp [firstCopy]

theorem firstCopy_append (h : (firstCopy as q).isSome = true) (bs : List Arrival) :
    firstCopy (as ++ bs) q = firstCopy as q := by
  obtain ⟨a, found⟩ := Option.isSome_iff_exists.1 h
  rw [firstCopy, List.find?_append, ← firstCopy, found]
  rfl

theorem firstCopy_append_self (fresh : ∀ x ∈ as, x.sequence ≠ a.sequence) :
    firstCopy (as ++ [a]) a.sequence = some a := by
  have none_ : firstCopy as a.sequence = none := by
    rw [← Option.not_isSome_iff_eq_none, firstCopy_isSome]
    rintro ⟨x, mem, same⟩
    exact fresh x mem same
  rw [firstCopy, List.find?_append, ← firstCopy, none_]
  simp

end

/-- Frames that bring each of the `n` sequences from `s` on and no other, the lowest one first, in
time and within the bounds of a backlog. A sequence comes again only while it waits, or as the last
one that was handed on and from a sensor that listens. -/
structure Shuffled (s n : Nat) (as : List Arrival) : Prop where
  pos : 0 < s
  range : s + n < 2 ^ 64
  first : as.head?.map (·.sequence) = some s
  complete : ∀ q, (∃ a ∈ as, a.sequence = q) ↔ s ≤ q ∧ q < s + n
  copies : ∀ pre a post, as = pre ++ a :: post → (∃ x ∈ pre, x.sequence = a.sequence) →
    ∃ life, Life.after true true pre = some life ∧
      (life.session.backlog.any (·.contains a.sequence) = true ∨
        a.responds = true ∧ a.sequence = life.session.lastSequence)
  window : ∃ start, ∀ a ∈ as, start ≤ a.now ∧ a.now ≤ start + 4 * resendInterval
  count : n ≤ 10000
  bytes : Backlog.frameBytes ((List.range' s n).filterMap fun q =>
    (firstCopy as q).map Arrival.parked) < 2097152

theorem Shuffled.bearable {s n : Nat} {as : List Arrival} (h : Shuffled s n as) {a : Arrival}
    (mem : a ∈ as) : Session.Bearable a.sequence := by
  have inside := (h.complete _).1 ⟨a, mem, rfl⟩
  have range := h.range
  unfold Session.Bearable
  omega

/-- The open request is not the first one for its gap unless the requests before it had their time. -/
def Session.Timely (start : Micros) (s : Session) : Prop :=
  ∀ r, s.request = some r →
    start + (resendInterval + 1) * (s.redo - 1) ≤ r.sentAt ∧ r.sentAt ≤ start + 4 * resendInterval

/-- The sequences below `s + k` were handed on, and every other frame received waits. -/
structure Progress (s k : Nat) (start : Micros) (as : List Arrival) (life : Life) (b : Backlog) :
    Prop where
  ordered : life.session.Ordered b
  last : k = 0 ∧ life.session.lastSequence = 0 ∨ 0 < k ∧ life.session.lastSequence + 1 = s + k
  delivered : life.delivered.map (fun p => some p.content) =
    (List.range' s k).map fun q => (firstCopy as q).map Arrival.content
  arrived : ∀ a ∈ as, a.sequence < s + k ∨ b.contains a.sequence = true
  parked : ∀ p ∈ b.entries, (firstCopy as p.sequence).map Arrival.parked = some p
  timely : life.session.Timely start
  calm : ∀ n, .count .forcedDrains n ∉ life.effects

theorem Session.Settles.timely {s : Session} {b c : Backlog} {a : Arrival} {sampled : Bool}
    {r : Session × Option Reply × List Effect} {start : Micros}
    (settles : s.Settles b a sampled r c) (ordered : s.Ordered b) (h : s.Timely start)
    (time : start ≤ a.now ∧ a.now ≤ start + 4 * resendInterval) : r.1.Timely start := by
  cases settles with
  | waits => exact h
  | asks started ahead due =>
    rintro _ ⟨⟩
    refine ⟨?_, time.2⟩
    dsimp only
    cases open_ : s.request with
    | none =>
      rw [ordered.quiet open_]
      simpa using time.1
    | some r =>
      obtain ⟨low, high⟩ := h r open_
      have late : resendInterval < Word.signed (a.now - r.sentAt) := by
        simpa [requestDue, open_] using due
      dsimp only [Micros, resendInterval] at low high late time ⊢
      -- Both times lie in the window, so the time between them is exact.
      rw [Word.signed_eq (by omega) (by omega)] at late
      push_cast
      omega
  | inTurn | late | restarted => exact nofun

namespace Progress

variable {s k n : Nat} {start : Micros} {as bs : List Arrival} {life : Life} {b : Backlog}
  {a : Arrival}

/-- What was handed on was received. -/
theorem isSome_of_lt (h : Progress s k start as life b) {q : Nat} (le : s ≤ q) (lt : q < s + k) :
    (firstCopy as q).isSome = true := by
  have mem : (firstCopy as q).map Arrival.content ∈
      life.delivered.map (fun p => some p.content) := by
    rw [h.delivered]
    exact List.mem_map_of_mem (List.mem_range'_1.2 ⟨le, lt⟩)
  obtain ⟨p, -, e⟩ := List.mem_map.1 mem
  rw [← Option.isSome_map, ← e]
  rfl

/-- Fewer than all requests fit into the time. -/
theorem redo_lt (h : Progress s k start as life b) : life.session.redo < maxRedo := by
  unfold maxRedo
  cases open_ : life.session.request with
  | none =>
    rw [h.ordered.quiet open_]
    decide
  | some r =>
    -- The last of `maxRedo` requests would come later than all frames.
    obtain ⟨low, high⟩ := h.timely r open_
    dsimp only [Micros, resendInterval] at low high
    omega

/-- What waits is a first copy of a later frame than the first one. -/
theorem parked_range {all : List Arrival} (h : Progress s k start as life b)
    (shuffled : Shuffled s n all) (upto : as <+: all) {p : Parked} (mem : p ∈ b.entries) :
    p.sequence ∈ List.range' (s + 1) (n - 1) ∧
      (firstCopy all p.sequence).map Arrival.parked = some p := by
  have ahead := h.ordered.ahead p mem
  obtain ⟨a, found, rfl⟩ := Option.map_eq_some_iff.1 (h.parked p mem)
  have some_ := Option.isSome_of_eq_some found
  obtain ⟨rest, rfl⟩ := upto
  have later : s + 1 ≤ a.parked.sequence := by
    rcases h.last with ⟨-, zero⟩ | ⟨pos, last⟩
    · rw [h.ordered.started zero] at mem
      cases mem
    · omega
  obtain ⟨x, inside, same⟩ := firstCopy_isSome.1 some_
  have range := (shuffled.complete _).1 ⟨x, List.mem_append_left _ inside, same⟩
  refine ⟨List.mem_range'_1.2 ⟨later, by omega⟩, ?_⟩
  rw [firstCopy_append some_, found]
  rfl

/-- There is room for every frame. -/
theorem isFull_eq_false {all : List Arrival} (h : Progress s k start as life b)
    (shuffled : Shuffled s n all) (upto : as <+: all) : b.isFull = false := by
  have inside : b.entries.map (·.sequence) ⊆ List.range' (s + 1) (n - 1) := by
    intro q mem
    obtain ⟨p, waits, rfl⟩ := List.mem_map.1 mem
    exact (h.parked_range shuffled upto waits).1
  have nodup : (b.entries.map (·.sequence)).Nodup :=
    List.pairwise_map.2 (b.entries_sorted.imp Nat.ne_of_lt)
  have size : b.size < b.maxEntries := by
    have few := (List.subperm_of_subset nodup inside).length_le
    rw [List.length_map, Backlog.length_entries, List.length_range'] at few
    have := shuffled.count
    rw [h.ordered.maxEntries]
    omega
  have bytes : b.bytes < b.maxBytes := by
    rw [h.ordered.maxBytes, h.ordered.accounted]
    refine Nat.lt_of_le_of_lt ?_ shuffled.bytes
    refine Backlog.frameBytes_le_of_subset (Backlog.nodup_of_sorted b.entries_sorted) ?_
    intro p waits
    obtain ⟨range, found⟩ := h.parked_range shuffled upto waits
    rw [List.mem_range'_1] at range
    exact List.mem_filterMap.2 ⟨p.sequence, List.mem_range'_1.2 (by omega), found⟩
  exact Backlog.isFull_eq_false_iff.2 ⟨size, bytes⟩

theorem not_exhausted {all : List Arrival} (h : Progress s k start as life b)
    (shuffled : Shuffled s n all) (upto : as <+: all) : life.session.isExhausted = false :=
  (Session.isExhausted_eq_false_iff h.ordered.backlog).2
    ⟨h.isFull_eq_false shuffled upto, h.redo_lt⟩

/-! ## One frame -/

variable {r : Session × Option Reply × List Effect} {c : Backlog} {ps : List Parked} {sampled : Bool}

/-- A frame that waits, or repeats one that was handed on. -/
theorem still (h : Progress s k start as life b) (created : Bool) (ordered : r.1.Ordered c)
    (last : r.1.lastSequence = life.session.lastSequence) (silent : Effect.packages r.2.2 = [])
    (arrived : a.sequence < s + k ∨ c.contains a.sequence = true)
    (keeps : ∀ q, b.contains q = true → c.contains q = true)
    (parked : ∀ p ∈ c.entries, (firstCopy (as ++ [a]) p.sequence).map Arrival.parked = some p)
    (timely : r.1.Timely start) (calm : ∀ n, .count .forcedDrains n ∉ r.2.2) :
    Progress s k start (as ++ [a])
      ⟨r.1, life.replies ++ [r.2.1], life.effects ++ (a.preface true created ++ r.2.2)⟩ c where
  ordered := ordered
  last := last ▸ h.last
  delivered := by
    have same : Life.delivered ⟨r.1, life.replies ++ [r.2.1],
        life.effects ++ (a.preface true created ++ r.2.2)⟩ = life.delivered := by
      simp [Life.delivered, silent]
    rw [same, h.delivered]
    refine List.map_congr_left fun q mem => ?_
    have range := List.mem_range'_1.1 mem
    rw [firstCopy_append (h.isSome_of_lt range.1 range.2)]
  arrived x mem := by
    rcases List.mem_append.1 mem with mem | mem
    · exact (h.arrived x mem).imp id (keeps _)
    · cases List.mem_singleton.1 mem
      exact arrived
  parked := parked
  timely := timely
  calm n := by
    simp only [List.mem_append, not_or]
    exact ⟨h.calm n, a.preface_calm true created n, calm n⟩

/-- What waited is still the first copy of its sequence. -/
theorem parked_append (h : Progress s k start as life b) (a : Arrival) :
    ∀ p ∈ b.entries, (firstCopy (as ++ [a]) p.sequence).map Arrival.parked = some p := by
  intro p mem
  have found := h.parked p mem
  have some_ : (firstCopy as p.sequence).isSome = true := by
    rw [← Option.isSome_map, found]
    rfl
  rw [firstCopy_append some_, found]

/-- A frame that is parked waits for its turn, unless its first copy does already. -/
theorem parked_insert (h : Progress s k start as life b)
    (fresh : b.contains a.sequence = false → ∀ x ∈ as, x.sequence ≠ a.sequence) :
    ∀ p ∈ (b.insert a.parked).1.entries,
      (firstCopy (as ++ [a]) p.sequence).map Arrival.parked = some p := by
  intro p mem
  cases waits : b.contains a.sequence with
  | true =>
    rw [Backlog.insert_of_contains (p := a.parked) waits] at mem
    exact h.parked_append a p mem
  | false =>
    rcases Backlog.eq_or_mem_of_mem_insert mem with rfl | mem
    · change (firstCopy (as ++ [a]) a.sequence).map Arrival.parked = _
      rw [firstCopy_append_self (fresh waits)]
      rfl
    · exact h.parked_append a p mem

/-- What waited and is handed on has the content of its first copy. -/
theorem content_run (h : Progress s k start as life b) (left : b.Releases ps c) (a : Arrival)
    (sensor : SensorId) :
    (ps.map (·.package sensor)).map (fun p => some p.content) =
      (ps.map (·.sequence)).map fun q => (firstCopy (as ++ [a]) q).map Arrival.content := by
  rw [List.map_map, List.map_map]
  refine List.map_congr_left fun p mem => ?_
  obtain ⟨x, found, rfl⟩ := Option.map_eq_some_iff.1 (h.parked_append a p (left.mem mem))
  simp only [Function.comp_apply, found]
  rfl

/-- The next frame in turn is handed on with all that continues it. -/
theorem turn (h : Progress s k start as life b) (created sampled : Bool)
    (next : a.sequence = s + k) (fresh : ∀ x ∈ as, x.sequence ≠ a.sequence)
    (left : b.Releases ps c)
    (consecutive : ps.map (·.sequence) = List.range' (a.sequence + 1) ps.length)
    (ordered : (life.session.movedTo (a.sequence + ps.length) c).Ordered c)
    (replies : List (Option Reply)) :
    Progress s (k + 1 + ps.length) start (as ++ [a])
      ⟨life.session.movedTo (a.sequence + ps.length) c, replies,
        life.effects ++ (a.preface true created ++ (life.session.answered a ++
          .dispatch (a.package sampled) :: Session.handed life.session.sensor ps))⟩ c where
  ordered := ordered
  last := .inr ⟨by omega, by change a.sequence + ps.length + 1 = _; omega⟩
  delivered := by
    have all : Life.delivered ⟨life.session.movedTo (a.sequence + ps.length) c, replies,
        life.effects ++ (a.preface true created ++ (life.session.answered a ++
          .dispatch (a.package sampled) :: Session.handed life.session.sensor ps))⟩ =
        life.delivered ++ a.package sampled :: ps.map (·.package life.session.sensor) := by
      simp [Life.delivered]
    have before : (List.range' s k).map (fun q => (firstCopy (as ++ [a]) q).map Arrival.content) =
        life.delivered.map (fun p => some p.content) := by
      rw [h.delivered]
      refine List.map_congr_left fun q mem => ?_
      have range := List.mem_range'_1.1 mem
      rw [firstCopy_append (h.isSome_of_lt range.1 range.2)]
    have own : (firstCopy (as ++ [a]) (s + k)).map Arrival.content =
        some (a.package sampled).content := by
      rw [← next, firstCopy_append_self fresh]
      rfl
    rw [all, List.map_append, List.map_cons, h.content_run left a, consecutive, ← before,
      ← List.range'_append_1, ← List.range'_append_1, List.map_append, List.map_append,
      List.range'_one, List.map_singleton, own, next, List.append_assoc]
    rfl
  arrived x mem := by
    rcases List.mem_append.1 mem with mem | mem
    · rcases h.arrived x mem with below | waits
      · exact .inl (by omega)
      · refine (left.contains_iff.1 waits).imp (fun gone => ?_) id
        rw [consecutive, List.mem_range'_1] at gone
        omega
    · cases List.mem_singleton.1 mem
      exact .inl (by omega)
  parked p mem := h.parked_append a p (left.waited mem)
  timely := nofun
  calm n := by
    have calm : .count .forcedDrains n ∉ life.session.answered a ++
        .dispatch (a.package sampled) :: Session.handed life.session.sensor ps := by
      unfold Session.answered Session.handed
      split <;> simp
    simp only [List.mem_append, not_or] at calm ⊢
    exact ⟨h.calm n, a.preface_calm true created n, calm⟩

theorem greet (h : Progress s k start as life b) (a : Arrival) :
    Progress s k start as { life with session := (life.session.greet a).1 } b :=
  ⟨h.ordered.greet a, h.last, h.delivered, h.arrived, h.parked, h.timely, h.calm⟩

/-- Before anything was handed on, nothing was received. -/
theorem eq_nil_of_zero {all : List Arrival} (h : Progress s 0 start as life b)
    (shuffled : Shuffled s n all) (upto : as <+: all) (zero : life.session.lastSequence = 0) :
    as = [] := by
  refine List.eq_nil_iff_forall_not_mem.2 fun x mem => ?_
  have range := (shuffled.complete _).1 ⟨x, upto.subset mem, rfl⟩
  rcases h.arrived x mem with below | waits
  · omega
  · obtain ⟨p, inside, -⟩ := Backlog.contains_iff.1 waits
    rw [h.ordered.started zero] at inside
    cases inside

/-- A new frame whose turn has come is the next one. -/
theorem next_of_turn {all : List Arrival} (h : Progress s k start as life b)
    (shuffled : Shuffled s n all) (upto : as ++ [a] <+: all)
    (next : life.session.lastSequence = 0 ∨ a.sequence = life.session.lastSequence + 1) :
    a.sequence = s + k := by
  have pos := shuffled.pos
  rcases h.last with ⟨rfl, zero⟩ | ⟨some_, last⟩
  · have none_ := h.eq_nil_of_zero shuffled ((List.prefix_append _ _).trans upto) zero
    obtain ⟨rest, rfl⟩ := upto
    have first := shuffled.first
    simpa [none_] using first
  · omega

/-- What was not received yet was not handed on. -/
theorem le_of_fresh {all : List Arrival} (h : Progress s k start as life b)
    (shuffled : Shuffled s n all) (upto : as ++ [a] <+: all)
    (fresh : ∀ x ∈ as, x.sequence ≠ a.sequence) : s + k ≤ a.sequence := by
  by_contra lt
  have range := (shuffled.complete _).1 ⟨a, upto.subset (by simp), rfl⟩
  obtain ⟨x, mem, same⟩ := firstCopy_isSome.1 (h.isSome_of_lt range.1 (Nat.lt_of_not_le lt))
  exact fresh x mem same

theorem last_lt (h : Progress s k start as life b) (pos : 0 < s) :
    life.session.lastSequence < s + k := by
  rcases h.last with ⟨rfl, zero⟩ | ⟨some_, last⟩ <;> omega

/-- A frame that is new is parked or handed on in turn. -/
theorem step_fresh {all : List Arrival} (h : Progress s k start as life b)
    (shuffled : Shuffled s n all) (upto : as ++ [a] <+: all) (created : Bool)
    (time : start ≤ a.now ∧ a.now ≤ start + 4 * resendInterval)
    (fresh : ∀ x ∈ as, x.sequence ≠ a.sequence)
    (settles : life.session.Settles b a sampled r c) :
    ∃ k', Progress s k' start (as ++ [a])
      ⟨r.1, life.replies ++ [r.2.1], life.effects ++ (a.preface true created ++ r.2.2)⟩ c := by
  have later := h.le_of_fresh shuffled upto fresh
  have passed := h.last_lt shuffled.pos
  have bearable : Session.Bearable a.sequence := shuffled.bearable (upto.subset (by simp))
  have ordered := settles.ordered h.ordered bearable
  have timely := settles.timely h.ordered h.timely time
  have calm := settles.calm
  cases settles with
  | waits | asks =>
    exact ⟨k, h.still created ordered rfl (by simp) (.inr (b.contains_insert a.parked))
      (fun q => Backlog.contains_insert_of_contains) (h.parked_insert fun _ => fresh) timely calm⟩
  | inTurn next above left consecutive gap =>
    exact ⟨_, h.turn created sampled (h.next_of_turn shuffled upto next) fresh left consecutive
      ordered _⟩
  | late started le => omega
  | restarted restart =>
    have := Session.lt_of_isRestart restart
    omega

/-- A frame that comes again while it waits changes nothing. -/
theorem step_waiting (h : Progress s k start as life b) (created : Bool)
    (time : start ≤ a.now ∧ a.now ≤ start + 4 * resendInterval)
    (bearable : Session.Bearable a.sequence) (waits : b.contains a.sequence = true)
    (settles : life.session.Settles b a sampled r c) :
    Progress s k start (as ++ [a])
      ⟨r.1, life.replies ++ [r.2.1], life.effects ++ (a.preface true created ++ r.2.2)⟩ c := by
  have ordered := settles.ordered h.ordered bearable
  have timely := settles.timely h.ordered h.timely time
  have calm := settles.calm
  obtain ⟨p, mem, same⟩ := Backlog.contains_iff.1 waits
  have ahead := h.ordered.ahead p mem
  cases settles with
  | waits | asks =>
    refine h.still created ordered rfl (by simp) (.inr (b.contains_insert a.parked))
      (fun q => Backlog.contains_insert_of_contains) (h.parked_insert fun fresh => ?_) timely calm
    rw [waits] at fresh
    cases fresh
  | inTurn next =>
    rcases next with zero | next
    · rw [h.ordered.started zero] at mem
      cases mem
    · omega
  | late started le => omega
  | restarted restart =>
    have := Session.lt_of_isRestart restart
    omega

/-- Every frame of the run makes progress. -/
theorem step {all : List Arrival} (h : Progress s k start as life b)
    (shuffled : Shuffled s n all) (upto : as ++ [a] <+: all)
    (known : ∀ l, Life.after true true as = some l → l = life)
    (sensor : life.session.sensor = a.header.sensor) (real : a.isNoise = false)
    (time : start ≤ a.now ∧ a.now ≤ start + 4 * resendInterval) (created : Bool) :
    let r := life.session.receive true a
    ∃ k' c, Progress s k' start (as ++ [a])
      ⟨r.1, life.replies ++ [r.2.1], life.effects ++ (a.preface true created ++ r.2.2)⟩ c := by
  intro r
  have spare := h.not_exhausted shuffled ((List.prefix_append _ _).trans upto)
  have greeted := h.greet a
  have passed := h.last_lt shuffled.pos
  have bearable : Session.Bearable a.sequence := shuffled.bearable (upto.subset (by simp))
  obtain ⟨c, takes⟩ := Session.receive_takes h.ordered sensor real bearable
  -- A copy finds its sequence waiting or acknowledged; any other frame is new to the session.
  by_cases copy : ∃ x ∈ as, x.sequence = a.sequence
  · obtain ⟨rest, whole⟩ := upto
    rw [List.append_assoc, List.singleton_append] at whole
    obtain ⟨l, found, again⟩ := shuffled.copies as a rest whole.symm copy
    rw [known l found, h.ordered.backlog] at again
    rcases takes.of_spare (fun _ => spare) with ⟨-, same, rfl, eq⟩ | ⟨fresh, settles⟩
    · refine ⟨k, c, ?_⟩
      rw [show r = _ from eq]
      exact greeted.still created (h.ordered.greet a) rfl rfl (.inl (same ▸ passed)) (fun _ => id)
        (h.parked_append a) h.timely (by simp)
    · rcases again with waits | ⟨responds, same⟩
      · exact ⟨k, c, greeted.step_waiting created time bearable waits settles⟩
      · exact absurd same (fresh responds)
  · have fresh : ∀ x ∈ as, x.sequence ≠ a.sequence := fun x mem same => copy ⟨x, mem, same⟩
    rcases takes.of_spare (fun _ => spare) with ⟨-, same, -⟩ | ⟨-, settles⟩
    · have later := h.le_of_fresh shuffled upto fresh
      omega
    · obtain ⟨k', progress⟩ := greeted.step_fresh shuffled upto created time fresh settles
      exact ⟨k', c, progress⟩

/-- Once all frames were received, all were handed on. -/
theorem complete {all : List Arrival} (h : Progress s k start all life b)
    (shuffled : Shuffled s n all) : k = n ∧ b.entries = [] := by
  have empty : b.entries = [] := by
    rcases h.last with ⟨-, zero⟩ | ⟨-, last⟩
    · exact h.ordered.started zero
    -- The frame right after the last one handed on was received, and cannot wait.
    refine List.eq_nil_iff_forall_not_mem.2 fun p mem => ?_
    have ahead := h.ordered.ahead p mem
    have range := List.mem_range'_1.1 (h.parked_range shuffled (List.prefix_refl _) mem).1
    obtain ⟨x, inside, same⟩ := (shuffled.complete (s + k)).2 (by omega)
    rcases h.arrived x inside with below | waits
    · omega
    · obtain ⟨q, waiting, next⟩ := Backlog.contains_iff.1 waits
      have := h.ordered.ahead q waiting
      omega
  refine ⟨?_, empty⟩
  rcases Nat.lt_trichotomy k n with less | same | more
  · obtain ⟨x, inside, same⟩ := (shuffled.complete (s + k)).2 (by omega)
    rcases h.arrived x inside with below | waits
    · omega
    · obtain ⟨q, waiting, -⟩ := Backlog.contains_iff.1 waits
      rw [empty] at waiting
      cases waiting
  · exact same
  · obtain ⟨x, inside, same⟩ := firstCopy_isSome.1 (h.isSome_of_lt (q := s + n) (by omega) (by omega))
    have := (shuffled.complete _).1 ⟨x, inside, same⟩
    omega

/-! ## The whole run -/

theorem born (s : Nat) (start : Micros) (a : Arrival) :
    Progress s 0 start [] (.born true a) {} :=
  ⟨Session.ordered_new _ _, .inl ⟨rfl, rfl⟩, rfl, nofun, nofun, nofun, nofun⟩

/-- Progress is made with every frame of a run. -/
theorem after {all : List Arrival} (id : SensorId) (shuffled : Shuffled s n all)
    (own : ∀ a ∈ all, a.header.sensor = id ∧ a.isNoise = false)
    (time : ∀ a ∈ all, start ≤ a.now ∧ a.now ≤ start + 4 * resendInterval)
    (upto : as <+: all) (lived : Life.after true true as = some life) :
    life.session.sensor = id ∧ ∃ k b, Progress s k start as life b := by
  induction as using List.reverseRecOn generalizing life with
  | nil => cases lived
  | append_singleton as a ih =>
    have mem : a ∈ all := upto.subset (by simp)
    obtain ⟨same, real⟩ := own a mem
    have found : ((Life.after true true as).getD (.born true a)).session.sensor = id ∧
        ∃ k b, Progress s k start as ((Life.after true true as).getD (.born true a)) b := by
      cases earlier : Life.after true true as with
      | none =>
        cases Life.after_eq_none.1 earlier
        exact ⟨same, 0, {}, born s start a⟩
      | some before => exact ih ((List.prefix_append _ _).trans upto) earlier
    obtain ⟨sensor, k, b, h⟩ := found
    have known (l : Life) (earlier : Life.after true true as = some l) :
        l = (Life.after true true as).getD (.born true a) := by
      rw [earlier]
      rfl
    obtain ⟨k', c, progress⟩ := h.step shuffled upto known (sensor.trans same.symm) real
      (time a mem) (Life.after true true as).isNone
    rw [Life.after_append_singleton, Option.some_inj] at lived
    subst lived
    exact ⟨(Session.receive_speaks sensor true a).1, k', c, progress⟩

end Progress

/-- Shuffled frames are handed on in order and once each, with the content of their first copies.
Nothing waits at the end, no request is open, and no gap was given up on. -/
theorem Intake.shuffled_delivered (readings : Counters) (id : SensorId)
    (inputs : List (Micros × Input)) (s n : Nat)
    (shuffled : Shuffled s n ((Intake.new true).watch readings id inputs).received) :
    let w := (Intake.new true).watch readings id inputs
    w.delivered.map (fun p => some p.content) =
        (List.range' s n).map (fun q => (firstCopy w.received q).map Arrival.content) ∧
      (∃ session, w.session? id = some session ∧ session.parked = 0 ∧ session.request = none) ∧
      ∀ k, .count .forcedDrains k ∉ w.effects := by
  intro w
  have faithful : w.Faithful true true id := watch_faithful true readings id inputs
  obtain ⟨start, time⟩ := shuffled.window
  have life := faithful.life
  cases live : w.session? id with
  | none =>
    rw [live, Option.map_none, Life.after_eq_none] at life
    have first := shuffled.first
    rw [show ((Intake.new true).watch readings id inputs).received = [] from life] at first
    cases first
  | some session =>
    rw [live] at life
    obtain ⟨-, k, b, h⟩ := Progress.after id shuffled faithful.own time (List.prefix_refl _) life
    obtain ⟨rfl, empty⟩ := h.complete shuffled
    refine ⟨h.delivered, ⟨session, rfl, ?_, h.ordered.request_of_empty empty⟩, h.calm⟩
    rw [Session.parked, show session.backlog = some b from h.ordered.backlog, Option.map_some,
      Option.getD_some, ← Backlog.length_entries, empty]
    rfl

/-- Where each place of a list has a property, so has each way to split it. -/
theorem forall_split {α : Type} {as : List α} {P : List α → α → Prop}
    (h : ∀ i < as.length, ∀ a, as[i]? = some a → P (as.take i) a) (pre : List α) (a : α)
    (post : List α) (split : as = pre ++ a :: post) : P pre a := by
  have here := h pre.length (by simp [split]) a (by simp [split])
  rwa [split, List.take_left] at here

/-- One frame comes again while it waits, and once more right after it was handed on. -/
theorem Intake.shuffled_delivered_probes :
    let w := (Intake.new true).watch {} (.ofNat 7)
      [probe 0 10, probe 1 13, probe 2 12, probe 3 13, probe 6000000 11, probe 6000001 13]
    Shuffled 10 4 w.received ∧
      w.delivered.map (fun p => some p.content) =
        (List.range' 10 4).map fun q => (firstCopy w.received q).map Arrival.content := by
  intro w
  have sequences : w.received.map (·.sequence) = [10, 13, 12, 13, 11, 13] := by decide +kernel
  have shuffled : Shuffled 10 4 w.received := by
    refine ⟨by decide, by decide, by decide +kernel, fun q => ?_, ?_, ⟨0, by decide +kernel⟩, by decide,
      by decide +kernel⟩
    · rw [← List.mem_map, sequences]
      simp
      omega
    · have checked : ∀ i < w.received.length, w.received[i]?.all fun a =>
          (w.received.take i).any (·.sequence = a.sequence) →
            (Life.after true true (w.received.take i)).any fun life =>
              life.session.backlog.any (·.contains a.sequence) ||
                a.responds && a.sequence = life.session.lastSequence := by decide +kernel
      refine forall_split fun i lt a here copy => ?_
      have found := checked i lt
      rw [here, Option.all_some, decide_eq_true_eq, List.any_eq_true] at found
      simpa [Option.any_eq_true] using found (by simpa using copy)
  exact ⟨shuffled, (shuffled_delivered _ _ _ _ _ shuffled).1⟩

end SensorIngest
