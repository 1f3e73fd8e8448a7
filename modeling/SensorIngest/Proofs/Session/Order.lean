import SensorIngest.Proofs.Session.Arrival
import SensorIngest.Proofs.Session.Release

/-!
# Sessions in order

Between two frames a session that closes gaps is `Ordered`: what waits lies behind a gap, a request is
open for the first missing packet at most, and all its sequences have one behind them. Making room for
a frame that skips over a packet hands on a front part of what waits, or nothing (`Room`), and the
session stays in order.
-/

namespace SensorIngest

open Intake (Effect)

namespace Session

variable {s t : Session} {b c : Backlog} {a : Arrival} {ps : List Parked}

/-! ## The invariant -/

/-- What holds of a session with a backlog between two frames. -/
structure Ordered (s : Session) (b : Backlog) : Prop where
  backlog : s.backlog = some b
  last : Bearable s.lastSequence
  bearable : ∀ p ∈ b.entries, Bearable p.sequence
  ahead : ∀ p ∈ b.entries, s.lastSequence + 1 < p.sequence
  started : s.lastSequence = 0 → b.entries = []
  accounted : b.Accounted
  maxEntries : b.maxEntries = 10000
  maxBytes : b.maxBytes = 2097152
  quiet : s.request = none → s.redo = 0
  request : ∀ r, s.request = some r → r.sequence = s.lastSequence + 1 ∧ b.entries ≠ []

namespace Ordered

theorem above (h : s.Ordered b) : ∀ p ∈ b.entries, s.lastSequence < p.sequence :=
  fun p mem => Nat.lt_of_succ_lt (h.ahead p mem)

/-- No request is open for a session that waits for the very next packet. -/
theorem request_of_empty (h : s.Ordered b) (empty : b.entries = []) : s.request = none := by
  cases open_ : s.request with
  | none => rfl
  | some r => exact absurd empty (h.request r open_).2

/-- The open request is dropped as soon as the sequence moves. -/
theorem request_dropped {last : Nat} (h : s.Ordered b)
    (moved : b.entries ≠ [] → s.lastSequence < last) :
    (s.request.filter fun r => last < r.sequence) = none := by
  rw [Option.filter_eq_none_iff]
  intro r open_
  obtain ⟨next, waits⟩ := h.request r open_
  have := moved waits
  rw [decide_eq_true_eq]
  omega

/-- Where no room is left, something waits. -/
theorem exists_cons (h : s.Ordered b) (exhausted : s.isExhausted = true) :
    ∃ p ps, b.entries = p :: ps := by
  refine List.exists_cons_of_ne_nil fun empty => ?_
  rw [isExhausted, h.backlog, Bool.or_eq_true, decide_eq_true_eq, maxRedo] at exhausted
  rcases exhausted with full | redo
  · have bounds := h.maxEntries ▸ h.maxBytes ▸ Backlog.ne_nil_of_isFull (b := b)
    exact bounds (by decide) (by decide) h.accounted full empty
  · have := h.quiet (h.request_of_empty empty)
    omega

end Ordered

theorem ordered_new (sensor : SensorId) (peer : Endpoint) :
    (new sensor peer true).Ordered {} where
  backlog := rfl
  last := show 0 < 2 ^ 64 - 1 by decide
  bearable := nofun
  ahead := nofun
  started _ := rfl
  accounted := rfl
  maxEntries := rfl
  maxBytes := rfl
  quiet _ := rfl
  request := nofun

/-- The session once packets up to `last` are handed on and no request is open. -/
def movedTo (s : Session) (last : Nat) (c : Backlog) : Session :=
  { s with lastSequence := last, backlog := some c, redo := 0, request := none }

theorem Ordered.movedTo {last : Nat} (h : s.Ordered b) (bearable : Bearable last)
    (left : b.Releases ps c) (gap : ∀ p ∈ c.entries, last + 1 < p.sequence)
    (started : last = 0 → c.entries = []) : (s.movedTo last c).Ordered c where
  backlog := rfl
  last := bearable
  bearable p mem := h.bearable p (left.waited mem)
  ahead := gap
  started := started
  accounted := left.accounted h.accounted
  maxEntries := left.maxEntries.trans h.maxEntries
  maxBytes := left.maxBytes.trans h.maxBytes
  quiet _ := rfl
  request := nofun

theorem Ordered.emptied {last : Nat} (h : s.Ordered b) (bearable : Bearable last) :
    (s.movedTo last b.drain.2).Ordered b.drain.2 :=
  h.movedTo bearable b.releases_drain (by simp [Backlog.entries_drain]) fun _ => b.entries_drain

/-! ## Making room -/

/-- A further packet can wait, and a further request can be made. -/
theorem isExhausted_eq_false_iff (hb : s.backlog = some b) :
    s.isExhausted = false ↔ b.isFull = false ∧ s.redo < maxRedo := by
  rw [isExhausted, hb, Option.any_some, Bool.or_eq_false_iff, decide_eq_false_iff_not, Nat.not_le]

/-- The packets that are handed on to make room for a frame, and what that takes. -/
inductive Room (s : Session) (b : Backlog) (a : Arrival) :
    List Parked → Session → Backlog → List Effect → Prop
  /-- The frame does not skip over a packet, or there is room. -/
  | kept (h : s.isAhead a.sequence = true → s.isExhausted = false) : Room s b a [] s b []
  /-- The gap is given up on. -/
  | forced {p : Parked} {run : List Parked} {c : Backlog}
      (ahead : s.isAhead a.sequence = true) (exhausted : s.isExhausted = true)
      (left : b.Releases (p :: run) c)
      (consecutive : run.map (·.sequence) = List.range' (p.sequence + 1) run.length)
      (gap : ∀ q ∈ c.entries, p.sequence + run.length + 1 < q.sequence) :
      Room s b a (p :: run) (s.movedTo (p.sequence + run.length) c) c
        (.log (.forcingDrain s.sensor s.lastSequence p.sequence s.redo) :: .tick .forcedDrains ::
          handed s.sensor (p :: run))

theorem forceDrain_room (h : s.Ordered b) (ahead : s.isAhead a.sequence = true)
    (exhausted : s.isExhausted = true) :
    ∃ ps c, Room s b a ps s.forceDrain.1 c s.forceDrain.2 := by
  obtain ⟨p, ps, e⟩ := h.exists_cons exhausted
  have first := h.above p (e ▸ List.mem_cons_self)
  have dropped := h.request_dropped fun _ => first
  obtain ⟨run, c, left, consecutive, gap, drain⟩ := forceDrain_eq h.backlog e h.bearable first
  rw [dropped] at drain
  rw [drain]
  exact ⟨_, c, .forced ahead exhausted left consecutive gap⟩

/-- Makes room for a frame that skips over a packet. -/
def roomFor (s : Session) (a : Arrival) : Session × List Effect :=
  if s.isAhead a.sequence then s.makeRoom else (s, [])

theorem roomFor_room (h : s.Ordered b) (a : Arrival) :
    ∃ ps c, Room s b a ps (s.roomFor a).1 c (s.roomFor a).2 := by
  unfold roomFor makeRoom
  split
  · rename_i ahead
    split
    · rename_i exhausted
      exact forceDrain_room h ahead exhausted
    · rename_i exhausted
      exact ⟨[], b, .kept fun _ => Bool.eq_false_iff.2 exhausted⟩
  · rename_i turn
    exact ⟨[], b, .kept fun ahead => absurd ahead turn⟩

theorem Room.ordered {effects : List Effect} (room : Room s b a ps t c effects)
    (h : s.Ordered b) : t.Ordered c := by
  cases room with
  | kept => exact h
  | @forced p run c _ _ left consecutive gap =>
    have all : ∀ q ∈ p :: run, Bearable q.sequence := fun q mem => h.bearable q (left.mem mem)
    rw [List.forall_mem_cons] at all
    have last := all.1.reach all.2
    rw [reach_of_range' consecutive] at last
    refine h.movedTo last left gap fun zero => ?_
    have first := h.ahead p (left.entries ▸ List.mem_cons_self)
    omega

/-! ## What a room is made of -/

variable {effects : List Effect}

theorem Room.releases (room : Room s b a ps t c effects) : b.Releases ps c := by
  cases room with
  | kept => exact .refl b
  | forced _ _ left => exact left

theorem Room.packages (room : Room s b a ps t c effects) :
    Effect.packages effects = ps.map (·.package s.sensor) := by
  cases room with
  | kept => rfl
  | forced => simp

theorem Room.lastSequence (room : Room s b a ps t c effects) :
    t.lastSequence = reach s.lastSequence ps := by
  cases room with
  | kept => rfl
  | forced _ _ _ consecutive =>
    rw [reach_cons, reach_of_range' consecutive]
    rfl

/-- A frame that does not skip over a packet, or finds room, has nothing handed on to make room. -/
theorem Room.of_spare (room : Room s b a ps t c effects)
    (spare : s.isAhead a.sequence = true → s.isExhausted = false) :
    t = s ∧ c = b ∧ effects = [] := by
  cases room with
  | kept => exact ⟨rfl, rfl, rfl⟩
  | forced ahead exhausted =>
    rw [spare ahead] at exhausted
    cases exhausted

theorem Room.sensor (room : Room s b a ps t c effects) :
    t.sensor = s.sensor := by
  cases room <;> rfl

theorem Room.started (room : Room s b a ps t c effects) (h : s.Ordered b)
    (ahead : s.isAhead a.sequence = true) : 0 < t.lastSequence := by
  cases room with
  | kept =>
    rw [isAhead, Bool.and_eq_true, decide_eq_true_eq] at ahead
    exact ahead.1
  | @forced p run c _ _ left =>
    have first := h.ahead p (left.entries ▸ List.mem_cons_self)
    change 0 < p.sequence + run.length
    omega

end Session

end SensorIngest
