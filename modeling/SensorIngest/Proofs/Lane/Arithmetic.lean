import SensorIngest.Proofs.Frame.Access
import SensorIngest.Proofs.Lane.Clock
import SensorIngest.Proofs.Timeline.Range

/-!
# The arithmetic of lane workers

`Checked.handleAll` is `Worker.handleAll`, with frames read byte by byte and device clocks computed
with in 64 bits; it gives nothing where a step is out of range. A worker whose packets can arrive
stays in range while each of its clocks has room for what is to come (`Worker.Ready`). A packet keeps
the room that it does not take up itself (`Worker.Ready.handle`), so that room at the beginning is
enough (`Worker.Ready.handleAll`).

A device clock knows sequences as signed numbers, so of the sequences of 64 bits it bears the lower half.
-/

namespace SensorIngest

open Checked (int int_eq signed_of_int bind_of)

/-! ## Packets that can arrive -/

/-- A packet with a sequence that a device clock bears, like the one behind it, and with the time of a
wall clock. -/
structure Package.Credible (p : Package) : Prop where
  sequence : p.sequence ≤ 2 ^ 63 - 2
  arrival : 0 ≤ p.arrival ∧ p.arrival ≤ 2 ^ 60

instance (p : Package) : Decidable p.Credible :=
  decidable_of_iff (p.sequence ≤ 2 ^ 63 - 2 ∧ 0 ≤ p.arrival ∧ p.arrival ≤ 2 ^ 60)
    ⟨fun ⟨sequence, arrival⟩ => ⟨sequence, arrival⟩, fun ⟨sequence, arrival⟩ => ⟨sequence, arrival⟩⟩

theorem Package.Credible.timed {p : Package} (h : p.Credible) {frame : Frame} {span : Frame.Span}
    (decoded : Frame.decode p.frame = .ok frame) (spanned : frame.span = .ok span) :
    (p.timed span).Credible where
  sequence := by
    have small := h.sequence
    rw [p.sequence_timed span, Word.signed_eq (by omega) (by omega)]
    omega
  arrival := h.arrival
  duration := Timeline.duration_le_of_decode decoded spanned

namespace Lane

/-- The packets of a sensor among items of work. -/
def packagesOf (id : SensorId) : List Item → List Package
  | [] => []
  | .packet p :: rest => if p.sensor = id then p :: packagesOf id rest else packagesOf id rest
  | .forget _ :: rest => packagesOf id rest

theorem mem_packagesOf {id : SensorId} {p : Package} {items : List Item} :
    p ∈ packagesOf id items ↔ .packet p ∈ items ∧ p.sensor = id := by
  induction items with
  | nil => exact ⟨nofun, fun h => nomatch h.1⟩
  | cons item items ih =>
    cases item with
    | forget gone => simp [packagesOf, ih]
    | packet q =>
      rw [packagesOf]
      by_cases own : q.sensor = id
      · rw [if_pos own, List.mem_cons, ih, List.mem_cons, Item.packet.injEq, or_and_right]
        exact or_congr_left (iff_self_and.2 fun same => same ▸ own)
      · rw [if_neg own, ih, List.mem_cons, Item.packet.injEq, or_and_right]
        exact (or_iff_right fun ⟨same, theirs⟩ => own (same ▸ theirs)).symm

/-- Items whose packets can arrive, and last for a time that can pass. -/
structure Within (items : List Item) : Prop where
  credible : ∀ p, .packet p ∈ items → p.Credible
  short : ∀ id, Package.lasting (packagesOf id items) < 2 ^ 60

/-- It is enough to look at the sensors that there are items of. -/
theorem within_iff {items : List Item} :
    Within items ↔ ∀ item ∈ items, (∀ p ∈ packagesOf item.sensor items, p.Credible) ∧
      Package.lasting (packagesOf item.sensor items) < 2 ^ 60 := by
  constructor
  · intro h item _
    exact ⟨fun p mem => h.credible p (mem_packagesOf.1 mem).1, h.short item.sensor⟩
  · intro h
    refine ⟨fun p mem => (h _ mem).1 p (mem_packagesOf.2 ⟨mem, rfl⟩), fun id => ?_⟩
    cases none : packagesOf id items with
    | nil => exact show (0 : Int) < 2 ^ 60 by decide
    | cons p ps =>
      obtain ⟨mem, rfl⟩ := mem_packagesOf.1 (none ▸ List.mem_cons_self : p ∈ packagesOf id items)
      exact none ▸ (h _ mem).2

instance (items : List Item) : Decidable (Within items) := decidable_of_iff _ within_iff.symm

namespace Worker

variable {w : Worker} {id : SensorId} {t : Timeline} {p : Package} {ps : List Package} {item : Item}
  {rest items : List Item} {span : Frame.Span} {total : Micros}

/-! ## Workers in range -/

namespace Checked

/-- How far the clock of a sensor is off, in range. -/
def offset (p : Package) (span : Frame.Span) (clock : Micros) : Option Micros := do
  let anchor ← int (p.arrival - span.duration)
  int (anchor - clock)

/-- What the log shows of a clock that does not just run on, in range. -/
def report (p : Package) (span : Frame.Span) (t : Timeline) (kind : Adjustment) :
    Option (List Effect) := do
  if kind = .aligned then return []
  return [.log (.alignmentAdjusted p.sensor p.sequence kind t.clock t.lastSequence t.anchor
    (← offset p span t.clock))]

/-- What the log shows of a packet that is marked for it, in range. -/
def sample (p : Package) (span : Frame.Span) (clock : Micros) : Option (List Effect) := do
  if !p.sampled then return []
  return [.log (.sample p.sensor p.sequence span.rate span.samples (← offset p span clock))]

/-- `Worker.place`, in range. -/
def place (w : Worker) (p : Package) (span : Frame.Span) : Option (Worker × List Effect) := do
  let (timeline, kind) ← Timeline.Checked.take (w.timeline p.sensor) (p.timed span)
  let report ← report p span timeline kind
  let sample ← sample p span timeline.clock
  return ({ w with
      timelines := w.timelines.insert p.sensor timeline
      placements := w.placements.insert p.sensor ⟨p.sequence, timeline.clock, p.arrival, kind⟩ },
    .count (.adjusted kind) :: report ++ sample)

/-- `Worker.process`, in range. -/
def process (w : Worker) (p : Package) : Option (Worker × List Effect) := do
  match ← Frame.Checked.decode p.frame with
  | .error reason =>
    return (w, w.early p ++ [.count .decodeErrors, .log (.decodeFailed p.sensor p.sequence reason)])
  | .ok frame =>
    match ← Frame.Checked.spanOf frame with
    | .error reason => return (w, w.early p ++ skip p reason)
    | .ok span =>
      let (placed, effects) ← place w p span
      return (placed, w.early p ++ effects ++ w.late p.sensor frame)

/-- `Worker.handle`, in range. -/
def handle (w : Worker) : Item → Option (Worker × List Effect)
  | .packet p => do
    let (w, effects) ← process w p
    return (w, .move .queued (-1) :: effects)
  | .forget id => return (w.forget id, [])

/-- `Worker.handleAll`, in range. -/
def handleAll (w : Worker) : List Item → Option (Worker × List Effect)
  | [] => return (w, [])
  | item :: rest => do
    let (w, effects) ← handle w item
    let (w, more) ← handleAll w rest
    return (w, effects ++ more)

end Checked

/-! ## Room on the clocks -/

/-- A clock has room for packets: it has not been so long under way that what they last takes it out of
reach, and its threshold does not reach too far. -/
structure Roomy (t : Timeline) (ps : List Package) : Prop where
  narrow : t.threshold ≤ Timeline.widest
  reach : ∃ total, 0 ≤ total ∧ t.InReach total ∧ total + Package.lasting ps < 2 ^ 60

/-- All clocks of a worker have room for the items to come. -/
structure Ready (w : Worker) (items : List Item) : Prop where
  narrow : w.settings.threshold ≤ Timeline.widest
  credible : ∀ p, .packet p ∈ items → p.Credible
  room : ∀ id, Roomy (w.timeline id) (packagesOf id items)

theorem roomy_start {threshold : Micros} (narrow : threshold ≤ Timeline.widest)
    (short : Package.lasting ps < 2 ^ 60) : Roomy { threshold } ps where
  narrow
  reach := ⟨0, Int.le_refl 0, Timeline.inReach_start threshold, (Int.zero_add _).symm ▸ short⟩

theorem Roomy.short (h : Roomy t ps) : Package.lasting ps < 2 ^ 60 := by
  obtain ⟨total, started, -, short⟩ := h.reach
  dsimp only [Micros] at *
  omega

/-- A packet that is skipped takes up no room. -/
theorem Roomy.skip (h : Roomy t (p :: ps)) : Roomy t ps := by
  obtain ⟨total, started, near, short⟩ := h.reach
  have lasts := p.duration_nonneg
  rw [Package.lasting_cons] at short
  refine ⟨h.narrow, total, started, near, ?_⟩
  dsimp only [Micros] at *
  omega

/-- A clock in reach is not far off. -/
theorem Checked.offset_eq (near : t.InReach total) (short : total < 2 ^ 60)
    (credible : (p.timed span).Credible) :
    offset p span t.clock = some (Word.signed (p.arrival - span.duration - t.clock)) := by
  obtain ⟨last, -, low, high⟩ := near
  obtain ⟨-, arrival, duration⟩ := credible
  dsimp only [Package.timed, Micros] at *
  have anchor : int (p.arrival - span.duration) = some (p.arrival - span.duration) :=
    int_eq (by omega) (by omega)
  rw [offset, bind_of anchor, Word.signed_eq (by omega) (by omega)]
  exact int_eq (by omega) (by omega)

theorem Checked.report_eq {apart : Micros} (off : offset p span t.clock = some apart)
    (kind : Adjustment) :
    report p span t kind = some (if kind = .aligned then [] else
      [.log (.alignmentAdjusted p.sensor p.sequence kind t.clock t.lastSequence t.anchor apart)]) := by
  rw [report, bind_of off]
  split <;> rfl

theorem Checked.sample_eq {clock apart : Micros} (off : offset p span clock = some apart) :
    sample p span clock = some (if p.sampled then
      [.log (.sample p.sensor p.sequence span.rate span.samples apart)] else []) := by
  rw [sample, bind_of off]
  cases p.sampled <;> rfl

/-- A clock with room for a packet moves in range, and has room for those behind it. -/
theorem Roomy.take (h : Roomy t (p :: ps)) (lasts : p.duration = span.duration)
    (credible : (p.timed span).Credible) :
    Timeline.Checked.take t (p.timed span) = some (t.take (p.timed span)) ∧
      Checked.offset p span (t.take (p.timed span)).1.clock =
        some (Word.signed (p.arrival - span.duration - (t.take (p.timed span)).1.clock)) ∧
      Roomy (t.take (p.timed span)).1 ps := by
  obtain ⟨total, started, near, short⟩ := h.reach
  rw [Package.lasting_cons, lasts, ← Int.add_assoc] at short
  have ahead := Package.lasting_nonneg ps
  have soon : total + span.duration < 2 ^ 60 :=
    Int.lt_of_le_of_lt (Int.le_add_of_nonneg_right ahead) short
  have within : ¬ t.Overflows (p.timed span) := fun overflows =>
    Timeline.not_overruns h.narrow (List.forall_mem_singleton.2 credible) (.inl overflows)
  have taken : Timeline.Checked.take t (p.timed span) = some (t.take (p.timed span)) :=
    (Timeline.Checked.take_eq near soon credible).trans (if_neg within)
  have after := near.takes started credible (Timeline.Checked.takes taken).2
  have later : 0 ≤ total + span.duration := Int.add_nonneg started credible.duration.1
  refine ⟨taken, Checked.offset_eq after soon credible, ?_, total + span.duration, later, after, short⟩
  rw [t.threshold_take]
  exact h.narrow

theorem Checked.place_eq (h : Roomy (w.timeline p.sensor) (p :: ps))
    (lasts : p.duration = span.duration) (credible : (p.timed span).Credible) :
    place w p span = some (w.place p span) := by
  obtain ⟨taken, off, -⟩ := h.take lasts credible
  have moves : (w.timeline p.sensor).take (p.timed span) =
      (w.timeline p.sensor).next (Word.signed p.sequence) span.fill p.arrival span.duration := by
    rw [Timeline.take, p.sequence_timed span]
    rfl
  generalize (w.timeline p.sensor).take (p.timed span) = moved at taken off moves
  rw [place, bind_of taken]
  dsimp only
  rw [bind_of (report_eq off _), bind_of (sample_eq off), Worker.place, ← timeline, ← moves]
  rfl

/-- A packet whose clock has room is processed in range. -/
theorem Checked.process_eq (h : Roomy (w.timeline p.sensor) (p :: ps)) (credible : p.Credible) :
    process w p = some (w.process p) := by
  rw [process, Worker.process, bind_of (Frame.Checked.decode_eq p.frame)]
  cases decoded : Frame.decode p.frame with
  | error reason => rfl
  | ok frame =>
    dsimp only
    rw [bind_of (Frame.Checked.spanOf_eq decoded)]
    cases spanned : frame.span with
    | error reason => rfl
    | ok span =>
      have placed : place w p span = some (w.place p span) :=
        place_eq h (Package.duration_eq decoded spanned) (credible.timed decoded spanned)
      dsimp only
      rw [bind_of placed]
      rfl

/-- A packet that cannot be placed leaves the worker as it is. -/
theorem handle_untimed (untimed : p.timed? = none) : (w.handle (.packet p)).1 = w := by
  rw [Worker.handle, Worker.process]
  cases decoded : Frame.decode p.frame with
  | error reason => rfl
  | ok frame =>
    cases spanned : frame.span with
    | error reason =>
      dsimp only
      rw [spanned]
    | ok span =>
      have timed := Package.timed?_eq_some.2 ⟨frame, span, decoded, spanned, rfl⟩
      cases untimed.symm.trans timed

theorem Agree.timeline_eq {v : Worker} (h : Agree id w v) : w.timeline id = v.timeline id := by
  rw [Worker.timeline, Worker.timeline, h.timeline, h.settings]

/-- The clock of the sensor has room for what comes behind the packet. -/
theorem Roomy.handle (h : Roomy (w.timeline p.sensor) (p :: ps)) (credible : p.Credible) :
    Roomy ((w.handle (.packet p)).1.timeline p.sensor) ps := by
  cases timed : p.timed? with
  | none =>
    rw [handle_untimed timed]
    exact h.skip
  | some q =>
    obtain ⟨frame, span, decoded, spanned, rfl⟩ := Package.timed?_eq_some.1 timed
    have moved : (w.handle (.packet p)).1.timeline p.sensor =
        ((w.timeline p.sensor).take (p.timed span)).1 := by
      rw [timeline, (w.handle_timed timed).1]
      rfl
    rw [moved]
    exact (h.take (Package.duration_eq decoded spanned) (credible.timed decoded spanned)).2.2

/-! ## All items -/

theorem timeline_forget (w : Worker) (id : SensorId) :
    (w.handle (.forget id)).1.timeline id = { threshold := w.settings.threshold } := by
  rw [timeline, Worker.handle, Worker.forget]
  simp

/-- Every item is done in range, and leaves room for those behind it. -/
theorem Ready.handle (h : Ready w (item :: rest)) :
    Checked.handle w item = some (w.handle item) ∧ Ready (w.handle item).1 rest := by
  have settings : (w.handle item).1.settings = w.settings := settings_handle w item
  have others (id : SensorId) (other : item.sensor ≠ id) :
      (w.handle item).1.timeline id = w.timeline id :=
    ((Agree.refl id w).handle_other other).timeline_eq
  have narrow : (w.handle item).1.settings.threshold ≤ Timeline.widest := settings ▸ h.narrow
  have credible (p : Package) (mem : .packet p ∈ rest) : p.Credible :=
    h.credible p (List.mem_cons_of_mem item mem)
  cases item with
  | packet p =>
    have own : Roomy (w.timeline p.sensor) (p :: packagesOf p.sensor rest) := by
      have room := h.room p.sensor
      rwa [packagesOf, if_pos rfl] at room
    have first : p.Credible := h.credible p List.mem_cons_self
    refine ⟨bind_of (Checked.process_eq own first) _, narrow, credible, fun id => ?_⟩
    by_cases same : p.sensor = id
    · subst same
      exact own.handle first
    · have room := h.room id
      rw [packagesOf, if_neg same] at room
      rw [others id same]
      exact room
  | forget gone =>
    refine ⟨rfl, narrow, credible, fun id => ?_⟩
    have room : Roomy (w.timeline id) (packagesOf id rest) := h.room id
    by_cases same : gone = id
    · subst same
      rw [timeline_forget]
      exact roomy_start h.narrow room.short
    · rw [others id same]
      exact room

/-- A worker that is ready for its items does all of them in range. -/
theorem Ready.handleAll (h : Ready w items) :
    Checked.handleAll w items = some (w.handleAll items) := by
  induction items generalizing w with
  | nil => rfl
  | cons item rest ih =>
    obtain ⟨done, ready⟩ := h.handle
    rw [Checked.handleAll, bind_of done]
    dsimp only
    rw [bind_of (ih ready)]
    rfl

end Worker

end Lane

end SensorIngest
