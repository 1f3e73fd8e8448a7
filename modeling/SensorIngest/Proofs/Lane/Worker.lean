import Mathlib.Data.List.Induction
import SensorIngest.Lane.Worker

/-!
# What a worker does for one sensor

The sensors of a lane share its worker and nothing else. What the worker remembers of a sensor,
and the deliveries that it makes for it, are those of a worker that is given the items of this
sensor alone (`Agree.handleAll`), and so is what it publishes after each of them
(`Agree.results`). Packets that can be placed in time are delivered whole (`raws_handleAll`).
-/

namespace SensorIngest

/-- The octets that a delivery hands over. -/
def Delivery.raw? : Delivery → Option Bytes
  | proxy _ raw | grpc _ raw => some raw
  | broadcast _ frame | file _ frame => some frame.raw
  | presence _ => none

/-- What sinks of one kind get, as octets. -/
def Delivery.raws (sink : Sink) (ds : List Delivery) : List Bytes :=
  (ds.filter (·.sink = sink)).filterMap raw?

@[simp] theorem Delivery.raws_nil (sink : Sink) : raws sink [] = [] := rfl

@[simp] theorem Delivery.raws_append (sink : Sink) (first rest : List Delivery) :
    raws sink (first ++ rest) = raws sink first ++ raws sink rest := by
  simp only [raws, List.filter_append, List.filterMap_append]

namespace Lane

namespace Effect

/-- The deliveries, in order. -/
def deliveries (effects : List Effect) : List Delivery := effects.filterMap delivery?

@[simp] theorem deliveries_nil : deliveries [] = [] := rfl

@[simp] theorem deliveries_append (first rest : List Effect) :
    deliveries (first ++ rest) = deliveries first ++ deliveries rest := List.filterMap_append

@[simp] theorem deliveries_count (tally : Tally) (rest : List Effect) :
    deliveries (.count tally :: rest) = deliveries rest := rfl

@[simp] theorem deliveries_move (gauge : Gauge) (step : Int) (rest : List Effect) :
    deliveries (.move gauge step :: rest) = deliveries rest := rfl

@[simp] theorem deliveries_log (event : Event) (rest : List Effect) :
    deliveries (.log event :: rest) = deliveries rest := rfl

@[simp] theorem deliveries_deliver (d : Delivery) (rest : List Effect) :
    deliveries (.deliver d :: rest) = d :: deliveries rest := rfl

end Effect

/-- The sink is present, and is called with packets that have been placed in time. -/
def Settings.aligned (s : Settings) (sink : Sink) : Bool :=
  s.sinks.has sink &&
    match sink with
    | .presence => false
    | .proxy => s.proxyAligned
    | .broadcast | .grpc | .file => true

/-- The frame of a package can be placed in time. -/
def Placeable (p : Package) : Prop :=
  ∃ frame span, Frame.decode p.frame = .ok frame ∧ frame.raw = p.frame ∧ frame.span = .ok span

namespace Worker

variable {w v : Worker} {id : SensorId} {item : Item} {p : Package}

theorem handleAll_append (w : Worker) (items more : List Item) :
    w.handleAll (items ++ more) =
      (((w.handleAll items).1.handleAll more).1,
        (w.handleAll items).2 ++ ((w.handleAll items).1.handleAll more).2) := by
  induction items generalizing w with
  | nil => rfl
  | cons item items ih =>
    simp only [List.cons_append, handleAll, ih, List.append_assoc]

theorem handleAll_append_singleton (w : Worker) (items : List Item) (item : Item) :
    w.handleAll (items ++ [item]) =
      (((w.handleAll items).1.handle item).1,
        (w.handleAll items).2 ++ ((w.handleAll items).1.handle item).2) := by
  rw [handleAll_append]
  simp only [handleAll, List.append_nil]

/-! ## One packet -/

theorem deliveries_offer (w : Worker) (d : Delivery) :
    Effect.deliveries (w.offer d) = if w.settings.sinks.has d.sink then [d] else [] := by
  unfold offer
  split <;> rfl

theorem deliveries_place (w : Worker) (p : Package) (span : Frame.Span) :
    Effect.deliveries (w.place p span).2 = [] := by
  simp only [place, Effect.deliveries_count, Effect.deliveries_append]
  split <;> split <;> rfl

theorem deliveries_skip (p : Package) (reason : Frame.Error) :
    Effect.deliveries (skip p reason) = [] := by
  unfold skip
  split <;> rfl

theorem sensor_of_mem_offer {d e : Delivery} (mem : d ∈ Effect.deliveries (w.offer e)) :
    d.sensor = e.sensor := by
  rw [deliveries_offer] at mem
  split at mem
  · cases List.mem_singleton.1 mem
    rfl
  · cases mem

theorem sensor_of_mem_early {d : Delivery} (mem : d ∈ Effect.deliveries (w.early p)) :
    d.sensor = p.sensor := by
  rw [early, Effect.deliveries_append, List.mem_append] at mem
  rcases mem with mem | mem
  · exact sensor_of_mem_offer mem
  · split at mem
    · cases mem
    · exact sensor_of_mem_offer mem

theorem sensor_of_mem_late {d : Delivery} {frame : Frame}
    (mem : d ∈ Effect.deliveries (w.late id frame)) : d.sensor = id := by
  simp only [late, Effect.deliveries_append, List.mem_append] at mem
  rcases mem with ((mem | mem) | mem) | mem
  · split at mem
    · exact sensor_of_mem_offer mem
    · cases mem
  all_goals exact sensor_of_mem_offer mem

/-- All that is delivered of an item comes from its sensor. -/
theorem sensor_of_mem_handle {d : Delivery} (mem : d ∈ Effect.deliveries (w.handle item).2) :
    d.sensor = item.sensor := by
  cases item with
  | forget id => cases mem
  | packet p =>
    simp only [handle, process, Effect.deliveries_move] at mem
    split at mem
    · rw [Effect.deliveries_append, List.mem_append] at mem
      rcases mem with mem | mem
      · exact sensor_of_mem_early mem
      · cases mem
    · split at mem
      · rw [Effect.deliveries_append, deliveries_skip, List.append_nil] at mem
        exact sensor_of_mem_early mem
      · simp only [Effect.deliveries_append, deliveries_place, List.append_nil,
          List.mem_append] at mem
        exact mem.elim sensor_of_mem_early sensor_of_mem_late

theorem settings_handle (w : Worker) (item : Item) : (w.handle item).1.settings = w.settings := by
  cases item with
  | forget id => rfl
  | packet p =>
    simp only [handle, process]
    split
    · rfl
    · split <;> rfl

/-! ## One sensor of many -/

/-- The workers remember the same of a sensor. -/
structure Agree (id : SensorId) (w v : Worker) : Prop where
  settings : w.settings = v.settings
  timeline : w.timelines[id]? = v.timelines[id]?
  placement : w.placements[id]? = v.placements[id]?

theorem Agree.refl (id : SensorId) (w : Worker) : Agree id w w := ⟨rfl, rfl, rfl⟩

theorem Agree.place (h : Agree p.sensor w v) (span : Frame.Span) :
    (w.place p span).2 = (v.place p span).2 ∧
      Agree p.sensor (w.place p span).1 (v.place p span).1 := by
  unfold Worker.place
  dsimp only
  rw [h.timeline, h.settings]
  exact ⟨rfl, rfl, by simp, by simp⟩

theorem Agree.offer (h : Agree id w v) (d : Delivery) : w.offer d = v.offer d := by
  unfold Worker.offer
  rw [h.settings]

theorem Agree.process (h : Agree p.sensor w v) :
    (w.process p).2 = (v.process p).2 ∧ Agree p.sensor (w.process p).1 (v.process p).1 := by
  have early : w.early p = v.early p := by
    simp only [Worker.early, h.offer, h.settings]
  have late (frame : Frame) : w.late p.sensor frame = v.late p.sensor frame := by
    simp only [Worker.late, h.offer, h.settings]
  unfold Worker.process
  rw [early]
  split
  · exact ⟨rfl, h⟩
  · split
    · exact ⟨rfl, h⟩
    · obtain ⟨same, agree⟩ := h.place (by assumption)
      simp only [same, late]
      exact ⟨trivial, agree⟩

theorem Agree.handle (h : Agree id w v) (own : item.sensor = id) :
    (w.handle item).2 = (v.handle item).2 ∧ Agree id (w.handle item).1 (v.handle item).1 := by
  subst own
  cases item with
  | packet p =>
    obtain ⟨same, agree⟩ := Agree.process (p := p) h
    simp only [Worker.handle, same]
    exact ⟨trivial, agree⟩
  | forget id =>
    refine ⟨rfl, h.settings, ?_, ?_⟩
    · simp [Worker.handle, Worker.forget, Item.sensor]
    · simp [Worker.handle, Worker.forget, Item.sensor]

theorem Agree.handle_other (h : Agree id w v) (other : item.sensor ≠ id) :
    Agree id (w.handle item).1 v := by
  have kept : (w.handle item).1.timelines[id]? = w.timelines[id]? ∧
      (w.handle item).1.placements[id]? = w.placements[id]? := by
    have apart : ¬ compare item.sensor id = .eq := fun e => other (Std.LawfulEqOrd.eq_of_compare e)
    cases item with
    | forget gone =>
      rw [Item.sensor] at apart
      simp only [Worker.handle, Worker.forget, Std.ExtTreeMap.getElem?_erase, if_neg apart,
        and_self]
    | packet p =>
      rw [Item.sensor] at apart
      simp only [Worker.handle, Worker.process]
      split
      · exact ⟨rfl, rfl⟩
      · split
        · exact ⟨rfl, rfl⟩
        · simp only [Worker.place, Std.ExtTreeMap.getElem?_insert, if_neg apart, and_self]
  exact ⟨(w.settings_handle item).trans h.settings, kept.1.trans h.timeline,
    kept.2.trans h.placement⟩

/-- What is remembered of a sensor and delivered for it comes of its own items. -/
theorem Agree.handleAll (h : Agree id w v) (items : List Item) :
    let own := items.filter (·.sensor = id)
    Agree id (w.handleAll items).1 (v.handleAll own).1 ∧
      (Effect.deliveries (w.handleAll items).2).filter (·.sensor = id) =
        Effect.deliveries (v.handleAll own).2 := by
  induction items generalizing w v with
  | nil => exact ⟨h, rfl⟩
  | cons item items ih =>
    by_cases own : item.sensor = id
    · obtain ⟨same, agree⟩ := h.handle own
      obtain ⟨after, rest⟩ := ih agree
      have all : (Effect.deliveries (v.handle item).2).filter (·.sensor = id) =
          Effect.deliveries (v.handle item).2 := by
        refine List.filter_eq_self.2 fun d mem => decide_eq_true ?_
        exact (sensor_of_mem_handle mem).trans own
      simp only [List.filter_cons, own, decide_true, if_true]
      refine ⟨after, ?_⟩
      simp only [Worker.handleAll, Effect.deliveries_append, List.filter_append, same, all, rest]
    · obtain ⟨after, rest⟩ := ih (h.handle_other own)
      have none : (Effect.deliveries (w.handle item).2).filter (·.sensor = id) = [] := by
        refine List.filter_eq_nil_iff.2 fun d mem found => own ?_
        exact (sensor_of_mem_handle mem).symm.trans (of_decide_eq_true found)
      simp only [List.filter_cons, own, decide_false, Bool.false_eq_true, if_false]
      refine ⟨after, ?_⟩
      simp only [Worker.handleAll, Effect.deliveries_append, List.filter_append, none, rest,
        List.nil_append]

/-! ## Results -/

/-- The items, each with what is published of its sensor once it is done. -/
def results (w : Worker) : List Item → List (Item × Option Placement)
  | [] => []
  | item :: rest =>
    let w := (w.handle item).1
    (item, w.placements[item.sensor]?) :: w.results rest

theorem results_append (w : Worker) (items more : List Item) :
    w.results (items ++ more) = w.results items ++ (w.handleAll items).1.results more := by
  induction items generalizing w with
  | nil => rfl
  | cons first items ih =>
    simp only [List.cons_append, results, ih, handleAll]

theorem results_append_singleton (w : Worker) (items : List Item) (item : Item) :
    w.results (items ++ [item]) = w.results items ++
      [(item, ((w.handleAll items).1.handle item).1.placements[item.sensor]?)] :=
  w.results_append items [item]

theorem map_fst_results (w : Worker) (items : List Item) :
    (w.results items).map Prod.fst = items := by
  induction items generalizing w with
  | nil => rfl
  | cons item items ih => rw [results, List.map_cons, ih]

/-- What is published of a sensor comes of its own items. -/
theorem Agree.results (h : Agree id w v) (items : List Item) :
    (w.results items).filter (·.1.sensor = id) = v.results (items.filter (·.sensor = id)) := by
  induction items generalizing w v with
  | nil => rfl
  | cons item items ih =>
    rw [Worker.results, List.filter_cons, List.filter_cons]
    by_cases own : item.sensor = id
    · obtain ⟨-, agree⟩ := h.handle own
      simp only [own, decide_true, if_true, Worker.results, agree.placement, ih agree]
    · simp only [own, decide_false, Bool.false_eq_true, if_false, ih (h.handle_other own)]

/-! ## Packets that can be placed -/

theorem process_placeable (h : Placeable p) (w : Worker) :
    ∃ frame span, frame.raw = p.frame ∧ w.process p = ((w.place p span).1,
      w.early p ++ (w.place p span).2 ++ w.late p.sensor frame) := by
  obtain ⟨frame, span, decoded, raw, spans⟩ := h
  refine ⟨frame, span, raw, ?_⟩
  rw [process, decoded]
  dsimp only
  rw [spans]

open Delivery (raws raws_append)

theorem raws_offer (w : Worker) (d : Delivery) {sink : Sink} (there : w.settings.sinks.has sink) :
    raws sink (Effect.deliveries (w.offer d)) = if d.sink = sink then d.raw?.toList else [] := by
  rw [deliveries_offer]
  by_cases same : d.sink = sink
  · subst same
    simp only [there, if_true, raws, List.filter_cons, decide_true, List.filter_nil,
      List.filterMap_cons, List.filterMap_nil]
    cases d.raw? <;> rfl
  · rw [if_neg same]
    split
    · simp [raws, same]
    · rfl

theorem raws_early (p : Package) {sink : Sink} (aligned : w.settings.aligned sink = true) :
    raws sink (Effect.deliveries (w.early p)) = [] := by
  obtain ⟨there, late⟩ := Bool.and_eq_true_iff.1 aligned
  have presence : raws sink (Effect.deliveries (w.offer (.presence p.sensor))) = [] := by
    rw [raws_offer _ _ there]
    split <;> rfl
  rw [early, Effect.deliveries_append, raws_append, presence, List.nil_append]
  split
  · rfl
  · rename_i first
    rw [raws_offer _ _ there]
    refine if_neg ?_
    rintro rfl
    exact first late

theorem raws_late (id : SensorId) (frame : Frame) {sink : Sink}
    (aligned : w.settings.aligned sink = true) :
    raws sink (Effect.deliveries (w.late id frame)) = [frame.raw] := by
  obtain ⟨there, late⟩ := Bool.and_eq_true_iff.1 aligned
  have proxy : raws sink (Effect.deliveries
      (if w.settings.proxyAligned then w.offer (.proxy id frame.raw) else [])) =
      if Sink.proxy = sink then [frame.raw] else [] := by
    split
    · exact raws_offer _ _ there
    · rename_i first
      symm
      refine if_neg ?_
      rintro rfl
      exact first late
  simp only [Worker.late, Effect.deliveries_append, raws_append, proxy, raws_offer _ _ there]
  cases sink with
  | presence => cases late
  | proxy | broadcast | grpc | file => rfl

theorem raws_handle (h : Placeable p) {sink : Sink} (aligned : w.settings.aligned sink = true) :
    raws sink (Effect.deliveries (w.handle (.packet p)).2) = [p.frame] := by
  obtain ⟨frame, span, raw, eq⟩ := process_placeable h w
  simp only [handle, eq, Effect.deliveries_move, Effect.deliveries_append, deliveries_place,
    raws_append, raws_early p aligned, raws_late p.sensor frame aligned, raw]
  rfl

theorem raws_handleAll {ps : List Package} (h : ∀ p ∈ ps, Placeable p) {sink : Sink}
    (aligned : w.settings.aligned sink = true) :
    raws sink (Effect.deliveries (w.handleAll (ps.map .packet)).2) = ps.map (·.frame) := by
  induction ps generalizing w with
  | nil => rfl
  | cons p ps ih =>
    rw [List.forall_mem_cons] at h
    have rest := ih h.2 ((w.settings_handle (.packet p)).symm ▸ aligned)
    simp only [List.map_cons, handleAll, Effect.deliveries_append, raws_append,
      raws_handle h.1 aligned, rest]
    rfl

theorem placement_handleAll {ps : List Package} (h : ∀ p ∈ ps, Placeable p ∧ p.sensor = id)
    (none : w.placements[id]? = none) :
    ((w.handleAll (ps.map .packet)).1.placements[id]?).map (·.sequence) =
      ps.getLast?.map (·.sequence) := by
  cases ps using List.reverseRecOn with
  | nil =>
    rw [List.map_nil, handleAll, none]
    rfl
  | append_singleton ps p =>
    obtain ⟨placeable, rfl⟩ := h p (by simp)
    rw [List.map_append, List.map_singleton, handleAll_append_singleton, List.getLast?_concat]
    obtain ⟨frame, span, -, eq⟩ := process_placeable placeable (w.handleAll (ps.map .packet)).1
    simp only [handle, eq, place, Std.ExtTreeMap.getElem?_insert_self, Option.map_some]

theorem count_not_mem_offer (w : Worker) (d : Delivery) (tally : Tally) :
    .count tally ∉ w.offer d := by
  unfold offer
  split <;> simp

theorem counts_handle (h : Placeable p) {tally : Tally}
    (mem : .count tally ∈ (w.handle (.packet p)).2) : ∃ kind, tally = .adjusted kind := by
  obtain ⟨frame, span, -, eq⟩ := process_placeable h w
  have early : .count tally ∉ w.early p := by
    unfold early
    split <;> simp [count_not_mem_offer]
  have late : .count tally ∉ w.late p.sensor frame := by
    unfold late
    split <;> simp [count_not_mem_offer]
  simp only [handle, eq, List.mem_cons, List.mem_append, reduceCtorEq, early, late, false_or,
    or_false] at mem
  simp only [place, List.mem_cons, List.mem_append] at mem
  rcases mem with (same | mem) | mem
  · exact ⟨_, Effect.count.inj same⟩
  all_goals split at mem <;> simp at mem

end Worker

end Lane

end SensorIngest
