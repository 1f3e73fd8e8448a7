import SensorIngest.Pipeline
import SensorIngest.Proofs.Intake.Accounting
import SensorIngest.Proofs.Lane.Worker

/-!
# Lanes under any schedule

What the receive path asks for reaches the lanes in order, but how much a worker has done by then
is anybody's guess. A list of `Move`s is one way in which it can go. Whatever the moves, each lane
has done the first items that were sent to it, one after the other, and the rest of them waits
(`OnCourse`). So when the lanes are closed all items are done, and what is delivered for a sensor
does not depend on the schedule or the number of lanes (`Plant.OnCourse.closed`).
-/

namespace SensorIngest.Lane

/-- What happens next: the receive path asks for something, or a lane does its oldest item. -/
inductive Move where
  | effect (e : Intake.Effect)
  | serve (lane : Nat)

def Move.effect? : Move → Option Intake.Effect
  | effect e => some e
  | serve _ => none

/-- The item that an effect puts in a lane. -/
def Item.of? : Intake.Effect → Option Item
  | .dispatch p => some (.packet p)
  | .forget id => some (.forget id)
  | _ => none

/-- If nothing is forgotten, the lanes get the packages handed on. -/
theorem Item.filterMap_of? {effects : List Intake.Effect}
    (kept : Intake.Effect.forgotten effects = []) :
    effects.filterMap of? = (Intake.Effect.packages effects).map .packet := by
  induction effects with
  | nil => rfl
  | cons e effects ih =>
    cases e with
    | forget id => cases kept
    | dispatch p => exact congrArg (Item.packet p :: ·) (ih kept)
    | count | move | log => exact ih kept

variable {σ : Type}

/-- The same outlets, which also note each delivery. -/
def Outlets.recorded (o : Outlets σ) : Outlets (σ × List Delivery) where
  answer s d :=
    let (outlets, events, answer) := o.answer s.1 d
    ((outlets, s.2 ++ [d]), events, answer)

/-- No delivery ends a lane. -/
def Outlets.Steady (o : Outlets σ) : Prop := ∀ s d, (o.answer s d).2.2 ≠ .crashed

namespace Plant

/-- Makes one move. A package is counted when it is handed on. -/
def move (o : Outlets σ) (p : Plant σ) : Move → Plant σ
  | .effect (.dispatch package) =>
    (Pipeline.tallied p (·.count 1 .dispatched)).dispatch o package
  | .effect (.forget id) => p.forget o id
  | .effect e => Pipeline.performOne o p e
  | .serve lane => if h : lane < p.router.lanes.size then p.serve o ⟨lane, h⟩ else p

def play (o : Outlets σ) (p : Plant σ) (moves : List Move) : Plant σ := moves.foldl (move o) p

end Plant

/-! ## Carrying out effects -/

namespace Scene

variable {o : Outlets σ} {s : Scene (σ × List Delivery)}

/-- One scene after another, when these deliveries were made and none of these tallies counted. -/
structure After (s : Scene (σ × List Delivery)) (made : List Delivery) (still : Tally → Prop)
    (t : Scene (σ × List Delivery)) : Prop where
  alive : t.crashed = false
  journal : t.outlets.2 = s.outlets.2 ++ made
  counters : ∀ tally, tally ≠ .sinkErrors → still tally →
    t.counters.reading tally = s.counters.reading tally

theorem performOne_after (steady : o.Steady) (alive : s.crashed = false) (e : Effect) :
    s.After (Effect.deliveries [e]) (Effect.count · ≠ e) (s.performOne o.recorded e) := by
  cases e with
  | count other =>
    refine ⟨alive, (List.append_nil _).symm, fun tally _ still => ?_⟩
    have apart : ¬ other = tally := fun same => still (congrArg Effect.count same.symm)
    rw [performOne, Counters.reading_count, if_neg apart]
    rfl
  | move gauge step =>
    exact ⟨alive, (List.append_nil _).symm, fun tally _ _ => Counters.reading_move _ _ _ _⟩
  | log event => exact ⟨alive, (List.append_nil _).symm, fun _ _ _ => rfl⟩
  | deliver d =>
    have answered := steady s.outlets.1 d
    rw [performOne, deliver]
    simp only [Outlets.recorded, Effect.deliveries_deliver, Effect.deliveries_nil]
    cases outcome : (o.answer s.outlets.1 d).2.2 with
    | crashed => exact absurd outcome answered
    | done => exact ⟨alive, rfl, fun _ _ _ => rfl⟩
    | failed reason =>
      refine ⟨alive, rfl, fun tally other _ => ?_⟩
      dsimp only [report]
      rw [Counters.reading_count, if_neg other.symm]
      rfl

theorem perform_after (steady : o.Steady) (alive : s.crashed = false) (effects : List Effect) :
    s.After (Effect.deliveries effects) (.count · ∉ effects) (s.perform o.recorded effects) := by
  induction effects generalizing s with
  | nil => exact ⟨alive, (List.append_nil _).symm, fun _ _ _ => rfl⟩
  | cons e rest ih =>
    have one := performOne_after steady alive e
    have more := ih one.alive
    rw [perform]
    simp only [one.alive, Bool.false_eq_true, if_false]
    refine ⟨more.alive, ?_, fun tally other still => ?_⟩
    · rw [more.journal, one.journal, List.append_assoc, ← Effect.deliveries_append]
      rfl
    · rw [List.mem_cons, not_or] at still
      rw [more.counters tally other still.2, one.counters tally other still.1]

end Scene

/-! ## One lane -/

/-- What all lanes have in common. -/
structure Layout where
  settings : Settings
  lanes : Nat
  capacity : Nat
  accepting : Bool := true

namespace Layout

def laneOf (l : Layout) (id : SensorId) : Nat := id.shard (l.lanes - 1)

/-- A worker that has done nothing yet. -/
def fresh (l : Layout) : Worker := { settings := l.settings }

/-- Lanes that take nothing more. -/
def closed (l : Layout) : Layout := { l with accepting := false }

/-- All that belongs to a sensor is in its lane. -/
theorem filter_laneOf {α : Type} (l : Layout) (id : SensorId) (of : α → SensorId) (xs : List α) :
    (xs.filter fun x => l.laneOf (of x) = l.laneOf id).filter (of · = id) =
      xs.filter (of · = id) := by
  rw [List.filter_filter]
  refine List.filter_congr fun x _ => ?_
  by_cases own : of x = id <;> simp [own]

end Layout

/-- A lane has done some of the items sent to it, and the others wait. -/
structure Queue.OnCourse (l : Layout) (lane : Nat) (sent : List Item) (journal : List Delivery)
    (q : Queue) : Prop where
  alive : q.dead = false
  accepting : q.accepting = l.accepting
  room : q.waiting.length ≤ max l.capacity 1
  done : ∃ done, sent.filter (l.laneOf ·.sensor = lane) = done ++ q.waiting ∧
    q.worker = (l.fresh.handleAll done).1 ∧
    journal.filter (l.laneOf ·.sensor = lane) = Effect.deliveries (l.fresh.handleAll done).2

namespace Queue.OnCourse

variable {l : Layout} {lane : Nat} {sent : List Item} {journal made : List Delivery} {q : Queue}
  {item : Item} {rest : List Item}

theorem mem_sent (h : q.OnCourse l lane sent journal) (mem : item ∈ q.waiting) :
    item ∈ sent ∧ l.laneOf item.sensor = lane := by
  obtain ⟨done, split, -⟩ := h.done
  have found : item ∈ sent.filter (l.laneOf ·.sensor = lane) := by
    rw [split]
    exact List.mem_append_right _ mem
  rw [List.mem_filter] at found
  exact ⟨found.1, of_decide_eq_true found.2⟩

theorem of_other (h : q.OnCourse l lane sent journal)
    (other : ∀ d ∈ made, l.laneOf d.sensor ≠ lane) : q.OnCourse l lane sent (journal ++ made) := by
  obtain ⟨done, split, worker, delivered⟩ := h.done
  have none : made.filter (l.laneOf ·.sensor = lane) = [] :=
    List.filter_eq_nil_iff.2 fun d mem found => other d mem (of_decide_eq_true found)
  refine ⟨h.alive, h.accepting, h.room, done, split, worker, ?_⟩
  rw [List.filter_append, none, List.append_nil, delivered]

theorem work (h : q.OnCourse l lane sent journal) (front : q.waiting = item :: rest) :
    { q with worker := (q.worker.handle item).1, waiting := rest }.OnCourse l lane sent
      (journal ++ Effect.deliveries (q.worker.handle item).2) := by
  obtain ⟨done, split, worker, delivered⟩ := h.done
  have oldest : item ∈ q.waiting := front ▸ List.mem_cons_self
  have here := (h.mem_sent oldest).2
  -- What is delivered of the item comes from its sensor, and so from this lane.
  have all : (Effect.deliveries (q.worker.handle item).2).filter (l.laneOf ·.sensor = lane) =
      Effect.deliveries (q.worker.handle item).2 := by
    refine List.filter_eq_self.2 fun d mem => decide_eq_true ?_
    rw [Worker.sensor_of_mem_handle mem]
    exact here
  have room := h.room
  rw [front] at room
  refine ⟨h.alive, h.accepting, Nat.le_of_succ_le room, done ++ [item], ?_, ?_, ?_⟩
  · rw [split, front, List.append_assoc]
    rfl
  · rw [Worker.handleAll_append_singleton, ← worker]
  · rw [List.filter_append, delivered, all, Worker.handleAll_append_singleton, ← worker,
      Effect.deliveries_append]

theorem append (h : q.OnCourse l lane sent journal) (here : l.laneOf item.sensor = lane)
    (room : q.waiting.length < max l.capacity 1) :
    { q with waiting := q.waiting ++ [item] }.OnCourse l lane (sent ++ [item]) journal := by
  obtain ⟨done, split, worker, delivered⟩ := h.done
  refine ⟨h.alive, h.accepting, ?_, done, ?_, worker, delivered⟩
  · rw [List.length_append]
    exact room
  · rw [List.filter_append, split, List.append_assoc]
    simp [here]

theorem append_other (h : q.OnCourse l lane sent journal) (other : l.laneOf item.sensor ≠ lane) :
    q.OnCourse l lane (sent ++ [item]) journal := by
  obtain ⟨done, split, worker, delivered⟩ := h.done
  refine ⟨h.alive, h.accepting, h.room, done, ?_, worker, delivered⟩
  rw [List.filter_append, split]
  simp [other]

end Queue.OnCourse

/-! ## All lanes -/

namespace Plant

/-- Each lane is on course, and the tallies that no item adds to read as they were counted. -/
structure OnCourse (l : Layout) (sent : List Item) (counted : Counters)
    (p : Plant (σ × List Delivery)) : Prop where
  size : p.router.lanes.size = l.lanes
  capacity : p.router.capacity = l.capacity
  queues : ∀ (i : Nat) (q : Queue), p.router.lanes[i]? = some q →
    q.OnCourse l i sent p.scene.outlets.2
  counters : ∀ tally, tally ≠ .sinkErrors →
    (∀ item ∈ sent, ∀ w : Worker, .count tally ∉ (w.handle item).2) →
      p.scene.counters.reading tally = counted.reading tally

variable {l : Layout} {sent : List Item} {counted : Counters} {o : Outlets σ}
  {p : Plant (σ × List Delivery)} {item : Item} {rest : List Item}

theorem getElem?_lane (r : Router) (i : Fin r.lanes.size) : r.lanes[i.val]? = some (r.lane i) :=
  Array.getElem?_eq_getElem i.isLt

theorem size_setLane (r : Router) (i : Fin r.lanes.size) (q : Queue) :
    (r.setLane i q).lanes.size = r.lanes.size := by
  simp [Router.setLane]

theorem getElem?_setLane {r : Router} {i : Fin r.lanes.size} {q q' : Queue} {j : Nat}
    (found : (r.setLane i q).lanes[j]? = some q') :
    i.val = j ∧ q' = q ∨ i.val ≠ j ∧ r.lanes[j]? = some q' := by
  rw [Router.setLane, Array.getElem?_set] at found
  split at found
  · exact .inl ⟨by assumption, (Option.some.inj found).symm⟩
  · exact .inr ⟨by assumption, found⟩

theorem lane_setLane {r : Router} {i : Fin r.lanes.size} {q : Queue}
    {j : Fin (r.setLane i q).lanes.size} (same : j.val = i.val) : (r.setLane i q).lane j = q := by
  rcases getElem?_setLane (getElem?_lane _ j) with ⟨-, eq⟩ | ⟨other, -⟩
  · exact eq
  · exact absurd same.symm other

theorem setLane_setLane {r : Router} {i : Fin r.lanes.size} {q q' : Queue}
    {j : Fin (r.setLane i q).lanes.size} (same : j.val = i.val) :
    (r.setLane i q).setLane j q' = r.setLane i q' := by
  simp only [Router.setLane, same, Array.set_set]

theorem work_eq (steady : o.Steady) (p : Plant (σ × List Delivery)) (i : Fin p.router.lanes.size)
    (item : Item) (rest : List Item) :
    let q := p.router.lane i
    let handled := q.worker.handle item
    p.scene.After (Effect.deliveries handled.2) (.count · ∉ handled.2)
        (p.work o.recorded i item rest).scene ∧
      (p.work o.recorded i item rest).router =
        p.router.setLane i { q with worker := handled.1, waiting := rest } := by
  intro q handled
  have after := Scene.perform_after (s := { p.scene with crashed := false }) steady rfl handled.2
  refine ⟨⟨after.alive, after.journal, after.counters⟩, ?_⟩
  unfold work
  dsimp only
  rw [if_neg (Bool.eq_false_iff.1 after.alive)]

theorem OnCourse.work (h : p.OnCourse l sent counted) (steady : o.Steady)
    {i : Fin p.router.lanes.size} (front : (p.router.lane i).waiting = item :: rest) :
    (p.work o.recorded i item rest).OnCourse l sent counted := by
  obtain ⟨after, router⟩ := work_eq steady p i item rest
  have own := h.queues i _ (getElem?_lane p.router i)
  have oldest : item ∈ (p.router.lane i).waiting := front ▸ List.mem_cons_self
  obtain ⟨mem, here⟩ := own.mem_sent oldest
  refine ⟨?_, ?_, fun j q found => ?_, fun tally other still => ?_⟩
  · rw [router, size_setLane, h.size]
  · rw [router]
    exact h.capacity
  · rw [router] at found
    rw [after.journal]
    rcases getElem?_setLane found with ⟨rfl, rfl⟩ | ⟨other, found⟩
    · exact own.work front
    · refine (h.queues j q found).of_other fun d mem same => other ?_
      rw [Worker.sensor_of_mem_handle mem, here] at same
      exact same
  · rw [after.counters tally other (still item mem _), h.counters tally other still]

theorem OnCourse.serve (h : p.OnCourse l sent counted) (steady : o.Steady)
    (i : Fin p.router.lanes.size) : (p.serve o.recorded i).OnCourse l sent counted := by
  unfold Plant.serve
  split
  · exact h
  · rename_i item rest front
    exact h.work steady front

theorem waiting_serve (steady : o.Steady) (p : Plant (σ × List Delivery))
    (i : Fin p.router.lanes.size) (j : Nat) :
    ((p.serve o.recorded i).router.lanes[j]?).map (·.waiting) =
      (p.router.lanes[j]?).map fun q => if i.val = j then q.waiting.tail else q.waiting := by
  unfold Plant.serve
  split
  · rename_i empty
    by_cases same : i.val = j
    · subst same
      rw [getElem?_lane]
      simp [empty]
    · simp [same]
  · rename_i item rest front
    rw [(work_eq steady p i item rest).2, Router.setLane, Array.getElem?_set]
    by_cases same : i.val = j
    · subst same
      rw [getElem?_lane]
      simp [front]
    · simp [same]

/-- The lanes with one more item at the end of its lane. -/
def appended (p : Plant σ) (item : Item) : Plant σ :=
  let i := p.router.laneOf item.sensor
  let q := p.router.lane i
  { p with router := p.router.setLane i { q with waiting := q.waiting ++ [item] } }

theorem OnCourse.appended (h : p.OnCourse l sent counted)
    (room : (p.router.lane (p.router.laneOf item.sensor)).waiting.length < max l.capacity 1) :
    (p.appended item).OnCourse l (sent ++ [item]) counted := by
  have place : (p.router.laneOf item.sensor).val = l.laneOf item.sensor := by
    rw [Layout.laneOf, ← h.size]
    rfl
  refine ⟨?_, h.capacity, fun j q found => ?_, fun tally other still => ?_⟩
  · rw [Plant.appended, size_setLane, h.size]
  · rcases getElem?_setLane found with ⟨rfl, rfl⟩ | ⟨other, found⟩
    · exact (h.queues _ _ (getElem?_lane p.router _)).append place.symm room
    · exact (h.queues j q found).append_other (place ▸ other)
  · exact h.counters tally other fun item mem => still item (List.mem_append_left _ mem)

theorem OnCourse.enqueue (h : p.OnCourse l sent counted) (taking : l.accepting = true)
    (item : Item) :
    p.router.enqueue item =
      if (p.router.lane (p.router.laneOf item.sensor)).waiting.length < l.capacity then
        some ((p.appended item).router, true)
      else none := by
  have own := h.queues _ _ (getElem?_lane p.router (p.router.laneOf item.sensor))
  have takes : (!(p.router.lane (p.router.laneOf item.sensor)).accepting ||
      (p.router.lane (p.router.laneOf item.sensor)).dead) = false := by
    rw [own.accepting, taking, own.alive]
    rfl
  unfold Router.enqueue
  dsimp only
  rw [takes, h.capacity]
  rfl

theorem OnCourse.val_laneOf (h : p.OnCourse l sent counted) (id : SensorId) :
    (p.router.laneOf id).val = l.laneOf id := by
  rw [Layout.laneOf, ← h.size]
  rfl

theorem OnCourse.waiting_own (h : p.OnCourse l sent counted) (steady : o.Steady) (id : SensorId) :
    let p' := p.serve o.recorded (p.router.laneOf id)
    (p'.router.lane (p'.router.laneOf id)).waiting =
      (p.router.lane (p.router.laneOf id)).waiting.tail := by
  intro p'
  have served : p'.OnCourse l sent counted := h.serve steady _
  have after := waiting_serve steady p (p.router.laneOf id) (p.router.laneOf id)
  have same : (p'.router.laneOf id).val = (p.router.laneOf id).val :=
    (served.val_laneOf id).trans (h.val_laneOf id).symm
  rw [getElem?_lane, Option.map_some, if_pos rfl, ← same] at after
  rw [show p.serve o.recorded (p.router.laneOf id) = p' from rfl, getElem?_lane, Option.map_some,
    Option.some_inj] at after
  exact after

/-- An item that finds an empty lane may be done at once. -/
theorem serve_appended (o : Outlets σ) (p : Plant σ) (item : Item)
    (empty : (p.router.lane (p.router.laneOf item.sensor)).waiting = []) :
    (p.appended item).serve o ((p.appended item).router.laneOf item.sensor) =
      p.work o (p.router.laneOf item.sensor) item [] := by
  have place : ((p.appended item).router.laneOf item.sensor).val =
      (p.router.laneOf item.sensor).val :=
    congrArg (item.sensor.shard <| · - 1) (size_setLane _ _ _)
  have lane : (p.appended item).router.lane ((p.appended item).router.laneOf item.sensor) =
      { p.router.lane (p.router.laneOf item.sensor) with waiting := [item] } := by
    refine (lane_setLane place).trans ?_
    rw [empty]
    rfl
  unfold Plant.serve
  split
  · rename_i none
    rw [lane] at none
    cases none
  · rename_i first rest front
    rw [lane] at front
    cases front
    unfold work
    rw [lane]
    exact congrArg (Plant.mk · _) (setLane_setLane place)

/-- An item that is sent is taken. -/
theorem OnCourse.send (h : p.OnCourse l sent counted) (steady : o.Steady)
    (taking : l.accepting = true) (item : Item) :
    (p.send o.recorded item).2 = true ∧
      (p.send o.recorded item).1.OnCourse l (sent ++ [item]) counted := by
  unfold Plant.send
  rw [h.enqueue taking]
  by_cases room : (p.router.lane (p.router.laneOf item.sensor)).waiting.length < l.capacity
  · rw [if_pos room]
    exact ⟨rfl, h.appended (Nat.lt_of_lt_of_le room (Nat.le_max_left _ _))⟩
  rw [if_neg room]
  dsimp only
  have bound := (h.queues _ _ (getElem?_lane p.router (p.router.laneOf item.sensor))).room
  have left := h.waiting_own steady item.sensor
  have served := h.serve steady (p.router.laneOf item.sensor)
  generalize p.serve o.recorded (p.router.laneOf item.sensor) = p' at left served ⊢
  have shorter := congrArg List.length left
  rw [List.length_tail] at shorter
  have fits :
      (p'.router.lane (p'.router.laneOf item.sensor)).waiting.length < max l.capacity 1 := by
    omega
  rw [served.enqueue taking]
  by_cases room' : (p'.router.lane (p'.router.laneOf item.sensor)).waiting.length < l.capacity
  · rw [if_pos room']
    exact ⟨rfl, served.appended fits⟩
  · -- The lane has no capacity at all, and is empty.
    rw [if_neg room']
    have empty : (p'.router.lane (p'.router.laneOf item.sensor)).waiting = [] := by
      rw [← List.length_eq_zero_iff]
      omega
    refine ⟨rfl, ?_⟩
    have done := (served.appended fits).serve steady ((p'.appended item).router.laneOf item.sensor)
    rwa [serve_appended o.recorded p' item empty] at done

/-! ## Any schedule -/

theorem OnCourse.tallied (h : p.OnCourse l sent counted) (change : Counters → Counters)
    (alike : ∀ c d tally, c.reading tally = d.reading tally →
      (change c).reading tally = (change d).reading tally) :
    (Pipeline.tallied p change).OnCourse l sent (change counted) :=
  ⟨h.size, h.capacity, h.queues, fun tally other still =>
    alike _ _ _ (h.counters tally other still)⟩

theorem OnCourse.count (h : p.OnCourse l sent counted) (n : Nat) (tally : Tally) :
    (Pipeline.tallied p (·.count n tally)).OnCourse l sent (counted.count n tally) := by
  apply h.tallied (·.count n tally)
  intro c d other same
  rw [Counters.reading_count, Counters.reading_count, same]

theorem OnCourse.gauge (h : p.OnCourse l sent counted) (step : Int) (gauge : Gauge) :
    (Pipeline.tallied p (·.move step gauge)).OnCourse l sent counted := by
  refine ⟨h.size, h.capacity, h.queues, fun tally other still => ?_⟩
  exact (Counters.reading_move _ _ _ _).trans (h.counters tally other still)

/-- What the receive path asks for is counted, and sent to its lane. -/
theorem OnCourse.effect (h : p.OnCourse l sent counted) (steady : o.Steady)
    (taking : l.accepting = true) (e : Intake.Effect) :
    (p.move o.recorded (.effect e)).OnCourse l (sent ++ (Item.of? e).toList)
      (Intake.Effect.applyTo counted e) := by
  have quiet (none : Item.of? e = none) : sent ++ (Item.of? e).toList = sent := by
    rw [none, Option.toList_none, List.append_nil]
  cases e with
  | count tally n =>
    rw [quiet rfl]
    exact h.count n tally
  | move gauge step =>
    rw [quiet rfl]
    refine ⟨h.size, h.capacity, h.queues, fun tally other still => ?_⟩
    rw [Intake.Effect.applyTo, Counters.reading_move]
    exact (h.gauge step gauge).counters tally other still
  | log event =>
    rw [quiet rfl]
    exact ⟨h.size, h.capacity, h.queues, h.counters⟩
  | forget id => exact (h.send steady taking (.forget id)).2
  | dispatch package =>
    obtain ⟨taken, sent⟩ :=
      ((h.count 1 .dispatched).gauge 1 .queued).send steady taking (.packet package)
    have all : p.move o.recorded (.effect (.dispatch package)) =
        ((Pipeline.tallied (Pipeline.tallied p (·.count 1 .dispatched)) (·.move 1 .queued)).send
          o.recorded (.packet package)).1 := if_pos taken
    rw [all]
    exact sent

/-- Whatever the moves, the lanes stay on course. -/
theorem OnCourse.play (h : p.OnCourse l sent counted) (steady : o.Steady)
    (taking : l.accepting = true) (moves : List Move) :
    (p.play o.recorded moves).OnCourse l
      (sent ++ (moves.filterMap Move.effect?).filterMap Item.of?)
      (Intake.Effect.applyAll counted (moves.filterMap Move.effect?)) := by
  induction moves generalizing p sent counted with
  | nil =>
    rw [List.filterMap_nil, List.filterMap_nil, List.append_nil]
    exact h
  | cons m moves ih =>
    cases m with
    | effect e =>
      have next := ih (h.effect steady taking e)
      have split : (e :: moves.filterMap Move.effect?).filterMap Item.of? =
          (Item.of? e).toList ++ (moves.filterMap Move.effect?).filterMap Item.of? := by
        rw [List.filterMap_cons]
        cases Item.of? e <;> rfl
      rw [List.append_assoc, ← split] at next
      exact next
    | serve lane =>
      refine ih ?_
      change (if here : lane < p.router.lanes.size then p.serve o.recorded ⟨lane, here⟩
        else p).OnCourse l sent counted
      split
      · exact h.serve steady _
      · exact h

/-! ## Doing each package at once -/

theorem size_serve (o : Outlets σ) (p : Plant σ) (i : Fin p.router.lanes.size) :
    (p.serve o i).router.lanes.size = p.router.lanes.size := by
  unfold Plant.serve
  split
  · rfl
  · exact size_setLane _ _ _

theorem serveMany_eq_play (o : Outlets σ) (p : Plant σ) (id : SensorId) (n : Nat) :
    p.serveMany o id n =
      p.play o (List.replicate n (.serve (id.shard (p.router.lanes.size - 1)))) := by
  induction n generalizing p with
  | zero => rfl
  | succ n ih =>
    have one : p.move o (.serve (id.shard (p.router.lanes.size - 1))) =
        p.serve o (p.router.laneOf id) := dif_pos (p.router.laneOf id).isLt
    rw [Plant.serveMany, ih, size_serve, ← one]
    rfl

/-- To do every package as soon as it is handed on is one of the schedules. -/
theorem exists_moves_perform (o : Outlets σ) (p : Plant σ) (effects : List Intake.Effect) :
    ∃ moves, moves.filterMap Move.effect? = effects ∧
      p.play o moves = Pipeline.perform o p effects := by
  induction effects generalizing p with
  | nil => exact ⟨[], rfl, rfl⟩
  | cons e effects ih =>
    obtain ⟨moves, rest, played⟩ := ih (Pipeline.performOne o p e)
    obtain ⟨n, lane, first⟩ : ∃ n lane, (p.move o (.effect e)).play o
        (List.replicate n (.serve lane)) = Pipeline.performOne o p e := by
      cases e with
      | count | move | log => exact ⟨0, 0, rfl⟩
      | dispatch package | forget id => exact ⟨_, _, (serveMany_eq_play o _ _ _).symm⟩
    have quiet : (List.replicate n (Move.serve lane)).filterMap Move.effect? = [] :=
      List.filterMap_replicate_of_none rfl
    refine ⟨.effect e :: (List.replicate n (.serve lane) ++ moves), ?_, ?_⟩
    · refine congrArg (e :: ·) ?_
      rw [List.filterMap_append, quiet, rest, List.nil_append]
    · rw [Plant.play, List.foldl_cons, List.foldl_append]
      exact (congrArg (Plant.play o · moves) first).trans played

/-! ## Closing -/

/-- What waits in a lane. -/
def waiting? (p : Plant σ) (lane : Nat) : Option (List Item) :=
  (p.router.lanes[lane]?).map (·.waiting)

theorem OnCourse.serveMany (h : p.OnCourse l sent counted) (steady : o.Steady) (id : SensorId)
    (n : Nat) :
    (p.serveMany o.recorded id n).OnCourse l sent counted ∧
      ∀ lane, (p.serveMany o.recorded id n).waiting? lane =
        (p.waiting? lane).map fun items => if l.laneOf id = lane then items.drop n else items := by
  induction n generalizing p with
  | zero =>
    refine ⟨h, fun lane => ?_⟩
    simp [Plant.serveMany]
  | succ n ih =>
    obtain ⟨after, left⟩ := ih (h.serve steady (p.router.laneOf id))
    refine ⟨after, fun lane => (left lane).trans ?_⟩
    have one := waiting_serve steady p (p.router.laneOf id) lane
    rw [h.val_laneOf] at one
    rw [waiting?, one, waiting?, Option.map_map, Option.map_map]
    refine congrArg (Option.map · _) (funext fun q => ?_)
    by_cases own : l.laneOf id = lane
    · simp [own]
    · simp [own]

theorem OnCourse.settle (h : p.OnCourse l sent counted) (steady : o.Steady) (id : SensorId) :
    (p.settle o.recorded id).OnCourse l sent counted ∧
      (p.settle o.recorded id).waiting? (l.laneOf id) = some [] ∧
      ∀ lane, p.waiting? lane = some [] → (p.settle o.recorded id).waiting? lane = some [] := by
  obtain ⟨after, left⟩ := h.serveMany steady id
    (p.router.lane (p.router.laneOf id)).waiting.length
  have own : p.waiting? (l.laneOf id) = some (p.router.lane (p.router.laneOf id)).waiting := by
    rw [waiting?, ← h.val_laneOf, getElem?_lane, Option.map_some]
  refine ⟨after, ?_, fun lane empty => ?_⟩
  · rw [Plant.settle, left, own]
    simp
  · rw [Plant.settle, left, empty]
    simp

/-- Draining lanes one after the other empties each of them. -/
theorem OnCourse.drainLanes (h : p.OnCourse l sent counted) (steady : o.Steady) (is : List Nat) :
    (is.foldl (fun p i => p.drainLane o.recorded i) p).OnCourse l sent counted ∧
      ∀ lane, p.waiting? lane = some [] ∨ (∃ i ∈ is, l.laneOf (.ofNat i) = lane) →
        (is.foldl (fun p i => p.drainLane o.recorded i) p).waiting? lane = some [] := by
  induction is generalizing p with
  | nil =>
    refine ⟨h, fun lane which => ?_⟩
    rcases which with empty | ⟨i, mem, -⟩
    · exact empty
    · cases mem
  | cons i is ih =>
    obtain ⟨settled, own, others⟩ := h.settle steady (.ofNat i)
    obtain ⟨after, empty⟩ := ih settled
    refine ⟨after, fun lane which => empty lane ?_⟩
    rcases which with empty | ⟨j, mem, same⟩
    · exact .inl (others lane empty)
    · rcases List.mem_cons.1 mem with rfl | mem
      · exact .inl (same ▸ own)
      · exact .inr ⟨j, mem, same⟩

/-- Closing the lanes does all that waits. -/
theorem OnCourse.close (h : p.OnCourse l sent counted) (steady : o.Steady) :
    (p.close o.recorded).OnCourse l.closed sent counted ∧
      ∀ id, (p.close o.recorded).waiting? (l.laneOf id) = some [] := by
  have closed : Plant.OnCourse l.closed sent counted { p with router := { p.router with
      lanes := p.router.lanes.map fun q => { q with accepting := false }
      lanes_pos := by rw [Array.size_map]; exact p.router.lanes_pos } } := by
    refine ⟨(Array.size_map ..).trans h.size, h.capacity, fun i q found => ?_, h.counters⟩
    rw [Array.getElem?_map, Option.map_eq_some_iff] at found
    obtain ⟨open_, found, rfl⟩ := found
    have before := h.queues i open_ found
    exact ⟨before.alive, rfl, before.room, before.done⟩
  obtain ⟨after, empty⟩ := closed.drainLanes steady (List.range (p.router.lanes.map _).size)
  refine ⟨after, fun id => empty _ (.inr ⟨l.laneOf id, ?_, ?_⟩)⟩
  · rw [List.mem_range, Array.size_map, ← h.val_laneOf]
    exact (p.router.laneOf id).isLt
  · -- The bits that choose the lane of a sensor choose the same lane on their own.
    have small : l.laneOf id < 281474976710656 := Nat.lt_of_le_of_lt Nat.and_le_left id.value_lt
    change (l.laneOf id % 281474976710656) &&& (l.lanes - 1) = l.laneOf id
    rw [Nat.mod_eq_of_lt small, Layout.laneOf, SensorId.shard, Nat.and_assoc, Nat.and_self]

/-- After the lanes are closed, what was delivered for a sensor and what is remembered of it are the
work of one worker that is given the items of this sensor alone. -/
theorem OnCourse.closed (h : p.OnCourse l sent counted) (steady : o.Steady) (id : SensorId) :
    let alone := l.fresh.handleAll (sent.filter (·.sensor = id))
    (p.close o.recorded).scene.outlets.2.filter (·.sensor = id) = Effect.deliveries alone.2 ∧
      (p.close o.recorded).router.placement? id = alone.1.placements[id]? := by
  obtain ⟨after, empty⟩ := h.close steady
  generalize p.close o.recorded = p' at after empty ⊢
  have found := getElem?_lane p'.router (p'.router.laneOf id)
  obtain ⟨done, split, worker, delivered⟩ := (after.queues _ _ found).done
  have left := empty id
  rw [waiting?, ← show _ = l.laneOf id from after.val_laneOf id, found, Option.map_some,
    Option.some_inj] at left
  rw [left, List.append_nil] at split
  rw [after.val_laneOf] at split delivered
  -- The lane holds all items of the sensor, and makes all deliveries for it.
  have items : done.filter (·.sensor = id) = sent.filter (·.sensor = id) := by
    rw [← split]
    exact l.filter_laneOf id Item.sensor sent
  obtain ⟨agree, own⟩ := (Worker.Agree.refl id l.fresh).handleAll done
  rw [items] at agree own
  refine ⟨?_, ?_⟩
  · rw [← own]
    exact (l.filter_laneOf id Delivery.sensor _).symm.trans (congrArg _ delivered)
  · rw [Router.placement?, worker]
    exact agree.placement

/-- Packages that can be placed are delivered whole and in order for each sensor, and counted as
placed only. -/
theorem OnCourse.closed_packets {ps : List Package}
    (h : p.OnCourse l (ps.map .packet) counted) (steady : o.Steady)
    (placeable : ∀ p ∈ ps, Placeable p) :
    let p' := p.close o.recorded
    (∀ id,
      (∀ sink, l.settings.aligned sink = true →
        Delivery.raws sink (p'.scene.outlets.2.filter (·.sensor = id)) =
          (ps.filter (·.sensor = id)).map (·.frame)) ∧
      (p'.router.placement? id).map (·.sequence) =
        (ps.filter (·.sensor = id)).getLast?.map (·.sequence)) ∧
      ∀ tally, tally ≠ .sinkErrors → (∀ kind, tally ≠ .adjusted kind) →
        p'.scene.counters.reading tally = counted.reading tally := by
  intro p'
  refine ⟨fun id => ?_, fun tally other unplaced => ?_⟩
  · let own := ps.filter (·.sensor = id)
    obtain ⟨deliveries, placement⟩ := h.closed steady id
    have items : (ps.map Item.packet).filter (·.sensor = id) = own.map .packet := List.filter_map
    have good : ∀ p ∈ own, Placeable p ∧ p.sensor = id := fun p mem =>
      (List.mem_filter.1 mem).imp (placeable p) of_decide_eq_true
    rw [deliveries, placement, items]
    refine ⟨fun sink aligned => ?_, Worker.placement_handleAll good (by simp [Layout.fresh])⟩
    exact Worker.raws_handleAll (fun p mem => (good p mem).1) aligned
  · refine (h.close steady).1.counters tally other fun item mem w found => ?_
    obtain ⟨package, own, rfl⟩ := List.mem_map.1 mem
    obtain ⟨kind, same⟩ := Worker.counts_handle (placeable package own) found
    exact unplaced kind same

/-! ## The whole life of lanes -/

theorem start_two_pow (k capacity : Nat) (settings : Settings) :
    ∃ router, Router.start (Nat.pow 2 k) capacity settings = .ok router := by
  have power : isPowerOfTwo (Nat.pow 2 k) = true := by
    simp [isPowerOfTwo, Nat.and_two_pow_sub_one_eq_mod]
  rw [Router.start, dif_pos power]
  exact ⟨_, rfl⟩

theorem onCourse_start {lanes capacity : Nat} {settings : Settings} {router : Router}
    (started : Router.start lanes capacity settings = .ok router) (outlets : σ) :
    Plant.OnCourse ⟨settings, lanes, capacity, true⟩ [] {}
      ⟨router, { outlets := (outlets, []) }⟩ := by
  unfold Router.start at started
  split at started
  · cases started
    refine ⟨Array.size_replicate, rfl, fun i q found => ?_, fun _ _ _ => rfl⟩
    rw [Array.getElem?_replicate] at found
    split at found
    · cases found
      exact ⟨rfl, rfl, Nat.zero_le _, [], rfl, rfl, rfl⟩
    · cases found
  · cases started

end Plant

end SensorIngest.Lane
