import Mathlib.Algebra.GroupWithZero.Nat
import Mathlib.Algebra.Ring.Int.Defs
import SensorIngest.Proofs.Lane.Schedule

/-!
# Lanes, callers and workers in any order

Several callers put items in the lanes while the workers serve these and somebody closes them one by
one. A `Turn` is what one of the parties does next, and a `Floor` is the lanes with the calls in
progress and a record of what became of the others. A caller that finds its lane full stays inside
it until there is room, and a lane does not close while somebody is inside.

Whatever the turns, each lane has done the first items that it took and the others wait
(`OnCourse`). So at any time what was done for a sensor, with what was delivered and published for
it, is the work of one worker that does these items of the sensor alone (`OnCourse.asAlone`).
-/

namespace SensorIngest.Lane

open scoped List

/-- Somebody wants an item in its lane. -/
structure Call where
  item : Item
  /-- The lane was open and full, and stays open until it has room. -/
  inside : Bool := false

/-- What happens next. A turn that is not possible changes nothing. -/
inductive Turn where
  /-- An item is dispatched, or is to be forgotten. -/
  | call (item : Item)
  /-- The call with this number, among those in progress, tries its lane. -/
  | enter (call : Nat)
  /-- The worker of a lane does the oldest item. -/
  | serve (lane : Nat)
  /-- A lane closes. -/
  | close (lane : Nat)

def Turn.isCall : Turn → Bool
  | call _ => true
  | _ => false

/-- Lanes with the calls in progress, and what became of the items. -/
structure Floor (σ : Type) where
  plant : Plant σ
  calls : List Call := []
  /-- All that was ever called for. -/
  called : List Item := []
  /-- What the lanes took, in order. -/
  taken : List Item := []
  /-- What closed lanes turned away. -/
  refused : List Item := []
  /-- What was done, in order, and what was then published of the sensor. -/
  done : List (Item × Option Placement) := []

variable {σ : Type}

def Item.isPacket : Item → Bool
  | packet _ => true
  | forget _ => false

/-- The packets among items. -/
def Item.packets (items : List Item) : Nat := items.countP isPacket

namespace Router

/-- The sum of something over all lanes. -/
def total (r : Router) (of : Queue → Nat) : Nat := (r.lanes.toList.map of).sum

/-- The packets in the lanes. -/
def packets (r : Router) : Nat := r.total fun q => Item.packets q.waiting

/-- The lane of a sensor takes items. -/
def isOpen (r : Router) (id : SensorId) : Bool := (r.lane (r.laneOf id)).accepting

end Router

namespace Plant

/-- A packet waits from when it is dispatched. -/
def announce (p : Plant σ) : Item → Plant σ
  | .packet _ => Pipeline.tallied p (·.move 1 .queued)
  | .forget _ => p

/-- A packet that was turned away is dropped. -/
def turnAway (p : Plant σ) : Item → Plant σ
  | .packet package =>
    let p := Pipeline.tallied p (·.move (-1) .queued)
    { p with scene := p.scene.report [.laneClosed package.sensor package.sequence] }
  | .forget _ => p

@[simp] theorem router_turnAway (p : Plant σ) (item : Item) :
    (p.turnAway item).router = p.router := by
  cases item <;> rfl

theorem queued_turnAway (p : Plant σ) (item : Item) :
    (p.turnAway item).scene.counters.queued =
      p.scene.counters.queued - (Item.packets [item] : Nat) := by
  cases item with
  | packet p => rfl
  | forget id => exact (Int.sub_zero _).symm

/-- Takes no more items in a lane. -/
def shut (p : Plant σ) (i : Fin p.router.lanes.size) : Plant σ :=
  { p with router := p.router.setLane i { p.router.lane i with accepting := false } }

end Plant

namespace Floor

/-- Lanes that nobody has used. -/
def opened (router : Router) (outlets : σ) : Floor (σ × List Delivery) where
  plant := ⟨router, { outlets := (outlets, []) }⟩

/-- Somebody is inside a lane. -/
def isBusy (f : Floor σ) (lane : Nat) : Bool :=
  f.calls.any fun c => c.inside && (f.plant.router.laneOf c.item.sensor).val = lane

/-- A call tries its lane. -/
def enter (f : Floor σ) (n : Nat) (c : Call) : Floor σ :=
  match f.plant.router.enqueue c.item with
  | none => { f with calls := f.calls.set n { c with inside := true } }
  | some (router, true) =>
    { f with
      plant := { f.plant with router }
      calls := f.calls.eraseIdx n
      taken := f.taken ++ [c.item] }
  | some (router, false) =>
    { f with
      plant := { f.plant with router }.turnAway c.item
      calls := f.calls.eraseIdx n
      refused := f.refused ++ [c.item] }

/-- A worker does an item. -/
def serve (o : Outlets σ) (f : Floor σ) (i : Fin f.plant.router.lanes.size) : Floor σ :=
  match (f.plant.router.lane i).waiting with
  | [] => f
  | item :: _ =>
    { f with
      plant := f.plant.serve o i
      done := f.done ++ [(item, (f.plant.serve o i).router.placement? item.sensor)] }

def turn (o : Outlets σ) (f : Floor σ) : Turn → Floor σ
  | .call item =>
    { f with
      plant := f.plant.announce item
      calls := f.calls ++ [{ item }]
      called := f.called ++ [item] }
  | .enter n =>
    match f.calls[n]? with
    | none => f
    | some c => f.enter n c
  | .serve lane => if h : lane < f.plant.router.lanes.size then f.serve o ⟨lane, h⟩ else f
  | .close lane =>
    if h : lane < f.plant.router.lanes.size then
      if f.isBusy lane then f else { f with plant := f.plant.shut ⟨lane, h⟩ }
    else f

def run (o : Outlets σ) (f : Floor σ) (turns : List Turn) : Floor σ := turns.foldl (turn o) f

/-- Nothing is left to do in any lane. -/
def Drained (f : Floor σ) : Prop := ∀ q ∈ f.plant.router.lanes.toList, q.waiting = []

/-- Every lane is closed, and nothing is left to do. -/
def Joined (f : Floor σ) : Prop :=
  ∀ q ∈ f.plant.router.lanes.toList, q.accepting = false ∧ q.waiting = []

end Floor

/-! ## The gauge -/

namespace Effect

/-- By how much effects change the number of packets that wait. -/
def queuedBy (effects : List Effect) : Int :=
  (effects.map fun | .move .queued step => step | _ => 0).sum

@[simp] theorem queuedBy_nil : queuedBy [] = 0 := rfl

@[simp] theorem queuedBy_append (first rest : List Effect) :
    queuedBy (first ++ rest) = queuedBy first + queuedBy rest := by
  simp [queuedBy]

@[simp] theorem queuedBy_count (tally : Tally) (rest : List Effect) :
    queuedBy (.count tally :: rest) = queuedBy rest := by simp [queuedBy]

@[simp] theorem queuedBy_log (event : Event) (rest : List Effect) :
    queuedBy (.log event :: rest) = queuedBy rest := by simp [queuedBy]

@[simp] theorem queuedBy_deliver (d : Delivery) (rest : List Effect) :
    queuedBy (.deliver d :: rest) = queuedBy rest := by simp [queuedBy]

@[simp] theorem queuedBy_queued (step : Int) (rest : List Effect) :
    queuedBy (.move .queued step :: rest) = step + queuedBy rest := by simp [queuedBy]

end Effect

namespace Worker

theorem queuedBy_process (w : Worker) (p : Package) : Effect.queuedBy (w.process p).2 = 0 := by
  have offer (d : Delivery) : Effect.queuedBy (w.offer d) = 0 := by
    unfold Worker.offer
    split <;> simp
  have early : Effect.queuedBy (w.early p) = 0 := by
    unfold Worker.early
    split <;> simp [offer]
  have late (frame : Frame) : Effect.queuedBy (w.late p.sensor frame) = 0 := by
    unfold Worker.late
    split <;> simp [offer]
  have skip (reason : Frame.Error) : Effect.queuedBy (Worker.skip p reason) = 0 := by
    unfold Worker.skip
    split <;> simp
  have place (span : Frame.Span) : Effect.queuedBy (w.place p span).2 = 0 := by
    simp only [Worker.place, Effect.queuedBy_count, Effect.queuedBy_append]
    split <;> split <;> simp
  unfold Worker.process
  split
  · simp [early]
  · split
    · simp [early, skip]
    · simp [early, place, late]

/-- A packet stops waiting when it is done. -/
theorem queuedBy_handle (w : Worker) (item : Item) :
    Effect.queuedBy (w.handle item).2 = -(Item.packets [item] : Nat) := by
  cases item with
  | packet p => simp [Worker.handle, queuedBy_process, Item.packets, Item.isPacket]
  | forget id => rfl

end Worker

theorem Counters.queued_count (c : Counters) (n : Nat) (tally : Tally) :
    (c.count n tally).queued = c.queued := by
  cases tally <;> rfl

theorem Scene.queued_perform {o : Outlets σ} (steady : o.Steady) {s : Scene (σ × List Delivery)}
    (alive : s.crashed = false) (effects : List Effect) :
    (s.perform o.recorded effects).counters.queued =
      s.counters.queued + Effect.queuedBy effects := by
  induction effects generalizing s with
  | nil => exact (Int.add_zero _).symm
  | cons e rest ih =>
    have one : (s.performOne o.recorded e).counters.queued =
        s.counters.queued + Effect.queuedBy [e] := by
      cases e with
      | count tally => exact (Counters.queued_count _ _ _).trans (Int.add_zero _).symm
      | move gauge step => cases gauge <;> simp [performOne, Counters.move, Effect.queuedBy]
      | log event => exact (Int.add_zero _).symm
      | deliver d =>
        rw [performOne, Scene.deliver]
        dsimp only [Outlets.recorded]
        split
        · exact (Int.add_zero _).symm
        · exact (Int.add_zero _).symm
        · exact (Counters.queued_count _ _ _).trans (Int.add_zero _).symm
    have still := (performOne_after steady alive e).alive
    rw [perform]
    simp only [still, Bool.false_eq_true, if_false]
    rw [ih still, one, ← List.singleton_append (l := rest), Effect.queuedBy_append, Int.add_assoc]

/-! ## Lanes -/

theorem Router.enqueue_cases (r : Router) (item : Item) :
    let i := r.laneOf item.sensor
    let q := r.lane i
    (q.accepting = true ∧ r.capacity ≤ q.waiting.length ∧ r.enqueue item = none) ∨
      (q.accepting = true ∧ q.waiting.length < r.capacity ∧
        r.enqueue item = some (r.setLane i { q with waiting := q.waiting ++ [item] }, true)) ∨
      ((q.accepting = true → q.dead = true) ∧ r.enqueue item = some (r, false)) := by
  intro i q
  by_cases turned : (!q.accepting || q.dead) = true
  · refine .inr (.inr ⟨fun accepting => ?_, if_pos turned⟩)
    simpa [accepting] using turned
  · have accepting : q.accepting = true := by simp_all
    by_cases room : q.waiting.length < r.capacity
    · exact .inr (.inl ⟨accepting, room, (if_neg turned).trans (if_pos room)⟩)
    · exact .inl ⟨accepting, Nat.le_of_not_lt room, (if_neg turned).trans (if_neg room)⟩

/-- The lane of a sensor after a lane was replaced. -/
theorem Router.lane_laneOf_setLane (r : Router) (i : Fin r.lanes.size) (q : Queue)
    (id : SensorId) :
    (r.setLane i q).lane ((r.setLane i q).laneOf id) =
      if i.val = (r.laneOf id).val then q else r.lane (r.laneOf id) := by
  have same : ((r.setLane i q).laneOf id).val = (r.laneOf id).val :=
    congrArg (id.shard <| · - 1) (Plant.size_setLane r i q)
  rcases Plant.getElem?_setLane (Plant.getElem?_lane _ ((r.setLane i q).laneOf id)) with
    ⟨own, eq⟩ | ⟨other, found⟩
  · rw [eq, if_pos (own.trans same)]
  · rw [same] at other found
    rw [if_neg other]
    exact Option.some.inj (found.symm.trans (Plant.getElem?_lane r (r.laneOf id)))

/-- Only a lane that is closed or opened changes what takes items. -/
theorem Router.isOpen_setLane (r : Router) (i : Fin r.lanes.size) (q : Queue) (id : SensorId) :
    (r.setLane i q).isOpen id =
      if i.val = (r.laneOf id).val then q.accepting else r.isOpen id := by
  rw [isOpen, lane_laneOf_setLane]
  split <;> rfl

theorem Router.isOpen_setLane_of_eq {r : Router} {i : Fin r.lanes.size} {q : Queue}
    (same : q.accepting = (r.lane i).accepting) (id : SensorId) :
    (r.setLane i q).isOpen id = r.isOpen id := by
  rw [isOpen_setLane]
  split
  · rename_i own
    rw [same, isOpen, Fin.ext own]
  · rfl

theorem Router.total_setLane (r : Router) (i : Fin r.lanes.size) (q : Queue)
    (of : Queue → Nat) :
    (r.setLane i q).total of + of (r.lane i) = r.total of + of q := by
  have lt : i.val < r.lanes.toList.length := by simp
  have old := ((List.getElem_cons_eraseIdx_perm lt).map of).sum_nat
  have new := ((List.set_perm_cons_eraseIdx lt q).map of).sum_nat
  rw [List.map_cons, List.sum_cons] at old new
  rw [total, setLane, Array.toList_set, new, total, ← old]
  change _ + of r.lanes[i.val] = _
  rw [Array.getElem_toList]
  omega

namespace Floor

/-! ## What is done in each lane -/

/-- Each lane has done the first items that it took, as a worker does them that has nothing else to
do, and the others wait. -/
structure OnCourse (l : Layout) (f : Floor (σ × List Delivery)) : Prop where
  size : f.plant.router.lanes.size = l.lanes
  capacity : f.plant.router.capacity = l.capacity
  lanes : ∀ (i : Nat) (q : Queue), f.plant.router.lanes[i]? = some q →
    q.OnCourse { l with accepting := q.accepting } i f.taken f.plant.scene.outlets.2
  done : ∀ (i : Nat) (q : Queue), f.plant.router.lanes[i]? = some q →
    ∃ items, f.taken.filter (l.laneOf ·.sensor = i) = items ++ q.waiting ∧
      f.done.filter (l.laneOf ·.1.sensor = i) = l.fresh.results items

variable {l : Layout} {f : Floor (σ × List Delivery)} {o : Outlets σ}

theorem turn_enter (o : Outlets σ) {f : Floor σ} {n : Nat} {c : Call}
    (found : f.calls[n]? = some c) : f.turn o (.enter n) = f.enter n c := by
  simp only [Floor.turn, found]

theorem turn_serve (o : Outlets σ) (f : Floor σ) (i : Fin f.plant.router.lanes.size) :
    f.turn o (.serve i) = f.serve o i := dif_pos i.isLt

theorem turn_close (o : Outlets σ) {f : Floor σ} {i : Fin f.plant.router.lanes.size}
    (free : f.isBusy i = false) : f.turn o (.close i) = { f with plant := f.plant.shut i } :=
  (dif_pos i.isLt).trans (if_neg (Bool.eq_false_iff.1 free))

/-- A turn that is possible is a call, or makes a call go on, an item be done or a lane close. -/
theorem turn_cases {P : Floor σ → Prop} {o : Outlets σ} {f : Floor σ} (idle : P f)
    (call : ∀ item, P (f.turn o (.call item)))
    (enter : ∀ n c, f.calls[n]? = some c → P (f.enter n c))
    (serve : ∀ i, P (f.serve o i))
    (shut : ∀ i : Fin f.plant.router.lanes.size, f.isBusy i = false →
      P { f with plant := f.plant.shut i }) (t : Turn) : P (f.turn o t) := by
  cases t with
  | call item => exact call item
  | enter n =>
    simp only [turn]
    split
    · exact idle
    · exact enter n _ (by assumption)
  | serve lane =>
    simp only [turn]
    split
    · exact serve _
    · exact idle
  | close lane =>
    simp only [turn]
    split
    · split
      · exact idle
      · exact shut ⟨lane, _⟩ (Bool.eq_false_iff.2 (by assumption))
    · exact idle

/-- A worker has nothing to do, or does the oldest item of its lane. -/
theorem serve_cases (steady : o.Steady) (f : Floor (σ × List Delivery))
    (i : Fin f.plant.router.lanes.size) :
    let q := f.plant.router.lane i
    (q.waiting = [] ∧ f.serve o.recorded i = f) ∨
      ∃ item rest scene, q.waiting = item :: rest ∧
        let handled := q.worker.handle item
        let router := f.plant.router.setLane i { q with worker := handled.1, waiting := rest }
        f.plant.scene.After (Effect.deliveries handled.2) (.count · ∉ handled.2) scene ∧
          scene.counters.queued =
            f.plant.scene.counters.queued - (Item.packets [item] : Nat) ∧
          f.serve o.recorded i = { f with
            plant := ⟨router, scene⟩
            done := f.done ++ [(item, router.placement? item.sensor)] } := by
  intro q
  unfold Floor.serve
  split
  · rename_i empty
    exact .inl ⟨empty, rfl⟩
  · rename_i item rest front
    have served : f.plant.serve o.recorded i = f.plant.work o.recorded i item rest := by
      unfold Plant.serve
      rw [front]
    obtain ⟨after, router⟩ := Plant.work_eq steady f.plant i item rest
    have queued := Scene.queued_perform (s := { f.plant.scene with crashed := false }) steady rfl
      (q.worker.handle item).2
    rw [Worker.queuedBy_handle] at queued
    refine .inr ⟨item, rest, (f.plant.work o.recorded i item rest).scene, front, after, queued, ?_⟩
    rw [served, router]
    rw [← router]

namespace OnCourse

theorem val_laneOf (h : f.OnCourse l) (id : SensorId) :
    (f.plant.router.laneOf id).val = l.laneOf id := by
  rw [Layout.laneOf, ← h.size]
  rfl

/-- The worker of a lane is as it is after the items that were done. -/
theorem worker (h : f.OnCourse l) {i : Nat} {q : Queue} (found : f.plant.router.lanes[i]? = some q) :
    ∃ items, f.taken.filter (l.laneOf ·.sensor = i) = items ++ q.waiting ∧
      f.done.filter (l.laneOf ·.1.sensor = i) = l.fresh.results items ∧
      q.worker = (l.fresh.handleAll items).1 ∧
      f.plant.scene.outlets.2.filter (l.laneOf ·.sensor = i) =
        Effect.deliveries (l.fresh.handleAll items).2 := by
  obtain ⟨items, taken, done⟩ := h.done i q found
  obtain ⟨items', taken', worker, delivered⟩ := (h.lanes i q found).done
  cases List.append_cancel_right (taken.symm.trans taken')
  exact ⟨items, taken, done, worker, delivered⟩

/-- Only what is in the lanes, was taken, delivered and done matters. -/
theorem of_eq (h : f.OnCourse l) {g : Floor (σ × List Delivery)}
    (router : g.plant.router = f.plant.router)
    (outlets : g.plant.scene.outlets = f.plant.scene.outlets) (taken : g.taken = f.taken)
    (done : g.done = f.done) : g.OnCourse l := by
  refine ⟨router ▸ h.size, router ▸ h.capacity, ?_, ?_⟩
  · rw [router, outlets, taken]
    exact h.lanes
  · rw [router, taken, done]
    exact h.done

theorem call (h : f.OnCourse l) (item : Item) : (f.turn o.recorded (.call item)).OnCourse l := by
  cases item with
  | packet | forget => exact h.of_eq rfl rfl rfl rfl

theorem take (h : f.OnCourse l) (item : Item) (calls : List Call) :
    let r := f.plant.router
    let q := r.lane (r.laneOf item.sensor)
    q.waiting.length < r.capacity →
    OnCourse l { f with
      plant := { f.plant with
        router := r.setLane (r.laneOf item.sensor) { q with waiting := q.waiting ++ [item] } }
      calls
      taken := f.taken ++ [item] } := by
  intro r q room
  have place := h.val_laneOf item.sensor
  refine ⟨(Plant.size_setLane _ _ _).trans h.size, h.capacity, fun j q' found => ?_,
    fun j q' found => ?_⟩
  · rcases Plant.getElem?_setLane found with ⟨rfl, rfl⟩ | ⟨other, found⟩
    · refine (h.lanes _ _ (Plant.getElem?_lane r _)).append place.symm ?_
      exact Nat.lt_of_lt_of_le (h.capacity ▸ room) (Nat.le_max_left _ _)
    · exact (h.lanes j q' found).append_other (place ▸ other)
  · rw [List.filter_append]
    rcases Plant.getElem?_setLane found with ⟨rfl, rfl⟩ | ⟨other, found⟩
    · obtain ⟨items, taken, done⟩ := h.done _ _ (Plant.getElem?_lane r (r.laneOf item.sensor))
      refine ⟨items, ?_, done⟩
      rw [taken, List.append_assoc]
      simp [r, place, q]
    · obtain ⟨items, taken, done⟩ := h.done j q' found
      refine ⟨items, ?_, done⟩
      rw [taken]
      simp [← place, r, other]

theorem enter (h : f.OnCourse l) (n : Nat) (c : Call) :
    (f.enter n c).OnCourse l := by
  unfold Floor.enter
  rcases f.plant.router.enqueue_cases c.item with
    ⟨-, -, eq⟩ | ⟨-, room, eq⟩ | ⟨-, eq⟩ <;> rw [eq]
  · exact h.of_eq rfl rfl rfl rfl
  · exact h.take c.item _ room
  · cases c with
    | mk item inside =>
      cases item with
      | packet | forget => exact h.of_eq rfl rfl rfl rfl

theorem serve (h : f.OnCourse l) (steady : o.Steady) (i : Fin f.plant.router.lanes.size) :
    (f.serve o.recorded i).OnCourse l := by
  rcases f.serve_cases steady i with ⟨-, eq⟩ | ⟨item, rest, scene, front, after, -, eq⟩ <;> rw [eq]
  · exact h
  have own := h.lanes i _ (Plant.getElem?_lane _ i)
  have here : l.laneOf item.sensor = i := (own.mem_sent (front ▸ List.mem_cons_self)).2
  have place : i.val = (f.plant.router.laneOf item.sensor).val :=
    here.symm.trans (h.val_laneOf item.sensor).symm
  refine ⟨(Plant.size_setLane _ _ _).trans h.size, h.capacity, fun j q found => ?_,
    fun j q found => ?_⟩
  · rw [after.journal]
    rcases Plant.getElem?_setLane found with ⟨rfl, rfl⟩ | ⟨other, found⟩
    · exact own.work front
    · refine (h.lanes j q found).of_other fun d mem same => other ?_
      rw [Worker.sensor_of_mem_handle mem] at same
      exact here.symm.trans same
  · rw [Router.placement?, Router.lane_laneOf_setLane, if_pos place, List.filter_append]
    rcases Plant.getElem?_setLane found with ⟨rfl, rfl⟩ | ⟨other, found⟩
    · obtain ⟨items, taken, done, worker, -⟩ := h.worker (Plant.getElem?_lane _ i)
      refine ⟨items ++ [item], ?_, ?_⟩
      · rw [taken, front, List.append_assoc]
        rfl
      · rw [Worker.results_append_singleton, done, ← worker]
        simp [here]
    · obtain ⟨items, taken, done⟩ := h.done j q found
      refine ⟨items, taken, ?_⟩
      simp [done, here, other]

theorem shut (h : f.OnCourse l) (i : Fin f.plant.router.lanes.size) :
    OnCourse l { f with plant := f.plant.shut i } := by
  have own := Plant.getElem?_lane f.plant.router i
  refine ⟨(Plant.size_setLane _ _ _).trans h.size, h.capacity, fun j q found => ?_,
    fun j q found => ?_⟩
  · rcases Plant.getElem?_setLane found with ⟨rfl, rfl⟩ | ⟨other, found⟩
    · have before := h.lanes _ _ own
      exact ⟨before.alive, rfl, before.room, before.done⟩
    · exact h.lanes j q found
  · rcases Plant.getElem?_setLane found with ⟨rfl, rfl⟩ | ⟨other, found⟩
    · obtain ⟨items, taken, done⟩ := h.done _ _ own
      exact ⟨items, taken, done⟩
    · exact h.done j q found

theorem turn (h : f.OnCourse l) (steady : o.Steady) (t : Turn) :
    (f.turn o.recorded t).OnCourse l :=
  turn_cases h h.call (fun n c _ => h.enter n c) (h.serve steady) (fun i _ => h.shut i) t

end OnCourse

/-! ## Each sensor for itself -/

/-- What was taken for a sensor, in order. -/
def enqueued (f : Floor σ) (id : SensorId) : List Item := f.taken.filter (·.sensor = id)

/-- What was done for a sensor, in order. -/
def handled (f : Floor σ) (id : SensorId) : List Item :=
  (f.done.map Prod.fst).filter (·.sensor = id)

/-- All that was done for a sensor is the work of one worker that does these items, each of them
once, and nothing else. -/
structure AsAlone (settings : Settings) (id : SensorId) (items : List Item)
    (f : Floor (σ × List Delivery)) : Prop where
  results : f.done.filter (·.1.sensor = id) = Worker.results { settings } items
  deliveries : f.plant.scene.outlets.2.filter (·.sensor = id) =
    Effect.deliveries (Worker.handleAll { settings } items).2
  placement : f.plant.router.placement? id =
    (Worker.handleAll { settings } items).1.placements[id]?

/-- The lane of a sensor and a worker that does the same items of the sensor alone. -/
theorem OnCourse.lone (h : f.OnCourse l) (id : SensorId) :
    let q := f.plant.router.lane (f.plant.router.laneOf id)
    let lone := l.fresh.handleAll (f.handled id)
    f.enqueued id = f.handled id ++ q.waiting.filter (·.sensor = id) ∧
      f.done.filter (·.1.sensor = id) = l.fresh.results (f.handled id) ∧
      Worker.Agree id q.worker lone.1 ∧
      f.plant.scene.outlets.2.filter (·.sensor = id) = Effect.deliveries lone.2 := by
  have found := Plant.getElem?_lane f.plant.router (f.plant.router.laneOf id)
  obtain ⟨items, taken, done, worker, delivered⟩ := h.worker found
  rw [h.val_laneOf] at taken done delivered
  have results : f.done.filter (·.1.sensor = id) =
      l.fresh.results (items.filter (·.sensor = id)) := by
    rw [← l.filter_laneOf id (fun x : Item × Option Placement => x.1.sensor), done]
    exact (Worker.Agree.refl id l.fresh).results items
  have handled : f.handled id = items.filter (·.sensor = id) := by
    rw [Floor.handled, List.filter_map]
    exact (congrArg (List.map Prod.fst) results).trans (Worker.map_fst_results _ _)
  obtain ⟨agree, own⟩ := (Worker.Agree.refl id l.fresh).handleAll items
  rw [handled]
  refine ⟨?_, results, worker ▸ agree, ?_⟩
  · rw [← List.filter_append, ← taken]
    exact (l.filter_laneOf id Item.sensor _).symm
  · rw [← l.filter_laneOf id Delivery.sensor, delivered]
    exact own

/-- Once nothing waits, all that was taken has been done. -/
theorem OnCourse.handled_of_drained (h : f.OnCourse l) (drained : f.Drained) (id : SensorId) :
    f.handled id = f.enqueued id := by
  have found := Plant.getElem?_lane f.plant.router (f.plant.router.laneOf id)
  have empty := drained _ (by simpa using Array.mem_of_getElem? found)
  rw [(h.lone id).1, empty]
  exact (List.append_nil _).symm

theorem OnCourse.asAlone (h : f.OnCourse l) (id : SensorId) :
    f.handled id <+: f.enqueued id ∧ (f.Joined → f.handled id = f.enqueued id) ∧
      f.AsAlone l.settings id (f.handled id) := by
  obtain ⟨enqueued, results, agree, delivered⟩ := h.lone id
  refine ⟨enqueued ▸ List.prefix_append _ _, fun joined => ?_, results, delivered, agree.placement⟩
  exact h.handled_of_drained (fun q mem => (joined q mem).2) id

end Floor

end SensorIngest.Lane
