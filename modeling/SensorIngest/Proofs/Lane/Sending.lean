import SensorIngest.Proofs.Lane.Closing

/-!
# Sending and closing as turns

`Plant.send` and `Plant.close` are schedules of their own: whoever sends an item serves the lane
itself while that is full, and whoever closes the plant does all that waits. Each of them does what a
floor does in some turns (`Sound.exists_turns_dispatch`, `exists_turns_close`), so what holds of a
floor after any turns holds of them. Lanes whose workers keep up take any items in any order
(`Sound.exists_turns_taken`).
-/

namespace SensorIngest.Lane

namespace Floor

variable {σ : Type} {l : Layout} {f : Floor (σ × List Delivery)} {o : Outlets σ}

theorem plant_serve (o : Outlets σ) (f : Floor σ) (i : Fin f.plant.router.lanes.size) :
    (f.serve o i).plant = f.plant.serve o i ∧ (f.serve o i).calls = f.calls := by
  unfold Floor.serve
  split
  · rename_i empty
    refine ⟨?_, rfl⟩
    unfold Plant.serve
    rw [empty]
  · exact ⟨rfl, rfl⟩

@[simp] theorem router_announce (p : Plant σ) (item : Item) :
    (p.announce item).router = p.router := by
  cases item <;> rfl

/-- A call that does not find its lane full ends as `Plant.send` does. -/
theorem enter_of_some {n : Nat} {c : Call} {router : Router} {taken : Bool}
    (answer : f.plant.router.enqueue c.item = some (router, taken)) :
    (f.enter n c).calls = f.calls.eraseIdx n ∧
      (f.enter n c).plant = if taken then { f.plant with router }
        else { f.plant with router }.turnAway c.item := by
  unfold Floor.enter
  rw [answer]
  cases taken <;> exact ⟨rfl, rfl⟩

/-- A lane that has just been served has room. -/
theorem OnCourse.room_of_serve (h : f.OnCourse l) (steady : o.Steady) (positive : 0 < l.capacity)
    (id : SensorId) :
    let p := f.plant.serve o.recorded (f.plant.router.laneOf id)
    (p.router.lane (p.router.laneOf id)).waiting.length < p.router.capacity := by
  have room := (h.lanes _ _ (Plant.getElem?_lane f.plant.router (f.plant.router.laneOf id))).room
  rw [Nat.max_eq_left positive] at room
  rw [← (plant_serve o.recorded f (f.plant.router.laneOf id)).1]
  dsimp only
  rcases f.serve_cases steady (f.plant.router.laneOf id) with
    ⟨empty, eq⟩ | ⟨item, rest, scene, front, -, -, eq⟩ <;> rw [eq]
  · rw [empty, h.capacity]
    exact positive
  · rw [front] at room
    dsimp only
    rw [Router.lane_laneOf_setLane, if_pos rfl]
    exact Nat.lt_of_lt_of_eq room h.capacity.symm

/-- Whoever has served the lane itself is not put off again. -/
theorem OnCourse.enqueue_served (h : f.OnCourse l) (steady : o.Steady) (positive : 0 < l.capacity)
    (item : Item) :
    ∃ router taken, (f.plant.serve o.recorded
      (f.plant.router.laneOf item.sensor)).router.enqueue item = some (router, taken) := by
  have room := h.room_of_serve steady positive item.sensor
  rcases (f.plant.serve o.recorded (f.plant.router.laneOf item.sensor)).router.enqueue_cases item
    with ⟨-, full, -⟩ | ⟨-, -, eq⟩ | ⟨-, eq⟩
  · exact absurd room (Nat.not_lt.2 full)
  · exact ⟨_, _, eq⟩
  · exact ⟨_, _, eq⟩

/-- To send an item is a call with the turns that it takes. -/
theorem Sound.exists_turns_send (h : f.Sound l) (steady : o.Steady) (positive : 0 < l.capacity)
    (idle : f.calls = []) (item : Item) :
    ∃ turns : List Turn, (∀ t ∈ turns, t.isCall = false) ∧
      let g := f.run o.recorded (.call item :: turns)
      let sent := (f.plant.announce item).send o.recorded item
      g.calls = [] ∧ g.plant = if sent.2 then sent.1 else sent.1.turnAway item := by
  let called := f.turn o.recorded (.call item)
  have calls : called.calls = [⟨item, false⟩] := by
    change f.calls ++ [_] = _
    rw [idle]
    rfl
  have plant : called.plant = f.plant.announce item := rfl
  rw [← plant]
  unfold Plant.send
  cases answer : called.plant.router.enqueue item with
  | some found =>
    obtain ⟨router, taken⟩ := found
    refine ⟨[.enter 0], by simp [Turn.isCall], ?_⟩
    have entered : f.run o.recorded [.call item, .enter 0] = called.enter 0 ⟨item, false⟩ :=
      turn_enter o.recorded (by rw [calls]; rfl)
    obtain ⟨left, same⟩ := enter_of_some (n := 0) (c := ⟨item, false⟩) answer
    dsimp only
    rw [entered, left, calls, same]
    exact ⟨rfl, rfl⟩
  | none =>
    -- The call goes inside, the worker makes room, and the call is let in.
    let waits : Floor (σ × List Delivery) := { called with calls := [⟨item, true⟩] }
    let i := waits.plant.router.laneOf item.sensor
    have inside : called.enter 0 ⟨item, false⟩ = waits := by
      unfold Floor.enter
      rw [answer, calls]
      rfl
    have entered : f.run o.recorded [.call item, .enter 0] = waits :=
      (turn_enter o.recorded (by rw [calls]; rfl)).trans inside
    have served : f.run o.recorded [.call item, .enter 0, .serve i] = waits.serve o.recorded i :=
      (congrArg (Floor.turn o.recorded · (.serve i)) entered).trans (turn_serve ..)
    obtain ⟨plant, callers⟩ := plant_serve o.recorded waits i
    obtain ⟨router, taken, again⟩ :=
      (entered ▸ (h.run steady [.call item, .enter 0]).course).enqueue_served steady positive item
    refine ⟨[.enter 0, .serve i, .enter 0], by simp [Turn.isCall], ?_⟩
    have last : f.run o.recorded [.call item, .enter 0, .serve i, .enter 0] =
        (waits.serve o.recorded i).enter 0 ⟨item, true⟩ :=
      (congrArg (Floor.turn o.recorded · (.enter 0)) served).trans
        (turn_enter o.recorded (by rw [callers]; rfl))
    obtain ⟨left, same⟩ := enter_of_some (f := waits.serve o.recorded i) (n := 0)
      (c := ⟨item, true⟩) (by rw [plant]; exact again)
    dsimp only
    rw [last, left, callers, same, plant]
    rw [show (called.plant.serve o.recorded
      (called.plant.router.laneOf item.sensor)).router.enqueue item = _ from again]
    exact ⟨rfl, rfl⟩

/-- To dispatch a package, or to have a sensor forgotten, is one of the ways in which a call can
go. -/
theorem Sound.exists_turns_dispatch (h : f.Sound l) (steady : o.Steady)
    (positive : 0 < l.capacity) (idle : f.calls = []) (item : Item) :
    ∃ turns : List Turn, (∀ t ∈ turns, t.isCall = false) ∧
      let g := f.run o.recorded (.call item :: turns)
      g.calls = [] ∧ g.plant = match item with
        | .packet package => f.plant.dispatch o.recorded package
        | .forget id => f.plant.forget o.recorded id := by
  obtain ⟨turns, others, idle', plant⟩ := h.exists_turns_send steady positive idle item
  refine ⟨turns, others, idle', plant.trans ?_⟩
  cases item with
  | packet package => rfl
  | forget id =>
    exact ite_self _

theorem run_append (o : Outlets σ) (f : Floor σ) (turns more : List Turn) :
    f.run o (turns ++ more) = (f.run o turns).run o more := List.foldl_append

/-- The same plant, with the first `n` lanes closed. -/
structure ShutBelow (n : Nat) (p q : Plant σ) : Prop where
  scene : q.scene = p.scene
  capacity : q.router.capacity = p.router.capacity
  lanes : ∀ j : Nat, q.router.lanes[j]? = (p.router.lanes[j]?).map fun lane =>
    if j < n then { lane with accepting := false } else lane

/-- The next lane is closed, unless there is none. -/
theorem ShutBelow.turn {n : Nat} {p : Plant σ} {g : Floor σ} (h : ShutBelow n p g.plant)
    (o : Outlets σ) (idle : g.isBusy n = false) :
    (g.turn o (.close n)).calls = g.calls ∧ ShutBelow (n + 1) p (g.turn o (.close n)).plant := by
  by_cases here : n < g.plant.router.lanes.size
  · rw [show g.turn o (.close n) = _ from turn_close (i := ⟨n, here⟩) o idle]
    refine ⟨rfl, h.scene, h.capacity, fun j => ?_⟩
    simp only [Plant.shut, Router.setLane, Array.getElem?_set]
    split
    · rename_i same
      subst same
      have own := h.lanes n
      simp only [Nat.lt_irrefl, if_false, Option.map_id'] at own
      rw [← own, Array.getElem?_eq_getElem here]
      simp [Router.lane]
    · rename_i other
      have same : j < n ↔ j < n + 1 := by omega
      simp only [h.lanes j, same]
  · rw [show g.turn o (.close n) = g from dif_neg here]
    refine ⟨rfl, h.scene, h.capacity, fun j => ?_⟩
    rw [h.lanes j]
    cases found : p.router.lanes[j]? with
    | none => rfl
    | some q =>
      have lane := h.lanes j
      rw [found, Option.map_some] at lane
      have lt := (Array.getElem?_eq_some_iff.1 lane).1
      have same : j < n ↔ j < n + 1 := by omega
      simp only [same]

/-- When nobody is inside a lane, all lanes can be closed one after the other. -/
theorem run_close (o : Outlets σ) (f : Floor σ) (free : ∀ c ∈ f.calls, c.inside = false) (n : Nat) :
    (f.run o ((List.range n).map .close)).calls = f.calls ∧
      ShutBelow n f.plant (f.run o ((List.range n).map .close)).plant := by
  induction n with
  | zero => exact ⟨rfl, rfl, rfl, fun j => by simp [Floor.run]⟩
  | succ n ih =>
    rw [List.range_succ, List.map_append, run_append]
    obtain ⟨calls, before⟩ := ih
    have idle : (f.run o ((List.range n).map .close)).isBusy n = false := by
      rw [isBusy, List.any_eq_false, calls]
      intro c mem
      simp [free c mem]
    obtain ⟨same, next⟩ := before.turn o idle
    exact ⟨same.trans calls, next⟩

theorem run_serve (o : Outlets σ) (f : Floor σ) (id : SensorId) (n : Nat) :
    (f.run o (List.replicate n (.serve (id.shard (f.plant.router.lanes.size - 1))))).plant =
      f.plant.serveMany o id n := by
  induction n generalizing f with
  | zero => rfl
  | succ n ih =>
    have plant := (plant_serve o f (f.plant.router.laneOf id)).1
    have more := ih (f.serve o (f.plant.router.laneOf id))
    rw [plant, Plant.size_serve] at more
    rw [Plant.serveMany, ← more, ← turn_serve o f]
    rfl

/-- To drain lanes is a number of turns of their workers. -/
theorem exists_turns_drain (o : Outlets σ) (f : Floor σ) (is : List Nat) :
    ∃ turns : List Turn, (∀ t ∈ turns, t.isCall = false) ∧
      (f.run o turns).plant = is.foldl (fun p i => p.drainLane o i) f.plant := by
  induction is generalizing f with
  | nil => exact ⟨[], nofun, rfl⟩
  | cons i is ih =>
    let first : List Turn := List.replicate
      (f.plant.router.lane (f.plant.router.laneOf (.ofNat i))).waiting.length
      (.serve ((SensorId.ofNat i).shard (f.plant.router.lanes.size - 1)))
    have drained : (f.run o first).plant = f.plant.drainLane o i := run_serve o f (.ofNat i) _
    obtain ⟨turns, others, rest⟩ := ih (f.run o first)
    refine ⟨first ++ turns, ?_, ?_⟩
    · intro t mem
      rcases List.mem_append.1 mem with mem | mem
      · rw [(List.mem_replicate.1 mem).2]
        rfl
      · exact others t mem
    · rw [run_append, rest, drained]
      rfl

/-- To close the plant is one of the ways in which its lanes can be closed and come to an end. -/
theorem exists_turns_close (o : Outlets σ) (f : Floor σ) (free : ∀ c ∈ f.calls, c.inside = false) :
    ∃ turns : List Turn, (∀ t ∈ turns, t.isCall = false) ∧
      (f.run o turns).plant = f.plant.close o := by
  obtain ⟨-, closed⟩ := run_close o f free f.plant.router.lanes.size
  have lanes : (f.run o ((List.range f.plant.router.lanes.size).map .close)).plant.router.lanes =
      f.plant.router.lanes.map fun q => { q with accepting := false } := by
    refine Array.ext_getElem? fun j => ?_
    rw [closed.lanes, Array.getElem?_map]
    cases found : f.plant.router.lanes[j]? with
    | none => rfl
    | some q => simp [(Array.getElem?_eq_some_iff.1 found).1]
  obtain ⟨turns, others, drained⟩ := exists_turns_drain o
    (f.run o ((List.range f.plant.router.lanes.size).map .close))
    (List.range f.plant.router.lanes.size)
  refine ⟨(List.range f.plant.router.lanes.size).map .close ++ turns, ?_, ?_⟩
  · intro t mem
    rcases List.mem_append.1 mem with mem | mem
    · obtain ⟨lane, -, rfl⟩ := List.mem_map.1 mem
      rfl
    · exact others t mem
  · rw [run_append, drained, Plant.close, Array.size_map]
    congr 1
    generalize (f.run o ((List.range f.plant.router.lanes.size).map .close)).plant = p at closed lanes
    obtain ⟨⟨capacity, lanes', pos⟩, scene⟩ := p
    cases lanes
    cases closed.scene
    cases closed.capacity
    rfl

/-! ## Lanes that keep up -/

/-- The lanes are open and have nothing to do. -/
def Idle (f : Floor σ) : Prop :=
  ∀ (i : Nat) (q : Queue), f.plant.router.lanes[i]? = some q → q.accepting = true ∧ q.waiting = []

theorem Idle.drained (h : f.Idle) : f.Drained := by
  intro q mem
  obtain ⟨i, found⟩ := List.getElem?_of_mem mem
  exact (h i q (by simpa using found)).2

/-- A call finds room in an empty lane. -/
theorem OnCourse.enter_idle (h : f.OnCourse l) (positive : 0 < l.capacity) (idle : f.Idle) (n : Nat)
    (c : Call) :
    let r := f.plant.router
    f.enter n c = { f with
      plant := { f.plant with
        router := r.setLane (r.laneOf c.item.sensor)
          { r.lane (r.laneOf c.item.sensor) with waiting := [c.item] } }
      calls := f.calls.eraseIdx n
      taken := f.taken ++ [c.item] } := by
  have own := Plant.getElem?_lane f.plant.router (f.plant.router.laneOf c.item.sensor)
  obtain ⟨accepting, empty⟩ := idle _ _ own
  intro r
  unfold Floor.enter
  rcases r.enqueue_cases c.item with ⟨-, full, -⟩ | ⟨-, -, eq⟩ | ⟨turned, -⟩
  · rw [empty, h.capacity] at full
    exact absurd positive (Nat.not_lt.2 full)
  · rw [eq, empty]
    rfl
  · cases (h.lanes _ _ own).alive.symm.trans (turned accepting)

/-- A call that finds the lanes idle is let in, and its item is done. -/
theorem OnCourse.serve_idle (h : f.OnCourse l) (steady : o.Steady) (positive : 0 < l.capacity)
    (idle : f.Idle) {c : Call} (only : f.calls = [c]) :
    let g := f.run o.recorded [.enter 0, .serve (f.plant.router.laneOf c.item.sensor)]
    g.calls = [] ∧ g.Idle ∧ g.taken = f.taken ++ [c.item] := by
  let r := f.plant.router
  let i := r.laneOf c.item.sensor
  let q : Queue := { r.lane i with waiting := [c.item] }
  let entered : Floor (σ × List Delivery) := { f with
    plant := { f.plant with router := r.setLane i q }
    calls := []
    taken := f.taken ++ [c.item] }
  have enters : f.turn o.recorded (.enter 0) = entered := by
    rw [turn_enter o.recorded (by rw [only]; rfl), h.enter_idle positive idle, only]
    rfl
  let i' : Fin entered.plant.router.lanes.size := ⟨i, by
    rw [Plant.size_setLane]
    exact i.isLt⟩
  have lane : entered.plant.router.lane i' = q := Plant.lane_setLane rfl
  have serves : f.run o.recorded [.enter 0, .serve i] = entered.serve o.recorded i' :=
    (congrArg (Floor.turn o.recorded · (.serve i)) enters).trans (turn_serve o.recorded entered i')
  have others : ∀ (j : Nat) (p : Queue), entered.plant.router.lanes[j]? = some p → i.val ≠ j →
      p.accepting = true ∧ p.waiting = [] := by
    intro j p found apart
    rcases Plant.getElem?_setLane found with ⟨same, -⟩ | ⟨-, found⟩
    · exact absurd same apart
    · exact idle j p found
  intro g
  rw [show g = _ from serves]
  rcases entered.serve_cases steady i' with ⟨empty, -⟩ | ⟨item, rest, scene, front, -, -, eq⟩
  · rw [lane] at empty
    cases empty
  · rw [lane] at front
    cases front
    rw [eq]
    refine ⟨rfl, fun j p found => ?_, rfl⟩
    rcases Plant.getElem?_setLane found with ⟨-, rfl⟩ | ⟨apart, found⟩
    · rw [lane]
      exact ⟨(idle _ _ (Plant.getElem?_lane r i)).1, rfl⟩
    · exact others j p found apart

/-- Whatever is to be done, the lanes can take it in this order and do it. -/
theorem Sound.exists_turns_taken (h : f.Sound l) (steady : o.Steady) (positive : 0 < l.capacity)
    (free : f.calls = []) (idle : f.Idle) (items : List Item) :
    ∃ turns : List Turn, let g := f.run o.recorded turns
      g.calls = [] ∧ g.Idle ∧ g.taken = f.taken ++ items := by
  induction items generalizing f with
  | nil => exact ⟨[], free, idle, (List.append_nil _).symm⟩
  | cons item items ih =>
    let called := f.turn o.recorded (.call item)
    have waits : called.Idle := by
      cases item with
      | packet | forget => exact idle
    have only : called.calls = [⟨item, false⟩] := by
      change f.calls ++ [_] = _
      rw [free]
      rfl
    have sound : called.Sound l := h.turn steady (.call item)
    let first : List Turn := [.enter 0, .serve (called.plant.router.laneOf item.sensor)]
    obtain ⟨free', idle', taken⟩ := sound.course.serve_idle steady positive waits only
    obtain ⟨turns, free'', idle'', rest⟩ := ih (sound.run steady first) free' idle'
    refine ⟨.call item :: (first ++ turns), ?_⟩
    rw [show f.run o.recorded (.call item :: (first ++ turns)) = _ from
      run_append o.recorded called first turns]
    refine ⟨free'', idle'', rest.trans ?_⟩
    rw [taken, List.append_assoc]
    rfl

theorem idle_opened {lanes capacity : Nat} {settings : Settings} {router : Router}
    (started : Router.start lanes capacity settings = .ok router) (outlets : σ) :
    (opened router outlets).Idle := by
  unfold Router.start at started
  split at started
  · cases started
    intro i q found
    change (Array.replicate lanes _)[i]? = some q at found
    rw [Array.getElem?_replicate] at found
    split at found
    · cases found
      exact ⟨rfl, rfl⟩
    · cases found
  · cases started

end Floor

end SensorIngest.Lane
