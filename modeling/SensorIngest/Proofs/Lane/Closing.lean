import SensorIngest.Frame.Encode
import SensorIngest.Proofs.Lane.Floor

/-!
# Closing the lanes

Whatever the turns, each call is in progress, was taken or was turned away (`Counted`), and only a
closed lane turns items away (`Guarded`). What was taken stays taken, and a closed lane takes nothing
more (`Before`). As long as not all lanes are closed and empty there is a turn that leaves less to
do (`Sound.exists_turn`), so that they can always be joined, and then all that was taken has been
done (`lanes_serve_alone`).
-/

namespace SensorIngest.Lane

open scoped List

namespace Floor

variable {σ : Type} {l : Layout} {f : Floor (σ × List Delivery)} {o : Outlets σ}

/-! ## What becomes of the calls -/

/-- Each call is in progress, was taken or was turned away, and the gauge reads the packets of the
calls in progress and of those in the lanes. -/
structure Counted (f : Floor (σ × List Delivery)) : Prop where
  called : f.called ~ f.calls.map (·.item) ++ f.taken ++ f.refused
  queued : f.plant.scene.counters.queued =
    (f.plant.router.packets : Int) + (Item.packets (f.calls.map (·.item)) : Nat)

/-- A call among those in progress, and the other ones. -/
theorem calls_perm {n : Nat} {c : Call} {calls : List Call} (found : calls[n]? = some c) :
    calls.map (·.item) ~ c.item :: (calls.eraseIdx n).map (·.item) := by
  obtain ⟨lt, rfl⟩ := List.getElem?_eq_some_iff.1 found
  exact ((List.getElem_cons_eraseIdx_perm lt).symm.map (·.item))

/-- A call that goes inside is still the same call. -/
theorem map_item_set {n : Nat} {c : Call} {calls : List Call} (found : calls[n]? = some c) :
    (calls.set n { c with inside := true }).map (·.item) = calls.map (·.item) := by
  refine List.ext_getElem? fun m => ?_
  rw [List.getElem?_map, List.getElem?_map, List.getElem?_set]
  grind

theorem packets_append (items more : List Item) :
    Item.packets (items ++ more) = Item.packets items + Item.packets more := List.countP_append

theorem packets_cons (item : Item) (items : List Item) :
    Item.packets (item :: items) = Item.packets items + Item.packets [item] := by
  rw [Item.packets, List.countP_cons, Item.packets, Item.packets, List.countP_singleton]

namespace Counted

theorem call (h : f.Counted) (item : Item) : (f.turn o.recorded (.call item)).Counted := by
  refine ⟨?_, ?_⟩
  · simp only [Floor.turn, List.map_append, List.map_cons, List.map_nil, List.append_assoc]
    refine (h.called.append_right [item]).trans ?_
    rw [List.append_assoc, List.append_assoc]
    refine List.Perm.append_left _ ?_
    rw [← List.append_assoc]
    exact List.perm_append_comm
  · simp only [Floor.turn, List.map_append, packets_append]
    have before := h.queued
    cases item with
    | packet p =>
      have one : Item.packets [.packet p] = 1 := rfl
      simp only [Plant.announce, Pipeline.tallied, Counters.move, before, List.map_cons,
        List.map_nil, one]
      omega
    | forget id =>
      have none : Item.packets [.forget id] = 0 := rfl
      simp only [Plant.announce, before, List.map_cons, List.map_nil, none]
      omega

theorem enter (h : f.Counted) {n : Nat} {c : Call} (found : f.calls[n]? = some c) :
    (f.enter n c).Counted := by
  have calls := calls_perm found
  have packets : Item.packets _ = Item.packets _ := calls.countP_eq Item.isPacket
  rw [packets_cons] at packets
  have before := h.queued
  -- The call is one of those in progress before, and of those taken or turned away afterwards.
  have called := h.called.trans ((calls.append_right _).append_right _)
  unfold Floor.enter
  rcases f.plant.router.enqueue_cases c.item with
    ⟨-, -, eq⟩ | ⟨-, room, eq⟩ | ⟨-, eq⟩ <;> rw [eq]
  · have same := map_item_set found
    exact ⟨same ▸ h.called, same ▸ before⟩
  · have more := f.plant.router.total_setLane (f.plant.router.laneOf c.item.sensor)
      { f.plant.router.lane (f.plant.router.laneOf c.item.sensor) with
        waiting := (f.plant.router.lane (f.plant.router.laneOf c.item.sensor)).waiting ++ [c.item] }
      fun q => Item.packets q.waiting
    rw [packets_append] at more
    refine ⟨called.trans ?_, ?_⟩
    · simp only [List.cons_append, List.append_assoc, List.nil_append]
      rw [← List.append_assoc, ← List.append_assoc]
      exact List.perm_middle.symm
    · unfold Router.packets at before ⊢
      dsimp only at more ⊢
      omega
  · refine ⟨called.trans ?_, ?_⟩
    · simp only [← List.append_assoc]
      exact @List.perm_append_comm _ [c.item] _
    · rw [Plant.queued_turnAway, Plant.router_turnAway]
      dsimp only
      omega

theorem serve (h : f.Counted) (steady : o.Steady) (i : Fin f.plant.router.lanes.size) :
    (f.serve o.recorded i).Counted := by
  rcases f.serve_cases steady i with ⟨-, eq⟩ | ⟨item, rest, scene, front, -, queued, eq⟩ <;> rw [eq]
  · exact h
  refine ⟨h.called, ?_⟩
  have less := f.plant.router.total_setLane i { f.plant.router.lane i with
    worker := ((f.plant.router.lane i).worker.handle item).1
    waiting := rest } fun q => Item.packets q.waiting
  rw [front, packets_cons] at less
  have before := h.queued
  unfold Router.packets at before ⊢
  dsimp only at less ⊢
  omega

theorem shut (h : f.Counted) (i : Fin f.plant.router.lanes.size) :
    Counted { f with plant := f.plant.shut i } := by
  refine ⟨h.called, ?_⟩
  have same := f.plant.router.total_setLane i { f.plant.router.lane i with accepting := false }
    fun q => Item.packets q.waiting
  have before := h.queued
  unfold Router.packets at before ⊢
  dsimp only [Plant.shut] at same ⊢
  omega

theorem turn (h : f.Counted) (steady : o.Steady) (t : Turn) : (f.turn o.recorded t).Counted :=
  turn_cases h h.call (fun _ _ => h.enter) (h.serve steady) (fun i _ => h.shut i) t

end Counted

/-! ## Open and closed lanes -/

/-- A lane is open while somebody is inside, and only closed lanes have turned items away. -/
structure Guarded (f : Floor σ) : Prop where
  inside : ∀ c ∈ f.calls, c.inside = true → f.plant.router.isOpen c.item.sensor = true
  refused : ∀ item ∈ f.refused, f.plant.router.isOpen item.sensor = false

namespace Guarded

/-- Nobody goes inside, and no lane opens or closes. -/
theorem of_same (h : f.Guarded) {g : Floor (σ × List Delivery)}
    (same : ∀ id, g.plant.router.isOpen id = f.plant.router.isOpen id)
    (calls : ∀ c ∈ g.calls, c.inside = true → c ∈ f.calls) (refused : g.refused = f.refused) :
    g.Guarded := by
  refine ⟨fun c mem inside => ?_, fun item mem => ?_⟩
  · rw [same]
    exact h.inside c (calls c mem inside) inside
  · rw [same]
    exact h.refused item (refused ▸ mem)

theorem call (h : f.Guarded) (item : Item) : (f.turn o.recorded (.call item)).Guarded := by
  refine h.of_same (fun id => ?_) (fun c mem inside => ?_) rfl
  · cases item with
    | packet | forget => rfl
  · rcases List.mem_append.1 mem with mem | mem
    · exact mem
    · cases List.mem_singleton.1 mem
      cases inside

theorem enter (h : f.Guarded) (course : f.OnCourse l) (n : Nat) (c : Call) :
    (f.enter n c).Guarded := by
  have others {d : Call} (mem : d ∈ f.calls.eraseIdx n) : d ∈ f.calls :=
    List.mem_of_mem_eraseIdx mem
  unfold Floor.enter
  rcases f.plant.router.enqueue_cases c.item with
    ⟨accepting, -, eq⟩ | ⟨-, -, eq⟩ | ⟨turned, eq⟩ <;> rw [eq]
  · refine ⟨fun d mem inside => ?_, h.refused⟩
    rcases List.mem_or_eq_of_mem_set mem with mem | rfl
    · exact h.inside d mem inside
    · exact accepting
  · exact h.of_same (Router.isOpen_setLane_of_eq rfl) (fun d mem _ => others mem) rfl
  · have alive := (course.lanes _ _ (Plant.getElem?_lane f.plant.router
      (f.plant.router.laneOf c.item.sensor))).alive
    have shut : f.plant.router.isOpen c.item.sensor = false := by
      refine Bool.eq_false_iff.2 fun accepting => ?_
      cases alive.symm.trans (turned accepting)
    refine ⟨fun d mem inside => ?_, fun item mem => ?_⟩
    · rw [Plant.router_turnAway]
      exact h.inside d (others mem) inside
    · rw [Plant.router_turnAway]
      rcases List.mem_append.1 mem with mem | mem
      · exact h.refused item mem
      · cases List.mem_singleton.1 mem
        exact shut

theorem serve (h : f.Guarded) (steady : o.Steady) (i : Fin f.plant.router.lanes.size) :
    (f.serve o.recorded i).Guarded := by
  rcases f.serve_cases steady i with ⟨-, eq⟩ | ⟨item, rest, scene, front, -, -, eq⟩ <;> rw [eq]
  · exact h
  · exact h.of_same (Router.isOpen_setLane_of_eq rfl) (fun c mem _ => mem) rfl

theorem shut (h : f.Guarded) (i : Fin f.plant.router.lanes.size) (free : f.isBusy i = false) :
    Guarded { f with plant := f.plant.shut i } := by
  refine ⟨fun c mem inside => ?_, fun item mem => ?_⟩
  · have elsewhere : i.val ≠ (f.plant.router.laneOf c.item.sensor).val := by
      intro here
      rw [isBusy, List.any_eq_false] at free
      exact free c mem (by simp [inside, here])
    exact (Router.isOpen_setLane _ _ _ _).trans ((if_neg elsewhere).trans (h.inside c mem inside))
  · refine (Router.isOpen_setLane _ _ _ _).trans ?_
    split
    · rfl
    · exact h.refused item mem

theorem turn (h : f.Guarded) (course : f.OnCourse l) (steady : o.Steady) (t : Turn) :
    (f.turn o.recorded t).Guarded :=
  turn_cases h h.call (fun n c _ => h.enter course n c) (h.serve steady) h.shut t

end Guarded

/-! ## Later -/

/-- What was taken stays taken, and a closed lane takes nothing more. -/
structure Before (f g : Floor σ) : Prop where
  taken : f.taken <+: g.taken
  closed : ∀ id, f.plant.router.isOpen id = false → g.plant.router.isOpen id = false ∧
    g.taken.filter (·.sensor = id) = f.taken.filter (·.sensor = id)

namespace Before

theorem refl (f : Floor σ) : f.Before f :=
  ⟨List.prefix_refl _, fun _ shut => ⟨shut, rfl⟩⟩

theorem trans {f g k : Floor σ} (first : f.Before g) (rest : g.Before k) : f.Before k := by
  refine ⟨first.taken.trans rest.taken, fun id shut => ?_⟩
  obtain ⟨still, same⟩ := first.closed id shut
  obtain ⟨end_, same'⟩ := rest.closed id still
  exact ⟨end_, same'.trans same⟩

/-- Nothing is taken, and no lane opens. -/
theorem of_same {f g : Floor σ} (taken : g.taken = f.taken)
    (shut : ∀ id, f.plant.router.isOpen id = false → g.plant.router.isOpen id = false) :
    f.Before g :=
  ⟨taken ▸ List.prefix_refl _, fun id closed => ⟨shut id closed, by rw [taken]⟩⟩

theorem enter (f : Floor σ) (n : Nat) (c : Call) : f.Before (f.enter n c) := by
  unfold Floor.enter
  rcases f.plant.router.enqueue_cases c.item with
    ⟨-, -, eq⟩ | ⟨accepting, -, eq⟩ | ⟨-, eq⟩ <;> rw [eq]
  · exact .of_same rfl fun _ shut => shut
  · refine ⟨List.prefix_append _ _, fun id shut => ⟨?_, ?_⟩⟩
    · exact (Router.isOpen_setLane_of_eq (by rfl) id).trans shut
    · have other : c.item.sensor ≠ id := by
        rintro rfl
        cases shut.symm.trans accepting
      simp [other]
  · exact .of_same rfl fun id shut => by rwa [Plant.router_turnAway]

theorem turn (steady : o.Steady) (f : Floor (σ × List Delivery)) (t : Turn) :
    f.Before (f.turn o.recorded t) := by
  refine turn_cases (P := f.Before) (.refl f) ?_ (fun n c _ => .enter f n c) ?_ ?_ t
  · rintro (p | id)
    · exact .of_same rfl fun _ shut => shut
    · exact .of_same rfl fun _ shut => shut
  · intro i
    rcases f.serve_cases steady i with ⟨-, eq⟩ | ⟨item, rest, scene, front, -, -, eq⟩ <;> rw [eq]
    · exact .refl f
    · exact .of_same rfl fun id shut => (Router.isOpen_setLane_of_eq (by rfl) id).trans shut
  · intro i _
    refine .of_same rfl fun id shut => (Router.isOpen_setLane _ _ _ _).trans ?_
    split
    · rfl
    · exact shut

theorem run (steady : o.Steady) (f : Floor (σ × List Delivery)) (turns : List Turn) :
    f.Before (f.run o.recorded turns) := by
  induction turns generalizing f with
  | nil => exact .refl f
  | cons t turns ih => exact (Before.turn steady f t).trans (ih _)

end Before

/-! ## All at once -/

/-- What holds of a floor whatever the turns were. -/
structure Sound (l : Layout) (f : Floor (σ × List Delivery)) : Prop where
  course : f.OnCourse l
  counted : f.Counted
  guarded : f.Guarded

theorem Sound.turn (h : f.Sound l) (steady : o.Steady) (t : Turn) :
    (f.turn o.recorded t).Sound l :=
  ⟨h.course.turn steady t, h.counted.turn steady t, h.guarded.turn h.course steady t⟩

theorem Sound.run (h : f.Sound l) (steady : o.Steady) (turns : List Turn) :
    (f.run o.recorded turns).Sound l := by
  induction turns generalizing f with
  | nil => exact h
  | cons t turns ih => exact ih (h.turn steady t)

/-! ## Closing -/

/-- What is left to do in a lane. -/
def cost (q : Queue) : Nat := 2 * q.waiting.length + if q.accepting then 1 else 0

/-- What is left to do. To close a lane, to do an item and to let in a call each leave less. -/
def left (f : Floor σ) : Nat := f.plant.router.total cost + 3 * f.calls.length

theorem left_shut {i : Fin f.plant.router.lanes.size}
    (accepting : (f.plant.router.lane i).accepting = true) :
    left { f with plant := f.plant.shut i } < f.left := by
  have less := f.plant.router.total_setLane i { f.plant.router.lane i with accepting := false } cost
  simp only [cost, accepting, if_true, Bool.false_eq_true, if_false] at less
  unfold left
  dsimp only [Plant.shut]
  omega

theorem left_serve (steady : o.Steady) {i : Fin f.plant.router.lanes.size}
    (busy : (f.plant.router.lane i).waiting ≠ []) : (f.serve o.recorded i).left < f.left := by
  rcases f.serve_cases steady i with ⟨empty, -⟩ | ⟨item, rest, scene, front, -, -, eq⟩
  · exact absurd empty busy
  · have less := f.plant.router.total_setLane i { f.plant.router.lane i with
      worker := ((f.plant.router.lane i).worker.handle item).1
      waiting := rest } cost
    simp only [cost, front, List.length_cons] at less
    rw [eq]
    unfold left
    dsimp only
    omega

/-- A call that finds an open lane empty is let in. -/
theorem OnCourse.left_enter (h : f.OnCourse l) (positive : 0 < l.capacity) {n : Nat} {c : Call}
    (found : f.calls[n]? = some c) (accepting : f.plant.router.isOpen c.item.sensor = true)
    (empty : (f.plant.router.lane (f.plant.router.laneOf c.item.sensor)).waiting = []) :
    (f.enter n c).left < f.left := by
  have own := h.lanes _ _ (Plant.getElem?_lane f.plant.router
    (f.plant.router.laneOf c.item.sensor))
  unfold Floor.enter
  rcases f.plant.router.enqueue_cases c.item with ⟨-, full, -⟩ | ⟨-, -, eq⟩ | ⟨turned, -⟩
  · rw [empty, h.capacity] at full
    exact absurd positive (Nat.not_lt.2 full)
  · obtain ⟨lt, -⟩ := List.getElem?_eq_some_iff.1 found
    have more := f.plant.router.total_setLane (f.plant.router.laneOf c.item.sensor)
      { f.plant.router.lane (f.plant.router.laneOf c.item.sensor) with
        waiting := (f.plant.router.lane (f.plant.router.laneOf c.item.sensor)).waiting ++ [c.item] }
      cost
    simp only [cost, List.length_append, List.length_singleton] at more
    rw [eq]
    unfold left
    simp only [List.length_eraseIdx_of_lt lt]
    omega
  · cases own.alive.symm.trans (turned accepting)

/-- Until all lanes are closed and empty there is a turn that leaves less to do. -/
theorem Sound.exists_turn (h : f.Sound l) (steady : o.Steady) (positive : 0 < l.capacity)
    (unfinished : ¬ f.Joined) :
    ∃ t : Turn, t.isCall = false ∧ (f.turn o.recorded t).left < f.left := by
  by_cases idle : ∀ i, (f.plant.router.lane i).waiting = []
  · by_cases alone : ∀ c ∈ f.calls, c.inside = false
    · -- Nobody is inside a lane, so one that is open may close.
      obtain ⟨i, accepting⟩ : ∃ i, (f.plant.router.lane i).accepting = true := by
        by_contra closed
        rw [not_exists] at closed
        refine unfinished fun q mem => ?_
        obtain ⟨i, lt, rfl⟩ := List.getElem_of_mem mem
        have here : i < f.plant.router.lanes.size := by simpa using lt
        exact ⟨Bool.eq_false_iff.2 (closed ⟨i, here⟩), idle ⟨i, here⟩⟩
      have free : f.isBusy i = false := by
        rw [isBusy, List.any_eq_false]
        intro c mem
        simp [alone c mem]
      exact ⟨.close i, rfl, turn_close o.recorded free ▸ left_shut accepting⟩
    · -- Somebody is inside a lane that has room.
      obtain ⟨c, mem, inside⟩ : ∃ c ∈ f.calls, c.inside = true := by simpa using alone
      obtain ⟨n, found⟩ := List.getElem?_of_mem mem
      refine ⟨.enter n, rfl, turn_enter o.recorded found ▸ ?_⟩
      exact h.course.left_enter positive found (h.guarded.inside c mem inside) (idle _)
  · obtain ⟨i, busy⟩ := not_forall.1 idle
    exact ⟨.serve i, rfl, turn_serve o.recorded f i ▸ left_serve steady busy⟩

/-- The lanes can always be closed, and then do all that they took. -/
theorem Sound.exists_joined (h : f.Sound l) (steady : o.Steady) (positive : 0 < l.capacity) :
    ∃ turns : List Turn, (∀ t ∈ turns, t.isCall = false) ∧ (f.run o.recorded turns).Joined := by
  induction size : f.left using Nat.strongRecOn generalizing f with
  | ind n ih =>
    by_cases joined : f.Joined
    · exact ⟨[], nofun, joined⟩
    · obtain ⟨t, uncalled, less⟩ := h.exists_turn steady positive joined
      obtain ⟨turns, others, done⟩ := ih _ (size ▸ less) (h.turn steady t) rfl
      exact ⟨t :: turns, List.forall_mem_cons.2 ⟨uncalled, others⟩, done⟩

theorem sound_opened {lanes capacity : Nat} {settings : Settings} {router : Router}
    (started : Router.start lanes capacity settings = .ok router) (outlets : σ) :
    (opened router outlets).Sound ⟨settings, lanes, capacity, true⟩ := by
  have start := Plant.onCourse_start started outlets
  have idle (i : Nat) (q : Queue) (found : router.lanes[i]? = some q) : q.waiting = [] := by
    obtain ⟨done, split, -⟩ := (start.queues i q found).done
    exact (List.append_eq_nil_iff.1 split.symm).2
  refine ⟨⟨start.size, start.capacity, fun i q found => ?_, fun i q found => ⟨[], ?_, rfl⟩⟩,
    ⟨.refl _, ?_⟩, nofun, nofun⟩
  · have own := start.queues i q found
    exact ⟨own.alive, rfl, own.room, own.done⟩
  · rw [idle i q found]
    rfl
  · have none : router.packets = 0 := by
      refine List.sum_eq_zero_iff_forall_eq_nat.2 fun n mem => ?_
      obtain ⟨q, lane, rfl⟩ := List.mem_map.1 mem
      obtain ⟨i, found⟩ := List.getElem?_of_mem lane
      rw [idle i q (by simpa using found)]
      rfl
    change (0 : Int) = router.packets + (0 : Nat)
    rw [none]
    rfl

/-- Whatever the order of calls, workers and closing lanes, a sensor has the lane that its low bits
tell, the gauge reads the packets that wait, and no lane takes more than it has room for. What was
called for before its lane closed is taken, what comes later is not. The lanes can always be closed,
and then all that was taken has been done: for each sensor in the order in which it was taken, with
the deliveries and the placements of one worker that does nothing else. -/
theorem lanes_serve_alone (k : Nat) {capacity : Nat} (positive : 0 < capacity)
    (settings : Settings) (steady : o.Steady) (outlets : σ) :
    ∃ router, Router.start (Nat.pow 2 k) capacity settings = .ok router ∧
      ∀ turns : List Turn,
        let f := (opened router outlets).run o.recorded turns
        (∀ id, (f.plant.router.laneOf id).val = id.value % 2 ^ k ∧ id.value % 2 ^ k < 2 ^ k) ∧
        f.plant.scene.counters.queued =
          (f.plant.router.packets : Int) + (Item.packets (f.calls.map (·.item)) : Nat) ∧
        (∀ q ∈ f.plant.router.lanes.toList, q.waiting.length ≤ capacity) ∧
        f.called ~ f.calls.map (·.item) ++ f.taken ++ f.refused ∧
        f.Guarded ∧
        (∀ more, f.Before (f.run o.recorded more)) ∧
        (∃ more : List Turn, (∀ t ∈ more, t.isCall = false) ∧ (f.run o.recorded more).Joined) ∧
        ∀ id, f.handled id <+: f.enqueued id ∧ (f.Joined → f.handled id = f.enqueued id) ∧
          f.AsAlone settings id (f.handled id) := by
  obtain ⟨router, started⟩ := Plant.start_two_pow k capacity settings
  refine ⟨router, started, fun turns => ?_⟩
  have sound := (sound_opened started outlets).run steady turns
  refine ⟨fun id => ⟨?_, Nat.mod_lt _ (Nat.two_pow_pos k)⟩, sound.counted.queued,
    fun q mem => ?_, sound.counted.called, sound.guarded, fun more => .run steady _ more,
    sound.exists_joined steady positive, sound.course.asAlone⟩
  · rw [sound.course.val_laneOf]
    exact Nat.and_two_pow_sub_one_eq_mod _ k
  · obtain ⟨i, found⟩ := List.getElem?_of_mem mem
    have room := (sound.course.lanes i q (by simpa using found)).room
    exact Nat.le_trans room (Nat.max_le.2 ⟨Nat.le_refl _, positive⟩)

/-- A packet of one sample. -/
def spoken (id sequence : Nat) : Item :=
  .packet ⟨.ofNat id, sequence, 1000000 * sequence, false, Frame.Draft.encode
    { sensor := .ofNat id, sequence, segments := [.acoustic 16000 [1]] }⟩

/-- Two lanes with room for one item: a caller waits inside the second lane, which closes behind
it, and a later caller is turned away. -/
theorem lanes_serve_alone_turned :
    let o : Outlets Unit := ⟨fun s _ => (s, [], .failed .unavailable)⟩
    let turns : List Turn := [.call (spoken 7 1), .call (spoken 9 2), .enter 0, .enter 0,
      .close 1, .serve 1, .enter 0, .close 1, .call (.forget (.ofNat 7)), .enter 0, .close 0,
      .serve 1]
    0 < 1 ∧ o.Steady ∧ ∃ router, Router.start 2 1 {} = .ok router ∧
      let f := (opened router ()).run o.recorded turns
      f.taken.length = 2 ∧ f.refused.length = 1 ∧ f.calls.length = 0 ∧
        f.plant.scene.counters.queued = 0 ∧ (f.plant.router.placement? (.ofNat 9)).isSome ∧
        f.handled (.ofNat 9) = f.enqueued (.ofNat 9) ∧
        f.AsAlone {} (.ofNat 9) (f.handled (.ofNat 9)) := by
  intro o turns
  have steady : o.Steady := nofun
  refine ⟨Nat.one_pos, steady, ?_⟩
  obtain ⟨router, started, holds⟩ := lanes_serve_alone 1 Nat.one_pos {} steady ()
  obtain ⟨-, -, -, -, -, -, -, served⟩ := holds turns
  obtain ⟨-, all, alone⟩ := served (.ofNat 9)
  have facts : (Router.start 2 1 {}).toOption.any (fun router =>
      let f := (opened router ()).run o.recorded turns
      (f.plant.router.lanes.toList.all fun q => !q.accepting && q.waiting.isEmpty) &&
        decide (f.taken.length = 2 ∧ f.refused.length = 1 ∧ f.calls.length = 0 ∧
          f.plant.scene.counters.queued = 0 ∧
          (f.plant.router.placement? (.ofNat 9)).isSome)) = true := by decide +kernel
  rw [show Router.start 2 1 {} = .ok router from started] at facts
  simp only [Except.toOption, Option.any_some, Bool.and_eq_true, decide_eq_true_eq] at facts
  obtain ⟨joined, taken, refused, calls, queued, placed⟩ := facts
  refine ⟨router, started, taken, refused, calls, queued, placed, all fun q mem => ?_, alone⟩
  simpa using List.all_eq_true.1 joined q mem

end Floor

end SensorIngest.Lane
