import SensorIngest.Frame.Encode
import SensorIngest.Proofs.Lane.Floor

/-!
# Sinks that fail

Which sinks a worker calls for a package, and in which order, depends on its settings and on the
frame alone (`Settings.calls`). A packet is counted once, by what became of it
(`Worker.applyAll_handle`). How a call turns out changes nothing but the number of failed calls
(`Scene.Attempted`), so two runs make the same calls and leave the same worker behind, whatever the
sinks answer (`Lane.sink_failures_isolated`).
-/

namespace SensorIngest

/-- The frame of a package, if it can be decoded and its first acoustic segment can be used. -/
def Package.usable? (p : Package) : Option Frame :=
  match Frame.decode p.frame with
  | .error _ => none
  | .ok frame => frame.span.toOption.map fun _ => frame

/-- The sinks in the order in which a package is delivered to them. -/
def Sink.inOrder : List Sink := [presence, proxy, broadcast, grpc, file]

/-! ## What is counted of a packet -/

/-- Counted of a packet by what became of it. -/
def Tally.isOutcome : Tally → Bool
  | decodeErrors | missingSegments | adjusted _ => true
  | _ => false

def AdjustmentCounts.total (c : AdjustmentCounts) : Nat :=
  c.aligned + c.broken + c.dropped + c.corrected + c.reset

namespace Counters

/-- The packets that were processed, by what became of them. -/
def outcomes (c : Counters) : Nat := c.decodeErrors + c.missingSegments + c.adjusted.total

theorem outcomes_count (c : Counters) (n : Nat) (tally : Tally) :
    (c.count n tally).outcomes = c.outcomes + if tally.isOutcome then n else 0 := by
  cases tally with
  | adjusted kind =>
    cases kind <;> simp only [count, AdjustmentCounts.count, outcomes, AdjustmentCounts.total,
      Tally.isOutcome, if_true] <;> omega
  | decodeErrors | missingSegments =>
    simp only [count, outcomes, Tally.isOutcome, if_true]
    omega
  | _ => rfl

theorem outcomes_move (c : Counters) (step : Int) (gauge : Gauge) :
    (c.move step gauge).outcomes = c.outcomes := by
  cases gauge <;> rfl

/-- Failed calls are counted apart from everything else. -/
theorem count_sinkErrors_count (c : Counters) (n m : Nat) (tally : Tally) :
    (c.count n .sinkErrors).count m tally = (c.count m tally).count n .sinkErrors := by
  cases tally with
  | sinkErrors => simp only [count, Nat.add_right_comm]
  | _ => rfl

theorem count_sinkErrors_move (c : Counters) (n : Nat) (step : Int) (gauge : Gauge) :
    (c.count n .sinkErrors).move step gauge = (c.move step gauge).count n .sinkErrors := by
  cases gauge <;> rfl

theorem sinkErrors_count_outcome (c : Counters) (n : Nat) {tally : Tally}
    (outcome : tally.isOutcome = true) : (c.count n tally).sinkErrors = c.sinkErrors := by
  cases tally <;> first | rfl | cases outcome

end Counters

namespace Lane

namespace Effect

/-- The counters after an effect, whatever a delivery comes to. -/
def applyTo (c : Counters) : Effect → Counters
  | count tally => c.count 1 tally
  | move gauge step => c.move step gauge
  | log _ | deliver _ => c

def applyAll (c : Counters) (effects : List Effect) : Counters := effects.foldl applyTo c

theorem applyAll_append (c : Counters) (first rest : List Effect) :
    applyAll c (first ++ rest) = applyAll (applyAll c first) rest := List.foldl_append

theorem applyAll_count_sinkErrors (c : Counters) (n : Nat) (effects : List Effect) :
    applyAll (c.count n .sinkErrors) effects = (applyAll c effects).count n .sinkErrors := by
  induction effects generalizing c with
  | nil => rfl
  | cons e effects ih =>
    refine Eq.trans ?_ (ih (applyTo c e))
    refine congrArg (applyAll · effects) ?_
    cases e with
    | count tally => exact c.count_sinkErrors_count n 1 tally
    | move gauge step => exact c.count_sinkErrors_move n step gauge
    | log | deliver => rfl

end Effect

/-! ## What is called for a package -/

namespace Settings

/-- The sink is called before the frame is decoded. -/
def isEarly (s : Settings) : Sink → Bool
  | .presence => true
  | .proxy => !s.proxyAligned
  | .broadcast | .grpc | .file => false

/-- The calls that are made of every package. -/
def early (s : Settings) (p : Package) : List Delivery :=
  .presence p.sensor :: if s.proxyAligned then [] else [.proxy p.sensor p.frame]

/-- The calls that are made of a package whose frame can be used. -/
def late (s : Settings) (id : SensorId) (frame : Frame) : List Delivery :=
  (if s.proxyAligned then [.proxy id frame.raw] else []) ++
    [.broadcast id frame, .grpc id frame.raw, .file id frame]

/-- The calls for a package, of the sinks that are present. -/
def calls (s : Settings) (p : Package) : List Delivery :=
  (s.early p ++ p.usable?.elim [] (s.late p.sensor)).filter (s.sinks.has ·.sink)

/-- The calls for an item. -/
def callsFor (s : Settings) : Item → List Delivery
  | .packet p => s.calls p
  | .forget _ => []

/-- Each sink that is present is called once at most, in the fixed order, and only an early one where
the frame cannot be used. -/
theorem sink_calls (s : Settings) (p : Package) :
    (s.calls p).map (·.sink) =
      Sink.inOrder.filter fun k => s.sinks.has k && (s.isEarly k || p.usable?.isSome) := by
  have all : (s.early p ++ p.usable?.elim [] (s.late p.sensor)).map (·.sink) =
      Sink.inOrder.filter fun k => s.isEarly k || p.usable?.isSome := by
    unfold early late Sink.inOrder isEarly
    cases s.proxyAligned <;> cases p.usable? <;> rfl
  rw [← List.filter_filter, ← all, List.filter_map]
  rfl

end Settings

namespace Worker

variable {w : Worker} {p : Package}

theorem applyAll_offer (w : Worker) (d : Delivery) (c : Counters) :
    Effect.applyAll c (w.offer d) = c := by
  unfold offer
  split <;> rfl

theorem applyAll_early (w : Worker) (p : Package) (c : Counters) :
    Effect.applyAll c (w.early p) = c := by
  rw [early, Effect.applyAll_append, applyAll_offer]
  split
  · rfl
  · exact w.applyAll_offer _ c

theorem applyAll_late (w : Worker) (id : SensorId) (frame : Frame) (c : Counters) :
    Effect.applyAll c (w.late id frame) = c := by
  simp only [late, Effect.applyAll_append, applyAll_offer]
  split
  · exact w.applyAll_offer _ c
  · rfl

theorem applyAll_place (w : Worker) (p : Package) (span : Frame.Span) (c : Counters) :
    ∃ kind, Effect.applyAll c (w.place p span).2 = c.count 1 (.adjusted kind) := by
  refine ⟨?_, ?counted⟩
  case counted =>
    unfold place
    dsimp only
    split <;> split <;> rfl

/-- Everything that can become of a packet. -/
theorem process_cases (w : Worker) (p : Package) :
    (p.usable? = none ∧ ∃ tally event, tally.isOutcome = true ∧
        w.process p = (w, w.early p ++ [.count tally, .log event])) ∨
      ∃ frame span, p.usable? = some frame ∧ w.process p =
        ((w.place p span).1, w.early p ++ (w.place p span).2 ++ w.late p.sensor frame) := by
  unfold Package.usable? process
  cases Frame.decode p.frame with
  | error reason => exact .inl ⟨rfl, _, _, rfl, rfl⟩
  | ok frame =>
    dsimp only
    cases frame.span with
    | ok span => exact .inr ⟨frame, span, rfl, rfl⟩
    | error reason =>
      refine .inl ⟨rfl, ?_⟩
      cases reason <;> exact ⟨_, _, rfl, rfl⟩

/-- A packet stops waiting and is counted once, by what became of it. -/
theorem applyAll_handle (w : Worker) (p : Package) (c : Counters) :
    ∃ tally : Tally, tally.isOutcome = true ∧
      Effect.applyAll c (w.handle (.packet p)).2 = (c.move (-1) .queued).count 1 tally := by
  have moved : Effect.applyAll c (w.handle (.packet p)).2 =
      Effect.applyAll (c.move (-1) .queued) (w.process p).2 := rfl
  rw [moved]
  rcases w.process_cases p with ⟨-, tally, event, outcome, eq⟩ | ⟨frame, span, -, eq⟩
  · refine ⟨tally, outcome, ?_⟩
    rw [eq, Effect.applyAll_append, applyAll_early]
    rfl
  · obtain ⟨kind, placed⟩ := w.applyAll_place p span (c.move (-1) .queued)
    refine ⟨.adjusted kind, rfl, ?_⟩
    rw [eq, Effect.applyAll_append, Effect.applyAll_append, applyAll_early, placed, applyAll_late]

/-- A package that cannot be used leaves all clocks and placements as they are. -/
theorem handle_unusable (w : Worker) (unusable : p.usable? = none) :
    (w.handle (.packet p)).1 = w := by
  rcases w.process_cases p with ⟨-, tally, event, -, eq⟩ | ⟨frame, span, usable, -⟩
  · exact congrArg Prod.fst eq
  · cases unusable.symm.trans usable

theorem filter_offer (w : Worker) (d : Delivery) :
    Effect.deliveries (w.offer d) = [d].filter (w.settings.sinks.has ·.sink) := by
  rw [deliveries_offer, List.filter_singleton, Bool.cond_eq_ite]

theorem deliveries_early (w : Worker) (p : Package) :
    Effect.deliveries (w.early p) =
      (w.settings.early p).filter (w.settings.sinks.has ·.sink) := by
  have split : w.settings.early p = [.presence p.sensor] ++
      if w.settings.proxyAligned then [] else [.proxy p.sensor p.frame] := rfl
  rw [split, early, Effect.deliveries_append, filter_offer, List.filter_append]
  cases w.settings.proxyAligned with
  | true => rfl
  | false => exact congrArg _ (w.filter_offer _)

theorem deliveries_late (w : Worker) (id : SensorId) (frame : Frame) :
    Effect.deliveries (w.late id frame) =
      (w.settings.late id frame).filter (w.settings.sinks.has ·.sink) := by
  have split : w.settings.late id frame =
      (if w.settings.proxyAligned then [.proxy id frame.raw] else []) ++
        ([.broadcast id frame] ++ ([.grpc id frame.raw] ++ [.file id frame])) := rfl
  simp only [split, late, Effect.deliveries_append, filter_offer, List.filter_append,
    List.append_assoc]
  cases w.settings.proxyAligned with
  | true => exact congrArg (· ++ _) (w.filter_offer _)
  | false => rfl

theorem deliveries_handle (w : Worker) (item : Item) :
    Effect.deliveries (w.handle item).2 = w.settings.callsFor item := by
  cases item with
  | forget id => rfl
  | packet p =>
    have made : Effect.deliveries (w.handle (.packet p)).2 =
      Effect.deliveries (w.process p).2 := rfl
    rw [made, Settings.callsFor, Settings.calls, List.filter_append, ← deliveries_early]
    rcases w.process_cases p with ⟨unusable, tally, event, -, eq⟩ | ⟨frame, span, usable, eq⟩
    · rw [eq, unusable, Effect.deliveries_append]
      rfl
    · rw [eq, usable, Effect.deliveries_append, Effect.deliveries_append, deliveries_place,
        List.append_nil, deliveries_late]
      rfl

/-- The calls for items, whatever has been done before. -/
theorem deliveries_handleAll (w : Worker) (items : List Item) :
    Effect.deliveries (w.handleAll items).2 = items.flatMap w.settings.callsFor := by
  induction items generalizing w with
  | nil => rfl
  | cons item rest ih =>
    rw [handleAll, Effect.deliveries_append, ih, settings_handle, deliveries_handle]
    rfl

/-- Every packet has one outcome, and a worker counts no failed calls of its own. -/
theorem outcomes_handleAll (w : Worker) (c : Counters) (items : List Item) :
    let counted := Effect.applyAll c (w.handleAll items).2
    counted.outcomes = c.outcomes + Item.packets items ∧
      counted.sinkErrors = c.sinkErrors := by
  induction items generalizing w c with
  | nil => exact ⟨rfl, rfl⟩
  | cons item rest ih =>
    obtain ⟨outcomes, errors⟩ := ih (w.handle item).1 (Effect.applyAll c (w.handle item).2)
    rw [handleAll, Effect.applyAll_append]
    cases item with
    | forget id => exact ⟨outcomes, errors⟩
    | packet p =>
      obtain ⟨tally, outcome, counted⟩ := w.applyAll_handle p c
      have one : Item.packets (.packet p :: rest) = Item.packets rest + 1 := List.countP_cons_of_pos rfl
      rw [counted] at outcomes errors
      refine ⟨?_, ?_⟩
      · rw [counted, outcomes, Counters.outcomes_count, outcome, if_pos rfl, Counters.outcomes_move,
          one]
        omega
      · rw [counted, errors, Counters.sinkErrors_count_outcome _ _ outcome]
        rfl

end Worker

/-! ## Calls and their answers -/

/-- A call of a sink, and how it turned out. -/
structure Attempt where
  delivery : Delivery
  answer : Answer
deriving DecidableEq

def Attempt.failed (a : Attempt) : Bool :=
  match a.answer with
  | .failed _ => true
  | .done | .crashed => false

variable {σ τ : Type}

/-- The same outlets, which also note each call and its answer. -/
def Outlets.witnessed (o : Outlets σ) : Outlets (σ × List Attempt) where
  answer s d :=
    let (outlets, events, answer) := o.answer s.1 d
    ((outlets, s.2 ++ [⟨d, answer⟩]), events, answer)

namespace Scene

variable {o : Outlets σ} {s t u : Scene (σ × List Attempt)} {first rest effects : List Effect}

/-- The effects were carried out, with these calls. The failed ones are counted, and nothing else
depends on the answers. -/
structure Attempted (s : Scene (σ × List Attempt)) (effects : List Effect) (made : List Attempt)
    (t : Scene (σ × List Attempt)) : Prop where
  alive : t.crashed = false
  journal : t.outlets.2 = s.outlets.2 ++ made
  calls : made.map (·.delivery) = Effect.deliveries effects
  counters : t.counters =
    (Effect.applyAll s.counters effects).count (made.countP (·.failed)) .sinkErrors

theorem attempted_nil (alive : s.crashed = false) : s.Attempted [] [] s :=
  ⟨alive, (List.append_nil _).symm, rfl, rfl⟩

theorem Attempted.append {made more : List Attempt} (h : s.Attempted first made t)
    (k : t.Attempted rest more u) : s.Attempted (first ++ rest) (made ++ more) u where
  alive := k.alive
  journal := by rw [k.journal, h.journal, List.append_assoc]
  calls := by rw [List.map_append, h.calls, k.calls, Effect.deliveries_append]
  counters := by
    rw [k.counters, h.counters, Effect.applyAll_count_sinkErrors, Effect.applyAll_append,
      List.countP_append]
    simp only [Counters.count, Nat.add_assoc]

theorem performOne_attempted (steady : o.Steady) (alive : s.crashed = false) (e : Effect) :
    ∃ made, s.Attempted [e] made (s.performOne o.witnessed e) := by
  cases e with
  | count | move | log => exact ⟨[], alive, (List.append_nil _).symm, rfl, rfl⟩
  | deliver d =>
    refine ⟨[⟨d, (o.answer s.outlets.1 d).2.2⟩], ?_⟩
    have answered := steady s.outlets.1 d
    rw [performOne, deliver]
    simp only [Outlets.witnessed]
    cases outcome : (o.answer s.outlets.1 d).2.2 with
    | crashed => exact absurd outcome answered
    | done | failed => exact ⟨alive, rfl, rfl, rfl⟩

theorem perform_attempted (steady : o.Steady) (alive : s.crashed = false) (effects : List Effect) :
    ∃ made, s.Attempted effects made (s.perform o.witnessed effects) := by
  induction effects generalizing s with
  | nil => exact ⟨[], attempted_nil alive⟩
  | cons e rest ih =>
    obtain ⟨made, one⟩ := performOne_attempted steady alive e
    obtain ⟨more, all⟩ := ih one.alive
    rw [perform]
    simp only [one.alive, Bool.false_eq_true, if_false]
    exact ⟨made ++ more, one.append all⟩

end Scene

/-! ## A worker and its sinks -/

/-- Does items one after the other, and carries out what each of them asks for, up to a crash. -/
def Worker.serve (o : Outlets σ) (w : Worker) (s : Scene σ) : List Item → Worker × Scene σ
  | [] => (w, s)
  | item :: rest =>
    let (w, effects) := w.handle item
    let s := { s with crashed := false }.perform o effects
    if s.crashed then (w, s) else w.serve o s rest

/-- Where no call ends the lane all items are done. -/
theorem Worker.serve_attempted {o : Outlets σ} (steady : o.Steady) (w : Worker)
    {s : Scene (σ × List Attempt)} (alive : s.crashed = false) (items : List Item) :
    ∃ made, (w.serve o.witnessed s items).1 = (w.handleAll items).1 ∧
      s.Attempted (w.handleAll items).2 made (w.serve o.witnessed s items).2 := by
  induction items generalizing w s with
  | nil => exact ⟨[], rfl, Scene.attempted_nil alive⟩
  | cons item rest ih =>
    have fresh : { s with crashed := false } = s := by rw [← alive]
    obtain ⟨made, one⟩ := Scene.perform_attempted steady alive (w.handle item).2
    obtain ⟨more, worker, all⟩ := ih (w.handle item).1 one.alive
    rw [serve, fresh]
    simp only [one.alive, Bool.false_eq_true, if_false]
    exact ⟨made ++ more, worker, one.append all⟩

namespace Plant

/-- The lane of a sensor. -/
def laneFor (p : Plant σ) (id : SensorId) : Queue := p.router.lane (p.router.laneOf id)

theorem work_laneFor (o : Outlets σ) (p : Plant σ) (id : SensorId) (item : Item)
    (rest : List Item) :
    let handled := (p.laneFor id).worker.handle item
    let scene := { p.scene with crashed := false }.perform o handled.2
    let worked := p.work o (p.router.laneOf id) item rest
    worked.scene = scene ∧ (worked.laneFor id).worker = handled.1 ∧
      (worked.laneFor id).waiting = if scene.crashed then [] else rest := by
  intro handled scene worked
  have lane : worked.laneFor id =
      if scene.crashed then { p.laneFor id with worker := handled.1, waiting := [], dead := true }
      else { p.laneFor id with worker := handled.1, waiting := rest } :=
    (p.router.lane_laneOf_setLane (p.router.laneOf id) _ id).trans (if_pos rfl)
  rw [lane]
  cases scene.crashed with
  | true => exact ⟨rfl, rfl, rfl⟩
  | false => exact ⟨rfl, rfl, rfl⟩

/-- A lane that is served often enough does what waits in it. -/
theorem serveMany_serves (o : Outlets σ) (id : SensorId) (n : Nat) (p : Plant σ)
    (all : (p.laneFor id).waiting.length ≤ n) :
    let served := serveMany o id n p
    ((served.laneFor id).worker, served.scene) =
      (p.laneFor id).worker.serve o p.scene (p.laneFor id).waiting := by
  induction n generalizing p with
  | zero =>
    rw [List.eq_nil_of_length_eq_zero (Nat.le_zero.1 all)]
    rfl
  | succ n ih =>
    cases front : (p.laneFor id).waiting with
    | nil =>
      have idle : p.serve o (p.router.laneOf id) = p := by
        have waiting : (p.router.lane (p.router.laneOf id)).waiting = [] := front
        rw [serve, waiting]
      have few := ih p (by rw [front]; exact Nat.zero_le n)
      rw [front] at few
      rw [serveMany, idle]
      exact few
    | cons item rest =>
      have working : p.serve o (p.router.laneOf id) = p.work o (p.router.laneOf id) item rest := by
        have waiting : (p.router.lane (p.router.laneOf id)).waiting = item :: rest := front
        rw [serve, waiting]
      obtain ⟨scene, worker, waiting⟩ := work_laneFor o p id item rest
      have left : ((p.work o (p.router.laneOf id) item rest).laneFor id).waiting.length ≤ n := by
        rw [front, List.length_cons] at all
        rw [waiting]
        split
        · exact Nat.zero_le n
        · exact Nat.le_of_succ_le_succ all
      have next := ih _ left
      rw [serveMany, working]
      refine next.trans ?_
      rw [scene, worker, waiting, Worker.serve]
      dsimp only
      split
      · rfl
      · rfl

/-- So does a lane that does all that waits in it. -/
theorem settle_serves (o : Outlets σ) (p : Plant σ) (id : SensorId) :
    (((p.settle o id).laneFor id).worker, (p.settle o id).scene) =
      (p.laneFor id).worker.serve o p.scene (p.laneFor id).waiting :=
  serveMany_serves o id _ p (Nat.le_refl _)

end Plant

/-! ## Two runs -/

/-- Whatever the sinks answer, two runs of a worker make the same calls and leave the same clocks,
placements and counters behind, up to the number of failed calls. The calls are those that the
settings ask for: for each package those of the sinks that are present, each once at most and in
the fixed order, and only the early ones where its frame cannot be used. Such a package changes no
clock and no placement. Every packet is counted once, by what became of it. -/
theorem sink_failures_isolated {o : Outlets σ} {o' : Outlets τ} (steady : o.Steady)
    (steady' : o'.Steady) (w : Worker) (c : Counters) (x : σ) (y : τ) (items : List Item) :
    let run := w.serve o.witnessed { outlets := (x, []), counters := c } items
    let run' := w.serve o'.witnessed { outlets := (y, []), counters := c } items
    let made := run.2.outlets.2
    made.map (·.delivery) = items.flatMap w.settings.callsFor ∧
      (∀ p, (w.settings.calls p).map (·.sink) = Sink.inOrder.filter fun k =>
        w.settings.sinks.has k && (w.settings.isEarly k || p.usable?.isSome)) ∧
      run'.2.outlets.2.map (·.delivery) = made.map (·.delivery) ∧
      run'.1 = run.1 ∧
      { run'.2.counters with sinkErrors := 0 } = { run.2.counters with sinkErrors := 0 } ∧
      run.2.counters.sinkErrors = c.sinkErrors + made.countP (·.failed) ∧
      run.2.counters.outcomes = c.outcomes + Item.packets items ∧
      ∀ (v : Worker) (p : Package), p.usable? = none → (v.handle (.packet p)).1 = v := by
  intro run run' made
  obtain ⟨calls, worker, one⟩ := w.serve_attempted steady
    (s := { outlets := (x, []), counters := c }) rfl items
  obtain ⟨calls', worker', other⟩ := w.serve_attempted steady'
    (s := { outlets := (y, []), counters := c }) rfl items
  obtain ⟨outcomes, errors⟩ := w.outcomes_handleAll c items
  have noted : made = calls := one.journal
  have noted' : run'.2.outlets.2 = calls' := other.journal
  have counted : run.2.counters = _ := one.counters
  have counted' : run'.2.counters = _ := other.counters
  rw [noted, noted', one.calls, other.calls, w.deliveries_handleAll, counted, counted']
  refine ⟨rfl, w.settings.sink_calls, rfl, worker'.trans worker.symm, rfl, ?_, ?_,
    fun v p => v.handle_unusable⟩
  · exact congrArg (· + calls.countP (·.failed)) errors
  · exact outcomes

/-- Every call turns out the same. -/
def Outlets.always (answer : Answer) : Outlets Unit := ⟨fun _ _ => ((), [], answer)⟩

/-- A package that cannot be decoded and one that can, for sinks that all fail and for sinks that
never do. -/
theorem sink_failures_isolated_always :
    let failing : Outlets Unit := .always (.failed .unavailable)
    let working : Outlets Unit := .always .done
    let w : Worker := { settings :=
      { proxyAligned := false, sinks := { proxy := true, broadcast := true, presence := true } } }
    let frame := Frame.Draft.encode
      { sensor := .ofNat 7, sequence := 1, segments := [.acoustic 1000 [1]] }
    let items : List Item := [.packet ⟨.ofNat 7, 1, 5, false, []⟩, .packet ⟨.ofNat 7, 1, 9, false, frame⟩]
    let run := w.serve failing.witnessed { outlets := ((), []) } items
    let run' := w.serve working.witnessed { outlets := ((), []) } items
    failing.Steady ∧ working.Steady ∧ run.2.counters.sinkErrors = 5 ∧
      run'.2.counters.sinkErrors = 0 ∧ run'.1 = run.1 := by
  intro failing working w frame items run run'
  have steady : failing.Steady := fun _ _ => nofun
  have steady' : working.Steady := fun _ _ => nofun
  obtain ⟨-, -, -, worker, -⟩ := sink_failures_isolated steady steady' w {} () () items
  exact ⟨steady, steady', by decide +kernel, by decide +kernel, worker⟩

end Lane

end SensorIngest
