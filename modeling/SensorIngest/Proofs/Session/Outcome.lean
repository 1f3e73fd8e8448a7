import SensorIngest.Proofs.Session.Order

/-!
# Everything that a frame can do to a session

A frame for a session in order repeats the last one, or room is made for it and it then settles in
one of five ways (`Settles`): it waits, it waits and the first missing packet is asked for, its turn
has come, it is late, or it restarts the counter. `Session.receive_takes` says that these are all
outcomes, each with the session, the reply and the effects it leaves behind, and that every outcome
is in order again. The frame's sequence has to have another one behind it, like those of the session.
-/

namespace SensorIngest

open Intake (Effect)

namespace Session

variable {s t : Session} {b c : Backlog} {a : Arrival} {ps : List Parked} {sampled : Bool}
  {r : Session × Option Reply × List Effect}

/-- What is counted of a frame that waits already. -/
def repeatedly (b : Backlog) (a : Arrival) : List Effect :=
  if b.contains a.sequence then [.tick .duplicates] else []

/-- What is counted and logged of a request. -/
def requesting (s : Session) (a : Arrival) : List Effect :=
  (if s.redo = 0 then [.tick .resendTotal] else []) ++
    [.tick .resendRequests,
      .log (.requestingResend s.sensor (s.lastSequence + 1) a.sequence (s.redo + 1))]

/-- What is counted of a frame that was asked for. -/
def answered (s : Session) (a : Arrival) : List Effect :=
  if s.request.map (·.sequence) = some a.sequence then [.tick .resendSuccess] else []

/-- The frame does not advance the sequence. -/
def behind (s : Session) (a : Arrival) (restart : Bool) : Effect :=
  .log (.sequenceBehind s.sensor a.sequence s.lastSequence restart)

@[simp] theorem packages_repeatedly (b : Backlog) (a : Arrival) :
    Effect.packages (repeatedly b a) = [] := by
  unfold repeatedly
  split <;> rfl

@[simp] theorem packages_requesting (s : Session) (a : Arrival) :
    Effect.packages (s.requesting a) = [] := by
  unfold requesting
  split <;> rfl

@[simp] theorem packages_answered (s : Session) (a : Arrival) :
    Effect.packages (s.answered a) = [] := by
  unfold answered
  split <;> rfl

@[simp] theorem packages_behind (s : Session) (a : Arrival) (restart : Bool)
    (rest : List Effect) : Effect.packages (s.behind a restart :: rest) = Effect.packages rest := rfl

/-- How a frame settles in a session that has room for it. -/
inductive Settles (s : Session) (b : Backlog) (a : Arrival) (sampled : Bool) :
    Session × Option Reply × List Effect → Backlog → Prop
  | waits (started : 0 < s.lastSequence) (ahead : s.lastSequence + 1 < a.sequence)
      (early : s.requestDue a.now = false) :
      Settles s b a sampled
        ({ s with backlog := some (b.insert a.parked).1 }, none, repeatedly b a)
        (b.insert a.parked).1
  | asks (started : 0 < s.lastSequence) (ahead : s.lastSequence + 1 < a.sequence)
      (due : s.requestDue a.now = true) :
      Settles s b a sampled
        ({ s with
            backlog := some (b.insert a.parked).1
            redo := s.redo + 1
            request := some ⟨s.lastSequence + 1, a.now⟩ },
          some (.resend s.sensor (s.lastSequence + 1)), repeatedly b a ++ s.requesting a)
        (b.insert a.parked).1
  | inTurn {run : List Parked} {c : Backlog}
      (next : s.lastSequence = 0 ∨ a.sequence = s.lastSequence + 1)
      (above : s.lastSequence < a.sequence) (left : b.Releases run c)
      (consecutive : run.map (·.sequence) = List.range' (a.sequence + 1) run.length)
      (gap : ∀ p ∈ c.entries, a.sequence + run.length + 1 < p.sequence) :
      Settles s b a sampled
        (s.movedTo (a.sequence + run.length) c, Intake.acknowledge a.header,
          s.answered a ++ .dispatch (a.package sampled) :: handed s.sensor run) c
  | late (started : 0 < s.lastSequence) (le : a.sequence ≤ s.lastSequence)
      (same : s.isRestart a.sequence = false) :
      Settles s b a sampled
        (s.movedTo (reach s.lastSequence b.entries) b.drain.2, Intake.acknowledge a.header,
          s.behind a false :: handed s.sensor b.entries ++ [.tick .duplicates])
        b.drain.2
  | restarted (restart : s.isRestart a.sequence = true) :
      Settles s b a sampled
        (s.movedTo a.sequence b.drain.2, Intake.acknowledge a.header,
          s.behind a true :: handed s.sensor b.entries ++ [.dispatch (a.package sampled)])
        b.drain.2

/-! ## Each way to settle -/

theorem repeatedly_eq (b : Backlog) (a : Arrival) :
    (if (b.insert a.parked).2 = .duplicate then [Effect.tick .duplicates] else []) =
      repeatedly b a := by
  rw [Backlog.insert_snd, repeatedly]
  change (if (if b.contains a.sequence = true then Backlog.Insertion.duplicate else .accepted) =
    .duplicate then _ else _) = _
  split <;> rfl

theorem Request.of?_succ (sequence : Nat) (sentAt : Micros) :
    Request.of? (sequence + 1) sentAt = some ⟨sequence + 1, sentAt⟩ := if_neg (Nat.succ_ne_zero _)

theorem park_settles (bearable : Bearable s.lastSequence) (started : 0 < s.lastSequence)
    (ahead : s.lastSequence + 1 < a.sequence) :
    Settles s b a sampled (Intake.conclude a.header a.now sampled a.raw (s.park b a.parked))
      (b.insert a.parked).1 := by
  have due_eq : { s with backlog := some (b.insert a.parked).1 }.requestDue a.parked.arrival =
      s.requestDue a.now := rfl
  have next : { s with backlog := some (b.insert a.parked).1 }.following = s.lastSequence + 1 :=
    following_eq bearable
  have first : (s.redo + 1 = 1) = (s.redo = 0) := by simp
  unfold park
  simp only [repeatedly_eq, due_eq, next, Request.of?_succ, first]
  cases due : s.requestDue a.now with
  | false => exact .waits started ahead due
  | true =>
    rw [if_pos rfl, List.append_assoc]
    exact .asks started ahead due

theorem drainAll_accept (h : s.Ordered b) :
    { s with redo := 0 }.drainAll =
      ({ s with redo := 0, lastSequence := reach s.lastSequence b.entries
                backlog := some b.drain.2 }, handed s.sensor b.entries) :=
  drainAll_eq (s := { s with redo := 0 }) h.backlog h.above

theorem accept_late (h : s.Ordered b) (started : 0 < s.lastSequence)
    (le : a.sequence ≤ s.lastSequence) (same : s.isRestart a.sequence = false) :
    Settles s b a sampled (Intake.conclude a.header a.now sampled a.raw (s.accept a.sequence))
      b.drain.2 := by
  have same' : { s with redo := 0 }.isRestart a.sequence = false := same
  have dropped := h.request_dropped (lt_reach h.above b.entries_sorted)
  unfold accept
  simp only [drainAll_accept h, same', dropPassedRequest, dropped]
  rw [if_pos ⟨started, le⟩]
  exact .late started le same

/-- A frame that may proceed is handed on, and then what continues it. -/
theorem conclude_proceed {u v : Session} {offered own run : List Effect}
    (hand : s.handOff a.sequence a.now sampled a.raw = (u, own))
    (drain : u.drainContiguous = (v, run)) :
    Intake.conclude a.header a.now sampled a.raw (s, .proceed, offered) =
      (v, Intake.acknowledge a.header, offered ++ own ++ run) := by
  rw [Arrival.sequence] at hand
  simp only [Intake.conclude, hand, drain]

theorem lt_of_isRestart {sequence : Nat} (restart : s.isRestart sequence = true) :
    sequence < s.lastSequence := by
  simp only [isRestart, Bool.and_eq_true, decide_eq_true_eq] at restart
  exact restart.1

theorem isRestart_eq_false {sequence : Nat} (le : s.lastSequence ≤ sequence) :
    s.isRestart sequence = false :=
  Bool.eq_false_iff.2 fun restart => Nat.not_lt_of_le le (lt_of_isRestart restart)

/-- A restart stays one when the sequence moves on. -/
theorem isRestart_of_le {sequence : Nat} (restart : s.isRestart sequence = true)
    (le : s.lastSequence ≤ t.lastSequence) : t.isRestart sequence = true := by
  simp only [isRestart, Bool.and_eq_true, Bool.or_eq_true, decide_eq_true_eq] at restart ⊢
  omega

theorem accept_restarted (h : s.Ordered b) (own : s.sensor = a.header.sensor)
    (restart : s.isRestart a.sequence = true) :
    Settles s b a sampled (Intake.conclude a.header a.now sampled a.raw (s.accept a.sequence))
      b.drain.2 := by
  have restart' : { s with redo := 0 }.isRestart a.sequence = true := restart
  have back := lt_of_isRestart restart
  let moved := s.movedTo (reach s.lastSequence b.entries) b.drain.2
  have accepted : s.accept a.sequence =
      (moved, .proceed, s.behind a true :: handed s.sensor b.entries) := by
    unfold accept
    simp only [drainAll_accept h, restart']
    exact if_pos ⟨Nat.zero_lt_of_lt back, Nat.le_of_lt back⟩
  have handing : moved.handOff a.sequence a.now sampled a.raw =
      (s.movedTo a.sequence b.drain.2, [.dispatch (a.package sampled)]) := by
    have le := le_reach h.above b.entries_sorted
    rw [handOff_eq a.now sampled a.raw (.inr (isRestart_of_le restart le)), Arrival.package, ← own]
    rfl
  have rest : (s.movedTo a.sequence b.drain.2).drainContiguous = (_, []) :=
    drainContiguous_of_gap rfl (by simp [Backlog.entries_drain])
  rw [accepted, conclude_proceed handing rest, List.append_nil]
  exact .restarted restart

theorem accept_inTurn (h : s.Ordered b) (own : s.sensor = a.header.sensor)
    (bearable : Bearable a.sequence) (next : s.lastSequence = 0 ∨ a.sequence = s.lastSequence + 1)
    (above : s.lastSequence < a.sequence) :
    ∃ c, Settles s b a sampled
      (Intake.conclude a.header a.now sampled a.raw (s.accept a.sequence)) c := by
  have beyond : ∀ p ∈ b.entries, a.sequence < p.sequence := by
    intro p mem
    rcases next with zero | next
    · rw [h.started zero] at mem
      cases mem
    · exact next ▸ h.ahead p mem
  -- Nothing is left of a request, since one that is open is for this frame.
  let opened := { s with redo := 0, request := none }
  have accepted : s.accept a.sequence = (opened, .proceed, s.answered a) := by
    unfold accept answered
    dsimp only
    rw [if_neg fun back => Nat.not_le_of_lt above back.2]
    split
    · rfl
    · rename_i other
      have quiet : s.request = none := by
        cases open_ : s.request with
        | none => rfl
        | some r =>
          obtain ⟨first, waits⟩ := h.request r open_
          rcases next with zero | next
          · exact absurd (h.started zero) waits
          · rw [open_] at other
            exact absurd (congrArg some (first.trans next.symm)) other
      simp only [opened, quiet]
  have handing : opened.handOff a.sequence a.now sampled a.raw =
      ({ opened with lastSequence := a.sequence }, [.dispatch (a.package sampled)]) := by
    rw [handOff_eq (s := opened) a.now sampled a.raw (.inl above), Arrival.package, ← own]
  obtain ⟨run, c, left, consecutive, gap, drain⟩ :=
    drainContiguous_eq (s := { opened with lastSequence := a.sequence }) h.backlog bearable
      h.bearable beyond
  refine ⟨c, ?_⟩
  rw [accepted, conclude_proceed handing drain, List.append_assoc]
  exact .inTurn next above left consecutive gap

/-! ## All outcomes -/

theorem accept_settles (sampled : Bool) (h : s.Ordered b) (own : s.sensor = a.header.sensor)
    (bearable : Bearable a.sequence) (low : s.lastSequence = 0 ∨ a.sequence ≤ s.lastSequence + 1)
    (pos : s.lastSequence = 0 → 0 < a.sequence) :
    ∃ c, Settles s b a sampled
      (Intake.conclude a.header a.now sampled a.raw (s.accept a.sequence)) c := by
  rcases Nat.lt_or_ge s.lastSequence a.sequence with above | le
  · exact accept_inTurn h own bearable (by omega) above
  · cases restart : s.isRestart a.sequence with
    | true => exact ⟨_, accept_restarted h own restart⟩
    | false => exact ⟨_, accept_late h (by omega) le restart⟩

theorem settle_settles (sampled : Bool) (h : s.Ordered b) (own : s.sensor = a.header.sensor)
    (bearable : Bearable a.sequence) (started : 0 < s.lastSequence) :
    ∃ c, Settles s b a sampled
      (Intake.conclude a.header a.now sampled a.raw (s.settle a.parked)) c := by
  have sequence_eq : a.parked.sequence = a.sequence := rfl
  unfold settle
  rw [sequence_eq, h.backlog, following_eq h.last]
  split
  · rename_i ahead
    exact ⟨_, park_settles h.last started ahead⟩
  · exact accept_settles sampled h own bearable (by omega) (by omega)

/-- Everything that a frame can do to a session. -/
inductive Takes (s : Session) (b : Backlog) (a : Arrival) :
    Session × Option Reply × List Effect → Backlog → Prop
  | repeated (responds : a.responds = true) (same : a.sequence = s.lastSequence) :
      Takes s b a ((s.greet a).1, Intake.acknowledge a.header,
        [.tick .duplicates, .log (.duplicate s.sensor a.sequence)]) b
  | settled {ps : List Parked} {c d : Backlog} {r : Session × Option Reply × List Effect}
      (fresh : a.responds = true → a.sequence ≠ s.lastSequence)
      (room : Room (s.greet a).1 b a ps ((s.greet a).1.roomFor a).1 c ((s.greet a).1.roomFor a).2)
      (settles : Settles ((s.greet a).1.roomFor a).1 c a (s.greet a).2 r d) :
      Takes s b a (r.1, r.2.1, ((s.greet a).1.roomFor a).2 ++ r.2.2) d

theorem Ordered.greet (h : s.Ordered b) (a : Arrival) : (s.greet a).1.Ordered b :=
  ⟨h.backlog, h.last, h.bearable, h.ahead, h.started, h.accounted, h.maxEntries, h.maxBytes, h.quiet,
    h.request⟩

theorem conclude_append (header : Frame.Header) (now : Micros) (raw : Bytes)
    (drained : List Effect) (offered : Session × Verdict × List Effect) :
    Intake.conclude header now sampled raw (offered.1, offered.2.1, drained ++ offered.2.2) =
      let r := Intake.conclude header now sampled raw offered
      (r.1, r.2.1, drained ++ r.2.2) := by
  obtain ⟨s, verdict, effects⟩ := offered
  cases verdict <;> simp [Intake.conclude]

/-- A frame for a session in order has one of the listed outcomes. -/
theorem receive_takes (h : s.Ordered b) (own : s.sensor = a.header.sensor)
    (real : a.isNoise = false) (bearable : Bearable a.sequence) :
    ∃ c, Takes s b a (s.receive true a) c := by
  have greeted := h.greet a
  unfold receive Intake.sequence
  dsimp only
  split
  · rename_i same
    exact ⟨b, .repeated same.1 same.2⟩
  · rename_i other
    have fresh : a.responds = true → a.sequence ≠ s.lastSequence := fun x y => other ⟨x, y⟩
    rw [if_neg (by decide)]
    have offer_eq : (s.greet a).1.offer a.header.sequence a.now a.raw =
        (s.greet a).1.offer a.sequence a.now a.raw := rfl
    rw [offer_eq, offer]
    cases ahead : (s.greet a).1.isAhead a.sequence with
    | true =>
      have makes : (s.greet a).1.roomFor a = (s.greet a).1.makeRoom := if_pos ahead
      obtain ⟨ps, c, room⟩ := roomFor_room greeted a
      obtain ⟨d, settles⟩ := settle_settles (s.greet a).2 (room.ordered greeted)
        (room.sensor.trans own) bearable (room.started greeted ahead)
      have takes := Takes.settled fresh room settles
      rw [← conclude_append, makes] at takes
      exact ⟨d, takes⟩
    | false =>
      have stays : (s.greet a).1.roomFor a = ((s.greet a).1, []) := if_neg (by simp [ahead])
      have low : s.lastSequence = 0 ∨ a.sequence ≤ s.lastSequence + 1 := by
        have : s.isAhead a.sequence = false := ahead
        simp only [isAhead_eq h.last, Bool.and_eq_false_iff, decide_eq_false_iff_not] at this
        omega
      -- The first frame is not noise, so one with sequence zero would repeat the last one.
      have pos : s.lastSequence = 0 → 0 < a.sequence := by
        intro zero
        refine Nat.pos_of_ne_zero fun none_ => ?_
        have responds : a.responds = true := by
          simpa [Arrival.isNoise, none_, Intake.startupSequence] using real
        exact fresh responds (none_.trans zero.symm)
      obtain ⟨d, settles⟩ := accept_settles (s.greet a).2 greeted own bearable low pos
      have room : Room (s.greet a).1 b a [] (s.greet a).1 b [] :=
        .kept fun skips => absurd skips (by simp [ahead])
      have takes := Takes.settled (r := Intake.conclude a.header a.now (s.greet a).2 a.raw _) fresh
        (by rwa [stays]) (by rwa [stays])
      rw [stays] at takes
      exact ⟨d, takes⟩

/-! ## While there is room -/

/-- A frame that does not skip over a packet, or finds room, settles at once, unless it repeats the last
one. -/
theorem Takes.of_spare (takes : Takes s b a r c)
    (spare : s.isAhead a.sequence = true → s.isExhausted = false) :
    a.responds = true ∧ a.sequence = s.lastSequence ∧ c = b ∧
        r = ((s.greet a).1, Intake.acknowledge a.header,
          [.tick .duplicates, .log (.duplicate s.sensor a.sequence)]) ∨
      (a.responds = true → a.sequence ≠ s.lastSequence) ∧
        Settles (s.greet a).1 b a (s.greet a).2 r c := by
  cases takes with
  | repeated responds same => exact .inl ⟨responds, same, rfl, rfl⟩
  | settled fresh room settles =>
    obtain ⟨stays, rfl, nothing⟩ := room.of_spare spare
    rw [stays] at settles
    rw [nothing]
    exact .inr ⟨fresh, settles⟩

/-- Only making room gives up on a gap. -/
theorem Settles.calm (settles : Settles s b a sampled r c) (n : Nat) :
    .count .forcedDrains n ∉ r.2.2 := by
  cases settles with
  | waits =>
    simp only [repeatedly]
    split <;> simp
  | asks =>
    simp only [repeatedly, requesting]
    split <;> split <;> simp
  | inTurn =>
    simp only [answered, handed]
    split <;> simp
  | late | restarted => simp [behind, handed]

/-! ## Order is kept -/

theorem Ordered.parked (h : s.Ordered b) (bearable : Bearable a.sequence) (started : 0 < s.lastSequence)
    (ahead : s.lastSequence + 1 < a.sequence) {redo : Nat} {request : Option Request}
    (quiet : request = none → redo = 0)
    (next : ∀ r, request = some r → r.sequence = s.lastSequence + 1) :
    { s with backlog := some (b.insert a.parked).1, redo, request }.Ordered
      (b.insert a.parked).1 := by
  have filled : (b.insert a.parked).1.entries ≠ [] := by
    intro empty
    obtain ⟨p, mem, _⟩ := Backlog.contains_iff.1 (b.contains_insert a.parked)
    rw [empty] at mem
    cases mem
  refine ⟨rfl, h.last, ?_, ?_, fun zero => absurd zero (Nat.ne_of_gt started),
    h.accounted.insert a.parked, ?_, ?_, quiet, fun r open_ => ⟨next r open_, filled⟩⟩
  · intro p mem
    rcases Backlog.eq_or_mem_of_mem_insert mem with rfl | mem
    · exact bearable
    · exact h.bearable p mem
  · intro p mem
    rcases Backlog.eq_or_mem_of_mem_insert mem with rfl | mem
    · exact ahead
    · exact h.ahead p mem
  · rw [Backlog.maxEntries_insert, h.maxEntries]
  · rw [Backlog.maxBytes_insert, h.maxBytes]

theorem Settles.ordered (settles : Settles s b a sampled r c) (h : s.Ordered b)
    (bearable : Bearable a.sequence) : r.1.Ordered c := by
  cases settles with
  | waits started ahead early =>
    exact h.parked bearable started ahead h.quiet fun r open_ => (h.request r open_).1
  | asks started ahead due =>
    refine h.parked bearable started ahead nofun ?_
    rintro r ⟨⟩
    rfl
  | inTurn next above left consecutive gap =>
    have last := bearable.reach fun p mem => h.bearable p (left.mem mem)
    rw [reach_of_range' consecutive] at last
    refine h.movedTo last left gap fun zero => ?_
    omega
  | late => exact h.emptied (h.last.reach h.bearable)
  | restarted => exact h.emptied bearable

theorem Takes.ordered (takes : Takes s b a r c) (h : s.Ordered b) (bearable : Bearable a.sequence) :
    r.1.Ordered c := by
  cases takes with
  | repeated => exact h.greet a
  | settled fresh room settles => exact settles.ordered (room.ordered (h.greet a)) bearable

end Session

end SensorIngest
