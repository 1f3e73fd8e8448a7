import SensorIngest.Proofs.Intake.Delivery

/-!
# When a frame is lost

A frame that a session receives is handed on or waits, and only what was handed on is acknowledged,
unless the frame is overtaken: room is made for it, or was made before, by handing on packets with
higher sequences, and it is then taken for a late copy although it was never handed on
(`Watch.Overtakes`). `Intake.lossless_iff` says that this is the only way in which a run loses frames,
and `Intake.lost_behind_forced_drain` that it happens.
-/

namespace SensorIngest

open Intake (Effect Input)

/-- The sequences handed on by effects. -/
def Intake.Effect.sequences (effects : List Effect) : List Nat :=
  (Effect.packages effects).map (·.sequence)

namespace Session

variable {s t : Session} {b c : Backlog} {a : Arrival} {ps : List Parked} {sampled : Bool}
  {effects : List Effect} {r : Session × Option Reply × List Effect} {q : Nat}

def waits (s : Session) (sequence : Nat) : Bool := s.backlog.any (·.contains sequence)

/-- With room made for it the frame does not advance the sequence, and is no restart either. -/
def leavesBehind (s : Session) (a : Arrival) : Bool :=
  let t := ((s.greet a).1.roomFor a).1
  a.sequence ≤ t.lastSequence && !t.isRestart a.sequence

theorem Ordered.waits_eq (h : s.Ordered b) (q : Nat) : s.waits q = b.contains q := by
  rw [waits, h.backlog]
  rfl

/-! ## What waits -/

theorem sequences_package (sensor : SensorId) (ps : List Parked) :
    (ps.map (·.package sensor)).map (·.sequence) = ps.map (·.sequence) := by
  rw [List.map_map]
  rfl

theorem Room.keeps (room : Room s b a ps t c effects) (waits : b.contains q = true) :
    q ∈ Effect.sequences effects ∨ c.contains q = true := by
  rw [Effect.sequences, room.packages, sequences_package]
  exact room.releases.contains_iff.1 waits

/-- The packages of a frame that settles: what waited and is handed on, and the frame itself. -/
theorem Settles.keeps (settles : Settles s b a sampled r c) (waits : b.contains q = true) :
    q ∈ Effect.sequences r.2.2 ∨ c.contains q = true := by
  cases settles with
  | waits | asks => exact .inr (Backlog.contains_insert_of_contains waits)
  | inTurn _ _ left =>
    refine (left.contains_iff.1 waits).imp (fun mem => ?_) id
    simp only [Effect.sequences, Effect.packages_append, Effect.packages_dispatch, packages_handed,
      List.map_append, List.map_cons, sequences_package]
    exact List.mem_append_right _ (List.mem_cons_of_mem _ mem)
  | late | restarted =>
    refine (b.releases_drain.contains_iff.1 waits).imp (fun mem => ?_) id
    simp only [Effect.sequences, List.cons_append, packages_behind, Effect.packages_append,
      packages_handed, List.map_append, sequences_package]
    exact List.mem_append_left _ mem

theorem Takes.keeps (takes : Takes s b a r c) (waits : b.contains q = true) :
    q ∈ Effect.sequences r.2.2 ∨ c.contains q = true := by
  cases takes with
  | repeated => exact .inr waits
  | settled fresh room settles =>
    rw [Effect.sequences, Effect.packages_append, List.map_append]
    rcases room.keeps waits with mem | waits
    · exact .inl (List.mem_append_left _ mem)
    · exact (settles.keeps waits).imp (List.mem_append_right _) id

/-! ## The frame itself -/

/-- A frame that does not leave itself behind is handed on or waits. -/
theorem Settles.mem_or_contains (settles : Settles s b a sampled r c)
    (h : ¬(a.sequence ≤ s.lastSequence ∧ s.isRestart a.sequence = false)) :
    a.sequence ∈ Effect.sequences r.2.2 ∨ c.contains a.sequence = true := by
  cases settles with
  | waits | asks => exact .inr (b.contains_insert a.parked)
  | inTurn =>
    simp only [Effect.sequences, Effect.packages_append, Effect.packages_dispatch, List.map_append,
      List.map_cons]
    exact .inl (List.mem_append_right _ List.mem_cons_self)
  | late started le same => exact absurd ⟨le, same⟩ h
  | restarted =>
    simp only [Effect.sequences, Effect.packages_append, Effect.packages_dispatch, List.map_append,
      List.map_cons]
    exact .inl (List.mem_append_right _ List.mem_cons_self)

/-- A frame that leaves itself behind is handed on only if it waited. -/
theorem Settles.mem_or_contains_iff (settles : Settles s b a sampled r c)
    (le : a.sequence ≤ s.lastSequence) (same : s.isRestart a.sequence = false) :
    a.sequence ∈ Effect.sequences r.2.2 ∨ c.contains a.sequence = true ↔
      b.contains a.sequence = true := by
  cases settles with
  | waits started ahead | asks started ahead => omega
  | inTurn next above => omega
  | restarted restart =>
    rw [same] at restart
    cases restart
  | late =>
    have all : Effect.sequences (s.behind a false :: handed s.sensor b.entries ++
        [.tick .duplicates]) = b.entries.map (·.sequence) := by
      rw [← sequences_package s.sensor]
      simp [Effect.sequences]
    rw [all, ← b.releases_drain.contains_iff]

theorem Takes.accounted_iff (takes : Takes s b a r c) :
    (a.sequence ∈ Effect.sequences r.2.2 ∨ c.contains a.sequence = true) ∨
        a.sequence = s.lastSequence ↔
      (s.leavesBehind a = true → b.contains a.sequence = true ∨ a.sequence = s.lastSequence) := by
  cases takes with
  | repeated responds same => exact iff_of_true (.inr same) fun _ => .inr same
  | @settled ps _ _ r fresh room settles =>
    have parts : a.sequence ∈ Effect.sequences (((s.greet a).1.roomFor a).2 ++ r.2.2) ∨
          c.contains a.sequence = true ↔
        a.sequence ∈ ps.map (·.sequence) ∨
          (a.sequence ∈ Effect.sequences r.2.2 ∨ c.contains a.sequence = true) := by
      rw [Effect.sequences, Effect.packages_append, List.map_append, room.packages,
        sequences_package, List.mem_append, or_assoc]
      rfl
    rw [parts]
    cases behind_ : s.leavesBehind a with
    | true =>
      rw [leavesBehind, Bool.and_eq_true, decide_eq_true_eq, Bool.not_eq_true'] at behind_
      rw [settles.mem_or_contains_iff behind_.1 behind_.2, ← room.releases.contains_iff]
      simp
    | false =>
      refine iff_of_true (.inl (.inr (settles.mem_or_contains fun stays => ?_))) nofun
      rw [leavesBehind, decide_eq_true stays.1, stays.2] at behind_
      cases behind_

/-! ## Acknowledgements -/

theorem acknowledge_eq_some (h : Intake.acknowledge a.header = some (.ack q)) :
    q = a.sequence := by
  unfold Intake.acknowledge at h
  split at h
  · cases h
    rfl
  · cases h

/-- Only the frame itself is acknowledged, and not while it waits. -/
theorem Settles.ack (settles : Settles s b a sampled r c) (acked : r.2.1 = some (.ack q)) :
    q = a.sequence ∧ c.contains a.sequence = false := by
  cases settles with
  | waits => cases acked
  | asks => cases acked
  | inTurn next above left consecutive gap =>
    refine ⟨acknowledge_eq_some acked, Backlog.not_contains_of_lt fun p mem => ?_⟩
    have := gap p mem
    omega
  | late | restarted => exact ⟨acknowledge_eq_some acked, b.contains_drain _⟩

theorem Takes.ack (takes : Takes s b a r c) (h : s.Ordered b) (acked : r.2.1 = some (.ack q)) :
    q = a.sequence ∧ c.contains a.sequence = false := by
  cases takes with
  | repeated responds same =>
    exact ⟨acknowledge_eq_some acked, Backlog.not_contains_of_lt (same ▸ h.above)⟩
  | settled fresh room settles => exact settles.ack acked

end Session

/-! ## Runs -/

/-- The last sequence was handed on, unless it is zero. -/
theorem lastSequence_mem {ps : List Package} (pos : lastSequence 0 ps ≠ 0) :
    lastSequence 0 ps ∈ ps.map (·.sequence) := by
  rcases List.eq_nil_or_concat ps with rfl | ⟨before, p, rfl⟩
  · exact absurd rfl pos
  · simp

namespace Watch

variable {id : SensorId} {w : Watch} {now : Micros} {input : Input} {a : Arrival}

/-- Every frame received was handed on or waits, and every sequence acknowledged was handed on. -/
structure Lossless (id : SensorId) (w : Watch) : Prop where
  received : ∀ a ∈ w.received, a.sequence ∈ w.delivered.map (·.sequence) ∨
    (w.session? id).any (·.waits a.sequence) = true
  acked : ∀ q, some (.ack q) ∈ w.replies → q ∈ w.delivered.map (·.sequence)

/-- The session leaves the frame behind, although it was not handed on and does not wait. -/
def Overtakes (w : Watch) (a : Arrival) : Prop :=
  (w.intake.sessionFor a).leavesBehind a = true ∧
    (w.intake.sessionFor a).waits a.sequence = false ∧
    a.sequence ∉ w.delivered.map (·.sequence)

instance (w : Watch) (a : Arrival) : Decidable (w.Overtakes a) :=
  inferInstanceAs (Decidable (_ ∧ _ ∧ _))

/-- The sequence was handed on, or waits. -/
def Keeps (id : SensorId) (w : Watch) (sequence : Nat) : Prop :=
  sequence ∈ w.delivered.map (·.sequence) ∨ (w.session? id).any (·.waits sequence) = true

/-- What a frame finds, what becomes of it, and what is kept afterwards. -/
theorem Steady.keeps_step (h : w.Steady id)
    (own : Arrival.for? id now input = some a) (bearable : Session.Bearable a.sequence) :
    ∃ b c, (w.intake.sessionFor a).Ordered b ∧
      (w.intake.sessionFor a).Takes b a ((w.intake.sessionFor a).receive true a) c ∧
      ∀ q, (w.step id (now, input)).Keeps id q ↔
        q ∈ w.delivered.map (·.sequence) ∨
          q ∈ Effect.sequences ((w.intake.sessionFor a).receive true a).2.2 ∨
            c.contains q = true := by
  have found := h.orderly_before own
  obtain ⟨session, -, -, delivered, -⟩ := h.noted own
  obtain ⟨-, -, rfl, real⟩ := Arrival.for?_eq_some own
  obtain ⟨b, ordered⟩ := found.ordered
  obtain ⟨c, takes⟩ := Session.receive_takes ordered found.sensor real bearable
  refine ⟨b, c, ordered, takes, fun q => ?_⟩
  rw [Keeps, session, delivered, List.map_append, List.mem_append, Option.any_some,
    (takes.ordered ordered bearable).waits_eq, or_assoc]
  rfl

/-- The last sequence was handed on. -/
theorem Steady.mem_of_last (h : w.Steady id)
    (own : Arrival.for? id now input = some a) (pos : 0 < a.sequence)
    (same : a.sequence = (w.intake.sessionFor a).lastSequence) :
    a.sequence ∈ w.delivered.map (·.sequence) := by
  have top : a.sequence = lastSequence 0 w.delivered := same.trans (h.orderly_before own).last
  rw [top] at pos ⊢
  exact lastSequence_mem (Nat.ne_of_gt pos)

/-- A frame is kept exactly when it is not overtaken. -/
theorem Steady.keeps_iff (h : w.Steady id) (own : Arrival.for? id now input = some a)
    (pos : 0 < a.sequence) (bearable : Session.Bearable a.sequence) :
    (w.step id (now, input)).Keeps id a.sequence ↔ ¬w.Overtakes a := by
  have last := h.mem_of_last own pos
  obtain ⟨b, c, ordered, takes, keeps⟩ := h.keeps_step own bearable
  have accounted := takes.accounted_iff
  rw [keeps]
  constructor
  · rintro kept ⟨left, idle, missing⟩
    rcases accounted.1 (.inl (kept.resolve_left missing)) left with waits | same
    · rw [ordered.waits_eq, waits] at idle
      cases idle
    · exact missing (last same)
  · intro kept
    by_cases missing : a.sequence ∈ w.delivered.map (·.sequence)
    · exact .inl missing
    · refine .inr ((accounted.2 fun left => .inl ?_).resolve_right (missing ∘ last))
      by_contra idle
      exact kept ⟨left, by rwa [ordered.waits_eq, ← Bool.not_eq_true], missing⟩

/-- What was kept before a frame is kept afterwards: what waited leaves by being handed on only. -/
theorem Steady.keeps_of_keeps (h : w.Steady id) (own : Arrival.for? id now input = some a)
    (bearable : Session.Bearable a.sequence) {q : Nat} (kept : w.Keeps id q) :
    (w.step id (now, input)).Keeps id q := by
  obtain ⟨b, c, ordered, takes, keeps⟩ := h.keeps_step own bearable
  obtain ⟨-, -, rfl, -⟩ := Arrival.for?_eq_some own
  refine (keeps q).2 (kept.imp_right fun waits => takes.keeps ?_)
  obtain ⟨s, live, waits⟩ := (Option.any_eq_true _ _).1 waits
  have same : w.intake.sessionFor a = s := by
    rw [session?] at live
    rw [Intake.sessionFor, live]
    rfl
  rwa [← ordered.waits_eq, same]

/-- What a frame acknowledges is the frame itself, and handed on if it is kept. -/
theorem Steady.mem_of_ack (h : w.Steady id) (own : Arrival.for? id now input = some a)
    (bearable : Session.Bearable a.sequence) (kept : (w.step id (now, input)).Keeps id a.sequence)
    {q : Nat} (acked : ((w.intake.sessionFor a).receive true a).2.1 = some (.ack q)) :
    q ∈ (w.step id (now, input)).delivered.map (·.sequence) := by
  obtain ⟨-, -, -, delivered, -⟩ := h.noted own
  obtain ⟨b, c, ordered, takes, keeps⟩ := h.keeps_step own bearable
  obtain ⟨rfl, gone⟩ := takes.ack ordered acked
  rw [delivered, List.map_append, List.mem_append]
  refine ((keeps _).1 kept).imp_right fun rest => rest.resolve_right ?_
  rw [gone]
  exact Bool.false_ne_true

/-- A frame leaves a run lossless exactly when it is not overtaken. -/
theorem Steady.lossless_some (h : w.Steady id) (own : Arrival.for? id now input = some a)
    (pos : 0 < a.sequence) (bearable : Session.Bearable a.sequence) (lossless : w.Lossless id) :
    (w.step id (now, input)).Lossless id ↔ ¬w.Overtakes a := by
  obtain ⟨-, received, replies, delivered, -⟩ := h.noted own
  rw [← h.keeps_iff own pos bearable]
  constructor
  · intro after
    exact after.received a (by simp [received])
  · intro kept
    refine ⟨fun x mem => ?_, fun q mem => ?_⟩
    · rw [received, List.mem_append, List.mem_singleton] at mem
      rcases mem with mem | rfl
      · exact h.keeps_of_keeps own bearable (lossless.received x mem)
      · exact kept
    · rw [replies, List.mem_append, List.mem_singleton] at mem
      rcases mem with mem | acked
      · rw [delivered, List.map_append, List.mem_append]
        exact .inl (lossless.acked q mem)
      · exact h.mem_of_ack own bearable kept acked.symm

/-- Any other input leaves a run lossless. -/
theorem Faithful.lossless_none (h : w.Faithful true true id)
    (other : Arrival.for? id now input = none) (lossless : w.Lossless id) :
    (w.step id (now, input)).Lossless id := by
  rcases step_of_none h.keyed other with
    ⟨session, received, replies, effects⟩ | ⟨session, received, replies, effects⟩
  · constructor
    · rw [received]
      nofun
    · rw [replies]
      nofun
  · constructor
    · rw [received, session, delivered, effects]
      exact lossless.received
    · rw [replies, delivered, effects]
      exact lossless.acked

end Watch

/-- A run on sequences with others behind them, and none of them zero, loses nothing exactly when no
frame is overtaken. -/
theorem Intake.lossless_iff (readings : Counters) (id : SensorId) (inputs : List (Micros × Input))
    (counted : ∀ x ∈ inputs, ∀ a, Arrival.for? id x.1 x.2 = some a →
      0 < a.sequence ∧ Session.Bearable a.sequence) :
    (∀ pre, pre <+: inputs → ((Intake.new true).watch readings id pre).Lossless id) ↔
      ∀ pre now input a, pre ++ [(now, input)] <+: inputs → Arrival.for? id now input = some a →
        ¬((Intake.new true).watch readings id pre).Overtakes a := by
  have steady {pre : List (Micros × Input)} (upto : pre <+: inputs) :
      ((new true).watch readings id pre).Steady id :=
    watch_steady readings id fun x mem a own => (counted x (upto.subset mem) a own).2
  constructor
  · intro lossless pre now input a upto own
    have earlier := (List.prefix_append _ _).trans upto
    obtain ⟨pos, bearable⟩ := counted (now, input) (upto.subset (by simp)) a own
    have after := lossless _ upto
    rw [watch, List.foldl_append] at after
    exact ((steady earlier).lossless_some own pos bearable (lossless pre earlier)).1 after
  · intro kept pre upto
    induction pre using List.reverseRecOn with
    | nil => exact ⟨nofun, nofun⟩
    | append_singleton pre x ih =>
      obtain ⟨now, input⟩ := x
      have earlier := (List.prefix_append _ _).trans upto
      have before := ih earlier
      rw [watch, List.foldl_append]
      cases own : Arrival.for? id now input with
      | none => exact (steady earlier).lossless_none own before
      | some a =>
        obtain ⟨pos, bearable⟩ := counted (now, input) (upto.subset (by simp)) a own
        exact ((steady earlier).lossless_some own pos bearable before).2
          (kept pre now input a upto own)

/-- A gap that is given up on with the last of these frames. -/
def Intake.givenUp : List (Micros × Input) :=
  [10, 12, 13, 14, 15, 16, 17].zipIdx.map fun (sequence, place) =>
    probe (place * (Session.resendInterval + 1)) sequence

/-- The frame that is missing there. -/
def Intake.missing : Micros × Input := probe 40000000 11

/-- The frame that was missing is asked for, arrives, is acknowledged, and is lost. -/
theorem Intake.lost_behind_forced_drain :
    let inputs := givenUp ++ [missing]
    let w := (Intake.new true).watch {} (.ofNat 7) inputs
    w.delivered.map (·.sequence) = [10, 12, 13, 14, 15, 16, 17] ∧
      some (.resend (.ofNat 7) 11) ∈ w.replies ∧ some (.ack 11) ∈ w.replies ∧
      ¬∀ pre, pre <+: inputs → ((Intake.new true).watch {} (.ofNat 7) pre).Lossless (.ofNat 7) := by
  intro inputs w
  refine ⟨by decide +kernel, by decide +kernel, by decide +kernel, fun lossless => ?_⟩
  have counted : ∀ x ∈ inputs, ∀ a, Arrival.for? (.ofNat 7) x.1 x.2 = some a →
      0 < a.sequence ∧ Session.Bearable a.sequence := by
    have all : inputs.all fun x => (Arrival.for? (.ofNat 7) x.1 x.2).all fun a =>
        0 < a.sequence ∧ Session.Bearable a.sequence := by decide +kernel
    intro x mem a own
    simpa [own] using List.all_eq_true.1 all x mem
  have kept := (lossless_iff {} (.ofNat 7) inputs counted).1 lossless givenUp
  have overtaken : (Arrival.for? (.ofNat 7) (missing).1 (missing).2).any fun a =>
      ((Intake.new true).watch {} (.ofNat 7) givenUp).Overtakes a := by decide +kernel
  obtain ⟨a, own, overtakes⟩ := (Option.any_eq_true _ _).1 overtaken
  exact kept _ _ a (List.prefix_refl _) own (of_decide_eq_true overtakes)

end SensorIngest
