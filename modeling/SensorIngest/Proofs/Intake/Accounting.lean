import Mathlib.Data.List.Induction
import SensorIngest.Proofs.Intake.Step
import SensorIngest.Proofs.Session.Balance

/-!
# The books of the receive path

A `Ledger` is the receive path with what it has counted, the packages that it has handed on and
the sessions that it has ended. After every run each frame counted is in one place: it was handed
on, waits in a session, live or ended, or is one of the duplicates (`Ledger.Accounts`). The
counters say how many there are of each kind (`Intake.frames_accounted`).
-/

namespace SensorIngest

open Intake (Effect Input)
open scoped List

/-! ## Readings -/

def AdjustmentCounts.reading (c : AdjustmentCounts) : Adjustment → Nat
  | .aligned => c.aligned
  | .broken => c.broken
  | .dropped => c.dropped
  | .corrected => c.corrected
  | .reset => c.reset

namespace Counters

/-- How much of a tally has been counted. -/
def reading (c : Counters) : Tally → Nat
  | .packets => c.packets
  | .bytes => c.bytes
  | .startupDrops => c.startupDrops
  | .duplicates => c.duplicates
  | .malformed => c.malformed
  | .decodeErrors => c.decodeErrors
  | .missingSegments => c.missingSegments
  | .resendRequests => c.resendRequests
  | .resendTotal => c.resendTotal
  | .resendSuccess => c.resendSuccess
  | .forcedDrains => c.forcedDrains
  | .dispatched => c.dispatched
  | .sinkErrors => c.sinkErrors
  | .adjusted kind => c.adjusted.reading kind

theorem reading_count (c : Counters) (n : Nat) (other tally : Tally) :
    (c.count n other).reading tally = c.reading tally + if other = tally then n else 0 := by
  cases other with
  | adjusted kind =>
    cases tally with
    | adjusted kind' => cases kind <;> cases kind' <;> rfl
    | _ => rfl
  | _ => cases tally <;> rfl

theorem reading_move (c : Counters) (step : Int) (gauge : Gauge) (tally : Tally) :
    (c.move step gauge).reading tally = c.reading tally := by
  cases gauge <;> cases tally <;> rfl

end Counters

namespace Intake.Effect

/-- A tally counts what effects add to it, and `dispatched` also each package handed on. -/
theorem reading_applyAll (c : Counters) (effects : List Effect) (tally : Tally) :
    (applyAll c effects).reading tally = c.reading tally + total tally effects +
      if tally = .dispatched then (packages effects).length else 0 := by
  induction effects generalizing c with
  | nil => simp [applyAll]
  | cons e effects ih =>
    rw [applyAll, List.foldl_cons]
    refine (ih (applyTo c e)).trans ?_
    cases e with
    | count other n =>
      rw [applyTo, Counters.reading_count, total_count, packages_count]
      omega
    | move gauge step => rw [applyTo, Counters.reading_move, total_move, packages_move]
    | log event => rw [applyTo, total_log, packages_log]
    | forget id => rw [applyTo, total_forget, packages_forget]
    | dispatch p =>
      rw [applyTo, Counters.reading_count, total_dispatch, packages_dispatch, List.length_cons]
      simp only [eq_comm (a := Tally.dispatched)]
      split <;> omega

end Intake.Effect

/-! ## What inputs are -/

/-- Counted of an input as such. -/
def Tally.ofInput : Tally → Bool
  | packets | bytes | startupDrops | malformed => true
  | _ => false

namespace Intake

variable {i : Intake} {readings : Counters} {now : Micros} {input : Input} {a : Arrival}

def Input.isFrame : Input → Bool
  | .frame .. => true
  | _ => false

/-- The frame that an input brings to a session. -/
def Input.counted? (now : Micros) (input : Input) : Option Arrival :=
  (Arrival.of? now input).filter (!·.isNoise)

/-- Reported by the connection as something that is not a frame. -/
def Input.isMalformed : Input → Bool
  | .malformed .. => true
  | _ => false

/-- A frame whose header cannot be read. -/
def Input.isUnreadable (now : Micros) (input : Input) : Bool :=
  input.isFrame && (Arrival.of? now input).isNone

/-- The frames that reach a session. -/
def counted (inputs : List (Micros × Input)) : List Arrival :=
  inputs.filterMap fun x => x.2.counted? x.1

theorem counted_append_singleton (inputs : List (Micros × Input)) (x : Micros × Input) :
    counted (inputs ++ [x]) = counted inputs ++ (x.2.counted? x.1).toList := by
  rw [counted, List.filterMap_append]
  cases found : x.2.counted? x.1 <;> simp [counted, found]

theorem Input.counted?_eq_some (h : input.counted? now = some a) :
    now = a.now ∧ input = .frame a.peer a.raw ∧ a.isNoise = false := by
  obtain ⟨found, real⟩ := Option.filter_eq_some_iff.1 h
  obtain ⟨rfl, rfl⟩ := Arrival.of?_eq_some found
  exact ⟨rfl, rfl, by simpa using real⟩

/-- The session of a sensor gets the frames counted that are the sensor's. -/
theorem for?_eq_counted (id : SensorId) (now : Micros) (input : Input) :
    Arrival.for? id now input = (input.counted? now).filter (·.header.sensor = id) := by
  rw [Arrival.for?, Input.counted?, Option.filter_filter]
  exact congrArg (Option.filter · _) (funext fun a => Bool.and_comm _ _)

/-- What counts of an input as such. -/
def Input.charges (now : Micros) (input : Input) : List Effect :=
  match Arrival.of? now input with
  | some a =>
    if a.isNoise then [.tick .startupDrops] else [.tick .packets, .count .bytes a.raw.length]
  | none => if input.isMalformed || input.isUnreadable now then [.tick .malformed] else []

theorem total_preface (a : Arrival) (resend created : Bool) (tally : Tally) :
    Effect.total tally (a.preface resend created) =
      Effect.total tally [.tick .packets, .count .bytes a.raw.length] := by
  unfold Arrival.preface
  split <;> split <;> simp

/-- An input counts for what it is, whatever its session does with it. -/
theorem total_step (i : Intake) (readings : Counters) (now : Micros) (input : Input) {tally : Tally}
    (own : tally.ofSession = false ∨ input.counted? now = none) :
    Effect.total tally (i.step readings now input).effects =
      Effect.total tally (input.charges now) := by
  unfold Input.charges
  cases found : Arrival.of? now input with
  | some a =>
    rw [Input.counted?, found, Option.filter_eq_none_iff] at own
    obtain ⟨rfl, rfl⟩ := Arrival.of?_eq_some found
    dsimp only [step]
    cases noise : a.isNoise with
    | true => simp [receive_noise noise]
    | false =>
      have foreign : tally.ofSession = false := own.resolve_right fun none => by
        simpa [noise] using none a rfl
      have still := ((i.sessionFor a).receive_balanced i.resend a).foreign tally foreign
      rw [effects_receive noise, Effect.total_append, total_preface, still]
      rfl
  | none =>
    cases input with
    | opened | tick => simp [step, Input.isMalformed, Input.isUnreadable, Input.isFrame]
    | malformed => simp [step, refuse, Input.isMalformed]
    | closed peer =>
      have forget (ids : List SensorId) : Effect.total tally (ids.map Effect.forget) = 0 := by
        induction ids with
        | nil => rfl
        | cons _ _ ih => rw [List.map_cons, Effect.total_forget, ih]
      simp [step, close, forget, Input.isMalformed, Input.isUnreadable, Input.isFrame]
    | frame peer raw =>
      have unreadable : Input.isUnreadable now (.frame peer raw) = true := by
        rw [Input.isUnreadable, found]
        rfl
      cases read : Frame.Header.read raw with
      | error reason => simp [step, receive, read, refuse, unreadable]
      | ok header => rw [Arrival.of?_frame now peer read] at found; cases found

theorem forgotten_step (i : Intake) (readings : Counters) (now : Micros)
    (open_ : ∀ peer, input ≠ .closed peer) :
    Effect.forgotten (i.step readings now input).effects = [] := by
  cases input with
  | opened | malformed | tick => rfl
  | closed peer => exact absurd rfl (open_ peer)
  | frame peer raw =>
    cases read : Frame.Header.read raw with
    | error reason =>
      simp only [step, receive, read]
      rfl
    | ok header =>
      let a : Arrival := ⟨now, peer, raw, header, read⟩
      change Effect.forgotten (i.receive a.now a.peer a.raw).effects = []
      cases noise : a.isNoise with
      | true =>
        rw [receive_noise noise]
        rfl
      | false =>
        have preface (created : Bool) : Effect.forgotten (a.preface i.resend created) = [] := by
          unfold Arrival.preface
          split <;> split <;> rfl
        rw [effects_receive noise, Effect.forgotten_append, preface,
          ((i.sessionFor a).receive_balanced i.resend a).kept, List.append_nil]

theorem Input.total_charges (now : Micros) (input : Input) :
    let total (tally : Tally) := Effect.total tally (input.charges now)
    let unreadable := if input.isUnreadable now then 1 else 0
    total .dispatched = 0 ∧
      total .packets = (input.counted? now).toList.length ∧
      total .bytes = ((input.counted? now).toList.flatMap (·.raw)).length ∧
      total .malformed = (if input.isMalformed then 1 else 0) + unreadable ∧
      total .packets + total .startupDrops + unreadable = if input.isFrame then 1 else 0 := by
  unfold Input.charges Input.counted? Input.isUnreadable
  cases found : Arrival.of? now input with
  | some a =>
    obtain ⟨rfl, rfl⟩ := Arrival.of?_eq_some found
    cases noise : a.isNoise <;>
      simp [noise, Option.filter_some, Input.isMalformed, Input.isFrame]
  | none => cases input <;> simp [Input.isMalformed, Input.isFrame]

/-- How much inputs as such add to a tally. -/
def charged (tally : Tally) (inputs : List (Micros × Input)) : Nat :=
  Effect.total tally (inputs.flatMap fun x => x.2.charges x.1)

def unreadable (inputs : List (Micros × Input)) : Nat :=
  inputs.countP fun x => x.2.isUnreadable x.1

theorem charged_eq (inputs : List (Micros × Input)) :
    charged .dispatched inputs = 0 ∧
      charged .packets inputs = (counted inputs).length ∧
      charged .bytes inputs = ((counted inputs).flatMap (·.raw)).length ∧
      charged .malformed inputs = inputs.countP (·.2.isMalformed) + unreadable inputs ∧
      charged .packets inputs + charged .startupDrops inputs + unreadable inputs =
        inputs.countP (·.2.isFrame) := by
  induction inputs with
  | nil => exact ⟨rfl, rfl, rfl, rfl, rfl⟩
  | cons x rest ih =>
    have one := x.2.total_charges x.1
    have split : counted (x :: rest) = (x.2.counted? x.1).toList ++ counted rest := by
      rw [counted, List.filterMap_cons]
      cases x.2.counted? x.1 <;> rfl
    simp only [charged, unreadable, List.flatMap_cons, Effect.total_append, List.countP_cons,
      split, List.length_append, List.flatMap_append] at one ih ⊢
    omega

/-- An input as such does not count for the rest. -/
theorem Input.total_charges_of_ne {tally : Tally} (apart : tally.ofInput = false) :
    Effect.total tally (input.charges now) = 0 := by
  refine Effect.total_eq_zero fun n mem => ?_
  unfold Input.charges at mem
  split at mem
  · split at mem
    · obtain ⟨rfl, -⟩ : tally = .startupDrops ∧ n = 1 := by simpa using mem
      cases apart
    · rcases List.mem_pair.1 mem with same | same <;> cases same <;> cases apart
  · split at mem
    · obtain ⟨rfl, -⟩ : tally = .malformed ∧ n = 1 := by simpa using mem
      cases apart
    · cases mem

theorem charged_of_lane {tally : Tally} (lane : tally.ofLane = true)
    (inputs : List (Micros × Input)) : charged tally inputs = 0 := by
  have apart : tally.ofInput = false := by cases tally <;> first | rfl | cases lane
  induction inputs with
  | nil => rfl
  | cons x rest ih =>
    rw [charged, List.flatMap_cons, Effect.total_append, Input.total_charges_of_ne apart]
    exact (Nat.zero_add _).trans ih

theorem packages_step_of_uncounted (keyed : i.Keyed) (other : input.counted? now = none) :
    Effect.packages (i.step readings now input).effects = [] := by
  refine List.eq_nil_iff_forall_not_mem.2 fun p mem => ?_
  have apart : Arrival.for? p.sensor now input = none := by
    rw [Input.counted?, Option.filter_eq_none_iff] at other
    refine Option.filter_eq_none_iff.2 fun a found => ?_
    have noise := other a found
    simp_all
  have nothing : (Effect.packages (i.step readings now input).effects).filter
      (·.sensor = p.sensor) = [] := packages_step_of_none keyed apart
  rw [List.filter_eq_nil_iff] at nothing
  exact nothing p mem (decide_eq_true rfl)

/-! ## Live sessions -/

def live (i : Intake) : List Session := i.registry.sessions.values

theorem live_receive (keyed : i.Keyed) (real : a.isNoise = false) :
    ∃ others, i.live ~ (i.registry.get? a.header.sensor).toList ++ others ∧
      (i.receive a.now a.peer a.raw).intake.live ~
        ((i.sessionFor a).receive i.resend a).1 :: others := by
  obtain ⟨others, found, insert⟩ := i.registry.sessions.values_insert_getOrInsert
    a.header.sensor (.new a.header.sensor a.peer i.registry.buffering)
  refine ⟨others, found, ?_⟩
  have own := ((i.sessionFor a).receive_speaks (keyed.sessionFor a) i.resend a).1
  rw [receive_arrival real]
  dsimp only
  rw [session_fst]
  simp only [live, Registry.put, own]
  exact insert _

theorem live_step_of_uncounted (readings : Counters) (other : input.counted? now = none) :
    (i.step readings now input).intake.live = i.live.filter input.spares := by
  have same : i.live = i.live.filter fun _ => true := (List.filter_eq_self.2 fun _ _ => rfl).symm
  cases input with
  | opened | malformed | tick => exact same
  | closed peer => exact ShardedMap.values_retain _ _
  | frame peer raw =>
    refine Eq.trans ?_ same
    cases read : Frame.Header.read raw with
    | error reason => simp only [step, receive, read]
    | ok header =>
      let a : Arrival := ⟨now, peer, raw, header, read⟩
      change (i.receive a.now a.peer a.raw).intake.live = _
      rw [Input.counted?, Arrival.of?_frame now peer read, Option.filter_eq_none_iff] at other
      have noise : a.isNoise = true := by simpa using other a rfl
      rw [receive_noise noise]

end Intake

/-! ## The ledger -/

/-- What a package, a packet or a frame is known by: its sensor, sequence, arrival and octets. -/
def Package.tag (p : Package) : SensorId × Parked := (p.sensor, p.parked)

def Arrival.tag (a : Arrival) : SensorId × Parked := (a.header.sensor, a.parked)

def Session.tags (s : Session) : List (SensorId × Parked) := s.waiting.map (s.sensor, ·)

theorem Session.receive_tags {s : Session} {a : Arrival} (h : s.sensor = a.header.sensor)
    (resend : Bool) :
    ∃ repeated : List (SensorId × Parked),
      repeated.length = Effect.total .duplicates (s.receive resend a).2.2 ∧
      a.tag :: s.tags ~ (Effect.packages (s.receive resend a).2.2).map Package.tag ++
        ((s.receive resend a).1.tags ++ repeated) := by
  obtain ⟨repeated, count, split⟩ := (s.receive_balanced resend a).split
  obtain ⟨same, packages⟩ := s.receive_speaks h resend a
  refine ⟨repeated.map (a.header.sensor, ·), by rw [List.length_map, count], ?_⟩
  have handed : (Effect.packages (s.receive resend a).2.2).map Package.tag =
      ((Effect.packages (s.receive resend a).2.2).map Package.parked).map (a.header.sensor, ·) := by
    rw [List.map_map]
    refine List.map_congr_left fun p mem => ?_
    rw [Package.tag, packages p mem]
    rfl
  rw [handed, Session.tags, Session.tags, h, same, ← List.map_append, ← List.map_append]
  exact split.map _

theorem length_tags (sessions : List Session) :
    (sessions.flatMap Session.tags).length = (sessions.flatMap Session.waiting).length := by
  induction sessions with
  | nil => rfl
  | cons s rest ih =>
    rw [List.flatMap_cons, List.flatMap_cons, List.length_append, List.length_append, ih,
      Session.tags, List.length_map]

theorem Intake.tags_get? (i : Intake) (a : Arrival) :
    (i.registry.get? a.header.sensor).toList.flatMap Session.tags = (i.sessionFor a).tags := by
  unfold Intake.sessionFor
  cases i.registry.get? a.header.sensor with
  | none => cases hb : i.registry.buffering <;> rfl
  | some s => exact List.append_nil _

/-- The receive path with what it has counted and handed on, and the sessions that have ended. -/
structure Ledger where
  intake : Intake
  readings : Counters := {}
  handed : List Package := []
  closed : List Session := []

namespace Ledger

variable {l : Ledger} {inputs : List (Micros × Input)} {x : Micros × Input} {a : Arrival}

def step (l : Ledger) : Micros × Input → Ledger
  | (now, input) =>
    let outcome := l.intake.step l.readings now input
    { intake := outcome.intake
      readings := Effect.applyAll l.readings outcome.effects
      handed := l.handed ++ Effect.packages outcome.effects
      closed := l.closed ++ l.intake.live.filter (!input.spares ·) }

/-- Takes in inputs one after the other, from a receive path that has seen nothing yet. -/
def after (resend buffering : Bool) (inputs : List (Micros × Input)) : Ledger :=
  inputs.foldl step { intake := ⟨resend, { buffering }⟩ }

theorem after_append_singleton (resend buffering : Bool) (inputs : List (Micros × Input))
    (x : Micros × Input) :
    after resend buffering (inputs ++ [x]) = (after resend buffering inputs).step x := by
  rw [after, List.foldl_append]
  rfl

/-- What is handed on and counted in the end, by the effects of the run. -/
theorem foldl_step (l : Ledger) (inputs : List (Micros × Input)) :
    let effects := (l.intake.run l.readings inputs).flatMap (·.effects)
    (inputs.foldl step l).handed = l.handed ++ Effect.packages effects ∧
      (inputs.foldl step l).readings = Effect.applyAll l.readings effects := by
  induction inputs generalizing l with
  | nil => exact ⟨(List.append_nil _).symm, rfl⟩
  | cons x inputs ih =>
    obtain ⟨handed, readings⟩ := ih (l.step x)
    rw [List.foldl_cons]
    refine ⟨handed.trans ?_, readings.trans ?_⟩
    · simp only [step, List.append_assoc, ← Effect.packages_append]
      rfl
    · exact List.foldl_append.symm

/-- What waits in sessions, live or ended. -/
def waiting (l : Ledger) : List (SensorId × Parked) :=
  l.intake.live.flatMap Session.tags ++ l.closed.flatMap Session.tags

/-- Every frame counted is in one place. -/
structure Accounts (inputs : List (Micros × Input)) (l : Ledger) : Prop where
  keyed : l.intake.Keyed
  split : ∃ repeated : List (SensorId × Parked), repeated.length = l.readings.duplicates ∧
    (Intake.counted inputs).map Arrival.tag ~ l.handed.map Package.tag ++ (l.waiting ++ repeated)
  charges : ∀ tally : Tally, tally.ofSession = false →
    l.readings.reading tally =
      Intake.charged tally inputs + if tally = .dispatched then l.handed.length else 0

theorem Accounts.reading_of_lane (h : l.Accounts inputs) {tally : Tally}
    (lane : tally.ofLane = true) : l.readings.reading tally = 0 := by
  have foreign : tally.ofSession = false := by cases tally <;> first | rfl | cases lane
  have undispatched : tally ≠ .dispatched := by
    rintro rfl
    cases lane
  rw [h.charges tally foreign, Intake.charged_of_lane lane, if_neg undispatched]

theorem Accounts.charges_step (h : l.Accounts inputs) (x : Micros × Input) {tally : Tally}
    (foreign : tally.ofSession = false) :
    (l.step x).readings.reading tally = Intake.charged tally (inputs ++ [x]) +
      if tally = .dispatched then (l.step x).handed.length else 0 := by
  obtain ⟨now, input⟩ := x
  simp only [step]
  rw [Effect.reading_applyAll, h.charges tally foreign,
    Intake.total_step l.intake l.readings now input (.inl foreign), Intake.charged, Intake.charged,
    List.flatMap_append, Effect.total_append, List.flatMap_singleton, List.length_append]
  dsimp only
  split <;> omega

/-- An input that reaches no session moves what waits in sessions that end. -/
theorem Accounts.split_of_none (h : l.Accounts inputs) (other : x.2.counted? x.1 = none) :
    ∃ repeated : List (SensorId × Parked), repeated.length = (l.step x).readings.duplicates ∧
      (Intake.counted (inputs ++ [x])).map Arrival.tag ~
        (l.step x).handed.map Package.tag ++ ((l.step x).waiting ++ repeated) := by
  obtain ⟨now, input⟩ := x
  obtain ⟨repeated, count, split⟩ := h.split
  refine ⟨repeated, ?_, ?_⟩
  · have still := Effect.reading_applyAll l.readings (l.intake.step l.readings now input).effects
      .duplicates
    rw [Intake.total_step _ _ _ _ (.inr other), Intake.Input.total_charges_of_ne rfl] at still
    exact count.trans still.symm
  · have kept :=
      (List.filter_append_perm input.spares l.intake.live).symm.flatMap_right Session.tags
    rw [List.flatMap_append] at kept
    simp only [step, waiting, Intake.counted_append_singleton, other, Option.toList_none,
      List.append_nil, Intake.packages_step_of_uncounted h.keyed other,
      Intake.live_step_of_uncounted l.readings other, List.flatMap_append]
    refine split.trans (List.Perm.append_left _ (List.Perm.append_right _ ?_))
    rw [waiting, ← List.append_assoc]
    refine (kept.append_right _).trans ?_
    rw [List.append_assoc, List.append_assoc]
    exact List.perm_append_comm.append_left _

/-- A frame for a session is handed on with what waited for it, waits, or is a duplicate. -/
theorem Accounts.split_of_some (h : l.Accounts inputs) (own : x.2.counted? x.1 = some a) :
    ∃ repeated : List (SensorId × Parked), repeated.length = (l.step x).readings.duplicates ∧
      (Intake.counted (inputs ++ [x])).map Arrival.tag ~
        (l.step x).handed.map Package.tag ++ ((l.step x).waiting ++ repeated) := by
  obtain ⟨now, input⟩ := x
  have found : input.counted? now = some a := own
  obtain ⟨rfl, rfl, real⟩ := Intake.Input.counted?_eq_some own
  obtain ⟨others, before, after⟩ := Intake.live_receive h.keyed real
  obtain ⟨repeated, count, split⟩ := h.split
  obtain ⟨more, count_more, split_more⟩ :=
    (l.intake.sessionFor a).receive_tags (h.keyed.sessionFor a) l.intake.resend
  have effects := Intake.effects_receive (i := l.intake) real
  refine ⟨repeated ++ more, ?_, ?_⟩
  · have added := Effect.reading_applyAll l.readings
      (l.intake.receive a.now a.peer a.raw).effects .duplicates
    rw [effects, Effect.total_append, Intake.total_preface] at added
    rw [List.length_append, count, count_more]
    simp [Counters.reading] at added
    simp only [step, Intake.step, effects]
    omega
  · have lived := before.flatMap_right Session.tags
    have lives := after.flatMap_right Session.tags
    have handed : Effect.packages (l.intake.receive a.now a.peer a.raw).effects =
        Effect.packages ((l.intake.sessionFor a).receive l.intake.resend a).2.2 := by
      rw [effects, Effect.packages_append, Arrival.packages_preface, List.nil_append]
    rw [List.flatMap_append, l.intake.tags_get?] at lived
    rw [List.flatMap_cons] at lives
    have none : (Input.frame a.peer a.raw).spares = fun _ => true := rfl
    simp only [step, waiting, Intake.counted_append_singleton, found, Option.toList_some,
      Intake.step, handed, List.map_append, List.map_cons, List.map_nil, none, Bool.not_true,
      List.filter_false, List.append_nil] at split ⊢
    -- Everything is an append up to order here, so it is enough to count each tag.
    rw [List.perm_iff_count] at split split_more lived lives ⊢
    intro tag
    specialize split tag
    specialize split_more tag
    specialize lived tag
    specialize lives tag
    simp only [List.count_append, List.count_cons, List.count_nil] at split split_more lived lives ⊢
    omega

theorem Accounts.step (h : l.Accounts inputs) (x : Micros × Input) :
    (l.step x).Accounts (inputs ++ [x]) where
  keyed := h.keyed.step l.readings x.1 x.2
  split := by
    cases own : x.2.counted? x.1 with
    | none => exact h.split_of_none own
    | some a => exact h.split_of_some own
  charges tally foreign := h.charges_step x foreign

theorem accounts_after (resend buffering : Bool) (inputs : List (Micros × Input)) :
    (after resend buffering inputs).Accounts inputs := by
  induction inputs using List.reverseRecOn with
  | nil =>
    have none : ({ buffering } : Registry).sessions.values = [] := ShardedMap.values_empty _
    refine ⟨Intake.keyed_empty resend buffering, ⟨[], rfl, ?_⟩, fun tally foreign => ?_⟩
    · simp [after, waiting, Intake.live, none, Intake.counted]
    · cases tally with
      | adjusted kind => cases kind <;> rfl
      | _ => rfl
  | append_singleton inputs x ih =>
    rw [after_append_singleton]
    exact ih.step x

end Ledger

/-- Whatever the settings, after every run each input and each frame counted is accounted for, and
each package handed on is one of the frames counted. -/
theorem Intake.frames_accounted (resend buffering : Bool) (inputs : List (Micros × Input)) :
    let l := Ledger.after resend buffering inputs
    inputs.countP (·.2.isFrame) =
        l.readings.packets + l.readings.startupDrops + unreadable inputs ∧
      l.readings.malformed = inputs.countP (·.2.isMalformed) + unreadable inputs ∧
      l.readings.packets = (counted inputs).length ∧
      l.readings.bytes = ((counted inputs).flatMap (·.raw)).length ∧
      l.readings.packets = l.readings.dispatched + l.readings.duplicates +
        (l.intake.live.flatMap Session.waiting).length +
        (l.closed.flatMap Session.waiting).length ∧
      l.readings.dispatched = l.handed.length ∧
      (l.handed.map Package.tag).Subperm ((counted inputs).map Arrival.tag) := by
  intro l
  have accounts : l.Accounts inputs := Ledger.accounts_after resend buffering inputs
  obtain ⟨repeated, count, split⟩ := accounts.split
  obtain ⟨none, counts⟩ := charged_eq inputs
  have total := split.length_eq
  simp only [List.length_append, List.length_map, Ledger.waiting, length_tags] at total
  have packets : l.readings.packets = charged .packets inputs := accounts.charges .packets rfl
  have bytes : l.readings.bytes = charged .bytes inputs := accounts.charges .bytes rfl
  have noise : l.readings.startupDrops = charged .startupDrops inputs :=
    accounts.charges .startupDrops rfl
  have malformed : l.readings.malformed = charged .malformed inputs :=
    accounts.charges .malformed rfl
  have dispatched : l.readings.dispatched = l.handed.length := by
    have := accounts.charges .dispatched rfl
    rwa [none, Nat.zero_add] at this
  have found : (l.handed.map Package.tag).Subperm ((counted inputs).map Arrival.tag) :=
    (List.sublist_append_left _ _).subperm.trans split.symm.subperm
  rw [packets, bytes, noise, malformed]
  refine ⟨?_, ?_, ?_, ?_, ?_, dispatched, found⟩ <;> omega

end SensorIngest
