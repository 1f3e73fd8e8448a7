import SensorIngest.Intake.Basic

/-!
# What a frame does to its session

An `Arrival` is a frame that the receive path can read. `Session.receive` is all that it does to the
session of its sensor, and `Intake.receive_arrival` says that it does nothing else: the receive path
looks the session up, lets it receive, and puts it back. A session speaks for its own sensor only
(`Session.receive_speaks`), whatever the settings.
-/

namespace SensorIngest

open Intake (Effect)

/-- A frame with a header, when and from where it came. -/
structure Arrival where
  now : Micros
  peer : Endpoint
  raw : Bytes
  header : Frame.Header
  read : Frame.Header.read raw = .ok header

namespace Arrival

def sequence (a : Arrival) : Nat := a.header.sequence

def responds (a : Arrival) : Bool := a.header.flags.response

/-- The frame is boot noise, which no session gets to see. -/
def isNoise (a : Arrival) : Bool := a.sequence ≤ Intake.startupSequence && !a.responds

theorem isNoise_iff {a : Arrival} :
    a.isNoise = true ↔ a.sequence ≤ Intake.startupSequence ∧ (!a.responds) = true := by
  simp [isNoise]

/-- The frame as it is parked. -/
def parked (a : Arrival) : Parked := ⟨a.sequence, a.now, a.raw⟩

/-- The frame as it is handed on when its turn has come. -/
def package (a : Arrival) (sampled : Bool) : Package :=
  ⟨a.header.sensor, a.sequence, a.now, sampled, a.raw⟩

/-- What is counted and logged of a frame before its session receives it. -/
def preface (a : Arrival) (resend created : Bool) : List Effect :=
  (if a.header.flags.endOfStream then [.log (.endOfStream a.header.sensor a.sequence)] else []) ++
    (if created then [.log (.newSensor a.header.sensor a.peer resend)] else []) ++
    [.tick .packets, .count .bytes a.raw.length]

@[simp] theorem packages_preface (a : Arrival) (resend created : Bool) :
    Effect.packages (a.preface resend created) = [] := by
  unfold preface
  split <;> split <;> rfl

theorem preface_calm (a : Arrival) (resend created : Bool) (n : Nat) :
    .count .forcedDrains n ∉ a.preface resend created := by
  unfold preface
  split <;> split <;> simp

end Arrival

namespace Session

/-- Notes the arrival of a frame; the flag says whether it is sampled. -/
def greet (s : Session) (a : Arrival) : Session × Bool :=
  { s with holding := s.holding || a.responds }.touch a.peer a.now

def receive (s : Session) (resend : Bool) (a : Arrival) : Session × Option Reply × List Effect :=
  Intake.sequence resend (s.greet a).1 a.header a.now (s.greet a).2 a.raw

/-! ## A session speaks for its sensor -/

/-- A session of a sensor, and effects that hand on packages of this sensor only. -/
def Speaks (id : SensorId) (s : Session) (effects : List Effect) : Prop :=
  s.sensor = id ∧ ∀ p ∈ Effect.packages effects, p.sensor = id

variable {s : Session} {id : SensorId} {first rest : List Effect}

theorem Speaks.nil (h : s.sensor = id) : Speaks id s [] := ⟨h, by simp⟩

theorem Speaks.append {t : Session} (h : Speaks id s first) (k : Speaks id t rest) :
    Speaks id t (first ++ rest) := by
  refine ⟨k.1, fun p mem => ?_⟩
  rw [Effect.packages_append, List.mem_append] at mem
  exact mem.elim (h.2 p) (k.2 p)

/-- Effects that hand nothing on do not matter. -/
theorem Speaks.silent {more : List Effect} (h : Speaks id s first)
    (same : Effect.packages more = Effect.packages first) : Speaks id s more :=
  ⟨h.1, same ▸ h.2⟩

theorem handOff_speaks (h : s.sensor = id) (sequence : Nat) (arrival : Micros) (sampled : Bool)
    (frame : Bytes) : Speaks id (s.handOff sequence arrival sampled frame).1
      (s.handOff sequence arrival sampled frame).2 := by
  refine ⟨h, fun p mem => ?_⟩
  cases List.mem_singleton.1 mem
  exact h

theorem releaseAll_speaks (h : s.sensor = id) (ps : List Parked) :
    Speaks id (s.releaseAll ps).1 (s.releaseAll ps).2 := by
  induction ps generalizing s with
  | nil => exact .nil h
  | cons p ps ih =>
    have one : Speaks id (s.release p).1 (s.release p).2 := handOff_speaks h _ _ _ _
    exact one.append (ih one.1)

theorem drainContiguous_speaks (h : s.sensor = id) :
    Speaks id s.drainContiguous.1 s.drainContiguous.2 := by
  fun_induction drainContiguous s with
  | case1 | case2 => exact .nil h
  | case3 s b _ p b' _ s' _ t effects eq ih =>
    rw [eq] at ih
    exact (ih h).silent rfl
  | case4 s b _ p b' _ s' _ t effects eq ih =>
    rw [eq] at ih
    have one : Speaks id (s'.release p).1 (s'.release p).2 := handOff_speaks h _ _ _ _
    exact one.append (ih one.1)

theorem drainAll_speaks (h : s.sensor = id) : Speaks id s.drainAll.1 s.drainAll.2 := by
  unfold drainAll
  split
  · exact .nil h
  · exact releaseAll_speaks h _

theorem forceDrain_speaks (h : s.sensor = id) : Speaks id s.forceDrain.1 s.forceDrain.2 := by
  unfold forceDrain
  cases s.backlog.bind Backlog.popOldest with
  | none => exact (Speaks.nil h).append (drainContiguous_speaks h)
  | some popped =>
    obtain ⟨p, b⟩ := popped
    have one : Speaks id ({ s with backlog := some b }.release p).1
        ({ s with backlog := some b }.release p).2 := handOff_speaks h _ _ _ _
    exact (one.silent rfl).append (drainContiguous_speaks one.1)

theorem park_speaks (h : s.sensor = id) (b : Backlog) (p : Parked) :
    Speaks id (s.park b p).1 (s.park b p).2.2 := by
  unfold park
  dsimp only
  split
  · refine ⟨h, ?_⟩
    split <;> split <;> simp
  · refine ⟨h, ?_⟩
    split <;> simp

theorem accept_speaks (h : s.sensor = id) (sequence : Nat) :
    Speaks id (s.accept sequence).1 (s.accept sequence).2.2 := by
  unfold accept
  dsimp only
  split
  · have all := drainAll_speaks (s := { s with redo := 0 }) h
    split
    · exact all.silent rfl
    · refine ⟨all.1, ?_⟩
      simpa using all.2
  · split
    · exact ⟨h, by simp⟩
    · exact .nil h

theorem makeRoom_speaks (h : s.sensor = id) : Speaks id s.makeRoom.1 s.makeRoom.2 := by
  unfold makeRoom
  split
  · exact forceDrain_speaks h
  · exact .nil h

theorem settle_speaks (h : s.sensor = id) (p : Parked) :
    Speaks id (s.settle p).1 (s.settle p).2.2 := by
  unfold settle
  split
  · split
    · exact .nil h
    · exact park_speaks h _ p
  · exact accept_speaks h p.sequence

theorem offer_speaks (h : s.sensor = id) (sequence : Nat) (now : Micros) (frame : Bytes) :
    Speaks id (s.offer sequence now frame).1 (s.offer sequence now frame).2.2 := by
  unfold offer
  split
  · have room := makeRoom_speaks h
    exact room.append (settle_speaks room.1 _)
  · exact accept_speaks h sequence

theorem conclude_speaks {offered : Session × Verdict × List Effect}
    (h : Speaks id offered.1 offered.2.2) (header : Frame.Header) (now : Micros) (sampled : Bool)
    (raw : Bytes) : Speaks id (Intake.conclude header now sampled raw offered).1
      (Intake.conclude header now sampled raw offered).2.2 := by
  obtain ⟨s, verdict, effects⟩ := offered
  cases verdict with
  | parked | ask | stale => exact h
  | proceed =>
    have own := handOff_speaks h.1 header.sequence now sampled raw
    exact (h.append own).append (drainContiguous_speaks own.1)

theorem sequence_speaks (h : s.sensor = id) (resend : Bool) (header : Frame.Header) (now : Micros)
    (sampled : Bool) (raw : Bytes) :
    Speaks id (Intake.sequence resend s header now sampled raw).1
      (Intake.sequence resend s header now sampled raw).2.2 := by
  unfold Intake.sequence
  dsimp only
  split
  · exact ⟨h, by simp⟩
  · split
    · exact handOff_speaks h _ _ _ _
    · exact conclude_speaks (offer_speaks h header.sequence now raw) header now sampled raw

theorem receive_speaks (h : s.sensor = id) (resend : Bool) (a : Arrival) :
    Speaks id (s.receive resend a).1 (s.receive resend a).2.2 :=
  sequence_speaks (s := (s.greet a).1) h resend a.header a.now (s.greet a).2 a.raw

end Session

/-! ## The receive path takes an arrival to its session -/

namespace Intake

variable {i : Intake} {a : Arrival}

theorem receive_noise (h : a.isNoise = true) :
    i.receive a.now a.peer a.raw =
      { intake := i
        effects := [.tick .startupDrops,
          .log (.startupDropped a.header.sensor a.sequence a.peer)] } := by
  unfold receive
  rw [a.read]
  exact if_pos (Arrival.isNoise_iff.1 h)

theorem receive_arrival (h : a.isNoise = false) :
    i.receive a.now a.peer a.raw =
      let found := i.registry.session a.header.sensor a.peer
      let result := found.1.receive i.resend a
      { intake := { i with registry := found.2.2.put result.1 }
        reply := result.2.1
        effects := a.preface i.resend found.2.1 ++ result.2.2 } := by
  unfold receive
  rw [a.read]
  exact if_neg fun noise => Bool.false_ne_true (h.symm.trans (Arrival.isNoise_iff.2 noise))

end Intake

end SensorIngest
