import SensorIngest.Proofs.Session.Arrival
import SensorIngest.Proofs.Session.Release

/-!
# Where packets go

A session loses and invents nothing. Every packet that it held or is given is handed on, waits
afterwards, or is counted as a duplicate (`Balanced`), whatever the settings and whatever the
state of the session. `Session.receive_balanced` says so of a whole frame; the lemmas before it
follow the functions that it runs through.
-/

namespace SensorIngest

open Intake (Effect)

/-! ## What effects count -/

/-- Counted by the session that puts a frame in its place. -/
def Tally.ofSession : Tally → Bool
  | duplicates | resendRequests | resendTotal | resendSuccess | forcedDrains => true
  | _ => false

theorem Tally.ne_of_ofSession {tally : Tally} (foreign : tally.ofSession = false) :
    duplicates ≠ tally ∧ resendRequests ≠ tally ∧ resendTotal ≠ tally ∧ resendSuccess ≠ tally ∧
      forcedDrains ≠ tally := by
  refine ⟨?_, ?_, ?_, ?_, ?_⟩ <;> rintro rfl <;> cases foreign

/-- Counted by the worker of a lane. -/
def Tally.ofLane : Tally → Bool
  | decodeErrors | missingSegments | sinkErrors | adjusted _ => true
  | _ => false

namespace Intake.Effect

/-- How much an effect adds to a tally by counting. -/
def amount (tally : Tally) : Effect → Nat
  | count other n => if other = tally then n else 0
  | _ => 0

def total (tally : Tally) : List Effect → Nat
  | [] => 0
  | e :: rest => e.amount tally + total tally rest

variable {tally : Tally}

@[simp] theorem total_nil : total tally [] = 0 := rfl

@[simp] theorem total_append (first rest : List Effect) :
    total tally (first ++ rest) = total tally first + total tally rest := by
  induction first with
  | nil => exact (Nat.zero_add _).symm
  | cons e first ih => rw [List.cons_append, total, total, ih, Nat.add_assoc]

@[simp] theorem total_count (other : Tally) (n : Nat) (rest : List Effect) :
    total tally (.count other n :: rest) =
      (if other = tally then n else 0) + total tally rest := rfl

@[simp] theorem total_move (gauge : Gauge) (step : Int) (rest : List Effect) :
    total tally (.move gauge step :: rest) = total tally rest := Nat.zero_add _

@[simp] theorem total_log (event : Event) (rest : List Effect) :
    total tally (.log event :: rest) = total tally rest := Nat.zero_add _

@[simp] theorem total_forget (id : SensorId) (rest : List Effect) :
    total tally (.forget id :: rest) = total tally rest := Nat.zero_add _

@[simp] theorem total_dispatch (p : Package) (rest : List Effect) :
    total tally (.dispatch p :: rest) = total tally rest := Nat.zero_add _

theorem total_eq_zero {effects : List Effect}
    (none : ∀ n, .count tally n ∉ effects) : total tally effects = 0 := by
  induction effects with
  | nil => rfl
  | cons e effects ih =>
    rw [total, ih fun n mem => none n (List.mem_cons_of_mem e mem)]
    cases e with
    | count other n =>
      refine if_neg ?_
      rintro rfl
      exact none n List.mem_cons_self
    | move | log | dispatch | forget => rfl

@[simp] theorem forgotten_nil : forgotten [] = [] := rfl

@[simp] theorem forgotten_append (first rest : List Effect) :
    forgotten (first ++ rest) = forgotten first ++ forgotten rest := List.filterMap_append

@[simp] theorem forgotten_count (other : Tally) (n : Nat) (rest : List Effect) :
    forgotten (.count other n :: rest) = forgotten rest := rfl

@[simp] theorem forgotten_move (gauge : Gauge) (step : Int) (rest : List Effect) :
    forgotten (.move gauge step :: rest) = forgotten rest := rfl

@[simp] theorem forgotten_log (event : Event) (rest : List Effect) :
    forgotten (.log event :: rest) = forgotten rest := rfl

@[simp] theorem forgotten_dispatch (p : Package) (rest : List Effect) :
    forgotten (.dispatch p :: rest) = forgotten rest := rfl

end Intake.Effect

/-- What a package keeps of a packet. -/
def Package.parked (p : Package) : Parked := ⟨p.sequence, p.arrival, p.frame⟩

namespace Session

open scoped List

variable {s t : Session} {given : List Parked} {first rest : List Effect} {p : Parked}

/-- The packets that wait, lowest sequence first. -/
def waiting (s : Session) : List Parked := (s.backlog.map Backlog.entries).getD []

theorem waiting_eq {b : Backlog} (hb : s.backlog = some b) : s.waiting = b.entries := by
  rw [waiting, hb]
  rfl

/-- Each packet given is handed on, waits, or is a duplicate, and nothing is forgotten. -/
structure Balanced (given : List Parked) (t : Session) (effects : List Effect) : Prop where
  split : ∃ repeated : List Parked, repeated.length = Effect.total .duplicates effects ∧
    given.Perm ((Effect.packages effects).map Package.parked ++ (t.waiting ++ repeated))
  foreign : ∀ tally : Tally, tally.ofSession = false → Effect.total tally effects = 0
  kept : Effect.forgotten effects = []

theorem Balanced.refl (s : Session) : Balanced s.waiting s [] where
  split := ⟨[], rfl, by simp⟩
  foreign _ _ := rfl
  kept := rfl

/-- One thing is done after the other, the second with more in hand. -/
theorem Balanced.append_with (h : Balanced given s first) (extra : List Parked)
    (k : Balanced (extra ++ s.waiting) t rest) : Balanced (extra ++ given) t (first ++ rest) := by
  obtain ⟨before, count_before, front⟩ := h.split
  obtain ⟨after, count_after, back⟩ := k.split
  refine ⟨⟨before ++ after, ?_, ?_⟩, fun tally foreign => ?_, ?_⟩
  · rw [List.length_append, count_before, count_after, Effect.total_append]
  · rw [Effect.packages_append, List.map_append]
    generalize (Effect.packages first).map Package.parked = handed₁ at front
    generalize (Effect.packages rest).map Package.parked = handed₂ at back
    calc
      extra ++ given ~ extra ++ (handed₁ ++ (s.waiting ++ before)) := front.append_left extra
      _ ~ handed₁ ++ ((extra ++ s.waiting) ++ before) := by
        rw [List.append_assoc]
        exact List.perm_append_comm_assoc _ _ _
      _ ~ handed₁ ++ ((handed₂ ++ (t.waiting ++ after)) ++ before) :=
        (back.append_right before).append_left handed₁
      _ ~ (handed₁ ++ handed₂) ++ (t.waiting ++ (before ++ after)) := by
        simp only [List.append_assoc]
        exact ((List.perm_append_comm.append_left _).append_left _).append_left _
  · rw [Effect.total_append, h.foreign tally foreign, k.foreign tally foreign]
  · rw [Effect.forgotten_append, h.kept, k.kept, List.append_nil]

theorem Balanced.append (h : Balanced given s first) (k : Balanced s.waiting t rest) :
    Balanced given t (first ++ rest) := h.append_with [] k

theorem Balanced.of_perm {others : List Parked} (h : Balanced given t first)
    (same : others ~ given) : Balanced others t first :=
  ⟨h.split.imp fun _ => And.imp_right same.trans, h.foreign, h.kept⟩

theorem Balanced.congr {u : Session} (h : Balanced given t first) (same : u.waiting = t.waiting) :
    Balanced given u first := by
  obtain ⟨split, foreign, kept⟩ := h
  rw [← same] at split
  exact ⟨split, foreign, kept⟩

/-- What only a session counts does not matter, duplicates apart. -/
theorem Balanced.silent {others : List Effect} (h : Balanced given t first)
    (packages : Effect.packages others = Effect.packages first)
    (forgotten : Effect.forgotten others = Effect.forgotten first)
    (totals : ∀ tally : Tally, tally.ofSession = false ∨ tally = .duplicates →
      Effect.total tally others = Effect.total tally first) : Balanced given t others where
  split := by
    rw [packages, totals .duplicates (.inr rfl)]
    exact h.split
  foreign tally foreign := (totals tally (.inl foreign)).trans (h.foreign tally foreign)
  kept := forgotten.trans h.kept

/-- One more packet is given, and counted as a duplicate. -/
theorem Balanced.duplicate (h : Balanced given t first) (p : Parked) {others : List Effect}
    (packages : Effect.packages others = Effect.packages first)
    (forgotten : Effect.forgotten others = Effect.forgotten first)
    (counted : Effect.total .duplicates others = Effect.total .duplicates first + 1)
    (totals : ∀ tally : Tally, tally.ofSession = false →
      Effect.total tally others = Effect.total tally first) : Balanced (p :: given) t others where
  split := by
    obtain ⟨repeated, count, perm⟩ := h.split
    refine ⟨p :: repeated, ?_, ?_⟩
    · rw [List.length_cons, count, counted]
    · rw [packages, ← List.append_assoc]
      refine (perm.cons p).trans ?_
      rw [← List.append_assoc]
      exact List.perm_middle.symm
  foreign tally foreign := (totals tally foreign).trans (h.foreign tally foreign)
  kept := forgotten.trans h.kept

/-! ## Handing on -/

theorem handOff_balanced (s : Session) (sequence : Nat) (arrival : Micros) (sampled : Bool)
    (frame : Bytes) :
    Balanced (⟨sequence, arrival, frame⟩ :: s.waiting) (s.handOff sequence arrival sampled frame).1
      (s.handOff sequence arrival sampled frame).2 where
  split := ⟨[], by simp [handOff], by simp [handOff, Package.parked, waiting]⟩
  foreign tally _ := by simp [handOff]
  kept := rfl

theorem releaseAll_snd (s : Session) (ps : List Parked) :
    (s.releaseAll ps).2 = handed s.sensor ps := by
  induction ps generalizing s with
  | nil => rfl
  | cons p ps ih =>
    have more := ih (s.release p).1
    rw [releaseAll]
    dsimp only
    rw [more]
    rfl

theorem total_handed (tally : Tally) (sensor : SensorId) (ps : List Parked) :
    Effect.total tally (handed sensor ps) = 0 := by
  induction ps with
  | nil => rfl
  | cons p ps ih =>
    rw [handed, List.map_cons, Effect.total_dispatch]
    exact ih

theorem forgotten_handed (sensor : SensorId) (ps : List Parked) :
    Effect.forgotten (handed sensor ps) = [] := by
  induction ps with
  | nil => rfl
  | cons p ps ih =>
    rw [handed, List.map_cons, Effect.forgotten_dispatch]
    exact ih

theorem drainAll_balanced (s : Session) : Balanced s.waiting s.drainAll.1 s.drainAll.2 := by
  unfold drainAll
  cases hb : s.backlog with
  | none => exact .refl s
  | some b =>
    have all := waiting_eq hb
    have left : b.drain.2.entries = [] := b.entries_drain
    refine ⟨⟨[], ?_, ?_⟩, fun tally _ => ?_, ?_⟩
    · simp only [releaseAll_snd, total_handed, List.length_nil]
    · have parked : (b.entries.map (·.package s.sensor)).map Package.parked = b.entries := by
        rw [List.map_map]
        exact List.map_id _
      simp only [releaseAll_snd, packages_handed]
      rw [show b.drain.1 = b.entries from rfl, parked, all]
      simp [waiting, left]
    · simp only [releaseAll_snd, total_handed]
    · simp only [releaseAll_snd, forgotten_handed]

theorem drainContiguous_balanced (s : Session) :
    Balanced s.waiting s.drainContiguous.1 s.drainContiguous.2 := by
  fun_induction drainContiguous s with
  | case1 | case2 => exact .refl _
  | case3 s b hb p b' pop s' stale t effects eq ih =>
    rw [eq] at ih
    have front : s.waiting = p :: s'.waiting := by
      rw [waiting_eq hb]
      exact (Backlog.releases_of_popThrough pop).entries
    rw [front]
    refine ih.duplicate p rfl rfl ?_ fun tally foreign => ?_
    · simp only [Effect.total_log, Effect.total_count, if_true]
      exact Nat.add_comm _ _
    · simp [Tally.ne_of_ofSession foreign]
  | case4 s b hb p b' pop s' turn t effects eq ih =>
    rw [eq] at ih
    have front : s.waiting = p :: s'.waiting := by
      rw [waiting_eq hb]
      exact (Backlog.releases_of_popThrough pop).entries
    rw [front]
    exact (handOff_balanced s' p.sequence p.arrival false p.frame).append ih

theorem forceDrain_balanced (s : Session) : Balanced s.waiting s.forceDrain.1 s.forceDrain.2 := by
  unfold forceDrain
  cases pop : s.backlog.bind Backlog.popOldest with
  | none =>
    dsimp only
    exact (Balanced.refl s).append
      (drainContiguous_balanced { s with redo := 0 }.dropPassedRequest)
  | some popped =>
    obtain ⟨p, b'⟩ := popped
    obtain ⟨b, hb, pop⟩ := Option.bind_eq_some_iff.1 pop
    have front : s.waiting = p :: b'.entries := by
      rw [waiting_eq hb]
      exact (Backlog.releases_of_popOldest pop).entries
    let r := { s with backlog := some b' }.release p
    have one : Balanced (p :: b'.entries) r.1 r.2 :=
      handOff_balanced { s with backlog := some b' } p.sequence p.arrival false p.frame
    have logged : Balanced s.waiting r.1
        (.log (.forcingDrain s.sensor s.lastSequence p.sequence s.redo) ::
          .tick .forcedDrains :: r.2) := by
      rw [front]
      refine one.silent rfl rfl fun tally which => ?_
      rcases which with foreign | rfl
      · simp [Tally.ne_of_ofSession foreign]
      · rfl
    exact logged.append (drainContiguous_balanced { r.1 with redo := 0 }.dropPassedRequest)

/-! ## Offering a packet -/

theorem insert_balanced {b : Backlog} (p : Parked) (filled : t.backlog = some (b.insert p).1) :
    Balanced (p :: b.entries) t
      (if (b.insert p).2 = .duplicate then [.tick .duplicates] else []) := by
  have after := waiting_eq filled
  cases dup : b.contains p.sequence with
  | true =>
    rw [Backlog.insert_of_contains dup] at after ⊢
    rw [if_pos rfl, ← after]
    refine (Balanced.refl t).duplicate p rfl rfl (by simp) fun tally foreign => ?_
    simp [Tally.ne_of_ofSession foreign]
  | false =>
    have fresh : (b.insert p).2 ≠ .duplicate := by
      rw [Backlog.insert_snd, dup]
      decide
    rw [if_neg fresh]
    refine (Balanced.refl t).of_perm ?_
    rw [after]
    exact (Backlog.entries_insert_perm dup).symm

theorem park_balanced {b : Backlog} (hb : s.backlog = some b) (p : Parked) :
    Balanced (p :: s.waiting) (s.park b p).1 (s.park b p).2.2 := by
  rw [waiting_eq hb]
  unfold park
  dsimp only
  split
  · rw [List.append_assoc]
    refine (insert_balanced (t := { s with backlog := some (b.insert p).1 }) p rfl).append ?_
    refine ((Balanced.refl _).silent ?_ ?_ fun tally which => ?_).congr rfl
    · split <;> rfl
    · split <;> rfl
    · rcases which with foreign | rfl
      · split <;> simp [Tally.ne_of_ofSession foreign]
      · split <;> simp
  · exact insert_balanced p rfl

/-- What an offer leaves: the packet offered is still in hand if it may proceed. -/
def Offers (p : Parked) (given : List Parked) (r : Session × Verdict × List Effect) : Prop :=
  Balanced (if r.2.1 = .proceed then given else p :: given) r.1 r.2.2

theorem offers_proceed {effects : List Effect} (h : Balanced given t effects) :
    Offers p given (t, .proceed, effects) := h

theorem offers_of_ne {verdict : Verdict} {effects : List Effect} (ne : verdict ≠ .proceed)
    (h : Balanced (p :: given) t effects) : Offers p given (t, verdict, effects) := by
  unfold Offers
  rwa [if_neg ne]

theorem accept_offers (s : Session) (p : Parked) : Offers p s.waiting (s.accept p.sequence) := by
  let calm := { s with redo := 0 }
  have all : Balanced s.waiting calm.drainAll.1 calm.drainAll.2 := drainAll_balanced calm
  have still : Balanced s.waiting s [] := .refl s
  unfold accept
  dsimp only
  split
  · split
    · apply offers_proceed
      refine (all.silent ?_ ?_ fun tally _ => ?_).congr rfl
      · exact Effect.packages_log _ _
      · exact Effect.forgotten_log _ _
      · exact Effect.total_log _ _
    · apply offers_of_ne (by decide)
      refine (all.duplicate p ?_ ?_ ?_ fun tally foreign => ?_).congr rfl
      · simp [calm]
      · simp [calm]
      · simp [calm]
      · simp [calm, Tally.ne_of_ofSession foreign]
  · split
    · apply offers_proceed
      refine (still.silent ?_ ?_ fun tally which => ?_).congr rfl
      · rfl
      · rfl
      · rcases which with foreign | rfl
        · simp [Tally.ne_of_ofSession foreign]
        · rfl
    · exact offers_proceed (still.congr rfl)

theorem Offers.append {r : Session × Verdict × List Effect} (h : Balanced given s first)
    (k : Offers p s.waiting r) : Offers p given (r.1, r.2.1, first ++ r.2.2) := by
  unfold Offers at k ⊢
  dsimp only
  split
  · rename_i proceeds
    rw [if_pos proceeds] at k
    exact h.append k
  · rename_i stays
    rw [if_neg stays] at k
    exact h.append_with [p] k

theorem makeRoom_balanced (s : Session) : Balanced s.waiting s.makeRoom.1 s.makeRoom.2 := by
  unfold makeRoom
  split
  · exact forceDrain_balanced s
  · exact .refl s

theorem settle_offers (s : Session) (p : Parked) : Offers p s.waiting (s.settle p) := by
  unfold settle
  split
  · cases hb : s.backlog with
    | none => exact offers_proceed (.refl s)
    | some b =>
      have verdict : (s.park b p).2.1 ≠ .proceed := by
        unfold park
        dsimp only
        split <;> nofun
      exact offers_of_ne verdict (park_balanced hb p)
  · exact accept_offers s p

theorem offer_offers (s : Session) (p : Parked) :
    Offers p s.waiting (s.offer p.sequence p.arrival p.frame) := by
  unfold offer
  split
  · exact Offers.append (makeRoom_balanced s) (settle_offers _ p)
  · exact accept_offers s p

/-! ## A whole frame -/

theorem conclude_balanced {offered : Session × Verdict × List Effect} (header : Frame.Header)
    (now : Micros) (sampled : Bool) (raw : Bytes)
    (h : Offers ⟨header.sequence, now, raw⟩ given offered) :
    Balanced (⟨header.sequence, now, raw⟩ :: given)
      (Intake.conclude header now sampled raw offered).1
      (Intake.conclude header now sampled raw offered).2.2 := by
  obtain ⟨t, verdict, effects⟩ := offered
  cases verdict with
  | parked | ask | stale => exact h
  | proceed =>
    have own := handOff_balanced t header.sequence now sampled raw
    exact (Balanced.append_with h [_] own).append (drainContiguous_balanced _)

theorem sequence_balanced (s : Session) (resend : Bool) (header : Frame.Header) (now : Micros)
    (sampled : Bool) (raw : Bytes) :
    Balanced (⟨header.sequence, now, raw⟩ :: s.waiting)
      (Intake.sequence resend s header now sampled raw).1
      (Intake.sequence resend s header now sampled raw).2.2 := by
  unfold Intake.sequence
  dsimp only
  split
  · refine (Balanced.refl s).duplicate _ rfl rfl (by simp) fun tally foreign => ?_
    simp [Tally.ne_of_ofSession foreign]
  · split
    · exact handOff_balanced s header.sequence now sampled raw
    · exact conclude_balanced header now sampled raw
        (offer_offers s ⟨header.sequence, now, raw⟩)

/-- A session hands on, keeps or counts as a duplicate all that waits and the frame it receives. -/
theorem receive_balanced (s : Session) (resend : Bool) (a : Arrival) :
    Balanced (a.parked :: s.waiting) (s.receive resend a).1 (s.receive resend a).2.2 :=
  sequence_balanced (s.greet a).1 resend a.header a.now (s.greet a).2 a.raw

end Session

end SensorIngest
