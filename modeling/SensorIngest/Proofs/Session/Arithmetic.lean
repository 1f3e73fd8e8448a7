import SensorIngest.Proofs.Checked
import SensorIngest.Proofs.Session.Balance

/-!
# The arithmetic of a session

A session computes the sequence behind its last one, how far a packet goes back, the byte count of what
waits, and the time since a request. The functions of `Checked` do so in numbers of 64 bits, and give
nothing where such a number would be passed. While every sequence has one behind it in 64 bits, requests
have been sent at times that a wall clock shows, and the byte count is that of what waits (`Fits`), they
give what the functions of a session give, and both stay so.
-/

namespace SensorIngest

open Intake (Effect)
open Checked (int int_eq minus minus_eq eq_of_minus signed_of_int word word_eq bind_of)

/-! ## Backlogs -/

namespace Backlog

variable {b c : Backlog} {p : Parked} {ps : List Parked} {limit : Nat}

namespace Checked

/-- `Backlog.popOldest`, with the byte count in range. -/
def popOldest (b : Backlog) : Option (Option (Parked × Backlog)) :=
  match b.oldest? with
  | none => some none
  | some p => do
    let bytes ← minus b.bytes p.frame.length
    return some (p, { b with waiting := b.waiting.erase p.sequence, bytes })

/-- `Backlog.popThrough`, with the byte count in range. -/
def popThrough (b : Backlog) (limit : Nat) : Option (Option (Parked × Backlog)) :=
  if b.first?.any (· ≤ limit) then popOldest b else some none

/-- `Backlog.drain`, with the byte count in range. -/
def drain (b : Backlog) : Option (List Parked × Backlog) := do
  let bytes ← b.entries.foldlM (fun n p => minus n p.frame.length) b.bytes
  return (b.entries, { b with waiting := ∅, bytes })

/-- What is taken out is what `Backlog.popOldest` takes out. -/
theorem eq_of_popOldest {r : Option (Parked × Backlog)} (h : popOldest b = some r) :
    r = b.popOldest := by
  rw [popOldest] at h
  rw [Backlog.popOldest]
  cases oldest : b.oldest? with
  | none =>
    rw [oldest] at h
    exact (Option.some.inj h).symm
  | some p =>
    rw [oldest] at h
    obtain ⟨bytes, counted, result⟩ := Option.bind_eq_some_iff.1 h
    cases result
    rw [eq_of_minus counted]
    rfl

theorem size_popThrough (h : popThrough b limit = some (some (p, c))) : c.size < b.size := by
  have pop : b.popThrough limit = some (p, c) := by
    unfold popThrough at h
    unfold Backlog.popThrough
    split at h
    · rw [if_pos ‹_›]
      exact (eq_of_popOldest h).symm
    · cases h
  exact Backlog.size_popThrough pop

theorem popOldest_eq (h : b.Accounted) : popOldest b = some b.popOldest := by
  rw [popOldest, Backlog.popOldest, oldest?_eq_head?]
  cases e : b.entries with
  | nil => rfl
  | cons p ps =>
    rw [Accounted, e, frameBytes] at h
    exact bind_of (minus_eq (h ▸ Nat.le_add_right _ _)) _

theorem popThrough_eq (h : b.Accounted) (limit : Nat) :
    popThrough b limit = some (b.popThrough limit) := by
  rw [popThrough, Backlog.popThrough, popOldest_eq h]
  split <;> rfl

theorem foldlM_minus {n : Nat} (h : frameBytes ps ≤ n) :
    ps.foldlM (fun n p => minus n p.frame.length) n =
      some (ps.foldl (fun n p => n - p.frame.length) n) := by
  induction ps generalizing n with
  | nil => rfl
  | cons p ps ih =>
    rw [frameBytes] at h
    rw [List.foldlM_cons, bind_of (minus_eq (by omega)), ih (by omega), List.foldl_cons]

theorem drain_eq (h : b.Accounted) : drain b = some b.drain := by
  rw [drain, bind_of (foldlM_minus (Nat.le_of_eq h.symm))]
  rfl

end Checked

end Backlog

namespace Session

variable {s : Session} {b : Backlog} {p : Parked} {ps : List Parked} {sequence : Nat}

/-! ## Sessions in range -/

theorem Bearable.following (h : Bearable s.lastSequence) :
    word (s.lastSequence + 1) = some s.following := by
  rw [word_eq (Nat.add_lt_of_lt_sub h), following_eq h]

/-- A time that a wall clock shows. -/
def Dated (time : Micros) : Prop := 0 ≤ time ∧ time < 2 ^ 63

instance (time : Micros) : Decidable (Dated time) := inferInstanceAs (Decidable (_ ∧ _))

/-- The time between any two of them is in range. -/
theorem Dated.since {now sentAt : Micros} (now_dated : Dated now) (dated : Dated sentAt) :
    int (now - sentAt) = some (now - sentAt) := by
  unfold Dated at now_dated dated
  dsimp only [Micros] at *
  exact int_eq (by omega) (by omega)

/-- Every sequence has one behind it, an open request has a date, and the byte count is that of what
waits. -/
structure Fits (s : Session) : Prop where
  last : Bearable s.lastSequence
  waiting : ∀ p ∈ s.waiting, Bearable p.sequence
  asked : ∀ r, s.request = some r → Dated r.sentAt
  accounted : ∀ b, s.backlog = some b → b.Accounted

theorem fits_new (sensor : SensorId) (peer : Endpoint) (buffering : Bool) :
    (new sensor peer buffering).Fits where
  last := show 0 < 2 ^ 64 - 1 by decide
  waiting := by cases buffering <;> nofun
  asked := nofun
  accounted := by
    cases buffering with
    | true =>
      rintro b hb
      cases hb
      rfl
    | false => nofun

/-- What is not computed with does not matter. -/
theorem Fits.congr {t : Session} (h : s.Fits) (last : t.lastSequence = s.lastSequence)
    (backlog : t.backlog = s.backlog) (request : ∀ r, t.request = some r → s.request = some r) :
    t.Fits where
  last := last ▸ h.last
  waiting := by
    rw [Session.waiting, backlog]
    exact h.waiting
  asked r open_ := h.asked r (request r open_)
  accounted := backlog ▸ h.accounted

/-- What is left of the backlog fits. -/
theorem Fits.leave (h : s.Fits) (hb : s.backlog = some b) {c : Backlog} (left : b.Releases ps c) :
    { s with backlog := some c }.Fits where
  last := h.last
  waiting p mem := h.waiting p (waiting_eq hb ▸ left.waited mem)
  asked := h.asked
  accounted d hd := by
    cases hd
    exact left.accounted (h.accounted b hb)

theorem Fits.handOff (h : s.Fits) (bearable : Bearable sequence) (arrival : Micros) (sampled : Bool)
    (frame : Bytes) : (s.handOff sequence arrival sampled frame).1.Fits where
  last := h.last.handOff bearable arrival sampled frame
  waiting := h.waiting
  asked := h.asked
  accounted := h.accounted

theorem Fits.releaseAll (h : s.Fits) (bearable : ∀ p ∈ ps, Bearable p.sequence) :
    (s.releaseAll ps).1.Fits := by
  induction ps generalizing s with
  | nil => exact h
  | cons p ps ih =>
    rw [List.forall_mem_cons] at bearable
    exact ih (h.handOff bearable.1 p.arrival false p.frame) bearable.2

theorem Fits.drainAll (h : s.Fits) : s.drainAll.1.Fits := by
  unfold Session.drainAll
  split
  · exact h
  · rename_i b hb
    have bearable (p : Parked) (mem : p ∈ b.drain.1) : Bearable p.sequence :=
      h.waiting p (waiting_eq hb ▸ mem)
    have released := h.releaseAll bearable
    refine ⟨released.last, ?_, released.asked, ?_⟩
    · intro p mem
      rw [waiting_eq rfl, Backlog.entries_drain] at mem
      cases mem
    · rintro c hc
      cases hc
      exact b.releases_drain.accounted (h.accounted b hb)

theorem Fits.drainContiguous (h : s.Fits) : s.drainContiguous.1.Fits := by
  fun_induction Session.drainContiguous s with
  | case1 | case2 => exact h
  | case3 s b hb p b' pop s' stale t effects eq ih =>
    rw [eq] at ih
    exact ih (h.leave hb (Backlog.releases_of_popThrough pop))
  | case4 s b hb p b' pop s' turn t effects eq ih =>
    rw [eq] at ih
    have front : p ∈ s.waiting := by
      rw [waiting_eq hb]
      exact (Backlog.releases_of_popThrough pop).mem List.mem_cons_self
    exact ih ((h.leave hb (Backlog.releases_of_popThrough pop)).handOff (h.waiting p front)
      p.arrival false p.frame)

/-- Handing on the oldest packet. -/
theorem Fits.popped {c : Backlog} (h : s.Fits)
    (pop : s.backlog.bind Backlog.popOldest = some (p, c)) :
    ({ s with backlog := some c }.release p).1.Fits := by
  obtain ⟨b, hb, pop⟩ := Option.bind_eq_some_iff.1 pop
  have left := Backlog.releases_of_popOldest pop
  have front : p ∈ s.waiting := waiting_eq hb ▸ left.mem List.mem_cons_self
  exact (h.leave hb left).handOff (h.waiting p front) p.arrival false p.frame

theorem Fits.dropPassedRequest (h : s.Fits) : { s with redo := 0 }.dropPassedRequest.Fits :=
  h.congr rfl rfl fun _ open_ => (Option.filter_eq_some_iff.1 open_).1

theorem Fits.forceDrain (h : s.Fits) : s.forceDrain.1.Fits := by
  unfold Session.forceDrain
  cases pop : s.backlog.bind Backlog.popOldest with
  | none => exact h.dropPassedRequest.drainContiguous
  | some popped => exact (h.popped pop).dropPassedRequest.drainContiguous

theorem Fits.makeRoom (h : s.Fits) : s.makeRoom.1.Fits := by
  unfold Session.makeRoom
  split
  · exact h.forceDrain
  · exact h

theorem Fits.park (h : s.Fits) (hb : s.backlog = some b) (bearable : Bearable p.sequence)
    (dated : Dated p.arrival) : (s.park b p).1.Fits := by
  have parked : { s with backlog := some (b.insert p).1 }.Fits := by
    refine ⟨h.last, fun q mem => ?_, h.asked, ?_⟩
    · rw [waiting_eq rfl] at mem
      rcases Backlog.eq_or_mem_of_mem_insert mem with rfl | mem
      · exact bearable
      · exact h.waiting q (waiting_eq hb ▸ mem)
    · rintro c hc
      cases hc
      exact (h.accounted b hb).insert p
  unfold Session.park
  dsimp only
  split
  · refine ⟨parked.last, parked.waiting, fun r open_ => ?_, parked.accounted⟩
    obtain ⟨-, rfl⟩ := Request.of?_eq_some open_
    exact dated
  · exact parked

theorem Fits.accept (h : s.Fits) : (s.accept sequence).1.Fits := by
  have start : { s with redo := 0 }.Fits := h.congr rfl rfl fun _ => id
  unfold Session.accept
  dsimp only
  split
  · split
    · exact start.drainAll.congr rfl rfl nofun
    · exact start.drainAll.congr rfl rfl fun _ open_ => (Option.filter_eq_some_iff.1 open_).1
  · split
    · exact start.congr rfl rfl nofun
    · exact start

theorem Fits.settle (h : s.Fits) (bearable : Bearable p.sequence) (dated : Dated p.arrival) :
    (s.settle p).1.Fits := by
  unfold Session.settle
  split
  · split
    · exact h
    · exact h.park ‹_› bearable dated
  · exact h.accept

theorem Fits.offer (h : s.Fits) (bearable : Bearable sequence) {now : Micros} (dated : Dated now)
    (frame : Bytes) : (s.offer sequence now frame).1.Fits := by
  unfold Session.offer
  split
  · exact h.makeRoom.settle bearable dated
  · exact h.accept

/-! ## Each step in range -/

namespace Checked

/-- `Session.isRestart`, with the difference in range. -/
def isRestart (s : Session) (sequence : Nat) : Option Bool :=
  if sequence < s.lastSequence then
    if sequence ≤ restartSequence then return true
    else do return decide (restartWindow < (← minus s.lastSequence sequence))
  else return false

def handOff (s : Session) (sequence : Nat) (arrival : Micros) (sampled : Bool) (frame : Bytes) :
    Option (Session × List Effect) := do
  let restart ← isRestart s sequence
  return ({ s with lastSequence := if restart then sequence else max s.lastSequence sequence },
    [.dispatch ⟨s.sensor, sequence, arrival, sampled, frame⟩])

def release (s : Session) (p : Parked) : Option (Session × List Effect) :=
  handOff s p.sequence p.arrival false p.frame

theorem isRestart_eq (s : Session) (sequence : Nat) :
    isRestart s sequence = some (s.isRestart sequence) := by
  rw [isRestart, Session.isRestart]
  by_cases back : sequence < s.lastSequence
  · rw [if_pos back, decide_eq_true back, Bool.true_and, bind_of (minus_eq (Nat.le_of_lt back))]
    by_cases low : sequence ≤ restartSequence
    · rw [if_pos low, decide_eq_true low, Bool.true_or]
      rfl
    · rw [if_neg low, decide_eq_false low, Bool.false_or]
      rfl
  · rw [if_neg back, decide_eq_false back, Bool.false_and]
    rfl

theorem handOff_eq (s : Session) (sequence : Nat) (arrival : Micros) (sampled : Bool)
    (frame : Bytes) : handOff s sequence arrival sampled frame =
      some (s.handOff sequence arrival sampled frame) :=
  bind_of (isRestart_eq s sequence) _

theorem release_eq (s : Session) (p : Parked) : release s p = some (s.release p) :=
  handOff_eq s _ _ _ _

theorem backlog_of_release {r : Session × List Effect} (h : release s p = some r) :
    r.1.backlog = s.backlog := by
  rw [release_eq] at h
  cases h
  rfl

/-- `Session.drainContiguous`, with the sequence behind the last one and the byte count in range. -/
def drainContiguous (s : Session) : Option (Session × List Effect) :=
  match word (s.lastSequence + 1) with
  | none => none
  | some limit =>
    match _hb : s.backlog with
    | none => some (s, [])
    | some b =>
      match _pop : Backlog.Checked.popThrough b limit with
      | none => none
      | some none => some (s, [])
      | some (some (p, b')) =>
        if p.sequence < limit then do
          let (s', effects) ← drainContiguous { s with backlog := some b' }
          return (s', .log (.staleParked s.sensor p.sequence) :: .tick .duplicates :: effects)
        else
          match _handed : release { s with backlog := some b' } p with
          | none => none
          | some (s', handed) => do
            let (s'', effects) ← drainContiguous s'
            return (s'', handed ++ effects)
termination_by s.parked
decreasing_by
  · have fewer := Backlog.Checked.size_popThrough _pop
    simpa [parked, _hb] using fewer
  · have fewer := Backlog.Checked.size_popThrough _pop
    have backlog : s'.backlog = some b' := backlog_of_release _handed
    simpa [parked, _hb, backlog] using fewer

/-- One turn of the loop. -/
theorem drainContiguous_def (s : Session) : drainContiguous s = do
    let limit ← word (s.lastSequence + 1)
    match s.backlog with
    | none => return (s, [])
    | some b =>
      match ← Backlog.Checked.popThrough b limit with
      | none => return (s, [])
      | some (p, b') =>
        if p.sequence < limit then do
          let (s', effects) ← drainContiguous { s with backlog := some b' }
          return (s', .log (.staleParked s.sensor p.sequence) :: .tick .duplicates :: effects)
        else do
          let (s', handed) ← release { s with backlog := some b' } p
          let (s'', effects) ← drainContiguous s'
          return (s'', handed ++ effects) := by
  rw [drainContiguous]
  cases word (s.lastSequence + 1) with
  | none => rfl
  | some limit =>
    simp only [bind, Option.bind]
    split
    · rename_i hb
      rw [hb]
      rfl
    · rename_i b hb
      rw [hb]
      dsimp only
      split
      · rename_i pop
        rw [pop]
      · rename_i pop
        rw [pop]
        rfl
      · rename_i p b' pop
        rw [pop]
        dsimp only
        split
        · rfl
        · split
          · rename_i handed
            rw [handed]
          · rename_i handed
            rw [handed]

theorem drainContiguous_eq (h : s.Fits) : drainContiguous s = some s.drainContiguous := by
  fun_induction Session.drainContiguous s with
  | case1 s hb =>
    rw [drainContiguous_def, bind_of h.last.following, hb]
    rfl
  | case2 s b hb stop =>
    rw [drainContiguous_def, bind_of h.last.following, hb]
    dsimp only
    rw [bind_of (Backlog.Checked.popThrough_eq (h.accounted b hb) _), stop]
    rfl
  | case3 s b hb p b' pop s' stale t effects eq ih =>
    rw [drainContiguous_def, bind_of h.last.following, hb]
    dsimp only
    rw [bind_of (Backlog.Checked.popThrough_eq (h.accounted b hb) _), pop]
    dsimp only
    rw [if_pos stale, bind_of (ih (h.leave hb (Backlog.releases_of_popThrough pop))), eq]
    rfl
  | case4 s b hb p b' pop s' turn t effects eq ih =>
    have front : p ∈ s.waiting :=
      waiting_eq hb ▸ (Backlog.releases_of_popThrough pop).mem List.mem_cons_self
    have handed : (s'.release p).1.Fits :=
      (h.leave hb (Backlog.releases_of_popThrough pop)).handOff (h.waiting p front)
        p.arrival false p.frame
    rw [drainContiguous_def, bind_of h.last.following, hb]
    dsimp only
    rw [bind_of (Backlog.Checked.popThrough_eq (h.accounted b hb) _), pop]
    dsimp only
    rw [if_neg turn, bind_of (release_eq _ _), bind_of (ih handed), eq]
    rfl

/-- `Session.releaseAll`, with each difference in range. -/
def releaseAll (s : Session) : List Parked → Option (Session × List Effect)
  | [] => some (s, [])
  | p :: rest => do
    let (s', effects) ← release s p
    let (s'', more) ← releaseAll s' rest
    return (s'', effects ++ more)

theorem releaseAll_eq (s : Session) (ps : List Parked) :
    releaseAll s ps = some (s.releaseAll ps) := by
  induction ps generalizing s with
  | nil => rfl
  | cons p ps ih =>
    rw [releaseAll, bind_of (release_eq s p)]
    dsimp only
    rw [bind_of (ih _)]
    rfl

/-- `Session.drainAll`, with the byte count in range. -/
def drainAll (s : Session) : Option (Session × List Effect) :=
  match s.backlog with
  | none => some (s, [])
  | some b => do
    let (parked, left) ← Backlog.Checked.drain b
    let (s', effects) ← releaseAll s parked
    return ({ s' with backlog := some left }, effects)

theorem drainAll_eq (h : s.Fits) : drainAll s = some s.drainAll := by
  rw [drainAll, Session.drainAll]
  cases hb : s.backlog with
  | none => rfl
  | some b =>
    dsimp only
    rw [bind_of (Backlog.Checked.drain_eq (h.accounted b hb)), bind_of (releaseAll_eq s _)]
    rfl

/-- The start of a forced drain: the oldest packet is handed on. -/
def releaseOldest (s : Session) : Option (Session × List Effect) :=
  match s.backlog with
  | none => return (s, [])
  | some b => do
    match ← Backlog.Checked.popOldest b with
    | none => return (s, [])
    | some (p, b) =>
      let (s', effects) ← release { s with backlog := some b } p
      return (s', .log (.forcingDrain s.sensor s.lastSequence p.sequence s.redo) ::
        .tick .forcedDrains :: effects)

/-- `Session.forceDrain`, in range. -/
def forceDrain (s : Session) : Option (Session × List Effect) := do
  let (s, effects) ← releaseOldest s
  let (s, more) ← drainContiguous { s with redo := 0 }.dropPassedRequest
  return (s, effects ++ more)

theorem releaseOldest_eq (h : s.Fits) :
    releaseOldest s = some (match s.backlog.bind Backlog.popOldest with
      | none => (s, [])
      | some (p, b) =>
        let (s', effects) := { s with backlog := some b }.release p
        (s', .log (.forcingDrain s.sensor s.lastSequence p.sequence s.redo) ::
          .tick .forcedDrains :: effects)) := by
  rw [releaseOldest]
  cases hb : s.backlog with
  | none => rfl
  | some b =>
    dsimp only
    rw [bind_of (Backlog.Checked.popOldest_eq (h.accounted b hb)), Option.bind_some]
    cases b.popOldest with
    | none => rfl
    | some popped =>
      dsimp only
      rw [bind_of (release_eq _ _)]
      rfl

theorem forceDrain_eq (h : s.Fits) : forceDrain s = some s.forceDrain := by
  rw [forceDrain, Session.forceDrain, bind_of (releaseOldest_eq h)]
  cases pop : s.backlog.bind Backlog.popOldest with
  | none =>
    dsimp only
    rw [bind_of (drainContiguous_eq h.dropPassedRequest)]
    rfl
  | some popped =>
    obtain ⟨p, c⟩ := popped
    dsimp only
    rw [bind_of (drainContiguous_eq (h.popped pop).dropPassedRequest)]
    rfl

/-- `Session.makeRoom`, in range. -/
def makeRoom (s : Session) : Option (Session × List Effect) :=
  if s.isExhausted then forceDrain s else some (s, [])

theorem makeRoom_eq (h : s.Fits) : makeRoom s = some s.makeRoom := by
  rw [makeRoom, Session.makeRoom, forceDrain_eq h]
  split <;> rfl

/-- `Session.requestDue`, with the time since the request in range. A request that is not open any more
has no date here: what has passed since is as much in range as what has passed since any other frame. -/
def requestDue (s : Session) (now : Micros) : Option Bool :=
  match s.request with
  | none => some true
  | some r => do return decide (resendInterval < (← int (now - r.sentAt)))

theorem requestDue_eq (h : s.Fits) {now : Micros} (dated : Dated now) :
    requestDue s now = some (s.requestDue now) := by
  unfold requestDue Session.requestDue
  cases open_ : s.request with
  | none => rfl
  | some r =>
    have since := dated.since (h.asked r open_)
    dsimp only
    rw [bind_of since, (signed_of_int since).2]
    rfl

/-- `Session.park`, with the sequence that is asked for in range. -/
def park (s : Session) (b : Backlog) (p : Parked) : Option (Session × Verdict × List Effect) := do
  let (b, insertion) := b.insert p
  let effects := if insertion = .duplicate then [Effect.tick .duplicates] else []
  let s := { s with backlog := some b }
  if ← requestDue s p.arrival then
    let wanted ← word (s.lastSequence + 1)
    let redo := s.redo + 1
    return ({ s with redo, request := Request.of? wanted p.arrival }, .ask wanted,
      effects ++ (if redo = 1 then [.tick .resendTotal] else []) ++
        [.tick .resendRequests,
          .log (.requestingResend s.sensor wanted p.sequence redo)])
  else return (s, .parked, effects)

theorem park_eq (h : s.Fits) (b : Backlog) (dated : Dated p.arrival) :
    park s b p = some (s.park b p) := by
  have due : requestDue { s with backlog := some (b.insert p).1 } p.arrival =
      some (s.requestDue p.arrival) := requestDue_eq h dated
  rw [park, Session.park]
  dsimp only
  rw [bind_of due, bind_of h.last.following]
  change _ = some (if s.requestDue p.arrival = true then _ else _)
  split <;> rfl

/-- `Session.accept`, in range. -/
def accept (s : Session) (sequence : Nat) : Option (Session × Verdict × List Effect) :=
  let s := { s with redo := 0 }
  if 0 < s.lastSequence ∧ sequence ≤ s.lastSequence then do
    let restart ← isRestart s sequence
    let behind := Effect.log (.sequenceBehind s.sensor sequence s.lastSequence restart)
    let (s, effects) ← drainAll s
    if restart then return ({ s with request := none }, .proceed, behind :: effects)
    return (s.dropPassedRequest, .stale, behind :: effects ++ [.tick .duplicates])
  else if (s.request.map (·.sequence)) = some sequence then
    return ({ s with request := none }, .proceed, [.tick .resendSuccess])
  else return (s, .proceed, [])

theorem accept_eq (h : s.Fits) (sequence : Nat) : accept s sequence = some (s.accept sequence) := by
  have start : { s with redo := 0 }.Fits := h.congr rfl rfl fun _ => id
  rw [accept, Session.accept]
  dsimp only
  rw [bind_of (isRestart_eq _ _), bind_of (drainAll_eq start)]
  split
  · split <;> rfl
  · split <;> rfl

/-- `Session.settle`, in range. -/
def settle (s : Session) (p : Parked) : Option (Session × Verdict × List Effect) := do
  if (← word (s.lastSequence + 1)) < p.sequence then
    match s.backlog with
    | none => return (s, .proceed, [])
    | some b => park s b p
  else accept s p.sequence

theorem settle_eq (h : s.Fits) (dated : Dated p.arrival) : settle s p = some (s.settle p) := by
  rw [settle, Session.settle, bind_of h.last.following, accept_eq h]
  split
  · cases s.backlog with
    | none => rfl
    | some b => exact park_eq h b dated
  · rfl

/-- `Session.isAhead`, with the sequence behind the last one in range. -/
def isAhead (s : Session) (sequence : Nat) : Option Bool :=
  if 0 < s.lastSequence then do return decide ((← word (s.lastSequence + 1)) < sequence)
  else return false

theorem isAhead_eq (h : s.Fits) (sequence : Nat) :
    isAhead s sequence = some (s.isAhead sequence) := by
  rw [isAhead, Session.isAhead, bind_of h.last.following]
  by_cases started : 0 < s.lastSequence
  · rw [if_pos started, decide_eq_true started, Bool.true_and]
    rfl
  · rw [if_neg started, decide_eq_false started, Bool.false_and]
    rfl

/-- `Session.offer`, in range. -/
def offer (s : Session) (sequence : Nat) (now : Micros) (frame : Bytes) :
    Option (Session × Verdict × List Effect) := do
  if ← isAhead s sequence then
    let (s, drained) ← makeRoom s
    let (s, verdict, effects) ← settle s ⟨sequence, now, frame⟩
    return (s, verdict, drained ++ effects)
  else accept s sequence

theorem offer_eq (h : s.Fits) (sequence : Nat) {now : Micros} (dated : Dated now) (frame : Bytes) :
    offer s sequence now frame = some (s.offer sequence now frame) := by
  rw [offer, Session.offer, bind_of (isAhead_eq h sequence), accept_eq h,
    bind_of (makeRoom_eq h)]
  dsimp only
  rw [bind_of (settle_eq h.makeRoom dated)]
  split <;> rfl

end Checked

end Session

end SensorIngest
