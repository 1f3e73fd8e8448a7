import SensorIngest.Proofs.Checked
import SensorIngest.Timeline

/-!
# Runs of a timeline

`Timeline.run` lists the timeline and the adjustment after each of several packets. Whatever a packet
does, the timeline goes on from the packet's sequence (`Timeline.lastSequence_next`).

`Checked.run` is the run in which every sum and difference has to fit into 64 bits; it gives nothing
where one does not. A run is `InRange` if it gives something. Nothing has wrapped around then, and
`Timeline.Takes` lists everything that a packet can do, in plain integers and each case with what is
known of the packet then.
-/

namespace SensorIngest.Timeline

open SensorIngest.Checked (int bind_of signed_of_int)

variable {t : Timeline} {sequence : Int} {fill : Bool} {arrival duration : Micros}

/-! ## One packet -/

theorem lastSequence_advance (t : Timeline) (duration anchor : Micros) (fill : Bool) :
    (t.advance duration anchor fill).lastSequence = Word.signed (t.lastSequence + 1) := by
  unfold advance
  split
  · rfl
  · split <;> rfl

theorem threshold_advance (t : Timeline) (duration anchor : Micros) (fill : Bool) :
    (t.advance duration anchor fill).threshold = t.threshold := by
  unfold advance
  split
  · rfl
  · split <;> rfl

/-- Whatever becomes of a packet, the timeline goes on from its sequence. -/
theorem lastSequence_next (t : Timeline) (sequence : Int) (fill : Bool)
    (arrival duration : Micros) :
    (t.next sequence fill arrival duration).1.lastSequence = sequence := by
  fun_cases next with
  | case1 | case2 | case4 => rfl
  | case3 due _ _ next | case6 _ due _ _ next =>
    exact (lastSequence_advance ..).trans (not_not.1 next).symm
  | case5 _ due _ _ next => exact (not_not.1 next).symm

theorem threshold_next (t : Timeline) (sequence : Int) (fill : Bool) (arrival duration : Micros) :
    (t.next sequence fill arrival duration).1.threshold = t.threshold := by
  fun_cases next with
  | case1 | case2 | case4 | case5 => rfl
  | case3 | case6 => exact threshold_advance ..

/-! ## Runs -/

/-- A packet as a timeline sees it. -/
structure Packet where
  sequence : Int
  /-- Its duration lost a fraction. -/
  fill : Bool := false
  arrival : Micros
  duration : Micros

/-- The arrival clock less the duration. -/
def Packet.anchor (p : Packet) : Micros := p.arrival - p.duration

def take (t : Timeline) (p : Packet) : Timeline × Adjustment :=
  t.next p.sequence p.fill p.arrival p.duration

theorem threshold_take (t : Timeline) (p : Packet) : (t.take p).1.threshold = t.threshold :=
  threshold_next ..

/-- The timeline and the adjustment after each of the packets. -/
def run (t : Timeline) : List Packet → List (Timeline × Adjustment)
  | [] => []
  | p :: rest => t.take p :: (t.take p).1.run rest

variable {p : Packet} {ps : List Packet} {r : Timeline × Adjustment}

namespace Checked

/-- `Timeline.advance`, in signed numbers of 64 bits. -/
def advance (t : Timeline) (duration anchor : Micros) (fill : Bool) : Option Timeline := do
  let moved := { t with
    lastSequence := ← int (t.lastSequence + 1), clock := ← int (t.clock + duration), anchor }
  if !fill then return { moved with fills := 0 }
  else if t.fills + 1 < fillPeriod then return { moved with fills := t.fills + 1 }
  else return { moved with fills := 0, clock := ← int (moved.clock + 1) }

/-- What `Timeline.take` does with a packet that continues the sequence of a running clock, when there is
a threshold to keep. -/
def follow (t : Timeline) (p : Packet) (anchor : Micros) : Option (Timeline × Adjustment) := do
  let ahead ← int (t.clock + p.duration)
  if ahead < (← int (anchor - t.threshold)) then
    return (t.restartAt p.sequence anchor, .corrected)
  if (← int (anchor + t.threshold)) < ahead then
    return ({ t with lastSequence := ← int (t.lastSequence + 1) }, .dropped)
  return (← advance t p.duration anchor p.fill, .aligned)

/-- `Timeline.take`, in signed numbers of 64 bits. -/
def take (t : Timeline) (p : Packet) : Option (Timeline × Adjustment) := do
  let anchor ← int (p.arrival - p.duration)
  if t.clock = 0 then return (t.restartAt p.sequence anchor, .reset)
  let due ← int (t.lastSequence + 1)
  if p.sequence ≠ due then
    return (t.restartAt p.sequence anchor,
      if p.sequence ≤ t.lastSequence then .reset else .broken)
  if t.threshold ≤ 0 then return (← advance t p.duration anchor p.fill, .aligned)
  follow t p anchor

/-- `Timeline.run`, in signed numbers of 64 bits. -/
def run (t : Timeline) : List Packet → Option (List (Timeline × Adjustment))
  | [] => return []
  | p :: rest => do
    let taken ← take t p
    return taken :: (← run taken.1 rest)

end Checked

/-- Nothing that the run computes is out of range. -/
def InRange (t : Timeline) (ps : List Packet) : Prop := (Checked.run t ps).isSome = true

instance (t : Timeline) (ps : List Packet) : Decidable (t.InRange ps) :=
  inferInstanceAs (Decidable (_ = true))

/-! ## Everything that a packet can do in range -/

/-- The timeline after a packet that it runs along with. -/
def progress (t : Timeline) (p : Packet) : Timeline :=
  let moved := { t with
    lastSequence := t.lastSequence + 1, clock := t.clock + p.duration, anchor := p.anchor }
  if !p.fill then { moved with fills := 0 }
  else if t.fills + 1 < fillPeriod then { moved with fills := t.fills + 1 }
  else { moved with fills := 0, clock := t.clock + p.duration + 1 }

/-- The clock advances by the duration, and by one more microsecond at times. -/
theorem clock_progress (t : Timeline) (p : Packet) :
    (t.progress p).clock = t.clock + p.duration ∨
      (t.progress p).clock = t.clock + p.duration + 1 := by
  unfold progress
  split
  · exact .inl rfl
  · split
    · exact .inl rfl
    · exact .inr rfl

theorem le_clock_progress (t : Timeline) (p : Packet) :
    t.clock + p.duration ≤ (t.progress p).clock := by
  rcases t.clock_progress p with same | more
  · exact Int.le_of_eq same.symm
  · exact Int.le_trans (Int.le_add_one (Int.le_refl _)) (Int.le_of_eq more.symm)

/-- Everything that a packet can do to a timeline. -/
inductive Takes (t : Timeline) (p : Packet) : Timeline × Adjustment → Prop
  | reset (back : t.clock = 0 ∨ p.sequence ≤ t.lastSequence) :
      Takes t p (t.restartAt p.sequence p.anchor, .reset)
  | broken (running : t.clock ≠ 0) (gap : t.lastSequence + 1 < p.sequence) :
      Takes t p (t.restartAt p.sequence p.anchor, .broken)
  | corrected (running : t.clock ≠ 0) (next : p.sequence = t.lastSequence + 1)
      (limited : 0 < t.threshold) (behind : t.clock + p.duration < p.anchor - t.threshold) :
      Takes t p (t.restartAt p.sequence p.anchor, .corrected)
  | dropped (running : t.clock ≠ 0) (next : p.sequence = t.lastSequence + 1)
      (limited : 0 < t.threshold) (ahead : p.anchor + t.threshold < t.clock + p.duration) :
      Takes t p ({ t with lastSequence := t.lastSequence + 1 }, .dropped)
  | aligned (running : t.clock ≠ 0) (next : p.sequence = t.lastSequence + 1)
      (near : 0 < t.threshold → p.anchor - t.threshold ≤ t.clock + p.duration ∧
        t.clock + p.duration ≤ p.anchor + t.threshold) :
      Takes t p (t.progress p, .aligned)

/-- There is only one thing that a packet can do. -/
theorem Takes.unique {r' : Timeline × Adjustment} (takes : t.Takes p r) (takes' : t.Takes p r') :
    r = r' := by
  -- The conditions of any two cases exclude each other.
  cases takes <;> cases takes' <;> first
    | rfl
    | dsimp only [Micros] at *
      omega

/-- An advance in range is one in plain integers. -/
theorem Checked.eq_of_advance {u : Timeline}
    (h : Checked.advance t p.duration p.anchor p.fill = some u) :
    t.advance p.duration p.anchor p.fill = u ∧ u = t.progress p := by
  obtain ⟨last, first, h⟩ := Option.bind_eq_some_iff.1 h
  obtain ⟨clock, second, h⟩ := Option.bind_eq_some_iff.1 h
  obtain ⟨rfl, last_eq⟩ := signed_of_int first
  obtain ⟨rfl, clock_eq⟩ := signed_of_int second
  unfold Timeline.advance progress
  rw [last_eq, clock_eq]
  dsimp only at h ⊢
  split at h
  · rename_i whole
    cases h
    exact ⟨if_pos whole, (if_pos whole).symm⟩
  rename_i lost
  rw [if_neg lost, if_neg lost]
  split at h
  · rename_i few
    cases h
    exact ⟨if_pos few, (if_pos few).symm⟩
  · rename_i full
    obtain ⟨later, third, h⟩ := Option.bind_eq_some_iff.1 h
    obtain ⟨rfl, later_eq⟩ := signed_of_int third
    cases h
    rw [if_neg full, if_neg full, later_eq]
    exact ⟨rfl, rfl⟩

/-- A step in range is one of those in plain integers. -/
theorem Checked.takes (h : Checked.take t p = some r) : t.take p = r ∧ t.Takes p r := by
  obtain ⟨anchor, first, h⟩ := Option.bind_eq_some_iff.1 h
  obtain ⟨rfl, anchor_eq⟩ := signed_of_int first
  unfold Timeline.take Timeline.next
  rw [anchor_eq]
  split at h
  · rename_i idle
    cases h
    exact ⟨if_pos idle, .reset (.inl idle)⟩
  rename_i running
  rw [if_neg running]
  obtain ⟨due, second, h⟩ := Option.bind_eq_some_iff.1 h
  obtain ⟨rfl, due_eq⟩ := signed_of_int second
  rw [due_eq]
  split at h
  · rename_i apart
    cases h
    refine ⟨if_pos apart, ?_⟩
    split
    · exact .reset (.inr ‹_›)
    · exact .broken running (by omega)
  rename_i next
  rw [if_neg next]
  have next := not_not.1 next
  split at h
  · rename_i free
    obtain ⟨u, advances, h⟩ := Option.bind_eq_some_iff.1 h
    obtain ⟨rfl, progress⟩ := eq_of_advance (p := p) advances
    cases h
    refine ⟨if_pos free, ?_⟩
    exact progress ▸ .aligned running next fun limited => absurd limited (Int.not_lt.2 free)
  rename_i limited
  rw [if_neg limited]
  have limited := Int.not_le.1 limited
  obtain ⟨ahead, third, h⟩ := Option.bind_eq_some_iff.1 h
  obtain ⟨rfl, ahead_eq⟩ := signed_of_int third
  obtain ⟨low, fourth, h⟩ := Option.bind_eq_some_iff.1 h
  obtain ⟨rfl, low_eq⟩ := signed_of_int fourth
  rw [ahead_eq, low_eq]
  split at h
  · rename_i behind
    cases h
    exact ⟨if_pos behind, .corrected running next limited behind⟩
  rename_i reached
  rw [if_neg reached]
  obtain ⟨high, fifth, h⟩ := Option.bind_eq_some_iff.1 h
  obtain ⟨rfl, high_eq⟩ := signed_of_int fifth
  rw [high_eq]
  split at h
  · rename_i past
    rw [bind_of second] at h
    cases h
    exact ⟨if_pos past, .dropped running next limited past⟩
  · rename_i near
    obtain ⟨u, advances, h⟩ := Option.bind_eq_some_iff.1 h
    obtain ⟨rfl, progress⟩ := eq_of_advance (p := p) advances
    cases h
    refine ⟨if_neg near, ?_⟩
    exact progress ▸ .aligned running next fun _ => ⟨Int.not_lt.1 reached, Int.not_lt.1 near⟩

/-- The first packet of a run in range does what it would do in plain integers. -/
theorem InRange.takes (h : t.InRange (p :: ps)) : t.Takes p (t.take p) := by
  obtain ⟨_, h⟩ := Option.isSome_iff_exists.1 h
  obtain ⟨r, taken, -⟩ := Option.bind_eq_some_iff.1 h
  obtain ⟨rfl, takes⟩ := Checked.takes taken
  exact takes

theorem InRange.rest (h : t.InRange (p :: ps)) : (t.take p).1.InRange ps := by
  obtain ⟨_, h⟩ := Option.isSome_iff_exists.1 h
  obtain ⟨r, taken, h⟩ := Option.bind_eq_some_iff.1 h
  obtain ⟨more, ran, -⟩ := Option.bind_eq_some_iff.1 h
  rw [(Checked.takes taken).1]
  exact Option.isSome_of_eq_some ran

/-- A run in range has its result in plain integers. -/
theorem Checked.run_eq_some {rs : List (Timeline × Adjustment)} (h : Checked.run t ps = some rs) :
    t.run ps = rs := by
  induction ps generalizing t rs with
  | nil => exact Option.some.inj h
  | cons p ps ih =>
    obtain ⟨r, taken, h⟩ := Option.bind_eq_some_iff.1 h
    obtain ⟨more, ran, h⟩ := Option.bind_eq_some_iff.1 h
    obtain ⟨rfl, -⟩ := Checked.takes taken
    cases h
    rw [Timeline.run, ih ran]

theorem inRange_iff : t.InRange ps ↔ Checked.run t ps = some (t.run ps) := by
  constructor
  · intro inside
    obtain ⟨rs, ran⟩ := Option.isSome_iff_exists.1 inside
    rw [ran, Checked.run_eq_some ran]
  · exact fun ran => Option.isSome_of_eq_some ran

end SensorIngest.Timeline
