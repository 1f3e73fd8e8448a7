import SensorIngest.Proofs.Session.Outcome

/-!
# How much a session holds

A session in order is `Bounded`: it parks no more packets than its backlog has room for, asks no
more often than it may, and has an open request only if it has asked. Room is made before a packet
is parked, so each outcome keeps the bounds (`Takes.bounded`). No packet that waits is ever passed
by the sequence (`Takes.punctual`).
-/

namespace SensorIngest

open Intake (Effect)

theorem Backlog.size_insert_le (b : Backlog) (p : Parked) : (b.insert p).1.size ≤ b.size + 1 := by
  cases dup : b.contains p.sequence with
  | true =>
    rw [Backlog.insert_of_contains dup]
    exact Nat.le_succ _
  | false =>
    have same := (Backlog.entries_insert_perm dup).length_eq
    rw [Backlog.length_entries, List.length_cons, Backlog.length_entries] at same
    exact Nat.le_of_eq same

theorem Backlog.Releases.size {b c : Backlog} {ps : List Parked} (h : b.Releases ps c) :
    b.size = ps.length + c.size := by
  rw [← Backlog.length_entries, h.entries, List.length_append, Backlog.length_entries]

namespace Session

variable {s t : Session} {b c : Backlog} {a : Arrival} {ps : List Parked} {sampled : Bool}
  {effects : List Effect} {r : Session × Option Reply × List Effect}

/-- What a session in order may hold, and how often it may have asked. -/
structure Bounded (s : Session) (b : Backlog) : Prop where
  ordered : s.Ordered b
  size : b.size ≤ b.maxEntries
  redo : s.redo ≤ maxRedo
  asked : ∀ r, s.request = some r → 1 ≤ s.redo

/-- There is room for one more packet and for one more request. -/
def Roomy (s : Session) (b : Backlog) : Prop := b.size < b.maxEntries ∧ s.redo < maxRedo

theorem bounded_new (sensor : SensorId) (peer : Endpoint) : (new sensor peer true).Bounded {} where
  ordered := ordered_new sensor peer
  size := Nat.zero_le _
  redo := Nat.zero_le _
  asked := nofun

theorem Bounded.greet (h : s.Bounded b) (a : Arrival) : (s.greet a).1.Bounded b :=
  ⟨h.ordered.greet a, h.size, h.redo, h.asked⟩

theorem Bounded.movedTo {last : Nat} (h : s.Bounded b) (left : b.Releases ps c)
    (ordered : (s.movedTo last c).Ordered c) : (s.movedTo last c).Bounded c where
  ordered := ordered
  size := by
    have all := left.size
    have few := h.size
    rw [left.maxEntries]
    omega
  redo := Nat.zero_le _
  asked := nofun

/-! ## Each outcome keeps the bounds -/

theorem Room.bounded (room : Room s b a ps t c effects) (h : s.Bounded b) : t.Bounded c := by
  have ordered := room.ordered h.ordered
  cases room with
  | kept => exact h
  | forced _ _ left => exact h.movedTo left ordered

/-- Room is made for a packet that is still ahead of its turn. -/
theorem Room.roomy (room : Room s b a ps t c effects) (h : s.Bounded b)
    (ahead : t.isAhead a.sequence = true) : t.Roomy c := by
  cases room with
  | kept spare =>
    obtain ⟨room, asked⟩ := (isExhausted_eq_false_iff h.ordered.backlog).1 (spare ahead)
    exact ⟨(Backlog.isFull_eq_false_iff.1 room).1, asked⟩
  | forced _ _ left =>
    -- At least one packet has left, and no request is open.
    have all := left.size
    have few := h.size
    rw [List.length_cons] at all
    refine ⟨?_, Nat.zero_lt_succ _⟩
    rw [left.maxEntries]
    omega

theorem bounded_parked {redo : Nat} {request : Option Request} (roomy : s.Roomy b)
    (ordered : { s with backlog := some (b.insert a.parked).1, redo, request }.Ordered
      (b.insert a.parked).1) (few : redo ≤ maxRedo) (asked : ∀ r, request = some r → 1 ≤ redo) :
    { s with backlog := some (b.insert a.parked).1, redo, request }.Bounded
      (b.insert a.parked).1 where
  ordered := ordered
  size := by
    have one := b.size_insert_le a.parked
    rw [Backlog.maxEntries_insert]
    exact Nat.le_trans one roomy.1
  redo := few
  asked := asked

theorem Settles.bounded (settles : Settles s b a sampled r c) (h : s.Bounded b)
    (bearable : Bearable a.sequence) (roomy : s.isAhead a.sequence = true → s.Roomy b) :
    r.1.Bounded c := by
  have ordered := settles.ordered h.ordered bearable
  have skips (started : 0 < s.lastSequence) (ahead : s.lastSequence + 1 < a.sequence) :
      s.isAhead a.sequence = true := by
    rw [isAhead_eq h.ordered.last, decide_eq_true started, decide_eq_true ahead]
    rfl
  cases settles with
  | waits started ahead =>
    exact bounded_parked (roomy (skips started ahead)) ordered h.redo h.asked
  | asks started ahead =>
    have roomy := roomy (skips started ahead)
    exact bounded_parked roomy ordered roomy.2 fun _ _ => Nat.succ_le_succ (Nat.zero_le _)
  | inTurn _ _ left => exact h.movedTo left ordered
  | late | restarted => exact h.movedTo b.releases_drain ordered

theorem Takes.bounded (takes : Takes s b a r c) (h : s.Bounded b) (bearable : Bearable a.sequence) :
    r.1.Bounded c := by
  have greeted := h.greet a
  cases takes with
  | repeated => exact greeted
  | settled fresh room settles =>
    exact settles.bounded (room.bounded greeted) bearable (room.roomy greeted)

/-! ## Nothing that waits is passed -/

/-- No packet is found to have waited past its turn. -/
def Punctual (effects : List Effect) : Prop := ∀ id q, .log (.staleParked id q) ∉ effects

theorem Punctual.append {first rest : List Effect} (h : Punctual first) (k : Punctual rest) :
    Punctual (first ++ rest) := by
  intro id q mem
  exact (List.mem_append.1 mem).elim (h id q) (k id q)

theorem Room.punctual (room : Room s b a ps t c effects) : Punctual effects := by
  intro id q
  cases room with
  | kept => simp
  | forced => simp [handed]

theorem Settles.punctual (settles : Settles s b a sampled r c) : Punctual r.2.2 := by
  intro id q
  cases settles with
  | waits =>
    simp only [repeatedly]
    split <;> simp
  | asks =>
    simp only [repeatedly, requesting]
    split <;> split <;> simp
  | inTurn =>
    simp only [answered, handed]
    split <;> simp
  | late | restarted => simp [behind, handed]

theorem Takes.punctual (takes : Takes s b a r c) : Punctual r.2.2 := by
  cases takes with
  | repeated =>
    intro id q
    simp
  | settled _ room settles => exact room.punctual.append settles.punctual

end Session

end SensorIngest
