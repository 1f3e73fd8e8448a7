import SensorIngest.Proofs.Session.Balance
import SensorIngest.Proofs.Session.Bounds

/-!
# How much waits in a session

A session has bounds for the packets and for the bytes that wait. The first one is kept whatever is
offered. The second one is not, since room is made once before a packet is parked, by handing on the
oldest packet and those that continue it (`leading`), however short they are: `Placed` lists what an
offer can do to a backlog, and `parked_bytes` says when the bytes that wait stay below the bound and
one packet more. Where all packets have one length they always do.
-/

namespace SensorIngest

open Intake (Effect)

/-! ## Bytes of a backlog -/

namespace Backlog

variable {b c : Backlog} {p : Parked} {ps : List Parked}

theorem Releases.frameBytes_eq (h : b.Releases ps c) :
    frameBytes b.entries = frameBytes ps + frameBytes c.entries := by
  rw [h.entries]
  simp only [frameBytes_eq_length, List.flatMap_append, List.length_append]

theorem frameBytes_le_mul {longest : Nat} (h : ∀ p ∈ ps, p.frame.length ≤ longest) :
    frameBytes ps ≤ ps.length * longest := by
  induction ps with
  | nil => exact Nat.zero_le _
  | cons p ps ih =>
    rw [List.forall_mem_cons] at h
    rw [frameBytes, List.length_cons, Nat.succ_mul, Nat.add_comm]
    exact Nat.add_le_add (ih h.2) h.1

/-- A packet that waits only since it was inserted adds its bytes. -/
theorem frameBytes_insert (absent : p ∉ b.entries) (inserted : p ∈ (b.insert p).1.entries) :
    frameBytes (b.insert p).1.entries = p.frame.length + frameBytes b.entries := by
  cases dup : b.contains p.sequence with
  | true =>
    rw [insert_of_contains dup] at inserted
    exact absurd inserted absent
  | false => exact frameBytes_eq_of_perm (entries_insert_perm dup)

theorem frameBytes_insert_le (b : Backlog) (p : Parked) :
    frameBytes (b.insert p).1.entries ≤ p.frame.length + frameBytes b.entries := by
  cases dup : b.contains p.sequence with
  | true =>
    rw [insert_of_contains dup]
    exact Nat.le_add_left _ _
  | false => exact Nat.le_of_eq (frameBytes_eq_of_perm (entries_insert_perm dup))

end Backlog

namespace Session

variable {s t : Session} {b c : Backlog} {p : Parked} {ps qs : List Parked} {last : Nat}

/-! ## Offers -/

/-- A packet as it is offered to a session. -/
structure Offer where
  header : Frame.Header
  now : Micros
  sampled : Bool
  raw : Bytes

def Offer.parked (o : Offer) : Parked := ⟨o.header.sequence, o.now, o.raw⟩

/-- The session after an offer, with resending on. -/
def place (s : Session) (o : Offer) : Session :=
  (Intake.sequence true s o.header o.now o.sampled o.raw).1

/-- A new session with room for so many packets and bytes. -/
def newWithin (sensor : SensorId) (peer : Endpoint) (entries bytes : Nat) : Session :=
  { new sensor peer true with backlog := some { maxEntries := entries, maxBytes := bytes } }

example (sensor : SensorId) (peer : Endpoint) :
    newWithin sensor peer 10000 2097152 = new sensor peer true := rfl

/-- The session's own count of the bytes that wait. -/
def heldBytes (s : Session) : Nat := (s.backlog.map Backlog.bytes).getD 0

/-- The packet waits once it is offered, and has not waited before. -/
def Parks (s : Session) (o : Offer) : Prop :=
  o.parked ∉ s.waiting ∧ o.parked ∈ (s.place o).waiting

/-! ## What a forced drain hands on -/

/-- The packets at the front that continue a sequence. -/
def continuing (last : Nat) : List Parked → List Parked
  | [] => []
  | p :: ps => if p.sequence = last + 1 then p :: continuing p.sequence ps else []

/-- The oldest packet and those that continue it. -/
def leading : List Parked → List Parked
  | [] => []
  | p :: ps => p :: continuing p.sequence ps

theorem continuing_append
    (consecutive : ps.map (·.sequence) = List.range' (last + 1) ps.length)
    (gap : ∀ q ∈ qs, last + ps.length + 1 < q.sequence) : continuing last (ps ++ qs) = ps := by
  induction ps generalizing last with
  | nil =>
    cases qs with
    | nil => rfl
    | cons q qs => exact if_neg (Nat.ne_of_gt (gap q List.mem_cons_self))
  | cons p ps ih =>
    rw [List.map_cons, List.length_cons, List.range'_succ, List.cons.injEq] at consecutive
    obtain ⟨first, rest⟩ := consecutive
    rw [List.cons_append, continuing, if_pos first, first, ih rest]
    intro q mem
    have beyond := gap q mem
    rw [List.length_cons] at beyond
    omega

/-! ## Sessions between two offers -/

/-- What waits lies behind a gap, and is counted. -/
structure Tidy (s : Session) (b : Backlog) : Prop where
  backlog : s.backlog = some b
  last : Bearable s.lastSequence
  bearable : ∀ p ∈ b.entries, Bearable p.sequence
  ahead : ∀ p ∈ b.entries, s.lastSequence + 1 < p.sequence
  started : s.lastSequence = 0 → b.entries = []
  accounted : b.Accounted

namespace Tidy

theorem above (h : s.Tidy b) : ∀ p ∈ b.entries, s.lastSequence < p.sequence :=
  fun p mem => Nat.lt_of_succ_lt (h.ahead p mem)

theorem waiting (h : s.Tidy b) : s.waiting = b.entries := waiting_eq h.backlog

theorem heldBytes (h : s.Tidy b) : s.heldBytes = b.bytes := by
  rw [Session.heldBytes, h.backlog]
  rfl

theorem of_empty (hb : s.backlog = some b) (last : Bearable s.lastSequence) (empty : b.entries = [])
    (accounted : b.Accounted) : s.Tidy b :=
  ⟨hb, last, by simp [empty], by simp [empty], fun _ => empty, accounted⟩

end Tidy

/-- Handing on what continues the sequence leaves a gap. -/
theorem drainContiguous_tidy (hb : s.backlog = some b) (last : Bearable s.lastSequence)
    (bearable : ∀ p ∈ b.entries, Bearable p.sequence)
    (above : ∀ p ∈ b.entries, s.lastSequence < p.sequence)
    (started : s.lastSequence = 0 → b.entries = []) (accounted : b.Accounted) :
    ∃ ps c, b.Releases ps c ∧ s.drainContiguous.1.Tidy c := by
  obtain ⟨run, c, left, consecutive, gap, drain⟩ := drainContiguous_eq hb last bearable above
  have reached := last.reach fun p mem => bearable p (left.mem mem)
  rw [reach_of_range' consecutive] at reached
  rw [drain]
  refine ⟨run, c, left, rfl, reached, fun p mem => bearable p (left.waited mem), gap, fun zero => ?_,
    left.accounted accounted⟩
  have none_left := started (Nat.eq_zero_of_add_eq_zero_right zero)
  rw [left.entries] at none_left
  exact (List.append_eq_nil_iff.1 none_left).2

/-- A forced drain hands on the oldest packet and those that continue it. -/
theorem Tidy.forced (h : s.Tidy b) :
    ∃ c, s.forceDrain.1.Tidy c ∧ b.Releases (leading b.entries) c ∧
      s.lastSequence ≤ s.forceDrain.1.lastSequence := by
  cases e : b.entries with
  | nil =>
    rw [forceDrain_of_empty h.backlog e]
    exact ⟨b, ⟨h.backlog, h.last, h.bearable, h.ahead, h.started, h.accounted⟩, .refl b,
      Nat.le_refl _⟩
  | cons p ps =>
    have first := h.above p (e ▸ List.mem_cons_self)
    obtain ⟨run, c, left, consecutive, gap, drain⟩ := forceDrain_eq h.backlog e h.bearable first
    have front : leading (p :: ps) = p :: run := by
      rw [← e, left.entries, List.cons_append, leading, continuing_append consecutive gap]
    have started : p.sequence + run.length ≠ 0 := by omega
    have all : ∀ q ∈ p :: run, Bearable q.sequence := fun q mem => h.bearable q (left.mem mem)
    rw [List.forall_mem_cons] at all
    have reached := all.1.reach all.2
    rw [reach_of_range' consecutive] at reached
    rw [drain, front]
    refine ⟨c, ⟨rfl, reached, fun q mem => h.bearable q (left.waited mem), gap,
      fun zero => absurd zero started, left.accounted h.accounted⟩, left, ?_⟩
    exact Nat.le_trans (Nat.le_of_lt first) (Nat.le_add_right _ _)

/-! ## What an offer does -/

variable {o : Offer}

/-- A packet that finds nothing waiting goes on alone. -/
theorem proceeds_alone (hb : s.backlog = some b) (last : Bearable s.lastSequence)
    (bearable : Bearable o.header.sequence) (empty : b.entries = []) (accounted : b.Accounted)
    (effects : List Effect) :
    (Intake.conclude o.header o.now o.sampled o.raw (s, .proceed, effects)).1.Tidy b := by
  let u := (s.handOff o.header.sequence o.now o.sampled o.raw).1
  have stays : u.drainContiguous = (u, []) :=
    drainContiguous_of_gap (s := u) hb (by simp [empty])
  change u.drainContiguous.1.Tidy b
  rw [stays]
  exact .of_empty hb (last.handOff bearable o.now o.sampled o.raw) empty accounted

/-- A packet whose turn it is goes on with those that continue it. -/
theorem Tidy.proceeds (h : s.Tidy b) (bearable : Bearable o.header.sequence)
    (next : s.lastSequence = 0 ∨ o.header.sequence = s.lastSequence + 1) (effects : List Effect) :
    ∃ ps c, b.Releases ps c ∧
      (Intake.conclude o.header o.now o.sampled o.raw (s, .proceed, effects)).1.Tidy c := by
  let u := (s.handOff o.header.sequence o.now o.sampled o.raw).1
  have reached : u.lastSequence = o.header.sequence := by
    simp only [u, handOff, isRestart]
    have level : ¬ o.header.sequence < s.lastSequence := by omega
    simp only [level, decide_false, Bool.false_and, Bool.false_eq_true, if_false]
    omega
  have above : ∀ p ∈ b.entries, u.lastSequence < p.sequence := by
    intro p mem
    rcases next with zero | next
    · rw [h.started zero] at mem
      cases mem
    · rw [reached, next]
      exact h.ahead p mem
  have started (zero : u.lastSequence = 0) : b.entries = [] := by
    refine h.started ?_
    omega
  exact drainContiguous_tidy (s := u) h.backlog (reached ▸ bearable) h.bearable above started h.accounted

/-- A packet that is not ahead of its turn is never parked. -/
theorem Tidy.accepted (h : s.Tidy b) (bearable : Bearable o.header.sequence)
    (low : s.lastSequence = 0 ∨ o.header.sequence ≤ s.lastSequence + 1) :
    ∃ ps c, b.Releases ps c ∧
      (Intake.conclude o.header o.now o.sampled o.raw
        (s.accept o.header.sequence)).1.Tidy c := by
  have emptied := b.releases_drain.accounted h.accounted
  have reached := h.last.reach h.bearable
  unfold accept
  dsimp only
  split
  · rw [drainAll_eq (s := { s with redo := 0 }) h.backlog h.above]
    split
    · exact ⟨_, b.drain.2, b.releases_drain,
        proceeds_alone rfl reached bearable b.entries_drain emptied _⟩
    · exact ⟨_, b.drain.2, b.releases_drain, .of_empty rfl reached b.entries_drain emptied⟩
  · rename_i forward
    have next : s.lastSequence = 0 ∨ o.header.sequence = s.lastSequence + 1 := by omega
    split
    · exact Tidy.proceeds (s := { s with redo := 0, request := none })
        ⟨h.backlog, h.last, h.bearable, h.ahead, h.started, h.accounted⟩ bearable next _
    · exact Tidy.proceeds (s := { s with redo := 0 })
        ⟨h.backlog, h.last, h.bearable, h.ahead, h.started, h.accounted⟩ bearable next _

/-- A packet that is still ahead of its turn is parked. -/
theorem Tidy.settled (h : s.Tidy b) (started : 0 < s.lastSequence)
    (bearable : Bearable o.header.sequence) :
    ∃ c, (Intake.conclude o.header o.now o.sampled o.raw (s.settle o.parked)).1.Tidy c ∧
      (c = (b.insert o.parked).1 ∨ ∃ ps, b.Releases ps c) := by
  unfold settle
  rw [following_eq h.last]
  split
  · rename_i ahead
    have tidy {redo : Nat} {request : Option Request} :
        { s with backlog := some (b.insert o.parked).1, redo, request }.Tidy
          (b.insert o.parked).1 := by
      refine ⟨rfl, h.last, fun p mem => ?_, fun p mem => ?_,
        fun zero => absurd zero (Nat.ne_of_gt started), h.accounted.insert o.parked⟩
      · rcases Backlog.eq_or_mem_of_mem_insert mem with rfl | mem
        · exact bearable
        · exact h.bearable p mem
      · rcases Backlog.eq_or_mem_of_mem_insert mem with rfl | mem
        · exact ahead
        · exact h.ahead p mem
    rw [h.backlog]
    unfold park
    dsimp only
    split
    · exact ⟨_, tidy, .inl rfl⟩
    · exact ⟨_, tidy, .inl rfl⟩
  · rename_i turn
    have low : s.lastSequence = 0 ∨ o.header.sequence ≤ s.lastSequence + 1 :=
      .inr (Nat.le_of_not_lt turn)
    obtain ⟨ps, c, left, tidy⟩ := h.accepted bearable low
    exact ⟨c, tidy, .inr ⟨ps, left⟩⟩

/-- Everything that an offer can do to what waits. -/
inductive Placed (s : Session) (b : Backlog) (p : Parked) : Backlog → Prop
  /-- Packets leave, and this one is not parked. -/
  | released {ps : List Parked} {c : Backlog} (left : b.Releases ps c) : Placed s b p c
  | parked (spare : s.isExhausted = false) : Placed s b p (b.insert p).1
  /-- Room is made, and the packet is parked. -/
  | forced {c : Backlog} (exhausted : s.isExhausted = true)
      (left : b.Releases (leading b.entries) c) : Placed s b p (c.insert p).1

theorem Tidy.placed (h : s.Tidy b) (bearable : Bearable o.header.sequence) :
    ∃ c, (s.place o).Tidy c ∧ Placed s b o.parked c := by
  unfold Session.place Intake.sequence
  dsimp only
  split
  · exact ⟨b, h, .released (.refl b)⟩
  · rw [if_neg (by decide)]
    unfold offer
    cases ahead : s.isAhead o.header.sequence with
    | false =>
      have low : s.lastSequence = 0 ∨ o.header.sequence ≤ s.lastSequence + 1 := by
        simp only [isAhead_eq h.last, Bool.and_eq_false_iff, decide_eq_false_iff_not] at ahead
        omega
      obtain ⟨ps, c, left, tidy⟩ := h.accepted bearable low
      exact ⟨c, tidy, .released left⟩
    | true =>
      have started : 0 < s.lastSequence := by
        rw [isAhead, Bool.and_eq_true, decide_eq_true_eq] at ahead
        exact ahead.1
      simp only [if_true, conclude_append]
      unfold makeRoom
      cases exhausted : s.isExhausted with
      | false =>
        obtain ⟨c, tidy, rfl | ⟨ps, left⟩⟩ := h.settled started bearable
        · exact ⟨_, tidy, .parked exhausted⟩
        · exact ⟨c, tidy, .released left⟩
      | true =>
        obtain ⟨d, room, left, further⟩ := h.forced
        obtain ⟨c, tidy, rfl | ⟨ps, more⟩⟩ := room.settled (Nat.lt_of_lt_of_le started further) bearable
        · exact ⟨_, tidy, .forced exhausted left⟩
        · exact ⟨c, tidy, .released (left.trans more)⟩

/-! ## The bounds -/

variable {entries bytes n : Nat}

/-- A session in which no more packets wait than may. -/
structure Within (s : Session) (b : Backlog) (entries bytes : Nat) : Prop extends s.Tidy b where
  maxEntries : b.maxEntries = entries
  maxBytes : b.maxBytes = bytes
  few : b.size ≤ entries

/-- All packets that wait have one length, and their bytes exceed the bound by less than one. -/
structure Level (b : Backlog) (bytes n : Nat) : Prop where
  same : ∀ p ∈ b.entries, p.frame.length = n
  below : b.bytes < bytes + n

theorem within_new (sensor : SensorId) (peer : Endpoint) (entries bytes : Nat) :
    (newWithin sensor peer entries bytes).Within
      { maxEntries := entries, maxBytes := bytes } entries bytes where
  backlog := rfl
  last := show 0 < 2 ^ 64 - 1 by decide
  bearable := nofun
  ahead := nofun
  started _ := rfl
  accounted := rfl
  maxEntries := rfl
  maxBytes := rfl
  few := Nat.zero_le _

theorem Tidy.spare (h : s.Tidy b) (spare : s.isExhausted = false) :
    b.size < b.maxEntries ∧ b.bytes < b.maxBytes :=
  Backlog.isFull_eq_false_iff.1 ((isExhausted_eq_false_iff h.backlog).1 spare).1

theorem Placed.maxEntries (placed : Placed s b p c) : c.maxEntries = b.maxEntries := by
  cases placed with
  | released left => exact left.maxEntries
  | parked => exact b.maxEntries_insert p
  | forced _ left => rw [Backlog.maxEntries_insert, left.maxEntries]

theorem Placed.maxBytes (placed : Placed s b p c) : c.maxBytes = b.maxBytes := by
  cases placed with
  | released left => exact left.maxBytes
  | parked => exact b.maxBytes_insert p
  | forced _ left => rw [Backlog.maxBytes_insert, left.maxBytes]

/-- What waits after an offer waited before, or was offered. -/
theorem Placed.all {P : Parked → Prop} (placed : Placed s b p c) (h : ∀ q ∈ b.entries, P q)
    (offered : P p) : ∀ q ∈ c.entries, P q := by
  intro q mem
  cases placed with
  | released left => exact h q (left.waited mem)
  | parked =>
    rcases Backlog.eq_or_mem_of_mem_insert mem with rfl | mem
    · exact offered
    · exact h q mem
  | forced _ left =>
    rcases Backlog.eq_or_mem_of_mem_insert mem with rfl | mem
    · exact offered
    · exact h q (left.waited mem)

theorem Placed.few (placed : Placed s b p c) (h : s.Within b entries bytes)
    (positive : 1 ≤ entries) : c.size ≤ entries := by
  have few := h.few
  cases placed with
  | released left =>
    have size := left.size
    omega
  | parked spare =>
    have size := b.size_insert_le p
    have room := h.maxEntries ▸ (h.spare spare).1
    omega
  | @forced d _ left =>
    have inserted := d.size_insert_le p
    have size := left.size
    -- A packet leaves for the one that comes, unless none waited.
    cases e : b.entries with
    | nil =>
      have empty := b.length_entries
      rw [e, List.length_nil] at empty
      omega
    | cons q qs =>
      rw [e, leading, List.length_cons] at size
      omega

theorem Within.placed (h : s.Within b entries bytes) (positive : 1 ≤ entries)
    (bearable : Bearable o.header.sequence) :
    ∃ c, (s.place o).Within c entries bytes ∧ Placed s b o.parked c := by
  obtain ⟨c, tidy, placed⟩ := h.toTidy.placed bearable
  exact ⟨c, ⟨tidy, placed.maxEntries.trans h.maxEntries, placed.maxBytes.trans h.maxBytes,
    placed.few h positive⟩, placed⟩

/-- The bytes stay below the bound and one packet more exactly if a forced drain would hand on
enough. -/
theorem Within.parks (h : s.Within b entries bytes) (positive : 1 ≤ entries)
    (bearable : Bearable o.header.sequence) (parks : Parks s o) :
    (s.place o).heldBytes < bytes + o.raw.length ↔
      s.heldBytes < bytes + Backlog.frameBytes (leading s.waiting) := by
  obtain ⟨c, after, placed⟩ := h.placed positive bearable
  obtain ⟨absent, present⟩ := parks
  have total := h.accounted
  have length : o.parked.frame.length = o.raw.length := rfl
  rw [h.waiting] at absent
  rw [after.waiting] at present
  rw [h.waiting, h.heldBytes, after.heldBytes, after.accounted]
  cases placed with
  | released left =>
    exact absurd (left.waited present) absent
  | parked spare =>
    have room := h.maxBytes ▸ (h.spare spare).2
    have added := Backlog.frameBytes_insert absent present
    rw [length] at added
    rw [Backlog.Accounted] at total
    omega
  | @forced d exhausted left =>
    have split := left.frameBytes_eq
    have added := Backlog.frameBytes_insert (fun mem => absent (left.waited mem)) present
    rw [length] at added
    rw [Backlog.Accounted] at total
    omega

theorem Placed.level (placed : Placed s b p c) (h : s.Within b entries bytes)
    (level : Level b bytes n) (positive : 1 ≤ bytes) (length : p.frame.length = n)
    (accounted : c.Accounted) : Level c bytes n := by
  refine ⟨placed.all level.same length, ?_⟩
  have total := h.accounted
  have below := level.below
  rw [Backlog.Accounted] at total accounted
  cases placed with
  | released left =>
    have split := left.frameBytes_eq
    omega
  | parked spare =>
    have room := h.maxBytes ▸ (h.spare spare).2
    have added := b.frameBytes_insert_le p
    omega
  | @forced d _ left =>
    have split := left.frameBytes_eq
    have added := d.frameBytes_insert_le p
    -- Where the bound is reached, a packet leaves that is as long as the one that comes.
    cases e : b.entries with
    | nil =>
      rw [e, Backlog.frameBytes] at total split
      omega
    | cons q qs =>
      have first := level.same q (e ▸ List.mem_cons_self)
      simp only [e, leading, Backlog.frameBytes] at split total
      omega

/-! ## Runs -/

/-- What waits after a run waited before it, or was offered in it. -/
theorem Within.run {P : Parked → Prop} (h : s.Within b entries bytes) (positive : 1 ≤ entries)
    (before : ∀ p ∈ b.entries, P p) {offers : List Offer}
    (bearable : ∀ o ∈ offers, Bearable o.header.sequence) (offered : ∀ o ∈ offers, P o.parked) :
    ∃ c, (offers.foldl place s).Within c entries bytes ∧ ∀ p ∈ c.entries, P p := by
  induction offers generalizing s b with
  | nil => exact ⟨b, h, before⟩
  | cons o offers ih =>
    rw [List.forall_mem_cons] at bearable offered
    obtain ⟨c, within, placed⟩ := h.placed positive bearable.1
    exact ih within (placed.all before offered.1) bearable.2 offered.2

theorem Level.run (level : Level b bytes n) (h : s.Within b entries bytes)
    (someEntries : 1 ≤ entries) (someBytes : 1 ≤ bytes) {offers : List Offer}
    (bearable : ∀ o ∈ offers, Bearable o.header.sequence)
    (lengths : ∀ o ∈ offers, o.raw.length = n) :
    ∃ c, (offers.foldl place s).Within c entries bytes ∧ Level c bytes n := by
  induction offers generalizing s b with
  | nil => exact ⟨b, h, level⟩
  | cons o offers ih =>
    rw [List.forall_mem_cons] at bearable lengths
    obtain ⟨c, within, placed⟩ := h.placed someEntries bearable.1
    exact ih (placed.level h level someBytes lengths.1 within.accounted) within bearable.2 lengths.2

/-- Whatever is offered, the bytes that wait are counted, and no more packets wait than may. When a
packet is parked, the bytes are below the bound and one packet more exactly if they had exceeded the
bound by less than the packets that a forced drain hands on; so they are whenever all packets have
one length. Otherwise it is the number of packets alone that bounds the bytes. All this is about
sequences with others behind them. -/
theorem parked_bytes (sensor : SensorId) (peer : Endpoint) {entries bytes : Nat}
    (someEntries : 1 ≤ entries) (someBytes : 1 ≤ bytes) (offers : List Offer)
    (bearable : ∀ o ∈ offers, Bearable o.header.sequence) :
    let s := offers.foldl place (newWithin sensor peer entries bytes)
    s.heldBytes = Backlog.frameBytes s.waiting ∧ s.waiting.length ≤ entries ∧
      (∀ o, Bearable o.header.sequence → Parks s o → ((s.place o).heldBytes < bytes + o.raw.length ↔
        s.heldBytes < bytes + Backlog.frameBytes (leading s.waiting))) ∧
      (∀ n, (∀ o ∈ offers, o.raw.length = n) → s.heldBytes < bytes + n) ∧
      ∀ longest, (∀ o ∈ offers, o.raw.length ≤ longest) → s.heldBytes ≤ entries * longest := by
  intro s
  have new := within_new sensor peer entries bytes
  obtain ⟨b, h, -⟩ := new.run (P := fun _ => True) someEntries nofun bearable fun _ _ => trivial
  refine ⟨?_, ?_, fun o bears parks => h.parks someEntries bears parks, fun n lengths => ?_,
    fun longest lengths => ?_⟩
  · rw [h.heldBytes, h.waiting, h.accounted]
  · rw [h.waiting, Backlog.length_entries]
    exact h.few
  · have level : Level { maxEntries := entries, maxBytes := bytes } bytes n :=
      ⟨nofun, Nat.lt_add_right n someBytes⟩
    obtain ⟨c, within, level⟩ := level.run new someEntries someBytes bearable lengths
    rw [within.heldBytes]
    exact level.below
  · obtain ⟨c, within, short⟩ :=
      new.run (P := fun p => p.frame.length ≤ longest) someEntries nofun bearable lengths
    rw [within.heldBytes, within.accounted]
    refine Nat.le_trans (Backlog.frameBytes_le_mul short) (Nat.mul_le_mul_right longest ?_)
    rw [Backlog.length_entries]
    exact within.few

/-- Packets of one byte wait before packets of four. With room for eight bytes, the packet of four that
is parked next leaves thirteen. -/
theorem parked_bytes_overflow :
    let offer (sequence length : Nat) : Offer :=
      { header := ⟨sequence, ⟨1, 0, 0⟩, ⟨1, 0, 0⟩, .ofNat 7, ⟨0, 0, 0⟩, ⟨0x20⟩⟩
        now := 0, sampled := false, raw := List.replicate length 0 }
    let offers := [offer 10 1, offer 12 1, offer 14 1, offer 16 4, offer 18 4]
    let s := offers.foldl place (newWithin (.ofNat 7) (.localhost 4000) 10 8)
    (∀ o ∈ offers, Bearable o.header.sequence) ∧ Parks s (offer 20 4) ∧
      s.heldBytes = 10 ∧ s.waiting.length ≤ 10 ∧
      (s.place (offer 20 4)).heldBytes = 13 ∧ ¬ (s.place (offer 20 4)).heldBytes < 8 + 4 := by
  intro offer offers s
  have bearable : ∀ o ∈ offers, Bearable o.header.sequence := by decide
  have parks : Parks s (offer 20 4) := ⟨by decide +kernel, by decide +kernel⟩
  have before : s.heldBytes = 10 := by decide +kernel
  have forced : Backlog.frameBytes (leading s.waiting) = 1 := by decide +kernel
  obtain ⟨-, few, bounded, -⟩ := @parked_bytes (.ofNat 7) (.localhost 4000) 10 8 (by decide)
    (by decide) offers bearable
  refine ⟨bearable, parks, before, few, by decide +kernel, ?_⟩
  intro below
  have enough := (bounded (offer 20 4) (by decide) parks).1 below
  change s.heldBytes < 8 + Backlog.frameBytes (leading s.waiting) at enough
  rw [before, forced] at enough
  exact absurd enough (by decide)

end Session

end SensorIngest
