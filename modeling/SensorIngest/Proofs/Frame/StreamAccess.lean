import SensorIngest.Proofs.Frame.Access
import SensorIngest.Proofs.Frame.Consumption

/-!
# Cutting frames within the bounds of a buffer

`Stream.Checked.next` looks at the buffer of a stream through slices that are in range or give no
result at all, and moves the used part on only within the buffer. It does what `Stream.next` does on
every stream (`next_eq`), and so does a whole run (`performAll_eq`): the used part never passes the
end of the buffer, and the search for the next place that could start a frame stays within the pending
bytes.
-/

namespace SensorIngest.Frame.Stream

variable {s t : Stream} {n place size : Nat} {r : Except Error Bytes}

namespace Checked

open SensorIngest.Checked (slice slice_zero slice_length minus minus_eq)

/-- The bytes that no result has used yet, cut out of the buffer. -/
def pending (s : Stream) : Option Bytes := slice s.buffer.toList s.used s.buffer.toList.length

theorem pending_eq (s : Stream) : pending s = some s.pending := slice_length s.used_le

/-- `Stream.buffered`, if the used part ends within the buffer. -/
def buffered (s : Stream) : Option Nat := minus s.buffer.size s.used

/-- `Stream.skip`, if the buffer holds as many bytes. -/
def skip (s : Stream) (n : Nat) : Option Stream :=
  if inside : s.used + n ≤ s.buffer.size then
    some { s with used := s.used + n, used_le := inside }
  else none

theorem skip_eq (inside : n ≤ s.pending.length) : skip s n = some (s.skip n) := by
  have room := s.used_le
  rw [length_pending, Stream.buffered] at inside
  have fits : s.used + n ≤ s.buffer.size := by omega
  rw [skip, dif_pos fits]
  simp only [Stream.skip, Nat.min_eq_left fits]

/-- `Stream.compact`, with the used part cut off. -/
def compact (s : Stream) : Option Stream :=
  if s.used = s.buffer.size ∨ compactLength ≤ s.used then do
    return { verifying := s.verifying, buffer := (← pending s).toArray }
  else some s

/-- `Stream.feed`, on a buffer that was made room in. -/
def feed (s : Stream) (bytes : Bytes) : Option Stream := do
  let s ← compact s
  return { s with
    buffer := s.buffer ++ bytes
    used_le := Nat.le_trans s.used_le (by simp [← Array.length_toList]) }

/-- The first place, from a given one on, that could start a frame, or the end of the bytes. -/
def gap (bytes : Bytes) (place : Nat) : Option Nat :=
  if bytes.length ≤ place then some bytes.length
  else do
    let rest ← slice bytes place bytes.length
    let n := min rest.length startMarker.length
    if (← slice rest 0 n) = (← slice startMarker 0 n) then return place
    gap bytes (place + 1)
termination_by bytes.length - place

/-- What could start a frame agrees with the start marker as far as it goes. -/
theorem couldStart_iff (bytes : Bytes) :
    couldStart bytes = true ↔ bytes.take startMarker.length =
      startMarker.take (min bytes.length startMarker.length) := by
  rw [couldStart, List.isPrefixOf_iff_prefix, List.prefix_iff_eq_take, List.length_take,
    Nat.min_comm]

/-- Comparing with the start marker stays within both. -/
theorem marker_eq (bytes : Bytes) :
    slice bytes 0 (min bytes.length startMarker.length) =
        some (bytes.take startMarker.length) ∧
      slice startMarker 0 (min bytes.length startMarker.length) =
        some (startMarker.take (min bytes.length startMarker.length)) := by
  refine ⟨?_, slice_zero (Nat.min_le_right _ _)⟩
  rw [slice_zero (Nat.min_le_left _ _), Nat.min_comm, ← List.take_take, List.take_length]

theorem gap_eq (s : Stream) (before : place ≤ s.pending.length) :
    gap s.pending place = some (s.gap place) ∧ s.gap place ≤ s.pending.length := by
  have room := s.used_le
  have length := s.length_pending
  rw [Stream.buffered] at length
  have front (i : Nat) : (s.buffer.extract (s.used + i) (s.used + i + startMarker.length)).toList =
      (s.pending.drop i).take startMarker.length := by
    simp [Stream.pending, List.extract_eq_take_drop]
  have starts (i : Nat) : couldStart (s.buffer.extract (s.used + i)
      (s.used + i + startMarker.length)).toList = couldStart (s.pending.drop i) := by
    rw [front, couldStart, couldStart, List.take_take, Nat.min_self]
  fun_induction s.gap place with
  | case1 place ends =>
    have there : s.pending.length = place := Nat.le_antisymm (by omega) before
    rw [gap, if_pos (Nat.le_of_eq there), there]
    exact ⟨rfl, Nat.le_refl _⟩
  | case2 place ends start =>
    obtain ⟨left, right⟩ := marker_eq (s.pending.drop place)
    rw [starts, couldStart_iff] at start
    rw [gap, if_neg (by omega), slice_length before]
    simp only [bind, Option.bind, left, right, if_pos start]
    exact ⟨rfl, before⟩
  | case3 place ends start ih =>
    obtain ⟨left, right⟩ := marker_eq (s.pending.drop place)
    rw [starts, couldStart_iff] at start
    rw [gap, if_neg (by omega), slice_length before]
    simp only [bind, Option.bind, left, right, if_neg start]
    exact ih (by omega)

/-- `Stream.resync`, within the bounds of the buffer. -/
def resync (s : Stream) : Option Stream := do
  skip s (← gap (← pending s) 1)

theorem resync_eq (some_ : s.pending ≠ []) : resync s = some s.resync := by
  obtain ⟨found, inside⟩ := gap_eq s (List.length_pos_iff.2 some_)
  rw [resync, pending_eq]
  simp only [bind, Option.bind, found]
  exact skip_eq inside

/-- `Stream.next`, within the bounds of the buffer. -/
def next (s : Stream) : Option (Option (Except Error Bytes × Stream)) := do
  let avail ← pending s
  if avail.length < preambleLength then
    let n := min avail.length startMarker.length
    if (← slice avail 0 n) = (← slice startMarker 0 n) then return none
    return some (.error .badStart, ← resync s)
  let stated := Bytes.toNat [← avail[5]?, ← avail[6]?, ← avail[7]?, ← avail[8]?]
  let need := if stated ≤ maxSize then lengthOf stated else preambleLength
  match ← Frame.Checked.envelope (← slice avail 0 (min need avail.length)) with
  | .error (.truncated _ _) => return none
  | .error reason => return some (.error reason, ← resync s)
  | .ok size =>
    let frame ← slice avail 0 (lengthOf size)
    let checked ← if s.verifying then Frame.Checked.verify frame size else some (.ok ())
    return some (checked.map fun _ => frame, ← skip s (lengthOf size))

end Checked

/-- Where a text holds the preamble of a frame, its first bytes up to the end of that frame tell the
envelope. -/
theorem envelope_take {x : Bytes} {need : Nat} (wide : preambleLength ≤ need)
    (whole : ∀ size, preamble x = .ok size → need = lengthOf size) :
    envelope (x.take need) = match preamble x with
      | .error reason => .error reason
      | .ok size => match x[lengthOf size - 1]? with
        | none => .error (.truncated (lengthOf size) (x.take need).length)
        | some last => if last = endMarker then .ok size else .error (.badEnd last) := by
  have front : preamble (x.take need) = preamble x := by
    rw [← preamble_take, List.take_take, Nat.min_eq_left wide, preamble_take]
  rw [envelope, front]
  cases read : preamble x with
  | error reason => rfl
  | ok size =>
    have inside : lengthOf size - 1 < need := by
      rw [whole size read]
      exact Nat.sub_lt (Nat.succ_pos _) Nat.one_pos
    cases ends : x[lengthOf size - 1]? <;>
      simp only [bind, Except.bind, List.getElem?_take_of_lt inside, ends]

/-- The size that the preamble states is the number in its last four octets. -/
theorem stated_of_preamble {x : Bytes} (nine : 9 ≤ x.length) (h : preamble x = .ok size) :
    Bytes.toNat [x[5], x[6], x[7], x[8]] = size ∧ size ≤ maxSize := by
  obtain ⟨s₃, s₂, s₁, s₀, tail, rfl, spelled, -, most⟩ := exists_of_preamble h
  exact ⟨spelled, most⟩

/-- As much as the stated size asks for holds a preamble, and is one frame where the preamble is
right. -/
theorem need_spec {x : Bytes} (nine : 9 ≤ x.length) :
    let stated := Bytes.toNat [x[5], x[6], x[7], x[8]]
    let need := if stated ≤ maxSize then lengthOf stated else preambleLength
    preambleLength ≤ need ∧ ∀ size, preamble x = .ok size → need = lengthOf size := by
  intro stated need
  constructor
  · dsimp only [need]
    split
    · simp only [lengthOf]
      omega
    · exact Nat.le_refl _
  · intro size read
    obtain ⟨same, most⟩ := stated_of_preamble nine read
    simp only [need, stated, same, if_pos most]

theorem preamble_of_short {x : Bytes} (short : x.length < preambleLength) :
    preamble x = .error (.truncated preambleLength x.length) := by
  have read := Frame.Checked.preamble_eq x
  rw [Frame.Checked.preamble, if_pos short] at read
  exact (Option.some.inj read).symm

/-- The next result, told by the pending bytes. -/
theorem next_eq_match (s : Stream) :
    s.next = match preamble s.pending with
      | .error (.truncated _ _) =>
        if couldStart s.pending then none else some (.error .badStart, s.resync)
      | .error reason => some (.error reason, s.resync)
      | .ok size => match s.pending[lengthOf size - 1]? with
        | none => none
        | some last =>
          if last = endMarker then
            let frame := s.pending.take (lengthOf size)
            let checked := if s.verifying then verify frame size else .ok ()
            some (checked.map fun _ => frame, s.skip (lengthOf size))
          else some (.error (.badEnd last), s.resync) := by
  have step := next.eq_def s
  simp only [front_eq, byte?_eq, preamble_take, couldStart_take] at step
  exact step

namespace Checked

open SensorIngest.Checked (slice slice_zero)

theorem next_of_short (short : s.pending.length < preambleLength) : next s = some s.next := by
  obtain ⟨left, right⟩ := marker_eq s.pending
  rw [next_eq_match, preamble_of_short short, next, pending_eq]
  simp only [bind, Option.bind, if_pos short, left, right, ← couldStart_iff, pure]
  by_cases start : couldStart s.pending = true
  · rw [if_pos start, if_pos start]
  · have some_ : s.pending ≠ [] := by
      intro empty
      exact start (by rw [empty]; rfl)
    rw [if_neg start, if_neg start, resync_eq some_]

theorem next_of_long (long : preambleLength ≤ s.pending.length) : next s = some s.next := by
  have nine : 9 ≤ s.pending.length := long
  have some_ : s.pending ≠ [] := by
    rintro empty
    rw [empty] at nine
    cases nine
  rw [next_eq_match, next, pending_eq]
  simp only [bind, Option.bind, if_neg (Nat.not_lt.2 long), pure,
    List.getElem?_eq_getElem (show 5 < s.pending.length by omega),
    List.getElem?_eq_getElem (show 6 < s.pending.length by omega),
    List.getElem?_eq_getElem (show 7 < s.pending.length by omega),
    List.getElem?_eq_getElem (show 8 < s.pending.length by omega)]
  obtain ⟨wide, whole⟩ := need_spec nine
  generalize (if Bytes.toNat [s.pending[5], s.pending[6], s.pending[7], s.pending[8]] ≤ maxSize
    then lengthOf (Bytes.toNat [s.pending[5], s.pending[6], s.pending[7], s.pending[8]])
    else preambleLength) = need at wide whole ⊢
  have probe : slice s.pending 0 (min need s.pending.length) = some (s.pending.take need) := by
    rw [slice_zero (Nat.min_le_right _ _), ← List.take_take, List.take_length]
  rw [probe]
  simp only [Frame.Checked.envelope_eq, envelope_take wide whole]
  cases read : preamble s.pending with
  | error reason =>
    cases reason with
    | truncated => exact absurd (length_lt_of_preamble read) (Nat.not_lt.2 long)
    | _ => simp only [resync_eq some_]
  | ok size =>
    dsimp only
    cases ends : s.pending[lengthOf size - 1]? with
    | none => rfl
    | some last =>
      by_cases marked : last = endMarker
      · have least : minSize ≤ size := minSize_le_of_preamble read
        have inside : lengthOf size ≤ s.pending.length := by
          obtain ⟨within, -⟩ := List.getElem?_eq_some_iff.1 ends
          simp only [lengthOf] at within ⊢
          omega
        have length : lengthOf size ≤ (s.pending.take (lengthOf size)).length := by
          rw [List.length_take, Nat.min_eq_left inside]
        simp only [if_pos marked, slice_zero inside, skip_eq inside,
          Frame.Checked.verify_eq least length]
        cases s.verifying <;> rfl
      · simp only [if_neg marked, resync_eq some_]

theorem next_eq (s : Stream) : next s = some s.next :=
  (Nat.lt_or_ge s.pending.length preambleLength).elim next_of_short next_of_long

/-! ## Runs -/

/-- `Stream.drain`, within the bounds of the buffer. -/
def drain (s : Stream) : Option (List (Except Error Bytes) × Stream) :=
  match _step : next s with
  | none => none
  | some none => some ([], s)
  | some (some (result, rest)) => do
    let (results, last) ← drain rest
    return (result :: results, last)
termination_by s.buffered
decreasing_by exact buffered_lt (Option.some.inj ((next_eq s).symm.trans _step))

theorem drain_eq (s : Stream) : drain s = some s.drain := by
  fun_induction Stream.drain s with
  | case1 s stop =>
    rw [drain]
    split
    · rename_i failed
      rw [next_eq] at failed
      cases failed
    · rfl
    · rename_i step
      rw [next_eq, stop] at step
      cases step
  | case2 s result rest found results last eq ih =>
    rw [drain]
    split
    · rename_i failed
      rw [next_eq] at failed
      cases failed
    · rename_i step
      rw [next_eq, found] at step
      cases step
    · rename_i step
      rw [next_eq, found] at step
      cases step
      rw [ih, eq]
      rfl

/-- `Stream.perform`, within the bounds of the buffer. -/
def perform (s : Stream) : Op → Option (List (Except Error Bytes) × Stream)
  | .feed bytes => do return ([], ← feed s bytes)
  | .next => do
    match ← next s with
    | none => return ([], s)
    | some (result, rest) => return ([result], rest)

/-- `Stream.performAll`, within the bounds of the buffer. -/
def performAll (s : Stream) : List Op → Option (List (Except Error Bytes) × Stream)
  | [] => drain s
  | op :: ops => do
    let (results, t) ← perform s op
    let (more, last) ← performAll t ops
    return (results ++ more, last)

end Checked

end SensorIngest.Frame.Stream
