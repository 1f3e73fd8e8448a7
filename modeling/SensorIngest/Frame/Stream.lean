import SensorIngest.Frame.Split

/-!
# Frames in a byte stream

A `Stream` keeps the bytes of a connection that are not yet part of a result and cuts results off
their front, as `split?` says (`split?_pending`). The bytes stand in an array of which a front part is
used up, so that a result takes time by its own length only, and waiting takes none. Every result
shortens what is kept, hence `drain` ends.
-/

namespace SensorIngest.Frame

/-- The bytes of one connection. -/
structure Stream where
  /-- Whether a frame with a wrong checksum is refused. -/
  verifying : Bool
  buffer : Array UInt8 := #[]
  /-- How many bytes at the front of the buffer results have used. -/
  used : Nat := 0
  used_le : used ≤ buffer.size := by exact Nat.zero_le _

namespace Stream

/-- The bytes that no result has used yet. -/
def pending (s : Stream) : Bytes := s.buffer.toList.drop s.used

/-- The number of bytes that no result has used yet. -/
def buffered (s : Stream) : Nat := s.buffer.size - s.used

@[simp] theorem length_pending (s : Stream) : s.pending.length = s.buffered := by
  simp [pending, buffered]

/-- The used part of a buffer that still holds pending bytes is given up at this length. -/
def compactLength : Nat := 65536

/-- Gives up the used part of the buffer when it is all of it or has grown long. -/
def compact (s : Stream) : Stream :=
  if s.used = s.buffer.size ∨ compactLength ≤ s.used then
    { verifying := s.verifying, buffer := s.buffer.extract s.used s.buffer.size }
  else s

@[simp] theorem pending_compact (s : Stream) : s.compact.pending = s.pending := by
  unfold compact
  split
  · simp [pending, List.take_of_length_le]
  · rfl

@[simp] theorem verifying_compact (s : Stream) : s.compact.verifying = s.verifying := by
  unfold compact
  split <;> rfl

def feed (s : Stream) (bytes : Bytes) : Stream :=
  let s := s.compact
  { s with
    buffer := s.buffer ++ bytes
    used_le := by
      have := s.used_le
      rw [← Array.length_toList, Array.toList_appendList, List.length_append, Array.length_toList]
      omega }

@[simp] theorem pending_feed (s : Stream) (bytes : Bytes) :
    (s.feed bytes).pending = s.pending ++ bytes := by
  rw [← pending_compact s]
  simp only [feed]
  simp only [pending, Array.toList_appendList]
  exact List.drop_append_of_le_length (by simpa using s.compact.used_le)

@[simp] theorem verifying_feed (s : Stream) (bytes : Bytes) :
    (s.feed bytes).verifying = s.verifying := verifying_compact s

def front (s : Stream) (n : Nat) : Bytes := (s.buffer.extract s.used (s.used + n)).toList

theorem front_eq (s : Stream) (n : Nat) : s.front n = s.pending.take n := by
  simp [front, pending, List.extract_eq_take_drop]

def byte? (s : Stream) (i : Nat) : Option UInt8 := s.buffer[s.used + i]?

theorem byte?_eq (s : Stream) (i : Nat) : s.byte? i = s.pending[i]? := by
  simp [byte?, pending, List.getElem?_drop]

def skip (s : Stream) (n : Nat) : Stream :=
  { s with used := min (s.used + n) s.buffer.size, used_le := Nat.min_le_right _ _ }

@[simp] theorem pending_skip (s : Stream) (n : Nat) : (s.skip n).pending = s.pending.drop n := by
  simp only [skip, pending, List.drop_drop]
  rcases Nat.le_total (s.used + n) s.buffer.size with h | h
  · rw [Nat.min_eq_left h]
  · rw [Nat.min_eq_right h, List.drop_of_length_le (by simp),
      List.drop_of_length_le (by simpa using h)]

/-- How many bytes from a pending one on cannot start a frame, added to what stands before it. -/
def gap (s : Stream) (i : Nat) : Nat :=
  if s.buffer.size ≤ s.used + i then i
  else if couldStart (s.buffer.extract (s.used + i) (s.used + i + startMarker.length)).toList then i
  else s.gap (i + 1)
termination_by s.buffer.size - (s.used + i)

theorem drop_gap (s : Stream) (i : Nat) : s.pending.drop (s.gap i) = seek (s.pending.drop i) := by
  fun_induction s.gap i with
  | case1 i h =>
    have : s.pending.drop i = [] := List.drop_of_length_le (by simp [buffered]; omega)
    rw [this]
    rfl
  | case2 i h start =>
    match hd : s.pending.drop i with
    | [] => rfl
    | b :: rest =>
      rw [seek, if_pos]
      rw [← hd]
      simpa [couldStart, pending, List.extract_eq_take_drop, List.take_take] using start
  | case3 i h start ih =>
    rw [ih]
    match hd : s.pending.drop i with
    | [] =>
      have := congrArg List.length hd
      simp [buffered] at this
      omega
    | b :: rest =>
      rw [seek, if_neg]
      · rw [← List.drop_drop, hd]
        rfl
      · rw [← hd]
        simpa [couldStart, pending, List.extract_eq_take_drop, List.take_take] using start

/-- Gives up on a frame at the front. -/
def resync (s : Stream) : Stream := s.skip (s.gap 1)

@[simp] theorem pending_resync (s : Stream) : s.resync.pending = Frame.resync s.pending := by
  rw [resync, pending_skip, drop_gap, Frame.resync]

/-- The next frame or the next error, and the stream behind it; nothing if that takes more input. -/
def next (s : Stream) : Option (Except Error Bytes × Stream) :=
  let head := s.front preambleLength
  match preamble head with
  | .error (.truncated _ _) =>
    if couldStart head then none else some (.error .badStart, s.resync)
  | .error e => some (.error e, s.resync)
  | .ok size =>
    match s.byte? (lengthOf size - 1) with
    | none => none
    | some last =>
      if last = endMarker then
        let frame := s.front (lengthOf size)
        let checked := if s.verifying then verify frame size else .ok ()
        some (checked.map fun _ => frame, s.skip (lengthOf size))
      else some (.error (.badEnd last), s.resync)

end Stream

/-- Only the first bytes count for the preamble. -/
theorem preamble_take (bytes : Bytes) : preamble (bytes.take preambleLength) = preamble bytes := by
  match bytes with
  | [] | [_] | [_, _] | [_, _, _] | [_, _, _, _] | [_, _, _, _, _] | [_, _, _, _, _, _]
  | [_, _, _, _, _, _, _] | [_, _, _, _, _, _, _, _] => rfl
  | _ :: _ :: _ :: _ :: _ :: _ :: _ :: _ :: _ :: _ => rfl

theorem couldStart_take (bytes : Bytes) :
    couldStart (bytes.take preambleLength) = couldStart bytes := by
  simp [couldStart, List.take_take, preambleLength, startMarker]

/-- A preamble that is good gives a size in range. -/
theorem minSize_le_of_preamble {bytes : Bytes} {size : Nat} (h : preamble bytes = .ok size) :
    minSize ≤ size := by
  unfold preamble at h
  split at h
  · dsimp only at h
    repeat' split at h
    all_goals cases h
    omega
  · cases h

/-- Only the bytes of a frame count for its checksum. -/
theorem verify_take {bytes : Bytes} {size : Nat} (h : minSize ≤ size) :
    verify (bytes.take (lengthOf size)) size = verify bytes size := by
  have h : 32 ≤ size := h
  have payload : (bytes.take (lengthOf size)).drop preambleLength =
      (bytes.drop preambleLength).take (size + 1) := by
    rw [List.drop_take]
    congr 1
    simp only [lengthOf]
    omega
  have body : min (size - checksumLength) (size + 1) = size - checksumLength := by omega
  have stated : min checksumLength (size + 1 - (size - checksumLength)) = checksumLength := by
    simp only [checksumLength]
    omega
  have sum : ((bytes.drop preambleLength).take (size + 1)).take (size - checksumLength) =
      (bytes.drop preambleLength).take (size - checksumLength) := by
    rw [List.take_take, body]
  have field : field ((bytes.drop preambleLength).take (size + 1)) (size - checksumLength)
      checksumLength = field (bytes.drop preambleLength) (size - checksumLength) checksumLength := by
    rw [Frame.field, Frame.field, List.drop_take, List.take_take, stated]
  unfold verify
  dsimp only
  rw [payload, sum, field]

namespace Stream

/-- The next result is the one at the front of the pending bytes. -/
theorem split?_pending (s : Stream) :
    split? s.verifying s.pending = s.next.map fun r => (r.1, r.2.pending) := by
  unfold split? next
  dsimp only
  rw [front_eq, preamble_take, couldStart_take]
  match hp : preamble s.pending with
  | .error (.truncated _ _) =>
    dsimp only
    split <;> simp
  | .error .badStart | .error (.badVersion _) | .error (.badSize _) | .error (.badEnd _)
  | .error (.badChecksum _ _) | .error (.segmentOverrun _) | .error (.missingSegment _)
  | .error .zeroSampleRate => simp
  | .ok size =>
    dsimp only
    rw [byte?_eq]
    match s.pending[lengthOf size - 1]? with
    | none => rfl
    | some last =>
      dsimp only
      split
      · simp [front_eq, verify_take (minSize_le_of_preamble hp)]
      · simp

/-- Every result uses up at least one byte. -/
theorem buffered_lt {s t : Stream} {r : Except Error Bytes} (h : s.next = some (r, t)) :
    t.buffered < s.buffered := by
  have := split?_pending s
  rw [h] at this
  simpa using length_lt_of_split? this

/-- All results the stream can give without more input, in order, and the stream behind them. -/
def drain (s : Stream) : List (Except Error Bytes) × Stream :=
  match _h : s.next with
  | none => ([], s)
  | some (result, rest) =>
    let (results, last) := rest.drain
    (result :: results, last)
termination_by s.buffered
decreasing_by exact buffered_lt _h

/-- At most `limit` results, and whether the stream asked for more input before that. -/
def drainUpTo (s : Stream) : (limit : Nat) → List (Except Error Bytes) × Bool × Stream
  | 0 => ([], false, s)
  | limit + 1 =>
    match s.next with
    | none => ([], true, s)
    | some (result, rest) =>
      let (results, starved, last) := rest.drainUpTo limit
      (result :: results, starved, last)

end Stream

end SensorIngest.Frame
