import SensorIngest.Frame.Decode

/-!
# The front of a byte stream

A connection delivers bytes without boundaries. `split?` says what the bytes that have arrived give at
their front: a complete frame, an error, or nothing before more arrives. What cannot be a frame is
reported once and skipped up to the next place that could start one, so a corrupt frame never ends the
connection. Every result uses up at least one byte (`length_lt_of_split?`).
-/

namespace SensorIngest.Frame

/-- A text that starts with the start marker, or is itself a start of it. -/
def couldStart (bytes : Bytes) : Bool :=
  (bytes.take startMarker.length).isPrefixOf startMarker

/-- The longest end of a text that could start a frame. An incomplete start marker at the very end
counts, since the rest of it may follow. -/
def seek : Bytes → Bytes
  | [] => []
  | b :: rest => if couldStart (b :: rest) then b :: rest else seek rest

/-- What is left after giving up on a frame at the front. -/
def resync (bytes : Bytes) : Bytes := seek (bytes.drop 1)

/-- The frame or the error at the front of a text, and the text behind it; nothing if that takes more
input. A frame is only waited for once its start marker, version and size are known to be good, and a
size that is out of range is refused at once. -/
def split? (verifying : Bool) (bytes : Bytes) : Option (Except Error Bytes × Bytes) :=
  match preamble bytes with
  | .error (.truncated _ _) =>
    if couldStart bytes then none else some (.error .badStart, resync bytes)
  | .error e => some (.error e, resync bytes)
  | .ok size =>
    match bytes[lengthOf size - 1]? with
    | none => none
    | some last =>
      if last = endMarker then
        let checked := if verifying then verify bytes size else .ok ()
        some (checked.map fun _ => bytes.take (lengthOf size), bytes.drop (lengthOf size))
      else some (.error (.badEnd last), resync bytes)

theorem length_seek_le (bytes : Bytes) : (seek bytes).length ≤ bytes.length := by
  induction bytes with
  | nil => exact Nat.le_refl _
  | cons b rest ih =>
    unfold seek
    split
    · exact Nat.le_refl _
    · exact Nat.le_succ_of_le ih

theorem length_resync_lt {bytes : Bytes} (h : bytes ≠ []) :
    (resync bytes).length < bytes.length := by
  cases bytes with
  | nil => exact absurd rfl h
  | cons b rest => exact Nat.lt_succ_of_le (length_seek_le rest)

/-- Every result uses up at least one byte. -/
theorem length_lt_of_split? {verifying : Bool} {bytes rest : Bytes} {r : Except Error Bytes}
    (h : split? verifying bytes = some (r, rest)) : rest.length < bytes.length := by
  have nonempty : bytes ≠ [] := by
    rintro rfl
    simp [split?, preamble, couldStart] at h
  have resynced := length_resync_lt nonempty
  unfold split? at h
  split at h
  · split at h
    · cases h
    · cases h
      exact resynced
  · cases h
    exact resynced
  · split at h
    · cases h
    · split at h
      · cases h
        have := List.length_pos_iff.2 nonempty
        rw [List.length_drop]
        simp only [lengthOf]
        omega
      · cases h
        exact resynced

end SensorIngest.Frame
