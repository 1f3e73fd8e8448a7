import SensorIngest.Frame.Header
import SensorIngest.Frame.Span

/-!
# Reading a frame

`preamble` checks what stands before the payload, `envelope` also what stands behind it; both return
the size field. `decode` also walks the segment group. The checksum is a question of its own
(`verify`), asked where frames are cut out of a stream. Bytes behind the frame are never looked at.
-/

namespace SensorIngest

/-- A frame taken apart. -/
structure Frame extends Frame.Header where
  segments : List Frame.Segment
  raw : Bytes
deriving DecidableEq

namespace Frame

/-- Checks start marker, version and size, in this order, and returns the size field. -/
def preamble (raw : Bytes) : Except Error Nat :=
  match raw with
  | m₀ :: m₁ :: m₂ :: m₃ :: v :: s₃ :: s₂ :: s₁ :: s₀ :: _ =>
    let size := Bytes.toNat [s₃, s₂, s₁, s₀]
    if [m₀, m₁, m₂, m₃] ≠ startMarker then .error .badStart
    else if v ≠ version then .error (.badVersion v)
    else if size < minSize ∨ maxSize < size then .error (.badSize size)
    else .ok size
  | short => .error (.truncated preambleLength short.length)

/-- Checks preamble, length and end marker, in this order, and returns the size field. -/
def envelope (raw : Bytes) : Except Error Nat := do
  let size ← preamble raw
  match raw[lengthOf size - 1]? with
  | none => .error (.truncated (lengthOf size) raw.length)
  | some last => if last = endMarker then .ok size else .error (.badEnd last)

/-- Compares the checksum a frame of the given size states with that of its payload. -/
def verify (raw : Bytes) (size : Nat) : Except Error Unit :=
  let payload := raw.drop preambleLength
  let computed := Bytes.checksum (payload.take (size - checksumLength))
  let stated := field payload (size - checksumLength) checksumLength
  if stated = computed then .ok () else .error (.badChecksum stated computed)

/-- Reads `count` segments off the bytes before the checksum, the first of them being number
`index`. Bytes behind the last one are slack. -/
def Segment.readMany (index : Nat) : (count : Nat) → Bytes → Except Error (List Segment)
  | 0, _ => .ok []
  | count + 1, k :: l₃ :: l₂ :: l₁ :: l₀ :: rest =>
    let length := Bytes.toNat [l₃, l₂, l₁, l₀]
    let body := rest.take length
    if body.length < length then .error (.segmentOverrun index)
    else do
      let others ← readMany (index + 1) count (rest.drop length)
      return ⟨.ofByte k, body⟩ :: others
  | _ + 1, _ => .error (.segmentOverrun index)

/-- Reads a whole frame: its envelope, its header, and as many segments as it announces. -/
def decode (raw : Bytes) : Except Error Frame := do
  let size ← envelope raw
  let header ← Header.read raw
  let group := (raw.take (preambleLength + size - checksumLength)).drop headerLength
  let segments ← match group with
    | count :: entries => Segment.readMany 0 count.toNat entries
    | [] => .ok []
  return { header with segments, raw := raw.take (lengthOf size) }

def segment? (frame : Frame) (kind : Segment.Kind) : Option Segment :=
  frame.segments.find? (·.kind = kind)

/-- The span of the first acoustic segment. -/
def span (frame : Frame) : Except Error Span :=
  match frame.segment? .arc with
  | none => .error (.missingSegment .arc)
  | some arc => Span.ofBody arc.body

/-- The sample bytes of the first acoustic segment, if it has room for a rate. -/
def samples? (frame : Frame) : Option Bytes := do
  match (← frame.segment? .arc).body with
  | _ :: _ :: _ :: _ :: pcm => some pcm
  | _ => none

end Frame

end SensorIngest
