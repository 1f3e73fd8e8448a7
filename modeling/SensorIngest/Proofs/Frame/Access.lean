import SensorIngest.Proofs.Checked
import SensorIngest.Proofs.Frame.Grammar
import SensorIngest.Reply

/-!
# Reading within the bounds of a text

The functions of `Checked` read frames and replies place by place, with every index, slice, difference
and product in range or no result at all. They have the same results as `envelope`, `verify`,
`Header.read`, `decode`, `Span.ofBody` and `Reply.split?` on every text, so that reading never leaves
a text however it is made up. Behind the envelope check the end of the segment group lies within the
text, and reading the segments keeps its place at or before that end (`segments_eq`).
-/

namespace SensorIngest.Frame

variable {raw : Bytes} {start width size groupEnd place : Nat}

namespace Checked

open SensorIngest.Checked

/-! ## Envelopes -/

/-- `Frame.preamble`, place by place. -/
def preamble (raw : Bytes) : Option (Except Error Nat) :=
  if raw.length < preambleLength then
    return .error (.truncated preambleLength raw.length)
  else do
    if (← slice raw 0 startMarker.length) ≠ startMarker then return .error .badStart
    let v ← raw[4]?
    if v ≠ version then return .error (.badVersion v)
    let size := Bytes.toNat [← raw[5]?, ← raw[6]?, ← raw[7]?, ← raw[8]?]
    if size < minSize ∨ maxSize < size then return .error (.badSize size)
    return .ok size

theorem preamble_eq (raw : Bytes) : preamble raw = some (Frame.preamble raw) := by
  match raw with
  | [] | [_] | [_, _] | [_, _, _] | [_, _, _, _] | [_, _, _, _, _] | [_, _, _, _, _, _]
  | [_, _, _, _, _, _, _] | [_, _, _, _, _, _, _, _] => rfl
  | m₀ :: m₁ :: m₂ :: m₃ :: v :: s₃ :: s₂ :: s₁ :: s₀ :: rest =>
    have long : ¬ (m₀ :: m₁ :: m₂ :: m₃ :: v :: s₃ :: s₂ :: s₁ :: s₀ :: rest).length <
        preambleLength := by
      simp [preambleLength]
    have marker : slice (m₀ :: m₁ :: m₂ :: m₃ :: v :: s₃ :: s₂ :: s₁ :: s₀ :: rest) 0
        startMarker.length = some [m₀, m₁, m₂, m₃] := by
      rw [slice_zero (by simp [startMarker])]
      rfl
    rw [preamble, if_neg long, marker]
    simp only [Frame.preamble, bind, Option.bind, pure, List.getElem?_cons_succ,
      List.getElem?_cons_zero]
    split
    · rfl
    · split
      · rfl
      · split <;> rfl

/-- `Frame.envelope`, place by place. -/
def envelope (raw : Bytes) : Option (Except Error Nat) := do
  match ← preamble raw with
  | .error reason => return .error reason
  | .ok size =>
    if raw.length < lengthOf size then return .error (.truncated (lengthOf size) raw.length)
    let last ← raw[← minus (lengthOf size) 1]?
    if last ≠ endMarker then return .error (.badEnd last)
    return .ok size

theorem envelope_eq (raw : Bytes) : envelope raw = some (Frame.envelope raw) := by
  rw [envelope, preamble_eq, Frame.envelope]
  cases Frame.preamble raw with
  | error reason => rfl
  | ok size =>
    have counted : minus (lengthOf size) 1 = some (lengthOf size - 1) :=
      minus_eq (Nat.succ_le_succ (Nat.zero_le _))
    simp only [bind, Option.bind, Except.bind, pure, counted]
    by_cases short : raw.length < lengthOf size
    · rw [if_pos short, List.getElem?_eq_none (Nat.le_sub_one_of_lt short)]
    · have inside : lengthOf size - 1 < raw.length := by
        simp only [lengthOf] at short ⊢
        omega
      rw [if_neg short, List.getElem?_eq_getElem inside]
      dsimp only
      split <;> simp_all

/-- `Frame.verify`, place by place. -/
def verify (raw : Bytes) (size : Nat) : Option (Except Error Unit) := do
  let place ← minus (preambleLength + size) checksumLength
  let stated := Bytes.toNat [← raw[place]?, ← raw[place + 1]?]
  let computed := Bytes.checksum (← slice raw preambleLength place)
  return if stated = computed then .ok () else .error (.badChecksum stated computed)

end Checked

/-- A text that passes the envelope check reaches to the end marker, behind the checksum. -/
theorem lengthOf_le_of_envelope (h : envelope raw = .ok size) :
    minSize ≤ size ∧ size ≤ maxSize ∧ lengthOf size ≤ raw.length := by
  obtain ⟨e, rfl, rfl⟩ := envelope_eq_ok_iff.1 h
  refine ⟨e.minSize_le, e.fits, ?_⟩
  rw [Envelope.text, List.length_append, e.length_raw]
  exact Nat.le_add_right _ _

namespace Checked

open SensorIngest.Checked

theorem verify_eq (least : minSize ≤ size) (inside : lengthOf size ≤ raw.length) :
    verify raw size = some (Frame.verify raw size) := by
  have least : 32 ≤ size := least
  have inside : 9 + size + 1 ≤ raw.length := inside
  have place : minus (preambleLength + size) checksumLength = some (7 + size) := by
    rw [minus_eq (by simp only [preambleLength, checksumLength]; omega)]
    simp only [preambleLength, checksumLength, Option.some_inj]
    omega
  have payload : slice raw preambleLength (7 + size) =
      some ((raw.drop preambleLength).take (size - checksumLength)) := by
    rw [slice_eq (by simp only [preambleLength]; omega) (by omega), List.drop_take]
    simp only [preambleLength, checksumLength]
    congr 2
    omega
  have stated : field (raw.drop preambleLength) (size - checksumLength) checksumLength =
      Bytes.toNat [raw[7 + size], raw[7 + size + 1]] := by
    have at_ : preambleLength + (size - checksumLength) = 7 + size := by
      simp only [preambleLength, checksumLength]
      omega
    rw [field, List.drop_drop, at_, List.drop_eq_getElem_cons (by omega),
      List.drop_eq_getElem_cons (by omega)]
    rfl
  unfold verify Frame.verify
  simp only [place, payload, stated, bind, Option.bind, pure,
    List.getElem?_eq_getElem (show 7 + size < raw.length by omega),
    List.getElem?_eq_getElem (show 7 + size + 1 < raw.length by omega)]

/-! ## Headers -/

/-- `Frame.field`, as a slice. -/
def field (raw : Bytes) (start width : Nat) : Option Nat :=
  (slice raw start (start + width)).map Bytes.toNat

theorem field_eq (inside : start + width ≤ raw.length) :
    field raw start width = some (Frame.field raw start width) := by
  rw [field, slice_eq (Nat.le_add_right _ _) inside, List.drop_take, Nat.add_sub_cancel_left]
  rfl

/-- `Header.read`, field by field. -/
def header (raw : Bytes) : Option (Except Error Header) :=
  if raw.length < headerLength then
    return .error (.truncated headerLength raw.length)
  else do
    return .ok {
      sequence := ← field raw 9 8
      hardware := .ofNat (← field raw 17 3)
      firmware := .ofNat (← field raw 20 3)
      sensor := .ofNat (← field raw 23 6)
      model := .ofNat (← field raw 29 3)
      flags := ⟨UInt8.ofNat (← field raw 37 1)⟩ }

theorem header_eq (raw : Bytes) : header raw = some (Header.read raw) := by
  rw [header, Header.read, List.length_take]
  by_cases short : raw.length < headerLength
  · rw [if_pos short, if_pos (Nat.lt_of_le_of_lt (Nat.min_le_right _ _) short)]
    rfl
  · have long : headerLength ≤ raw.length := Nat.not_lt.1 short
    have whole : ¬ min headerLength raw.length < headerLength :=
      Nat.not_lt.2 (Nat.le_min.2 ⟨Nat.le_refl _, long⟩)
    have at_ (start width : Nat) (inside : start + width ≤ 38) :
        field raw start width = some (Frame.field raw start width) :=
      field_eq (Nat.le_trans inside long)
    rw [if_neg short, if_neg whole, at_ 9 8 (by decide), at_ 17 3 (by decide),
      at_ 20 3 (by decide), at_ 23 6 (by decide), at_ 29 3 (by decide), at_ 37 1 (by decide)]
    rfl

/-! ## Segments -/

/-- `Segment.readMany` on a group that ends at `groupEnd`, from a place of the whole text on. -/
def segments (raw : Bytes) (groupEnd index : Nat) :
    (count place : Nat) → Option (Except Error (List Segment))
  | 0, _ => some (.ok [])
  | count + 1, place =>
    if groupEnd < place + 5 then some (.error (.segmentOverrun index))
    else do
      let kind ← raw[place]?
      let length := Bytes.toNat
        [← raw[place + 1]?, ← raw[place + 2]?, ← raw[place + 3]?, ← raw[place + 4]?]
      if (← minus groupEnd (place + 5)) < length then return .error (.segmentOverrun index)
      let body ← slice raw (place + 5) (place + 5 + length)
      return (← segments raw groupEnd (index + 1) count (place + 5 + length)).map
        (⟨.ofByte kind, body⟩ :: ·)

/-- Where five octets are left, they are those that the places name. -/
theorem drop_take_five (inside : groupEnd ≤ raw.length) (wide : place + 5 ≤ groupEnd) :
    (raw.take groupEnd).drop place =
      raw[place] :: raw[place + 1] :: raw[place + 2] :: raw[place + 3] :: raw[place + 4] ::
        (raw.take groupEnd).drop (place + 5) := by
  rw [List.drop_eq_getElem_cons (by rw [List.length_take]; omega),
    List.drop_eq_getElem_cons (by rw [List.length_take]; omega),
    List.drop_eq_getElem_cons (by rw [List.length_take]; omega),
    List.drop_eq_getElem_cons (by rw [List.length_take]; omega),
    List.drop_eq_getElem_cons (by rw [List.length_take]; omega)]
  simp only [List.getElem_take]

/-- What lies within the group is cut out of the whole text. -/
theorem slice_within {length : Nat} (inside : groupEnd ≤ raw.length)
    (fits : place + length ≤ groupEnd) :
    slice raw place (place + length) = some (((raw.take groupEnd).drop place).take length) := by
  rw [slice_eq (Nat.le_add_right _ _) (Nat.le_trans fits inside), List.drop_take, List.drop_take,
    List.take_take, Nat.add_sub_cancel_left, Nat.min_eq_left (Nat.le_sub_of_add_le' fits)]

theorem readMany_of_short {x : Bytes} (short : x.length < 5) (index count : Nat) :
    Segment.readMany index (count + 1) x = .error (.segmentOverrun index) := by
  match x with
  | [] | [_] | [_, _] | [_, _, _] | [_, _, _, _] => rfl
  | _ :: _ :: _ :: _ :: _ :: tail =>
    simp only [List.length_cons] at short
    omega

/-- Segments are read within their group. -/
theorem segments_eq (inside : groupEnd ≤ raw.length) (index count : Nat)
    (before : place ≤ groupEnd) :
    segments raw groupEnd index count place =
      some (Segment.readMany index count ((raw.take groupEnd).drop place)) := by
  have left (place : Nat) : ((raw.take groupEnd).drop place).length = groupEnd - place := by
    rw [List.length_drop, List.length_take, Nat.min_eq_left inside]
  induction count generalizing index place with
  | zero => rfl
  | succ count ih =>
    rw [segments]
    by_cases narrow : groupEnd < place + 5
    · rw [if_pos narrow, readMany_of_short (by rw [left]; omega)]
    · have wide : place + 5 ≤ groupEnd := Nat.not_lt.1 narrow
      rw [if_neg narrow, drop_take_five inside wide, Segment.readMany, minus_eq wide]
      simp only [bind, Option.bind, pure,
        List.getElem?_eq_getElem (show place < raw.length by omega),
        List.getElem?_eq_getElem (show place + 1 < raw.length by omega),
        List.getElem?_eq_getElem (show place + 2 < raw.length by omega),
        List.getElem?_eq_getElem (show place + 3 < raw.length by omega),
        List.getElem?_eq_getElem (show place + 4 < raw.length by omega)]
      generalize Bytes.toNat [raw[place + 1], raw[place + 2], raw[place + 3], raw[place + 4]] =
        length
      rw [List.length_take, left]
      by_cases long : groupEnd - (place + 5) < length
      · rw [if_pos long, if_pos (Nat.lt_of_le_of_lt (Nat.min_le_right _ _) long)]
      · have fits : place + 5 + length ≤ groupEnd := by omega
        rw [if_neg long, if_neg (by omega), slice_within inside fits, List.drop_drop,
          ih (index + 1) fits]
        simp only
        cases Segment.readMany (index + 1) count ((raw.take groupEnd).drop (place + 5 + length)) <;>
          rfl

/-! ## Frames -/

/-- `Frame.decode`, place by place. -/
def decode (raw : Bytes) : Option (Except Error Frame) := do
  match ← envelope raw with
  | .error reason => return .error reason
  | .ok size =>
    match ← header raw with
    | .error reason => return .error reason
    | .ok header =>
      let groupEnd ← minus (preambleLength + size) checksumLength
      let count ← raw[headerLength]?
      match ← segments raw groupEnd 0 count.toNat (headerLength + 1) with
      | .error reason => return .error reason
      | .ok segments => return .ok { header with segments, raw := ← slice raw 0 (lengthOf size) }

theorem decode_eq (raw : Bytes) : decode raw = some (Frame.decode raw) := by
  rw [decode, envelope_eq, Frame.decode]
  cases enclosed : Frame.envelope raw with
  | error reason => rfl
  | ok size =>
    obtain ⟨least, -, inside⟩ := lengthOf_le_of_envelope enclosed
    have least : 32 ≤ size := least
    have inside : 9 + size + 1 ≤ raw.length := inside
    have counted : minus (preambleLength + size) checksumLength = some (7 + size) := by
      rw [minus_eq (by simp only [preambleLength, checksumLength]; omega)]
      simp only [preambleLength, checksumLength, Option.some_inj]
      omega
    have end_ : preambleLength + size - checksumLength = 7 + size := by
      simp only [preambleLength, checksumLength]
      omega
    have group : (raw.take (preambleLength + size - checksumLength)).drop headerLength =
        raw[38] :: (raw.take (7 + size)).drop (headerLength + 1) := by
      rw [end_, List.drop_eq_getElem_cons (by rw [List.length_take]; simp only [headerLength]; omega),
        List.getElem_take]
      rfl
    have frame : slice raw 0 (lengthOf size) = some (raw.take (lengthOf size)) := slice_zero inside
    have count : raw[headerLength]? = some raw[38] := List.getElem?_eq_getElem _
    have room : 7 + size ≤ raw.length := by omega
    have start : headerLength + 1 ≤ 7 + size := by
      simp only [headerLength]
      omega
    have read := segments_eq room 0 (raw[38]).toNat start
    simp only [bind, Option.bind, Except.bind, pure, header_eq]
    cases Header.read raw with
    | error reason => rfl
    | ok header =>
      simp only [counted, count, read, group, frame, Except.pure]
      cases Segment.readMany 0 (raw[38]).toNat ((raw.take (7 + size)).drop (headerLength + 1)) <;> rfl

/-! ## Spans -/

/-- `Span.ofBody`, with its numbers in 64 bits. -/
def span (body : Bytes) : Option (Except Error Span) :=
  match body with
  | r₃ :: r₂ :: r₁ :: r₀ :: pcm =>
    let rate := Bytes.toNat [r₃, r₂, r₁, r₀]
    if rate = 0 then return .error .zeroSampleRate
    else do
      let samples := pcm.length / 2
      let scaled ← word (samples * 1000000)
      let duration ← int (scaled / rate : Nat)
      return .ok { rate, samples, duration, fill := scaled % rate != 0 }
  | short => return .error (.truncated 4 short.length)

theorem span_eq {body : Bytes} (short : body.length ≤ maxSize) :
    span body = some (Span.ofBody body) := by
  match body with
  | [] | [_] | [_, _] | [_, _, _] => rfl
  | r₃ :: r₂ :: r₁ :: r₀ :: pcm =>
    have short : pcm.length + 4 ≤ 1048576 := short
    have fits : pcm.length / 2 * 1000000 < 2 ^ 63 := by omega
    have whole : pcm.length / 2 * 1000000 / Bytes.toNat [r₃, r₂, r₁, r₀] < 2 ^ 63 :=
      Nat.lt_of_le_of_lt (Nat.div_le_self _ _) fits
    unfold span Span.ofBody
    dsimp only
    rw [bind_of (word_eq (Nat.lt_trans fits (by decide))), bind_of (int_natCast whole)]
    split <;> rfl

/-- `Frame.span`, with its numbers in 64 bits. -/
def spanOf (frame : Frame) : Option (Except Error Span) :=
  match frame.segment? .arc with
  | none => return .error (.missingSegment .arc)
  | some arc => span arc.body

end Checked

/-- The segments of a frame are no longer than its payload. -/
theorem length_body_le {frame : Frame} {s : Segment} (h : decode raw = .ok frame)
    (mem : s ∈ frame.segments) : s.body.length ≤ maxSize := by
  obtain ⟨p, -, rfl⟩ := decode_eq_ok_iff.1 h
  have whole : s.encode.length ≤ p.group.length := by
    obtain ⟨front, back, split⟩ := List.append_of_mem (show s ∈ p.segments from mem)
    rw [p.group_eq, split, List.flatMap_append, List.flatMap_cons]
    simp only [List.length_append]
    omega
  have fits := p.fits
  rw [Segment.length_encode] at whole
  simp only [List.length_append, List.length_cons] at fits
  omega

/-- The first acoustic segment of a frame is one of its segments. -/
theorem segment?_mem {frame : Frame} {kind : Segment.Kind} {s : Segment}
    (h : frame.segment? kind = some s) : s ∈ frame.segments :=
  List.mem_of_find?_eq_some h

theorem Checked.spanOf_eq {frame : Frame} (h : Frame.decode raw = .ok frame) :
    spanOf frame = some frame.span := by
  unfold spanOf Frame.span
  cases found : frame.segment? .arc with
  | none => rfl
  | some arc => exact span_eq (length_body_le h (segment?_mem found))

end SensorIngest.Frame

namespace SensorIngest.Reply.Checked

open SensorIngest.Checked

/-- `Reply.split?`, place by place. -/
def split? (received : Bytes) : Option (Option (Reply × Nat)) :=
  if received.length < ackLength then return none
  else do
    if (← slice received 0 resendMarker.length) = resendMarker then
      if received.length < resendLength then return none
      let sensor ← slice received 3 9
      let sequence ← slice received 9 17
      return some (.resend (.ofBytes sensor) (Bytes.toNat sequence), resendLength)
    return some (.ack (Bytes.toNat (← slice received 0 ackLength)), ackLength)

end SensorIngest.Reply.Checked
