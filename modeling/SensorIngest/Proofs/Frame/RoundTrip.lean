import Mathlib.Algebra.Ring.Nat
import SensorIngest.Proofs.Frame.Grammar

/-!
# What is written is read

A draft that fits the size field is written as an envelope (`Draft.text_envelope`) with a right
checksum, and reading it gives back the draft (`Draft.decode_encode`), whatever stands behind it.
The number of segments is one byte, so no more of them are read than that byte says, and the
others are slack. `Draft.round_trip` says all of this at once.
-/

namespace SensorIngest

/-! ## Fields -/

theorem SensorId.ofNat_toNat (id : SensorId) : ofNat (Bytes.toNat id.toBytes) = id := by
  have small : id.value % Nat.pow 256 6 = id.value := Nat.mod_eq_of_lt id.value_lt
  rw [toBytes, Bytes.toNat_ofNat, small, ofNat_value]

namespace Frame

theorem Triple.ofNat_toNat (t : Triple) : ofNat (Bytes.toNat t.toBytes) = t := by
  obtain ⟨a, b, c⟩ := t
  have value : Bytes.toNat (toBytes ⟨a, b, c⟩) = (a.toNat * 256 + b.toNat) * 256 + c.toNat := by
    simp [toBytes, Bytes.toNat]
  have := a.toNat_lt
  have := b.toNat_lt
  have := c.toNat_lt
  rw [value, ofNat]
  congr 1 <;> apply UInt8.toNat_inj.1 <;> rw [UInt8.toNat_ofNat'] <;> omega

/-- One field of several. -/
theorem field_flatten (before : List Bytes) (x : Bytes) (after : List Bytes) :
    field (before ++ x :: after).flatten before.flatten.length x.length = Bytes.toNat x := by
  rw [field, List.flatten_append, List.drop_left, List.flatten_cons, List.take_left]

/-! ## Segments -/

theorem Segment.encode_received (s : Segment) : s.received.encode = s.encode := by
  rw [encode, received, Kind.toByte_ofByte, encode]

theorem Segment.received_readable {s : Segment} (short : s.body.length < 4294967296) :
    s.received.Readable where
  received := by rw [received, received, Kind.toByte_ofByte]
  short := short

/-- The segments announced are read, and the rest is slack. -/
theorem Segment.readMany_encode {segments : List Segment}
    (small : ∀ s ∈ segments, s.body.length < 4294967296) {count : Nat}
    (le : count ≤ segments.length) :
    readMany 0 count (segments.flatMap encode) = .ok ((segments.take count).map received) := by
  have readable : ∀ s ∈ (segments.take count).map received, s.Readable := by
    intro s mem
    obtain ⟨sent, among, rfl⟩ := List.mem_map.1 mem
    exact received_readable (small sent (List.mem_of_mem_take among))
  have read := readMany_append readable 0 0 ((segments.drop count).flatMap encode)
  have same : ((segments.take count).map received).flatMap encode =
      (segments.take count).flatMap encode := by
    rw [List.flatMap_map]
    exact List.flatMap_congr fun s _ => s.encode_received
  rw [same, ← List.flatMap_append, List.take_append_drop, List.length_map,
    List.length_take_of_le le, Nat.add_zero] at read
  rw [read, readMany]
  simp only [Except.map, List.append_nil]

namespace Draft

variable {d : Draft}

/-! ## The parts of a frame -/

/-- What the size field says. -/
def size (d : Draft) : Nat := d.payload.length + checksumLength

/-- The draft has a size that is accepted. -/
def Fits (d : Draft) : Prop := d.size ≤ maxSize

/-- The header that is read: a sequence has eight bytes. -/
def header (d : Draft) : Header where
  sequence := d.sequence % 18446744073709551616
  hardware := d.hardware
  firmware := d.firmware
  sensor := d.sensor
  model := d.model
  flags := d.flags

/-- Start marker, version and size field. -/
def front (d : Draft) : Bytes := startMarker ++ version :: Bytes.ofNat 4 d.size

/-- The header fields, one after the other. -/
def fields (d : Draft) : List Bytes :=
  [Bytes.ofNat 8 d.sequence, d.hardware.toBytes, d.firmware.toBytes, d.sensor.toBytes,
    d.model.toBytes, [0, 0, 0, 0, 0], [d.flags.bits]]

theorem payload_eq (d : Draft) : d.payload =
    d.fields.flatten ++ (UInt8.ofNat d.segments.length :: d.segments.flatMap Segment.encode) := by
  simp [payload, fields]

theorem encode_eq (d : Draft) : d.encode = d.front ++ d.payload ++
    (Bytes.ofNat checksumLength (Bytes.checksum d.payload) ++ [endMarker]) := by
  simp [encode, size, front]

theorem length_front (d : Draft) : d.front.length = preambleLength := by
  simp [front, startMarker, preambleLength]

theorem length_fields (d : Draft) : d.fields.flatten.length = 29 := by
  simp [fields, Triple.toBytes, SensorId.toBytes]

theorem length_encode (d : Draft) : d.encode.length = lengthOf d.size := by
  simp [encode, size, lengthOf, preambleLength, startMarker, checksumLength]
  omega

/-- The size is that of header, count and checksum, and of the segments with kinds and lengths. -/
theorem size_eq (d : Draft) : d.size = 32 + (d.segments.map fun s => 5 + s.body.length).sum := by
  have segments : (d.segments.flatMap Segment.encode).length =
      (d.segments.map fun s => 5 + s.body.length).sum := by
    rw [List.length_flatMap]
    simp only [Segment.length_encode]
  rw [size, payload_eq, List.length_append, length_fields, List.length_cons, segments]
  simp only [checksumLength]
  omega

/-- A body is no longer than the frame, so its length fits the four bytes for it. -/
theorem Fits.short (fits : d.Fits) : ∀ s ∈ d.segments, s.body.length < 4294967296 := by
  intro s mem
  have inside :=
    (List.sublist_flatten_of_mem (List.mem_map_of_mem (f := Segment.encode) mem)).length_le
  rw [← List.flatMap_def, Segment.length_encode] at inside
  rw [Fits, size, payload_eq, List.length_append, List.length_cons, maxSize] at fits
  omega

/-! ## The envelope -/

def envelope (d : Draft) (fits : d.Fits) (behind : Bytes) : Envelope where
  header := d.fields.flatten
  count := UInt8.ofNat d.segments.length
  group := d.segments.flatMap Segment.encode
  checksum := Bytes.ofNat checksumLength (Bytes.checksum d.payload)
  behind := behind
  length_header := d.length_fields
  length_checksum := Bytes.length_ofNat _ _
  fits := by
    rw [Fits, size, payload_eq] at fits
    simp only [List.length_append, List.length_cons, Bytes.length_ofNat] at fits ⊢
    omega

theorem payload_envelope (fits : d.Fits) (rest : Bytes) : (d.envelope fits rest).payload =
    d.payload ++ Bytes.ofNat checksumLength (Bytes.checksum d.payload) := by
  rw [payload_eq, List.append_assoc]
  rfl

theorem size_envelope (fits : d.Fits) (rest : Bytes) : (d.envelope fits rest).size = d.size := by
  rw [Envelope.size, payload_envelope, List.length_append, Bytes.length_ofNat]
  rfl

theorem raw_envelope (fits : d.Fits) (rest : Bytes) : (d.envelope fits rest).raw = d.encode := by
  rw [Envelope.raw, size_envelope, payload_envelope, encode_eq, List.append_assoc, List.append_assoc]
  rfl

theorem text_envelope (fits : d.Fits) (rest : Bytes) :
    (d.envelope fits rest).text = d.encode ++ rest := by
  rw [Envelope.text, raw_envelope]
  rfl

theorem isFrame_encode (fits : d.Fits) : IsFrame d.encode :=
  raw_envelope fits [] ▸ (d.envelope fits []).isFrame_raw

/-- The checksum that is written is the one that is computed. -/
theorem checksum_encode (d : Draft) : statedChecksum d.encode = computedChecksum d.encode := by
  have place : (d.front ++ d.payload).length = d.encode.length - 3 := by
    rw [length_encode, List.length_append, length_front]
    simp only [lengthOf, size, checksumLength]
    omega
  have stated : statedChecksum d.encode = Bytes.checksum d.payload := by
    have bytes : (Bytes.ofNat checksumLength (Bytes.checksum d.payload)).length = 2 :=
      Bytes.length_ofNat _ _
    rw [statedChecksum, ← place, encode_eq, List.drop_left, List.take_left' bytes,
      Bytes.toNat_ofNat]
    exact Nat.mod_eq_of_lt (Bytes.checksum_lt _)
  have covered : d.encode.take (d.encode.length - 3) = d.front ++ d.payload := by
    rw [← place]
    exact (congrArg (List.take _) d.encode_eq).trans List.take_left
  rw [stated, computedChecksum, covered, ← length_front d, List.drop_left]

theorem judge_encode (d : Draft) (verifying : Bool) : judge verifying d.encode = .ok d.encode :=
  if_neg fun wrong => wrong.2 d.checksum_encode

theorem verify_encode (d : Draft) : verify d.encode d.size = .ok () := by
  have least : minSize ≤ d.size := by
    rw [size_eq]
    exact Nat.le_add_right _ _
  rw [verify_eq least d.length_encode, if_pos d.checksum_encode]

/-! ## Reading -/

theorem ofFields_fields (d : Draft) : Header.ofFields d.fields.flatten = d.header := by
  have sequence : field d.fields.flatten 0 8 = d.sequence % 18446744073709551616 :=
    (field_flatten [] (Bytes.ofNat 8 d.sequence) _).trans (Bytes.toNat_ofNat 8 _)
  have hardware : field d.fields.flatten 8 3 = Bytes.toNat d.hardware.toBytes :=
    field_flatten [_] _ _
  have firmware : field d.fields.flatten 11 3 = Bytes.toNat d.firmware.toBytes :=
    field_flatten [_, _] _ _
  have sensor : field d.fields.flatten 14 6 = Bytes.toNat d.sensor.toBytes :=
    field_flatten [_, _, _] _ _
  have model : field d.fields.flatten 20 3 = Bytes.toNat d.model.toBytes :=
    field_flatten [_, _, _, _] _ _
  have flags : field d.fields.flatten 28 1 = Bytes.toNat [d.flags.bits] :=
    field_flatten [_, _, _, _, _, _] _ _
  have bits : UInt8.ofNat (Bytes.toNat [d.flags.bits]) = d.flags.bits := by simp [Bytes.toNat]
  rw [Header.ofFields, sequence, hardware, firmware, sensor, model, flags, bits]
  simp only [Triple.ofNat_toNat, SensorId.ofNat_toNat]
  rfl

theorem read_encode (d : Draft) (rest : Bytes) : Header.read (d.encode ++ rest) = .ok d.header := by
  obtain ⟨behind, split⟩ : ∃ behind,
      d.encode ++ rest = d.front ++ (d.fields.flatten ++ behind) := by
    rw [encode_eq, payload_eq]
    exact ⟨_, by simp only [List.append_assoc]; rfl⟩
  rw [split, Header.read_append d.length_front d.length_fields, ofFields_fields]

theorem decode_encode (fits : d.Fits) (rest : Bytes) :
    decode (d.encode ++ rest) = .ok { d.header with
      segments := (d.segments.take (d.segments.length % 256)).map Segment.received
      raw := d.encode } := by
  have count : (d.envelope fits rest).count.toNat = d.segments.length % 256 := UInt8.toNat_ofNat'
  have header : Header.ofFields (d.envelope fits rest).header = d.header := d.ofFields_fields
  have segments := Segment.readMany_encode fits.short (Nat.mod_le d.segments.length 256)
  rw [← text_envelope fits, Envelope.decode_text, count,
    show (d.envelope fits rest).group = d.segments.flatMap Segment.encode from rfl, segments,
    Except.map, Envelope.frame, header, raw_envelope]

/-- A stream that is fed the frame, and nothing else, gives the frame and keeps nothing. -/
theorem drain_encode (fits : d.Fits) (verifying : Bool) :
    (({ verifying } : Stream).feed d.encode).drain.1 = [.ok d.encode] ∧
      (({ verifying } : Stream).feed d.encode).drain.2.buffered = 0 := by
  have nothing : splitAll verifying [] = ([], []) := splitAll_of_none rfl
  have cut : split? verifying (d.encode ++ []) = some (judge verifying d.encode, []) :=
    split?_frame (isFrame_encode fits) []
  have all := Stream.drain_pending (({ verifying } : Stream).feed d.encode)
  rw [Stream.pending_feed, Stream.verifying_feed] at all
  change splitAll verifying d.encode = _ at all
  rw [← List.append_nil d.encode, splitAll_of_some cut, nothing, judge_encode, List.append_nil,
    Prod.mk.injEq] at all
  refine ⟨all.1.symm, ?_⟩
  rw [← Stream.length_pending, ← all.2]
  rfl

/-- A draft that is not too long comes back from its bytes, whatever stands behind them, with as many
segments as one byte can count. The bytes are as long as their size field says, and are a frame with a
right checksum for any stream. -/
theorem round_trip (d : Draft) (small : d.sequence < 18446744073709551616)
    (fits : 32 + (d.segments.map fun s => 5 + s.body.length).sum ≤ maxSize) (rest : Bytes) :
    (∃ frame, decode (d.encode ++ rest) = .ok frame ∧
      frame.toHeader = ⟨d.sequence, d.hardware, d.firmware, d.sensor, d.model, d.flags⟩ ∧
      (frame.segments.map fun s => (s.kind.toByte, s.body)) =
        (d.segments.take (d.segments.length % 256)).map (fun s => (s.kind.toByte, s.body)) ∧
      frame.raw = d.encode) ∧
    d.encode.length = lengthOf (32 + (d.segments.map fun s => 5 + s.body.length).sum) ∧
    verify d.encode (32 + (d.segments.map fun s => 5 + s.body.length).sum) = .ok () ∧
    ∀ verifying, (({ verifying } : Stream).feed d.encode).drain.1 = [.ok d.encode] ∧
      (({ verifying } : Stream).feed d.encode).drain.2.buffered = 0 := by
  rw [← size_eq] at fits ⊢
  have header : d.header = ⟨d.sequence, d.hardware, d.firmware, d.sensor, d.model, d.flags⟩ := by
    rw [header, Nat.mod_eq_of_lt small]
  refine ⟨⟨_, decode_encode fits rest, header, ?_, rfl⟩, d.length_encode, d.verify_encode,
    drain_encode fits⟩
  rw [List.map_map]
  refine List.map_congr_left fun s _ => ?_
  simp only [Function.comp_apply, Segment.received, Segment.Kind.toByte_ofByte]

/-- A segment whose kind is written as that of acoustic ones, and the start of a frame behind. -/
theorem round_trip_recoded :
    let d : Draft :=
      { sensor := .ofNat 7, sequence := 18446744073709551615, flags := ⟨0x60⟩
        segments := [⟨.unknown 1, [0, 0]⟩, ⟨.unknown 9, []⟩] }
    d.sequence < 18446744073709551616 ∧
      32 + (d.segments.map fun s => 5 + s.body.length).sum ≤ maxSize ∧
      (∃ frame, decode (d.encode ++ startMarker) = .ok frame ∧
        frame.sequence = 18446744073709551615 ∧
        (frame.segments.map fun s => (s.kind.toByte, s.body)) = [(1, [0, 0]), (9, [])] ∧
        frame.raw = d.encode) ∧
      d.encode.length = 54 ∧ verify d.encode 44 = .ok () ∧
      ∀ verifying, (({ verifying } : Stream).feed d.encode).drain.1 = [.ok d.encode] := by
  intro d
  have small : d.sequence < 18446744073709551616 := by decide
  have fits : 32 + (d.segments.map fun s => 5 + s.body.length).sum ≤ maxSize := by decide
  obtain ⟨⟨frame, read, header, segments, raw⟩, length, right, given⟩ :=
    round_trip d small fits startMarker
  exact ⟨small, fits, ⟨frame, read, congrArg Header.sequence header, segments, raw⟩, length, right,
    fun verifying => (given verifying).1⟩

/-! ## Acoustic drafts -/

/-- A draft whose frame can be placed in time: all of its segments are read, and the first one that
is written as acoustic has a span. -/
structure Acoustic (d : Draft) : Prop where
  fits : d.Fits
  few : d.segments.length ≤ 255
  usable : ∃ arc span, d.segments.find? (·.kind.toByte = 1) = some arc ∧
    Span.ofBody arc.body = .ok span

theorem Acoustic.decode (h : d.Acoustic) :
    ∃ frame span, Frame.decode d.encode = .ok frame ∧ frame.raw = d.encode ∧
      frame.span = .ok span := by
  obtain ⟨arc, span, found, usable⟩ := h.usable
  have read := decode_encode h.fits []
  rw [List.append_nil, Nat.mod_eq_of_lt (Nat.lt_succ_of_le h.few), List.take_length] at read
  have acoustic (s : Segment) : s.received.kind = .arc ↔ s.kind.toByte = 1 := by
    constructor
    · intro same
      rw [← Segment.Kind.toByte_ofByte s.kind.toByte]
      exact congrArg Segment.Kind.toByte same
    · intro code
      rw [Segment.received, code]
      rfl
  refine ⟨_, span, read, rfl, ?_⟩
  have first : (d.segments.map Segment.received).find? (·.kind = .arc) = some arc.received := by
    simp only [List.find?_map, Function.comp_def, acoustic, found, Option.map_some]
  simp only [Frame.span, segment?, first]
  exact usable

end Draft

end Frame

end SensorIngest
