import SensorIngest.Frame.Encode
import SensorIngest.Proofs.Frame.Recovery

/-!
# The grammar of frames

A text passes the envelope check exactly if it is the text of an `Envelope`
(`envelope_eq_ok_iff`), and it is read as a frame exactly if the group of that envelope is as many
whole segments as it announces, and slack (`Parts`, `decode_eq_ok_iff`). There is one way at most to
take a text apart. A group of any other form is refused with the number of its first segment that is
not whole (`Envelope.OverrunsAt`), and what stands behind a frame is never looked at
(`decode_append`). `decode_grammar` puts these together.
-/

namespace SensorIngest

/-! ## Numbers and fields -/

theorem Bytes.toNat_ofNat (width n : Nat) : toNat (ofNat width n) = n % Nat.pow 256 width := by
  induction width generalizing n with
  | zero => exact (Nat.mod_one n).symm
  | succ width ih =>
    change _ = n % (Nat.pow 256 width * 256)
    rw [ofNat, toNat_concat, ih, Nat.mul_comm (Nat.pow 256 width), Nat.mod_mul, UInt8.toNat_ofNat']
    omega

theorem Bytes.ofNat_toNat (bytes : Bytes) : ofNat bytes.length (toNat bytes) = bytes := by
  induction bytes using List.reverseRecOn with
  | nil => rfl
  | append_singleton bytes b ih =>
    have small := b.toNat_lt
    have high : (toNat bytes * 256 + b.toNat) / 256 = toNat bytes := by omega
    have low : UInt8.ofNat (toNat bytes * 256 + b.toNat) = b := by
      apply UInt8.toNat_inj.1
      rw [UInt8.toNat_ofNat']
      omega
    rw [List.length_append, List.length_singleton, ofNat, toNat_concat, high, low, ih]

namespace Frame

variable {x : Bytes} {segments : List Segment} {s : Segment}

/-- A field of one part of a text. -/
theorem field_append (front : Bytes) {start width : Nat} (inside : start + width ≤ x.length)
    (rest : Bytes) : field (front ++ (x ++ rest)) (front.length + start) width =
      field x start width := by
  rw [field, List.drop_append, List.drop_of_length_le (Nat.le_add_right _ _), List.nil_append,
    Nat.add_sub_cancel_left, List.drop_append_of_le_length (by omega),
    List.take_append_of_le_length (by rw [List.length_drop]; omega)]
  rfl

/-! ## Segments -/

/-- A segment as it is read: kinds that are written as one byte are one kind. -/
def Segment.received (s : Segment) : Segment := ⟨.ofByte s.kind.toByte, s.body⟩

/-- The segment is what reading its bytes gives. -/
structure Segment.Readable (s : Segment) : Prop where
  received : s.received = s
  short : s.body.length < 4294967296

/-- A whole segment stands at the front of the text. -/
def Segment.Heads (text : Bytes) : Prop := ∃ s : Segment, s.Readable ∧ s.encode <+: text

theorem Segment.length_encode (s : Segment) : s.encode.length = 5 + s.body.length := by
  simp only [encode, List.length_append, List.length_cons, Bytes.length_ofNat]

theorem Segment.readMany_cons (h : s.Readable) (index count : Nat) (rest : Bytes) :
    readMany index (count + 1) (s.encode ++ rest) =
      (readMany (index + 1) count rest).map (s :: ·) := by
  have length : Bytes.toNat (Bytes.ofNat 4 s.body.length) = s.body.length := by
    rw [Bytes.toNat_ofNat]
    exact Nat.mod_eq_of_lt h.short
  have split : s.encode ++ rest = s.kind.toByte :: Bytes.ofNat 4 s.body.length ++
      (s.body ++ rest) := by
    simp [encode]
  rw [split]
  simp only [Bytes.ofNat, List.nil_append, List.cons_append] at length ⊢
  rw [readMany]
  simp only [length, List.take_left, List.drop_left, Nat.lt_irrefl, if_false]
  change (readMany (index + 1) count rest >>= fun others => pure (s.received :: others)) = _
  rw [h.received]
  cases readMany (index + 1) count rest <;> rfl

/-- Where no whole segment comes next, reading another one overruns. -/
theorem Segment.readMany_misfit (h : ¬ Heads x) (index count : Nat) :
    readMany index (count + 1) x = .error (.segmentOverrun index) := by
  match x with
  | [] | [_] | [_, _] | [_, _, _] | [_, _, _, _] => rfl
  | k :: l₃ :: l₂ :: l₁ :: l₀ :: rest =>
    rw [readMany]
    refine if_pos (Nat.lt_of_not_le fun whole => h ?_)
    -- The bytes of the length and as many more are a segment.
    have field := Bytes.ofNat_toNat [l₃, l₂, l₁, l₀]
    have body : (rest.take (Bytes.toNat [l₃, l₂, l₁, l₀])).length =
        Bytes.toNat [l₃, l₂, l₁, l₀] :=
      Nat.le_antisymm (List.length_take_le _ _) whole
    refine ⟨⟨.ofByte k, rest.take (Bytes.toNat [l₃, l₂, l₁, l₀])⟩, ⟨?_, ?_⟩, ?_⟩
    · simp [received]
    · have small : Bytes.toNat (Bytes.ofNat 4 (Bytes.toNat [l₃, l₂, l₁, l₀])) < 4294967296 := by
        rw [Bytes.toNat_ofNat]
        exact Nat.mod_lt _ (by decide)
      rw [show Bytes.ofNat 4 _ = _ from field] at small
      exact Nat.lt_of_le_of_lt (Nat.le_of_eq body) small
    · rw [encode, body, show Bytes.ofNat 4 _ = _ from field, Kind.toByte_ofByte]
      exact List.prefix_append_right_inj [k, l₃, l₂, l₁, l₀] |>.2 (List.take_prefix _ _)

/-- Whole segments at the front are read one after the other. -/
theorem Segment.readMany_append (h : ∀ s ∈ segments, s.Readable) (index count : Nat)
    (rest : Bytes) :
    readMany index (segments.length + count) (segments.flatMap encode ++ rest) =
      (readMany (index + segments.length) count rest).map (segments ++ ·) := by
  induction segments generalizing index with
  | nil =>
    rw [List.length_nil, Nat.zero_add]
    cases h : readMany index count rest <;> simp [h, Except.map]
  | cons s segments ih =>
    rw [List.forall_mem_cons] at h
    rw [List.flatMap_cons, List.append_assoc, List.length_cons, Nat.add_right_comm,
      readMany_cons h.1, ih h.2, Nat.add_assoc, Nat.add_comm 1]
    cases readMany (index + (segments.length + 1)) count rest <;> rfl

/-- A text starts with some number of whole segments, or with fewer and then with none. -/
theorem Segment.exists_split (count : Nat) (text : Bytes) :
    ∃ (segments : List Segment) (rest : Bytes), (∀ s ∈ segments, s.Readable) ∧
      text = segments.flatMap encode ++ rest ∧
        (segments.length = count ∨ segments.length < count ∧ ¬ Heads rest) := by
  induction count generalizing text with
  | zero => exact ⟨[], text, nofun, rfl, .inl rfl⟩
  | succ count ih =>
    by_cases heads : Heads text
    · obtain ⟨s, readable, tail, rfl⟩ := heads
      obtain ⟨segments, rest, all, rfl, ends⟩ := ih tail
      refine ⟨s :: segments, rest, List.forall_mem_cons.2 ⟨readable, all⟩, ?_, ?_⟩
      · rw [List.flatMap_cons, List.append_assoc]
      · rw [List.length_cons]
        exact ends.imp (congrArg (· + 1)) fun fewer => ⟨Nat.succ_lt_succ fewer.1, fewer.2⟩
    · exact ⟨[], text, nofun, rfl, .inr ⟨Nat.succ_pos count, heads⟩⟩

/-! ## The header -/

/-- The header that the bytes between size field and segment count spell. -/
def Header.ofFields (bytes : Bytes) : Header where
  sequence := field bytes 0 8
  hardware := .ofNat (field bytes 8 3)
  firmware := .ofNat (field bytes 11 3)
  sensor := .ofNat (field bytes 14 6)
  model := .ofNat (field bytes 20 3)
  flags := ⟨UInt8.ofNat (field bytes 28 1)⟩

theorem Header.read_append {front fields : Bytes} (before : front.length = preambleLength)
    (whole : fields.length = headerLength - preambleLength) (rest : Bytes) :
    read (front ++ (fields ++ rest)) = .ok (ofFields fields) := by
  have whole : fields.length = 29 := whole
  have long : ¬ ((front ++ (fields ++ rest)).take headerLength).length < headerLength := by
    rw [List.length_take, List.length_append, List.length_append, before, whole]
    simp only [headerLength, preambleLength]
    omega
  have at_ (start width : Nat) (inside : start + width ≤ 29) :
      field (front ++ (fields ++ rest)) (9 + start) width = field fields start width := by
    have here := field_append front (whole.symm ▸ inside) rest
    rwa [before] at here
  rw [read, if_neg long, at_ 0 8 (by decide), at_ 8 3 (by decide), at_ 11 3 (by decide),
    at_ 14 6 (by decide), at_ 20 3 (by decide), at_ 28 1 (by decide)]
  rfl

/-! ## Envelopes -/

/-- What a text that passes the envelope check is made of. -/
@[ext] structure Envelope where
  header : Bytes
  count : UInt8
  /-- The segments, and what stands between the last one and the checksum. -/
  group : Bytes
  checksum : Bytes
  behind : Bytes
  length_header : header.length = headerLength - preambleLength
  length_checksum : checksum.length = checksumLength
  fits : (header ++ count :: (group ++ checksum)).length ≤ maxSize

namespace Envelope

variable (e : Envelope)

/-- Everything between size field and end marker. -/
def payload : Bytes := e.header ++ e.count :: (e.group ++ e.checksum)

def size : Nat := e.payload.length

/-- The frame without what stands behind it. -/
def raw : Bytes :=
  startMarker ++ version :: Bytes.ofNat 4 e.size ++ (e.payload ++ [endMarker])

def text : Bytes := e.raw ++ e.behind

def frame (segments : List Segment) : Frame :=
  { Header.ofFields e.header with segments, raw := e.raw }

theorem minSize_le : minSize ≤ e.size := by
  have header : e.header.length = 29 := e.length_header
  have checksum : e.checksum.length = 2 := e.length_checksum
  simp only [size, payload, List.length_append, List.length_cons, header, checksum, minSize]
  omega

theorem length_raw : e.raw.length = lengthOf e.size := by
  simp [raw, size, lengthOf, preambleLength, startMarker]
  omega

theorem preamble_text : preamble e.text = .ok e.size := by
  have read : Bytes.toNat (Bytes.ofNat 4 e.size) = e.size := by
    rw [Bytes.toNat_ofNat]
    exact Nat.mod_eq_of_lt (Nat.lt_of_le_of_lt e.fits (by decide))
  have bounds : ¬ (e.size < minSize ∨ maxSize < e.size) :=
    not_or.2 ⟨Nat.not_lt_of_le e.minSize_le, Nat.not_lt_of_le e.fits⟩
  rw [text, raw]
  simp only [startMarker, Bytes.ofNat, List.nil_append, List.cons_append] at read ⊢
  simp only [preamble, startMarker, ne_eq, not_true_eq_false, if_false, read, bounds]

theorem envelope_text : envelope e.text = .ok e.size := by
  refine envelope_eq_ok.2 ⟨e.preamble_text, ?_⟩
  have last : e.raw.getLast? = some endMarker := by
    rw [raw, ← List.append_assoc]
    exact List.getLast?_concat
  have inside : lengthOf e.size - 1 < e.raw.length := by
    rw [length_raw]
    exact Nat.sub_lt (Nat.succ_pos _) Nat.one_pos
  rw [text, List.getElem?_append_left inside, ← length_raw, ← List.getLast?_eq_getElem?, last]

theorem isFrame_raw : IsFrame e.raw := by
  have enclosed : envelope (e.raw ++ []) = .ok e.size := envelope_text { e with behind := [] }
  rw [List.append_nil] at enclosed
  exact ⟨e.size, enclosed, e.length_raw⟩

theorem read_text : Header.read e.text = .ok (.ofFields e.header) := by
  have split : e.text = startMarker ++ version :: Bytes.ofNat 4 e.size ++
      (e.header ++ (e.count :: (e.group ++ e.checksum) ++ [endMarker] ++ e.behind)) := by
    simp only [text, raw, payload, List.append_assoc, List.cons_append]
  rw [split]
  exact Header.read_append (by simp [startMarker, preambleLength]) e.length_header _

/-- The bytes of an envelope are read segment by segment, and nothing behind them is. -/
theorem decode_text : decode e.text = (Segment.readMany 0 e.count.toNat e.group).map e.frame := by
  let front : Bytes := startMarker ++ version :: Bytes.ofNat 4 e.size
  have group : (e.text.take (preambleLength + e.size - checksumLength)).drop headerLength =
      e.count :: e.group := by
    have split : e.text = (front ++ e.header) ++ (e.count :: e.group) ++
        (e.checksum ++ [endMarker] ++ e.behind) := by
      simp only [front, text, raw, payload, List.append_assoc, List.cons_append]
    have header : (front ++ e.header).length = headerLength := by
      rw [List.length_append, e.length_header]
      simp [front, startMarker, headerLength, preambleLength]
    have upto : ((front ++ e.header) ++ (e.count :: e.group)).length =
        preambleLength + e.size - checksumLength := by
      have checksum := e.length_checksum
      simp only [size, payload, List.length_append, List.length_cons, checksum]
      simp [front, startMarker, preambleLength]
      omega
    rw [split, ← upto, List.take_left, ← header, List.drop_left]
  have whole : e.text.take (lengthOf e.size) = e.raw := by
    rw [← length_raw, text, List.take_left]
  unfold decode
  rw [envelope_text, read_text]
  simp only [bind, Except.bind, pure, Except.pure, group, whole]
  cases Segment.readMany 0 e.count.toNat e.group <;> rfl

/-- The segment of this number is the first one of the group that is not whole, although it is
announced. -/
def OverrunsAt (index : Nat) : Prop :=
  ∃ (segments : List Segment) (left : Bytes), segments.length = index ∧ index < e.count.toNat ∧
    (∀ s ∈ segments, s.Readable) ∧ e.group = segments.flatMap Segment.encode ++ left ∧
      ¬ Segment.Heads left

variable {e}

theorem OverrunsAt.decode {index : Nat} (h : e.OverrunsAt index) :
    decode e.text = .error (.segmentOverrun index) := by
  obtain ⟨segments, left, rfl, fewer, all, group, misfit⟩ := h
  obtain ⟨more, count⟩ := Nat.exists_eq_add_of_lt fewer
  rw [decode_text, group, count, Nat.add_assoc, Segment.readMany_append all,
    Segment.readMany_misfit misfit, Nat.zero_add]
  rfl

/-- There is one way to take a text apart. -/
theorem text_injective : Function.Injective text := by
  intro e f same
  have sizes : e.size = f.size := by
    have checked := e.envelope_text
    rw [same, f.envelope_text] at checked
    exact (Except.ok.inj checked).symm
  obtain ⟨raws, behind⟩ := List.append_inj same (by rw [length_raw, length_raw, sizes])
  rw [raw, raw, sizes, List.append_cancel_left_eq, List.append_cancel_right_eq] at raws
  obtain ⟨header, rest⟩ := List.append_inj raws (e.length_header.trans f.length_header.symm)
  obtain ⟨count, rest⟩ := List.cons.inj rest
  obtain ⟨group, checksum⟩ :=
    List.append_inj' rest (e.length_checksum.trans f.length_checksum.symm)
  exact Envelope.ext header count group checksum behind

end Envelope

/-- What is as long as the smallest payload has the fields of one. -/
theorem exists_fields (long : minSize ≤ x.length) :
    ∃ header count group checksum, x = header ++ count :: (group ++ checksum) ∧
      header.length = headerLength - preambleLength ∧ checksum.length = checksumLength := by
  have long : 32 ≤ x.length := long
  have header : (x.take 29).length = 29 := by
    rw [List.length_take]
    omega
  have split : x = x.take 29 ++ x.drop 29 := (List.take_append_drop 29 x).symm
  have rest : (x.drop 29).length = x.length - 29 := List.length_drop
  match behind : x.drop 29 with
  | [] =>
    rw [behind, List.length_nil] at rest
    omega
  | count :: tail =>
    rw [behind] at split rest
    rw [List.length_cons] at rest
    refine ⟨x.take 29, count, tail.take (tail.length - 2), tail.drop (tail.length - 2), ?_, header,
      ?_⟩
    · rwa [List.take_append_drop]
    · rw [List.length_drop]
      simp only [checksumLength]
      omega

/-- A text that passes the envelope check is that of an envelope. -/
theorem exists_of_envelope {size : Nat} (h : envelope x = .ok size) :
    ∃ e : Envelope, e.text = x ∧ e.size = size := by
  obtain ⟨front, at_end⟩ := envelope_eq_ok.1 h
  obtain ⟨s₃, s₂, s₁, s₀, tail, rfl, spelled, least, most⟩ := exists_of_preamble front
  -- The end marker stands behind as many bytes as the size says.
  have place : tail[size]? = some endMarker := by
    rw [List.getElem?_append_right (by simp [startMarker, lengthOf, preambleLength])] at at_end
    have offset :
        lengthOf size - 1 - (startMarker ++ version :: [s₃, s₂, s₁, s₀]).length = size := by
      simp [startMarker, lengthOf, preambleLength]
    rwa [offset] at at_end
  obtain ⟨inside, marker⟩ := List.getElem?_eq_some_iff.1 place
  have length : (tail.take size).length = size := by
    rw [List.length_take, Nat.min_eq_left (Nat.le_of_lt inside)]
  obtain ⟨header, count, group, checksum, payload, length_header, length_checksum⟩ :=
    exists_fields (length.symm ▸ least)
  let e : Envelope :=
    { header, count, group, checksum, behind := tail.drop (size + 1), length_header
      length_checksum, fits := payload ▸ length.symm ▸ most }
  have same : e.payload = tail.take size := payload.symm
  have sizes : e.size = size := (congrArg List.length same).trans length
  refine ⟨e, ?_, sizes⟩
  have field : Bytes.ofNat 4 size = [s₃, s₂, s₁, s₀] :=
    spelled ▸ Bytes.ofNat_toNat [s₃, s₂, s₁, s₀]
  have behind : tail.take size ++ [endMarker] ++ e.behind = tail := by
    rw [List.append_assoc, List.singleton_append, ← marker, ← List.drop_eq_getElem_cons inside,
      List.take_append_drop]
  rw [Envelope.text, Envelope.raw, sizes, field, same, List.append_assoc, behind]

theorem envelope_eq_ok_iff {size : Nat} :
    envelope x = .ok size ↔ ∃ e : Envelope, e.text = x ∧ e.size = size :=
  ⟨exists_of_envelope, fun ⟨e, text, size⟩ => text ▸ size ▸ e.envelope_text⟩

/-! ## Parts -/

/-- What a text that is read as a frame is made of: as many segments as are announced stand at the
front of the group. -/
structure Parts extends Envelope where
  segments : List Segment
  slack : Bytes
  group_eq : group = segments.flatMap Segment.encode ++ slack
  count_eq : count.toNat = segments.length
  readable : ∀ s ∈ segments, s.Readable

namespace Parts

variable (p : Parts)

def frame : Frame := p.toEnvelope.frame p.segments

/-- All parts one after the other, and what stands behind the frame. -/
def joined : Bytes :=
  startMarker ++ [version] ++ Bytes.ofNat 4 p.size ++ p.header ++ [p.count] ++
    p.segments.flatMap Segment.encode ++ p.slack ++ p.checksum ++ [endMarker] ++ p.behind

theorem joined_eq : p.joined = p.text := by
  simp [joined, Envelope.text, Envelope.raw, Envelope.payload, p.group_eq]

theorem decode_text : decode p.text = .ok p.frame := by
  have read := Segment.readMany_append p.readable 0 0 p.slack
  rw [Nat.add_zero, ← p.group_eq, ← p.count_eq] at read
  rw [Envelope.decode_text, read, Segment.readMany]
  simp only [Except.map, List.append_nil]
  rfl

variable {p}

theorem text_injective {q : Parts} (same : p.text = q.text) : p = q := by
  have frames : p.frame = q.frame := by
    have read := p.decode_text
    rw [same, q.decode_text] at read
    exact (Except.ok.inj read).symm
  have segments : p.segments = q.segments := congrArg Frame.segments frames
  have envelopes := Envelope.text_injective same
  have slack : p.slack = q.slack := by
    have groups := congrArg Envelope.group envelopes
    rw [p.group_eq, q.group_eq, segments, List.append_cancel_left_eq] at groups
    exact groups
  cases p
  cases q
  cases envelopes
  cases segments
  cases slack
  rfl

end Parts

/-- An envelope holds the parts of a frame, or its group ends within a segment. -/
theorem Envelope.parts_or_overrunsAt (e : Envelope) :
    (∃ p : Parts, p.toEnvelope = e) ∨ ∃ index, e.OverrunsAt index := by
  obtain ⟨segments, rest, all, group, ends⟩ := Segment.exists_split e.count.toNat e.group
  rcases ends with count | ⟨fewer, misfit⟩
  · exact .inl ⟨⟨e, segments, rest, group, count.symm, all⟩, rfl⟩
  · exact .inr ⟨_, segments, rest, rfl, fewer, all, group, misfit⟩

theorem Envelope.overrunsAt_of_refused (e : Envelope)
    (refused : ∀ frame, decode e.text ≠ .ok frame) :
    ∃ index, e.OverrunsAt index ∧ decode e.text = .error (.segmentOverrun index) := by
  rcases e.parts_or_overrunsAt with ⟨p, rfl⟩ | ⟨index, overruns⟩
  · exact absurd p.decode_text (refused p.frame)
  · exact ⟨index, overruns, overruns.decode⟩

theorem decode_eq_ok_iff {frame : Frame} :
    decode x = .ok frame ↔ ∃ p : Parts, p.text = x ∧ p.frame = frame := by
  constructor
  · intro read
    cases enclosed : envelope x with
    | error reason =>
      rw [decode, enclosed] at read
      cases read
    | ok size =>
      obtain ⟨e, rfl, -⟩ := envelope_eq_ok_iff.1 enclosed
      rcases e.parts_or_overrunsAt with ⟨p, rfl⟩ | ⟨index, overruns⟩
      · exact ⟨p, rfl, Except.ok.inj (p.decode_text.symm.trans read)⟩
      · rw [overruns.decode] at read
        cases read
  · rintro ⟨p, rfl, rfl⟩
    exact p.decode_text

theorem envelope_append (complete : ∀ n m, envelope x ≠ .error (.truncated n m)) (rest : Bytes) :
    envelope (x ++ rest) = envelope x := by
  have front : preamble (x ++ rest) = preamble x := by
    refine preamble_append (fun n m short => complete n m ?_) rest
    rw [envelope, short]
    rfl
  rw [envelope, front, envelope]
  cases checked : preamble x with
  | error => rfl
  | ok size =>
    have ends : x[lengthOf size - 1]? ≠ none := by
      intro short
      refine complete (lengthOf size) x.length ?_
      rw [envelope, checked]
      simp only [bind, Except.bind, short]
    have inside : lengthOf size - 1 < x.length := by
      rw [ne_eq, List.getElem?_eq_none_iff, Nat.not_le] at ends
      exact ends
    simp only [bind, Except.bind, List.getElem?_append_left inside]
    rw [List.getElem?_eq_getElem inside]

/-- What stands behind a frame is not looked at, and neither is what stands behind a text that is
refused. -/
theorem decode_append (complete : ∀ n m, decode x ≠ .error (.truncated n m)) (rest : Bytes) :
    decode (x ++ rest) = decode x := by
  cases enclosed : envelope x with
  | error reason =>
    have refused {y : Bytes} {e : Error} (h : envelope y = .error e) : decode y = .error e := by
      rw [decode, h]
      rfl
    have same := envelope_append (fun n m short => complete n m (refused short)) rest
    rw [refused (same.trans enclosed), refused enclosed]
  | ok size =>
    obtain ⟨e, rfl, -⟩ := envelope_eq_ok_iff.1 enclosed
    have longer : e.text ++ rest = Envelope.text { e with behind := e.behind ++ rest } :=
      List.append_assoc _ _ _
    rw [longer, Envelope.decode_text, Envelope.decode_text]
    rfl

/-! ## What is read -/

/-- A text is read as a frame exactly if it has the parts of one, which are then the only ones and
make up the frame. A text that is refused although it passes the envelope check has a segment that is
not whole, and the error names the first of them. More octets change no result but that there are
too few. -/
theorem decode_grammar (raw : Bytes) :
    ((∃ frame, decode raw = .ok frame) ↔ ∃! p : Parts, p.joined = raw) ∧
    (∀ p : Parts, p.joined = raw → decode raw = .ok p.frame) ∧
    (∀ size, envelope raw = .ok size → (∀ frame, decode raw ≠ .ok frame) →
      ∃ e : Envelope, e.text = raw ∧
        ∃ index, e.OverrunsAt index ∧ decode raw = .error (.segmentOverrun index)) ∧
    ∀ rest, (∀ need available, decode raw ≠ .error (.truncated need available)) →
      decode (raw ++ rest) = decode raw := by
  refine ⟨⟨?_, ?_⟩, ?_, ?_, fun rest complete => decode_append complete rest⟩
  · rintro ⟨frame, read⟩
    obtain ⟨p, rfl, -⟩ := decode_eq_ok_iff.1 read
    refine ⟨p, p.joined_eq, fun q same => Parts.text_injective ?_⟩
    rw [← q.joined_eq, same]
  · rintro ⟨p, rfl, -⟩
    rw [p.joined_eq]
    exact ⟨p.frame, p.decode_text⟩
  · rintro p rfl
    rw [p.joined_eq]
    exact p.decode_text
  · intro size enclosed refused
    obtain ⟨e, rfl, -⟩ := envelope_eq_ok_iff.1 enclosed
    exact ⟨e, rfl, e.overrunsAt_of_refused refused⟩

/-- Two segments of which one is announced, and the same two of which three are announced. -/
theorem decode_grammar_miscounted :
    let whole := Draft.encode { sensor := .ofNat 7, segments := [.degrees 2515, .degrees (-1)] }
    let fewer := whole.set 38 1
    let more := whole.set 38 3
    (∃! p : Parts, p.joined = fewer) ∧
      (∃ p : Parts, p.joined = fewer ∧ p.segments = [.degrees 2515]) ∧
      decode (fewer ++ [9]) = decode fewer ∧
      envelope more = .ok 46 ∧ (∀ frame, decode more ≠ .ok frame) ∧
      ∃ e : Envelope, e.text = more ∧ e.OverrunsAt 2 := by
  intro whole fewer more
  obtain ⟨frame, read, segments⟩ : ∃ frame, decode fewer = .ok frame ∧
      frame.segments = [.degrees 2515] :=
    ⟨{ sequence := 0, hardware := ⟨1, 0, 0⟩, firmware := ⟨1, 0, 0⟩, sensor := .ofNat 7
       model := ⟨0, 0, 0⟩, flags := ⟨0⟩, segments := [.degrees 2515], raw := fewer },
      by decide +kernel, rfl⟩
  have overruns : decode more = .error (.segmentOverrun 2) := by decide +kernel
  have enclosed : envelope more = .ok 46 := by decide +kernel
  have refused : ∀ frame, decode more ≠ .ok frame := by
    rw [overruns]
    nofun
  obtain ⟨apart, made, -, behind⟩ := decode_grammar fewer
  obtain ⟨p, joined, unique⟩ := apart.1 ⟨frame, read⟩
  obtain ⟨e, bytes, index, found, named⟩ := (decode_grammar more).2.2.1 46 enclosed refused
  refine ⟨⟨p, joined, unique⟩, ⟨p, joined, ?_⟩, behind [9] ?_, enclosed, refused, e, bytes, ?_⟩
  · rw [← segments, ← Except.ok.inj ((made p joined).symm.trans read)]
    rfl
  · rw [read]
    nofun
  · rw [overruns] at named
    cases named
    exact found

end Frame

end SensorIngest
