import SensorIngest.Simulator.Reader
import SensorIngest.Proofs.Frame.RoundTrip

/-!
# Replies are read as they were sent

Acknowledgements carry no mark, so a reader tells them from requests by their first bytes alone.
A reply is `Clear` if that is enough: its sequence has eight bytes, and an acknowledged sequence does
not start like a request. A clear reply is read as such (`Reply.split?_encode`), and no part of a
reply is read as one (`Reply.split?_of_cut`). What a text tells first does not change when more
arrives (`Reply.split?_append`), so the reads into which it is cut make no difference
(`Simulator.Reader.readAll_eq`).

`Simulator.Reader.decodes` puts these together: a sensor reads the replies that were sent, all of
those that have arrived whole, and no acknowledgement that starts like a request is ever read as
one.
-/

namespace SensorIngest

/-! ## Numbers in big-endian bytes -/

theorem Bytes.ofNat_add (high low n : Nat) :
    ofNat (high + low) n = ofNat high (n / 256 ^ low) ++ ofNat low n := by
  induction low generalizing n with
  | zero => rw [Nat.add_zero, Nat.pow_zero, Nat.div_one, ofNat, List.append_nil]
  | succ low ih =>
    rw [← Nat.add_assoc, ofNat, ih, ofNat, Nat.div_div_eq_div_mul, Nat.pow_succ', List.append_assoc]

theorem Bytes.ofNat_eq_iff (bytes : Bytes) (n : Nat) :
    ofNat bytes.length n = bytes ↔ n % 256 ^ bytes.length = toNat bytes := by
  have value : toNat (ofNat bytes.length n) = n % 256 ^ bytes.length := toNat_ofNat _ n
  constructor
  · intro same
    rw [← value, same]
  · intro same
    have spelled := ofNat_toNat (ofNat bytes.length n)
    rw [length_ofNat, value, same, ofNat_toNat] at spelled
    exact spelled.symm

namespace Reply

variable {r : Reply} {x : Bytes}

/-! ## Clear replies -/

/-- The top three bytes of the sequence are those a request starts with. -/
def Marked (sequence : Nat) : Prop := sequence / 2 ^ 40 = 0xFC010E

instance (sequence : Nat) : Decidable (Marked sequence) :=
  inferInstanceAs (Decidable (_ = _))

/-- The sequence fits its eight bytes, and that of an acknowledgement does not start like a request. -/
def Clear : Reply → Prop
  | ack sequence => sequence < 2 ^ 64 ∧ ¬ Marked sequence
  | resend _ sequence => sequence < 2 ^ 64

instance : DecidablePred Clear
  | ack _ => inferInstanceAs (Decidable (_ ∧ _))
  | resend _ _ => inferInstanceAs (Decidable (_ < _))

/-- The first bytes of a number tell whether it is marked. -/
theorem take_ofNat_eq_marker_iff {n : Nat} (short : n < 2 ^ 64) :
    (Bytes.ofNat 8 n).take resendMarker.length = resendMarker ↔ Marked n := by
  have cut : (Bytes.ofNat (3 + 5) n).take 3 = Bytes.ofNat 3 (n / 256 ^ 5) := by
    rw [Bytes.ofNat_add, List.take_left' (Bytes.length_ofNat _ _)]
  have top : n / 256 ^ 5 % 256 ^ 3 = n / 2 ^ 40 := by omega
  have marked := Bytes.ofNat_eq_iff resendMarker (n / 256 ^ 5)
  have marker : resendMarker.length = 3 := rfl
  have value : Bytes.toNat resendMarker = 0xFC010E := rfl
  rw [marker, value, top] at marked
  rw [marker, cut, marked, Marked]

theorem encode_resend (sensor : SensorId) (n : Nat) : (resend sensor n).encode =
    resendMarker ++ (sensor.toBytes ++ (Bytes.ofNat 8 n ++
      Bytes.ofNat 2 (Bytes.checksum (sensor.toBytes ++ Bytes.ofNat 8 n)))) := by
  simp only [encode, List.append_assoc]

theorem length_encode_ack (n : Nat) : (ack n).encode.length = ackLength :=
  Bytes.length_ofNat 8 n

theorem length_encode_resend (sensor : SensorId) (n : Nat) :
    (resend sensor n).encode.length = resendLength := by
  simp [encode, resendMarker, resendLength, SensorId.toBytes]

theorem toNat_ofNat_of_lt {n : Nat} (short : n < 2 ^ 64) : Bytes.toNat (Bytes.ofNat 8 n) = n := by
  have value : Bytes.toNat (Bytes.ofNat 8 n) = n % 2 ^ 64 := Bytes.toNat_ofNat 8 n
  rw [value, Nat.mod_eq_of_lt short]

/-! ## The first reply of a text -/

theorem split?_eq_resend (long : resendLength ≤ x.length)
    (marked : x.take resendMarker.length = resendMarker) :
    split? x = some (.resend (.ofBytes ((x.drop 3).take 6)) (Bytes.toNat ((x.drop 9).take 8)),
      resendLength) := by
  have enough : ¬ (x.take resendLength).length < resendLength := by
    rw [List.length_take_of_le long]
    exact Nat.lt_irrefl _
  have some_at : ¬ (x.take ackLength).length < ackLength := by
    rw [List.length_take_of_le (Nat.le_trans (by decide) long)]
    exact Nat.lt_irrefl _
  rw [split?, if_neg some_at, if_pos marked, if_neg enough]

theorem split?_eq_ack (long : ackLength ≤ x.length)
    (unmarked : x.take resendMarker.length ≠ resendMarker) :
    split? x = some (.ack (Bytes.toNat (x.take ackLength)), ackLength) := by
  have enough : ¬ (x.take ackLength).length < ackLength := by
    rw [List.length_take_of_le long]
    exact Nat.lt_irrefl _
  rw [split?, if_neg enough, if_neg unmarked]

theorem split?_eq_none (short : x.length < ackLength ∨
    x.take resendMarker.length = resendMarker ∧ x.length < resendLength) : split? x = none := by
  rw [split?]
  split
  · rfl
  · rename_i enough
    rw [List.length_take] at enough
    obtain ⟨marked, short⟩ := short.resolve_left (by omega)
    rw [if_pos marked, if_pos (by rw [List.length_take]; omega)]

theorem split?_cases {n : Nat} (first : split? x = some (r, n)) :
    resendLength ≤ x.length ∧ x.take resendMarker.length = resendMarker ∨
      ackLength ≤ x.length ∧ x.take resendMarker.length ≠ resendMarker := by
  by_cases marked : x.take resendMarker.length = resendMarker
  · refine .inl ⟨Nat.le_of_not_lt fun short => ?_, marked⟩
    rw [split?_eq_none (.inr ⟨marked, short⟩)] at first
    cases first
  · refine .inr ⟨Nat.le_of_not_lt fun short => ?_, marked⟩
    rw [split?_eq_none (.inl short)] at first
    cases first

/-- What a text tells first does not change when more arrives. -/
theorem split?_append {n : Nat} (first : split? x = some (r, n)) (y : Bytes) :
    split? (x ++ y) = some (r, n) := by
  have grown : x.length ≤ (x ++ y).length := by
    rw [List.length_append]
    exact Nat.le_add_right _ _
  have field : ∀ start width, start + width ≤ x.length →
      ((x ++ y).drop start).take width = (x.drop start).take width := by
    intro start width inside
    rw [List.drop_append_of_le_length (by omega),
      List.take_append_of_le_length (by rw [List.length_drop]; omega)]
  rcases split?_cases first with ⟨long, marked⟩ | ⟨long, unmarked⟩
  · have front := field 0 resendMarker.length (Nat.le_trans (by decide) long)
    rw [split?_eq_resend long marked] at first
    rw [split?_eq_resend (Nat.le_trans long grown) (front.trans marked),
      field 3 6 (Nat.le_trans (by decide) long), field 9 8 (Nat.le_trans (by decide) long), first]
  · have front := field 0 resendMarker.length (Nat.le_trans (by decide) long)
    rw [split?_eq_ack long unmarked] at first
    rw [split?_eq_ack (Nat.le_trans long grown) fun marked => unmarked (front.symm.trans marked),
      List.take_append_of_le_length long, first]

/-- No part of a reply is read as one. -/
theorem split?_of_cut (cut : x <+: r.encode) (short : x.length < r.encode.length) :
    split? x = none := by
  apply split?_eq_none
  cases r with
  | ack n =>
    rw [length_encode_ack] at short
    exact .inl short
  | resend sensor n =>
    rw [length_encode_resend] at short
    rcases Nat.lt_or_ge x.length ackLength with few | some_at
    · exact .inl few
    · have same := (List.prefix_iff_eq_take.1 cut)
      refine .inr ⟨?_, short⟩
      rw [same, List.take_take, Nat.min_eq_left (Nat.le_trans (by decide) some_at), encode_resend,
        List.take_left]

theorem split?_encode {r : Reply} (clear : r.Clear) : split? r.encode = some (r, r.encode.length) := by
  cases r with
  | ack n =>
    obtain ⟨short, unmarked⟩ := clear
    have front : (ack n).encode.take resendMarker.length ≠ resendMarker :=
      fun marked => unmarked ((take_ofNat_eq_marker_iff short).1 marked)
    rw [split?_eq_ack (length_encode_ack n).ge front, length_encode_ack,
      List.take_of_length_le (length_encode_ack n).le, encode, toNat_ofNat_of_lt short]
  | resend sensor n =>
    have marked : (resend sensor n).encode.take resendMarker.length = resendMarker := by
      rw [encode_resend, List.take_left]
    have marker : resendMarker.length = 3 := rfl
    have length_id : sensor.toBytes.length = 6 := Bytes.length_ofNat 6 _
    have sensor_at : ((resend sensor n).encode.drop 3).take 6 = sensor.toBytes := by
      rw [encode_resend, List.drop_left' marker, List.take_left' length_id]
    have before : (resendMarker ++ sensor.toBytes).length = 9 := by
      rw [List.length_append, marker, length_id]
    have sequence_at : ((resend sensor n).encode.drop 9).take 8 = Bytes.ofNat 8 n := by
      rw [encode_resend, ← List.append_assoc, List.drop_left' before,
        List.take_left' (Bytes.length_ofNat 8 _)]
    rw [split?_eq_resend (length_encode_resend sensor n).ge marked, length_encode_resend, sensor_at,
      sequence_at, toNat_ofNat_of_lt clear, SensorId.ofBytes, SensorId.ofNat_toNat]

/-- An acknowledgement is read as itself exactly if its sequence is not marked. -/
theorem exists_split?_ack_append_iff {n : Nat} (short : n < 2 ^ 64) (more : Bytes) :
    (∃ used, split? ((ack n).encode ++ more) = some (ack n, used)) ↔ ¬ Marked n := by
  constructor
  · rintro ⟨used, read⟩ marked
    have front : ((ack n).encode ++ more).take resendMarker.length = resendMarker := by
      have inside : resendMarker.length ≤ (ack n).encode.length := by
        rw [length_encode_ack]
        decide
      rw [List.take_append_of_le_length inside]
      exact (take_ofNat_eq_marker_iff short).2 marked
    rcases Nat.lt_or_ge ((ack n).encode ++ more).length resendLength with few | many
    · rw [split?_eq_none (.inr ⟨front, few⟩)] at read
      cases read
    · rw [split?_eq_resend many front] at read
      cases read
  · intro unmarked
    have clear : (ack n).Clear := ⟨short, unmarked⟩
    exact ⟨_, split?_append (split?_encode clear) more⟩

/-! ## All replies of a text -/

theorem splitAll_of_none (h : split? x = none) : splitAll x = ([], x) := by
  rw [splitAll.eq_def]
  split
  · rfl
  · rename_i other
    rw [h] at other
    cases other

theorem splitAll_of_some {n : Nat} (h : split? x = some (r, n)) :
    splitAll x = ((r, n) :: (splitAll (x.drop n)).1, (splitAll (x.drop n)).2) := by
  rw [splitAll.eq_def]
  split
  · rename_i other
    rw [h] at other
    cases other
  · rename_i other
    cases h.symm.trans other
    rfl

/-- What is left behind all replies is no whole reply. -/
theorem split?_splitAll (x : Bytes) : split? (splitAll x).2 = none := by
  fun_induction splitAll x with
  | case1 x stop => exact stop
  | case2 x reply used step replies left eq ih =>
    rw [eq] at ih
    exact ih

/-- The replies of a text that grows are those it had, and those of what was left with the rest. -/
theorem splitAll_append (x y : Bytes) : splitAll (x ++ y) =
    ((splitAll x).1 ++ (splitAll ((splitAll x).2 ++ y)).1,
      (splitAll ((splitAll x).2 ++ y)).2) := by
  fun_induction splitAll x with
  | case1 x stop => rfl
  | case2 x reply used step replies left eq ih =>
    rw [eq] at ih
    rw [splitAll_of_some (split?_append step y), List.drop_append_of_le_length (split?_bounds step).2,
      ih]
    rfl

/-- Of clear replies, a text that stops somewhere tells those that are whole in it. The part of the next
one is left. -/
theorem splitAll_of_prefix {sent : List Reply} (clear : ∀ r ∈ sent, r.Clear) {x : Bytes}
    (cut : x <+: sent.flatMap encode) : ∃ whole rest left, sent = whole ++ rest ∧
      x = whole.flatMap encode ++ left ∧
      (∀ next ∈ rest.head?, left.length < next.encode.length) ∧
      (rest = [] → left = []) ∧
      splitAll x = (whole.map fun r => (r, r.encode.length), left) := by
  induction sent generalizing x with
  | nil =>
    obtain rfl : x = [] := List.prefix_nil.1 cut
    exact ⟨[], [], [], rfl, rfl, by simp, by simp, splitAll_of_none rfl⟩
  | cons r sent ih =>
    obtain ⟨clear_r, clear⟩ := List.forall_mem_cons.1 clear
    rw [List.flatMap_cons] at cut
    rcases Nat.lt_or_ge x.length r.encode.length with short | long
    · -- The first reply is not whole, so nothing is read.
      have part : x <+: r.encode :=
        List.prefix_of_prefix_length_le cut (List.prefix_append _ _) (Nat.le_of_lt short)
      refine ⟨[], r :: sent, x, rfl, rfl, ?_, by simp, splitAll_of_none (split?_of_cut part short)⟩
      rintro next ⟨⟩
      exact short
    · obtain ⟨y, rfl⟩ : r.encode <+: x :=
        List.prefix_of_prefix_length_le (List.prefix_append _ _) cut long
      obtain ⟨whole, rest, left, sent_eq, y_eq, next, done, read⟩ :=
        ih clear ((List.prefix_append_right_inj _).1 cut)
      refine ⟨r :: whole, rest, left, by rw [sent_eq, List.cons_append], ?_, next, done, ?_⟩
      · rw [y_eq, List.flatMap_cons, List.append_assoc]
      · rw [splitAll_of_some (split?_append (split?_encode clear_r) y), List.drop_left, read]
        rfl

end Reply

namespace Simulator.Reader

variable {r : Reader}

/-! ## The reader -/

theorem note_setWaiting (waiting : Bytes) (reply : Reply) :
    ({ r with waiting } : Reader).note reply = { r.note reply with waiting } := by
  cases reply with
  | ack => rfl
  | resend sensor =>
    by_cases mine : sensor = r.sensor <;> simp [note, mine]

theorem foldl_note_setWaiting (waiting : Bytes) (replies : List Reply) :
    replies.foldl note { r with waiting } = { replies.foldl note r with waiting } := by
  induction replies generalizing r with
  | nil => rfl
  | cons reply replies ih => rw [List.foldl_cons, note_setWaiting, ih, List.foldl_cons]

/-- The reads into which a text is cut make no difference. -/
theorem readAll_eq (front : Reply.split? r.waiting = none) (reads : List Bytes) :
    let received := Reply.splitAll (r.waiting ++ reads.flatten)
    let replies := received.1.map Prod.fst
    r.readAll reads = ({ replies.foldl note r with waiting := received.2 }, replies) := by
  induction reads generalizing r with
  | nil =>
    rw [List.flatten_nil, List.append_nil, Reply.splitAll_of_none front]
    rfl
  | cons bytes rest ih =>
    have stop := Reply.split?_splitAll (r.waiting ++ bytes)
    obtain ⟨replies, left, first⟩ : ∃ replies left,
        Reply.splitAll (r.waiting ++ bytes) = (replies, left) := ⟨_, _, rfl⟩
    have read : r.read bytes =
        ({ (replies.map Prod.fst).foldl note r with waiting := left }, replies.map Prod.fst) := by
      rw [Reader.read, first, ← foldl_note_setWaiting]
    rw [first] at stop
    have more := ih (r := { (replies.map Prod.fst).foldl note r with waiting := left }) stop
    rw [List.flatten_cons, ← List.append_assoc, Reply.splitAll_append, first]
    simp only [readAll, read, more, foldl_note_setWaiting, List.map_append, List.foldl_append]

/-- What a new reader makes of a text that stops somewhere in clear replies. -/
theorem readAll_of_prefix (sensor : SensorId) {sent : List Reply} (clear : ∀ r ∈ sent, r.Clear)
    {reads : List Bytes} (cut : reads.flatten <+: sent.flatMap Reply.encode) :
    ∃ whole rest left, sent = whole ++ rest ∧
      reads.flatten = whole.flatMap Reply.encode ++ left ∧
      (∀ next ∈ rest.head?, left.length < next.encode.length) ∧
      (rest = [] → left = []) ∧
      ({ sensor } : Reader).readAll reads =
        ({ whole.foldl note { sensor } with waiting := left }, whole) := by
  obtain ⟨whole, rest, left, sent_eq, text, next, done, all⟩ := Reply.splitAll_of_prefix clear cut
  have read := readAll_eq (r := { sensor }) rfl reads
  have replies : (whole.map fun r => (r, r.encode.length)).map Prod.fst = whole := by
    rw [List.map_map]
    exact List.map_id whole
  rw [List.nil_append, all] at read
  dsimp only at read
  rw [replies] at read
  exact ⟨whole, rest, left, sent_eq, text, next, done, read⟩

/-- Of clear replies, a reader gets those that have arrived whole, in order, and the part of the next
one waits. Nothing waits if all of them have arrived. Of acknowledgements that are not clear, none is
ever read as such. -/
theorem decodes (sensor : SensorId) (sent : List Reply) (clear : ∀ r ∈ sent, r.Clear) :
    (∀ reads : List Bytes, reads.flatten = sent.flatMap Reply.encode →
      let (reader, replies) := ({ sensor } : Reader).readAll reads
      replies = sent ∧ reader.waiting = [] ∧ reader = sent.foldl note { sensor }) ∧
    (∀ reads : List Bytes, reads.flatten <+: sent.flatMap Reply.encode →
      let (reader, replies) := ({ sensor } : Reader).readAll reads
      replies <+: sent ∧ reads.flatten = replies.flatMap Reply.encode ++ reader.waiting ∧
        ∀ next, replies ++ [next] <+: sent → reader.waiting.length < next.encode.length) ∧
    (∀ sequence < 2 ^ 64, ∀ more,
      (∃ used, Reply.split? ((Reply.ack sequence).encode ++ more) = some (.ack sequence, used)) ↔
        ¬ Reply.Marked sequence) := by
  refine ⟨fun reads all => ?_, fun reads cut => ?_, fun sequence short more =>
    Reply.exists_split?_ack_append_iff short more⟩
  · have cut : reads.flatten <+: sent.flatMap Reply.encode := by rw [all]
    obtain ⟨whole, rest, left, rfl, text, next, done, read⟩ := readAll_of_prefix sensor clear cut
    -- A reply that is not read would wait as a whole.
    obtain rfl : rest = [] := by
      rw [all, List.flatMap_append] at text
      have left_eq := List.append_cancel_left text
      cases rest with
      | nil => rfl
      | cons r rest =>
        have part := next r rfl
        rw [← left_eq, List.flatMap_cons, List.length_append] at part
        omega
    obtain rfl := done rfl
    rw [read, List.append_nil]
    exact ⟨rfl, rfl, (foldl_note_setWaiting [] whole).symm⟩
  · obtain ⟨whole, rest, left, rfl, text, next, -, read⟩ := readAll_of_prefix sensor clear cut
    rw [read]
    refine ⟨List.prefix_append _ _, text, fun r upto => next r ?_⟩
    obtain ⟨others, rfl⟩ := (List.prefix_append_right_inj whole).1 upto
    rfl

/-- Acknowledgements and requests in reads that cut them, and without the end of the last one. -/
theorem decodes_cut :
    let sensor : SensorId := .ofNat 7
    let sent : List Reply := [.ack 1, .resend sensor 2, .resend (.ofNat 8) 4, .ack 3]
    let text := sent.flatMap Reply.encode
    let reads := [text.take 5, (text.drop 5).take 24, text.drop 29]
    let cut := [text.take 30, (text.drop 30).take 20]
    (∀ r ∈ sent, r.Clear) ∧ reads.flatten = text ∧ cut.flatten <+: text ∧
      (let (reader, replies) := ({ sensor } : Reader).readAll reads
      replies = sent ∧ reader.waiting = [] ∧ reader = sent.foldl note { sensor }) ∧
      (let (reader, replies) := ({ sensor } : Reader).readAll cut
      replies <+: sent ∧ cut.flatten = replies.flatMap Reply.encode ++ reader.waiting ∧
        ∀ next, replies ++ [next] <+: sent → reader.waiting.length < next.encode.length) := by
  intro sensor sent text reads cut
  have clear : ∀ r ∈ sent, r.Clear := by decide
  have whole : reads.flatten = text := by decide +kernel
  have part : cut.flatten <+: text := by decide +kernel
  exact ⟨clear, whole, part, (decodes sensor sent clear).1 reads whole,
    (decodes sensor sent clear).2.1 cut part⟩

end Simulator.Reader

end SensorIngest
