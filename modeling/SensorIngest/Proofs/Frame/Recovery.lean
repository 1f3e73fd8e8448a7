import SensorIngest.Proofs.Frame.Chunking

/-!
# Frames in a dirty stream

Frames come through with junk before, between and behind them, as long as the junk nowhere looks
like the start of a frame (`Harmless`): giving up on junk never jumps over a frame (`seek_append`)
and never ends inside one, since a frame is used up whole. Every frame gives one result (`judge`),
whatever its payload holds and however the bytes arrive (`Stream.frames_recovered`).
-/

namespace SensorIngest.Frame

variable {verifying : Bool} {f g x y : Bytes} {r : Except Error Bytes}

/-! ## What a frame gives -/

/-- A frame and nothing behind it. Nothing is said of its checksum. -/
def IsFrame (f : Bytes) : Prop := ∃ size, envelope f = .ok size ∧ f.length = lengthOf size

/-- The checksum that a frame states. -/
def statedChecksum (f : Bytes) : Nat := Bytes.toNat ((f.drop (f.length - 3)).take 2)

/-- The checksum of the bytes that the checksum of a frame covers. -/
def computedChecksum (f : Bytes) : Nat :=
  Bytes.checksum ((f.take (f.length - 3)).drop preambleLength)

/-- What comes of a frame: itself, unless its checksum is looked at and wrong. -/
def judge (verifying : Bool) (f : Bytes) : Except Error Bytes :=
  if verifying = true ∧ statedChecksum f ≠ computedChecksum f then
    .error (.badChecksum (statedChecksum f) (computedChecksum f))
  else .ok f

theorem envelope_eq_ok {size : Nat} :
    envelope x = .ok size ↔ preamble x = .ok size ∧ x[lengthOf size - 1]? = some endMarker := by
  unfold envelope
  cases preamble x with
  | error e => exact ⟨nofun, nofun⟩
  | ok n =>
    simp only [bind, Except.bind, Except.ok.injEq]
    constructor
    · intro h
      split at h
      · cases h
      · rename_i last at_end
        split at h
        · rename_i trailer
          exact ⟨Except.ok.inj h, by rw [← Except.ok.inj h, at_end, trailer]⟩
        · cases h
    · rintro ⟨rfl, at_end⟩
      rw [at_end]
      exact if_pos rfl

theorem verify_eq {size : Nat} (long : minSize ≤ size) (exact_ : f.length = lengthOf size) :
    verify f size =
      if statedChecksum f = computedChecksum f then .ok ()
      else .error (.badChecksum (statedChecksum f) (computedChecksum f)) := by
  have long : 32 ≤ size := long
  have place : preambleLength + (size - checksumLength) = f.length - 3 := by
    simp only [exact_, lengthOf, preambleLength, checksumLength]
    omega
  have stated : field (f.drop preambleLength) (size - checksumLength) checksumLength =
      statedChecksum f := by
    rw [field, List.drop_drop, place]
    rfl
  have computed : (f.drop preambleLength).take (size - checksumLength) =
      (f.take (f.length - 3)).drop preambleLength := by
    rw [List.drop_take, ← place, Nat.add_sub_cancel_left]
  unfold verify
  simp only [stated, computed]
  rfl

/-- A frame at the front of a text gives its result, and is used up whole. -/
theorem split?_frame (h : IsFrame f) (rest : Bytes) :
    split? verifying (f ++ rest) = some (judge verifying f, rest) := by
  obtain ⟨size, enveloped, exact_⟩ := h
  obtain ⟨front, at_end⟩ := envelope_eq_ok.1 enveloped
  have bound := minSize_le_of_preamble front
  have inside : lengthOf size - 1 < f.length := by
    rw [exact_]
    exact Nat.sub_lt (Nat.succ_pos _) Nat.one_pos
  have taken : (f ++ rest).take (lengthOf size) = f := by
    rw [← exact_, List.take_left]
  have left : (f ++ rest).drop (lengthOf size) = rest := by
    rw [← exact_, List.drop_left]
  have checked : verify (f ++ rest) size = verify f size := by
    rw [← verify_take bound, taken]
  have whole : preamble (f ++ rest) = .ok size := by
    rw [preamble_append (by simp [front]) rest, front]
  unfold split?
  simp only [whole, List.getElem?_append_left inside, at_end, taken, left, checked, if_true,
    verify_eq bound exact_, judge]
  cases verifying with
  | false => rfl
  | true =>
    by_cases right : statedChecksum f = computedChecksum f
    · rw [if_pos rfl, if_pos right, if_neg fun wrong => wrong.2 right]
      rfl
    · rw [if_pos rfl, if_neg right, if_pos ⟨rfl, right⟩]
      rfl

/-- A text with a good preamble starts with the start marker, the version and a size in range. -/
theorem exists_of_preamble {size : Nat} (h : preamble x = .ok size) :
    ∃ s₃ s₂ s₁ s₀ tail, x = startMarker ++ version :: [s₃, s₂, s₁, s₀] ++ tail ∧
      Bytes.toNat [s₃, s₂, s₁, s₀] = size ∧ minSize ≤ size ∧ size ≤ maxSize := by
  unfold preamble at h
  split at h
  · rename_i m₀ m₁ m₂ m₃ v s₃ s₂ s₁ s₀ tail
    dsimp only at h
    split at h
    · cases h
    · rename_i marker
      split at h
      · cases h
      · rename_i known
        split at h
        · cases h
        · rename_i bounds
          cases h
          rw [ne_eq, not_not] at marker known
          refine ⟨s₃, s₂, s₁, s₀, tail, ?_, rfl, ?_, ?_⟩
          · rw [← marker, ← known]
            rfl
          · exact Nat.le_of_not_lt fun small => bounds (.inl small)
          · exact Nat.le_of_not_lt fun large => bounds (.inr large)
  · cases h

/-- A frame starts with the start marker and the version. -/
theorem IsFrame.starts (h : IsFrame f) : startMarker ++ [version] <+: f := by
  obtain ⟨size, enveloped, -⟩ := h
  obtain ⟨s₃, s₂, s₁, s₀, tail, rfl, -⟩ := exists_of_preamble (envelope_eq_ok.1 enveloped).1
  exact List.prefix_append (startMarker ++ [version]) ([s₃, s₂, s₁, s₀] ++ tail)

/-! ## What junk gives -/

/-- Nowhere in the bytes does the version follow a start marker. -/
def Harmless (g : Bytes) : Prop := ¬ startMarker ++ [version] <:+: g

/-- The results that say more than that bytes were skipped: those that come of frames, and the
errors that only a good start marker and version lead to. -/
def isVerdict : Except Error Bytes → Bool
  | .error .badStart | .error (.badVersion _) => false
  | _ => true

theorem Harmless.of_suffix (h : Harmless g) (suffix : x <:+ g) : Harmless x :=
  fun inside => h (inside.trans suffix.isInfix)

theorem couldStart_of_prefix (h : startMarker <+: x) : couldStart x = true := by
  obtain ⟨rest, rfl⟩ := h
  rw [couldStart, List.take_left]
  rfl

/-- Where the version does not follow a start marker, nothing but skipping can come. -/
theorem split?_harmless (verifying : Bool) (long : preambleLength ≤ x.length)
    (other : ¬ startMarker ++ [version] <+: x) :
    ∃ e, isVerdict (.error e) = false ∧ split? verifying x = some (.error e, resync x) := by
  match x with
  | [] | [_] | [_, _] | [_, _, _] | [_, _, _, _] | [_, _, _, _, _] | [_, _, _, _, _, _]
  | [_, _, _, _, _, _, _] | [_, _, _, _, _, _, _, _] => simp [preambleLength] at long
  | m₀ :: m₁ :: m₂ :: m₃ :: v :: _ :: _ :: _ :: _ :: rest =>
    by_cases marker : [m₀, m₁, m₂, m₃] = startMarker
    · have unknown : v ≠ version := by
        rintro rfl
        exact other (marker ▸ List.prefix_append [m₀, m₁, m₂, m₃, version] _)
      refine ⟨.badVersion v, rfl, ?_⟩
      simp [split?, preamble, marker, unknown]
    · refine ⟨.badStart, rfl, ?_⟩
      simp [split?, preamble, marker]

/-- Without a whole preamble nothing but skipping can come either. -/
theorem split?_short (verifying : Bool) (short : x.length < preambleLength) :
    split? verifying x = if couldStart x then none else some (.error .badStart, resync x) := by
  match x with
  | [] | [_] | [_, _] | [_, _, _] | [_, _, _, _] | [_, _, _, _, _] | [_, _, _, _, _, _]
  | [_, _, _, _, _, _, _] | [_, _, _, _, _, _, _, _] => rfl
  | _ :: _ :: _ :: _ :: _ :: _ :: _ :: _ :: _ :: _ =>
    simp only [List.length_cons, preambleLength] at short
    omega

/-- No start of a frame reaches from harmless junk into what stands behind it. -/
theorem Harmless.not_prefix (h : Harmless g) (ne : g ≠ [])
    (starts : startMarker ++ [version] <+: y) : ¬ startMarker ++ [version] <+: g ++ y := by
  obtain ⟨rest, rfl⟩ := starts
  intro start
  match g with
  | [] => exact ne rfl
  -- The version would stand where the start marker behind the junk still goes on.
  | [_] | [_, _] | [_, _, _] | [_, _, _, _] => simp [startMarker, version] at start
  | a :: b :: c :: d :: e :: more =>
    refine h (List.IsPrefix.isInfix ?_)
    exact List.prefix_of_prefix_length_le start (List.prefix_append _ _) (by simp [startMarker])

/-- Skipping stops at the latest at the start of a frame. -/
theorem seek_append (starts : couldStart y = true) (g : Bytes) :
    ∃ h, h <:+ g ∧ seek (g ++ y) = h ++ y := by
  induction g with
  | nil => exact ⟨[], List.suffix_rfl, seek_of_couldStart starts⟩
  | cons c g ih =>
    rw [List.cons_append, seek]
    split
    · exact ⟨c :: g, List.suffix_rfl, rfl⟩
    · obtain ⟨h, suffix, eq⟩ := ih
      exact ⟨h, suffix.trans (List.suffix_cons c g), eq⟩

theorem seek_suffix (x : Bytes) : seek x <:+ x := by
  induction x with
  | nil => exact List.suffix_rfl
  | cons c x ih =>
    rw [seek]
    split
    · exact List.suffix_rfl
    · exact ih.trans (List.suffix_cons c x)

/-- The verdicts of a text, in order, and the text behind them. -/
def verdicts (verifying : Bool) (x : Bytes) : List (Except Error Bytes) × Bytes :=
  ((splitAll verifying x).1.filter isVerdict, (splitAll verifying x).2)

theorem verdicts_of_some (h : split? verifying x = some (r, y)) :
    verdicts verifying x =
      ([r].filter isVerdict ++ (verdicts verifying y).1, (verdicts verifying y).2) := by
  rw [verdicts, splitAll_of_some h, verdicts, ← List.filter_append]
  rfl

theorem verdicts_of_skip {e : Error} (skips : isVerdict (.error e) = false)
    (h : split? verifying x = some (.error e, y)) :
    verdicts verifying x = verdicts verifying y := by
  rw [verdicts_of_some h, List.filter_singleton, skips]
  rfl

/-- Junk before a frame gives no verdict. -/
theorem verdicts_junk_append (clean : Harmless g) (frame : IsFrame f) (rest : Bytes) :
    verdicts verifying (g ++ (f ++ rest)) = verdicts verifying (f ++ rest) := by
  have starts : startMarker ++ [version] <+: f ++ rest :=
    frame.starts.trans (List.prefix_append _ _)
  have could := couldStart_of_prefix ((List.prefix_append _ _).trans starts)
  -- Every result skips some of the junk and no more than the junk.
  induction n : g.length using Nat.strong_induction_on generalizing g with
  | h n ih =>
    cases g with
    | nil => rfl
    | cons c g =>
      have long : preambleLength ≤ (c :: g ++ (f ++ rest)).length := by
        obtain ⟨size, -, exact_⟩ := frame
        simp only [List.length_append, List.length_cons, exact_, lengthOf]
        omega
      obtain ⟨e, skips, step⟩ :=
        split?_harmless verifying long (clean.not_prefix (List.cons_ne_nil c g) starts)
      obtain ⟨h, suffix, sought⟩ := seek_append could g
      have resynced : resync (c :: g ++ (f ++ rest)) = h ++ (f ++ rest) := sought
      rw [verdicts_of_skip skips step, resynced]
      refine ih h.length ?_ (clean.of_suffix (suffix.trans (List.suffix_cons c g))) rfl
      have := suffix.length_le
      rw [← n, List.length_cons]
      omega

/-- Junk at the end gives no verdict, and less than a preamble of it is kept. -/
theorem verdicts_junk (clean : Harmless g) :
    (verdicts verifying g).1 = [] ∧ (verdicts verifying g).2.length < preambleLength := by
  induction n : g.length using Nat.strong_induction_on generalizing g with
  | h n ih =>
    have skipped {e : Error} (skips : isVerdict (.error e) = false)
        (step : split? verifying g = some (.error e, resync g)) :
        (verdicts verifying g).1 = [] ∧ (verdicts verifying g).2.length < preambleLength := by
      rw [verdicts_of_skip skips step]
      refine ih (resync g).length (n ▸ length_lt_of_split? step) (clean.of_suffix ?_) rfl
      exact (seek_suffix _).trans (List.drop_suffix 1 g)
    rcases Nat.lt_or_ge g.length preambleLength with short | long
    · have front := split?_short verifying short
      split at front
      · rw [verdicts, splitAll_of_none front]
        exact ⟨rfl, short⟩
      · exact skipped rfl front
    · obtain ⟨e, skips, step⟩ := split?_harmless verifying long fun start => clean start.isInfix
      exact skipped skips step

/-! ## Frames between junk -/

/-- Junk, and then frames with what stands behind each of them. -/
def mixed (junk : Bytes) : List (Bytes × Bytes) → Bytes
  | [] => junk
  | (frame, behind) :: rest => junk ++ (frame ++ mixed behind rest)

/-- The verdicts are those of the frames. -/
theorem verdicts_mixed (verifying : Bool) {parts : List (Bytes × Bytes)}
    (frames : ∀ p ∈ parts, IsFrame p.1) (clean : ∀ j ∈ g :: parts.map Prod.snd, Harmless j) :
    (verdicts verifying (mixed g parts)).1 = parts.map (judge verifying ·.1) ∧
      (verdicts verifying (mixed g parts)).2.length < preambleLength := by
  induction parts generalizing g with
  | nil => exact verdicts_junk (clean g List.mem_cons_self)
  | cons p parts ih =>
    obtain ⟨f, behind⟩ := p
    rw [List.forall_mem_cons] at frames clean
    obtain ⟨verdicts_, kept⟩ := ih frames.2 clean.2
    rw [mixed, verdicts_junk_append clean.1 frames.1, verdicts_of_some (split?_frame frames.1 _)]
    refine ⟨?_, kept⟩
    have judged : [judge verifying f].filter isVerdict = [judge verifying f] := by
      unfold judge
      split <;> rfl
    rw [verdicts_, judged]
    rfl

/-! ## Junk that is reported at once -/

/-- The bytes hold no start marker and do not end on the way to one. -/
def Plain (g : Bytes) : Prop := ¬ startMarker <:+: g ∧ g.getLast? ≠ some 0xFC

theorem Plain.harmless (h : Plain g) : Harmless g :=
  fun inside => h.1 ((List.prefix_append _ _).isInfix.trans inside)

/-- No place in plain junk could start a frame, whatever follows. -/
theorem Plain.not_couldStart (h : Plain g) (ne : g ≠ []) (y : Bytes) :
    couldStart (g ++ y) = false := by
  rw [Bool.eq_false_iff]
  intro start
  have front : couldStart g = true := couldStart_of_append start
  rw [couldStart, List.isPrefixOf_iff_prefix] at front
  rcases Nat.lt_or_ge g.length startMarker.length with short | long
  · -- What is shorter than the start marker would end with a byte of it.
    rw [List.take_of_length_le (Nat.le_of_lt short)] at front
    have byte : g.getLast ne = 0xFC := by
      simpa [startMarker] using front.subset (List.getLast_mem ne)
    exact h.2 (byte ▸ List.getLast?_eq_some_getLast ne)
  · have whole : g.take startMarker.length = startMarker :=
      front.eq_of_length (by rw [List.length_take, Nat.min_eq_left long])
    exact h.1 (whole ▸ (List.take_prefix _ _).isInfix)

theorem Plain.of_suffix (h : Plain g) (suffix : x <:+ g) (ne : x ≠ []) : Plain x := by
  refine ⟨fun inside => h.1 (inside.trans suffix.isInfix), ?_⟩
  obtain ⟨before, rfl⟩ := suffix
  have last := h.2
  rwa [List.getLast?_append_of_ne_nil before ne] at last

theorem Plain.seek_append (h : Plain g) (starts : couldStart y = true) : seek (g ++ y) = y := by
  induction g with
  | nil => exact seek_of_couldStart starts
  | cons c g ih =>
    have here := h.not_couldStart (List.cons_ne_nil c g) y
    rw [seek_of_not_couldStart here]
    cases g with
    | nil => exact seek_of_couldStart starts
    | cons d g => exact ih (h.of_suffix (List.suffix_cons c _) (List.cons_ne_nil d g))

/-- What is reported of plain junk. -/
def junkReport (g : Bytes) : List (Except Error Bytes) :=
  if g = [] then [] else [.error .badStart]

theorem splitAll_plain_append (verifying : Bool) (plain : Plain g) (starts : couldStart y = true) :
    splitAll verifying (g ++ y) =
      (junkReport g ++ (splitAll verifying y).1, (splitAll verifying y).2) := by
  cases g with
  | nil => rfl
  | cons c g =>
    have here := plain.not_couldStart (List.cons_ne_nil c g) y
    have sought := plain.seek_append starts
    rw [seek_of_not_couldStart here] at sought
    rw [splitAll_of_some (split?_of_not_couldStart here), sought]
    rfl

/-- Everything that is reported of frames between plain junk. -/
def reports (verifying : Bool) (junk : Bytes) : List (Bytes × Bytes) → List (Except Error Bytes)
  | [] => junkReport junk
  | (frame, behind) :: rest =>
    junkReport junk ++ judge verifying frame :: reports verifying behind rest

theorem splitAll_mixed {parts : List (Bytes × Bytes)} (frames : ∀ p ∈ parts, IsFrame p.1)
    (plain : ∀ j ∈ g :: parts.map Prod.snd, Plain j) :
    splitAll verifying (mixed g parts) = (reports verifying g parts, []) := by
  induction parts generalizing g with
  | nil =>
    have nothing : splitAll verifying [] = ([], []) := splitAll_of_none rfl
    have all := splitAll_plain_append verifying (plain g List.mem_cons_self)
      (y := []) rfl
    rw [List.append_nil, nothing, List.append_nil] at all
    exact all
  | cons p parts ih =>
    obtain ⟨f, behind⟩ := p
    rw [List.forall_mem_cons] at frames plain
    have could : couldStart (f ++ mixed behind parts) = true :=
      couldStart_of_prefix ((List.prefix_append _ _).trans
        (frames.1.starts.trans (List.prefix_append _ _)))
    rw [mixed, splitAll_plain_append verifying plain.1 could,
      splitAll_of_some (split?_frame frames.1 _), ih frames.2 plain.2]
    rfl

namespace Stream

/-! ## Streams -/

/-- However the bytes arrive, the verdicts are those of the text, and so is what is left of it. -/
theorem performAll_verdicts (s : Stream) (ops : List Op) :
    ((s.performAll ops).1.filter isVerdict, (s.performAll ops).2.pending) =
      verdicts s.verifying (s.pending ++ fed ops) := by
  have told_ := performAll_told s ops
  rw [told, Prod.mk.injEq] at told_
  have telling : ∀ x : Except Error Bytes, (isVerdict x && isTelling x) = isVerdict x := by
    rintro (e | _)
    · cases e <;> rfl
    · rfl
  have both := congrArg (List.filter isVerdict) told_.1
  simp only [List.filter_filter, telling] at both
  exact Prod.ext both told_.2

/-- What is fed before any result is asked for gives all its results in the end. -/
theorem performAll_of_feeds {ops : List Op} (feeds : ∀ op ∈ ops, op ≠ .next) (s : Stream) :
    (s.performAll ops).1 = (splitAll s.verifying (s.pending ++ fed ops)).1 := by
  induction ops generalizing s with
  | nil =>
    rw [fed, List.flatMap_nil, List.append_nil, drain_pending]
    rfl
  | cons op ops ih =>
    rw [List.forall_mem_cons] at feeds
    cases op with
    | next => exact absurd rfl feeds.1
    | feed bytes =>
      have arrived := ih feeds.2 (s.feed bytes)
      rw [pending_feed, verifying_feed, List.append_assoc] at arrived
      exact arrived

/-- Each frame gives one verdict, in order, and at most eight bytes are kept in the end. Plain junk
that arrives before any result is asked for is reported once each, and nothing else is. -/
theorem frames_recovered (verifying : Bool) (junk : Bytes) (parts : List (Bytes × Bytes))
    (frames : ∀ p ∈ parts, IsFrame p.1)
    (clean : ∀ j ∈ junk :: parts.map Prod.snd, Harmless j) (ops : List Op)
    (arrive : fed ops = mixed junk parts) :
    let r := ({ verifying } : Stream).performAll ops
    r.1.filter isVerdict = parts.map (judge verifying ·.1) ∧ r.2.buffered ≤ 8 ∧
      ((∀ op ∈ ops, op ≠ .next) → (∀ j ∈ junk :: parts.map Prod.snd, Plain j) →
        r.1 = reports verifying junk parts) := by
  intro r
  have all := performAll_verdicts { verifying } ops
  rw [arrive, verdicts, Prod.mk.injEq] at all
  obtain ⟨given, pending⟩ := all
  obtain ⟨judged, kept⟩ := verdicts_mixed verifying frames clean
  refine ⟨given.trans judged, ?_, fun feeds plain => ?_⟩
  · rw [← length_pending, pending]
    exact Nat.le_of_lt_succ kept
  · have arrived := performAll_of_feeds feeds { verifying }
    rw [arrive] at arrived
    exact arrived.trans (congrArg Prod.fst (splitAll_mixed frames plain))

/-- A frame and one with a damaged byte, between junk that tears a start marker, in two pieces. -/
theorem frames_recovered_damaged :
    let frame := Draft.encode { sensor := .ofNat 7 }
    let damaged := frame.set 20 0xFC
    let junk : Bytes := [0xFC, 0xFC, 0x01]
    let parts : List (Bytes × Bytes) := [(frame, [0x41]), (damaged, [])]
    let ops : List Op := [.feed (junk ++ frame.take 20), .feed (frame.drop 20 ++ 0x41 :: damaged)]
    (∀ p ∈ parts, IsFrame p.1) ∧ (∀ j ∈ junk :: parts.map Prod.snd, Harmless j) ∧
      fed ops = mixed junk parts ∧
      let r := ({ verifying := true } : Stream).performAll ops
      r.1.filter isVerdict = [.ok frame, judge true damaged] ∧ r.2.buffered ≤ 8 ∧
        r.1 = [.error .badStart, .ok frame, .error .badStart, judge true damaged] ∧
        judge true damaged ≠ .ok damaged := by
  intro frame damaged junk parts ops
  have frames : ∀ p ∈ parts, IsFrame p.1 := by
    have enveloped : ∀ p ∈ parts, envelope p.1 = .ok 32 ∧ p.1.length = lengthOf 32 := by
      decide +kernel
    exact fun p mem => ⟨32, enveloped p mem⟩
  have plain : ∀ j ∈ junk :: parts.map Prod.snd, Plain j := by
    unfold Plain
    decide +kernel
  have clean : ∀ j ∈ junk :: parts.map Prod.snd, Harmless j := fun j mem => (plain j mem).harmless
  have arrive : fed ops = mixed junk parts := by decide +kernel
  have right : judge true frame = .ok frame := by decide +kernel
  obtain ⟨judged, kept, reported⟩ := frames_recovered true junk parts frames clean ops arrive
  refine ⟨frames, clean, arrive, ?_, kept, ?_, by decide +kernel⟩
  · rw [judged]
    change [judge true frame, judge true damaged] = _
    rw [right]
  · rw [reported (by simp [ops]) plain]
    change [_, judge true frame, _, judge true damaged] = _
    rw [right]

end Stream

end SensorIngest.Frame
