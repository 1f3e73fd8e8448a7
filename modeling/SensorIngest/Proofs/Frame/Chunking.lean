import Mathlib.Data.List.Infix
import SensorIngest.Frame.Encode
import SensorIngest.Frame.Stream

/-!
# Frames do not depend on how their bytes arrive

A result that does not come from giving up on a place is the same when more bytes follow
(`split?_append`), and giving up leads to the same place in the end: what cannot start a frame is
skipped, now or later (`seek_seek_append`). Only `badStart` is reported more or less often. So two ways
to feed the same bytes to a stream give the same results but for `badStart`, and leave the same bytes
pending (`Stream.chunking_independent`).
-/

namespace SensorIngest.Frame

variable {verifying : Bool} {x y b : Bytes} {r : Except Error Bytes}

/-! ## Places that could start a frame -/

/-- A text whose front could not start a frame could not start one either. -/
theorem couldStart_of_append (h : couldStart (x ++ b) = true) : couldStart x = true := by
  rw [couldStart, List.isPrefixOf_iff_prefix] at h ⊢
  refine List.IsPrefix.trans ?_ h
  exact List.IsPrefix.take (List.prefix_append x b) _

theorem seek_of_couldStart (h : couldStart x = true) : seek x = x := by
  cases x with
  | nil => rfl
  | cons c rest => exact if_pos h

theorem seek_of_not_couldStart (h : couldStart x = false) : seek x = resync x := by
  cases x with
  | nil => cases h
  | cons c rest => exact if_neg (Bool.eq_false_iff.1 h)

/-- What is skipped before more bytes arrive is skipped after they have. -/
theorem seek_seek_append (x b : Bytes) : seek (seek x ++ b) = seek (x ++ b) := by
  induction x with
  | nil => rfl
  | cons c rest ih =>
    cases start : couldStart (c :: rest) with
    | true => rw [seek_of_couldStart start]
    | false =>
      have later : couldStart (c :: rest ++ b) = false :=
        Bool.eq_false_iff.2 (mt couldStart_of_append (Bool.eq_false_iff.1 start))
      rw [seek_of_not_couldStart start, seek_of_not_couldStart later]
      exact ih

/-! ## The front of a text that grows -/

/-- A preamble that is complete does not change. -/
theorem preamble_append (complete : ∀ n m, preamble x ≠ .error (.truncated n m)) (b : Bytes) :
    preamble (x ++ b) = preamble x := by
  match x with
  | [] | [_] | [_, _] | [_, _, _] | [_, _, _, _] | [_, _, _, _, _] | [_, _, _, _, _, _]
  | [_, _, _, _, _, _, _] | [_, _, _, _, _, _, _, _] => exact absurd rfl (complete _ _)
  | _ :: _ :: _ :: _ :: _ :: _ :: _ :: _ :: _ :: _ => rfl

/-- A place that could not start a frame is given up on at once. -/
theorem split?_of_not_couldStart (h : couldStart x = false) :
    split? verifying x = some (.error .badStart, resync x) := by
  match x with
  | [] | [_] | [_, _] | [_, _, _] | [_, _, _, _] | [_, _, _, _, _] | [_, _, _, _, _, _]
  | [_, _, _, _, _, _, _] | [_, _, _, _, _, _, _, _] => exact if_neg (Bool.eq_false_iff.1 h)
  | m₀ :: m₁ :: m₂ :: m₃ :: _ :: _ :: _ :: _ :: _ :: _ =>
    have marker : [m₀, m₁, m₂, m₃] ≠ startMarker := by
      intro same
      simp [couldStart, ← same] at h
    simp [split?, preamble, marker]

/-- A result stays the first one when more bytes follow, but giving up may be put off to the place
that the longer text skips to. -/
theorem split?_append (h : split? verifying x = some (r, y)) (b : Bytes) :
    split? verifying (x ++ b) = some (r, y ++ b) ∨
      y = resync x ∧ (split? verifying (x ++ b) = some (r, resync (x ++ b)) ∨
        r = .error .badStart ∧ couldStart (x ++ b) = false) := by
  match front : preamble x with
  | .error (.truncated n m) =>
    -- The text is too short for a preamble, and its first bytes are no start marker.
    simp only [split?, front] at h
    split at h
    · cases h
    · rename_i start
      cases h
      exact .inr ⟨rfl, .inr ⟨rfl, Bool.eq_false_iff.2 (mt couldStart_of_append start)⟩⟩
  | .error .badStart | .error (.badVersion _) | .error (.badSize _) | .error (.badEnd _)
  | .error (.badChecksum _ _) | .error (.segmentOverrun _) | .error (.missingSegment _)
  | .error .zeroSampleRate =>
    -- The preamble is complete and refused, and the longer text has the same one.
    have same := preamble_append (x := x) (by simp [front]) b
    simp only [split?, front, Option.some_inj, Prod.mk.injEq] at h
    obtain ⟨rfl, rfl⟩ := h
    refine .inr ⟨rfl, .inl ?_⟩
    simp only [split?, same, front]
  | .ok size =>
    -- All that is looked at, up to the end marker, lies within the shorter text.
    have same := preamble_append (x := x) (by simp [front]) b
    simp only [split?, front] at h
    cases at_end : x[lengthOf size - 1]? with
    | none => simp [at_end] at h
    | some last =>
      obtain ⟨inside, -⟩ := List.getElem?_eq_some_iff.1 at_end
      have long : lengthOf size ≤ x.length := by
        simp only [lengthOf] at inside ⊢
        omega
      have still : (x ++ b)[lengthOf size - 1]? = some last := by
        rw [List.getElem?_append_left inside, at_end]
      have checked : verify (x ++ b) size = verify x size := by
        have bound := minSize_le_of_preamble front
        rw [← verify_take bound, List.take_append_of_le_length long, verify_take bound]
      simp only [at_end] at h
      simp only [split?, same, front, still, checked, List.take_append_of_le_length long,
        List.drop_append_of_le_length long]
      split at h
      · rename_i trailer
        cases h
        exact .inl (if_pos trailer)
      · rename_i trailer
        cases h
        exact .inr ⟨rfl, .inl (if_neg trailer)⟩

/-! ## All results of a text -/

/-- All results that a text gives, in order, and the text behind them. -/
def splitAll (verifying : Bool) (bytes : Bytes) : List (Except Error Bytes) × Bytes :=
  match _h : split? verifying bytes with
  | none => ([], bytes)
  | some (result, rest) =>
    let (results, last) := splitAll verifying rest
    (result :: results, last)
termination_by bytes.length
decreasing_by exact length_lt_of_split? _h

theorem splitAll_of_none (h : split? verifying x = none) : splitAll verifying x = ([], x) := by
  rw [splitAll.eq_def]
  split
  · rfl
  · rename_i other
    rw [h] at other
    cases other

theorem splitAll_of_some (h : split? verifying x = some (r, y)) :
    splitAll verifying x = (r :: (splitAll verifying y).1, (splitAll verifying y).2) := by
  rw [splitAll.eq_def]
  split
  · rename_i other
    rw [h] at other
    cases other
  · rename_i other
    cases h.symm.trans other
    rfl

/-- Every result but `badStart`, which says no more than that bytes were skipped. -/
def isTelling : Except Error Bytes → Bool
  | .error .badStart => false
  | _ => true

/-- The results of a text that tell something, and the text behind all results. -/
def told (verifying : Bool) (bytes : Bytes) : List (Except Error Bytes) × Bytes :=
  ((splitAll verifying bytes).1.filter isTelling, (splitAll verifying bytes).2)

theorem told_of_some (h : split? verifying x = some (r, y)) :
    told verifying x = ([r].filter isTelling ++ (told verifying y).1, (told verifying y).2) := by
  rw [told, splitAll_of_some h, told, ← List.filter_append]
  rfl

/-- Skipping is not told. -/
theorem told_seek (verifying : Bool) (x : Bytes) :
    told verifying (seek x) = told verifying x := by
  cases start : couldStart x with
  | true => rw [seek_of_couldStart start]
  | false =>
    rw [seek_of_not_couldStart start, told_of_some (split?_of_not_couldStart start)]
    rfl

/-- Giving up on a text that grows leads to what giving up led to before. -/
theorem told_resync_append (ne : x ≠ []) (b : Bytes) :
    told verifying (resync (x ++ b)) = told verifying (resync x ++ b) := by
  obtain ⟨c, rest, rfl⟩ := List.exists_cons_of_ne_nil ne
  have same : resync (c :: rest ++ b) = seek (rest ++ b) := rfl
  have before : resync (c :: rest) = seek rest := rfl
  rw [same, before, ← seek_seek_append, told_seek]

/-- What a text that grows tells first does not depend on when the rest arrives. -/
theorem told_append_of_some (first : split? verifying x = some (r, y)) (b : Bytes) :
    told verifying (x ++ b) =
      ([r].filter isTelling ++ (told verifying (y ++ b)).1, (told verifying (y ++ b)).2) := by
  have ne : x ≠ [] := by
    rintro rfl
    simp [split?, preamble, couldStart] at first
  rcases split?_append first b with same | ⟨rfl, same | ⟨rfl, start⟩⟩
  · exact told_of_some same
  · rw [told_of_some same, told_resync_append ne]
  · rw [told_of_some (split?_of_not_couldStart start), told_resync_append ne]

namespace Stream

/-! ## Streams -/

theorem verifying_next {s t : Stream} (h : s.next = some (r, t)) : t.verifying = s.verifying := by
  unfold next at h
  dsimp only at h
  split at h
  · split at h
    · cases h
    · cases h
      rfl
  · cases h
    rfl
  · split at h
    · cases h
    · split at h
      · cases h
        rfl
      · cases h
        rfl

/-- Draining a stream gives all results of its pending bytes. -/
theorem drain_pending (s : Stream) :
    splitAll s.verifying s.pending = (s.drain.1, s.drain.2.pending) := by
  have front := split?_pending s
  fun_induction drain s with
  | case1 s stop =>
    rw [stop, Option.map_none] at front
    exact splitAll_of_none front
  | case2 s result rest step results last eq ih =>
    rw [step, Option.map_some] at front
    have more := ih (split?_pending rest)
    rw [verifying_next step, eq] at more
    rw [splitAll_of_some front, more]

/-- What a connection does with its stream: bytes arrive, or the next result is asked for. -/
inductive Op where
  | feed (bytes : Bytes)
  | next

def Op.bytes : Op → Bytes
  | feed bytes => bytes
  | next => []

def fed (ops : List Op) : Bytes := ops.flatMap Op.bytes

def perform (s : Stream) : Op → List (Except Error Bytes) × Stream
  | .feed bytes => ([], s.feed bytes)
  | .next =>
    match s.next with
    | none => ([], s)
    | some (result, rest) => ([result], rest)

def performAll (s : Stream) : List Op → List (Except Error Bytes) × Stream
  | [] => s.drain
  | op :: ops =>
    let (results, t) := s.perform op
    let (more, last) := t.performAll ops
    (results ++ more, last)

/-- All that is told is what the bytes tell, however they arrive. -/
theorem performAll_told (s : Stream) (ops : List Op) :
    ((s.performAll ops).1.filter isTelling, (s.performAll ops).2.pending) =
      told s.verifying (s.pending ++ fed ops) := by
  induction ops generalizing s with
  | nil =>
    rw [told, fed, List.flatMap_nil, List.append_nil, drain_pending]
    rfl
  | cons op ops ih =>
    cases op with
    | feed bytes =>
      have arrived := ih (s.feed bytes)
      rw [pending_feed, verifying_feed, List.append_assoc] at arrived
      exact arrived
    | next =>
      cases step : s.next with
      | none =>
        have stays : s.performAll (.next :: ops) = s.performAll ops := by
          simp [performAll, perform, step]
        rw [stays]
        exact ih s
      | some result =>
        obtain ⟨r, t⟩ := result
        have front := split?_pending s
        rw [step, Option.map_some] at front
        have rest := ih t
        rw [verifying_next step] at rest
        have goes : s.performAll (.next :: ops) =
            (r :: (t.performAll ops).1, (t.performAll ops).2) := by
          simp [performAll, perform, step]
        have none_fed : fed (.next :: ops) = fed ops := rfl
        rw [goes, none_fed, told_append_of_some front, ← rest, ← List.filter_append]
        rfl

/-- Two ways to feed the same bytes give the same results but for `badStart`, and leave the same bytes
pending. -/
theorem chunking_independent (verifying : Bool) (first second : List Op)
    (same : fed first = fed second) :
    let a := ({ verifying } : Stream).performAll first
    let b := ({ verifying } : Stream).performAll second
    a.1.filter isTelling = b.1.filter isTelling ∧ a.2.pending = b.2.pending ∧
      a.2.buffered = b.2.buffered := by
  intro a b
  have left := performAll_told { verifying } first
  have right := performAll_told { verifying } second
  rw [same, ← right, Prod.mk.injEq] at left
  refine ⟨left.1, left.2, ?_⟩
  rw [← length_pending, ← length_pending, left.2]

/-- A frame that is cut in the middle, behind what could have been the start of another one. -/
theorem chunking_independent_cut :
    let junk : Bytes := [0xFC, 0xFC, 0x00]
    let frame := Draft.encode { sensor := .ofNat 7 }
    let first : List Op := [.feed (junk ++ frame.take 20), .next, .next, .feed (frame.drop 20)]
    let second : List Op := [.feed junk, .feed [], .feed frame]
    fed first = fed second ∧
      let a := ({ verifying := true } : Stream).performAll first
      let b := ({ verifying := true } : Stream).performAll second
      a.1.filter isTelling = b.1.filter isTelling ∧ a.2.pending = b.2.pending ∧
        a.2.buffered = b.2.buffered := by
  intro junk frame first second
  have same : fed first = fed second := by decide +kernel
  exact ⟨same, chunking_independent true first second same⟩

end Stream

end SensorIngest.Frame
