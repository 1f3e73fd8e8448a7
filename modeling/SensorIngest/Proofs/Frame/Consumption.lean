import SensorIngest.Proofs.Frame.Grammar

/-!
# What a stream uses up and keeps

A result either comes of a frame, which is used up whole, or gives up on a place and moves on to a
later one (`split?_cases`). So the bytes that were fed are those that results used, one after the
other, and those that are pending (`Stream.cuts_used`). Input is only waited for behind a size that is in
range, so what is pending then has a bound (`length_le_of_split?`). `Stream.sound_and_bounded` says
this of every run.
-/

namespace SensorIngest.Frame

variable {verifying : Bool} {f x y : Bytes} {r : Except Error Bytes}

/-! ## Frames that are given out -/

/-- What holds of a frame that a stream gives out. -/
structure Genuine (verifying : Bool) (f : Bytes) : Prop where
  enveloped : ∃ size, envelope f = .ok size ∧ f.length = lengthOf size ∧
    (verifying = true → verify f size = .ok ())
  header : ∃ header, Header.read f = .ok header
  decoded : ∀ e, decode f = .error e → ∃ index, e = .segmentOverrun index

theorem Genuine.of_judge (frame : IsFrame f) {g : Bytes} (given : judge verifying f = .ok g) :
    f = g ∧ Genuine verifying g := by
  obtain ⟨size, enveloped, exact_⟩ := frame
  unfold judge at given
  split at given
  · cases given
  · rename_i right
    cases given
    obtain ⟨e, rfl, rfl⟩ := envelope_eq_ok_iff.1 enveloped
    refine ⟨rfl, ⟨e.size, enveloped, exact_, fun looked => ?_⟩, ⟨_, e.read_text⟩, ?_⟩
    · have same : statedChecksum e.text = computedChecksum e.text :=
        not_not.1 fun wrong => right ⟨looked, wrong⟩
      rw [verify_eq e.minSize_le exact_, if_pos same]
    · intro reason refused
      obtain ⟨index, -, overruns⟩ := e.overrunsAt_of_refused (by simp [refused])
      cases overruns.symm.trans refused
      exact ⟨index, rfl⟩

/-! ## The front of a text -/

/-- A result is that of a frame at the front, or an error for which the front is given up. -/
theorem split?_cases (h : split? verifying x = some (r, y)) :
    (∃ f, IsFrame f ∧ x = f ++ y ∧ r = judge verifying f) ∨ ∃ e, r = .error e ∧ y = resync x := by
  have first := h
  unfold split? at h
  split at h
  · split at h
    · cases h
    · cases h
      exact .inr ⟨_, rfl, rfl⟩
  · cases h
    exact .inr ⟨_, rfl, rfl⟩
  · rename_i size front
    split at h
    · cases h
    · rename_i last at_end
      split at h
      · rename_i trailer
        obtain ⟨e, rfl, -⟩ := envelope_eq_ok_iff.1 (envelope_eq_ok.2 ⟨front, trailer ▸ at_end⟩)
        cases first.symm.trans (split?_frame e.isFrame_raw e.behind)
        exact .inl ⟨e.raw, e.isFrame_raw, rfl, rfl⟩
      · cases h
        exact .inr ⟨_, rfl, rfl⟩

/-- A result leaves an end of the text. -/
theorem suffix_of_split? (h : split? verifying x = some (r, y)) : y <:+ x := by
  rcases split?_cases h with ⟨f, -, rfl, -⟩ | ⟨e, -, rfl⟩
  · exact List.suffix_append f y
  · exact (seek_suffix _).trans (List.drop_suffix 1 x)

/-- A preamble is complete once all its bytes are there. -/
theorem length_lt_of_preamble {need available : Nat}
    (h : preamble x = .error (.truncated need available)) : x.length < preambleLength := by
  match x with
  | [] | [_] | [_, _] | [_, _, _] | [_, _, _, _] | [_, _, _, _, _] | [_, _, _, _, _, _]
  | [_, _, _, _, _, _, _] | [_, _, _, _, _, _, _, _] => simp [preambleLength]
  | _ :: _ :: _ :: _ :: _ :: _ :: _ :: _ :: _ :: _ =>
    simp only [preamble] at h
    repeat' split at h
    all_goals cases h

/-- A text behind which more input is waited for is no longer than a preamble and the largest
payload. -/
theorem length_le_of_split? (h : split? verifying x = none) :
    x.length ≤ maxSize + preambleLength := by
  rcases Nat.lt_or_ge x.length preambleLength with short | long
  · exact Nat.le_trans (Nat.le_of_lt short) (Nat.le_add_left _ _)
  · unfold split? at h
    split at h
    · rename_i short
      exact absurd (length_lt_of_preamble short) (Nat.not_lt_of_le long)
    · cases h
    · rename_i size front
      obtain ⟨s₃, s₂, s₁, s₀, tail, -, -, -, most⟩ := exists_of_preamble front
      split at h
      · rename_i beyond
        rw [List.getElem?_eq_none_iff] at beyond
        simp only [lengthOf] at beyond
        omega
      · split at h <;> cases h

namespace Stream

/-! ## Runs -/

/-- A result with the bytes it used up. -/
structure Cut where
  used : Bytes
  result : Except Error Bytes
deriving DecidableEq

/-- The results of a run, each with the bytes that were pending before it and no longer are, and the
stream behind them. -/
def cuts (s : Stream) : List Op → List Cut × Stream
  | [] => ([], s)
  | .feed bytes :: ops => (s.feed bytes).cuts ops
  | .next :: ops =>
    match s.next with
    | none => s.cuts ops
    | some (result, t) =>
      let (more, last) := t.cuts ops
      (⟨s.pending.take (s.buffered - t.buffered), result⟩ :: more, last)

/-- What holds of every result that a stream gives. -/
structure Cut.Sound (verifying : Bool) (c : Cut) : Prop where
  progress : c.used ≠ []
  frame : ∀ f, c.result = .ok f → c.used = f ∧ Genuine verifying f

variable {s t : Stream}

/-- A result takes its bytes from the front. -/
theorem next_used (h : s.next = some (r, t)) :
    s.pending = s.pending.take (s.buffered - t.buffered) ++ t.pending := by
  have front := split?_pending s
  rw [h, Option.map_some] at front
  obtain ⟨used, split⟩ := suffix_of_split? front
  have place : used.length = s.buffered - t.buffered := by
    rw [← length_pending, ← length_pending, ← split, List.length_append, Nat.add_sub_cancel]
  have taken : s.pending.take (s.buffered - t.buffered) = used := by
    rw [← place, ← split, List.take_left]
  rw [taken, split]

theorem next_sound (h : s.next = some (r, t)) :
    Cut.Sound s.verifying ⟨s.pending.take (s.buffered - t.buffered), r⟩ where
  progress := by
    rw [← List.length_pos_iff, List.length_take, length_pending]
    have shorter := buffered_lt h
    omega
  frame := by
    intro g given
    have front := split?_pending s
    rw [h, Option.map_some] at front
    rcases split?_cases front with ⟨f, frame, split, judged⟩ | ⟨e, refused, -⟩
    · obtain ⟨rfl, genuine⟩ := Genuine.of_judge frame (judged.symm.trans given)
      refine ⟨?_, genuine⟩
      exact List.append_cancel_right ((next_used h).symm.trans split)
    · cases refused.symm.trans given

/-- The bytes are used up in order. -/
theorem cuts_used (s : Stream) (ops : List Op) :
    s.pending ++ fed ops = (s.cuts ops).1.flatMap Cut.used ++ (s.cuts ops).2.pending := by
  fun_induction cuts s ops with
  | case1 s => exact List.append_nil _
  | case2 s bytes ops ih =>
    rw [← ih, pending_feed, List.append_assoc]
    rfl
  | case3 s ops stop ih => exact ih
  | case4 s ops result t step more last eq ih =>
    rw [eq] at ih
    rw [List.flatMap_cons, List.append_assoc, ← ih, ← List.append_assoc, ← next_used step]
    rfl

theorem cuts_sound (s : Stream) (ops : List Op) :
    ∀ c ∈ (s.cuts ops).1, c.Sound s.verifying := by
  fun_induction cuts s ops with
  | case1 s => nofun
  | case2 s bytes ops ih =>
    rw [verifying_feed] at ih
    exact ih
  | case3 s ops stop ih => exact ih
  | case4 s ops result t step more last eq ih =>
    rw [eq, verifying_next step] at ih
    exact List.forall_mem_cons.2 ⟨next_sound step, ih⟩

/-- Draining ends, since every result uses up bytes. -/
theorem drain_ends (s : Stream) :
    s.drain.1.length + s.drain.2.buffered ≤ s.buffered ∧ s.drain.2.next = none := by
  fun_induction drain s with
  | case1 s stop => exact ⟨Nat.le_of_eq (Nat.zero_add _), stop⟩
  | case2 s result rest step results last eq ih =>
    rw [eq] at ih
    have shorter := buffered_lt step
    refine ⟨?_, ih.2⟩
    have fewer := ih.1
    simp only [List.length_cons] at fewer ⊢
    omega

theorem buffered_le_of_next (h : s.next = none) : s.buffered ≤ maxSize + preambleLength := by
  have front := split?_pending s
  rw [h, Option.map_none] at front
  rw [← length_pending]
  exact length_le_of_split? front

/-- After any run, the bytes that were fed are those that results used up and those that are pending. A
frame that was given out is just what it used up, its checksum is right if that is looked at, and it
has a header; only its segments may not fit. Every result uses up at least one byte, so draining gives
no more results than bytes are pending, and where a stream waits for input it keeps less than the
largest frame. -/
theorem sound_and_bounded (verifying : Bool) (ops : List Op) :
    let run := ({ verifying } : Stream).cuts ops
    let s := run.2
    fed ops = run.1.flatMap Cut.used ++ s.pending ∧
      (∀ c ∈ run.1, c.Sound verifying) ∧
      (∀ r t, s.next = some (r, t) → t.buffered < s.buffered) ∧
      s.drain.1.length + s.drain.2.buffered ≤ s.buffered ∧ s.drain.2.next = none ∧
      (s.next = none → s.buffered ≤ maxSize + 9 ∧ s.perform .next = ([], s)) := by
  intro run s
  refine ⟨cuts_used { verifying } ops, cuts_sound { verifying } ops, fun _ _ => buffered_lt,
    (drain_ends s).1, (drain_ends s).2, fun waits => ⟨buffered_le_of_next waits, ?_⟩⟩
  rw [perform, waits]

/-- Junk, a frame in two pieces and the start of another one. -/
theorem sound_and_bounded_torn :
    let frame := Draft.encode { sensor := .ofNat 7 }
    let ops : List Op := [.feed (0x41 :: frame.take 20), .next, .next,
      .feed (frame.drop 20 ++ [0xFC]), .next, .next]
    let run := ({ verifying := true } : Stream).cuts ops
    run.1 = [⟨[0x41], .error .badStart⟩, ⟨frame, .ok frame⟩] ∧ run.2.pending = [0xFC] ∧
      fed ops = [0x41] ++ frame ++ [0xFC] ∧ Genuine true frame ∧
      run.2.next = none ∧ run.2.buffered ≤ maxSize + 9 := by
  intro frame ops run
  have given : run.1 = [⟨[0x41], .error .badStart⟩, ⟨frame, .ok frame⟩] := by decide +kernel
  have left : run.2.pending = [0xFC] := by decide +kernel
  have waits : run.2.next = none := by
    have front := split?_pending run.2
    rw [left] at front
    exact Option.map_eq_none_iff.1 front.symm
  obtain ⟨used, sound, -, -, -, bounded⟩ := sound_and_bounded true ops
  rw [given] at used sound
  rw [left] at used
  exact ⟨given, left, used, (sound _ (List.mem_cons_of_mem _ List.mem_cons_self)).frame frame rfl |>.2,
    waits, (bounded waits).1⟩

end Stream

end SensorIngest.Frame
