import Mathlib.Algebra.Ring.Nat
import SensorIngest.Proofs.Frame.Grammar

/-!
# A damaged byte

A frame with a right checksum has one byte changed on the way, and its size field is not where. No
stream that verifies checksums gives out such a frame. The first result is the error of the part that
was damaged (`damageReport`), whatever comes behind: start marker, version and end marker have one good
value each, and a changed byte changes the sum of the bytes by less than what the checksum is taken
modulo, so the sum no longer matches (`Bytes.checksum_set_ne`), and neither does a checksum that was
changed itself (`Bytes.toNat_set_ne`).
-/

namespace SensorIngest

/-! ## Changed bytes -/

namespace Bytes

variable {x : Bytes} {i : Nat} {b : UInt8}

theorem set_ne_self (inside : i < x.length) (other : x[i] ≠ b) : x.set i b ≠ x := by
  intro same
  have changed : (x.set i b)[i]? = some b := List.getElem?_set_self inside
  rw [same, List.getElem?_eq_getElem inside] at changed
  exact other (Option.some.inj changed)

theorem toNat_set_ne (inside : i < x.length) (other : x[i] ≠ b) : toNat (x.set i b) ≠ toNat x := by
  intro same
  have changed := ofNat_toNat (x.set i b)
  rw [same, List.length_set, ofNat_toNat] at changed
  exact set_ne_self inside other changed.symm

theorem checksum_eq_sum (x : Bytes) : checksum x = (x.map (·.toNat)).sum % 65536 := by
  rw [checksum, List.sum_eq_foldl, List.foldl_map]

theorem sum_set (inside : i < x.length) (b : UInt8) :
    ((x.set i b).map (·.toNat)).sum + x[i].toNat = (x.map (·.toNat)).sum + b.toNat := by
  induction x generalizing i with
  | nil => exact absurd inside (Nat.not_lt_zero i)
  | cons c x ih =>
    cases i with
    | zero =>
      simp only [List.set_cons_zero, List.map_cons, List.sum_cons, List.getElem_cons_zero]
      omega
    | succ i =>
      have rest := ih (Nat.lt_of_succ_lt_succ inside)
      simp only [List.set_cons_succ, List.map_cons, List.sum_cons, List.getElem_cons_succ]
      omega

/-- However many bytes are summed up, a change of one of them shows. -/
theorem checksum_set_ne (inside : i < x.length) (other : x[i] ≠ b) :
    checksum (x.set i b) ≠ checksum x := by
  have sums := sum_set inside b
  have values : x[i].toNat ≠ b.toNat := fun same => other (UInt8.toNat_inj.1 same)
  have old := x[i].toNat_lt
  have new := b.toNat_lt
  rw [checksum_eq_sum, checksum_eq_sum]
  omega

end Bytes

namespace Frame

variable {verifying : Bool} {f : Bytes} {size place : Nat} {b : UInt8}

/-! ## A damaged frame -/

/-- What a stream that verifies checksums reports of a frame with one damaged byte. -/
def damageReport (f : Bytes) (place : Nat) (b : UInt8) : Error :=
  if place < startMarker.length then .badStart
  else if place = startMarker.length then .badVersion b
  else if place + 1 = f.length then .badEnd b
  else .badChecksum (statedChecksum (f.set place b)) (computedChecksum (f.set place b))

/-- Start marker, version and size field are what they are, wherever else a byte is damaged. -/
theorem preamble_set (later : preambleLength ≤ place) : preamble (f.set place b) = preamble f := by
  rw [← preamble_take, List.take_set_of_le later, preamble_take]

theorem split?_set_marker (front : startMarker <+: f) (inside : place < f.length)
    (other : f[place] ≠ b) (early : place < startMarker.length) (behind : Bytes) :
    split? verifying (f.set place b ++ behind) =
      some (.error .badStart, resync (f.set place b ++ behind)) := by
  -- There are as many bytes as in the start marker, and one of them is another.
  apply split?_of_not_couldStart
  obtain ⟨rest, rfl⟩ := front
  have taken : ((startMarker ++ rest).set place b ++ behind).take startMarker.length =
      startMarker.set place b := by
    rw [List.set_append_left _ _ early, List.append_assoc]
    exact List.take_left' List.length_set
  rw [List.getElem_append_left early] at other
  rw [Bool.eq_false_iff, couldStart, taken, Ne, List.isPrefixOf_iff_prefix]
  intro starts
  exact Bytes.set_ne_self early other (starts.eq_of_length List.length_set)

theorem split?_set_version (front : startMarker ++ [version] <+: f) (long : preambleLength ≤ f.length)
    (other : b ≠ version) (behind : Bytes) :
    split? verifying (f.set startMarker.length b ++ behind) =
      some (.error (.badVersion b), resync (f.set startMarker.length b ++ behind)) := by
  have refused : preamble (f.set startMarker.length b ++ behind) = .error (.badVersion b) := by
    obtain ⟨rest, rfl⟩ := front
    match rest with
    | [] | [_] | [_, _] | [_, _, _] => simp [preambleLength, startMarker] at long
    | _ :: _ :: _ :: _ :: _ => simp [preamble, startMarker, other]
  simp only [split?, refused]

theorem split?_set_end (enclosed : envelope f = .ok size) (whole : f.length = lengthOf size)
    (last : place + 1 = f.length) (other : b ≠ endMarker) (behind : Bytes) :
    split? verifying (f.set place b ++ behind) =
      some (.error (.badEnd b), resync (f.set place b ++ behind)) := by
  obtain ⟨front, -⟩ := envelope_eq_ok.1 enclosed
  have at_end : lengthOf size - 1 = place := by omega
  have later : preambleLength ≤ place := by
    simp only [← at_end, lengthOf]
    omega
  have same : preamble (f.set place b ++ behind) = .ok size := by
    have damaged : preamble (f.set place b) = .ok size := (preamble_set later).trans front
    rw [preamble_append (by simp [damaged]), damaged]
  have ends : (f.set place b ++ behind)[lengthOf size - 1]? = some b := by
    rw [at_end, List.getElem?_append_left (by rw [List.length_set]; omega),
      List.getElem?_set_self (by omega)]
  simp only [split?, same, ends]
  exact if_neg other

/-- A damaged payload or checksum is still enclosed as it was. -/
theorem isFrame_set (frame : IsFrame f) (later : preambleLength ≤ place)
    (inner : place + 1 < f.length) (b : UInt8) : IsFrame (f.set place b) := by
  obtain ⟨size, enclosed, whole⟩ := frame
  obtain ⟨front, ends⟩ := envelope_eq_ok.1 enclosed
  refine ⟨size, envelope_eq_ok.2 ⟨(preamble_set later).trans front, ?_⟩, ?_⟩
  · rw [List.getElem?_set_ne (by omega), ends]
  · rw [List.length_set, whole]

/-! ## The two checksums of a damaged frame -/

theorem computedChecksum_set_ne (later : preambleLength ≤ place) (covered : place < f.length - 3)
    (inside : place < f.length) (other : f[place] ≠ b) :
    computedChecksum (f.set place b) ≠ computedChecksum f := by
  have long : place - preambleLength < ((f.take (f.length - 3)).drop preambleLength).length := by
    rw [List.length_drop, List.length_take]
    omega
  have byte : ((f.take (f.length - 3)).drop preambleLength)[place - preambleLength] = f[place] := by
    simp only [List.getElem_drop, List.getElem_take, Nat.add_sub_cancel' later]
  rw [computedChecksum, List.length_set, List.take_set, List.drop_set,
    if_neg (Nat.not_lt_of_le later)]
  exact Bytes.checksum_set_ne long (byte ▸ other)

theorem statedChecksum_set_ne (behind : f.length - 3 ≤ place) (inner : place + 1 < f.length)
    (other : f[place] ≠ b) : statedChecksum (f.set place b) ≠ statedChecksum f := by
  have long : place - (f.length - 3) < ((f.drop (f.length - 3)).take 2).length := by
    rw [List.length_take, List.length_drop]
    omega
  have byte : ((f.drop (f.length - 3)).take 2)[place - (f.length - 3)] = f[place] := by
    simp only [List.getElem_take, List.getElem_drop, Nat.add_sub_cancel' behind]
  rw [statedChecksum, List.length_set, List.drop_set, if_neg (Nat.not_lt_of_le behind), List.take_set]
  exact Bytes.toNat_set_ne long (byte ▸ other)

/-- Of a checksum and the sum of the payload only one is damaged. -/
theorem checksums_set_ne (right : statedChecksum f = computedChecksum f)
    (later : preambleLength ≤ place) (inner : place + 1 < f.length) (other : f[place] ≠ b) :
    statedChecksum (f.set place b) ≠ computedChecksum (f.set place b) := by
  rcases Nat.lt_or_ge place (f.length - 3) with covered | behind
  · have kept : statedChecksum (f.set place b) = statedChecksum f := by
      rw [statedChecksum, List.length_set, List.drop_set_of_lt covered]
      rfl
    rw [kept, right]
    exact (computedChecksum_set_ne later covered (Nat.lt_of_succ_lt inner) other).symm
  · have kept : computedChecksum (f.set place b) = computedChecksum f := by
      rw [computedChecksum, List.length_set, List.take_set_of_le behind]
      rfl
    rw [kept, ← right]
    exact statedChecksum_set_ne behind inner other

/-! ## Streams -/

theorem Stream.pending_feeds (s : Stream) (pieces : List Bytes) :
    (pieces.foldl feed s).pending = s.pending ++ pieces.flatten := by
  induction pieces generalizing s with
  | nil => exact (List.append_nil _).symm
  | cons piece pieces ih => rw [List.foldl_cons, ih, pending_feed, List.append_assoc, List.flatten_cons]

theorem Stream.verifying_feeds (s : Stream) (pieces : List Bytes) :
    (pieces.foldl feed s).verifying = s.verifying := by
  induction pieces generalizing s with
  | nil => rfl
  | cons piece pieces ih => rw [List.foldl_cons, ih, verifying_feed]

/-- The first result of a stream is that of all the bytes it was fed. -/
theorem Stream.next_feeds (verifying : Bool) (pieces : List Bytes) :
    ((pieces.foldl feed { verifying }).next).map (·.1) =
      (split? verifying pieces.flatten).map (·.1) := by
  have front := split?_pending (pieces.foldl feed { verifying })
  rw [verifying_feeds, pending_feeds] at front
  change split? verifying pieces.flatten = _ at front
  rw [front, Option.map_map]
  rfl

/-- A frame with a right checksum of which one byte is damaged, but not one of its size field, is
refused by a stream that verifies checksums, however the bytes arrive and whatever comes behind. -/
theorem damage_detected (enclosed : envelope f = .ok size) (whole : f.length = lengthOf size)
    (verified : verify f size = .ok ()) (inside : place < f.length)
    (outside : place < 5 ∨ 9 ≤ place) (other : f[place] ≠ b) (behind : Bytes)
    (pieces : List Bytes) (arrive : pieces.flatten = f.set place b ++ behind) :
    ((pieces.foldl Stream.feed { verifying := true }).next).map (·.1) =
      some (.error (damageReport f place b)) := by
  have frame : IsFrame f := ⟨size, enclosed, whole⟩
  obtain ⟨front, ends⟩ := envelope_eq_ok.1 enclosed
  have least := minSize_le_of_preamble front
  have right : statedChecksum f = computedChecksum f := by
    rw [verify_eq least whole] at verified
    split at verified
    · assumption
    · cases verified
  rw [Stream.next_feeds, arrive, damageReport]
  split_ifs with early second last
  · have starts : startMarker <+: f := (List.prefix_append _ _).trans frame.starts
    rw [split?_set_marker starts inside other early]
    rfl
  · have known : f[place] = version := by
      obtain ⟨rest, rfl⟩ := frame.starts
      simp [second, startMarker]
    have long : preambleLength ≤ f.length := by
      rw [whole, lengthOf]
      omega
    rw [second, split?_set_version frame.starts long fun same => other (known.trans same.symm)]
    rfl
  · have known : f[place] = endMarker := by
      have at_end : lengthOf size - 1 = place := by omega
      rw [at_end, List.getElem?_eq_getElem inside] at ends
      exact Option.some.inj ends
    rw [split?_set_end enclosed whole last fun same => other (known.trans same.symm)]
    rfl
  · have later : preambleLength ≤ place := by
      simp only [startMarker, List.length_cons, List.length_nil, preambleLength] at *
      omega
    have inner : place + 1 < f.length := by omega
    rw [split?_frame (isFrame_set frame later inner b), judge,
      if_pos ⟨rfl, checksums_set_ne right later inner other⟩]
    rfl

/-- The lower byte of the checksum of a temperature is lost, and the start of another frame follows. -/
theorem damage_detected_zeroed :
    let frame := Draft.encode { sensor := .ofNat 7, segments := [.degrees 2150] }
    let damaged := frame.set 47 0
    let pieces := [damaged.take 20, damaged.drop 20 ++ startMarker]
    envelope frame = .ok 39 ∧ verify frame 39 = .ok () ∧
      ((pieces.foldl Stream.feed { verifying := true }).next).map (·.1) =
        some (.error (.badChecksum 0 125)) := by
  intro frame damaged pieces
  have enclosed : envelope frame = .ok 39 := by decide +kernel
  have verified : verify frame 39 = .ok () := by decide +kernel
  have arrive : pieces.flatten = frame.set 47 0 ++ startMarker := by decide +kernel
  have report : damageReport frame 47 0 = .badChecksum 0 125 := by decide +kernel
  refine ⟨enclosed, verified, ?_⟩
  rw [damage_detected enclosed (by decide +kernel) verified (by decide +kernel) (.inr (by decide))
    (by decide +kernel) startMarker pieces arrive, report]

end Frame

end SensorIngest
