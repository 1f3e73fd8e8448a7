import SensorIngest.Bytes
import SensorIngest.Proofs.Word

/-!
# Operations that can fail

Byte strings are cut and machine words computed with by operations that have no result everywhere. Here
each of them gives nothing where it has none. A function that is written with them step by step gives
nothing as soon as one of its steps does, so that it gives something exactly if all of them are in range.
-/

namespace SensorIngest.Checked

variable {raw : Bytes} {start stop a b n : Nat} {m : Int}

/-- The bytes from one place up to another, if both are places of the text, in this order. -/
def slice (raw : Bytes) (start stop : Nat) : Option Bytes :=
  if start ≤ stop ∧ stop ≤ raw.length then some ((raw.take stop).drop start) else none

/-- The difference of unsigned numbers, unless it would be negative. -/
def minus (a b : Nat) : Option Nat := if b ≤ a then some (a - b) else none

/-- An unsigned number, if 64 bits hold it. -/
def word (n : Nat) : Option Nat := if n < 2 ^ 64 then some n else none

/-- A signed number, if 64 bits hold it. -/
def int (m : Int) : Option Int := if -2 ^ 63 ≤ m ∧ m < 2 ^ 63 then some m else none

/-- A step that is in range hands its result on. -/
theorem bind_of {α β : Type} {x : Option α} {y : α} (h : x = some y) (f : α → Option β) :
    (x >>= f) = f y := by
  rw [h]
  rfl

theorem slice_eq (ordered : start ≤ stop) (inside : stop ≤ raw.length) :
    slice raw start stop = some ((raw.take stop).drop start) :=
  if_pos ⟨ordered, inside⟩

/-- A front part is a slice. -/
theorem slice_zero (inside : stop ≤ raw.length) : slice raw 0 stop = some (raw.take stop) :=
  slice_eq (Nat.zero_le _) inside

/-- An end part is a slice. -/
theorem slice_length (inside : start ≤ raw.length) :
    slice raw start raw.length = some (raw.drop start) := by
  rw [slice_eq inside (Nat.le_refl _), List.take_length]

theorem minus_eq (le : b ≤ a) : minus a b = some (a - b) := if_pos le

theorem eq_of_minus {c : Nat} (h : minus a b = some c) : c = a - b := by
  unfold minus at h
  split at h
  · exact (Option.some.inj h).symm
  · cases h

theorem word_eq (fits : n < 2 ^ 64) : word n = some n := if_pos fits

theorem int_eq (low : -2 ^ 63 ≤ m) (high : m < 2 ^ 63) : int m = some m := if_pos ⟨low, high⟩

theorem int_natCast (fits : n < 2 ^ 63) : int n = some (n : Int) :=
  int_eq (by omega) (by exact_mod_cast fits)

theorem int_eq_none (out : m < -2 ^ 63 ∨ 2 ^ 63 ≤ m) : int m = none :=
  if_neg fun inside => out.elim (Int.not_lt.2 inside.1) (Int.not_le.2 inside.2)

/-- A signed number that 64 bits hold does not wrap around. -/
theorem signed_of_int {k : Int} (h : int m = some k) : m = k ∧ Word.signed m = k := by
  unfold int at h
  split at h
  · rename_i inside
    cases h
    exact ⟨rfl, Word.signed_eq inside.1 inside.2⟩
  · cases h

end SensorIngest.Checked
