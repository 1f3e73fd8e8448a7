/-!
# Cutting texts

A text is cut at every occurrence of a mark, which the pieces do not keep. There is always one piece
more than there are marks, so that nothing else is lost: with the mark between them the pieces are
the text again (`join_cut`). `lines` is how a text appears on a screen.
-/

namespace SensorIngest.Text

/-- The pieces of a text between the occurrences of a mark. -/
def cut (mark : Char) : List Char → List (List Char)
  | [] => [[]]
  | c :: cs =>
    if c = mark then [] :: cut mark cs
    else match cut mark cs with
      | [] => [[c]]
      | piece :: pieces => (c :: piece) :: pieces

theorem cut_ne_nil (mark : Char) (cs : List Char) : cut mark cs ≠ [] := by
  cases cs with
  | nil => simp [cut]
  | cons c cs =>
    simp only [cut]
    split
    · simp
    · split <;> simp

/-- Pieces with the mark between them. -/
def join (mark : Char) : List (List Char) → List Char
  | [] => []
  | [piece] => piece
  | piece :: pieces => piece ++ mark :: join mark pieces

theorem join_cut (mark : Char) (cs : List Char) : join mark (cut mark cs) = cs := by
  induction cs with
  | nil => rfl
  | cons c cs ih =>
    match hcut : cut mark cs with
    | [] => exact absurd hcut (cut_ne_nil mark cs)
    | [piece] =>
      rw [hcut] at ih
      simp only [cut, hcut]
      split
      · next h => simp_all [join]
      · simp_all [join]
    | piece :: second :: pieces =>
      rw [hcut] at ih
      simp only [cut, hcut]
      split
      · next h => simp_all [join]
      · simp_all [join]

/-- The pieces of a text between the occurrences of a mark. -/
def pieces (mark : Char) (text : String) : List String :=
  (cut mark text.toList).map String.ofList

/-- A line without the carriage return that may end it. -/
def dropReturn (line : List Char) : List Char :=
  if line.getLast? = some '\r' then line.dropLast else line

/-- The lines that a text takes when it is written with an end of line behind it. -/
def lines (text : String) : List String :=
  (cut '\n' text.toList).map fun line => String.ofList (dropReturn line)

end SensorIngest.Text
