import Std.Data.ExtTreeMap
import SensorIngest.Bytes

/-!
# History of sent frames

A simulated sensor keeps its last frames for requests to send them again. Sequences wait in the order
of sending; when a new one finds `capacity` before it, the oldest leaves and takes its frame along. A
sequence may be sent again: the new frame then replaces the old one, and leaves with the first of
both.
-/

namespace SensorIngest.Simulator

/-- Sequences in the order of sending: the older ones in order, the newer ones in reverse. -/
structure SentOrder where
  older : List Nat := []
  newer : List Nat := []
  size : Nat := 0
deriving DecidableEq

namespace SentOrder

/-- All sequences, oldest first. -/
def toList (o : SentOrder) : List Nat := o.older ++ o.newer.reverse

def push (o : SentOrder) (sequence : Nat) : SentOrder :=
  { o with newer := sequence :: o.newer, size := o.size + 1 }

/-- Takes the oldest sequence away. -/
def pop (o : SentOrder) : Option (Nat × SentOrder) :=
  match o.older with
  | sequence :: older => some (sequence, { o with older, size := o.size - 1 })
  | [] =>
    match o.newer.reverse with
    | [] => none
    | sequence :: older => some (sequence, ⟨older, [], o.size - 1⟩)

end SentOrder

/-- The frames that can be sent again. -/
structure History where
  order : SentOrder := {}
  frames : Std.ExtTreeMap Nat Bytes := ∅

namespace History

/-- The number of sequences that are kept. -/
def capacity : Nat := 20000

/-- Makes room for a sequence. -/
def makeRoom (h : History) : History :=
  if h.order.size = capacity then
    match h.order.pop with
    | none => h
    | some (oldest, order) => ⟨order, h.frames.erase oldest⟩
  else h

def push (h : History) (sequence : Nat) (frame : Bytes) : History :=
  let h := h.makeRoom
  ⟨h.order.push sequence, h.frames.insert sequence frame⟩

def get? (h : History) (sequence : Nat) : Option Bytes := h.frames[sequence]?

end History

end SensorIngest.Simulator
