import Std.Data.ExtTreeMap
import SensorIngest.Package

/-!
# The backlog of a session

Packets that arrived ahead of their turn wait in a backlog, in the order of their sequences, at most
one for each sequence. They leave lowest first. A backlog is full when the number of packets or the
number of bytes has reached its bound. It does not refuse packets then: whoever inserts one makes
room first.
-/

namespace SensorIngest

/-- A packet that waits for its predecessors. -/
structure Parked where
  sequence : Nat
  arrival : Micros
  frame : Bytes
deriving DecidableEq

/-- The packets that wait. -/
structure Backlog where
  /-- Arrival and frame of each, by its sequence. -/
  waiting : Std.ExtTreeMap Nat (Micros × Bytes) := ∅
  /-- The summed length of the waiting frames. -/
  bytes : Nat := 0
  maxEntries : Nat := 10000
  maxBytes : Nat := 2097152

namespace Backlog

/-- The packets that wait, with the lowest sequence first. -/
def entries (b : Backlog) : List Parked :=
  b.waiting.toList.map fun (sequence, arrival, frame) => ⟨sequence, arrival, frame⟩

/-- What became of a packet. -/
inductive Insertion where
  /-- It waits now. -/
  | accepted
  /-- A packet with its sequence waits already, and stays. -/
  | duplicate
deriving DecidableEq

def contains (b : Backlog) (sequence : Nat) : Bool := b.waiting.contains sequence

/-- Adds a packet unless one with its sequence waits already. -/
def insert (b : Backlog) (p : Parked) : Backlog × Insertion :=
  if b.contains p.sequence then (b, .duplicate)
  else
    ({ b with
        waiting := b.waiting.insert p.sequence (p.arrival, p.frame)
        bytes := b.bytes + p.frame.length }, .accepted)

/-- The packet with the lowest sequence. -/
def oldest? (b : Backlog) : Option Parked := Id.run do
  for (sequence, arrival, frame) in b.waiting do
    return some ⟨sequence, arrival, frame⟩
  return none

def first? (b : Backlog) : Option Nat := b.oldest?.map (·.sequence)

/-- Takes out the packet with the lowest sequence. -/
def popOldest (b : Backlog) : Option (Parked × Backlog) :=
  b.oldest?.map fun p => (p, { b with
    waiting := b.waiting.erase p.sequence
    bytes := b.bytes - p.frame.length })

/-- Takes out the packet with the lowest sequence if that is at most `limit`. -/
def popThrough (b : Backlog) (limit : Nat) : Option (Parked × Backlog) :=
  if b.first?.any (· ≤ limit) then b.popOldest else none

/-- Takes out every packet, lowest sequence first. -/
def drain (b : Backlog) : List Parked × Backlog :=
  (b.entries, { b with
    waiting := ∅
    bytes := b.entries.foldl (fun n p => n - p.frame.length) b.bytes })

def size (b : Backlog) : Nat := b.waiting.size

/-- The number of packets or of bytes has reached its bound. -/
def isFull (b : Backlog) : Bool := b.maxEntries ≤ b.size || b.maxBytes ≤ b.bytes

theorem oldest?_eq_head? (b : Backlog) : b.oldest? = b.entries.head? := by
  unfold oldest? entries
  simp only [Std.ExtTreeMap.forIn_eq_forIn_toList]
  cases b.waiting.toList <;> rfl

theorem mem_waiting_of_oldest? {b : Backlog} {p : Parked} (h : b.oldest? = some p) :
    p.sequence ∈ b.waiting := by
  rw [oldest?_eq_head?, entries, List.head?_map, Option.map_eq_some_iff] at h
  obtain ⟨⟨sequence, arrival, frame⟩, head, rfl⟩ := h
  have entry := Std.ExtTreeMap.mem_toList_iff_getElem?_eq_some.1 (List.mem_of_head? head)
  exact Std.ExtTreeMap.mem_iff_isSome_getElem?.2 (Option.isSome_of_eq_some entry)

theorem size_popOldest {b b' : Backlog} {p : Parked} (h : b.popOldest = some (p, b')) :
    b'.size < b.size := by
  rw [popOldest, Option.map_eq_some_iff] at h
  obtain ⟨q, oldest, pair⟩ := h
  cases pair
  have mem := mem_waiting_of_oldest? oldest
  have pos : b.waiting.size ≠ 0 := by
    rw [ne_eq, ← Std.ExtTreeMap.eq_empty_iff_size_eq_zero]
    intro empty
    rw [empty] at mem
    exact Std.ExtTreeMap.not_mem_empty mem
  simp only [size, Std.ExtTreeMap.size_erase, Std.ExtTreeMap.contains_iff_mem.2 mem, if_true]
  omega

theorem size_popThrough {b b' : Backlog} {limit : Nat} {p : Parked}
    (h : b.popThrough limit = some (p, b')) : b'.size < b.size := by
  unfold popThrough at h
  split at h
  · exact size_popOldest h
  · cases h

end Backlog

end SensorIngest
