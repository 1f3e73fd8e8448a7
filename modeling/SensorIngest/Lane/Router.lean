import SensorIngest.Lane.Outlets

/-!
# Routing to lanes

A sensor belongs to one of a power of two of lanes by the low bits of its identifier. Each lane is a
queue of bounded length with a worker behind it, so the packets of a sensor keep their order while
lanes go on independently. A full lane makes the caller wait: `enqueue` then has no answer until the
lane has been served. A closed lane still does the work that is queued, but takes no more.
-/

namespace SensorIngest.Lane

/-- Items that can wait in a lane before the caller has to. -/
def defaultCapacity : Nat := 102400

/-- A queue and the worker that serves it. -/
structure Queue where
  worker : Worker
  waiting : List Item := []
  /-- New items are taken. -/
  accepting : Bool := true
  /-- A delivery has ended the worker. -/
  dead : Bool := false

/-- The lanes of a server. -/
structure Router where
  capacity : Nat
  lanes : Array Queue
  lanes_pos : 0 < lanes.size

/-- The number of lanes is not a power of two. -/
structure BadLaneCount where
  lanes : Nat

def BadLaneCount.message (e : BadLaneCount) : String :=
  s!"lane count {e.lanes} is not a power of two"

/-- One of 1, 2, 4, 8 and so on. -/
def isPowerOfTwo (n : Nat) : Bool := n ≠ 0 && (n &&& (n - 1)) = 0

namespace Router

/-- Starts lanes with empty queues. -/
def start (lanes capacity : Nat) (settings : Settings) : Except BadLaneCount Router :=
  if h : isPowerOfTwo lanes then
    .ok {
      capacity
      lanes := Array.replicate lanes { worker := { settings } }
      lanes_pos := by
        rw [Array.size_replicate]
        rcases Nat.eq_zero_or_pos lanes with rfl | hpos
        · cases h
        · exact hpos }
  else .error ⟨lanes⟩

/-- The lane of a sensor. -/
def laneOf (r : Router) (id : SensorId) : Fin r.lanes.size :=
  ⟨id.shard (r.lanes.size - 1),
    Nat.lt_of_le_of_lt (id.shard_le _) (Nat.sub_lt r.lanes_pos Nat.one_pos)⟩

/-- The items that wait in each lane; none in a closed one. -/
def depths (r : Router) : List Nat :=
  r.lanes.toList.map fun q => if q.accepting then q.waiting.length else 0

def lane (r : Router) (i : Fin r.lanes.size) : Queue := r.lanes[i]

def setLane (r : Router) (i : Fin r.lanes.size) (q : Queue) : Router :=
  { r with
    lanes := r.lanes.set i q
    lanes_pos := by rw [Array.size_set]; exact r.lanes_pos }

/-- Puts an item at the end of its lane and says whether the lane took it. There is no answer while
the lane is full. -/
def enqueue (r : Router) (item : Item) : Option (Router × Bool) :=
  let i := r.laneOf item.sensor
  let q := r.lane i
  if !q.accepting || q.dead then some (r, false)
  else if q.waiting.length < r.capacity then
    some (r.setLane i { q with waiting := q.waiting ++ [item] }, true)
  else none

/-- The last placement of a sensor. -/
def placement? (r : Router) (id : SensorId) : Option Placement :=
  (r.lane (r.laneOf id)).worker.placements[id]?

def placed (r : Router) : List SensorId :=
  (r.lanes.toList.flatMap (·.worker.placements.keys)).mergeSort (·.value ≤ ·.value)

end Router

/-- Lanes at work: the router and the scene that its workers act on. -/
structure Plant (σ : Type) where
  router : Router
  scene : Scene σ

namespace Plant

variable {σ : Type}

/-- Lets the worker of a lane do an item while `rest` waits. A crash loses what waits. -/
def work (o : Outlets σ) (p : Plant σ) (i : Fin p.router.lanes.size) (item : Item)
    (rest : List Item) : Plant σ :=
  let q := p.router.lane i
  let (worker, effects) := q.worker.handle item
  let scene := { p.scene with crashed := false }.perform o effects
  let q := if scene.crashed then { q with worker, waiting := [], dead := true }
    else { q with worker, waiting := rest }
  { router := p.router.setLane i q, scene }

/-- Does the oldest item of a lane. -/
def serve (o : Outlets σ) (p : Plant σ) (i : Fin p.router.lanes.size) : Plant σ :=
  match (p.router.lane i).waiting with
  | [] => p
  | item :: rest => p.work o i item rest

/-- Does up to `n` items of the lane of a sensor. -/
def serveMany (o : Outlets σ) (id : SensorId) : Nat → Plant σ → Plant σ
  | 0, p => p
  | n + 1, p => serveMany o id n (p.serve o (p.router.laneOf id))

/-- Puts an item in its lane, serving the lane first while it is full. A lane of capacity 0 has no
room at any time, and takes the item straight to its worker. The flag says whether the lane took the
item. -/
def send (o : Outlets σ) (p : Plant σ) (item : Item) : Plant σ × Bool :=
  match p.router.enqueue item with
  | some (router, taken) => ({ p with router }, taken)
  | none =>
    let p := p.serve o (p.router.laneOf item.sensor)
    match p.router.enqueue item with
    | some (router, taken) => ({ p with router }, taken)
    | none => (p.work o (p.router.laneOf item.sensor) item [], true)

/-- Hands a package to its lane. A closed lane drops it. -/
def dispatch (o : Outlets σ) (p : Plant σ) (package : Package) : Plant σ :=
  let moved (p : Plant σ) (step : Int) : Plant σ :=
    { p with scene := { p.scene with counters := p.scene.counters.move step .queued } }
  let (p, taken) := (moved p 1).send o (.packet package)
  if taken then p
  else
    let p := moved p (-1)
    { p with scene := p.scene.report [.laneClosed package.sensor package.sequence] }

/-- Lets the lane of a sensor give up its device clock, behind the packets that wait. -/
def forget (o : Outlets σ) (p : Plant σ) (id : SensorId) : Plant σ :=
  (p.send o (.forget id)).1

/-- Does all that waits in the lane of a sensor. -/
def settle (o : Outlets σ) (p : Plant σ) (id : SensorId) : Plant σ :=
  serveMany o id (p.router.lane (p.router.laneOf id)).waiting.length p

/-- Does all that waits in lane `i`. -/
def drainLane (o : Outlets σ) (p : Plant σ) (i : Nat) : Plant σ :=
  p.settle o (.ofNat i)

/-- Closes every lane and does all that waits. -/
def close (o : Outlets σ) (p : Plant σ) : Plant σ :=
  let closed : Router := { p.router with
    lanes := p.router.lanes.map fun q => { q with accepting := false }
    lanes_pos := by rw [Array.size_map]; exact p.router.lanes_pos }
  (List.range closed.lanes.size).foldl (fun p i => p.drainLane o i) { p with router := closed }

end Plant

end SensorIngest.Lane
