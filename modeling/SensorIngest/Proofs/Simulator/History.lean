import Mathlib.Data.List.DropRight
import Mathlib.Data.List.Nodup
import SensorIngest.Simulator.History

/-!
# What a history recalls

The sequences in the order of a history are the last `capacity` ones that were sent
(`History.order_sends`), and those that left, followed by those that are still there, are all of
them (`History.Kept.evictions_append_order`). A frame stays until its sequence leaves
(`History.get?_sends`), and a sequence that was sent twice stands in the order twice: it leaves with
the first of both, and the newer frame with it. So the last frame that was sent with a sequence is
recalled as long as the sequence has not left since, and where no sequence is sent twice, exactly
the last `capacity` frames are (`History.recall_exact`).
-/

namespace SensorIngest.Simulator

open scoped List

namespace SentOrder

variable {o : SentOrder} {sequence : Nat} {rest : List Nat}

/-- The size is the number of sequences. -/
def Counted (o : SentOrder) : Prop := o.size = o.toList.length

@[simp] theorem toList_push (o : SentOrder) (sequence : Nat) :
    (o.push sequence).toList = o.toList ++ [sequence] := by
  simp [push, toList]

theorem Counted.push (h : o.Counted) (sequence : Nat) : (o.push sequence).Counted := by
  rw [Counted] at h ⊢
  rw [toList_push, List.length_append, ← h]
  rfl

/-- The front of the order is taken away. -/
theorem pop_of_cons (h : o.toList = sequence :: rest) :
    ∃ p, o.pop = some (sequence, p) ∧ p.toList = rest ∧ p.size = o.size - 1 := by
  obtain ⟨older, newer, size⟩ := o
  cases older with
  | cons first older =>
    obtain ⟨rfl, rfl⟩ := List.cons.inj h
    exact ⟨_, rfl, rfl, rfl⟩
  | nil =>
    refine ⟨⟨rest, [], size - 1⟩, ?_, List.append_nil rest, rfl⟩
    simp only [pop, show newer.reverse = sequence :: rest from h]

end SentOrder

namespace History

variable {h : History} {sends : List (Nat × Bytes)} {sequence : Nat}

/-! ## One frame -/

/-- The order is counted, and no longer than it may be. -/
structure Kept (h : History) : Prop where
  counted : h.order.Counted
  bounded : h.order.toList.length ≤ capacity

theorem kept_empty : Kept {} := ⟨rfl, Nat.zero_le _⟩

/-- The sequence that leaves when the next frame is sent. -/
def leaving? (h : History) : Option Nat :=
  if h.order.size = capacity then h.order.pop.map Prod.fst else none

/-- The oldest sequence leaves if there is no room for another one. -/
theorem Kept.makeRoom (kept : h.Kept) :
    h.leaving?.toList ++ h.makeRoom.order.toList = h.order.toList ∧ h.makeRoom.order.Counted ∧
      h.makeRoom.order.toList.length = min h.order.toList.length (capacity - 1) := by
  have counted : h.order.size = h.order.toList.length := kept.counted
  have bounded := kept.bounded
  unfold leaving? History.makeRoom
  by_cases full : h.order.size = capacity
  · rw [if_pos full, if_pos full]
    cases all : h.order.toList with
    | nil =>
      rw [all] at counted
      exact absurd (full.symm.trans counted) (by decide)
    | cons first rest =>
      obtain ⟨p, pop, left, size⟩ := SentOrder.pop_of_cons all
      rw [all, List.length_cons] at counted
      simp only [pop, Option.map_some, Option.toList_some, SentOrder.Counted, left, size,
        List.length_cons]
      exact ⟨rfl, by omega, by omega⟩
  · rw [if_neg full, if_neg full]
    exact ⟨rfl, kept.counted, by omega⟩

/-- What leaves takes its frame along. -/
theorem get?_makeRoom (h : History) (sequence : Nat) :
    h.makeRoom.get? sequence = if h.leaving? = some sequence then none else h.get? sequence := by
  unfold leaving? makeRoom
  split
  · cases h.order.pop with
    | none => rfl
    | some p => simp [get?, Std.ExtTreeMap.getElem?_erase]
  · rfl

theorem Kept.length_push (kept : h.Kept) (sequence : Nat) (frame : Bytes) :
    (h.push sequence frame).order.toList.length = min (h.order.toList.length + 1) capacity := by
  have room := kept.makeRoom.2.2
  have pos : 0 < capacity := by decide
  simp only [History.push, SentOrder.toList_push, List.length_append, List.length_singleton]
  omega

theorem Kept.push (kept : h.Kept) (sequence : Nat) (frame : Bytes) :
    (h.push sequence frame).Kept where
  counted := kept.makeRoom.2.1.push sequence
  bounded := kept.length_push sequence frame ▸ Nat.min_le_right _ _

/-- What leaves and what stays is what was there and the new sequence. -/
theorem Kept.leaving_append_order (kept : h.Kept) (sequence : Nat) (frame : Bytes) :
    h.leaving?.toList ++ (h.push sequence frame).order.toList = h.order.toList ++ [sequence] := by
  rw [← kept.makeRoom.1, List.append_assoc]
  simp [History.push]

theorem get?_push (h : History) (sequence other : Nat) (frame : Bytes) :
    (h.push sequence frame).get? other =
      if sequence = other then some frame
      else if h.leaving? = some other then none else h.get? other := by
  rw [← get?_makeRoom]
  simp [get?, push, Std.ExtTreeMap.getElem?_insert]

/-! ## Many frames -/

/-- Frames are sent one after the other. -/
def pushAll (h : History) (sends : List (Nat × Bytes)) : History :=
  sends.foldl (fun h (sequence, frame) => h.push sequence frame) h

/-- The sequences that leave meanwhile, in order. -/
def evictions (h : History) : List (Nat × Bytes) → List Nat
  | [] => []
  | (sequence, frame) :: sends => h.leaving?.toList ++ (h.push sequence frame).evictions sends

theorem Kept.pushAll (kept : h.Kept) (sends : List (Nat × Bytes)) : (h.pushAll sends).Kept := by
  induction sends generalizing h with
  | nil => exact kept
  | cons s sends ih => exact ih (kept.push s.1 s.2)

/-- What leaves and what stays is what was there and what was sent. -/
theorem Kept.evictions_append_order (kept : h.Kept) (sends : List (Nat × Bytes)) :
    h.evictions sends ++ (h.pushAll sends).order.toList =
      h.order.toList ++ sends.map Prod.fst := by
  induction sends generalizing h with
  | nil => exact (List.append_nil _).symm
  | cons s sends ih =>
    obtain ⟨sequence, frame⟩ := s
    calc
      h.leaving?.toList ++ (h.push sequence frame).evictions sends ++
            ((h.push sequence frame).pushAll sends).order.toList
        = h.leaving?.toList ++ (h.push sequence frame).order.toList ++ sends.map Prod.fst := by
          rw [List.append_assoc, ih (kept.push sequence frame), List.append_assoc]
      _ = h.order.toList ++ sequence :: sends.map Prod.fst := by
          rw [kept.leaving_append_order, List.append_assoc]
          rfl

theorem Kept.length_pushAll (kept : h.Kept) (sends : List (Nat × Bytes)) :
    (h.pushAll sends).order.toList.length =
      min (h.order.toList.length + sends.length) capacity := by
  induction sends generalizing h with
  | nil => exact (Nat.min_eq_left kept.bounded).symm
  | cons s sends ih =>
    have step := ih (kept.push s.1 s.2)
    have one := kept.length_push s.1 s.2
    rw [one] at step
    rw [List.length_cons]
    exact step.trans (by omega)

/-- The last sequences stay and the ones before them leave. -/
theorem Kept.evictions_eq (kept : h.Kept) (sends : List (Nat × Bytes)) :
    h.evictions sends = (h.order.toList ++ sends.map Prod.fst).rdrop capacity ∧
      (h.pushAll sends).order.toList = (h.order.toList ++ sends.map Prod.fst).rtake capacity := by
  have all := kept.evictions_append_order sends
  have stay := kept.length_pushAll sends
  have length := congrArg List.length all
  rw [List.length_append, List.length_append, List.length_map] at length
  have cut : (h.order.toList ++ sends.map Prod.fst).length - capacity =
      (h.evictions sends).length := by
    rw [List.length_append, List.length_map]
    omega
  rw [List.rdrop, List.rtake, cut, ← all, List.take_left, List.drop_left]
  exact ⟨rfl, rfl⟩

/-- A frame that is not sent again stays until its sequence leaves. -/
theorem get?_pushAll (fresh : sequence ∉ sends.map Prod.fst) :
    (h.pushAll sends).get? sequence =
      if sequence ∈ h.evictions sends then none else h.get? sequence := by
  induction sends generalizing h with
  | nil => simp [pushAll, evictions]
  | cons s sends ih =>
    obtain ⟨other, frame⟩ := s
    rw [List.map_cons, List.mem_cons, not_or] at fresh
    change ((h.push other frame).pushAll sends).get? sequence = _
    rw [ih fresh.2, get?_push, if_neg (Ne.symm fresh.1)]
    by_cases gone : sequence ∈ (h.push other frame).evictions sends <;> simp [evictions, gone]

/-! ## All frames that were sent -/

theorem order_sends (sends : List (Nat × Bytes)) :
    (pushAll {} sends).order.toList = (sends.map Prod.fst).rtake capacity :=
  (kept_empty.evictions_eq sends).2

theorem mem_order_sends :
    sequence ∈ (pushAll {} sends).order.toList ↔
      ∃ frame, (sequence, frame) ∈ sends.rtake capacity := by
  rw [order_sends, List.rtake, List.length_map, ← List.map_drop, ← List.rtake]
  simp

theorem order_sublist (sends : List (Nat × Bytes)) :
    (pushAll {} sends).order.toList.Sublist (sends.map Prod.fst) := by
  rw [order_sends]
  exact List.drop_sublist _ _

variable {pre post : List (Nat × Bytes)} {frame : Bytes}

theorem sends_append_cons :
    pushAll {} (pre ++ (sequence, frame) :: post) =
      (pushAll {} (pre ++ [(sequence, frame)])).pushAll post := by
  rw [List.append_cons, pushAll, List.foldl_append]
  rfl

theorem sends_append_singleton :
    pushAll {} (pre ++ [(sequence, frame)]) = (pushAll {} pre).push sequence frame := by
  rw [pushAll, List.foldl_append]
  rfl

/-- The last frame that was sent with a sequence stays until the sequence leaves. -/
theorem get?_sends (last : sequence ∉ post.map Prod.fst) :
    (pushAll {} (pre ++ (sequence, frame) :: post)).get? sequence =
      if sequence ∈ (pushAll {} (pre ++ [(sequence, frame)])).evictions post then none
      else some frame := by
  rw [sends_append_cons, get?_pushAll last]
  simp only [sends_append_singleton, get?_push, if_true]

theorem get?_unsent (unsent : sequence ∉ sends.map Prod.fst) :
    (pushAll {} sends).get? sequence = none := by
  rw [get?_pushAll unsent]
  exact ite_self _

/-- A sequence that is sent only once has left if and only if it is not there. -/
theorem mem_evictions_iff (once : ((pre ++ (sequence, frame) :: post).map Prod.fst).Nodup) :
    sequence ∈ (pushAll {} (pre ++ [(sequence, frame)])).evictions post ↔
      sequence ∉ (pushAll {} (pre ++ (sequence, frame) :: post)).order.toList := by
  have kept := kept_empty.pushAll (pre ++ [(sequence, frame)])
  have all := kept.evictions_append_order post
  rw [← sends_append_cons] at all
  -- All that was there and was sent then are sequences that were sent, so none comes twice.
  have nodup := once
  rw [List.append_cons, List.map_append] at nodup
  replace nodup := nodup.sublist ((order_sublist _).append_right _)
  have there : sequence ∈ (pushAll {} (pre ++ [(sequence, frame)])).order.toList := by
    rw [sends_append_singleton]
    simp [push]
  have mem := List.mem_append_left (post.map Prod.fst) there
  rw [← all] at nodup mem
  have apart := (List.nodup_append'.1 nodup).2.2
  exact ⟨fun left stays => apart left stays, (List.mem_append.1 mem).resolve_right⟩

/-- Where no sequence is sent twice, a frame is there if and only if its sequence is. -/
theorem get?_of_mem (distinct : (sends.map Prod.fst).Nodup) (sent : (sequence, frame) ∈ sends) :
    (pushAll {} sends).get? sequence =
      if sequence ∈ (pushAll {} sends).order.toList then some frame else none := by
  obtain ⟨pre, post, rfl⟩ := List.append_of_mem sent
  have last : sequence ∉ post.map Prod.fst := by
    rw [List.map_append, List.map_cons] at distinct
    exact (List.nodup_cons.1 (List.nodup_append'.1 distinct).2.1).1
  simp only [get?_sends last, mem_evictions_iff distinct, ite_not]

theorem get?_eq_some_iff (distinct : (sends.map Prod.fst).Nodup) :
    (pushAll {} sends).get? sequence = some frame ↔ (sequence, frame) ∈ sends.rtake capacity := by
  constructor
  · intro found
    have sent : sequence ∈ sends.map Prod.fst := by
      by_contra unsent
      rw [get?_unsent unsent] at found
      cases found
    obtain ⟨⟨_, own⟩, mem, rfl⟩ := List.mem_map.1 sent
    rw [get?_of_mem distinct mem] at found
    split at found
    · rename_i stays
      cases found
      obtain ⟨other, recent⟩ := mem_order_sends.1 stays
      have same := List.inj_on_of_nodup_map distinct mem (List.mem_of_mem_drop recent) rfl
      rwa [same]
    · cases found
  · intro recent
    rw [get?_of_mem distinct (List.mem_of_mem_drop recent), if_pos (mem_order_sends.2 ⟨_, recent⟩)]

/-- Where no sequence is sent twice, the frames that are there are those of the order. -/
theorem keys_perm_order (distinct : (sends.map Prod.fst).Nodup) :
    (pushAll {} sends).frames.keys ~ (pushAll {} sends).order.toList := by
  have sub := order_sublist sends
  refine (List.perm_ext_iff_of_nodup Std.ExtTreeMap.nodup_keys (distinct.sublist sub)).2 fun q => ?_
  rw [Std.ExtTreeMap.mem_keys, Std.ExtTreeMap.mem_iff_isSome_getElem?]
  change ((pushAll {} sends).get? q).isSome = true ↔ _
  by_cases sent : q ∈ sends.map Prod.fst
  · obtain ⟨⟨_, frame⟩, mem, rfl⟩ := List.mem_map.1 sent
    rw [get?_of_mem distinct mem]
    split <;> simp [*]
  · rw [get?_unsent sent]
    exact ⟨nofun, fun there => absurd (sub.subset there) sent⟩

/-- The order of a history holds the last `capacity` sequences that were sent, and the ones before
them have left it. The last frame that was sent with a sequence is recalled unless the sequence has
left since then, and nothing is recalled for a sequence that was not sent. Where no sequence is sent
twice, exactly the last `capacity` frames are recalled, and the order has the sequences of the
frames that are kept. -/
theorem recall_exact (sends : List (Nat × Bytes)) :
    let h := pushAll {} sends
    h.order.toList = (sends.map Prod.fst).rtake capacity ∧
      evictions {} sends = (sends.map Prod.fst).rdrop capacity ∧
      h.order.toList.length = min sends.length capacity ∧
      (∀ pre sequence frame post, sends = pre ++ (sequence, frame) :: post →
        sequence ∉ post.map Prod.fst →
        h.get? sequence =
          if sequence ∈ (pushAll {} (pre ++ [(sequence, frame)])).evictions post then none
          else some frame) ∧
      (∀ sequence, sequence ∉ sends.map Prod.fst → h.get? sequence = none) ∧
      ((sends.map Prod.fst).Nodup →
        (∀ sequence frame,
          h.get? sequence = some frame ↔ (sequence, frame) ∈ sends.rtake capacity) ∧
        h.frames.keys ~ h.order.toList ∧ h.frames.size = min sends.length capacity) := by
  intro h
  have length : h.order.toList.length = min sends.length capacity := by
    rw [kept_empty.length_pushAll sends]
    exact congrArg (min · capacity) (Nat.zero_add _)
  refine ⟨order_sends sends, (kept_empty.evictions_eq sends).1, length, ?_,
    fun _ unsent => get?_unsent unsent, fun distinct => ⟨?_, keys_perm_order distinct, ?_⟩⟩
  · rintro pre sequence frame post rfl last
    exact get?_sends last
  · exact fun _ _ => get?_eq_some_iff distinct
  · rw [← Std.ExtTreeMap.length_keys, (keys_perm_order distinct).length_eq, length]

/-- One sequence is sent twice, and leaves with the first of both when there is no room for one more.
The others are sent once each, in ascending order. -/
theorem recall_exact_overtaken :
    let others := (List.range' 1 19999).map fun sequence => (sequence, ([] : Bytes))
    let sends := (0, [1]) :: (0, [2]) :: others
    let all := (List.range' 1 20001).map fun sequence => (sequence, ([] : Bytes))
    0 ∉ others.map Prod.fst ∧ (pushAll {} sends).get? 0 = none ∧
      (all.map Prod.fst).Nodup ∧ (pushAll {} all).get? 1 = none ∧
      (pushAll {} all).get? 2 = some [] ∧ (pushAll {} all).frames.size = 20000 := by
  intro others sends all
  have lone : others.map Prod.fst = List.range' 1 19999 := by simp [others, Function.comp_def]
  have ascending : all.map Prod.fst = List.range' 1 20001 := by simp [all, Function.comp_def]
  have unsent : 0 ∉ others.map Prod.fst := by
    rw [lone, List.mem_range'_1]
    omega
  have distinct : (all.map Prod.fst).Nodup := by
    rw [ascending]
    exact List.nodup_range'
  have length : all.length = 20001 := by simp [all]
  obtain ⟨-, -, -, last, -, -⟩ := recall_exact sends
  obtain ⟨-, -, -, -, -, recalled⟩ := recall_exact all
  obtain ⟨recent, -, size⟩ := recalled distinct
  have left : 0 ∈ (pushAll {} [(0, [1]), (0, [2])]).evictions others := by
    have one : ([0, 0] ++ List.range' 1 19999).length - capacity = 1 := by
      rw [List.length_append, List.length_range']
      rfl
    rw [((kept_empty.pushAll _).evictions_eq others).1, order_sends, lone]
    change 0 ∈ ([0, 0] ++ List.range' 1 19999).rdrop capacity
    rw [List.rdrop, one]
    exact List.mem_cons_self
  have latest : all.rtake capacity = (List.range' 2 20000).map fun sequence => (sequence, []) := by
    rw [List.rtake, length, ← List.map_drop, List.drop_range']
    rfl
  refine ⟨unsent, ?_, distinct, ?_, ?_, ?_⟩
  · rw [last [(0, [1])] 0 [2] others rfl unsent]
    exact if_pos left
  · refine Option.eq_none_iff_forall_ne_some.2 fun frame found => ?_
    have mem := (recent 1 frame).1 found
    simp [latest] at mem
  · rw [recent, latest]
    exact List.mem_map_of_mem (List.mem_range'_1.2 (by decide))
  · rw [size, length]
    rfl

end History

end SensorIngest.Simulator
