import Mathlib.Data.List.Nodup
import SensorIngest.ShardedMap

/-!
# Maps by sensor

What `get?` gives after each operation. A partition only answers for the sensors it owns, so a
lookup sees the last value given to its own sensor and nothing of the other ones. The values all
at once are a bag, in which an operation replaces one value or drops some. To change every value
(`map`) makes no difference to the operations. No sensor ever stands in a partition that does not
own it (`Placed`), so one that is dropped is listed once, and so is each in the list of all of them.
-/

namespace SensorIngest

open scoped List

variable {V : Type}

namespace SensorMap

theorem nodup_toList (t : SensorMap V) : t.toList.Nodup := by
  refine t.distinct_keys_toList.imp ?_
  rintro ⟨k, v⟩ _ apart rfl
  exact apart Std.ReflCmp.compare_self

theorem toList_insert_perm (t : SensorMap V) (id : SensorId) (v : V) :
    (t.insert id v).toList ~ (id, v) :: (t.erase id).toList := by
  have fresh : (id, v) ∉ (t.erase id).toList := by
    simp [Std.ExtTreeMap.mem_toList_iff_getElem?_eq_some]
  refine (List.perm_ext_iff_of_nodup (nodup_toList _)
    (List.nodup_cons.2 ⟨fresh, nodup_toList _⟩)).2 fun ⟨k, w⟩ => ?_
  simp only [List.mem_cons, Std.ExtTreeMap.mem_toList_iff_getElem?_eq_some,
    Std.ExtTreeMap.getElem?_insert, Std.ExtTreeMap.getElem?_erase, Prod.mk.injEq]
  by_cases own : k = id
  · subst own
    simp [eq_comm]
  · have apart : ¬ compare id k = .eq := fun e => own (Std.LawfulEqOrd.eq_of_compare e).symm
    simp [own, apart]

/-- A map is the entry of a sensor, if it has one, and the map without it. -/
theorem toList_perm_erase (t : SensorMap V) (id : SensorId) :
    t.toList ~ t[id]?.toList.map (id, ·) ++ (t.erase id).toList := by
  cases found : t[id]? with
  | none =>
    have same : t.erase id = t := by
      apply Std.ExtTreeMap.ext_getElem?
      intro k
      rw [Std.ExtTreeMap.getElem?_erase]
      split
      · rename_i own
        rw [← Std.LawfulEqOrd.eq_of_compare own, found]
      · rfl
    rw [same]
    exact List.Perm.refl _
  | some v =>
    have same : t.insert id v = t := by
      apply Std.ExtTreeMap.ext_getElem?
      intro k
      rw [Std.ExtTreeMap.getElem?_insert]
      split
      · rename_i own
        rw [← Std.LawfulEqOrd.eq_of_compare own, found]
      · rfl
    simpa [same] using toList_insert_perm t id v

end SensorMap

namespace ShardedMap

/-- The slot of a sensor depends on the number of partitions only. -/
theorem slot_val_eq {m n : ShardedMap V} (size : m.shards.size = n.shards.size) (id : SensorId) :
    (m.slot id).val = (n.slot id).val := by
  simp only [slot, size]

theorem size_shards_setShard (m : ShardedMap V) (id : SensorId) (shard : SensorMap V) :
    (m.setShard id shard).shards.size = m.shards.size := by
  simp [setShard]

theorem shardOf_setShard (m : ShardedMap V) (id other : SensorId) (shard : SensorMap V) :
    (m.setShard id shard).shardOf other =
      if m.slot id = m.slot other then shard else m.shardOf other := by
  have same := slot_val_eq (size_shards_setShard m id shard) other
  simp only [shardOf, Fin.getElem_fin, same]
  simp only [setShard, Array.getElem_set, Fin.ext_iff]

theorem get?_empty (shards : Nat) (id : SensorId) : (empty shards : ShardedMap V).get? id = none := by
  simp [get?, shardOf, empty]

/-- A partition is replaced by one that differs from it in one of its sensors. -/
theorem get?_setShard (m : ShardedMap V) {id : SensorId} {shard : SensorMap V}
    (others : ∀ k, k ≠ id → shard[k]? = (m.shardOf id)[k]?) (other : SensorId) :
    (m.setShard id shard).get? other = if id = other then shard[id]? else m.get? other := by
  rw [get?, shardOf_setShard]
  by_cases own : id = other
  · rw [if_pos (congrArg m.slot own), if_pos own, own]
  · rw [if_neg own]
    split
    · rename_i slots
      rw [others other (Ne.symm own), get?]
      simp only [shardOf, slots]
    · rfl

theorem get?_insert (m : ShardedMap V) (id other : SensorId) (v : V) :
    (m.insert id v).get? other = if id = other then some v else m.get? other := by
  rw [insert, get?_setShard, Std.ExtTreeMap.getElem?_insert_self]
  intro k apart
  rw [Std.ExtTreeMap.getElem?_insert, if_neg]
  exact fun same => apart (Std.LawfulEqOrd.eq_of_compare same).symm

theorem get?_erase (m : ShardedMap V) (id other : SensorId) :
    (m.erase id).get? other = if id = other then none else m.get? other := by
  rw [erase, get?_setShard, Std.ExtTreeMap.getElem?_erase_self]
  intro k apart
  rw [Std.ExtTreeMap.getElem?_erase, if_neg]
  exact fun same => apart (Std.LawfulEqOrd.eq_of_compare same).symm

/-- A value that was just looked up or created may be replaced at once. -/
theorem get?_insert_getOrInsert (m : ShardedMap V) (id other : SensorId) (v w : V) :
    ((m.getOrInsert id v).2.2.insert id w).get? other =
      if id = other then some w else m.get? other := by
  rw [get?_insert]
  split
  · rfl
  · rename_i h
    unfold getOrInsert
    split
    · rfl
    · simp [get?_insert, h]

theorem getOrInsert_fst (m : ShardedMap V) (id : SensorId) (v : V) :
    (m.getOrInsert id v).1 = (m.get? id).getD v := by
  unfold getOrInsert
  split <;> simp [*]

theorem getOrInsert_created (m : ShardedMap V) (id : SensorId) (v : V) :
    (m.getOrInsert id v).2.1 = (m.get? id).isNone := by
  unfold getOrInsert
  split <;> simp [*]

theorem get?_retain (m : ShardedMap V) (keep : SensorId → V → Bool) (id : SensorId) :
    (m.retain keep).2.get? id = (m.get? id).filter (keep id) := by
  have same : ((m.retain keep).2.slot id).val = (m.slot id).val :=
    slot_val_eq (by simp [retain]) id
  rw [get?, get?, shardOf, shardOf, Fin.getElem_fin, Fin.getElem_fin]
  simp only [same]
  simp only [retain, Array.getElem_map, Std.ExtTreeMap.getElem?_filter']

/-! ## All values -/

/-- All values, partition by partition. -/
def values (m : ShardedMap V) : List V := m.shards.toList.flatMap (·.toList.map Prod.snd)

/-- The values of a partition and those of all other ones. -/
theorem values_setShard (m : ShardedMap V) (id : SensorId) :
    ∃ others, m.values ~ (m.shardOf id).toList.map Prod.snd ++ others ∧
      ∀ shard, (m.setShard id shard).values ~ shard.toList.map Prod.snd ++ others := by
  have lt : (m.slot id).val < m.shards.toList.length := by simp
  let before := m.shards.toList.take (m.slot id)
  let after := m.shards.toList.drop (m.slot id + 1)
  let vals (shards : List (SensorMap V)) : List V := shards.flatMap (·.toList.map Prod.snd)
  refine ⟨vals before ++ vals after, ?_, fun shard => ?_⟩
  · have split : m.shards.toList = before ++ m.shardOf id :: after := by
      have := List.take_append_drop (m.slot id) m.shards.toList
      rw [List.drop_eq_getElem_cons lt] at this
      simpa [before, after, shardOf] using this.symm
    rw [values, split, List.flatMap_append, List.flatMap_cons]
    exact List.perm_append_comm_assoc _ _ _
  · have split : (m.setShard id shard).shards.toList = before ++ shard :: after := by
      rw [setShard, Array.toList_set, List.set_eq_take_append_cons_drop, if_pos lt]
    rw [values, split, List.flatMap_append, List.flatMap_cons]
    exact List.perm_append_comm_assoc _ _ _

theorem values_insert (m : ShardedMap V) (id : SensorId) :
    ∃ others, m.values ~ (m.get? id).toList ++ others ∧
      ∀ v, (m.insert id v).values ~ v :: others := by
  obtain ⟨others, found, set⟩ := m.values_setShard id
  refine ⟨((m.shardOf id).erase id).toList.map Prod.snd ++ others, ?_, fun v => ?_⟩
  · have split := (SensorMap.toList_perm_erase (m.shardOf id) id).map Prod.snd
    rw [List.map_append, List.map_map, Function.comp_def, List.map_id'] at split
    rw [← List.append_assoc]
    exact found.trans (split.append_right others)
  · refine (set _).trans ?_
    exact ((SensorMap.toList_insert_perm _ id v).map Prod.snd).append_right others

/-- The value that was just looked up or created gives way to a new one. -/
theorem values_insert_getOrInsert (m : ShardedMap V) (id : SensorId) (v : V) :
    ∃ others, m.values ~ (m.get? id).toList ++ others ∧
      ∀ w, ((m.getOrInsert id v).2.2.insert id w).values ~ w :: others := by
  obtain ⟨others, found, insert⟩ := m.values_insert id
  refine ⟨others, found, fun w => ?_⟩
  unfold getOrInsert
  split
  · exact insert w
  · obtain ⟨others', found', insert'⟩ := (m.insert id v).values_insert id
    rw [get?_insert, if_pos rfl] at found'
    have same : v :: others ~ v :: others' := (insert v).symm.trans found'
    exact (insert' w).trans ((List.perm_cons v).1 same.symm |>.cons w)

theorem values_empty (shards : Nat) : (empty shards : ShardedMap V).values = [] := by
  simp [values, empty, List.flatMap_replicate]

/-- A test that looks at values only keeps those values that pass it. -/
theorem values_retain (m : ShardedMap V) (keep : V → Bool) :
    (m.retain fun _ v => keep v).2.values = m.values.filter keep := by
  simp [values, retain, List.filter_flatMap, List.flatMap_map, Std.ExtTreeMap.toList_filter,
    List.filter_map, Function.comp_def]

/-! ## Changing all values -/

section Map

variable {W : Type} (f : V → W) (m : ShardedMap V) (id : SensorId)

/-- Changes every value. -/
def map : ShardedMap W where
  shards := m.shards.map (·.map fun _ v => f v)
  shards_pos := by rw [Array.size_map]; exact m.shards_pos

theorem slot_map : ((m.map f).slot id).val = (m.slot id).val := by
  simp only [slot, map, Array.size_map]

theorem shardOf_map : (m.map f).shardOf id = (m.shardOf id).map fun _ v => f v := by
  have same : ((m.map f).slot id).val = (m.slot id).val := slot_map f m id
  rw [shardOf, shardOf, Fin.getElem_fin, Fin.getElem_fin]
  simp only [same]
  simp only [map, Array.getElem_map]

theorem get?_map : (m.map f).get? id = (m.get? id).map f := by
  rw [get?, shardOf_map, Std.ExtTreeMap.getElem?_map]
  rfl

theorem map_insert (v : V) : (m.insert id v).map f = (m.map f).insert id (f v) := by
  have value : ((m.shardOf id).insert id v).map (fun _ v => f v) =
      ((m.shardOf id).map fun _ v => f v).insert id (f v) := by
    apply Std.ExtTreeMap.ext_getElem?
    intro k
    simp only [Std.ExtTreeMap.getElem?_map, Std.ExtTreeMap.getElem?_insert]
    split <;> rfl
  rw [insert, insert, shardOf_map, ← value]
  simp only [map, setShard, slot, Array.map_set, Array.size_map]

theorem map_getOrInsert (v : V) :
    (m.map f).getOrInsert id (f v) =
      let r := m.getOrInsert id v
      (f r.1, r.2.1, r.2.2.map f) := by
  unfold getOrInsert
  rw [get?_map]
  cases m.get? id with
  | none => simp only [Option.map_none, map_insert]
  | some old => rfl

end Map

/-! ## Partitions -/

variable {m : ShardedMap V}

/-- Every sensor stands in its own partition. -/
def Placed (m : ShardedMap V) : Prop :=
  ∀ (i : Nat) (shard : SensorMap V), m.shards[i]? = some shard →
    ∀ id ∈ shard, (m.slot id).val = i

theorem placed_empty (shards : Nat) : (empty shards : ShardedMap V).Placed := by
  intro i shard found id mem
  rw [empty, Array.getElem?_replicate] at found
  split at found
  · cases found
    exact absurd mem Std.ExtTreeMap.not_mem_empty
  · cases found

/-- A partition is replaced by one that has no sensor but its own ones. -/
theorem Placed.setShard (h : m.Placed) {id : SensorId} {shard : SensorMap V}
    (own : ∀ k ∈ shard, k = id ∨ k ∈ m.shardOf id) : (m.setShard id shard).Placed := by
  intro i other found k mem
  refine (slot_val_eq (size_shards_setShard m id shard) k).trans ?_
  simp only [ShardedMap.setShard, Array.getElem?_set] at found
  split at found
  · rename_i slot
    cases found
    rcases own k mem with rfl | mem
    · exact slot
    · rw [← slot]
      exact h _ _ (Array.getElem?_eq_getElem (m.slot id).isLt) k mem
  · exact h i other found k mem

theorem Placed.insert (h : m.Placed) (id : SensorId) (v : V) : (m.insert id v).Placed :=
  h.setShard fun _ mem => (Std.ExtTreeMap.mem_insert.1 mem).imp_left fun same =>
    (Std.LawfulEqOrd.eq_of_compare same).symm

theorem Placed.erase (h : m.Placed) (id : SensorId) : (m.erase id).Placed :=
  h.setShard fun _ mem => .inr (Std.ExtTreeMap.mem_of_mem_erase mem)

theorem Placed.getOrInsert (h : m.Placed) (id : SensorId) (v : V) :
    (m.getOrInsert id v).2.2.Placed := by
  unfold ShardedMap.getOrInsert
  split
  · exact h
  · exact h.insert id v

theorem Placed.retain (h : m.Placed) (keep : SensorId → V → Bool) : (m.retain keep).2.Placed := by
  intro i shard found id mem
  rw [slot_val_eq (show (m.retain keep).2.shards.size = m.shards.size by simp [ShardedMap.retain]) id]
  simp only [ShardedMap.retain, Array.getElem?_map, Option.map_eq_some_iff] at found
  obtain ⟨whole, found, rfl⟩ := found
  exact h i whole found id (Std.ExtTreeMap.mem_of_mem_filter mem)

/-- The sensors of a partition whose values do not pass a test. -/
def failing (keep : SensorId → V → Bool) (shard : SensorMap V) : List SensorId :=
  (shard.filter fun id v => !keep id v).keys

theorem mem_failing {keep : SensorId → V → Bool} {shard : SensorMap V} {id : SensorId} :
    id ∈ failing keep shard ↔ ∃ v, shard[id]? = some v ∧ !keep id v := by
  rw [failing, Std.ExtTreeMap.mem_keys, Std.ExtTreeMap.mem_iff_isSome_getElem?,
    Std.ExtTreeMap.getElem?_filter', Option.isSome_iff_exists]
  exact exists_congr fun v => Option.filter_eq_some_iff

/-- A sensor is looked for in all partitions, but only its own has it. -/
theorem Placed.slot_of_failing (h : m.Placed) {keep : SensorId → V → Bool} {i : Nat}
    (lt : i < m.shards.toList.length) {id : SensorId} (mem : id ∈ failing keep m.shards.toList[i]) :
    (m.slot id).val = i := by
  obtain ⟨v, found, -⟩ := mem_failing.1 mem
  refine h i m.shards.toList[i] ?_ id
    (Std.ExtTreeMap.mem_iff_isSome_getElem?.2 (Option.isSome_of_eq_some found))
  rw [Array.getElem_toList]
  exact Array.getElem?_eq_getElem _

theorem Placed.nodup_failing (h : m.Placed) (keep : SensorId → V → Bool) :
    (m.shards.toList.flatMap (failing keep)).Nodup := by
  refine List.nodup_flatMap.2 ⟨fun _ _ => Std.ExtTreeMap.nodup_keys, ?_⟩
  rw [List.pairwise_iff_getElem]
  intro i j hi hj lt other left right
  exact Nat.ne_of_lt lt ((h.slot_of_failing hi left).symm.trans (h.slot_of_failing hj right))

theorem Placed.mem_flatMap_failing (h : m.Placed) (keep : SensorId → V → Bool) (id : SensorId) :
    id ∈ m.shards.toList.flatMap (failing keep) ↔
      ∃ v, (m.get? id).filter (fun v => !keep id v) = some v := by
  simp only [Option.filter_eq_some_iff, List.mem_flatMap]
  constructor
  · rintro ⟨shard, mem, found⟩
    obtain ⟨i, lt, rfl⟩ := List.getElem_of_mem mem
    have slot := h.slot_of_failing lt found
    have same : m.shards.toList[i] = m.shardOf id := by
      subst slot
      rfl
    exact mem_failing.1 (same ▸ found)
  · intro found
    exact ⟨m.shardOf id, by simp [shardOf], mem_failing.2 found⟩

/-- A sensor whose value does not pass the test is listed, and that once. -/
theorem Placed.filter_retain (h : m.Placed) (keep : SensorId → V → Bool) (id : SensorId) :
    (m.retain keep).1.filter (· = id) =
      ((m.get? id).filter fun v => !keep id v).toList.map fun _ => id := by
  have listed := h.mem_flatMap_failing keep id
  rw [show (m.retain keep).1 = m.shards.toList.flatMap (failing keep) from rfl, List.filter_eq,
    (h.nodup_failing keep).count]
  cases left : (m.get? id).filter fun v => !keep id v with
  | none =>
    rw [left] at listed
    rw [if_neg (mt listed.1 nofun)]
    rfl
  | some v =>
    rw [if_pos (listed.2 ⟨v, left⟩)]
    rfl

/-! ## Sensors -/

/-- All sensors are those whose values fail a test that nothing passes. -/
theorem keys_eq_failing (m : ShardedMap V) :
    m.keys = m.shards.toList.flatMap (failing fun _ _ => false) := by
  have whole (shard : SensorMap V) : shard.filter (fun _ _ => true) = shard :=
    Std.ExtTreeMap.filter_eq_self_iff.2 fun _ _ => rfl
  unfold keys failing
  simp only [Bool.not_false, whole]

theorem Placed.nodup_keys (h : m.Placed) : m.keys.Nodup := by
  rw [keys_eq_failing]
  exact h.nodup_failing _

theorem Placed.mem_keys (h : m.Placed) (id : SensorId) : id ∈ m.keys ↔ (m.get? id).isSome := by
  rw [keys_eq_failing, h.mem_flatMap_failing, Option.isSome_iff_exists]
  simp only [Bool.not_false, Option.filter_eq_some_iff, and_true]

theorem Placed.nodup_retain (h : m.Placed) (keep : SensorId → V → Bool) : (m.retain keep).1.Nodup :=
  h.nodup_failing keep

/-- Exactly the sensors whose values do not pass the test are listed. -/
theorem Placed.mem_retain (h : m.Placed) (keep : SensorId → V → Bool) (id : SensorId) :
    id ∈ (m.retain keep).1 ↔ ∃ v, m.get? id = some v ∧ keep id v = false := by
  refine (h.mem_flatMap_failing keep id).trans (exists_congr fun v => ?_)
  rw [Option.filter_eq_some_iff, Bool.not_eq_true']

end ShardedMap

end SensorIngest
