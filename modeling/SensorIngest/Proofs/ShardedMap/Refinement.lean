import Mathlib.Algebra.Ring.Nat
import SensorIngest.Proofs.ShardedMap

/-!
# A sharded map is one map

Operations on a map and what they answer are data here (`Op`, `Answer`), so that one list of
operations can be done on a sharded map (`ShardedMap.performAll`) and on one that is not
(`SensorMap.performAll`). The sharded one represents the other when no sensor stands in a partition
that does not own it and all lookups agree. Every operation keeps this (`Represents.perform`), and so
the answers are the same, apart from the order in which sensors are listed
(`ShardedMap.performAll_agrees`).
-/

namespace SensorIngest

open scoped List

variable {V W : Type}

namespace ShardedMap

/-- An operation on a map by sensor. -/
inductive Op (V W : Type) where
  | insert (id : SensorId) (value : V)
  | erase (id : SensorId)
  | get (id : SensorId)
  | contains (id : SensorId)
  | view (id : SensorId) (f : V → W)
  | getOrInsert (id : SensorId) (value : V)
  | retain (keep : SensorId → V → Bool)
  | keys

/-- What an operation answers. -/
inductive Answer (V W : Type) where
  /-- The value that the sensor had before. -/
  | value (found : Option V)
  | present (flag : Bool)
  | seen (found : Option W)
  | held (value : V) (created : Bool)
  | sensors (ids : List SensorId)

/-- The same answer, if the order of sensors does not count. No sensor is listed twice. -/
def Answer.Agrees : Answer V W → Answer V W → Prop
  | .sensors ids, .sensors others => ids.Nodup ∧ ids ~ others
  | answer, other => answer = other

def perform (m : ShardedMap V) : Op V W → Answer V W × ShardedMap V
  | .insert id v => (.value (m.get? id), m.insert id v)
  | .erase id => (.value (m.get? id), m.erase id)
  | .get id => (.value (m.get? id), m)
  | .contains id => (.present (m.contains id), m)
  | .view id f => (.seen (m.view id f), m)
  | .getOrInsert id v =>
    let (w, created, m) := m.getOrInsert id v
    (.held w created, m)
  | .retain keep =>
    let (removed, m) := m.retain keep
    (.sensors removed, m)
  | .keys => (.sensors m.keys, m)

/-- Does operations one after the other. Each answer comes with the number of sensors that have a value
then. -/
def performAll (m : ShardedMap V) : List (Op V W) → List (Answer V W × Nat) × ShardedMap V
  | [] => ([], m)
  | op :: ops =>
    let (answer, m) := m.perform op
    let (more, last) := m.performAll ops
    ((answer, m.size) :: more, last)

end ShardedMap

namespace SensorMap

open ShardedMap (Op Answer)

/-- An operation on a map that is not sharded. -/
def perform (t : SensorMap V) : Op V W → Answer V W × SensorMap V
  | .insert id v => (.value t[id]?, t.insert id v)
  | .erase id => (.value t[id]?, t.erase id)
  | .get id => (.value t[id]?, t)
  | .contains id => (.present (t.contains id), t)
  | .view id f => (.seen (t[id]?.map f), t)
  | .getOrInsert id v =>
    match t[id]? with
    | some old => (.held old false, t)
    | none => (.held v true, t.insert id v)
  | .retain keep => (.sensors (t.filter fun id v => !keep id v).keys, t.filter keep)
  | .keys => (.sensors t.keys, t)

def performAll (t : SensorMap V) : List (Op V W) → List (Answer V W × Nat) × SensorMap V
  | [] => ([], t)
  | op :: ops =>
    let (answer, t) := perform t op
    let (more, last) := performAll t ops
    ((answer, t.size) :: more, last)

end SensorMap

namespace ShardedMap

variable {m : ShardedMap V} {t : SensorMap V}

/-- The map that a sharded map stands for. -/
structure Represents (m : ShardedMap V) (t : SensorMap V) : Prop where
  placed : m.Placed
  lookup : ∀ id, m.get? id = t[id]?

theorem represents_empty (shards : Nat) : Represents (empty shards : ShardedMap V) ∅ where
  placed := placed_empty shards
  lookup id := (get?_empty shards id).trans Std.ExtTreeMap.getElem?_empty.symm

namespace Represents

theorem contains (h : m.Represents t) (id : SensorId) : m.contains id = t.contains id := by
  rw [Std.ExtTreeMap.contains_eq_isSome_getElem?, ← h.lookup, get?,
    ← Std.ExtTreeMap.contains_eq_isSome_getElem?]
  rfl

theorem insert (h : m.Represents t) (id : SensorId) (v : V) :
    (m.insert id v).Represents (t.insert id v) where
  placed := h.placed.insert id v
  lookup other := by
    rw [get?_insert, Std.ExtTreeMap.getElem?_insert, h.lookup]
    simp only [Std.LawfulEqOrd.compare_eq_iff_eq]

theorem erase (h : m.Represents t) (id : SensorId) : (m.erase id).Represents (t.erase id) where
  placed := h.placed.erase id
  lookup other := by
    rw [get?_erase, Std.ExtTreeMap.getElem?_erase, h.lookup]
    simp only [Std.LawfulEqOrd.compare_eq_iff_eq]

theorem retain (h : m.Represents t) (keep : SensorId → V → Bool) :
    (m.retain keep).2.Represents (t.filter keep) where
  placed := h.placed.retain keep
  lookup id := by rw [get?_retain, Std.ExtTreeMap.getElem?_filter', h.lookup]

/-- Each sensor is listed once by the one and by the other. -/
theorem keys_perm (h : m.Represents t) : m.keys ~ t.keys := by
  refine (List.perm_ext_iff_of_nodup h.placed.nodup_keys Std.ExtTreeMap.nodup_keys).2 fun id => ?_
  rw [h.placed.mem_keys, h.lookup, Std.ExtTreeMap.mem_keys, Std.ExtTreeMap.mem_iff_isSome_getElem?]

theorem removed_perm (h : m.Represents t) (keep : SensorId → V → Bool) :
    (m.retain keep).1 ~ (t.filter fun id v => !keep id v).keys := by
  refine (List.perm_ext_iff_of_nodup (h.placed.nodup_retain keep)
    Std.ExtTreeMap.nodup_keys).2 fun id => ?_
  have listed : id ∈ (t.filter fun id v => !keep id v).keys ↔ _ := mem_failing
  simp only [h.placed.mem_retain, h.lookup, listed, Bool.not_eq_true']

end Represents

/-- The sensors with a value are as many as are listed. -/
theorem length_keys (m : ShardedMap V) : m.keys.length = m.size := by
  rw [keys, List.length_flatMap, size, ← Array.foldl_toList]
  simp only [Std.ExtTreeMap.length_keys, List.sum_eq_foldl, List.foldl_map]

theorem Represents.size (h : m.Represents t) : m.size = t.size := by
  rw [← length_keys, h.keys_perm.length_eq, Std.ExtTreeMap.length_keys]

/-- An operation has the same answer on both maps, and leaves maps of which one stands for the
other. -/
theorem Represents.perform (h : m.Represents t) (op : Op V W) :
    (m.perform op).1.Agrees (SensorMap.perform t op).1 ∧
      (m.perform op).2.Represents (SensorMap.perform t op).2 := by
  cases op with
  | insert id v => exact ⟨congrArg Answer.value (h.lookup id), h.insert id v⟩
  | erase id => exact ⟨congrArg Answer.value (h.lookup id), h.erase id⟩
  | get id => exact ⟨congrArg Answer.value (h.lookup id), h⟩
  | contains id => exact ⟨congrArg Answer.present (h.contains id), h⟩
  | view id f => exact ⟨congrArg (Answer.seen ∘ Option.map f) (h.lookup id), h⟩
  | getOrInsert id v =>
    simp only [ShardedMap.perform, SensorMap.perform, ShardedMap.getOrInsert, h.lookup]
    cases t[id]? with
    | some old => exact ⟨rfl, h⟩
    | none => exact ⟨rfl, h.insert id v⟩
  | retain keep => exact ⟨⟨h.placed.nodup_retain keep, h.removed_perm keep⟩, h.retain keep⟩
  | keys => exact ⟨⟨h.placed.nodup_keys, h.keys_perm⟩, h⟩

theorem Represents.performAll (h : m.Represents t) (ops : List (Op V W)) :
    List.Forall₂ (fun x y => x.1.Agrees y.1 ∧ x.2 = y.2) (m.performAll ops).1
        (SensorMap.performAll t ops).1 ∧
      (m.performAll ops).2.Represents (SensorMap.performAll t ops).2 := by
  induction ops generalizing m t with
  | nil => exact ⟨.nil, h⟩
  | cons op ops ih =>
    obtain ⟨agrees, after⟩ := h.perform op
    obtain ⟨rest, last⟩ := ih after
    exact ⟨.cons ⟨agrees, after.size⟩ rest, last⟩

/-! ## Partitions -/

/-- No operation changes the number of partitions. -/
theorem size_shards_perform (m : ShardedMap V) (op : Op V W) :
    (m.perform op).2.shards.size = m.shards.size := by
  cases op with
  | insert | erase => exact size_shards_setShard ..
  | get | contains | view | keys => rfl
  | getOrInsert id v =>
    simp only [perform, getOrInsert]
    cases m.get? id with
    | some old => rfl
    | none => exact size_shards_setShard ..
  | retain keep => exact Array.size_map ..

theorem size_shards_performAll (m : ShardedMap V) (ops : List (Op V W)) :
    (m.performAll ops).2.shards.size = m.shards.size := by
  induction ops generalizing m with
  | nil => rfl
  | cons op ops ih => exact (ih _).trans (size_shards_perform m op)

/-- Where the number of partitions is a power of two, the low bits of a sensor tell its own. -/
theorem slot_eq_mod {k : Nat} (pow : m.shards.size = 2 ^ k) (id : SensorId) :
    (m.slot id).val = id.value % 2 ^ k := by
  simp only [slot, pow, SensorId.shard, Nat.and_two_pow_sub_one_eq_mod]

/-- Whatever number of partitions is asked for, the operations on a sharded map answer what they answer
on one map that starts out empty, the number of sensors with a value is the same after each of them,
and so are the values in the end. The number of partitions is a power of two all along, and every
sensor stands in the one that its low bits tell. -/
theorem performAll_agrees (shards : Nat) (ops : List (Op V W)) :
    let run := (empty shards : ShardedMap V).performAll ops
    let plain := SensorMap.performAll ∅ ops
    List.Forall₂ (fun x y => x.1.Agrees y.1 ∧ x.2 = y.2) run.1 plain.1 ∧
      (∀ id, run.2.get? id = plain.2[id]?) ∧
      ∃ k, (max shards 1).nextPowerOfTwo = 2 ^ k ∧ run.2.shards.size = 2 ^ k ∧
        ∀ (i : Nat) (shard : SensorMap V), run.2.shards[i]? = some shard →
          ∀ id ∈ shard, id.value % 2 ^ k = i := by
  intro run plain
  obtain ⟨answers, last⟩ := (represents_empty shards).performAll ops
  obtain ⟨k, pow⟩ := Nat.isPowerOfTwo_nextPowerOfTwo (max shards 1)
  have size : run.2.shards.size = 2 ^ k := by
    rw [size_shards_performAll, empty, Array.size_replicate, pow]
  refine ⟨answers, last.lookup, k, pow, size, fun i shard found id mem => ?_⟩
  rw [← slot_eq_mod size]
  exact last.placed i shard found id mem

end ShardedMap

end SensorIngest
