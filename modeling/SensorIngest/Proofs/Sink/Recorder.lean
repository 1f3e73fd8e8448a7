import Mathlib.Algebra.GroupWithZero.Nat
import Mathlib.Data.List.Induction
import SensorIngest.Frame.Encode
import SensorIngest.Sink.Recorder

/-!
# Recordings are complete

What a recorder has been given of a sensor is what the sensor's file holds, followed by the file's
buffer (`Recorder.held`). Writing a buffer out moves the boundary between the two, and data goes behind
both of them, whichever way it takes (`Recorder.extends_append`). When a recorder stops there are no
buffers left, so the files hold all that was given, each sensor's own and in the order in which it came
(`Recorder.recordings_exact`). Sensors do not share files, since a file carries the sensor's label and
labels can be read back.
-/

namespace SensorIngest

/-! ## Labels -/

namespace Text.Hex

theorem value?_upperDigit : ∀ n < 16, value? (upperDigit n) = some n := by decide

theorem upperDigit_injective {m n : Nat} (hm : m < 16) (hn : n < 16)
    (same : upperDigit m = upperDigit n) : m = n := by
  apply Option.some.inj
  rw [← value?_upperDigit m hm, same, value?_upperDigit n hn]

theorem digits_injective {width m n : Nat} (hm : m < 16 ^ width) (hn : n < 16 ^ width)
    (same : digits upperDigit width m = digits upperDigit width n) : m = n := by
  induction width generalizing m n with
  | zero => exact (Nat.lt_one_iff.1 hm).trans (Nat.lt_one_iff.1 hn).symm
  | succ width ih =>
    have digit (k : Nat) : k % 16 < 16 := Nat.mod_lt k (by decide)
    have rest {k : Nat} (hk : k < 16 ^ (width + 1)) : k / 16 < 16 ^ width :=
      Nat.div_lt_of_lt_mul (by rwa [Nat.pow_succ, Nat.mul_comm] at hk)
    obtain ⟨front, last⟩ := List.append_inj' same rfl
    have low : m % 16 = n % 16 :=
      upperDigit_injective (digit m) (digit n) (List.singleton_inj.1 last)
    have high : m / 16 = n / 16 := ih (rest hm) (rest hn) front
    rw [← Nat.div_add_mod m 16, ← Nat.div_add_mod n 16, low, high]

end Text.Hex

theorem SensorId.label_injective : Function.Injective SensorId.label := by
  intro a b same
  exact SensorId.ext (Text.Hex.digits_injective a.value_lt b.value_lt (String.ofList_injective same))

/-! ## Samples of a frame -/

/-- The samples of a frame stand behind the rate in its first acoustic segment. -/
theorem Frame.samples?_eq (frame : Frame) :
    frame.samples? =
      ((frame.segment? .arc).filter (4 ≤ ·.body.length)).map (·.body.drop 4) := by
  unfold samples?
  cases frame.segment? .arc with
  | none => rfl
  | some arc =>
    obtain ⟨kind, body⟩ := arc
    match body with
    | _ :: _ :: _ :: _ :: pcm => rfl
    | [] | [_] | [_, _] | [_, _, _] => rfl

theorem Frame.samples?_isSome (frame : Frame) :
    frame.samples?.isSome ↔ ∃ arc, frame.segment? .arc = some arc ∧ 4 ≤ arc.body.length := by
  simp only [samples?_eq, Option.isSome_map, Option.isSome_iff_exists, Option.filter_eq_some_iff,
    decide_eq_true_iff]

namespace Recorder

variable {r r' r'' : Recorder} {id other : SensorId} {buffer data : Bytes}

theorem fileName_injective : Function.Injective fileName := by
  intro a b same
  exact SensorId.label_injective ((String.append_left_inj ".pcm").1 same)

/-! ## What is held of a sensor -/

/-- What the file of a sensor holds, followed by its buffer if it is open. -/
def held (r : Recorder) (id : SensorId) : Bytes :=
  (r.storage id).content ++ (r.buffers[id]?).getD []

/-- No file refuses data, and open files exist. -/
structure Sound (r : Recorder) : Prop where
  takes : ∀ id, r.storage id ≠ .full
  exist : ∀ id ∈ r.buffers, fileName id ∈ r.directory

/-- Data has come to a sensor that is open, and the same files exist and are open. -/
structure Extends (r r' : Recorder) (id : SensorId) (data : Bytes) : Prop where
  held : ∀ other, r'.held other = r.held other ++ if id = other then data else []
  files : ∀ name, name ∈ r'.directory ↔ name ∈ r.directory
  opened : ∀ other, other ∈ r'.buffers ↔ other ∈ r.buffers
  others : ∀ other, id ≠ other → r'.buffers[other]? = r.buffers[other]?
  takes : (∀ other, r.storage other ≠ .full) → ∀ other, r'.storage other ≠ .full

theorem Sound.extends (h : r.Sound) (step : r.Extends r' id data) : r'.Sound where
  takes := step.takes h.takes
  exist other mem := (step.files _).2 (h.exist other ((step.opened other).1 mem))

theorem Extends.trans {more : Bytes} (first : r.Extends r' id data) (second : r'.Extends r'' id more) :
    r.Extends r'' id (data ++ more) where
  held other := by
    rw [second.held, first.held, List.append_assoc]
    split <;> rfl
  files name := (second.files name).trans (first.files name)
  opened other := (second.opened other).trans (first.opened other)
  others other apart := (second.others other apart).trans (first.others other apart)
  takes := second.takes ∘ first.takes

/-! ## Files -/

section

variable {K V : Type} {cmp : K → K → Ordering} [Std.TransCmp cmp] {m : Std.ExtTreeMap K V cmp}
  {k : K} {v : V}

theorem mem_of_lookup (found : m[k]? = some v) : k ∈ m :=
  Std.ExtTreeMap.isSome_getElem?_iff_mem.1 (Option.isSome_of_eq_some found)

variable [Std.LawfulEqCmp cmp]

theorem mem_insert_iff (known : k ∈ m) (v : V) (other : K) : other ∈ m.insert k v ↔ other ∈ m := by
  rw [Std.ExtTreeMap.mem_insert, or_iff_right_of_imp]
  intro same
  rwa [← Std.LawfulEqCmp.eq_of_compare same]

theorem insert_eq_self (found : m[k]? = some v) : m.insert k v = m := by
  apply Std.ExtTreeMap.ext_getElem?
  intro other
  rw [Std.ExtTreeMap.getElem?_insert]
  split
  · rename_i same
    rw [← Std.LawfulEqCmp.eq_of_compare same, found]
  · rfl

end

theorem storage_insert (r : Recorder) (id other : SensorId) (stored : Storage)
    (buffers : SensorMap Bytes) :
    storage ⟨r.directory.insert (fileName id) stored, buffers⟩ other =
      if id = other then stored else r.storage other := by
  unfold storage
  rw [Std.ExtTreeMap.getElem?_insert]
  simp only [Std.LawfulEqCmp.compare_eq_iff_eq, fileName_injective.eq_iff]
  split <;> rfl

/-- What is committed stands behind what the file holds, whatever its buffer. -/
theorem commit_eq (takes : r.storage id ≠ .full) (data : Bytes) :
    ∃ stored : Storage, stored ≠ .full ∧ stored.content = (r.storage id).content ++ data ∧
      r.commit id data = .ok { r with directory := r.directory.insert (fileName id) stored } := by
  cases found : r.storage id with
  | full => exact absurd found takes
  | file pieces =>
    refine ⟨.file (data :: pieces), nofun, ?_, ?_⟩
    · exact Storage.content_append rfl
    · rw [commit, found]
      rfl

/-- An open file and its buffer are replaced by others that hold the same and some data behind it. -/
theorem Extends.of_insert {stored : Storage} (h : r.Sound) (opened : r.buffers[id]? = some buffer)
    (takes : stored ≠ .full) (after data : Bytes)
    (whole : stored.content ++ after = (r.storage id).content ++ buffer ++ data) :
    r.Extends ⟨r.directory.insert (fileName id) stored, r.buffers.insert id after⟩ id data where
  held other := by
    unfold Recorder.held
    rw [storage_insert, Std.ExtTreeMap.getElem?_insert]
    simp only [Std.LawfulEqCmp.compare_eq_iff_eq]
    split
    · rename_i own
      subst own
      rw [opened, Option.getD_some, Option.getD_some, whole]
    · rw [List.append_nil]
  files := mem_insert_iff (h.exist id (mem_of_lookup opened)) stored
  opened := mem_insert_iff (mem_of_lookup opened) after
  others other apart := by
    rw [Std.ExtTreeMap.getElem?_insert, if_neg (mt Std.LawfulEqCmp.eq_of_compare apart)]
  takes all other := by
    rw [storage_insert]
    split
    · exact takes
    · exact all other

theorem Sound.insert_storage (h : r.Sound) (opened : r.buffers[id]? = some buffer) :
    r.directory.insert (fileName id) (r.storage id) = r.directory := by
  have exist := h.exist id (mem_of_lookup opened)
  obtain ⟨stored, found⟩ :=
    Option.isSome_iff_exists.1 (Std.ExtTreeMap.isSome_getElem?_iff_mem.2 exist)
  rw [storage, found]
  exact insert_eq_self found

/-! ## Writing to an open file -/

theorem extends_buffer (h : r.Sound) (opened : r.buffers[id]? = some buffer) (data : Bytes) :
    r.Extends { r with buffers := r.buffers.insert id (buffer ++ data) } id data := by
  have grown := Extends.of_insert h opened (h.takes id) (buffer ++ data) data
    (List.append_assoc _ _ _).symm
  rwa [h.insert_storage opened] at grown

theorem extends_commit (h : r.Sound) (opened : r.buffers[id]? = some []) (data : Bytes) :
    ∃ r', r.commit id data = .ok r' ∧ r.Extends r' id data := by
  obtain ⟨stored, takes, content, committed⟩ := commit_eq (h.takes id) data
  have grown := Extends.of_insert h opened takes [] data
    (by rw [content, List.append_nil, List.append_nil])
  rw [insert_eq_self opened] at grown
  exact ⟨_, committed, grown⟩

theorem extends_flush (h : r.Sound) (opened : r.buffers[id]? = some buffer) :
    ∃ r', r.flush id buffer = .ok r' ∧ r.Extends r' id [] ∧ r'.buffers[id]? = some [] := by
  obtain ⟨stored, takes, content, committed⟩ := commit_eq (h.takes id) buffer
  have moved := Extends.of_insert h opened takes [] [] (by rw [content])
  refine ⟨_, ?_, moved, Std.ExtTreeMap.getElem?_insert_self⟩
  rw [flush, committed]
  rfl

/-- Data comes to a file the same whether it fits into the buffer, makes it be written first, or goes
past it: in the last case the buffer is empty, or it would have been written. -/
theorem extends_append (h : r.Sound) (opened : r.buffers[id]? = some buffer) (data : Bytes) :
    ∃ r', r.append id buffer data = (r', .ok ()) ∧ r.Extends r' id data := by
  unfold append
  dsimp only
  split
  case isTrue => exact ⟨_, rfl, extends_buffer h opened data⟩
  case isFalse full =>
    by_cases exceeds : bufferSize - buffer.length < data.length
    case pos =>
      obtain ⟨flushed, ok, moved, empty⟩ := extends_flush h opened
      rw [if_pos exceeds, ok]
      dsimp only [Except.map]
      split
      case isTrue => exact ⟨_, rfl, moved.trans (extends_buffer (h.extends moved) empty data)⟩
      case isFalse =>
        obtain ⟨written, committed, grown⟩ := extends_commit (h.extends moved) empty data
        rw [committed]
        exact ⟨_, rfl, moved.trans grown⟩
    case neg =>
      rw [if_neg exceeds]
      dsimp only
      split
      case isTrue => exact ⟨_, rfl, extends_buffer h opened data⟩
      case isFalse large =>
        have empty : buffer = [] := by
          have positive : 0 < bufferSize := by decide
          exact List.length_eq_zero_iff.1 (by omega)
        subst empty
        obtain ⟨written, committed, grown⟩ := extends_commit h opened data
        rw [committed]
        exact ⟨_, rfl, grown⟩

/-! ## Opening and closing -/

theorem storage_openFile (r : Recorder) (id other : SensorId) :
    (r.openFile id).storage other = r.storage other := by
  rw [openFile, storage_insert]
  split
  · rename_i own
    rw [own]
  · rfl

theorem sound_openFile (h : r.Sound) (id : SensorId) : (r.openFile id).Sound where
  takes other := by
    rw [storage_openFile]
    exact h.takes other
  exist other mem := by
    rw [openFile, Std.ExtTreeMap.mem_insert, Std.LawfulEqCmp.compare_eq_iff_eq] at mem ⊢
    rcases mem with rfl | mem
    · exact .inl rfl
    · exact .inr (h.exist other mem)

theorem held_openFile (closed : r.buffers[id]? = none) (other : SensorId) :
    (r.openFile id).held other = r.held other := by
  unfold held
  rw [storage_openFile, openFile, Std.ExtTreeMap.getElem?_insert]
  split
  · rename_i own
    rw [← Std.LawfulEqCmp.eq_of_compare own, closed]
    rfl
  · rfl

theorem mem_openFile (r : Recorder) (id : SensorId) (name : String) :
    name ∈ (r.openFile id).directory ↔ name = fileName id ∨ name ∈ r.directory := by
  rw [openFile, Std.ExtTreeMap.mem_insert, Std.LawfulEqCmp.compare_eq_iff_eq, eq_comm]

/-- Some files have been closed, which leaves what is held of each sensor. -/
structure Closes (r r' : Recorder) (closed : List SensorId) : Prop where
  sound : r'.Sound
  held : ∀ other, r'.held other = r.held other
  files : ∀ name, name ∈ r'.directory ↔ name ∈ r.directory
  buffers : ∀ other, r'.buffers[other]? = if other ∈ closed then none else r.buffers[other]?

theorem closes_close (h : r.Sound) (opened : r.buffers[id]? = some buffer) :
    r.Closes (r.close id buffer).1 [id] := by
  obtain ⟨flushed, ok, moved, empty⟩ := extends_flush h opened
  have sound := h.extends moved
  unfold close
  rw [ok]
  have lookup (other : SensorId) : (flushed.buffers.erase id)[other]? =
      if other = id then none else r.buffers[other]? := by
    rw [Std.ExtTreeMap.getElem?_erase]
    by_cases own : other = id
    · rw [if_pos own, if_pos (Std.LawfulEqCmp.compare_eq_iff_eq.2 own.symm)]
    · rw [if_neg own, if_neg (mt Std.LawfulEqCmp.eq_of_compare (Ne.symm own)),
        moved.others other (Ne.symm own)]
  refine ⟨⟨sound.takes, fun other mem => ?_⟩, fun other => ?_, moved.files, fun other => ?_⟩
  · exact sound.exist other (Std.ExtTreeMap.mem_of_mem_erase mem)
  · have same := moved.held other
    rw [ite_self, List.append_nil] at same
    rw [← same]
    unfold held
    dsimp only
    rw [lookup]
    split
    · rename_i own
      subst own
      rw [empty]
      rfl
    · rename_i apart
      rw [moved.others other (Ne.symm apart)]
      rfl
  · simp only [List.mem_singleton]
    exact lookup other

/-- Closes one more file, and tells of it if the file refuses. -/
def closeNext (told : Recorder × List Event) (entry : SensorId × Bytes) : Recorder × List Event :=
  ((told.1.close entry.1 entry.2).1, told.2 ++ (told.1.close entry.1 entry.2).2)

theorem closes_foldl {entries : List (SensorId × Bytes)} (h : r.Sound) (events : List Event)
    (distinct : entries.Pairwise (·.1 ≠ ·.1))
    (opened : ∀ entry ∈ entries, r.buffers[entry.1]? = some entry.2) :
    r.Closes (entries.foldl closeNext (r, events)).1 (entries.map Prod.fst) := by
  induction entries generalizing r events with
  | nil => exact ⟨h, fun _ => rfl, fun _ => .rfl, fun _ => rfl⟩
  | cons entry entries ih =>
    obtain ⟨apart, distinct⟩ := List.pairwise_cons.1 distinct
    have first := closes_close h (opened entry List.mem_cons_self)
    have left : ∀ next ∈ entries, (r.close entry.1 entry.2).1.buffers[next.1]? = some next.2 := by
      intro next mem
      rw [first.buffers, if_neg (mt List.mem_singleton.1 (Ne.symm (apart next mem)))]
      exact opened next (List.mem_cons_of_mem _ mem)
    have rest := ih first.sound (events ++ (r.close entry.1 entry.2).2) distinct left
    refine ⟨rest.sound, fun other => (rest.held other).trans (first.held other),
      fun name => (rest.files name).trans (first.files name), fun other => ?_⟩
    refine (rest.buffers other).trans ?_
    rw [first.buffers, List.map_cons]
    by_cases late : other ∈ entries.map Prod.fst
    · rw [if_pos late, if_pos (List.mem_cons_of_mem _ late)]
    · simp only [List.mem_cons, late, List.not_mem_nil, or_false, if_false]

/-- After a stop no file is open. -/
theorem closes_stop (h : r.Sound) :
    r.stop.1.Sound ∧ (∀ other, r.stop.1.held other = r.held other) ∧
      (∀ name, name ∈ r.stop.1.directory ↔ name ∈ r.directory) ∧ r.stop.1.buffers = ∅ := by
  have distinct : r.buffers.toList.Pairwise (·.1 ≠ ·.1) :=
    Std.ExtTreeMap.distinct_keys_toList.imp fun apart same =>
      apart (Std.LawfulEqCmp.compare_eq_iff_eq.2 same)
  have closed : r.Closes r.stop.1 (r.buffers.toList.map Prod.fst) :=
    closes_foldl h [] distinct fun _ mem => Std.ExtTreeMap.mem_toList_iff_getElem?_eq_some.1 mem
  refine ⟨closed.sound, closed.held, closed.files, Std.ExtTreeMap.ext_getElem? fun other => ?_⟩
  rw [closed.buffers, Std.ExtTreeMap.getElem?_empty]
  split
  · rfl
  · rename_i unlisted
    rw [Std.ExtTreeMap.map_fst_toList_eq_keys, Std.ExtTreeMap.mem_keys] at unlisted
    exact Std.ExtTreeMap.getElem?_eq_none unlisted

/-! ## Calls -/

/-- What a recorder is told to do. -/
inductive Call where
  | write (id : SensorId) (frame : Frame)
  | stop

/-- Takes in one call. -/
def step (r : Recorder) : Call → Recorder
  | .write id frame => (r.write id frame).1
  | .stop => r.stop.1

/-- Takes in calls one after the other. -/
def after (r : Recorder) (calls : List Call) : Recorder := calls.foldl step r

/-- The frame that a call writes for a sensor. -/
def Call.frameOf? (id : SensorId) : Call → Option Frame
  | .write other frame => if other = id then some frame else none
  | .stop => none

/-- The frames that are written for a sensor, in order. -/
def written (id : SensorId) (calls : List Call) : List Frame := calls.filterMap (Call.frameOf? id)

/-- What the frames of a sensor have to record, in the order in which they were written. Frames without
samples have nothing. -/
def given (id : SensorId) (calls : List Call) : List Bytes :=
  (written id calls).filterMap Frame.samples?

theorem given_write (id other : SensorId) (frame : Frame) (calls : List Call) :
    given other (calls ++ [.write id frame]) =
      given other calls ++ if id = other then frame.samples?.toList else [] := by
  rw [given, written, List.filterMap_append, List.filterMap_append]
  congr 1
  by_cases own : id = other
  · cases samples : frame.samples? <;> simp [Call.frameOf?, own, samples]
  · simp [Call.frameOf?, own]

theorem given_stop (id : SensorId) (calls : List Call) :
    given id (calls ++ [.stop]) = given id calls := by
  rw [given, written, List.filterMap_append, List.filterMap_append]
  exact List.append_nil _

/-- A frame without samples is refused for its lack of a segment, and nothing else happens. -/
theorem write_of_none (r : Recorder) (id : SensorId) {frame : Frame} (none : frame.samples? = none) :
    r.write id frame = (r, [], .error (.rejected "missing Arc segment")) := by
  rw [write, none]
  rfl

/-- A file is there for its sensor from the first frame with samples on. -/
theorem write_of_samples (h : r.Sound) (id : SensorId) {frame : Frame}
    (samples : frame.samples? = some data) :
    (r.write id frame).2.2 = .ok () ∧ (r.write id frame).1.Sound ∧
      (∀ other, (r.write id frame).1.held other = r.held other ++ if id = other then data else []) ∧
      ∀ name, name ∈ (r.write id frame).1.directory ↔ name = fileName id ∨ name ∈ r.directory := by
  unfold write
  rw [samples]
  cases opened : r.buffers[id]? with
  | some buffer =>
    obtain ⟨r', appended, grown⟩ := extends_append h opened data
    dsimp only
    rw [appended]
    refine ⟨rfl, h.extends grown, grown.held, fun name => ?_⟩
    rw [grown.files, or_iff_right_of_imp]
    rintro rfl
    exact h.exist id (mem_of_lookup opened)
  | none =>
    obtain ⟨r', appended, grown⟩ := extends_append (sound_openFile h id)
      Std.ExtTreeMap.getElem?_insert_self data
    dsimp only
    rw [appended]
    refine ⟨rfl, (sound_openFile h id).extends grown, fun other => ?_, fun name => ?_⟩
    · rw [grown.held, held_openFile opened]
    · rw [grown.files, mem_openFile]

/-- A recorder after some calls. It holds what it has been given, and the files of the sensors that it
has been given anything of. -/
structure Records (r : Recorder) (calls : List Call) : Prop where
  sound : r.Sound
  held : ∀ id, r.held id = (given id calls).flatten
  files : ∀ name, name ∈ r.directory ↔ ∃ id, name = fileName id ∧ given id calls ≠ []

variable {calls : List Call}

theorem records_empty : ({} : Recorder).Records [] where
  sound := ⟨fun _ => by rw [storage, Std.ExtTreeMap.getElem?_empty]; nofun, fun _ mem => by
    simp at mem⟩
  held id := by
    rw [Recorder.held, storage, Std.ExtTreeMap.getElem?_empty, Std.ExtTreeMap.getElem?_empty]
    rfl
  files name := by simp [given, written]

namespace Records

theorem write (h : r.Records calls) (id : SensorId) (frame : Frame) :
    (r.write id frame).1.Records (calls ++ [.write id frame]) := by
  cases samples : frame.samples? with
  | none =>
    have same (other : SensorId) : given other (calls ++ [.write id frame]) = given other calls := by
      rw [given_write, samples, Option.toList_none, ite_self, List.append_nil]
    rw [write_of_none r id samples]
    refine ⟨h.sound, fun other => ?_, fun name => ?_⟩
    · rw [same, h.held]
    · simp only [same]
      exact h.files name
  | some data =>
    have more (other : SensorId) : given other (calls ++ [.write id frame]) =
        given other calls ++ if id = other then [data] else [] := by
      rw [given_write, samples, Option.toList_some]
    obtain ⟨-, sound, held, files⟩ := write_of_samples h.sound id samples
    refine ⟨sound, fun other => ?_, fun name => ?_⟩
    · rw [held, h.held, more, List.flatten_append]
      split
      · rw [List.flatten_singleton]
      · rfl
    · rw [files, h.files]
      simp only [more]
      constructor
      · rintro (rfl | ⟨other, rfl, some⟩)
        · exact ⟨id, rfl, by simp⟩
        · exact ⟨other, rfl, List.append_ne_nil_of_left_ne_nil some _⟩
      · rintro ⟨other, rfl, some⟩
        by_cases own : id = other
        · exact .inl (congrArg fileName own.symm)
        · rw [if_neg own, List.append_nil] at some
          exact .inr ⟨other, rfl, some⟩

theorem stop (h : r.Records calls) : r.stop.1.Records (calls ++ [.stop]) := by
  obtain ⟨sound, held, files, -⟩ := closes_stop h.sound
  refine ⟨sound, fun id => ?_, fun name => ?_⟩
  · rw [held, h.held, given_stop]
  · rw [files, h.files]
    simp only [given_stop]

theorem step (h : r.Records calls) (call : Call) : (r.step call).Records (calls ++ [call]) := by
  cases call with
  | write id frame => exact h.write id frame
  | stop => exact h.stop

/-- With no file open, all that is held of a sensor is in its file. -/
theorem content (h : r.Records calls) (closed : r.buffers = ∅) (id : SensorId) :
    r.directory[fileName id]?.map Storage.content =
      if given id calls = [] then none else some (given id calls).flatten := by
  have held := h.held id
  rw [Recorder.held, closed, Std.ExtTreeMap.getElem?_empty, Option.getD_none, List.append_nil,
    storage] at held
  have exist : fileName id ∈ r.directory ↔ given id calls ≠ [] := by
    rw [h.files]
    constructor
    · rintro ⟨other, same, some⟩
      rwa [fileName_injective same]
    · exact fun some => ⟨id, rfl, some⟩
  rw [Std.ExtTreeMap.mem_iff_isSome_getElem?] at exist
  cases found : r.directory[fileName id]? with
  | none =>
    rw [found] at exist
    rw [if_pos (not_not.1 (mt exist.2 nofun))]
    rfl
  | some stored =>
    rw [found] at exist held
    rw [if_neg (exist.1 rfl), ← held]
    rfl

end Records

theorem records_after (calls : List Call) : (({} : Recorder).after calls).Records calls := by
  induction calls using List.reverseRecOn with
  | nil => exact records_empty
  | append_singleton calls call ih =>
    rw [after, List.foldl_append]
    exact ih.step call

theorem buffers_after_stop (calls : List Call) :
    (({} : Recorder).after (calls ++ [.stop])).buffers = ∅ := by
  have last : ({} : Recorder).after (calls ++ [.stop]) = (({} : Recorder).after calls).stop.1 :=
    List.foldl_append
  rw [last]
  exact (closes_stop (records_after calls).sound).2.2.2

theorem content_after_stop (calls : List Call) (id : SensorId) :
    (({} : Recorder).after (calls ++ [.stop])).directory[fileName id]?.map Storage.content =
      if given id calls = [] then none else some (given id calls).flatten := by
  rw [(records_after _).content (buffers_after_stop calls), given_stop]

/-- After any calls and a stop, each sensor has a file of its own as soon as it has been given
samples, and the file holds all of them in the order in which they came. A frame is refused exactly when
it has no acoustic segment or the first one has no room for a rate, and then nothing has changed. -/
theorem recordings_exact (calls : List Call) :
    let r := ({} : Recorder).after calls
    let stopped := ({} : Recorder).after (calls ++ [.stop])
    (∀ id, stopped.directory[fileName id]?.map Storage.content =
      if given id calls = [] then none else some (given id calls).flatten) ∧
    (∀ name ∈ stopped.directory, ∃ id, name = fileName id) ∧ stopped.buffers = ∅ ∧
    (∀ id frame, (r.write id frame).2.2 = .ok () ↔
      ∃ arc, frame.segment? .arc = some arc ∧ 4 ≤ arc.body.length) ∧
    (∀ id frame, (∀ arc, frame.segment? .arc = some arc → arc.body.length < 4) →
      r.write id frame = (r, [], .error (.rejected "missing Arc segment"))) ∧
    Function.Injective fileName := by
  intro r stopped
  have records : r.Records calls := records_after calls
  refine ⟨content_after_stop calls, fun name mem => ?named, buffers_after_stop calls,
    fun id frame => ?accepted, fun id frame short => ?refused, fileName_injective⟩
  case named =>
    obtain ⟨id, own, -⟩ := ((records_after _).files name).1 mem
    exact ⟨id, own⟩
  case accepted =>
    rw [← frame.samples?_isSome]
    cases samples : frame.samples? with
    | none =>
      rw [write_of_none r id samples]
      exact iff_of_false nofun nofun
    | some data => exact iff_of_true (write_of_samples records.sound id samples).1 rfl
  case refused =>
    apply write_of_none
    rw [← Option.not_isSome_iff_eq_none, frame.samples?_isSome]
    rintro ⟨arc, found, long⟩
    exact Nat.not_lt.2 long (short arc found)

/-- A frame of one acoustic segment, as it is decoded. -/
def acoustic (id : Nat) (body : Bytes) : Frame :=
  let draft : Frame.Draft := { sensor := .ofNat id, sequence := 1, segments := [⟨.arc, body⟩] }
  { sequence := 1, hardware := draft.hardware, firmware := draft.firmware, sensor := draft.sensor
    model := draft.model, flags := draft.flags, segments := draft.segments, raw := draft.encode }

/-- A file that is closed and opened again between two frames, and a frame that is too short. -/
theorem recordings_exact_reopened :
    let short := acoustic 1 [0, 0]
    let calls : List Call :=
      [.write (.ofNat 1) (acoustic 1 [0, 0, 62, 128, 1, 2]),
        .write (.ofNat 2) (acoustic 2 [0, 0, 62, 128, 9, 9]), .stop, .write (.ofNat 1) short,
        .write (.ofNat 1) (acoustic 1 [0, 0, 62, 128, 3, 4])]
    let r := ({} : Recorder).after calls
    (({} : Recorder).after (calls ++ [.stop])).directory[fileName (.ofNat 1)]?.map Storage.content =
      some [1, 2, 3, 4] ∧
    r.write (.ofNat 1) short = (r, [], .error (.rejected "missing Arc segment")) := by
  intro short calls r
  obtain ⟨content, -, -, -, refused, -⟩ := recordings_exact calls
  refine ⟨(content (.ofNat 1)).trans (by decide), refused (.ofNat 1) short ?_⟩
  rintro arc ⟨⟩
  decide

end Recorder

end SensorIngest
