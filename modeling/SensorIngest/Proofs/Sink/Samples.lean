import Mathlib.Data.List.Induction
import SensorIngest.Proofs.Lane.Sinks
import SensorIngest.Proofs.Sink.Recorder
import SensorIngest.Sink.Builtin

/-!
# Samples of a recording

A clock is advanced for the whole samples of a frame (`Frame.sampleCount`), while all octets behind the
rate are recorded (`Frame.pcm`). The two agree for frames of whole samples, as sensors encode them
(`Frame.pcm_of_acoustic`). A frame with an odd number of octets is torn: its last octet is recorded too,
and shifts whatever comes behind it by an octet (`Recorder.recordings_torn`).
-/

namespace SensorIngest

/-! ## Sixteen-bit samples -/

namespace Bytes

/-- The samples that octets spell, least significant octet first. An odd last one spells none. -/
def samples : Bytes → List Int
  | low :: high :: rest => Int.bmod (low.toNat + 256 * high.toNat) 65536 :: samples rest
  | [] | [_] => []

theorem length_samples (bytes : Bytes) : (samples bytes).length = bytes.length / 2 := by
  induction bytes using samples.induct with
  | case1 low high rest ih =>
    rw [samples, List.length_cons, ih, List.length_cons, List.length_cons]
    omega
  | case2 | case3 => simp [samples]

theorem samples_append {front : Bytes} (whole : front.length % 2 = 0) (rest : Bytes) :
    samples (front ++ rest) = samples front ++ samples rest := by
  induction front using samples.induct with
  | case1 low high more ih =>
    rw [List.length_cons, List.length_cons, Nat.add_assoc, Nat.add_mod_right] at whole
    rw [List.cons_append, List.cons_append, samples, samples, ih whole, List.cons_append]
  | case2 => rfl
  | case3 => cases whole

/-- What was written as a sample is read as the same one. -/
theorem samples_ofSample {sample : Int} (low : -32768 ≤ sample) (high : sample < 32768)
    (rest : Bytes) : samples (ofSample sample ++ rest) = sample :: samples rest := by
  have spelled : Int.bmod
      ((UInt8.ofNat (sample % 65536).toNat).toNat +
        256 * (UInt8.ofNat ((sample % 65536).toNat / 256)).toNat) 65536 = sample := by
    rw [UInt8.toNat_ofNat', UInt8.toNat_ofNat', Int.bmod]
    omega
  unfold ofSample
  rw [List.cons_append, List.cons_append, List.nil_append, samples, spelled]

theorem samples_flatMap_ofSample {values : List Int}
    (fit : ∀ value ∈ values, -32768 ≤ value ∧ value < 32768) :
    samples (values.flatMap ofSample) = values := by
  induction values with
  | nil => rfl
  | cons value values ih =>
    obtain ⟨⟨low, high⟩, others⟩ := List.forall_mem_cons.1 fit
    rw [List.flatMap_cons, samples_ofSample low high, ih others]

end Bytes

/-! ## Samples of a frame -/

namespace Frame

variable {frame : Frame} {span : Span}

/-- The first acoustic segment of a frame can be used. -/
def Timed (frame : Frame) : Prop := ∃ span, frame.span = .ok span

/-- The samples that a clock is advanced for. -/
def sampleCount (frame : Frame) : Nat := frame.span.toOption.elim 0 (·.samples)

/-- The octets that are recorded. -/
def pcm (frame : Frame) : Bytes := frame.samples?.getD []

/-- The last octet that is recorded is half of a sample. -/
def isTorn (frame : Frame) : Bool := frame.pcm.length % 2 = 1

/-- The clock and the recording go by the same octets. -/
theorem samples?_of_span (ok : frame.span = .ok span) :
    ∃ pcm, frame.samples? = some pcm ∧ span = .of span.rate (pcm.length / 2) := by
  unfold Frame.span at ok
  unfold samples?
  cases found : frame.segment? .arc with
  | none =>
    rw [found] at ok
    cases ok
  | some arc =>
    obtain ⟨kind, body⟩ := arc
    rw [found] at ok
    match body with
    | [] | [_] | [_, _] | [_, _, _] => cases ok
    | r₃ :: r₂ :: r₁ :: r₀ :: pcm =>
      refine ⟨pcm, rfl, ?_⟩
      dsimp only [Span.ofBody] at ok
      split at ok
      · cases ok
      · cases ok
        rfl

theorem sampleCount_of_span (ok : frame.span = .ok span) : frame.sampleCount = span.samples := by
  rw [sampleCount, ok]
  rfl

theorem Timed.samples?_eq (timed : frame.Timed) : frame.samples? = some frame.pcm := by
  obtain ⟨span, ok⟩ := timed
  obtain ⟨pcm, samples, -⟩ := samples?_of_span ok
  rw [Frame.pcm, samples]
  rfl

theorem Timed.length_pcm (timed : frame.Timed) :
    frame.pcm.length = 2 * frame.sampleCount + if frame.isTorn then 1 else 0 := by
  obtain ⟨span, ok⟩ := timed
  obtain ⟨pcm, samples, whole⟩ := samples?_of_span ok
  have count : frame.sampleCount = pcm.length / 2 := by
    rw [sampleCount_of_span ok, whole]
    rfl
  have octets : frame.pcm = pcm := by
    rw [Frame.pcm, samples]
    rfl
  rw [count, isTorn, octets]
  simp only [decide_eq_true_eq]
  split <;> omega

/-- Samples are recorded as their sensor encoded them. -/
theorem pcm_of_acoustic {rate : Nat} {values : List Int}
    (found : frame.segment? .arc = some (.acoustic rate values))
    (fit : ∀ value ∈ values, -32768 ≤ value ∧ value < 32768) :
    frame.pcm.samples = values ∧ frame.isTorn = false := by
  have octets : frame.pcm = values.flatMap Bytes.ofSample := by
    have long : 4 ≤ (Segment.acoustic rate values).body.length := by
      rw [Segment.acoustic, List.length_append, Bytes.length_ofNat]
      exact Nat.le_add_right _ _
    rw [pcm, samples?_eq, found, Option.filter_some, if_pos (decide_eq_true long)]
    exact List.drop_left' (Bytes.length_ofNat 4 rate)
  have even : frame.pcm.length = values.length * 2 := by
    rw [octets, List.length_flatMap]
    simp [Bytes.ofSample]
  refine ⟨?_, ?_⟩
  · rw [octets, Bytes.samples_flatMap_ofSample fit]
  · rw [isTorn, even, Nat.mul_mod_left]
    rfl

theorem length_flatMap_pcm {frames : List Frame} (timed : ∀ frame ∈ frames, frame.Timed) :
    (frames.flatMap pcm).length = 2 * (frames.map sampleCount).sum + frames.countP isTorn := by
  induction frames with
  | nil => rfl
  | cons frame frames ih =>
    obtain ⟨first, others⟩ := List.forall_mem_cons.1 timed
    rw [List.flatMap_cons, List.length_append, first.length_pcm, ih others, List.map_cons,
      List.sum_cons, List.countP_cons]
    omega

/-- Frames of whole samples are recorded sample by sample. -/
theorem samples_flatMap_pcm {frames : List Frame} (whole : ∀ frame ∈ frames, frame.isTorn = false) :
    Bytes.samples (frames.flatMap pcm) = frames.flatMap (·.pcm.samples) := by
  induction frames with
  | nil => rfl
  | cons frame frames ih =>
    obtain ⟨first, others⟩ := List.forall_mem_cons.1 whole
    have even : frame.pcm.length % 2 = 0 := by
      have odd : ¬frame.pcm.length % 2 = 1 := of_decide_eq_false first
      omega
    rw [List.flatMap_cons, List.flatMap_cons, Bytes.samples_append even, ih others]

end Frame

/-! ## What is recorded of a lane's work -/

/-- The call of a recorder that a delivery is. -/
def Delivery.write? : Delivery → Option Recorder.Call
  | file id frame => some (.write id frame)
  | proxy .. | broadcast .. | grpc .. | presence _ => none

/-- The call of a recorder that an item leads to. -/
def Lane.Item.write? : Lane.Item → Option Recorder.Call
  | packet p => p.usable?.map (.write p.sensor)
  | forget _ => none

theorem Package.decode_of_usable? {p : Package} {frame : Frame} (usable : p.usable? = some frame) :
    Frame.decode p.frame = .ok frame ∧ frame.Timed := by
  unfold usable? at usable
  cases decoded : Frame.decode p.frame with
  | error reason =>
    rw [decoded] at usable
    cases usable
  | ok other =>
    rw [decoded] at usable
    dsimp only at usable
    cases ok : other.span with
    | error reason =>
      rw [ok] at usable
      cases usable
    | ok span =>
      rw [ok] at usable
      cases usable
      exact ⟨rfl, span, ok⟩

namespace Builtin

open Lane (Scene Effect)

variable {b : Builtin} {r : Recorder} {s : Scene Builtin}

theorem answer_recorder (recorder : b.recorder = some r) (d : Delivery) :
    (b.answer d).1.recorder = some (r.after d.write?.toList) ∧ (b.answer d).2.2 ≠ .crashed := by
  cases d with
  | file id frame =>
    unfold answer
    simp only [recorder]
    refine ⟨rfl, ?_⟩
    cases (r.write id frame).2.2 <;> nofun
  | proxy id raw =>
    unfold answer
    cases b.forwarder with
    | none => exact ⟨recorder, nofun⟩
    | some forwarder =>
      refine ⟨recorder, ?_⟩
      dsimp only
      cases (forwarder.write b.parentReachable id raw).2 <;> nofun
  | presence id =>
    unfold answer
    cases b.presence <;> exact ⟨recorder, nofun⟩
  | broadcast | grpc => exact ⟨recorder, nofun⟩

/-- The built-in sinks are running, with this recorder. -/
structure Recording (s : Scene Builtin) (r : Recorder) : Prop where
  alive : s.crashed = false
  recorder : s.outlets.recorder = some r

theorem Recording.performOne (h : Recording s r) (e : Effect) :
    Recording (s.performOne outlets e)
      (r.after ((Effect.deliveries [e]).filterMap Delivery.write?)) := by
  cases e with
  | count | move | log => exact ⟨h.alive, h.recorder⟩
  | deliver d =>
    obtain ⟨recorder, alive⟩ := answer_recorder h.recorder d
    have calls : (Effect.deliveries [.deliver d]).filterMap Delivery.write? = d.write?.toList := by
      cases d <;> rfl
    rw [calls, Scene.performOne, Scene.deliver]
    simp only [outlets]
    cases answered : (s.outlets.answer d).2.2 with
    | crashed => exact absurd answered alive
    | done => exact ⟨h.alive, recorder⟩
    | failed => exact ⟨h.alive, recorder⟩

theorem Recording.perform (h : Recording s r) (effects : List Effect) :
    Recording (s.perform outlets effects)
      (r.after ((Effect.deliveries effects).filterMap Delivery.write?)) := by
  induction effects generalizing s r with
  | nil => exact h
  | cons e rest ih =>
    have one := h.performOne e
    have split : Effect.deliveries (e :: rest) = Effect.deliveries [e] ++ Effect.deliveries rest :=
      Effect.deliveries_append [e] rest
    rw [Scene.perform, split, List.filterMap_append, Recorder.after, List.foldl_append]
    simp only [one.alive, Bool.false_eq_true, if_false]
    exact ih one

theorem Recording.serve (h : Recording s r) (w : Lane.Worker) (items : List Lane.Item) :
    Recording (w.serve outlets s items).2
      (r.after ((items.flatMap w.settings.callsFor).filterMap Delivery.write?)) := by
  induction items generalizing w s r with
  | nil => exact h
  | cons item rest ih =>
    have fresh : { s with crashed := false } = s := by rw [← h.alive]
    have one := h.perform (w.handle item).2
    rw [w.deliveries_handle] at one
    have others := ih one (w.handle item).1
    rw [w.settings_handle] at others
    rw [Lane.Worker.serve, fresh, List.flatMap_cons, List.filterMap_append, Recorder.after,
      List.foldl_append]
    simp only [one.alive, Bool.false_eq_true, if_false]
    exact others

end Builtin

/-- With a recorder present, the frames that can be used are written to it, and nothing else is. -/
theorem Lane.Settings.writes_callsFor (s : Lane.Settings) (file : s.sinks.file = true)
    (items : List Lane.Item) :
    (items.flatMap s.callsFor).filterMap Delivery.write? = items.filterMap Lane.Item.write? := by
  have present (d : Delivery) : (if s.sinks.has d.sink then d.write? else none) = d.write? := by
    cases d with
    | file => exact if_pos file
    | _ => exact ite_self _
  induction items with
  | nil => rfl
  | cons item rest ih =>
    have one : (s.callsFor item).filterMap Delivery.write? = item.write?.toList := by
      cases item with
      | forget id => rfl
      | packet p =>
        rw [callsFor, calls, List.filterMap_filter]
        simp only [present, Item.write?]
        unfold early late
        cases s.proxyAligned <;> cases p.usable? <;> rfl
    rw [List.flatMap_cons, List.filterMap_append, one, ih]
    cases written : item.write? with
    | none => exact (List.filterMap_cons_none written).symm
    | some call => exact (List.filterMap_cons_some written).symm

namespace Recorder

variable {calls : List Call} {id : SensorId}

/-- All frames that are written have acoustic segments that can be used. -/
def AllTimed (calls : List Call) : Prop := ∀ id frame, .write id frame ∈ calls → frame.Timed

theorem timed_of_mem_written (timed : AllTimed calls) {frame : Frame}
    (mem : frame ∈ written id calls) : frame.Timed := by
  obtain ⟨call, mem, own⟩ := List.mem_filterMap.1 mem
  cases call with
  | stop => cases own
  | write other frame' =>
    by_cases same : other = id
    · rw [Call.frameOf?, if_pos same] at own
      cases own
      exact timed other frame mem
    · rw [Call.frameOf?, if_neg same] at own
      cases own

theorem given_eq (timed : AllTimed calls) (id : SensorId) :
    given id calls = (written id calls).map Frame.pcm := by
  unfold given
  rw [← List.filterMap_eq_map]
  exact List.filterMap_congr fun frame mem => (timed_of_mem_written timed mem).samples?_eq

/-- The clock and the recording go by the same octets of each frame, but the clock by whole samples.
After frames with usable acoustic segments, interleaved with other sensors' and with stops in any way,
and a last stop, the file of a sensor holds two octets for each sample that the clock was advanced for
and one more for each torn frame. Each frame starts at an even offset or at an odd one by the number of
torn frames before it. Where no frame is torn the file is a sequence of samples, those of the frames in
order. A lane whose recorder is present writes the frames that can be used, which are those that advance
a clock. -/
theorem recordings_torn (calls : List Call) (timed : AllTimed calls) (id : SensorId) :
    let frames := written id calls
    let content := frames.flatMap Frame.pcm
    let count := (frames.map Frame.sampleCount).sum
    (∀ (frame : Frame) span, frame.span = .ok span → ∃ pcm, frame.samples? = some pcm ∧
      span = .of span.rate (pcm.length / 2) ∧ (pcm.length = 2 * span.samples ↔ pcm.length % 2 = 0)) ∧
    ((({} : Recorder).after (calls ++ [.stop])).directory[fileName id]?.map Storage.content =
      if frames = [] then none else some content) ∧
    content.length = 2 * count + frames.countP Frame.isTorn ∧
    (content.length = 2 * count ↔ ∀ frame ∈ frames, frame.isTorn = false) ∧
    (∀ before frame later, frames = before ++ frame :: later →
      content = before.flatMap Frame.pcm ++ frame.pcm ++ later.flatMap Frame.pcm ∧
        (before.flatMap Frame.pcm).length % 2 = before.countP Frame.isTorn % 2) ∧
    ((∀ frame ∈ frames, frame.isTorn = false) →
      Bytes.samples content = frames.flatMap (·.pcm.samples) ∧
        (Bytes.samples content).length = count) ∧
    (∀ (w : Lane.Worker) (items : List Lane.Item) (s : Lane.Scene Builtin) (r : Recorder),
      w.settings.sinks.file = true → Builtin.Recording s r →
      Builtin.Recording (w.serve Builtin.outlets s items).2
          (r.after (items.filterMap Lane.Item.write?)) ∧
        AllTimed (items.filterMap Lane.Item.write?)) ∧
    ∀ (w : Lane.Worker) (p : Package) (frame : Frame), p.usable? = some frame →
      ∃ span, frame.span = .ok span ∧ span.samples = frame.sampleCount ∧
        (w.handle (.packet p)).1 = (w.place p span).1 := by
  intro frames content count
  have each (frame : Frame) (mem : frame ∈ frames) : frame.Timed := timed_of_mem_written timed mem
  have length : content.length = 2 * count + frames.countP Frame.isTorn :=
    Frame.length_flatMap_pcm each
  have noneTorn : frames.countP Frame.isTorn = 0 ↔ ∀ frame ∈ frames, frame.isTorn = false := by
    rw [List.countP_eq_zero]
    simp only [Bool.not_eq_true]
  refine ⟨fun frame span ok => ?frame, ?file, length, ?twice, fun before frame later split => ?window,
    fun whole => ?samples, fun w items s r file recording => ?lane, fun w p frame usable => ?clock⟩
  case frame =>
    obtain ⟨pcm, samples, whole⟩ := Frame.samples?_of_span ok
    refine ⟨pcm, samples, whole, ?_⟩
    rw [whole]
    dsimp only [Frame.Span.of]
    omega
  case file =>
    rw [content_after_stop, given_eq timed]
    simp only [List.map_eq_nil_iff]
    rfl
  case twice =>
    rw [← noneTorn, length]
    omega
  case window =>
    have part : ∀ other ∈ before, other.Timed := fun other mem =>
      each other (split ▸ List.mem_append_left _ mem)
    refine ⟨?_, ?_⟩
    · change frames.flatMap Frame.pcm = _
      rw [split, List.flatMap_append, List.flatMap_cons, List.append_assoc]
    · rw [Frame.length_flatMap_pcm part, Nat.mul_add_mod]
  case samples =>
    refine ⟨Frame.samples_flatMap_pcm whole, ?_⟩
    rw [Bytes.length_samples, length, noneTorn.2 whole]
    omega
  case lane =>
    refine ⟨?_, ?_⟩
    · rw [← w.settings.writes_callsFor file]
      exact recording.serve w items
    · intro id frame mem
      obtain ⟨item, -, call⟩ := List.mem_filterMap.1 mem
      cases item with
      | forget => cases call
      | packet p =>
        obtain ⟨frame', usable, same⟩ := Option.map_eq_some_iff.1 call
        cases same
        exact (Package.decode_of_usable? usable).2
  case clock =>
    obtain ⟨decoded, span, ok⟩ := Package.decode_of_usable? usable
    refine ⟨span, ok, (Frame.sampleCount_of_span ok).symm, ?_⟩
    simp only [Lane.Worker.handle, Lane.Worker.process, decoded, ok]

/-- The clock is advanced for one sample of each frame, but the second one is not recorded as it is. -/
theorem recordings_torn_shifted :
    let torn := acoustic 1 [0, 0, 62, 128, 1, 0, 0]
    let calls : List Call :=
      [.write (.ofNat 1) torn, .write (.ofNat 1) (acoustic 1 [0, 0, 62, 128, 2, 0])]
    Frame.decode torn.raw = .ok torn ∧ AllTimed calls ∧
      (({} : Recorder).after (calls ++ [.stop])).directory[fileName (.ofNat 1)]?.map Storage.content =
        some [1, 0, 0, 2, 0] ∧
      (written (.ofNat 1) calls).map Frame.sampleCount = [1, 1] ∧
      (written (.ofNat 1) calls).flatMap (·.pcm.samples) = [1, 2] ∧
      Bytes.samples [1, 0, 0, 2, 0] = [1, 512] := by
  intro torn calls
  have timed : AllTimed calls := by
    intro id other mem
    rcases List.mem_cons.1 mem with first | rest
    · cases first
      exact ⟨.of 16000 1, by decide⟩
    · cases List.mem_singleton.1 rest
      exact ⟨.of 16000 1, by decide⟩
  obtain ⟨-, file, -⟩ := recordings_torn calls timed (.ofNat 1)
  exact ⟨by decide +kernel, timed, file.trans (by decide), by decide, by decide, by decide⟩

end Recorder

end SensorIngest
