import SensorIngest.Proofs.Frame.RoundTrip
import SensorIngest.Proofs.Intake.Traffic
import SensorIngest.Proofs.Lane.Schedule

/-!
# From drafts to sinks

A connection carries frames of any sensors between junk (`Transmission`). The stream gives each
frame back (`Transmission.heard`), so the receive path hands the frames of every sensor on in order
(`handed`), and whatever the lanes are and whenever they work, the sinks that are called with
packets placed in time get just these frames (`Transmission.delivered_end_to_end`).
-/

namespace SensorIngest

open SensorIngest.Frame (Draft Harmless Header isVerdict judge mixed Stream)
open SensorIngest.Frame.Stream (fed)
open Intake (Effect Input)
open Lane (Item Move Outlets Plant Router Settings)
open scoped List

/-- Frames of one sensor in order: numbered from `s` on, and within the bounds of a backlog. -/
structure Numbered (s : Nat) (ds : List Draft) : Prop where
  pos : 0 < s
  sequences : ds.map (·.sequence) = List.range' s ds.length
  last : s + ds.length < 18446744073709551616
  count : ds.length ≤ 10000
  bytes : (ds.flatMap Draft.encode).length < 2097152

theorem Numbered.last_sequence {s : Nat} {ds : List Draft} (h : Numbered s ds) (some_ : ds ≠ []) :
    ds.getLast?.map (·.sequence) = some (s + ds.length - 1) := by
  have pos : ds.length ≠ 0 := mt List.length_eq_zero_iff.1 some_
  rw [← List.getLast?_map, h.sequences, List.getLast?_range', if_neg pos]

/-- Junk, and then frames with the junk behind each of them. Those of each sensor are `frames` in
any order, the one with the lowest sequence first. -/
structure Transmission (junk : Bytes) (parts : List (Draft × Bytes)) (first : SensorId → Nat)
    (frames : SensorId → List Draft) : Prop where
  clean : ∀ j ∈ junk :: parts.map Prod.snd, Harmless j
  acoustic : ∀ p ∈ parts, p.1.Acoustic
  responds : ∀ p ∈ parts, p.1.flags.response = true
  shuffled : ∀ id, (parts.map Prod.fst).filter (·.sensor = id) ~ frames id
  lowest : ∀ id, ((parts.map Prod.fst).filter (·.sensor = id)).head? = (frames id).head?
  numbered : ∀ id, Numbered (first id) (frames id)

/-! ## From bytes to arrivals -/

/-- What is known of a frame when its header has been read. -/
def Arrival.written (a : Arrival) : Header × Bytes := (a.header, a.raw)

def Frame.Draft.written (d : Draft) : Header × Bytes := (d.header, d.encode)

namespace Intake

/-- What a result of a stream is to the receive path. -/
def Input.ofResult (peer : Endpoint) : Except Frame.Error Bytes → Input
  | .ok raw => .frame peer raw
  | .error reason => .malformed peer reason

/-- What an input brings to a session, whenever it comes. -/
def Input.written? (input : Input) : Option (Header × Bytes) :=
  (input.counted? 0).map Arrival.written

theorem Input.written?_eq (now : Micros) (input : Input) :
    (input.counted? now).map Arrival.written = input.written? := by
  cases input with
  | opened | closed | malformed | tick => rfl
  | frame peer raw =>
    unfold Input.written? Input.counted?
    cases read : Header.read raw with
    | ok header =>
      rw [Arrival.of?_frame now peer read, Arrival.of?_frame 0 peer read]
      have alike : Arrival.isNoise ⟨now, peer, raw, header, read⟩ =
        Arrival.isNoise ⟨0, peer, raw, header, read⟩ := rfl
      rw [Option.filter_some, Option.filter_some, alike]
      cases Arrival.isNoise ⟨0, peer, raw, header, read⟩ <;> rfl
    | error reason =>
      have none (now : Micros) : Arrival.of? now (.frame peer raw) = none := by
        refine Option.eq_none_iff_forall_ne_some.2 fun a found => ?_
        obtain ⟨-, same⟩ := Arrival.of?_eq_some found
        cases same
        cases read.symm.trans a.read
      rw [none, none]

theorem written_counted (inputs : List (Micros × Input)) :
    (counted inputs).map Arrival.written = (inputs.map Prod.snd).filterMap Input.written? := by
  rw [counted, List.map_filterMap, List.filterMap_map]
  exact List.filterMap_congr fun x _ => Input.written?_eq x.1 x.2

theorem written_results (peer : Endpoint) (results : List (Except Frame.Error Bytes)) :
    (results.map (Input.ofResult peer)).filterMap Input.written? =
      (results.filter isVerdict).filterMap fun r => (Input.ofResult peer r).written? := by
  rw [List.filterMap_map, List.filterMap_filter]
  refine List.filterMap_congr fun r _ => ?_
  cases r with
  | ok raw => rfl
  | error reason => exact (ite_self (c := isVerdict (.error reason) = true) none).symm

theorem Input.written?_encode (peer : Endpoint) {d : Draft} (responds : d.flags.response = true) :
    (Input.ofResult peer (.ok d.encode)).written? = some d.written := by
  have read := d.read_encode []
  rw [List.append_nil] at read
  rw [Input.written?, Input.ofResult, Input.counted?, Arrival.of?_frame 0 peer read]
  have real : d.header.flags.response = true := responds
  simp [Arrival.isNoise, Arrival.responds, real, Arrival.written, Draft.written]

end Intake

/-! ## Through the receive path -/

/-- The inputs bring these frames to sessions, one after the other and soon enough, and no
connection closes. -/
structure Heard (ds : List Draft) (inputs : List (Micros × Input)) : Prop where
  written : (Intake.counted inputs).map Arrival.written = ds.map Draft.written
  lasting : Intake.Lasting inputs
  window : ∃ start, ∀ x ∈ inputs, x.2.isFrame = true → start ≤ x.1 ∧ x.1 ≤ start + 20000000

variable {ds : List Draft} {inputs : List (Micros × Input)} {id : SensorId}

theorem Heard.written_ofSensor (h : Heard ds inputs) (id : SensorId) :
    (Arrival.ofSensor id inputs).map Arrival.written =
      (ds.filter (·.sensor = id)).map Draft.written := by
  have own := congrArg (List.filter (·.1.sensor = id)) h.written
  rw [List.filter_map, List.filter_map] at own
  rw [← Intake.Lasting.filter_counted]
  exact own

namespace Transmission

variable {junk : Bytes} {parts : List (Draft × Bytes)} {first : SensorId → Nat}
  {frames : SensorId → List Draft}

/-- Each frame reaches a session as it was written. -/
theorem heard (h : Transmission junk parts first frames) {ops : List Stream.Op}
    (arrive : fed ops = mixed junk (parts.map fun p => (p.1.encode, p.2))) {peer : Endpoint}
    (taken : inputs.map Prod.snd =
      (({ verifying := true } : Stream).performAll ops).1.map (Input.ofResult peer))
    (window : ∃ start, ∀ x ∈ inputs, x.2.isFrame = true → start ≤ x.1 ∧ x.1 ≤ start + 20000000) :
    Heard (parts.map Prod.fst) inputs := by
  have framed : ∀ p ∈ parts.map fun p => (p.1.encode, p.2), Frame.IsFrame p.1 := by
    rw [List.forall_mem_map]
    exact fun p mem => Draft.isFrame_encode (h.acoustic p mem).fits
  have clean := h.clean
  have judged := (Frame.verdicts_mixed true framed (by rwa [List.map_map])).1
  have verdicts := Stream.performAll_verdicts { verifying := true } ops
  rw [arrive] at verdicts
  have given := (congrArg Prod.fst verdicts).trans judged
  dsimp only at given
  refine ⟨?_, fun x mem closing same => ?_, window⟩
  · rw [Intake.written_counted, taken, Intake.written_results, given, List.map_map,
      List.filterMap_map, List.map_map, ← List.filterMap_eq_map]
    refine List.filterMap_congr fun p mem => ?_
    simp only [Function.comp_apply, Draft.judge_encode]
    exact Input.written?_encode peer (h.responds p mem)
  · have there := List.mem_map_of_mem (f := Prod.snd) mem
    rw [taken, same, List.mem_map] at there
    obtain ⟨r, -, closed⟩ := there
    cases r <;> cases closed

theorem mem_parts (h : Transmission junk parts first frames) {d : Draft} (mem : d ∈ frames id) :
    d ∈ parts.map Prod.fst :=
  List.mem_of_mem_filter ((h.shuffled id).mem_iff.2 mem)

theorem sequence_header (h : Transmission junk parts first frames) {d : Draft}
    (mem : d ∈ frames id) : d.header.sequence = d.sequence := by
  have inside := List.mem_map_of_mem (f := (·.sequence)) mem
  have last := (h.numbered id).last
  rw [(h.numbered id).sequences, List.mem_range'_1] at inside
  exact Nat.mod_eq_of_lt (by omega)

theorem once (h : Transmission junk parts first frames) (heard : Heard (parts.map Prod.fst) inputs)
    (id : SensorId) : Once (first id) (frames id).length (Arrival.ofSensor id inputs) := by
  have own := heard.written_ofSensor id
  have numbered := h.numbered id
  -- Headers hold the low eight bytes of a sequence, which are all of it here.
  have header : (frames id).map (·.header.sequence) =
      List.range' (first id) (frames id).length := by
    rw [← numbered.sequences]
    exact List.map_congr_left fun d mem => h.sequence_header mem
  obtain ⟨start, window⟩ := heard.window
  refine ⟨numbered.pos, numbered.last, fun a front => ?_, ?_, ⟨start, fun a mem => ?_⟩,
    numbered.count, ?_⟩
  · have heads := congrArg (fun l => l.head?.map (·.1.sequence)) own
    simp only [List.head?_map, h.lowest, front, Option.map_map] at heads
    have lowest := congrArg List.head? header
    rw [List.head?_map] at lowest
    cases eq : frames id with
    | nil => simp [eq] at heads
    | cons d rest =>
      simp only [eq, List.head?_cons, Option.map_some, Function.comp_apply, Option.some_inj,
        List.length_cons, List.range'_succ] at heads lowest
      exact heads.trans lowest
  · have sequences := congrArg (List.map (·.1.sequence)) own
    rw [List.map_map, List.map_map] at sequences
    rw [← header]
    exact (List.Perm.of_eq sequences).trans ((h.shuffled id).map _)
  · rw [Arrival.ofSensor, List.mem_filterMap] at mem
    obtain ⟨x, mem, found⟩ := mem
    obtain ⟨now, input, -, -⟩ := Arrival.for?_eq_some found
    rw [← now]
    exact window x mem (input ▸ rfl)
  · have octets := congrArg (List.flatMap Prod.snd) own
    rw [List.flatMap_map, List.flatMap_map] at octets
    rw [Backlog.frameBytes_eq_length, List.flatMap_map]
    have same := (congrArg List.length octets).trans ((h.shuffled id).flatMap_right _).length_eq
    exact same.trans_lt numbered.bytes

/-- The frames of each sensor are handed on in order. -/
theorem handed (h : Transmission junk parts first frames)
    (heard : Heard (parts.map Prod.fst) inputs) :
    let l := Ledger.after true true inputs
    (∀ id, (l.handed.filter (·.sensor = id)).map (fun p => (p.sequence, p.frame)) =
        (frames id).map fun d => (d.sequence, d.encode)) ∧
      l.readings.duplicates = 0 ∧ l.readings.forcedDrains = 0 := by
  intro l
  have once := h.once heard
  obtain ⟨contents, duplicates, drains⟩ := heard.lasting.delivered once
  refine ⟨fun id => ?_, duplicates, drains⟩
  have copies : ∀ d ∈ frames id, ((firstCopy (Arrival.ofSensor id inputs) d.sequence).map
      Arrival.content).map (fun c => (c.1, c.2.2)) = some (d.sequence, d.encode) := by
    intro d mem
    have there : d.written ∈ (Arrival.ofSensor id inputs).map Arrival.written := by
      rw [heard.written_ofSensor id]
      exact List.mem_map_of_mem ((h.shuffled id).mem_iff.2 mem)
    obtain ⟨a, mem_a, same⟩ := List.mem_map.1 there
    have sequence : a.sequence = d.sequence :=
      (congrArg (·.1.sequence) same).trans (h.sequence_header mem)
    have raw : a.raw = d.encode := congrArg Prod.snd same
    rw [← sequence, (once id).firstCopy_eq mem_a, ← raw]
    rfl
  have all := congrArg (List.map (Option.map fun c => (c.1, c.2.2))) (contents id)
  rw [← (h.numbered id).sequences, List.map_map, List.map_map, List.map_map] at all
  refine (List.map_inj_right fun _ _ => Option.some.inj).1 ?_
  rw [List.map_map, List.map_map]
  exact all.trans (List.map_congr_left copies)

/-- Every package handed on can be placed in time. -/
theorem placeable (h : Transmission junk parts first frames)
    (heard : Heard (parts.map Prod.fst) inputs) :
    ∀ p ∈ (Ledger.after true true inputs).handed, Lane.Placeable p := by
  intro p mem
  have own : p ∈ (Ledger.after true true inputs).handed.filter (·.sensor = p.sensor) :=
    List.mem_filter.2 ⟨mem, decide_eq_true rfl⟩
  have there := List.mem_map_of_mem (f := fun p : Package => (p.sequence, p.frame)) own
  rw [(h.handed heard).1 p.sensor, List.mem_map] at there
  obtain ⟨d, mem, same⟩ := there
  obtain ⟨part, sent, rfl⟩ := List.mem_map.1 (h.mem_parts mem)
  obtain ⟨frame, span, decoded, raw, spans⟩ := (h.acoustic part sent).decode
  have octets : part.1.encode = p.frame := congrArg Prod.snd same
  rw [octets] at decoded raw
  exact ⟨frame, span, decoded, raw, spans⟩

/-! ## Through the lanes -/

/-- However the bytes are cut and whenever the lanes work, the sinks that are called with packets
placed in time get the frames of each sensor in order, once each, and nothing is counted as wrong.
-/
theorem delivered_end_to_end {σ : Type} (h : Transmission junk parts first frames)
    {ops : List Stream.Op}
    (arrive : fed ops = mixed junk (parts.map fun p => (p.1.encode, p.2))) {peer : Endpoint}
    (taken : inputs.map Prod.snd =
      (({ verifying := true } : Stream).performAll ops).1.map (Input.ofResult peer))
    {start : Micros}
    (time : ∀ x ∈ inputs, x.2.isFrame = true → start ≤ x.1 ∧ x.1 ≤ start + 20000000)
    (k capacity : Nat) (settings : Settings) {o : Outlets σ} (steady : o.Steady) (outlets : σ)
    {moves : List Move} (schedule : moves.filterMap Move.effect? =
      ((Intake.new true).run {} inputs).flatMap (·.effects)) :
    ∃ router, Router.start (Nat.pow 2 k) capacity settings = .ok router ∧
      let p := (Plant.play o.recorded ⟨router, { outlets := (outlets, []) }⟩ moves).close o.recorded
      (∀ id, (∀ sink, settings.aligned sink = true →
          Delivery.raws sink (p.scene.outlets.2.filter (·.sensor = id)) =
            (frames id).map Draft.encode) ∧
        (frames id ≠ [] → (p.router.placement? id).map (·.sequence) =
          some (first id + (frames id).length - 1))) ∧
      p.scene.counters.decodeErrors = 0 ∧ p.scene.counters.missingSegments = 0 ∧
      p.scene.counters.duplicates = 0 ∧ p.scene.counters.forcedDrains = 0 := by
  let l := Ledger.after true true inputs
  have heard := h.heard arrive taken ⟨start, time⟩
  obtain ⟨handed, duplicates, drains⟩ := h.handed heard
  obtain ⟨all, readings⟩ := Ledger.foldl_step { intake := Intake.new true } inputs
  obtain ⟨router, started⟩ := Plant.start_two_pow k capacity settings
  refine ⟨router, started, ?_⟩
  intro p
  -- Nothing is forgotten, so what the moves send to the lanes are the packages handed on.
  have course := (Plant.onCourse_start started outlets).play steady rfl moves
  rw [schedule, Item.filterMap_of? (heard.lasting.forgotten (Intake.new true) {})] at course
  have sent : l.handed = Effect.packages (((Intake.new true).run {} inputs).flatMap (·.effects)) :=
    all
  rw [← sent] at course
  obtain ⟨delivered, counters⟩ := course.closed_packets steady (h.placeable heard)
  rw [← show l.readings = _ from readings] at counters
  have accounts : l.Accounts inputs := Ledger.accounts_after true true inputs
  refine ⟨fun id => ?_, ?_, ?_, ?_, ?_⟩
  · obtain ⟨sinks, placement⟩ := delivered id
    have octets := congrArg (List.map Prod.snd) (handed id)
    have sequences := congrArg (fun ps => ps.getLast?.map Prod.fst) (handed id)
    rw [List.map_map, List.map_map] at octets
    simp only [List.getLast?_map, Option.map_map] at sequences
    refine ⟨fun sink aligned => (sinks sink aligned).trans octets, fun some_ => ?_⟩
    exact placement.trans (sequences.trans ((h.numbered id).last_sequence some_))
  · exact (counters .decodeErrors nofun nofun).trans (accounts.reading_of_lane rfl)
  · exact (counters .missingSegments nofun nofun).trans (accounts.reading_of_lane rfl)
  · exact (counters .duplicates nofun nofun).trans duplicates
  · exact (counters .forcedDrains nofun nofun).trans drains

/-! ## One transmission -/

/-- A frame of one sample. -/
def sample (id sequence : Nat) : Draft :=
  { sensor := .ofNat id, sequence, flags := ⟨0x20⟩, segments := [.acoustic 16000 [1]] }

/-- Three frames of one sensor and one of another, with junk that tears start markers. -/
def torn : List (Draft × Bytes) :=
  [(sample 7 3, [0x41]), (sample 9 1, [0xFC]), (sample 7 5, []), (sample 7 4, [0xFC])]

def tornFirst (id : SensorId) : Nat := if id = .ofNat 7 then 3 else 1

def tornFrames (id : SensorId) : List Draft :=
  if id = .ofNat 7 then [sample 7 3, sample 7 4, sample 7 5]
  else if id = .ofNat 9 then [sample 9 1]
  else []

/-- What holds of both sensors, and of every sensor that sends nothing, holds of all. -/
theorem forall_sensor {P : SensorId → Prop} (seven : P (.ofNat 7)) (nine : P (.ofNat 9))
    (others : ∀ id, id ≠ .ofNat 7 → id ≠ .ofNat 9 → P id) (id : SensorId) : P id := by
  by_cases h₇ : id = .ofNat 7
  · exact h₇ ▸ seven
  · by_cases h₉ : id = .ofNat 9
    · exact h₉ ▸ nine
    · exact others id h₇ h₉

theorem transmission_torn : Transmission [0xFC, 0xFC] torn tornFirst tornFrames where
  clean := by
    unfold Harmless
    decide +kernel
  acoustic p mem := by
    have fits : ∀ p ∈ torn, p.1.Fits := by
      unfold Draft.Fits
      decide +kernel
    have segments : ∀ p ∈ torn, p.1.segments = [.acoustic 16000 [1]] := by decide +kernel
    refine ⟨fits p mem, ?_, .acoustic 16000 [1], .of 16000 1, ?_, by decide +kernel⟩
    · rw [segments p mem]
      decide
    · rw [segments p mem]
      rfl
  responds := by decide +kernel
  shuffled := by
    refine forall_sensor (by decide +kernel) (by decide +kernel) fun id h₇ h₉ => ?_
    simp [torn, tornFrames, sample, h₇, h₉, Ne.symm h₇, Ne.symm h₉]
  lowest := by
    refine forall_sensor (by decide +kernel) (by decide +kernel) fun id h₇ h₉ => ?_
    simp [torn, tornFrames, sample, h₇, h₉, Ne.symm h₇, Ne.symm h₉]
  numbered := by
    refine forall_sensor ⟨?_, ?_, ?_, ?_, ?_⟩ ⟨?_, ?_, ?_, ?_, ?_⟩ fun id h₇ h₉ => ?_
    iterate 10 decide +kernel
    have none : tornFrames id = [] := by simp [tornFrames, h₇, h₉]
    have one : tornFirst id = 1 := if_neg h₇
    rw [none, one]
    exact ⟨by decide, rfl, by decide, by decide, by decide⟩

/-- The transmission comes in two pieces, to lanes that only work in the end but for one. -/
theorem delivered_end_to_end_torn :
    let text := mixed [0xFC, 0xFC] (torn.map fun p => (p.1.encode, p.2))
    let ops : List Stream.Op := [.feed (text.take 60), .next, .feed (text.drop 60)]
    let inputs := (({ verifying := true } : Stream).performAll ops).1.map fun r =>
      ((5 : Micros), Input.ofResult ⟨.v4 ⟨10, 0, 0, 2⟩, 4001, 0⟩ r)
    let o : Outlets Unit := ⟨fun s _ => (s, [], .done)⟩
    let moves := (((Intake.new true).run {} inputs).flatMap (·.effects)).flatMap fun e =>
      [Move.effect e, .serve 3]
    let settings : Settings := { sinks := .ofList [.grpc, .presence] }
    Transmission [0xFC, 0xFC] torn tornFirst tornFrames ∧ fed ops = text ∧ o.Steady ∧
      ∃ router, Router.start 4 2 settings = .ok router ∧
        let p := (Plant.play o.recorded ⟨router, { outlets := ((), []) }⟩ moves).close o.recorded
        Delivery.raws .grpc (p.scene.outlets.2.filter (·.sensor = .ofNat 7)) =
            [sample 7 3, sample 7 4, sample 7 5].map Draft.encode ∧
          (p.router.placement? (.ofNat 7)).map (·.sequence) = some 5 ∧
          p.scene.counters.decodeErrors = 0 := by
  intro text ops inputs o moves settings
  have arrive : fed ops = text := by decide +kernel
  have taken : inputs.map Prod.snd = (({ verifying := true } : Stream).performAll ops).1.map
      (Input.ofResult ⟨.v4 ⟨10, 0, 0, 2⟩, 4001, 0⟩) := by
    rw [List.map_map]
    rfl
  have time : ∀ x ∈ inputs, x.2.isFrame = true → (0 : Micros) ≤ x.1 ∧ x.1 ≤ 0 + 20000000 := by
    rw [List.forall_mem_map]
    exact fun _ _ _ => ⟨(by decide : (0 : Micros) ≤ 5), (by decide : (5 : Micros) ≤ 0 + 20000000)⟩
  have steady : o.Steady := nofun
  have schedule : moves.filterMap Move.effect? =
      ((Intake.new true).run {} inputs).flatMap (·.effects) := by
    rw [List.filterMap_flatMap]
    exact List.flatMap_singleton' _
  obtain ⟨router, started, delivered, decodes, -⟩ :=
    transmission_torn.delivered_end_to_end arrive taken time 2 2 settings steady () schedule
  obtain ⟨sinks, placement⟩ := delivered (.ofNat 7)
  exact ⟨transmission_torn, arrive, steady, router, started, sinks .grpc rfl,
    placement (by decide +kernel), decodes⟩

end Transmission

end SensorIngest
