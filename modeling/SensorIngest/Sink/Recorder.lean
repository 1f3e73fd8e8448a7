import SensorIngest.Sink.Basic
import SensorIngest.ShardedMap

/-!
# Recordings

The acoustic samples of a sensor are appended to a file that carries the sensor's label. Each open
file has a write buffer of `bufferSize` bytes: data that does not fit makes the buffer be written
first, and data of at least that size is written past it. A `Directory` is what the files hold; a
file may be a device that takes no data.
-/

namespace SensorIngest

/-- What a file takes and holds. -/
inductive Storage where
  /-- What has been written, the last piece first. -/
  | file (pieces : List Bytes)
  /-- A device without room for any data. -/
  | full
deriving DecidableEq

/-- Files by name. -/
abbrev Directory : Type := Std.ExtTreeMap String Storage

namespace Storage

/-- Appends data. A full device refuses all but nothing. -/
def append (data : Bytes) : Storage → Except SystemError Storage
  | file pieces => .ok (file (data :: pieces))
  | full => if data = [] then .ok full else .error .noSpace

def content : Storage → Bytes
  | file pieces => pieces.reverse.flatten
  | full => []

theorem content_append {s t : Storage} {data : Bytes} (h : s.append data = .ok t) :
    t.content = s.content ++ data := by
  unfold append at h
  split at h
  · cases h
    simp [content]
  · split at h
    · cases h
      simp_all [content]
    · cases h

end Storage

/-- The files of a directory, and the buffers of those that are open. -/
structure Recorder where
  directory : Directory := ∅
  buffers : SensorMap Bytes := ∅

namespace Recorder

def bufferSize : Nat := 8192

def fileName (id : SensorId) : String := id.label ++ ".pcm"

/-- What the file of a sensor holds; nothing before it is created. -/
def storage (r : Recorder) (id : SensorId) : Storage :=
  (r.directory[fileName id]?).getD (.file [])

/-- Sends data to the file of a sensor, past its buffer. -/
def commit (r : Recorder) (id : SensorId) (data : Bytes) : Except SystemError Recorder := do
  let stored ← (r.storage id).append data
  return { r with directory := r.directory.insert (fileName id) stored }

/-- Writes out a buffer. When the file refuses, the buffer stays as it is. -/
def flush (r : Recorder) (id : SensorId) (buffer : Bytes) : Except SystemError Recorder := do
  let r ← r.commit id buffer
  return { r with buffers := r.buffers.insert id [] }

/-- Appends data to an open file through its buffer. The recorder is returned also when the file
refuses, since the buffer may have been written before the data. -/
def append (r : Recorder) (id : SensorId) (buffer data : Bytes) :
    Recorder × Except SystemError Unit :=
  let room := bufferSize - buffer.length
  let count := data.length
  if count < room then ({ r with buffers := r.buffers.insert id (buffer ++ data) }, .ok ())
  else
    match if room < count then (r.flush id buffer).map (·, ([] : Bytes)) else .ok (r, buffer) with
    | .error e => (r, .error e)
    | .ok (r, buffer) =>
      if count < bufferSize then
        ({ r with buffers := r.buffers.insert id (buffer ++ data) }, .ok ())
      else
        match r.commit id data with
        | .error e => (r, .error e)
        | .ok r => (r, .ok ())

/-- Opens the file of a sensor, creating it if it does not exist. -/
def openFile (r : Recorder) (id : SensorId) : Recorder :=
  { directory := r.directory.insert (fileName id) (r.storage id)
    buffers := r.buffers.insert id [] }

/-- Appends the samples of a frame to the file of a sensor. A frame without samples is rejected. -/
def write (r : Recorder) (id : SensorId) (frame : Frame) :
    Recorder × List Event × Except SinkError Unit :=
  match frame.samples? with
  | none => (r, [], .error (.rejected (Frame.Error.missingSegment .arc).message))
  | some samples =>
    let (r, buffer, events) : Recorder × Bytes × List Event :=
      match r.buffers[id]? with
      | some buffer => (r, buffer, [])
      | none => (r.openFile id, [], [.recording id (fileName id)])
    let (r, outcome) := r.append id buffer samples
    (r, events, outcome.mapError .system)

/-- Writes out the buffer of an open file and closes it. What the file refuses is lost. -/
def close (r : Recorder) (id : SensorId) (buffer : Bytes) : Recorder × List Event :=
  let shut (r : Recorder) : Recorder := { r with buffers := r.buffers.erase id }
  match r.flush id buffer with
  | .ok r => (shut r, [])
  | .error e => (shut r, [.recordingNotFlushed id e.message])

/-- Writes out every buffer and closes every file. -/
def stop (r : Recorder) : Recorder × List Event :=
  r.buffers.toList.foldl (fun (r, events) (id, buffer) =>
    let (r, more) := r.close id buffer
    (r, events ++ more)) (r, [])

end Recorder

end SensorIngest
