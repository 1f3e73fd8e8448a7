import SensorIngest.SensorId

/-!
# Replies to sensors

A server answers a sensor with an acknowledgement, which is the bare sequence in eight bytes, or
with a request to send a frame again. `Reply.encode` writes a reply and `Reply.split?` reads the
first one of a received text. An acknowledgement of a sequence whose top bytes are those of a
request's marker is read as a request.
-/

namespace SensorIngest

/-- What a server tells a sensor. -/
inductive Reply where
  /-- The frame with this sequence has been delivered. -/
  | ack (sequence : Nat)
  /-- The sensor shall send the frame with this sequence again. -/
  | resend (sensor : SensorId) (sequence : Nat)
deriving DecidableEq

namespace Reply

/-- The bytes a resend request starts with. -/
def resendMarker : Bytes := [0xFC, 0x01, 0x0E]

def ackLength : Nat := 8

/-- The length of a resend request: marker, sensor, sequence, checksum. -/
def resendLength : Nat := 19

/-- The bytes of a reply. A request carries the checksum of its sensor and sequence. -/
def encode : Reply → Bytes
  | ack sequence => Bytes.ofNat 8 sequence
  | resend sensor sequence =>
    let body := sensor.toBytes ++ Bytes.ofNat 8 sequence
    resendMarker ++ body ++ Bytes.ofNat 2 (Bytes.checksum body)

/-- The first reply in a received text and the number of bytes it takes; nothing if that takes more
input. The checksum of a request is not looked at. -/
def split? (received : Bytes) : Option (Reply × Nat) :=
  if (received.take ackLength).length < ackLength then none
  else if received.take resendMarker.length = resendMarker then
    if (received.take resendLength).length < resendLength then none
    else some (.resend (.ofBytes ((received.drop 3).take 6))
      (Bytes.toNat ((received.drop 9).take 8)), resendLength)
  else some (.ack (Bytes.toNat (received.take ackLength)), ackLength)

/-- A reply takes at least one of the bytes that were there. -/
theorem split?_bounds {received : Bytes} {reply : Reply} {used : Nat}
    (h : split? received = some (reply, used)) : 0 < used ∧ used ≤ received.length := by
  have le : ∀ n, ¬ (received.take n).length < n → n ≤ received.length := by
    intro n hn
    rw [List.length_take] at hn
    omega
  unfold split? at h
  split at h
  · cases h
  · rename_i h₁
    split at h
    · split at h
      · cases h
      · rename_i h₂
        cases h
        exact ⟨by decide, le _ h₂⟩
    · cases h
      exact ⟨by decide, le _ h₁⟩

/-- Every reply of a received text with its length, and the bytes behind the last one. -/
def splitAll (received : Bytes) : List (Reply × Nat) × Bytes :=
  match _h : split? received with
  | none => ([], received)
  | some (reply, used) =>
    let (replies, left) := splitAll (received.drop used)
    ((reply, used) :: replies, left)
termination_by received.length
decreasing_by
  have := split?_bounds _h
  rw [List.length_drop]
  omega

end Reply

end SensorIngest
