import SensorIngest.Reply

/-!
# Reading replies

While it sends, a simulated sensor reads what the server answers. Bytes wait until a reply is whole.
Acknowledgements are counted. Requests for frames of this sensor are counted too, and their sequences
are noted for whoever sends; requests for frames of another sensor are left alone.
-/

namespace SensorIngest.Simulator

/-- The reading side of a sensor. -/
structure Reader where
  sensor : SensorId
  /-- Bytes that are no whole reply yet. -/
  waiting : Bytes := []
  acks : Nat := 0
  resends : Nat := 0
  /-- The sequences that this sensor shall send again, in the order of the requests. -/
  wanted : List Nat := []
deriving DecidableEq

namespace Reader

/-- Takes note of a reply. -/
def note (r : Reader) : Reply → Reader
  | .ack _ => { r with acks := r.acks + 1 }
  | .resend sensor sequence =>
    if sensor = r.sensor then
      { r with resends := r.resends + 1, wanted := r.wanted ++ [sequence] }
    else r

/-- Takes in the bytes of one read, and returns the replies that are whole now. -/
def read (r : Reader) (bytes : Bytes) : Reader × List Reply :=
  let (replies, left) := Reply.splitAll (r.waiting ++ bytes)
  let replies := replies.map Prod.fst
  (replies.foldl note { r with waiting := left }, replies)

/-- Takes in reads one after the other. A read without bytes is the end of the connection, and not one of
them. -/
def readAll (r : Reader) : List Bytes → Reader × List Reply
  | [] => (r, [])
  | bytes :: rest =>
    let (r, replies) := r.read bytes
    let (r, more) := r.readAll rest
    (r, replies ++ more)

end Reader

end SensorIngest.Simulator
