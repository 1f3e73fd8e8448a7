import SensorIngest.Bytes

/-!
# Frame layout

A frame is a preamble (start marker, version, size field), a fixed header, a group of data
segments, a checksum and an end marker. The size field counts everything from the header to the
checksum inclusive. Numbers are big-endian.

| Bytes | Content |
|---|---|
| 0 to 3 | start marker, four times `FC` |
| 4 | version, 1 |
| 5 to 8 | size |
| 9 to 16 | sequence |
| 17 to 22 | hardware version, firmware version |
| 23 to 28 | sensor |
| 29 to 31 | model |
| 32 to 36 | reserved |
| 37 | flags |
| 38 | number of segments, then the segments |
| last 3 | checksum of bytes 9 up to itself, `FD` |
-/

namespace SensorIngest.Frame

/-- The bytes every frame starts with. -/
def startMarker : Bytes := [0xFC, 0xFC, 0xFC, 0xFC]

def version : UInt8 := 1

/-- The byte every frame ends with. -/
def endMarker : UInt8 := 0xFD

/-- Start marker, version and size field. -/
def preambleLength : Nat := 9

/-- Everything before the segment group. -/
def headerLength : Nat := 38

def checksumLength : Nat := 2

/-- The smallest size: a header, an empty segment group and a checksum. -/
def minSize : Nat := 32

/-- The largest size accepted. -/
def maxSize : Nat := 1048576

/-- The length of a frame with a given size field. -/
def lengthOf (size : Nat) : Nat := preambleLength + size + 1

/-- The number in the field of `width` bytes that starts at byte `start`. -/
def field (raw : Bytes) (start width : Nat) : Nat :=
  Bytes.toNat ((raw.drop start).take width)

end SensorIngest.Frame
