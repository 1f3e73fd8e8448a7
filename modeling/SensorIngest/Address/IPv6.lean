import SensorIngest.Address.IPv4

/-!
# IPv6 addresses

Eight groups of sixteen bits. `IPv6.text` writes them in hexadecimal with the first longest run of
at least two zero groups left out; an address that embeds an IPv4 address shows it in dotted form.
`IPv6.read` accepts every such form.
-/

namespace SensorIngest.Address

open Text

/-- Eight groups of sixteen bits. -/
structure IPv6 where
  groups : List UInt16
  length_groups : groups.length = 8
deriving DecidableEq

namespace IPv6

/-- An address from its first and its last groups, with zeros between them. -/
def ofEnds (head tail : List UInt16) (h : head.length + tail.length ≤ 8) : IPv6 where
  groups := head ++ List.replicate (8 - head.length - tail.length) 0 ++ tail
  length_groups := by
    simp only [List.length_append, List.length_replicate]
    omega

/-- The smallest number of hexadecimal digits. -/
def groupText (group : UInt16) : String :=
  String.ofList (Nat.toDigits 16 group.toNat)

def groupsText (groups : List UInt16) : String :=
  ":".intercalate (groups.map groupText)

/-- The length of the run of zero groups that each place starts. -/
def zeroRuns (groups : List UInt16) : List Nat :=
  groups.foldr (fun g runs => (if g = 0 then runs.headD 0 + 1 else 0) :: runs) []

/-- The place and length of the first longest run of zero groups. -/
def longestZeroRun (groups : List UInt16) : Nat × Nat :=
  let runs := zeroRuns groups
  let longest := runs.foldl max 0
  (runs.findIdx (· = longest), longest)

/-- The IPv4 address that an address embeds. -/
def mapped? (ip : IPv6) : Option IPv4 :=
  match ip.groups with
  | [0, 0, 0, 0, 0, 0xFFFF, high, low] => some (.ofNat (high.toNat * 65536 + low.toNat))
  | _ => none

/-- The shortest customary form. -/
def text (ip : IPv6) : String :=
  match ip.mapped? with
  | some v4 => "::ffff:" ++ v4.text
  | none =>
    let (start, count) := longestZeroRun ip.groups
    if count < 2 then groupsText ip.groups
    else groupsText (ip.groups.take start) ++ "::" ++ groupsText (ip.groups.drop (start + count))

/-- One to four hexadecimal digits. -/
def readGroup (cs : List Char) : Option (UInt16 × List Char) :=
  let (ds, rest) := Numeral.takeDigits 16 cs
  if ds = [] ∨ 4 < ds.length then none
  else some (UInt16.ofNat (Numeral.ofDigits 16 ds), rest)

/-- At most `room` groups with colons between them, and whether the last two of them were written as
an IPv4 address, which ends the groups. -/
def readGroups : (room : Nat) → (first : Bool) → List Char → List UInt16 × Bool × List Char
  | 0, _, cs => ([], false, cs)
  | room + 1, first, cs =>
    let item := if first then some cs else IPv4.expect ':' cs
    match if room = 0 then none else item.bind IPv4.read with
    | some (v4, rest) =>
      ([UInt16.ofNat (v4.a.toNat * 256 + v4.b.toNat),
        UInt16.ofNat (v4.c.toNat * 256 + v4.d.toNat)], true, rest)
    | none =>
      match item.bind readGroup with
      | none => ([], false, cs)
      | some (g, rest) =>
        let (gs, embedded, rest) := readGroups room false rest
        (g :: gs, embedded, rest)

/-- The address at the front of a text, and the text behind it. A double colon stands for at least
one zero group, and an IPv4 address may only come last. -/
def read (cs : List Char) : Option (IPv6 × List Char) := do
  let (head, embedded, rest) := readGroups 8 true cs
  if h : head.length = 8 then return (⟨head, h⟩, rest)
  if embedded then none
  let rest ← IPv4.expect ':' (← IPv4.expect ':' rest)
  let (tail, _, rest) := readGroups (7 - head.length) true rest
  if h : head.length + tail.length ≤ 8 then return (ofEnds head tail h, rest) else none

end IPv6

end SensorIngest.Address
