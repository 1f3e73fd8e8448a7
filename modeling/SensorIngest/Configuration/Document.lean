import SensorIngest.Configuration.Basic
import SensorIngest.Toml.Document

/-!
# Configuration documents

Settings are read from a document with a table for each group. What is not given keeps its default,
what is not known is left alone, and a setting of the wrong kind spoils the document. A group may also
be an array, which gives its settings by position.
-/

namespace SensorIngest.Configuration

open Toml (Value Table)

/-- What a group gives for a setting with one of these names at this position. Two names of one
setting exclude each other, and some values are no group at all. -/
def given? (group : Value) (position : Nat) (names : List String) : Option (Option Value) :=
  match group with
  | .table _ entries =>
    match names.filterMap (Table.get? entries) with
    | [] => some none
    | [v] => some (some v)
    | _ => none
  | .array items => some items[position]?
  | .tables rows => some (rows[position]?.map (.table .header))
  | .moment _ => some none
  | _ => none

/-- The setting of a group, or its default. -/
def setting (group : Value) (position : Nat) (names : List String) (read : Value → Option α)
    (default : α) : Option α := do
  match ← given? group position names with
  | none => some default
  | some v => read v

def text? : Value → Option String
  | .string s => some s
  | _ => none

def flag? : Value → Option Bool
  | .boolean b => some b
  | _ => none

def whole? : Value → Option Int
  | .integer n => some n
  | _ => none

/-- A whole number that is not negative. -/
def count? (v : Value) : Option Nat := do
  let n ← whole? v
  if 0 ≤ n then some n.toNat else none

def port? (v : Value) : Option Nat := do
  let n ← count? v
  if n < 65536 then some n else none

def Service.ofValue? (v : Value) : Option Service := do
  let d : Service := {}
  return {
    netType := ← setting v 0 ["net_type"] text? d.netType
    host := ← setting v 1 ["host"] text? d.host
    port := ← setting v 2 ["port"] port? d.port
    keepalive := ← setting v 3 ["keepalive"] count? d.keepalive
    lanes := ← setting v 4 ["lane_count", "goroutine_count"] count? d.lanes
    eventLoops := ← setting v 5 ["event_loops"] count? d.eventLoops
    resend := ← setting v 6 ["resend_enable"] flag? d.resend
    threshold := ← setting v 7 ["offset_threshold"] whole? d.threshold
    verify := ← setting v 8 ["enable_crc_check"] flag? d.verify
    proxyAligned := ← setting v 9 ["proxy_timealign"] flag? d.proxyAligned
    pinLanes := ← setting v 10 ["pin_lanes"] flag? d.pinLanes }

def Proxy.ofValue? (v : Value) : Option Proxy := do
  let d : Proxy := {}
  return {
    enabled := ← setting v 0 ["enable"] flag? d.enabled
    parent := ← setting v 1 ["parent"] text? d.parent
    timeout := ← setting v 2 ["timeout"] count? d.timeout
    interval := ← setting v 3 ["interval"] count? d.interval }

def Recording.ofValue? (v : Value) : Option Recording := do
  let d : Recording := {}
  return {
    enabled := ← setting v 0 ["enable"] flag? d.enabled
    directory := ← setting v 1 ["dir", "dirent"] text? d.directory }

def ofTable? (t : Table) : Option Configuration := do
  let document : Value := .table .header t
  return {
    service := ← setting document 0 ["service"] Service.ofValue? {}
    proxy := ← setting document 1 ["proxy"] Proxy.ofValue? {}
    recording := ← setting document 2 ["file"] Recording.ofValue? {} }

def ofDocument? (source : String) : Option Configuration := do
  ofTable? (← Toml.Document.read? source)

end SensorIngest.Configuration
