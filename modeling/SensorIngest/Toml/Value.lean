/-!
# TOML values

A table remembers how it came to be, because that says how it may still grow: a table with a header
of its own is complete after its section, one that is only implied by longer headers may get its own
header later, one that dotted keys have made grows by dotted keys alone, and an inline table never
grows. `Table.put` follows these rules; a key that is given twice has no value.
-/

namespace SensorIngest.Toml

/-- How a table came to be. -/
inductive Origin where
  /-- Written in braces. -/
  | inline
  /-- Named by a header, or the table of the whole document. -/
  | header
  /-- Named within a longer header. -/
  | implied
  /-- Named within a dotted key. -/
  | dotted
deriving DecidableEq

structure Date where
  year : Nat
  month : Nat
  day : Nat
deriving DecidableEq

structure Time where
  hour : Nat
  minute : Nat
  second : Nat
  nanosecond : Nat := 0
deriving DecidableEq

/-- A point in time, or the part of it that is given. -/
inductive Moment where
  | date (date : Date)
  | time (time : Time)
  /-- Without a relation to universal time. -/
  | floating (date : Date) (time : Time)
  /-- With the minutes that local time is ahead of universal time. -/
  | offset (date : Date) (time : Time) (minutes : Int)
deriving DecidableEq

/-- A value. Keys of a table are distinct. -/
inductive Value where
  | string (text : String)
  | integer (n : Int)
  | float (x : Float)
  | boolean (b : Bool)
  | moment (m : Moment)
  | array (items : List Value)
  | table (origin : Origin) (entries : List (String × Value))
  /-- Tables with one header in double brackets each. -/
  | tables (rows : List (List (String × Value)))

/-- The keys of a table with their values, in order of appearance. -/
abbrev Table := List (String × Value)

/-- A key with the keys of the tables that lead to it. -/
structure Key where
  path : List String
  last : String
deriving DecidableEq

namespace Table

def get? (t : Table) (key : String) : Option Value := t.lookup key

/-- Gives a key a value, in the place of its old value if it has one. -/
def set (t : Table) (key : String) (value : Value) : Table :=
  if t.any (·.1 = key) then t.map fun (k, v) => if k = key then (k, value) else (k, v)
  else t ++ [(key, value)]

/-- Changes the table at the end of a path. Tables that are missing on the way are made; of tables
under double brackets the last one is meant. Dotted keys do not enter a table that is complete, and
nothing enters an inline table or a value that is not a table. -/
def modify (dotted : Bool) (change : Origin → Table → Option Table) :
    (path : List String) → Origin → Table → Option Table
  | [], origin, t => change origin t
  | key :: path, _, t =>
    let made := if dotted then Origin.dotted else .implied
    match t.get? key with
    | none => (modify dotted change path made []).map fun inner => t.set key (.table made inner)
    | some (.table .inline _) => none
    | some (.table .header inner) =>
      if dotted then none
      else (modify dotted change path .header inner).map fun inner =>
        t.set key (.table .header inner)
    | some (.table origin inner) =>
      (modify dotted change path origin inner).map fun inner => t.set key (.table origin inner)
    | some (.tables rows) =>
      match rows.getLast? with
      | none => none
      | some row => (modify dotted change path .header row).map fun row =>
        t.set key (.tables (rows.dropLast ++ [row]))
    | some _ => none

def add (t : Table) (key : String) (value : Value) : Option Table :=
  match t.get? key with
  | none => some (t.set key value)
  | some _ => none

/-- Adds a value under a key that may be dotted. A dotted key has to end in a table that dotted keys
have made. -/
def put (t : Table) (key : Key) (value : Value) : Option Table :=
  modify true
    (fun origin t =>
      if key.path = [] ∨ origin = .dotted then t.add key.last value else none)
    key.path .header t

/-- Starts a table with a header. It may have been implied before, but neither complete nor made by
dotted keys. -/
def openTable (t : Table) (key : Key) : Option Table :=
  modify false
    (fun _ t => match t.get? key.last with
      | none => some (t.set key.last (.table .header []))
      | some (.table .implied inner) => some (t.set key.last (.table .header inner))
      | some _ => none)
    key.path .header t

/-- Starts one more table under a header in double brackets. -/
def openRow (t : Table) (key : Key) : Option Table :=
  modify false
    (fun _ t => match t.get? key.last with
      | none => some (t.set key.last (.tables [[]]))
      | some (.tables rows) => some (t.set key.last (.tables (rows ++ [[]])))
      | some _ => none)
    key.path .header t

end Table

end SensorIngest.Toml
