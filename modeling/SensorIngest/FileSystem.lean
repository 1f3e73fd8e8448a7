import SensorIngest.Bytes
import SensorIngest.SystemError
import SensorIngest.Text.Cut

/-!
# File systems

Files and directories, and how a path leads to one of them: name by name, from the root if it begins
with a slash and else from the working directory. Only a directory can be passed, so a path that ends
with a slash does not lead to a file.
-/

namespace SensorIngest

/-- The names that lead from the root to a place, the last one first. -/
abbrev Place := List String

inductive Entry where
  | file (content : Bytes)
  /-- A directory. If it is sealed, nothing can be made in it. -/
  | directory (isSealed : Bool)
deriving DecidableEq

structure FileSystem where
  /-- What stands below the root. -/
  entries : List (Place × Entry)
  here : Place

namespace FileSystem

/-- The longest name in a directory, in bytes. -/
def maxName : Nat := 255

/-- The longest path, in bytes. -/
def maxPath : Nat := 4095

/-- The place that a path without dots leads to from the root. -/
def place (path : String) : Place :=
  ((Text.pieces '/' path).filter (· ≠ "")).reverse

/-- What stands at a place. -/
def entry? (fs : FileSystem) (p : Place) : Option Entry :=
  if p = [] then some (.directory false) else fs.entries.lookup p

/-- Follows a name in a directory that exists. There need not be anything where it leads. -/
def pass (fs : FileSystem) (p : Place) (name : String) : Except SystemError Place :=
  match fs.entry? p with
  | none => .error .noSuchFile
  | some (.file _) => .error .notADirectory
  | some (.directory _) =>
    if name = "" ∨ name = "." then .ok p
    else if name = ".." then .ok p.tail
    else if maxName < name.utf8ByteSize then .error .nameTooLong
    else .ok (name :: p)

def follow (fs : FileSystem) (names : List String) : Except SystemError Place :=
  names.foldlM fs.pass (if names.head? = some "" then [] else fs.here)

/-- Refuses a path that the system does not take. -/
def checkPath (path : String) : Except SystemError Unit :=
  if '\x00' ∈ path.toList then .error .zeroInName
  else if maxPath < path.utf8ByteSize then .error .nameTooLong
  else .ok ()

def read (fs : FileSystem) (path : String) : Except SystemError String := do
  checkPath path
  if path = "" then .error .noSuchFile
  let p ← fs.follow (Text.pieces '/' path)
  match fs.entry? p with
  | none => .error .noSuchFile
  | some (.directory _) => .error .isADirectory
  | some (.file content) =>
    match String.fromUTF8? ⟨content.toArray⟩ with
    | none => .error .notText
    | some text => .ok text

def isDirectory (fs : FileSystem) (names : List String) : Bool :=
  match (fs.follow names).toOption.bind fs.entry? with
  | some (.directory _) => true
  | _ => false

/-- Makes a directory in one that exists. Slashes at the end of the path do not count. -/
def make (fs : FileSystem) (names : List String) : Except SystemError FileSystem :=
  match names.reverse.dropWhile (· = "") with
  | [] => .error .fileExists
  | name :: above => do
    let p ← fs.follow above.reverse
    let q ← fs.pass p name
    if name = "." ∨ name = ".." ∨ (fs.entry? q).isSome then .error .fileExists
    else if fs.entry? p = some (.directory true) then .error .noSuchFile
    else .ok { fs with entries := (q, .directory false) :: fs.entries }

/-- Makes a directory unless it exists. -/
def ensure (fs : FileSystem) (names : List String) : Except SystemError FileSystem :=
  match fs.make names with
  | .error .fileExists => if fs.isDirectory names then .ok fs else .error .fileExists
  | outcome => outcome

/-- Makes the first of the listed directories. Where one that it stands in is missing, that is one of
the others, and they are made before it. -/
def ensureWithin (fs : FileSystem) : List (List String) → Except SystemError FileSystem
  | [] => .ok fs
  | names :: others =>
    match fs.ensure names with
    | .error .noSuchFile => do (← fs.ensureWithin others).ensure names
    | outcome => outcome

/-- A name that leads nowhere else. -/
def staysPut (name : String) : Bool := name = "" ∨ name = "."

/-- The paths that end at one of the listed names, which are in reverse. -/
def stops : List String → List (List String)
  | [] => []
  | name :: rest => if staysPut name then stops rest else (name :: rest).reverse :: stops rest

/-- Makes a directory, with those that it stands in, unless it exists. The empty path stands for the
working directory. -/
def makeDirectory (fs : FileSystem) (path : String) : Except SystemError FileSystem :=
  if path = "" then .ok fs
  else do
    checkPath path
    let names := Text.pieces '/' path
    fs.ensureWithin (names :: stops (names.reverse.dropWhile staysPut).tail)

end FileSystem

end SensorIngest
