import Mediatheque.Dictionary
import Mediatheque.Disk.Path

/-!
# The disk

Files and directories by their location, which is the path from the root without
`.`, `..` or repeated slashes. Paths are resolved step by step, so that each step but
the last has to lead into a directory; relative paths start at the root. A write may
fail for no reason that files and directories show: the outcomes of the writes to
come are part of the disk.

* `Disk.read`, `Disk.write`: the content of a file;
* `Disk.createDirs`, `Disk.removeAll`, `Disk.clearDir`: directories;
* `Disk.canonical?`: the location of an existing path;
* `Disk.listing`: all below a directory.
-/

namespace Mediatheque

/-- Why the disk refuses an operation. -/
inductive DiskError where
  | notFound
  | alreadyExists
  | notDirectory
  | isDirectory
  | noSpace
deriving DecidableEq, Inhabited

namespace DiskError

/-- The message and number that the operating system has for an error. -/
def message : DiskError → String
  | notFound => "No such file or directory (os error 2)"
  | alreadyExists => "File exists (os error 17)"
  | notDirectory => "Not a directory (os error 20)"
  | isDirectory => "Is a directory (os error 21)"
  | noSpace => "No space left on device (os error 28)"

end DiskError

/-- A file with its text, or a directory. -/
inductive DiskNode where
  | file (text : String)
  | directory
deriving DecidableEq, Inhabited

/-- Files and directories below the root, which is always there. -/
structure Disk where
  nodes : Dictionary DiskNode := .empty
  /-- The errors that the writes to come meet, in order. -/
  writeErrors : List (Option DiskError) := []
deriving DecidableEq, Inhabited

namespace Disk

/-- The location that some steps from the root lead to. -/
def location (steps : List String) : String := steps.foldl (fun l s => l ++ "/" ++ s) ""

/-- What stands at a place, given by the steps from the root. -/
def nodeAt? (d : Disk) (place : List String) : Option DiskNode :=
  if place.isEmpty then some .directory else d.nodes.get? (location place)

/-- Takes one step of a path, which has to start in a directory. -/
def step (d : Disk) (place : List String) (component : String) : Except DiskError (List String) :=
  match d.nodeAt? place with
  | none => .error .notFound
  | some (.file _) => .error .notDirectory
  | some .directory =>
    if component = "" ∨ component = "." then .ok place
    else if component = ".." then .ok place.dropLast
    else .ok (place ++ [component])

/-- The place that a path leads to, whether there is anything at it or not. -/
def place (d : Disk) (path : String) : Except DiskError (List String) :=
  if path.isEmpty then .error .notFound
  else (Path.components path).foldlM (d.step) []

/-- What a path leads to. -/
def find (d : Disk) (path : String) : Except DiskError DiskNode := do
  match d.nodeAt? (← d.place path) with
  | some node => .ok node
  | none => .error .notFound

def isPresent (d : Disk) (path : String) : Bool := (d.find path).isOk

def isDir (d : Disk) (path : String) : Bool :=
  match d.find path with
  | .ok .directory => true
  | _ => false

/-- The location of an existing path. -/
def canonical? (d : Disk) (path : String) : Option String :=
  match d.place path with
  | .ok place =>
    if (d.nodeAt? place).isSome then some (if place.isEmpty then "/" else location place) else none
  | .error _ => none

/-! ## Files -/

/-- The text of a file. -/
def read (d : Disk) (path : String) : Except DiskError String := do
  match ← d.find path with
  | .file text => .ok text
  | .directory => .error .isDirectory

/-- Puts a node at a place. -/
def put (d : Disk) (place : List String) (node : DiskNode) : Disk :=
  { d with nodes := d.nodes.insert (location place) node }

/-- Whether a file can be put at a place: its directory is there, and it is none itself. -/
def checkFile (d : Disk) (place : List String) : Except DiskError Unit :=
  match d.nodeAt? place with
  | some .directory => .error .isDirectory
  | some (.file _) => .ok ()
  | none =>
    match d.nodeAt? place.dropLast with
    | some .directory => .ok ()
    | some (.file _) => .error .notDirectory
    | none => .error .notFound

/-- Replaces the text of a file, which is created if need be. The first of the write
errors to come is met and used up. -/
def write (d : Disk) (path text : String) : Except DiskError Unit × Disk :=
  let rest := { d with writeErrors := d.writeErrors.tail }
  match d.writeErrors.head?.join with
  | some e => (.error e, rest)
  | none =>
    match d.place path with
    | .error e => (.error e, rest)
    | .ok place =>
      match d.checkFile place with
      | .error e => (.error e, rest)
      | .ok () => (.ok (), rest.put place (.file text))

/-- Creates an empty file where there is none. -/
def touch (d : Disk) (path : String) : Except DiskError Disk := do
  let place ← d.place path
  d.checkFile place
  .ok (if (d.nodeAt? place).isSome then d else d.put place (.file ""))

/-! ## Directories -/

/-- Steps to a directory, which is created where there is nothing. -/
def stepCreating (d : Disk) (place : List String) (component : String) :
    Except DiskError (Disk × List String) := do
  let next ← d.step place component
  .ok (if (d.nodeAt? next).isNone then d.put next .directory else d, next)

/-- Creates a directory and those above it where they are missing. -/
def createDirs (d : Disk) (path : String) : Except DiskError Disk := do
  if path.isEmpty then .ok d
  else
    let (d, place) ← (Path.components path).foldlM
      (fun (d, place) component => d.stepCreating place component) (d, [])
    match d.nodeAt? place with
    | some .directory => .ok d
    | _ => .error .alreadyExists

/-- Whether a location is below another. -/
def isBelow (above location : String) : Bool := startsWith location (above ++ "/")

/-- The disk without the nodes at some locations. -/
def without (d : Disk) (gone : String → Bool) : Disk :=
  { d with nodes := ⟨d.nodes.entries.filter fun e => !gone e.1, d.nodes.sorted.filter _⟩ }

/-- Removes what stands at a path and all below it. -/
def removeAll (d : Disk) (path : String) : Disk :=
  match d.place path with
  | .ok place => d.without fun l => l = location place || isBelow (location place) l
  | .error _ => d

/-- Removes all below a directory, and nothing if the path leads to none. -/
def clearDir (d : Disk) (path : String) : Disk :=
  match d.place path with
  | .ok place =>
    if d.nodeAt? place = some .directory then d.without (isBelow (location place)) else d
  | .error _ => d

/-- The paths of all below a directory, seen from it and in ascending order, with a
slash behind directories. -/
def listing (d : Disk) (path : String) : List String :=
  match d.place path with
  | .error _ => []
  | .ok place =>
    let names := d.nodes.entries.filterMap fun (l, node) =>
      (afterPrefix? (location place ++ "/") l).map fun name =>
        match node with
        | .directory => name ++ "/"
        | .file _ => name
    names.mergeSort fun a b => a ≤ b

end Disk

end Mediatheque
