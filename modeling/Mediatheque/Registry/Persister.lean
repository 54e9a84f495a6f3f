import Mediatheque.Error
import Mediatheque.Registry.Basic

/-!
# Keeping the registry on disk

A persister holds a registry and its settings file together. It takes values for the
settings that a context has declared, and writes the file a quiet time after the last
of them, so that many changes in a row cost one write. Times are in milliseconds.

* `Persister.load`: the registry of a file, or an empty one in its place;
* `Persister.set`: a new value, and the time to write it;
* `Persister.poll`, `Persister.flush`: the write.
-/

namespace Mediatheque

/-- A registry, the settings that contexts declare, and when to write the file. -/
structure Persister where
  path : String
  registry : Registry := .empty
  schemas : Dictionary (List ParameterInfo) := .empty
  /-- The quiet time before a write. -/
  debounce : Nat
  /-- When the pending changes are to be written, if there are any. -/
  deadline : Option Nat := none
deriving DecidableEq, Inhabited

namespace Registry

/-- The registry of a settings file. -/
def load (path : String) (disk : Disk) : Except DatabaseError Registry :=
  match disk.read path with
  | .error e => .error (.disk path e)
  | .ok text =>
    match ofText? text with
    | some r => .ok r
    | none => .error (.unreadableSettings path)

/-- Writes the settings file of a registry. -/
def save (r : Registry) (path : String) (disk : Disk) : Except DatabaseError Unit × Disk :=
  match disk.write path r.text with
  | (.ok (), disk) => (.ok (), disk)
  | (.error e, disk) => (.error (.disk path e), disk)

end Registry

namespace Persister

/-- Takes up the registry of a settings file. A file that is missing or holds none is
replaced by that of an empty registry. -/
def load (path : String) (debounce : Nat) (disk : Disk) : Except DatabaseError Persister × Disk :=
  match Registry.load path disk with
  | .ok registry => (.ok { path := path, registry := registry, debounce := debounce }, disk)
  | .error _ =>
    match Registry.empty.save path disk with
    | (.ok (), disk) => (.ok { path := path, debounce := debounce }, disk)
    | (.error e, disk) => (.error e, disk)

/-! ## Contexts -/

/-- Declares the settings of a context, in place of those declared before. -/
def register (p : Persister) (context : String) (parameters : List ParameterInfo) : Persister :=
  { p with schemas := p.schemas.insert context parameters }

/-- The settings that a context has declared. -/
def schema? (p : Persister) (context : String) : Option (List ParameterInfo) :=
  p.schemas.get? context

/-- Whether a context has declared a setting. -/
def declares (p : Persister) (context name : String) : Bool :=
  ((p.schema? context).getD []).any (·.name = name)

def get? (p : Persister) (context name : String) : Option ParameterValue :=
  p.registry.get? context name

/-- The values that a context starts with: those that are stored, or else the default
values. Actions are not repeated. -/
def startupValues (p : Persister) (context : String) : List (String × ParameterValue) :=
  ((p.schema? context).getD []).filterMap fun info =>
    if info.kind = .button then none
    else ((p.get? context info.name) <|> info.default).map (info.name, ·)

/-! ## Changes -/

/-- Stores a value, and puts the write off until a quiet time from now. -/
def set (p : Persister) (context name : String) (value : ParameterValue) (now : Nat) :
    Except DispatchError Persister :=
  if p.declares context name then
    .ok { p with
      registry := p.registry.set context name value
      deadline := some (now + p.debounce) }
  else .error (.unknownParameter context name)

/-- Whether there are changes that have not been written. -/
def isDirty (p : Persister) : Bool := p.deadline.isSome

/-- Writes the pending changes, and tells whether there were any. When the write fails
they stay pending. -/
def flush (p : Persister) (disk : Disk) : Except DatabaseError Bool × Persister × Disk :=
  if p.deadline.isNone then (.ok false, p, disk)
  else
    match p.registry.save p.path disk with
    | (.ok (), disk) => (.ok true, { p with deadline := none }, disk)
    | (.error e, disk) => (.error e, p, disk)

/-- Writes the pending changes if their time has come. -/
def poll (p : Persister) (now : Nat) (disk : Disk) : Except DatabaseError Bool × Persister × Disk :=
  match p.deadline with
  | some deadline => if deadline ≤ now then p.flush disk else (.ok false, p, disk)
  | none => (.ok false, p, disk)

end Persister

end Mediatheque
