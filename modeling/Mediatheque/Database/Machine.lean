import Mediatheque.Disk.Basic
import Mediatheque.Message.Command

/-!
# The machine

What databases share, and what outlives them: the disk, the locks on directories, the
clock, and the record of what their backends were asked.
-/

namespace Mediatheque

/-- What a backend was asked. -/
inductive Asked where
  /-- To claim its part of a catalog; the flag tells that the database was new. -/
  | create (fresh : Bool)
  /-- To handle a command, which it did. -/
  | handle (command : Command)
  | stop
  | destroy
deriving Inhabited

/-- The disk, the locks, the clock, and the record. -/
structure Machine where
  disk : Disk := {}
  /-- The directories that open databases hold. -/
  locked : List String := []
  /-- The time in milliseconds. -/
  now : Nat := 0
  /-- What backends were asked, by their names and the latest at the end. -/
  record : List (String × Asked) := []
deriving Inhabited

namespace Machine

/-- Adds to the record. -/
def note (m : Machine) (backend : String) (asked : Asked) : Machine :=
  { m with record := m.record ++ [(backend, asked)] }

/-- What the backend of a name was asked. -/
def asked (m : Machine) (backend : String) : List Asked :=
  (m.record.filter (·.1 = backend)).map (·.2)

/-- Locks a directory by the file in it that is there for that; nothing when the directory
is locked already. -/
def lock? (m : Machine) (dir : String) : Except DiskError (Option Machine) := do
  let disk ← m.disk.touch (Path.lockFile dir)
  .ok (if dir ∈ m.locked then none else some { m with disk := disk, locked := dir :: m.locked })

def unlock (m : Machine) (dir : String) : Machine := { m with locked := m.locked.erase dir }

end Machine

end Mediatheque
