import Mediatheque.Database.Client

/-!
# Closing a database

A database is closed in order: every backend in turn ends its work; the dispatcher
handles what they have left and writes the settings; and then the backends give up what
they hold. A backend that has failed is passed over. At the end the directory is free.

* `Database.close`.
-/

namespace Mediatheque

namespace Database

variable {σ : Type}

/-- Tells the backend at a position to quit, waits until it has, and ends its work. -/
def stopBackend [Backend σ] (i : Nat) (m : Machine) (db : Database σ) : Machine × Database σ :=
  let full := (db.dispatcher.routes[i]?).any (·.commands.isFull)
  let (m, db) := if full then runnerTurn i m db else (m, db)
  let (m, db) := runnerTurn i m (db.modifyCommands i (·.put .quit))
  match db.runners[i]? with
  | some { info, state := .ended b } =>
    (m.note info.name .stop, db.setState i (.ended (Backend.stop b)))
  | _ => (m, db)

/-- Has the backend at a position give up what it holds. -/
def destroyBackend [Backend σ] (i : Nat) (m : Machine) (db : Database σ) : Machine × Database σ :=
  match db.runners[i]? with
  | some { info, state := .ended b } =>
    (m.note info.name .destroy, db.setState i (.ended (Backend.destroy b)))
  | _ => (m, db)

/-- Tells the dispatcher to quit, and has it write the pending settings. -/
def stopDispatcher [Backend σ] (m : Machine) (db : Database σ) : Machine × Database σ :=
  let (_, m, db) := db.sendBlocking m .quit
  let (m, db) := dispatcherTurn m db
  if db.outlook = .quit then
    let d := { db.dispatcher with disk := m.disk }.flush
    ({ m with disk := d.disk }, { db with dispatcher := d })
  else (m, db)

/-- Closes a database, unless it is closed already. -/
def close [Backend σ] (m : Machine) (db : Database σ) : Machine × Database σ :=
  if !db.isOpen then (m, db)
  else
    let positions := List.range db.runners.length
    let (m, db) := positions.foldl (fun (m, db) i => stopBackend i m db) (m, db)
    let (m, db) := stopDispatcher m db
    let (m, db) := positions.foldl (fun (m, db) i => destroyBackend i m db) (m, db)
    (m.unlock db.dir, { db with isOpen := false })

end Database

end Mediatheque
