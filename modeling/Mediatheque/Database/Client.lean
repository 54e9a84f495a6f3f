import Mediatheque.Database.Basic

/-!
# Clients of a database

* `Database.send`: a command, without waiting;
* `Database.call`: a command, and its answers.
-/

namespace Mediatheque

namespace Database

variable {σ : Type}

/-- Sends a command, which a full queue drops. -/
def send (db : Database σ) (c : Command) : Database σ :=
  { db with endpoint := db.endpoint.send c }

/-- Sends a command, and waits for room in the queue. -/
def sendBlocking [Backend σ] (m : Machine) (db : Database σ) (c : Command) :
    Except BusError Unit × Machine × Database σ :=
  let (m, db) := if db.endpoint.commandSink.isFull then dispatcherTurn m db else (m, db)
  match db.endpoint.commandSink.offer c with
  | .ok s => (.ok (), m, { db with endpoint := db.endpoint.withCommandSink s })
  | .error e => (.error e, m, db)

/-- Collects the answers to a call that have come. -/
def pollCall (c : Call) (db : Database σ) : Call × Database σ :=
  let (endpoint, c) := db.endpoint.pollCall c
  (c, { db with endpoint := endpoint })

/-- Sends a command with a token of its own, and collects the answers for a number of
milliseconds. -/
def call [Backend σ] (m : Machine) (db : Database σ) (command : Token → Command) (time : Nat) :
    Except BusError (List Event) × Machine × Database σ :=
  let (endpoint, c) := db.endpoint.prepareCall
  match endpoint.submit c command with
  | (.error e, endpoint) => (.error e, m, { db with endpoint := endpoint })
  | (.ok (), endpoint) =>
    let db := { db with endpoint := endpoint }
    let (c, m, db) := await pollCall (·.isDone) (some (m.now + time)) (db.patience time) c m db
    let db := { db with endpoint := db.endpoint.unsubscribe c.subscription }
    (if c.isDone then .ok c.answers else .error (.timeout time), m, db)

end Database

end Mediatheque
