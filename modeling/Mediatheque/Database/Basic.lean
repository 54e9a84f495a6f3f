import Mediatheque.Backend.Behaviour
import Mediatheque.Bus.Endpoint
import Mediatheque.Database.Machine
import Mediatheque.Dispatcher.Turn

/-!
# Databases

An open database: a dispatcher, a runner for each backend, and the endpoint that
clients reach. Dispatcher and runners work in turns of their own; in a round each of
them has one.

* `Database.runnerTurn`, `Database.dispatcherTurn`: one turn;
* `Database.round`: a turn of everyone;
* `Database.await`: rounds until something has come about.
-/

namespace Mediatheque

/-- Where the work of a backend stands. -/
inductive RunnerState (σ : Type) where
  | running (backend : σ)
  /-- It was told to quit, and did. -/
  | ended (backend : σ)
  /-- The backend has failed. -/
  | failed
deriving Inhabited

/-- The work of a backend. -/
structure Runner (σ : Type) where
  info : BackendInfo
  state : RunnerState σ
deriving Inhabited

/-- An open database, or what is left of one. The runners and the routes of the dispatcher
stand in the same order. -/
structure Database (σ : Type) where
  dir : String
  endpoint : Endpoint
  dispatcher : Dispatcher
  outlook : Dispatcher.Outlook := .running
  reports : Sink BackendMessage
  cache : ObjectCache
  runners : List (Runner σ)
  /-- The time that a round takes, in milliseconds. -/
  pollInterval : Nat
  /-- Whether it holds the lock on its directory. -/
  isOpen : Bool := true
deriving Inhabited

namespace Database

variable {σ : Type}

/-- Whether the dispatcher is at work. -/
def isRunning (db : Database σ) : Bool := db.outlook = .running

def backendNames (db : Database σ) : List String := db.runners.map (·.info.name)

/-- Changes the queue of commands for the backend at a position. -/
def modifyCommands (db : Database σ) (i : Nat) (f : Sink Command → Sink Command) : Database σ :=
  { db with dispatcher := { db.dispatcher with
      routes := db.dispatcher.routes.modify i fun r => { r with commands := f r.commands } } }

def setState (db : Database σ) (i : Nat) (state : RunnerState σ) : Database σ :=
  { db with runners := db.runners.modify i fun r => { r with state := state } }

/-! ## Turns -/

/-- A backend at work: its state, the cache, the reports that wait for the dispatcher, and
the commands that it has handled. -/
structure Work (σ : Type) where
  backend : Option σ
  cache : ObjectCache
  reports : Sink BackendMessage
  handled : List Command := []

/-- Takes over a reaction. -/
def Work.after (w : Work σ) (name : String) (r : Reaction σ) : Work σ :=
  { w with
    backend := r.next
    cache := r.cache
    reports := r.reports.foldl (fun sink event => sink.put ⟨name, event⟩) w.reports }

/-- Has a backend handle a command, unless it has failed. -/
def Work.handle [Backend σ] (dir : String) (now : Nat) (name : String) (w : Work σ) (c : Command) :
    Work σ × List Command × Flow :=
  match w.backend with
  | none => (w, [], .stop)
  | some b =>
    let w := w.after name (Backend.handle b c ⟨dir, w.cache, now⟩)
    if w.backend.isSome then ({ w with handled := w.handled ++ [c] }, [], .go) else (w, [], .stop)

/-- A turn of the backend at a position: a piece of its own work, then the commands that
have queued up. -/
def runnerTurn [Backend σ] (i : Nat) (m : Machine) (db : Database σ) : Machine × Database σ :=
  match db.runners[i]?, db.dispatcher.routes[i]? with
  | some { info, state := .running b }, some route =>
    let work : Work σ := { backend := some b, cache := db.cache, reports := db.reports }
    let work := work.after info.name (Backend.ping b ⟨db.dir, db.cache, m.now⟩)
    let (pass, work, commands) :=
      if work.backend.isSome then
        route.commands.pass (Work.handle db.dir m.now info.name) work
      else (⟨0, false⟩, work, route.commands)
    let m := work.handled.foldl (fun m c => m.note info.name (.handle c)) m
    let db := { db with cache := work.cache, reports := work.reports }
    match work.backend with
    | none => (m, (db.setState i .failed).modifyCommands i fun _ => commands.close)
    | some b =>
      if pass.keepRunning then
        (m, (db.setState i (.running b)).modifyCommands i fun _ => commands)
      else (m, (db.setState i (.ended b)).modifyCommands i fun _ => commands.close)
  | _, _ => (m, db)

/-- A turn of the dispatcher. When it ends its queues are closed. -/
def dispatcherTurn (m : Machine) (db : Database σ) : Machine × Database σ :=
  if !db.isRunning then (m, db)
  else
    let d := { db.dispatcher with disk := m.disk, nextToken := db.endpoint.nextToken }
    let turn := d.turn m.now db.endpoint.commandSink db.reports
    let goesOn := turn.outlook = .running
    let endpoint := turn.dispatcher.published.foldl Endpoint.publish
      (db.endpoint.withCommandSink (if goesOn then turn.commands else turn.commands.close))
    ({ m with disk := turn.dispatcher.disk },
      { db with
        dispatcher := { turn.dispatcher with published := [] }
        outlook := turn.outlook
        endpoint := { endpoint with nextToken := turn.dispatcher.nextToken }
        reports := if goesOn then turn.reports else turn.reports.close })

/-! ## Rounds -/

/-- A turn of every backend and of the dispatcher. -/
def round [Backend σ] (m : Machine) (db : Database σ) : Machine × Database σ :=
  let (m, db) := (List.range db.runners.length).foldl (fun (m, db) i => runnerTurn i m db) (m, db)
  let (m, db) := dispatcherTurn m db
  ({ m with now := m.now + db.pollInterval }, db)

/-- Some rounds. -/
def rounds [Backend σ] : Nat → Machine → Database σ → Machine × Database σ
  | 0, m, db => (m, db)
  | n + 1, m, db =>
    let (m, db) := round m db
    rounds n m db

/-- Rounds until what looks at the database have come to is enough, or until a deadline, and
not more than a number of them. -/
def await [Backend σ] {α : Type} (look : α → Database σ → α × Database σ) (enough : α → Bool)
    (deadline : Option Nat) : Nat → α → Machine → Database σ → α × Machine × Database σ
  | 0, a, m, db =>
    let (a, db) := look a db
    (a, m, db)
  | n + 1, a, m, db =>
    let (a, db) := look a db
    if enough a || deadline.any (· ≤ m.now) then (a, m, db)
    else
      let (m, db) := round m db
      await look enough deadline n a m db

/-- The number of rounds after which a wait is over: those that its time takes, and for a
wait without limit a number that stands for all. -/
def patience (db : Database σ) : Option Nat → Nat
  | some time => time / max db.pollInterval 1 + 1
  | none => UInt32.size

end Database

end Mediatheque
