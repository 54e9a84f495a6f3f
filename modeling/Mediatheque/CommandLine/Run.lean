import Mediatheque.CommandLine.Invocation
import Mediatheque.CommandLine.Value
import Mediatheque.Database.Opening

/-!
# Carrying out an invocation

A database without backends is opened, or created if there is none and the settings
allow it; it gets one request, and is closed again, which writes its settings.

* `Invocation.run`: the events that answer.
-/

namespace Mediatheque

instance : Backend Empty where
  info b := nomatch b
  create b _ _ _ := nomatch b
  ping b _ := nomatch b
  handle b _ _ := nomatch b
  stop b := b
  destroy b := b

/-- Why an invocation fails. -/
inductive RunError where
  | unreadableConfig (path : String) (cause : DiskError)
  | badConfig (path : String)
  | database (cause : DatabaseError)
  | bus (cause : BusError)
deriving DecidableEq, Inhabited

/-- The message of an error for people. -/
def RunError.message : RunError → String
  | unreadableConfig path cause => "cannot read " ++ path ++ ": " ++ cause.message
  | badConfig path => "invalid settings in " ++ path
  | database cause => cause.message
  | bus cause => cause.message

/-- What the program finds around it. -/
structure Surroundings where
  /-- The user's settings file, if there is one. -/
  userSettings : Option String
  /-- The directory for the user's data. -/
  dataDir : String
deriving DecidableEq, Inhabited

namespace Invocation

/-- The settings that hold: the built-in ones, the user's, and those of an extra file. -/
def settings (i : Invocation) (s : Surroundings) (disk : Disk) : Except RunError Settings :=
  let loaded := Settings.load s.userSettings
  match i.config with
  | none => .ok loaded
  | some path =>
    match disk.read path with
    | .error e => .error (.unreadableConfig path e)
    | .ok text =>
      match loaded.merge? text with
      | some merged => .ok merged
      | none => .error (.badConfig path)

/-- The options with which the database is opened. -/
def databaseOptions (i : Invocation) (s : Surroundings) (settings : Settings) (disk : Disk) :
    Options :=
  let base := i.baseDir.getD (settings.options s.dataDir false).baseDir
  let create := i.create ||
    (!disk.isDir (Path.databaseDir base) && settings.createsIfMissing)
  { settings.options s.dataDir create with baseDir := base }

/-- Puts a request to a database. -/
def ask (i : Invocation) (m : Machine) (db : Database Empty) :
    Except BusError (List Event) × Machine × Database Empty :=
  let time := 1000 * i.timeout.toNat
  match i.request with
  | .browse id start count => db.call m (.browseChildren · id start count true) time
  | .object id => db.call m (.browseObject · id) time
  | .rescan => db.call m .rescan time
  | .set context name value =>
    let (sent, m, db) := db.sendBlocking m (.setParameter context name (.ofArgument value))
    (sent.map fun () => [], m, db)

/-- Carries out an invocation, and gives the events that answer it. -/
def run (i : Invocation) (s : Surroundings) (m : Machine) :
    Except RunError (List Event) × Machine :=
  match i.settings s m.disk with
  | .error e => (.error e, m)
  | .ok settings =>
    match Database.open? m (i.databaseOptions s settings m.disk) ([] : List Empty) with
    | (.error e, m) => (.error (.database e), m)
    | (.ok db, m) =>
      let (answers, m, db) := i.ask m db
      (answers.mapError .bus, (db.close m).1)

end Invocation

end Mediatheque
