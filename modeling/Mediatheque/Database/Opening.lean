import Mediatheque.Database.Closing

/-!
# Opening a database

A database is opened in its directory, which has to be there, or else is created. One
at a time may hold the directory. The backends claim their parts of the catalog and
are told the values of their settings, and a new database is complete once those of
them that fill it have reported so.

* `Database.open?`.
-/

namespace Mediatheque

namespace Database

variable {σ : Type}

/-- Whether a database may be opened in a directory, or created. -/
def checkDir (dir : String) (create : Bool) (disk : Disk) : Except DatabaseError Unit :=
  if create then if disk.isPresent dir then .error (.alreadyExists dir) else .ok ()
  else if disk.isDir dir then .ok () else .error (.notFound dir)

/-- Creates some directories where they are missing. -/
def ensureDirs (disk : Disk) : List String → Except DatabaseError Unit × Disk
  | [] => (.ok (), disk)
  | dir :: rest =>
    match disk.createDirs dir with
    | .ok disk => ensureDirs disk rest
    | .error e => (.error (.disk dir e), disk)

/-- Locks the directory of a database, which is created where it is missing. -/
def lockDir (m : Machine) (dir : String) : Except DatabaseError Unit × Machine :=
  match ensureDirs m.disk [dir] with
  | (.error e, disk) => (.error e, { m with disk := disk })
  | (.ok (), disk) =>
    let m := { m with disk := disk }
    match m.lock? dir with
    | .error e => (.error (.disk (Path.lockFile dir) e), m)
    | .ok none => (.error (.locked dir), m)
    | .ok (some m) => (.ok (), m)

/-- Creates what belongs into the directory of a database, and loads its settings. -/
def loadSettings (disk : Disk) (dir : String) (debounce : Nat) :
    Except DatabaseError Persister × Disk :=
  match ensureDirs disk [Path.cacheDir dir, Path.thumbnailsDir dir] with
  | (.error e, disk) => (.error e, disk)
  | (.ok (), disk) => Persister.load (Path.configFile dir) debounce disk

/-- What comes of the backends when they are created: themselves, the catalog with their
claims, and the settings that they declare. -/
def createBackends [Backend σ] (dir : String) (fresh : Bool) :
    List σ → Machine → Catalog → Persister → List σ × Machine × Catalog × Persister
  | [], m, catalog, p => ([], m, catalog, p)
  | b :: rest, m, catalog, p =>
    let info := Backend.info b
    let (b, catalog) := Backend.create b dir fresh catalog
    let p := if info.parameters.isEmpty then p else p.register info.name info.parameters
    let (created, result) :=
      createBackends dir fresh rest (m.note info.name (.create fresh)) catalog p
    (b :: created, result)

/-- Adds a backend, and tells it the values that its settings start with. -/
def addBackend [Backend σ] (db : Database σ) (info : BackendInfo) (b : σ) : Database σ :=
  let db : Database σ := { db with
    runners := db.runners ++ [⟨info, .running b⟩]
    dispatcher := db.dispatcher.addRoute info.name info.capabilities }
  (db.dispatcher.persister.startupValues info.name).foldl (fun db (name, value) =>
    db.modifyCommands (db.runners.length - 1) (·.put (.setParameter info.name name value))) db

/-- A database at the moment when everyone begins to work. -/
def start [Backend σ] (m : Machine) (o : Options) (persister : Persister) (backends : List σ) :
    Machine × Database σ :=
  let dir := Path.databaseDir o.baseDir
  let infos := backends.map Backend.info
  let (backends, m, catalog, persister) :=
    createBackends dir o.create backends m .empty
      (persister.register generalContext generalParameters)
  let d := Dispatcher.new catalog persister o m.disk
  let d : Dispatcher := { d with
    caches := [⟨"thumbnails", Path.thumbnailsDir dir⟩]
    exports := d.exports.add (Path.thumbnailsDir dir) }
  let db : Database σ := {
    dir := dir
    endpoint := .new
    dispatcher := d.applyStartupValues
    reports := .new
    cache := .new o.objectCacheSize
    runners := []
    pollInterval := o.pollInterval }
  (m, (infos.zip backends).foldl (fun db (info, b) => db.addBackend info b) db)

/-- The backends that are to report that a new database is filled. -/
def creators (db : Database σ) : List String :=
  (db.runners.filter (·.info.capabilities.creationDone)).map (·.info.name)

/-- Looks whether a subscription has been told that the database is complete. -/
def lookForCreation (s : Subscription) (seen : Bool) (db : Database σ) : Bool × Database σ :=
  let (events, sink) := (db.endpoint.eventBus.sink s.sink).drain
  let bus := db.endpoint.eventBus.setSink s.sink sink
  (seen || events.any fun | .creationDone => true | _ => false,
    { db with endpoint := { db.endpoint with eventBus := bus } })

/-- Begins to wait for those backends, with a subscription that will see the end. -/
def beginCreation (db : Database σ) : Subscription × Database σ :=
  let (endpoint, s) := db.endpoint.subscribe
  let d := db.dispatcher.beginCreation db.creators
  let endpoint := d.published.foldl Endpoint.publish endpoint
  (s, { db with endpoint := endpoint, dispatcher := { d with published := [] } })

/-- Waits until a new database is complete. If that takes too long it is closed. -/
def complete [Backend σ] (m : Machine) (o : Options) (db : Database σ) :
    Except DatabaseError (Database σ) × Machine :=
  let (s, db) := db.beginCreation
  let finish (db : Database σ) : Database σ :=
    { db with endpoint := db.endpoint.unsubscribe s }
  if !o.waitForCreation then (.ok (finish db), m)
  else
    let deadline := o.creationTimeout.map (m.now + ·)
    let rounds := db.patience o.creationTimeout
    match await (lookForCreation s) id deadline rounds false m db with
    | (true, m, db) => (.ok (finish db), m)
    | (false, m, db) =>
      let (m, _) := close m (finish db)
      (.error (.creationTimeout (o.creationTimeout.getD 0)), m)

/-- Opens a database, or tells why it does not. -/
def open? [Backend σ] (m : Machine) (o : Options) (backends : List σ) :
    Except DatabaseError (Database σ) × Machine :=
  let dir := Path.databaseDir o.baseDir
  match checkDir dir o.create m.disk with
  | .error e => (.error e, m)
  | .ok () =>
    match lockDir m dir with
    | (.error e, m) => (.error e, m)
    | (.ok (), m) =>
      match loadSettings m.disk dir o.saveDebounce with
      | (.error e, disk) => (.error e, { m with disk := disk }.unlock dir)
      | (.ok persister, disk) =>
        let (m, db) := start { m with disk := disk } o persister backends
        if o.create then db.complete m o else (.ok db, m)

end Database

end Mediatheque
