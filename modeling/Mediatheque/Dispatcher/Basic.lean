import Mediatheque.Backend.Basic
import Mediatheque.Barrier
import Mediatheque.Cache.DirectoryCache
import Mediatheque.Catalog.Basic
import Mediatheque.Export.Rewriting
import Mediatheque.Registry.Persister
import Mediatheque.Url.Basic

/-!
# The dispatcher

The dispatcher stands between clients and backends. It holds the catalog, the
settings, the export table and the list of devices, and knows for each backend where
its commands go.

* `Dispatcher.forward`, `Dispatcher.broadcast`: commands for one backend and for some;
* `Dispatcher.publish`: an event for the clients;
* `generalParameters`: the settings of the library itself.
-/

namespace Mediatheque

/-- The context of the settings of the library itself. -/
def generalContext : String := "general"

/-- The action among those settings that starts a rescan. -/
def rescanParameter : String := "rescan"

/-- The settings of the library itself: an action to rescan, and those of the export
table. -/
def generalParameters : List ParameterInfo :=
  { name := rescanParameter, longName := "Rescan", kind := .button
    help := some "Rescan all media sources" } :: ExportTable.parameters

/-- Where the commands for a backend go, and which of them it takes. -/
structure Route where
  name : String
  capabilities : Capabilities
  commands : Sink Command
deriving Inhabited

namespace Route

/-- Queues a command for the backend; one that does not listen or keep up loses it. -/
def deliver (r : Route) (c : Command) : Route := { r with commands := r.commands.put c }

end Route

/-- What the library's own server is told from others by. -/
structure OwnServer where
  /-- Its address, if one is set that can be read. -/
  address : Option Url := none
  /-- How addresses are read. -/
  readUrl : String → Option Url := Url.read?
deriving Inhabited

/-- The state of the dispatcher. -/
structure Dispatcher where
  catalog : Catalog := .empty
  routes : List Route := []
  /-- The rescan that is under way, and the backends that it waits for. -/
  rescan : Barrier Token := .idle
  /-- The backends that are still to fill a new database. -/
  creation : Barrier Unit := .idle
  persister : Persister
  exports : ExportTable := .empty
  stations : StationDirectory
  /-- What a rescan clears. -/
  caches : List DirectoryCache := []
  server : OwnServer := {}
  devices : List RemoteDevice := []
  /-- The token that the next request gets. -/
  nextToken : UInt64 := 1
  /-- The events for the clients so far, the latest at the end. -/
  published : List Event := []
  disk : Disk
deriving Inhabited

namespace Dispatcher

/-- A dispatcher without backends that reads addresses in some way. A server address that
cannot be read is ignored. -/
def newReading (readUrl : String → Option Url) (catalog : Catalog) (persister : Persister)
    (options : Options) (disk : Disk) : Dispatcher :=
  let d : Dispatcher := {
    catalog := catalog
    persister := persister
    stations := ⟨options.radioBrowserServer⟩
    server := { readUrl := readUrl }
    disk := disk }
  match options.serverUrl with
  | none => d
  | some text =>
    match readUrl text with
    | none => d
    | some url =>
      { d with
        server := { d.server with address := some url }
        exports := d.exports.setRootUri text }

/-- A dispatcher without backends. -/
def new (catalog : Catalog) (persister : Persister) (options : Options) (disk : Disk) :
    Dispatcher :=
  newReading Url.read? catalog persister options disk

/-- Adds a backend with an empty queue of commands. -/
def addRoute (d : Dispatcher) (name : String) (capabilities : Capabilities) : Dispatcher :=
  { d with routes := d.routes ++ [⟨name, capabilities, .new⟩] }

def publish (d : Dispatcher) (e : Event) : Dispatcher := { d with published := d.published ++ [e] }

/-- Hands out a token. -/
def takeToken (d : Dispatcher) : Dispatcher × Token :=
  ({ d with nextToken := d.nextToken + 1 }, ⟨d.nextToken⟩)

/-- An object with the addresses that clients can fetch. -/
def present (d : Dispatcher) (c : Container) : Container :=
  c.addExternalUris d.exports d.disk.canonical? (some d.stations)

/-- Clears what is derived from the library. -/
def purge (d : Dispatcher) : Dispatcher :=
  { d with disk := d.caches.foldl (fun disk cache => cache.purge disk) d.disk }

/-! ## Commands for backends -/

/-- The place of the backend of a name, the first if several have it. -/
def routeIndex? (d : Dispatcher) (name : String) : Option Nat := d.routes.findIdx? (·.name = name)

/-- Hands a command to the backend of a name. -/
def forward (d : Dispatcher) (name : String) (c : Command) :
    Except DispatchError Unit × Dispatcher :=
  match d.routeIndex? name with
  | some i => (.ok (), { d with routes := d.routes.modify i (·.deliver c) })
  | none => (.error (.unknownBackend name), d)

/-- Hands a command to all backends that take part. -/
def broadcast (d : Dispatcher) (takesPart : Capabilities → Bool) (c : Command) : Dispatcher :=
  { d with
    routes := d.routes.map fun r => if takesPart r.capabilities then r.deliver c else r }

/-! ## Settings -/

/-- Writes the settings that are due. When that fails they stay pending. -/
def tick (d : Dispatcher) (now : Nat) : Dispatcher :=
  let (_, persister, disk) := d.persister.poll now d.disk
  { d with persister := persister, disk := disk }

/-- Writes all pending settings. -/
def flush (d : Dispatcher) : Dispatcher :=
  let (_, persister, disk) := d.persister.flush d.disk
  { d with persister := persister, disk := disk }

/-- Applies the values that the settings of the export table start with. -/
def applyStartupValues (d : Dispatcher) : Dispatcher :=
  { d with
    exports := (d.persister.startupValues generalContext).foldl
      (fun exports (name, value) => (exports.setParameter name value).1) d.exports }

end Dispatcher

end Mediatheque
