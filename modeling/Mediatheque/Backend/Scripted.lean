import Mediatheque.Backend.Claim
import Mediatheque.Media.Parameter.Json

/-!
# Scripted backends

A backend that follows a script. It has a few songs, and answers every command in a
way of its own, so that it shows what a database makes of commands and reports:

* every container holds the same songs;
* an object is looked for in the shared cache first;
* a splice is refused, a sort changes the label, a rescan is done at once;
* a volume becomes a top-level container.
-/

namespace Mediatheque

/-- What a backend is to do. -/
structure Script where
  name : String
  capabilities : Capabilities := {}
  parameters : List ParameterInfo := []
  claims : List Claim := []
  songs : Nat := 3
  /-- The kind of command that it fails on. -/
  failsOn : Option String := none
  /-- Whether it keeps to itself that a new database is filled. -/
  silent : Bool := false
deriving Inhabited

namespace Script

/-- The capabilities that a JSON value writes. -/
def capabilitiesOfJson? (v : Json) : Option Capabilities := do
  let fields ← v.fields? ["rescan", "remote_devices", "volumes", "creation_done"]
  let rescan ← Json.optional fields "rescan" Json.bool?
  let remoteDevices ← Json.optional fields "remote_devices" Json.bool?
  let volumes ← Json.optional fields "volumes" Json.bool?
  let creationDone ← Json.optional fields "creation_done" Json.bool?
  some ⟨rescan.getD false, remoteDevices.getD false, volumes.getD false, creationDone.getD false⟩

/-- The script that a JSON value writes. -/
def ofJson? (v : Json) : Option Script := do
  let fields ← v.fields?
    ["name", "capabilities", "parameters", "claims", "songs", "panic_on", "silent"]
  let name ← Json.required fields "name" Json.string?
  let capabilities ← Json.optional fields "capabilities" capabilitiesOfJson?
  let parameters ← Json.optional fields "parameters" (Json.list? ParameterInfo.ofJson?)
  let claims ← Json.optional fields "claims" (Json.list? Claim.ofJson?)
  let songs ← Json.optional fields "songs" Json.uint64?
  let failsOn ← Json.optional fields "panic_on" Json.string?
  let silent ← Json.optional fields "silent" Json.bool?
  some ⟨name, capabilities.getD {}, parameters.getD [], claims.getD [], (songs.getD 3).toNat,
    failsOn, silent.getD false⟩

/-- The song with a number. -/
def song (number : Nat) (id label : String) : Container :=
  (Container.new id label .song).addSource .src
    { uri := "/srv/music/" ++ toString number ++ ".flac" }

/-- The songs in a window of those below an id. -/
def page (s : Script) (id : String) (start : UInt64) (count : Option UInt64) : List Container :=
  let n := windowCount start.toNat (count.map (·.toNat)) s.songs
  (List.range n).map fun i =>
    let number := start.toNat + i
    (song number (id ++ "/" ++ toString number) ("Song " ++ toString number)).finalize
      (some (.ofNat number)) (.ofNat s.songs)

/-- The answers to a request for children: all at once, or one by one. -/
def pageEvents (token : Token) (id : String) (start : UInt64) (oneAnswer : Bool)
    (page : List Container) : List Event :=
  if oneAnswer || page.isEmpty then [.spliceChildren (some token) id true start 0 page]
  else
    page.mapIdx fun i c => .spliceChildren (some token) id (i + 1 = page.length)
      (start + .ofNat i) 0 [c]

/-- The object with an id, and the cache with a trace of the first request for it. -/
def lookUp (id : String) (context : BackendContext) : Container × ObjectCache :=
  match context.cache.get? id none context.now with
  | some object => (object, context.cache)
  | none => (song 0 id "Fresh", context.cache.put id (song 0 id "Cached") context.now)

/-- What the script does with a command. -/
def react (s : Script) (c : Command) (context : BackendContext) : List BackendEvent × ObjectCache :=
  match c with
  | .browseChildren token id start count oneAnswer =>
    ((pageEvents token id start oneAnswer (s.page id start count)).map .publish, context.cache)
  | .browseObject token id =>
    let (object, cache) := lookUp id context
    ([.publish (.object token object)], cache)
  | .spliceChildren id _ _ _ =>
    ([.publish (.backendError s.name ("cannot splice " ++ id))], context.cache)
  | .sort id =>
    let fields := Dictionary.ofList [("label", .str ("Sorted " ++ s.name)), ("sorted", .bool true)]
    ([.publish (.objectChanged id fields)], context.cache)
  | .rescan _ => ([.rescanComplete], context.cache)
  | .saveLocal id => ([.parameterChanged "saved" (.string id)], context.cache)
  | .volumeAdded id volume =>
    let container := Container.new id volume.label volume.mediaClass
    ([.addRootContainer { container with backend := some s.name }], context.cache)
  | .volumeRemoved id => ([.deleteRootContainer id], context.cache)
  | _ => ([], context.cache)

end Script

/-- A backend that follows a script. -/
structure Scripted where
  script : Script
  /-- Whether it has yet to tell that a new database is filled. -/
  toAnnounce : Bool := false
deriving Inhabited

instance : Backend Scripted where
  info b := {
    name := b.script.name
    longName := "Fake " ++ b.script.name
    capabilities := b.script.capabilities
    parameters := b.script.parameters }
  create b _ fresh catalog :=
    ({ b with toAnnounce := fresh && b.script.capabilities.creationDone && !b.script.silent },
      b.script.claims.foldl (fun catalog claim => (claim.apply b.script.name catalog).1) catalog)
  ping b context := {
    next := some { b with toAnnounce := false }
    reports := if b.toAnnounce then [.creationDone] else []
    cache := context.cache }
  handle b c context :=
    if b.script.failsOn = some c.typeName then { next := none, cache := context.cache }
    else
      let (reports, cache) := b.script.react c context
      { next := some b, reports := reports, cache := cache }
  stop b := b
  destroy b := b

end Mediatheque
