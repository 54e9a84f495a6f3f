import Mediatheque.Media.Container.Json
import Mediatheque.Media.Parameter.Json
import Mediatheque.Message.Event

/-!
# Messages in JSON

A message is a record with its kind in the field `type`. Every field is written,
an absent one as `null`. A path that is no text cannot be written, and neither can a
command with one.

* `Command.ofJson?`, `Command.toJson?`;
* `Event.ofJson?`, `Event.toJson`.
-/

namespace Mediatheque

open Json (required optional withDefault)

namespace Token

def ofJson? (v : Json) : Option Token := v.uint64?.map Token.mk

def toJson (t : Token) : Json := Json.uint64 t.value

end Token

namespace DeviceKind

def ofJson? : Json → Option DeviceKind := Json.name? ofName?

def toJson (k : DeviceKind) : Json := .str k.name

end DeviceKind

namespace RemoteDevice

def ofJson? (v : Json) : Option RemoteDevice := do
  let fields ← v.fields? ["uri", "label", "kind", "protocol"]
  let uri ← required fields "uri" Json.string?
  let label ← required fields "label" Json.string?
  let kind ← required fields "kind" DeviceKind.ofJson?
  let protocol ← optional fields "protocol" Json.string?
  some ⟨uri, label, kind, protocol⟩

/-- The fields of a device, for a message that has them beside its kind. -/
def toFields (d : RemoteDevice) : List (String × Json) :=
  [("kind", d.kind.toJson), ("label", .str d.label)] ++
    Json.field? "protocol" Json.str d.protocol

def toJson (d : RemoteDevice) : Json := .obj (d.toFields ++ [("uri", .str d.uri)])

end RemoteDevice

namespace SystemPath

def ofJson? (v : Json) : Option SystemPath := v.string?.map ofText

def toJson? (p : SystemPath) : Option Json := p.text?.map .str

end SystemPath

namespace Volume

def ofJson? (v : Json) : Option Volume := do
  let fields ← v.fields? ["label", "class", "mount_point"]
  let label ← required fields "label" Json.string?
  let mediaClass ← required fields "class" MediaClass.ofJson?
  let mountPoint ← optional fields "mount_point" SystemPath.ofJson?
  some ⟨label, mediaClass, mountPoint⟩

/-- The field of the mount point, left out when it is absent. -/
def mountField? : Option SystemPath → Option (List (String × Json))
  | none => some []
  | some p => p.toJson?.map fun v => [("mount_point", v)]

def toJson? (v : Volume) : Option Json :=
  (mountField? v.mountPoint).map fun mountPoint =>
    .obj ([("class", v.mediaClass.toJson), ("label", .str v.label)] ++ mountPoint)

end Volume

def containersOfJson? : Json → Option (List Container) := Json.list? Container.ofJson?

def containersToJson (items : List Container) : Json := .arr (items.map Container.toJson)

namespace Command

/-- The command that a JSON value writes. -/
def ofJson? (v : Json) : Option Command := do
  let (kind, body) ← v.variant?
  match kind with
  | "browse-children" =>
    let fields ← body.fields? ["token", "id", "start", "count", "one_answer"]
    let token ← required fields "token" Token.ofJson?
    let id ← required fields "id" Json.string?
    let start ← withDefault fields "start" 0 Json.uint64?
    let count ← optional fields "count" Json.uint64?
    let oneAnswer ← withDefault fields "one_answer" false Json.bool?
    some (browseChildren token id start count oneAnswer)
  | "browse-object" =>
    let fields ← body.fields? ["token", "id"]
    let token ← required fields "token" Token.ofJson?
    let id ← required fields "id" Json.string?
    some (browseObject token id)
  | "splice-children" =>
    let fields ← body.fields? ["id", "index", "delete", "items"]
    let id ← required fields "id" Json.string?
    let index ← optional fields "index" Json.uint64?
    let delete ← required fields "delete" Json.uint64?
    let items ← required fields "items" containersOfJson?
    some (spliceChildren id index delete items)
  | "sort" =>
    let fields ← body.fields? ["id"]
    let id ← required fields "id" Json.string?
    some (sort id)
  | "rescan" =>
    let fields ← body.fields? ["token"]
    let token ← required fields "token" Token.ofJson?
    some (rescan token)
  | "save-local" =>
    let fields ← body.fields? ["id"]
    let id ← required fields "id" Json.string?
    some (saveLocal id)
  | "set-parameter" =>
    let fields ← body.fields? ["context", "name", "value"]
    let context ← required fields "context" Json.string?
    let name ← required fields "name" Json.string?
    let value ← required fields "value" ParameterValue.ofJson?
    some (setParameter context name value)
  | "remote-device-added" => (RemoteDevice.ofJson? body).map remoteDeviceAdded
  | "remote-device-removed" =>
    let fields ← body.fields? ["uri"]
    let uri ← required fields "uri" Json.string?
    some (remoteDeviceRemoved uri)
  | "volume-added" =>
    let fields ← body.fields? ["id", "volume"]
    let id ← required fields "id" Json.string?
    let volume ← required fields "volume" Volume.ofJson?
    some (volumeAdded id volume)
  | "volume-removed" =>
    let fields ← body.fields? ["id"]
    let id ← required fields "id" Json.string?
    some (volumeRemoved id)
  | "quit" => some quit
  | _ => none

/-- The fields of a command beside its kind, in two groups: those before `type` in
the order of the keys, and those after it. -/
def toFields? : Command → Option (List (String × Json) × List (String × Json))
  | browseChildren token id start count oneAnswer =>
    some ([("count", Json.ofOption Json.uint64 count), ("id", .str id),
      ("one_answer", .bool oneAnswer), ("start", Json.uint64 start), ("token", token.toJson)], [])
  | browseObject token id => some ([("id", .str id), ("token", token.toJson)], [])
  | spliceChildren id index delete items =>
    some ([("delete", Json.uint64 delete), ("id", .str id),
      ("index", Json.ofOption Json.uint64 index), ("items", containersToJson items)], [])
  | sort id => some ([("id", .str id)], [])
  | rescan token => some ([("token", token.toJson)], [])
  | saveLocal id => some ([("id", .str id)], [])
  | setParameter context name value =>
    some ([("context", .str context), ("name", .str name)], [("value", value.toJson)])
  | remoteDeviceAdded device => some (device.toFields, [("uri", .str device.uri)])
  | remoteDeviceRemoved uri => some ([], [("uri", .str uri)])
  | volumeAdded id volume => volume.toJson?.map fun v => ([("id", .str id)], [("volume", v)])
  | volumeRemoved id => some ([("id", .str id)], [])
  | quit => some ([], [])

/-- The JSON value that writes a command. -/
def toJson? (c : Command) : Option Json :=
  c.toFields?.map fun (before, behind) => .obj (before ++ [("type", .str c.typeName)] ++ behind)

end Command

namespace Event

/-- The event that a JSON value writes. -/
def ofJson? (v : Json) : Option Event := do
  let (kind, body) ← v.variant?
  match kind with
  | "splice-children" =>
    let fields ← body.fields? ["token", "id", "last", "index", "delete", "items"]
    let token ← optional fields "token" Token.ofJson?
    let id ← required fields "id" Json.string?
    let last ← required fields "last" Json.bool?
    let index ← required fields "index" Json.uint64?
    let delete ← required fields "delete" Json.uint64?
    let items ← required fields "items" containersOfJson?
    some (spliceChildren token id last index delete items)
  | "object" =>
    let fields ← body.fields? ["token", "object"]
    let token ← required fields "token" Token.ofJson?
    let o ← required fields "object" Container.ofJson?
    some (object token o)
  | "not-found" =>
    let fields ← body.fields? ["token", "id"]
    let token ← optional fields "token" Token.ofJson?
    let id ← required fields "id" Json.string?
    some (notFound token id)
  | "object-changed" =>
    let fields ← body.fields? ["id", "fields"]
    let id ← required fields "id" Json.string?
    let changed ← required fields "fields" Json.dictionary?
    some (objectChanged id changed)
  | "creation-done" => some creationDone
  | "rescan-done" =>
    let fields ← body.fields? ["token"]
    let token ← required fields "token" Token.ofJson?
    some (rescanDone token)
  | "backend-added" => (RemoteDevice.ofJson? body).map backendAdded
  | "backend-removed" =>
    let fields ← body.fields? ["uri"]
    let uri ← required fields "uri" Json.string?
    some (backendRemoved uri)
  | "parameter-changed" =>
    let fields ← body.fields? ["context", "name", "value"]
    let context ← required fields "context" Json.string?
    let name ← required fields "name" Json.string?
    let value ← required fields "value" ParameterValue.ofJson?
    some (parameterChanged context name value)
  | "backend-error" =>
    let fields ← body.fields? ["backend", "message"]
    let backend ← required fields "backend" Json.string?
    let message ← required fields "message" Json.string?
    some (backendError backend message)
  | _ => none

/-- The JSON value that writes an event. -/
def toJson : Event → Json
  | spliceChildren token id last index delete items =>
    .obj [("delete", Json.uint64 delete), ("id", .str id), ("index", Json.uint64 index),
      ("items", containersToJson items), ("last", .bool last),
      ("token", Json.ofOption Token.toJson token), ("type", .str "splice-children")]
  | object token o =>
    .obj [("object", o.toJson), ("token", token.toJson), ("type", .str "object")]
  | notFound token id =>
    .obj [("id", .str id), ("token", Json.ofOption Token.toJson token), ("type", .str "not-found")]
  | objectChanged id fields =>
    .obj [("fields", .obj fields.entries), ("id", .str id), ("type", .str "object-changed")]
  | creationDone => .obj [("type", .str "creation-done")]
  | rescanDone token => .obj [("token", token.toJson), ("type", .str "rescan-done")]
  | backendAdded device =>
    .obj (device.toFields ++ [("type", .str "backend-added"), ("uri", .str device.uri)])
  | backendRemoved uri => .obj [("type", .str "backend-removed"), ("uri", .str uri)]
  | parameterChanged context name value =>
    .obj [("context", .str context), ("name", .str name), ("type", .str "parameter-changed"),
      ("value", value.toJson)]
  | backendError backend message =>
    .obj [("backend", .str backend), ("message", .str message), ("type", .str "backend-error")]

end Event

namespace BackendEvent

/-- The report that a JSON value writes. -/
def ofJson? (v : Json) : Option BackendEvent := do
  let (kind, body) ← v.variant?
  match kind with
  | "publish" =>
    let fields ← body.fields? ["event"]
    let event ← required fields "event" Event.ofJson?
    some (publish event)
  | "add-root-container" =>
    let fields ← body.fields? ["container"]
    let container ← required fields "container" Container.ofJson?
    some (addRootContainer container)
  | "delete-root-container" =>
    let fields ← body.fields? ["id"]
    let id ← required fields "id" Json.string?
    some (deleteRootContainer id)
  | "export-media-dir" =>
    let fields ← body.fields? ["path"]
    let path ← required fields "path" Json.string?
    some (exportMediaDir path)
  | "unexport-media-dir" =>
    let fields ← body.fields? ["path"]
    let path ← required fields "path" Json.string?
    some (unexportMediaDir path)
  | "rescan-complete" => some rescanComplete
  | "creation-done" => some creationDone
  | "parameter-changed" =>
    let fields ← body.fields? ["name", "value"]
    let name ← required fields "name" Json.string?
    let value ← required fields "value" ParameterValue.ofJson?
    some (parameterChanged name value)
  | _ => none

end BackendEvent

end Mediatheque
