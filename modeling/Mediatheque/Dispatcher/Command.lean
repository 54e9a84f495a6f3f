import Mediatheque.Dispatcher.Basic

/-!
# Commands of clients

What the dispatcher does with a command. An object that the catalog serves is
answered from there, all others by the backend that owns them; commands without a
target concern the library as a whole.

* `Dispatcher.handleCommand`: a command, with the reason if it is refused.
-/

namespace Mediatheque

namespace Dispatcher

/-! ## Objects -/

/-- Tells clients that there is no such object. -/
def reportMissing (d : Dispatcher) (token : Option Token) (id : String) :
    Except DispatchError Unit × Dispatcher :=
  (.error (.notFound id), d.publish (.notFound token id))

/-- The position of an object among its siblings, and their number. -/
def position? (d : Dispatcher) (node : Container) : Option (Nat × Nat) := do
  let parent ← ObjectId.parent? node.id >>= d.catalog.get?
  let index ← parent.childIndex? node.id
  some (index, parent.children.length)

/-- An object of the catalog as clients see it. -/
def presented (d : Dispatcher) (node : Container) : Container :=
  match d.position? node with
  | some (index, total) => d.present (node.finalize (some (.ofNat index)) (.ofNat total))
  | none => d.present (node.finalize none 0)

/-- Answers with an object of the catalog. -/
def serveObject (d : Dispatcher) (token : Token) (id : String) : Dispatcher :=
  match d.catalog.get? id with
  | some node => d.publish (.object token (d.presented node))
  | none => d

/-- Answers with a page of the children of an object of the catalog. -/
def serveChildren (d : Dispatcher) (token : Token) (id : String) (start : UInt64)
    (count : Option UInt64) : Except Fault Dispatcher := do
  match ← d.catalog.browse id start count with
  | none => .ok d
  | some (page, _) =>
    .ok (d.publish (.spliceChildren (some token) id true start 0 (page.map d.present)))

/-- Hands a command for an object to its owner; the catalog's own objects take none. -/
def changeObject (d : Dispatcher) (id : String) (c : Command) :
    Except DispatchError Unit × Dispatcher :=
  match d.catalog.resolve id with
  | .served _ => (.ok (), d)
  | .delegated backend _ _ => d.forward backend c
  | .missing => d.reportMissing none id

/-! ## The whole library -/

/-- Asks the backends to look for changes, unless they are still at it. What is derived
from the library is cleared. -/
def startRescan (d : Dispatcher) (token : Token) : Except DispatchError Unit × Dispatcher :=
  let participants := (d.routes.filter (·.capabilities.rescan)).map (·.name)
  match d.rescan.begin token participants with
  | (_, .rejected _) => (.error .rescanPending, d)
  | (rescan, .immediate token) =>
    (.ok (), ({ d with rescan := rescan }.purge).publish (.rescanDone token))
  | (rescan, .started) =>
    (.ok (), ({ d with rescan := rescan }.broadcast (·.rescan) (.rescan token)).purge)

/-- Stores a value of the library's own settings, and applies it. -/
def setOwnParameter (d : Dispatcher) (now : Nat) (name : String) (value : ParameterValue) :
    Except DispatchError Unit × Dispatcher :=
  match d.persister.set generalContext name value now with
  | .error e => (.error e, d)
  | .ok persister =>
    let d := { d with persister := persister }
    if name = rescanParameter then
      let (d, token) := d.takeToken
      d.startRescan token
    else (.ok (), { d with exports := (d.exports.setParameter name value).1 })

/-- Stores a value of a setting, and hands it to the backend whose setting it is. -/
def setParameter (d : Dispatcher) (now : Nat) (context name : String) (value : ParameterValue) :
    Except DispatchError Unit × Dispatcher :=
  if context = generalContext then d.setOwnParameter now name value
  else if (d.routeIndex? context).isNone then (.error (.unknownBackend context), d)
  else
    match d.persister.set context name value now with
    | .error e => (.error e, d)
    | .ok persister =>
      { d with persister := persister }.forward context (.setParameter context name value)

/-! ## Devices -/

/-- Whether a device is this library's own server. -/
def isOwnServer (d : Dispatcher) (device : RemoteDevice) : Bool :=
  match device.kind, d.server.address, d.server.readUrl device.uri with
  | .mediaServer, some own, some url => url.sameMachine own
  | _, _, _ => false

/-- The devices other than the one with a URI. -/
def devicesWithout (d : Dispatcher) (uri : String) : List RemoteDevice :=
  d.devices.filter (·.uri ≠ uri)

/-- Takes up a device, in place of the one with its URI. -/
def addDevice (d : Dispatcher) (device : RemoteDevice) : Dispatcher :=
  if d.isOwnServer device then d
  else
    let d := d.broadcast (·.remoteDevices) (.remoteDeviceAdded device)
    { d with devices := d.devicesWithout device.uri ++ [device] }.publish (.backendAdded device)

/-- Forgets a device. -/
def removeDevice (d : Dispatcher) (uri : String) : Dispatcher :=
  let d := { d with devices := d.devicesWithout uri }
  (d.broadcast (·.remoteDevices) (.remoteDeviceRemoved uri)).publish (.backendRemoved uri)

/-! ## Commands -/

/-- Handles a command, and tells why if it is refused. -/
def handleCommand (d : Dispatcher) (now : Nat) (c : Command) :
    Except Fault (Except DispatchError Unit × Dispatcher) :=
  match c with
  | .browseObject token id =>
    match d.catalog.resolve id with
    | .served _ | .delegated _ _ true => .ok (.ok (), d.serveObject token id)
    | .delegated backend _ false => .ok (d.forward backend c)
    | .missing => .ok (d.reportMissing (some token) id)
  | .browseChildren token id start count _ =>
    match d.catalog.resolve id with
    | .served _ => do
      let d ← d.serveChildren token id start count
      .ok (.ok (), d)
    | .delegated backend _ _ => .ok (d.forward backend c)
    | .missing => .ok (d.reportMissing (some token) id)
  | .spliceChildren id _ _ _ | .sort id | .saveLocal id => .ok (d.changeObject id c)
  | .rescan token => .ok (d.startRescan token)
  | .setParameter context name value => .ok (d.setParameter now context name value)
  | .remoteDeviceAdded device => .ok (.ok (), d.addDevice device)
  | .remoteDeviceRemoved uri => .ok (.ok (), d.removeDevice uri)
  | .volumeAdded _ _ | .volumeRemoved _ => .ok (.ok (), d.broadcast (·.volumes) c)
  | .quit => .ok (.ok (), d)

end Dispatcher

end Mediatheque
