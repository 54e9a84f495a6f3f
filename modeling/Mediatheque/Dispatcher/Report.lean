import Mediatheque.Dispatcher.Basic

/-!
# Reports of backends

What the dispatcher does with a report. Events go on to the clients; changes of the
top-level containers and of the export table are carried out; and a rescan or the
creation of a database ends with the last report that it waits for.

* `Dispatcher.handleReport`: a report of a backend;
* `Dispatcher.beginCreation`: begins to wait for the backends that fill a database.
-/

namespace Mediatheque

namespace Dispatcher

/-! ## The root listing -/

/-- Tells clients that a top-level container is gone. -/
def publishRemoval (d : Dispatcher) (index : Nat) (last : Bool) : Dispatcher :=
  d.publish (.spliceChildren none "/" last (.ofNat index) 1 [])

/-- Tells clients of a new top-level container. -/
def publishInsertion (d : Dispatcher) (index : Nat) (container : Container) : Dispatcher :=
  let item := container.finalize (some (.ofNat index)) (.ofNat d.catalog.children.length)
  d.publish (.spliceChildren none "/" true (.ofNat index) 0 [item])

/-- Removes a top-level container, if there is one with the id. -/
def deleteContainer (d : Dispatcher) (id : String) : Dispatcher :=
  match d.catalog.delete id with
  | (catalog, some (index, _)) => { d with catalog := catalog }.publishRemoval index true
  | (_, none) => d

/-- Adds a top-level container in place of the one with its id. -/
def addContainer (d : Dispatcher) (container : Container) : Dispatcher :=
  let d := d.deleteContainer container.id
  let (catalog, index) := d.catalog.add container
  { d with catalog := catalog }.publishInsertion index container

/-- Tells clients that a top-level container has moved in the listing. -/
def publishMove (d : Dispatcher) (source target : Nat) : Dispatcher :=
  match d.catalog.children[target]? with
  | none => d
  | some node => (d.publishRemoval source false).publishInsertion target node

/-! ## Events -/

/-- An event of a backend as clients see it. -/
def presentEvent (d : Dispatcher) : Event → Event
  | .spliceChildren token id last index delete items =>
    .spliceChildren token id last index delete (items.map d.present)
  | .object token object => .object token (d.present object)
  | e => e

/-- Hands an event on to the clients. Changed fields are merged into the catalog too. -/
def relay (d : Dispatcher) (e : Event) : Except Fault Dispatcher :=
  match e with
  | .objectChanged id fields => do
    let (catalog, merge) ← d.catalog.merge id fields
    let d := { d with catalog := catalog }.publish e
    match merge with
    | .moved source target => .ok (d.publishMove source target)
    | _ => .ok d
  | e => .ok (d.publish (d.presentEvent e))

/-! ## Ends of waiting -/

/-- Begins to wait for the backends that fill a new database; without any it is done. -/
def beginCreation (d : Dispatcher) (participants : List String) : Dispatcher :=
  match d.creation.begin () participants with
  | (creation, .started) => { d with creation := creation }
  | (_, .immediate ()) => d.publish .creationDone
  | (_, .rejected ()) => d

/-- A backend has finished its rescan. -/
def completeRescan (d : Dispatcher) (backend : String) : Dispatcher :=
  match d.rescan.complete backend with
  | (rescan, .done token) => { d with rescan := rescan }.publish (.rescanDone token)
  | (rescan, _) => { d with rescan := rescan }

/-- A backend has filled its part of a new database. -/
def completeCreation (d : Dispatcher) (backend : String) : Dispatcher :=
  match d.creation.complete backend with
  | (creation, .done ()) => { d with creation := creation }.publish .creationDone
  | (creation, _) => { d with creation := creation }

/-- Stores a value that a backend has changed by itself, if it has declared the setting. -/
def noteParameter (d : Dispatcher) (now : Nat) (backend name : String) (value : ParameterValue) :
    Dispatcher :=
  let d := match d.persister.set backend name value now with
    | .ok persister => { d with persister := persister }
    | .error _ => d
  d.publish (.parameterChanged backend name value)

/-! ## Reports -/

/-- Handles a report of a backend. -/
def handleReport (d : Dispatcher) (now : Nat) (m : BackendMessage) : Except Fault Dispatcher :=
  match m.event with
  | .publish e => d.relay e
  | .addRootContainer container => .ok (d.addContainer container)
  | .deleteRootContainer id => .ok (d.deleteContainer id)
  | .exportMediaDir path => .ok { d with exports := d.exports.add path }
  | .unexportMediaDir path => .ok { d with exports := d.exports.delete path }
  | .rescanComplete => .ok (d.completeRescan m.backend)
  | .creationDone => .ok (d.completeCreation m.backend)
  | .parameterChanged name value => .ok (d.noteParameter now m.backend name value)

end Dispatcher

end Mediatheque
