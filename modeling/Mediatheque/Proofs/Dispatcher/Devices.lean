import Mathlib.Data.List.Nodup
import Mediatheque.Proofs.Bus.Sink
import Mediatheque.Proofs.Dispatcher.Edits

/-!
# Commands for devices

A command for a device changes the list of devices, is announced to clients and is handed to the
backends that take part, all in step (`sound_addDevice`, `sound_removeDevice`); this library's own
server is passed over. Other commands leave the list alone, and tell neither clients nor backends
of a device (`spares_handleCommand`). So every command leaves the list, clients and backends in
step (`sound_handleCommand`). A report leaves the list alone too, though a backend may publish an
event that tells of a device (`sameDevices_handleReport`).
-/

namespace Mediatheque

/-! ## Devices in commands and events -/

/-- A command tells of a device. -/
def Command.isOfDevice : Command → Bool
  | .remoteDeviceAdded _ | .remoteDeviceRemoved _ => true
  | _ => false

/-- An event tells of a device. -/
def Event.isOfDevice : Event → Bool
  | .backendAdded _ | .backendRemoved _ => true
  | _ => false

/-- The devices that a client knows of after an event. One that is added takes the place of the
one with its URI. -/
def Event.updateDevices (devices : List RemoteDevice) : Event → List RemoteDevice
  | .backendAdded device => devices.filter (·.uri ≠ device.uri) ++ [device]
  | .backendRemoved uri => devices.filter (·.uri ≠ uri)
  | _ => devices

/-- A device is the library's own server: a media server at the host and the port of its
address, if that can be read. -/
def RemoteDevice.IsOwn (own : OwnServer) (device : RemoteDevice) : Prop :=
  device.kind = .mediaServer ∧ ∃ address url, own.address = some address ∧
    own.readUrl device.uri = some url ∧ url.host = address.host ∧
    url.effectivePort? = address.effectivePort?

/-- The events of devices that a command is announced by. -/
inductive Command.Announced (own : OwnServer) : Command → List Event → Prop where
  | added {device : RemoteDevice} (h : ¬ device.IsOwn own) :
    Announced own (.remoteDeviceAdded device) [.backendAdded device]
  | passedOver {device : RemoteDevice} (h : device.IsOwn own) :
    Announced own (.remoteDeviceAdded device) []
  | removed (uri : String) : Announced own (.remoteDeviceRemoved uri) [.backendRemoved uri]
  | aside {c : Command} (h : c.isOfDevice = false) : Announced own c []

theorem nodup_updateDevices {devices : List RemoteDevice} (h : (devices.map (·.uri)).Nodup)
    (e : Event) : ((e.updateDevices devices).map (·.uri)).Nodup := by
  have hfilter (uri : String) : ((devices.filter (·.uri ≠ uri)).map (·.uri)).Nodup :=
    h.sublist (List.filter_sublist.map _)
  cases e with
  | backendAdded device =>
    have hnew : device.uri ∉ (devices.filter (·.uri ≠ device.uri)).map (·.uri) := by simp
    rw [Event.updateDevices, List.map_append, List.map_singleton, ← List.concat_eq_append]
    exact (hfilter device.uri).concat hnew
  | backendRemoved uri => exact hfilter uri
  | _ => exact h

theorem nodup_foldl_updateDevices (events : List Event) {devices : List RemoteDevice}
    (h : (devices.map (·.uri)).Nodup) :
    ((events.foldl Event.updateDevices devices).map (·.uri)).Nodup := by
  induction events generalizing devices with
  | nil => exact h
  | cons e events ih => exact ih (nodup_updateDevices h e)

theorem mem_updateDevices {devices : List RemoteDevice} {e : Event} {device : RemoteDevice}
    (h : device ∈ e.updateDevices devices) : device ∈ devices ∨ e = .backendAdded device := by
  cases e with
  | backendAdded added =>
    rcases List.mem_append.1 h with hold | hnew
    · exact .inl (List.mem_of_mem_filter hold)
    · exact .inr (by rw [List.mem_singleton.1 hnew])
  | backendRemoved uri => exact .inl (List.mem_of_mem_filter h)
  | _ => exact .inl h

theorem mem_foldl_updateDevices {events : List Event} {devices : List RemoteDevice}
    {device : RemoteDevice} (h : device ∈ events.foldl Event.updateDevices devices) :
    device ∈ devices ∨ .backendAdded device ∈ events := by
  induction events generalizing devices with
  | nil => exact .inl h
  | cons e events ih =>
    rcases ih h with hmem | hmem
    · rcases mem_updateDevices hmem with hold | rfl
      · exact .inl hold
      · exact .inr List.mem_cons_self
    · exact .inr (List.mem_cons_of_mem e hmem)

/-! ## Lists that grow -/

/-- A list has grown by items of which a test holds of none. -/
def GrowsAside {α : Type} (test : α → Bool) (before after : List α) : Prop :=
  ∃ more, after = before ++ more ∧ ∀ a ∈ more, test a = false

namespace GrowsAside

variable {α : Type} {test : α → Bool} {before after later : List α}

theorem refl (l : List α) : GrowsAside test l l :=
  ⟨[], (List.append_nil l).symm, List.forall_mem_nil _⟩

theorem append_singleton (l : List α) {a : α} (h : test a = false) :
    GrowsAside test l (l ++ [a]) :=
  ⟨[a], rfl, List.forall_mem_singleton.2 h⟩

theorem trans (h : GrowsAside test before after) (h' : GrowsAside test after later) :
    GrowsAside test before later := by
  obtain ⟨more, rfl, hmore⟩ := h
  obtain ⟨rest, rfl, hrest⟩ := h'
  exact ⟨more ++ rest, List.append_assoc .., List.forall_mem_append.2 ⟨hmore, hrest⟩⟩

theorem isPrefix (h : GrowsAside test before after) : before <+: after := by
  obtain ⟨more, rfl, -⟩ := h
  exact List.prefix_append before more

theorem filter_drop (h : GrowsAside test before after) :
    (after.drop before.length).filter test = [] := by
  obtain ⟨more, rfl, hmore⟩ := h
  rw [List.drop_left]
  exact List.filter_eq_nil_iff.2 fun a ha => by simp [hmore a ha]

end GrowsAside

namespace Dispatcher

/-! ## What has nothing to do with devices -/

/-- The commands that wait for the backend at a place. -/
def queueAt (d : Dispatcher) (i : Nat) : List Command :=
  (d.routes[i]?.map (·.commands.queue)).getD []

/-- The backend at a place takes part where devices are concerned. -/
def heeds (d : Dispatcher) (i : Nat) : Bool := d.routes[i]?.any (·.capabilities.remoteDevices)

/-- The queue of the backend at a place takes one more command: it has room, and somebody takes
from it. -/
def hasRoom (d : Dispatcher) (i : Nat) : Bool := d.routes[i]?.any (·.commands.accepts)

/-- The dispatcher `d'` has the devices of `d`, and has told nobody of any. -/
structure Spares (d d' : Dispatcher) : Prop where
  devices : d'.devices = d.devices
  server : d'.server = d.server
  heeds : d'.heeds = d.heeds
  published : GrowsAside Event.isOfDevice d.published d'.published
  queues : ∀ i, GrowsAside Command.isOfDevice (d.queueAt i) (d'.queueAt i)

variable {d d' d'' : Dispatcher}

theorem heeds_congr (h : d'.routes = d.routes) : d'.heeds = d.heeds := by
  funext i
  rw [heeds, heeds, h]

theorem queueAt_congr (h : d'.routes = d.routes) (i : Nat) : d'.queueAt i = d.queueAt i := by
  rw [queueAt, queueAt, h]

/-- A change of what has nothing to do with devices. -/
theorem Spares.of_eq (hdevices : d'.devices = d.devices) (hserver : d'.server = d.server)
    (hroutes : d'.routes = d.routes) (hpublished : d'.published = d.published) : Spares d d' where
  devices := hdevices
  server := hserver
  heeds := heeds_congr hroutes
  published := hpublished ▸ .refl _
  queues i := queueAt_congr hroutes i ▸ .refl _

theorem Spares.refl (d : Dispatcher) : Spares d d := .of_eq rfl rfl rfl rfl

theorem Spares.trans (h : Spares d d') (h' : Spares d' d'') : Spares d d'' where
  devices := h'.devices.trans h.devices
  server := h'.server.trans h.server
  heeds := h'.heeds.trans h.heeds
  published := h.published.trans h'.published
  queues i := (h.queues i).trans (h'.queues i)

/-- The backends of `d'` are those of `d`, of which some have been handed a command. -/
def Hands (c : Command) (d d' : Dispatcher) : Prop :=
  ∀ i : Nat, ∃ hand : Route → Route, d'.routes[i]? = d.routes[i]?.map hand ∧
    ∀ r, hand r = r ∨ hand r = r.deliver c

theorem hands_forwarded (d : Dispatcher) (c : Command) (i : Nat) :
    Hands c d { d with routes := d.routes.modify i (·.deliver c) } := by
  refine fun j => ⟨fun r => if i = j then r.deliver c else r, List.getElem?_modify .., fun r => ?_⟩
  dsimp only
  split
  · exact .inr rfl
  · exact .inl rfl

theorem hands_broadcast (d : Dispatcher) (takesPart : Capabilities → Bool) (c : Command) :
    Hands c d (d.broadcast takesPart c) := by
  refine fun i => ⟨_, List.getElem?_map, fun r => ?_⟩
  split
  · exact .inr rfl
  · exact .inl rfl

namespace Hands

variable {c : Command} (h : Hands c d d')
include h

theorem heeds_eq : d'.heeds = d.heeds := by
  funext i
  obtain ⟨hand, hroute, hhand⟩ := h i
  rw [heeds, heeds, hroute]
  cases d.routes[i]? with
  | none => rfl
  | some r =>
    rcases hhand r with hr | hr
    · rw [Option.map_some, hr]
    · rw [Option.map_some, hr]
      rfl

theorem growsAside (hc : c.isOfDevice = false) (i : Nat) :
    GrowsAside Command.isOfDevice (d.queueAt i) (d'.queueAt i) := by
  obtain ⟨hand, hroute, hhand⟩ := h i
  rw [queueAt, queueAt, hroute]
  cases d.routes[i]? with
  | none => exact .refl _
  | some r =>
    simp only [Option.map_some, Option.getD_some]
    rcases hhand r with hr | hr
    · rw [hr]
      exact .refl _
    · rw [hr]
      -- A queue without room loses the command.
      rcases Sink.queue_put r.commands c with hq | hq
      · rw [Route.deliver, hq]
        exact .refl _
      · rw [Route.deliver, hq]
        exact .append_singleton _ hc

end Hands

/-- What has nothing to do with devices. -/
def Effect.SparesDevices : Effect → Prop
  | .tell e => e.isOfDevice = false
  | .hand c => c.isOfDevice = false
  | .enlist => False
  | _ => True

theorem Edits.spares (h : Edits Effect.SparesDevices d d') : Spares d d' := by
  refine h.all .refl .trans @fun a b e he hedit => ?_
  cases hedit with
  | tell e => exact ⟨rfl, rfl, rfl, .append_singleton _ he, fun _ => .refl _⟩
  | forward c i =>
    have hhands := hands_forwarded a c i
    exact ⟨rfl, rfl, hhands.heeds_eq, .refl _, hhands.growsAside he⟩
  | broadcast c takesPart =>
    have hhands := hands_broadcast a takesPart c
    exact ⟨rfl, rfl, hhands.heeds_eq, .refl _, hhands.growsAside he⟩
  | enlist devices => cases he
  | _ => exact .of_eq rfl rfl rfl rfl

/-- A command that tells of no device spares them all. -/
theorem spares_handleCommand {now : Nat} {c : Command} {r : Except DispatchError Unit}
    (hc : c.isOfDevice = false) (h : d.handleCommand now c = .ok (r, d')) : Spares d d' := by
  refine ((edits_handleCommand h).mono fun e hmay => ?_).spares
  cases hmay with
  | hand _ => exact hc
  | missing | object | page => rfl
  | rescan _ he =>
    cases he with
    | hand | tell => rfl
    | _ => trivial
  | store | apply => trivial
  | enlist | added | strike | removed => cases hc

/-! ## Reports -/

/-- The dispatcher `d'` has the devices and the backends of `d`. -/
structure SameDevices (d d' : Dispatcher) : Prop where
  devices : d'.devices = d.devices
  server : d'.server = d.server
  routes : d'.routes = d.routes

/-- A report changes no device, even if it is an event that tells of one. -/
theorem sameDevices_handleReport {now : Nat} {m : BackendMessage}
    (h : d.handleReport now m = .ok d') : SameDevices d d' := by
  refine (edits_handleReport h).all (fun _ => ⟨rfl, rfl, rfl⟩) (fun hab hbc => ?_)
    fun hmay hedit => ?_
  · exact ⟨hbc.devices.trans hab.devices, hbc.server.trans hab.server,
      hbc.routes.trans hab.routes⟩
  · generalize m.event = r at hmay
    cases hedit with
    | forward | broadcast | enlist => cases hmay
    | _ => exact ⟨rfl, rfl, rfl⟩

/-! ## Commands for devices -/

/-- A command that has been handled, with the dispatcher before and after. -/
structure Handling where
  before : Dispatcher
  command : Command
  after : Dispatcher

namespace Handling

/-- The events of devices that clients are told of. -/
def told (h : Handling) : List Event :=
  (h.after.published.drop h.before.published.length).filter Event.isOfDevice

/-- The commands for devices that the backend at a place is handed. -/
def handed (h : Handling) (i : Nat) : List Command :=
  ((h.after.queueAt i).drop (h.before.queueAt i).length).filter Command.isOfDevice

/-- The command has been announced, the list of devices goes by what clients have been told, and
the backends that take part have been handed the command along with that. -/
structure Sound (own : OwnServer) (takesPart : Nat → Bool) (h : Handling) : Prop where
  server : h.after.server = own
  heeds : h.after.heeds = takesPart
  published : h.before.published <+: h.after.published
  queues : ∀ i, h.before.queueAt i <+: h.after.queueAt i
  told : h.command.Announced own h.told
  devices : h.after.devices = h.told.foldl Event.updateDevices h.before.devices
  handed : ∀ i, h.handed i =
    if takesPart i && !h.told.isEmpty && h.before.hasRoom i then [h.command] else []

end Handling

/-- A command that is not announced leaves the devices alone. -/
theorem sound_of_spares {c : Command} (hc : c.Announced d.server []) (h : Spares d d') :
    Handling.Sound d.server d.heeds ⟨d, c, d'⟩ := by
  have htold : Handling.told ⟨d, c, d'⟩ = [] := h.published.filter_drop
  refine ⟨h.server, h.heeds, h.published.isPrefix, fun i => (h.queues i).isPrefix, ?_, ?_,
    fun i => ?_⟩
  · rw [htold]
    exact hc
  · rw [htold]
    exact h.devices
  · rw [htold, List.isEmpty_nil, Bool.not_true, Bool.and_false, Bool.false_and]
    exact (h.queues i).filter_drop

theorem queueAt_broadcast (d : Dispatcher) (c : Command) (i : Nat) :
    (d.broadcast (·.remoteDevices) c).queueAt i =
      d.queueAt i ++ if d.heeds i && d.hasRoom i then [c] else [] := by
  rw [queueAt, queueAt, broadcast, heeds, hasRoom, List.getElem?_map]
  cases d.routes[i]? with
  | none => rfl
  | some r =>
    show (if r.capabilities.remoteDevices then r.deliver c else r).commands.queue =
      r.commands.queue ++ if r.capabilities.remoteDevices && r.commands.accepts then [c] else []
    cases r.capabilities.remoteDevices with
    | false => exact (List.append_nil _).symm
    | true =>
      rw [if_pos rfl, Bool.true_and, Route.deliver, Sink.put_eq]
      cases r.commands.accepts with
      | false => exact (List.append_nil _).symm
      | true => rfl

/-- A command for a device is handed to the backends and announced. -/
theorem sound_of_announced {c : Command} {e : Event} (hc : c.isOfDevice = true)
    (he : e.isOfDevice = true) (hannounced : c.Announced d.server [e])
    (hdevices : d'.devices = e.updateDevices d.devices)
    (hpublished : d'.published = d.published ++ [e])
    (hserver : d'.server = d.server)
    (hroutes : d'.routes = (d.broadcast (·.remoteDevices) c).routes) :
    Handling.Sound d.server d.heeds ⟨d, c, d'⟩ := by
  have htold : Handling.told ⟨d, c, d'⟩ = [e] := by
    rw [Handling.told, hpublished, List.drop_left, List.filter_cons_of_pos he, List.filter_nil]
  have hqueue (i : Nat) :
      d'.queueAt i = d.queueAt i ++ if d.heeds i && d.hasRoom i then [c] else [] := by
    rw [queueAt_congr hroutes, queueAt_broadcast]
  have hheeds : d'.heeds = d.heeds :=
    (heeds_congr hroutes).trans (hands_broadcast d (·.remoteDevices) c).heeds_eq
  refine ⟨hserver, hheeds, ⟨[e], hpublished.symm⟩, fun i => ⟨_, (hqueue i).symm⟩, ?_, ?_,
    fun i => ?_⟩
  · rw [htold]
    exact hannounced
  · rw [htold]
    exact hdevices
  · rw [htold, Handling.handed, hqueue, List.drop_left]
    simp only [List.isEmpty_cons, Bool.not_false, Bool.and_true]
    split
    · rw [List.filter_cons_of_pos hc, List.filter_nil]
    · rfl

theorem isOwnServer_iff (d : Dispatcher) (device : RemoteDevice) :
    d.isOwnServer device = true ↔ device.IsOwn d.server := by
  rw [RemoteDevice.IsOwn, isOwnServer]
  split
  · rename_i own url hkind hown hurl
    simp [hkind, hown, hurl, Url.sameMachine]
  · rename_i hother
    refine iff_of_false Bool.false_ne_true ?_
    rintro ⟨hkind, own, url, hown, hurl, -⟩
    exact hother own url hkind hown hurl

theorem sound_addDevice (d : Dispatcher) (device : RemoteDevice) :
    Handling.Sound d.server d.heeds ⟨d, .remoteDeviceAdded device, d.addDevice device⟩ := by
  rw [addDevice]
  cases hown : d.isOwnServer device with
  | true => exact sound_of_spares (.passedOver ((d.isOwnServer_iff device).1 hown)) (.refl d)
  | false =>
    have hforeign : ¬ device.IsOwn d.server := by
      rw [← isOwnServer_iff, hown]
      exact Bool.false_ne_true
    exact sound_of_announced rfl rfl (.added hforeign) rfl rfl rfl rfl

theorem sound_removeDevice (d : Dispatcher) (uri : String) :
    Handling.Sound d.server d.heeds ⟨d, .remoteDeviceRemoved uri, d.removeDevice uri⟩ :=
  sound_of_announced rfl rfl (.removed uri) rfl rfl rfl rfl

/-- Every command leaves the devices, clients and backends in step. -/
theorem sound_handleCommand {now : Nat} {c : Command} {r : Except DispatchError Unit}
    (h : d.handleCommand now c = .ok (r, d')) :
    Handling.Sound d.server d.heeds ⟨d, c, d'⟩ := by
  cases hc : c.isOfDevice with
  | false => exact sound_of_spares (.aside hc) (spares_handleCommand hc h)
  | true =>
    cases c with
    | remoteDeviceAdded device =>
      cases h
      exact sound_addDevice d device
    | remoteDeviceRemoved uri =>
      cases h
      exact sound_removeDevice d uri
    | _ => cases hc

end Dispatcher

end Mediatheque
