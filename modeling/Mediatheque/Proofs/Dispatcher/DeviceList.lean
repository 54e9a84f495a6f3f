import Mediatheque.Proofs.Dispatcher.Devices
import Mediatheque.Proofs.Dispatcher.Mirror
import Mediatheque.Proofs.Dispatcher.Turn

/-!
# The list of devices over a run

The dispatcher attends to its duties, clients and backends take what it has for them, and of each
command that it handles the dispatcher before and after is kept (`handlings`). The list of devices
at the end is what the announcements make of the list at the start, as every command leaves them
in step and nothing else changes the list (`recorded_attendAll`). So a client that goes by the
announcements knows of the same devices as the dispatcher, each of them once, and a backend that
takes part has been handed the same as far as its queue had room (`devices_mirrored`).
-/

namespace Mediatheque

namespace Dispatcher

variable {d d' : Dispatcher}

/-! ## Runs -/

/-- The command that is handled in a duty, if there is one. -/
def Duty.handled (duty : Duty) (before after : Dispatcher) : List Handling :=
  match duty with
  | .input (.command _ c) => [⟨before, c, after⟩]
  | _ => []

/-- The commands that are handled in some duties, as far as these meet no fault. -/
def handlings (d : Dispatcher) : List Duty → List Handling
  | [] => []
  | duty :: duties =>
    match d.attend duty with
    | .ok e => duty.handled d e ++ e.handlings duties
    | .error _ => []

theorem handlings_cons {duty : Duty} (h : d.attend duty = .ok d') (duties : List Duty) :
    d.handlings (duty :: duties) = duty.handled d d' ++ d'.handlings duties := by
  rw [handlings, h]

/-- All commands are handled. -/
theorem command_handlings {duties : List Duty} (h : d.attendAll duties = .ok d') :
    (d.handlings duties).map (·.command) = commandsOf (inputsOf duties) := by
  induction duties generalizing d with
  | nil => rfl
  | cons duty duties ih =>
    obtain ⟨e, he, hrest⟩ := Fault.bind_eq_ok_iff.1 h
    have hduty : (duty.handled d e).map (·.command) = commandsOf (inputsOf [duty]) := by
      rcases duty with (⟨now, c⟩ | ⟨now, m⟩) | now | ⟨token, take⟩ <;> rfl
    rw [handlings_cons he, List.map_append, ih hrest, hduty, ← commandsOf_append, ← inputsOf_append]
    rfl

/-- What has become of the devices of a dispatcher since it began as `start`, by the commands that
it has handled. -/
structure Recorded (start d : Dispatcher) (log : List Handling) : Prop where
  server : d.server = start.server
  heeds : d.heeds = start.heeds
  sound : ∀ h ∈ log, h.Sound start.server start.heeds
  devices : d.devices = (log.flatMap Handling.told).foldl Event.updateDevices start.devices

namespace Recorded

variable {start : Dispatcher} {log rest : List Handling}

theorem of_eq (hdevices : d'.devices = d.devices) (hserver : d'.server = d.server)
    (hheeds : d'.heeds = d.heeds) : Recorded d d' [] :=
  ⟨hserver, hheeds, List.forall_mem_nil _, hdevices⟩

theorem append (h : Recorded start d log) (h' : Recorded d d' rest) :
    Recorded start d' (log ++ rest) where
  server := h'.server.trans h.server
  heeds := h'.heeds.trans h.heeds
  sound := by
    -- The server and the backends that take part are the same throughout.
    have hrest := h'.sound
    rw [h.server, h.heeds] at hrest
    exact List.forall_mem_append.2 ⟨h.sound, hrest⟩
  devices := by rw [h'.devices, h.devices, List.flatMap_append, List.foldl_append]

theorem of_sound {c : Command} (h : Handling.Sound d.server d.heeds ⟨d, c, d'⟩) :
    Recorded d d' [⟨d, c, d'⟩] where
  server := h.server
  heeds := h.heeds
  sound := List.forall_mem_singleton.2 h
  devices := by rw [List.flatMap_singleton, h.devices]

end Recorded

theorem recorded_attend {duty : Duty} (h : d.attend duty = .ok d') :
    Recorded d d' (duty.handled d d') := by
  cases duty with
  | input i =>
    cases i with
    | command now c =>
      obtain ⟨⟨r, e⟩, hc, rfl⟩ := Fault.map_eq_ok_iff.1 h
      exact .of_sound (sound_handleCommand hc)
    | report now m =>
      obtain ⟨hdevices, hserver, hroutes⟩ := sameDevices_handleReport h
      exact .of_eq hdevices hserver (heeds_congr hroutes)
  | tick now =>
    cases h
    exact .of_eq rfl rfl rfl
  | meanwhile token take =>
    cases h
    refine .of_eq rfl rfl ?_
    funext i
    rw [heeds, heeds, elapse, List.getElem?_mapIdx, Option.any_map]

theorem recorded_attendAll {duties : List Duty} (h : d.attendAll duties = .ok d') :
    Recorded d d' (d.handlings duties) := by
  induction duties generalizing d with
  | nil =>
    cases h
    exact .of_eq rfl rfl rfl
  | cons duty duties ih =>
    obtain ⟨e, he, hrest⟩ := Fault.bind_eq_ok_iff.1 h
    rw [handlings_cons he]
    exact (recorded_attend he).append (ih hrest)

/-- Commands meet no fault as long as the numbers of children are those that a machine holds. -/
theorem exists_attendAll_of_fits {duties : List Duty} (hfits : d.catalog.Fits)
    (h : reportsOf (inputsOf duties) = []) : ∃ d', d.attendAll duties = .ok d' := by
  induction duties generalizing d with
  | nil => exact ⟨d, rfl⟩
  | cons duty duties ih =>
    have hstep : ∃ e, d.attend duty = .ok e ∧ e.catalog.Fits := by
      rcases duty with (⟨now, c⟩ | ⟨now, m⟩) | now | ⟨token, take⟩
      · obtain ⟨⟨r, e⟩, hr⟩ := handleCommand_ok hfits now c
        refine ⟨e, Fault.map_eq_ok_iff.2 ⟨_, hr, rfl⟩, ?_⟩
        rw [(unmoved_handleCommand hr).catalog]
        exact hfits
      · cases h
      · exact ⟨_, rfl, hfits⟩
      · exact ⟨_, rfl, hfits⟩
    obtain ⟨e, he, hfits'⟩ := hstep
    have hrest : reportsOf (inputsOf duties) = [] := by
      have hcons : reportsOf (inputsOf [duty]) ++ reportsOf (inputsOf duties) = [] := by
        rw [← reportsOf_append, ← inputsOf_append]
        exact h
      exact (List.append_eq_nil_iff.1 hcons).2
    obtain ⟨d', hd'⟩ := ih hfits' hrest
    exact ⟨d', by rw [attendAll, List.foldlM_cons, he]; exact hd'⟩

/-! ## The devices of a dispatcher -/

/-- What a backend is handed over a run are the commands that have been announced while its queue
had room. -/
theorem flatMap_handed {own : OwnServer} {takesPart : Nat → Bool} {log : List Handling}
    (h : ∀ x ∈ log, x.Sound own takesPart) (i : Nat) :
    log.flatMap (·.handed i) =
      if takesPart i then
        (log.filter fun x => !x.told.isEmpty && x.before.hasRoom i).map (·.command)
      else [] := by
  induction log with
  | nil => split <;> rfl
  | cons x log ih =>
    obtain ⟨hx, hlog⟩ := List.forall_mem_cons.1 h
    rw [List.flatMap_cons, ih hlog, hx.handed i, List.filter_cons]
    cases takesPart i with
    | false => rfl
    | true =>
      rw [if_pos rfl, if_pos rfl, Bool.true_and]
      split <;> rfl

/-- A device that is announced as added is not the library's own server. -/
theorem not_isOwn_of_announced {own : OwnServer} {c : Command} {events : List Event}
    {device : RemoteDevice} (h : c.Announced own events) (hd : .backendAdded device ∈ events) :
    ¬ device.IsOwn own := by
  cases h with
  | added hforeign =>
    cases List.mem_singleton.1 hd
    exact hforeign
  | passedOver => cases hd
  | removed uri => cases List.mem_singleton.1 hd
  | aside => cases hd

/-- The devices of a dispatcher, what clients have been told of them, and what backends have been
handed, after the commands of a log. -/
structure Mirrored (own : OwnServer) (routes : List Route) (log : List Handling)
    (d : Dispatcher) : Prop where
  /-- A command for a device is announced, unless it is of the library's own server. -/
  told : ∀ h ∈ log, h.before.published <+: h.after.published ∧ h.command.Announced own h.told
  /-- A client that has heard all announcements knows of the same devices. -/
  devices : d.devices = (log.flatMap Handling.told).foldl Event.updateDevices []
  distinct : (d.devices.map (·.uri)).Nodup
  foreign : ∀ device ∈ d.devices, ¬ device.IsOwn own
  queues : ∀ h ∈ log, ∀ i, h.before.queueAt i <+: h.after.queueAt i
  /-- A backend that takes part is handed what is announced while its queue has room, and other
  backends are handed nothing. -/
  handed : ∀ (i : Nat) (r : Route), routes[i]? = some r →
    log.flatMap (·.handed i) =
      if r.capabilities.remoteDevices then
        (log.filter fun h => !h.told.isEmpty && h.before.hasRoom i).map (·.command)
      else []

theorem mirrored_of_recorded {start : Dispatcher} {log : List Handling}
    (h : Recorded start d log) (hstart : start.devices = []) :
    Mirrored start.server start.routes log d where
  told x hx := ⟨(h.sound x hx).published, (h.sound x hx).told⟩
  devices := hstart ▸ h.devices
  distinct := by
    rw [h.devices, hstart]
    exact nodup_foldl_updateDevices _ List.nodup_nil
  foreign device hdevice := by
    rw [h.devices, hstart] at hdevice
    rcases mem_foldl_updateDevices hdevice with hnil | htold
    · cases hnil
    · obtain ⟨x, hx, hevent⟩ := List.mem_flatMap.1 htold
      exact not_isOwn_of_announced (h.sound x hx).told hevent
  queues x hx := (h.sound x hx).queues
  handed i r hr := by
    have hheeds : start.heeds i = r.capabilities.remoteDevices := by rw [heeds, hr]; rfl
    rw [flatMap_handed h.sound, hheeds]

/-- A new dispatcher has no devices, and the address of its server if that can be read. -/
theorem fresh_newReading (readUrl : String → Option Url) (catalog : Catalog)
    (persister : Persister) (options : Options) (disk : Disk) :
    (newReading readUrl catalog persister options disk).catalog = catalog ∧
      (newReading readUrl catalog persister options disk).devices = [] ∧
      (newReading readUrl catalog persister options disk).server =
        ⟨options.serverUrl.bind readUrl, readUrl⟩ := by
  rw [newReading]
  cases options.serverUrl with
  | none => exact ⟨rfl, rfl, rfl⟩
  | some text =>
    simp only [Option.bind_some]
    split
    · rename_i hread
      exact ⟨rfl, rfl, by rw [hread]⟩
    · rename_i url hread
      exact ⟨rfl, rfl, by rw [hread]⟩

/-- Whatever a new dispatcher attends to, and however it reads addresses, its devices are those
that clients have been told of, with distinct URIs and without the library's own server, and the
backends that take part are handed the same in the same order as far as their queues have room.
Commands meet no fault. -/
theorem devices_mirrored (readUrl : String → Option Url) (catalog : Catalog)
    (persister : Persister) (options : Options) (disk : Disk) (routes : List Route)
    (caches : List DirectoryCache) (duties : List Duty) :
    let start : Dispatcher :=
      { newReading readUrl catalog persister options disk with routes := routes, caches := caches }
    (∀ d, start.attendAll duties = .ok d →
      (start.handlings duties).map (·.command) = commandsOf (inputsOf duties) ∧
        Mirrored ⟨options.serverUrl.bind readUrl, readUrl⟩ routes (start.handlings duties) d) ∧
      (catalog.Fits → reportsOf (inputsOf duties) = [] →
        ∃ d, start.attendAll duties = .ok d) := by
  intro start
  obtain ⟨hcatalog, hdevices, hserver⟩ :=
    fresh_newReading readUrl catalog persister options disk
  refine ⟨fun d hd => ⟨command_handlings hd, ?_⟩, fun hfits hreports => ?_⟩
  · have hmirrored := mirrored_of_recorded (recorded_attendAll hd) hdevices
    rw [← hserver]
    exact hmirrored
  · refine exists_attendAll_of_fits ?_ hreports
    show (newReading readUrl catalog persister options disk).catalog.Fits
    rw [hcatalog]
    exact hfits

def serverAt (uri : String) : RemoteDevice := ⟨uri, "Server", .mediaServer, none⟩

def rendererAt (uri : String) : RemoteDevice := ⟨uri, "Renderer", .renderer, none⟩

/-- A new dispatcher with an own server, a backend that has room for two commands and takes part
where devices are concerned, and one that does not. -/
def atMedia : Dispatcher :=
  { new .empty default { (default : Options) with serverUrl := some "http://media/" } default with
    routes := [⟨"upnp", { remoteDevices := true }, .new 2⟩, ⟨"files", {}, .new⟩], caches := [] }

/-- The own server under another path is passed over, a renderer at its address is not. A server
that comes again moves to the end, and a backend that has room for two commands misses the last
two. -/
theorem devices_mirrored_own_server :
    let duties : List Duty :=
      [.remoteDeviceAdded (serverAt "http://media:80/desc"),
        .remoteDeviceAdded (serverAt "http://media:8080/"), .rescan ⟨1⟩,
        .remoteDeviceAdded (rendererAt "http://media:80/desc"),
        .remoteDeviceAdded (serverAt "http://media:8080/"),
        .remoteDeviceRemoved "http://elsewhere/"].map fun c => .input (.command 0 c)
    Catalog.empty.Fits ∧ reportsOf (inputsOf duties) = [] ∧
      ∃ d, atMedia.attendAll duties = .ok d ∧
        d.devices = [rendererAt "http://media:80/desc", serverAt "http://media:8080/"] ∧
        (atMedia.handlings duties).flatMap (·.handed 0) =
          [.remoteDeviceAdded (serverAt "http://media:8080/"),
            .remoteDeviceAdded (rendererAt "http://media:80/desc")] ∧
        (atMedia.handlings duties).flatMap (·.handed 1) = [] := by
  intro duties
  have hfits : Catalog.empty.Fits := Catalog.fits_of_sizeOf (by decide)
  obtain ⟨hmirrored, hexists⟩ := devices_mirrored Url.read? .empty default
    { (default : Options) with serverUrl := some "http://media/" } default atMedia.routes [] duties
  obtain ⟨d, hd⟩ := hexists hfits rfl
  obtain ⟨-, hagree⟩ := hmirrored d hd
  refine ⟨hfits, rfl, d, hd, ?_, ?_, ?_⟩
  · exact hagree.devices.trans rfl
  · exact (hagree.handed 0 _ rfl).trans rfl
  · exact hagree.handed 1 _ rfl

end Dispatcher

end Mediatheque
