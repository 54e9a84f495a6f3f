import Mediatheque.Database.Opening
import Mediatheque.Proofs.Disk.Clearing
import Mediatheque.Proofs.Dispatcher.Settings
import Mediatheque.Proofs.Export.Settings
import Mediatheque.Proofs.List

/-!
# A database that begins to work

When a database is opened nothing that is done on the way to the settings file takes it away
(`begun_of_open?`). Then every backend declares its settings (`schema?_declareAll`), and the values
that they start with are queued for it in the order in which it has declared them
(`startCommands`). The export table gets those of the library (`begun_start`).
-/

namespace Mediatheque

namespace Database

variable {σ : Type}

/-! ## On the way to the settings file -/

theorem grows_ensureDirs {dirs : List String} {disk disk' : Disk}
    (h : ensureDirs disk dirs = (.ok (), disk')) : disk.Grows disk' := by
  induction dirs generalizing disk with
  | nil =>
    cases h
    exact .refl
  | cons dir rest ih =>
    rw [ensureDirs] at h
    split at h
    · rename_i created hcreated
      exact (Disk.grows_createDirs hcreated).trans (ih h)
    · cases h

theorem grows_lock? {m m' : Machine} {dir : String} (h : m.lock? dir = .ok (some m')) :
    m.disk.Grows m'.disk := by
  obtain ⟨disk, htouch, h⟩ := Fault.bind_eq_ok_iff.1 h
  split at h
  · cases h
  · cases h
    exact Disk.grows_touch htouch

theorem grows_lockDir {m m' : Machine} {dir : String} (h : lockDir m dir = (.ok (), m')) :
    m.disk.Grows m'.disk := by
  rw [lockDir] at h
  split at h
  · cases h
  · rename_i disk hdirs
    dsimp only at h
    split at h
    · cases h
    · cases h
    · rename_i locked hlock
      cases h
      exact (grows_ensureDirs hdirs).trans (grows_lock? hlock)

/-- The settings are loaded from a disk on which directories may have been created before. -/
theorem load_of_loadSettings {disk disk' : Disk} {dir : String} {debounce : Nat} {p : Persister}
    (h : loadSettings disk dir debounce = (.ok p, disk')) :
    ∃ ready, disk.Grows ready ∧
      Persister.load (Path.configFile dir) debounce ready = (.ok p, disk') := by
  rw [loadSettings] at h
  split at h
  · cases h
  · rename_i ready hdirs
    exact ⟨ready, grows_ensureDirs hdirs, h⟩

/-- A database that is opened begins to work with the settings that are loaded, and is completed
if it is new. Before that the disk does no more than grow. -/
theorem begun_of_open? [Backend σ] {m m' : Machine} {o : Options} {backends : List σ}
    {db : Database σ} (h : open? m o backends = (.ok db, m')) :
    ∃ (ready : Disk) (begun : Machine) (p : Persister), m.disk.Grows ready ∧
      Persister.load (Path.configFile (Path.databaseDir o.baseDir)) o.saveDebounce ready =
        (.ok p, begun.disk) ∧
      (if o.create then
          (start begun o p backends).2.complete (start begun o p backends).1 o
        else (.ok (start begun o p backends).2, (start begun o p backends).1)) = (.ok db, m') := by
  rw [open?] at h
  split at h
  · cases h
  · split at h
    · cases h
    · rename_i locked hlock
      split at h
      · cases h
      · rename_i p disk hsettings
        obtain ⟨ready, hready, hload⟩ := load_of_loadSettings hsettings
        exact ⟨ready, { locked with disk := disk }, p, (grows_lockDir hlock).trans hready, hload, h⟩

/-! ## Declared settings -/

/-- The persister once some backends have declared their settings, if they have any. -/
def declareAll (p : Persister) (infos : List BackendInfo) : Persister :=
  infos.foldl (fun p info =>
    if info.parameters.isEmpty then p else p.register info.name info.parameters) p

/-- Creating backends has them declare their settings, and leaves the disk as it is. -/
theorem createBackends_spec [Backend σ] (dir : String) (fresh : Bool) (backends : List σ)
    (m : Machine) (catalog : Catalog) (p : Persister) :
    ∃ created m' catalog', createBackends dir fresh backends m catalog p =
        (created, m', catalog', declareAll p (backends.map Backend.info)) ∧
      created.length = backends.length ∧ m'.disk = m.disk ∧ m'.now = m.now := by
  induction backends generalizing m catalog p with
  | nil => exact ⟨[], m, catalog, rfl, rfl, rfl, rfl⟩
  | cons b rest ih =>
    rw [createBackends]
    obtain ⟨created, m', catalog', heq, hlength, hsame⟩ := ih
      (m.note (Backend.info b).name (.create fresh)) (Backend.create b dir fresh catalog).2
      (if (Backend.info b).parameters.isEmpty then p
        else p.register (Backend.info b).name (Backend.info b).parameters)
    refine ⟨(Backend.create b dir fresh catalog).1 :: created, m', catalog', ?_, ?_, hsame⟩
    · simp only [heq]
      rfl
    · rw [List.length_cons, hlength, List.length_cons]

theorem declareAll_eq (p : Persister) (infos : List BackendInfo) :
    ∃ schemas, declareAll p infos = { p with schemas := schemas } := by
  induction infos generalizing p with
  | nil => exact ⟨p.schemas, rfl⟩
  | cons info rest ih =>
    rw [declareAll, List.foldl_cons]
    split
    · exact ih p
    · obtain ⟨schemas, heq⟩ := ih (p.register info.name info.parameters)
      exact ⟨schemas, heq⟩

/-- A context of which no backend has the name declares what it did. -/
theorem schema?_declareAll_of_not_mem {p : Persister} {infos : List BackendInfo} {context : String}
    (h : context ∉ infos.map (·.name)) :
    (declareAll p infos).schema? context = p.schema? context := by
  induction infos generalizing p with
  | nil => rfl
  | cons info rest ih =>
    rw [List.map_cons, List.mem_cons, not_or] at h
    rw [declareAll, List.foldl_cons]
    refine (ih h.2).trans ?_
    split
    · rfl
    · rw [Persister.schema?, Persister.register, Dictionary.get?_insert, if_neg h.1]
      rfl

/-- Backends of distinct names declare their settings each in a context of its own. -/
theorem schema?_declareAll {p : Persister} {infos : List BackendInfo} {info : BackendInfo}
    (hdistinct : (infos.map (·.name)).Nodup) (hinfo : info ∈ infos)
    (hnew : p.schema? info.name = none) :
    ((declareAll p infos).schema? info.name).getD [] = info.parameters := by
  induction infos generalizing p with
  | nil => cases hinfo
  | cons first rest ih =>
    rw [List.map_cons, List.nodup_cons] at hdistinct
    rw [declareAll, List.foldl_cons]
    rcases List.mem_cons.1 hinfo with rfl | hrest
    · have hothers := schema?_declareAll_of_not_mem
        (p := if info.parameters.isEmpty then p else p.register info.name info.parameters)
        hdistinct.1
      rw [declareAll] at hothers
      rw [hothers]
      split
      · rename_i hempty
        rw [hnew, List.isEmpty_iff.1 hempty]
        rfl
      · rw [Persister.schema?, Persister.register, Dictionary.get?_insert, if_pos rfl]
        rfl
    · refine ih hdistinct.2 hrest ?_
      split
      · exact hnew
      · rw [Persister.schema?, Persister.register, Dictionary.get?_insert, if_neg]
        · exact hnew
        · intro hsame
          exact hdistinct.1 (hsame ▸ List.mem_map_of_mem hrest)

/-! ## Routes -/

/-- The commands that tell a backend the values of its settings: each setting that is no action
and has a value, or else a default value, in the order in which they are declared. -/
def startCommands (info : BackendInfo) (value? : String → Option ParameterValue) : List Command :=
  info.parameters.filterMap fun p =>
    if p.kind = .button then none
    else (value? p.name <|> p.default).map (.setParameter info.name p.name ·)

/-- The route of a backend to which some commands have been sent. -/
def routeWith (info : BackendInfo) (sent : List Command) : Route :=
  ⟨info.name, info.capabilities, sent.foldl Sink.put .new⟩

/-- A queue takes as many commands as it has room for. -/
theorem queue_foldl_put (sent : List Command) {s : Sink Command} (hopen : s.isOpen)
    (hroom : s.queue.length ≤ s.capacity) :
    (sent.foldl Sink.put s).queue = (s.queue ++ sent).take s.capacity := by
  induction sent generalizing s with
  | nil => rw [List.foldl_nil, List.append_nil, List.take_of_length_le hroom]
  | cons c rest ih =>
    rw [List.foldl_cons, Sink.put, Sink.offer, hopen, Bool.not_true, if_neg Bool.false_ne_true]
    by_cases hfull : s.isFull
    · have hlength : s.capacity ≤ s.queue.length := by simpa [Sink.isFull] using hfull
      rw [if_pos hfull]
      simp only [ih hopen hroom, List.take_append_of_le_length hlength]
    · have hlength : s.queue.length < s.capacity := by simpa [Sink.isFull] using hfull
      rw [if_neg hfull]
      refine (ih rfl ?_).trans ?_
      · rw [List.length_append]
        exact hlength
      · simp only [List.append_assoc, List.singleton_append]

/-- The commands that a backend has been sent wait for it, the first of them that its queue has
room for. -/
theorem queue_routeWith (info : BackendInfo) (sent : List Command) :
    (routeWith info sent).commands.queue = sent.take Sink.defaultCapacity :=
  queue_foldl_put sent rfl (Nat.zero_le _)

/-- What the startup values of a backend are told by. -/
theorem map_startupValues {p : Persister} {info : BackendInfo}
    (h : (p.schema? info.name).getD [] = info.parameters) :
    (p.startupValues info.name).map (fun (name, value) => .setParameter info.name name value) =
      startCommands info (p.get? info.name ·) := by
  rw [Persister.startupValues, h, List.map_filterMap, startCommands]
  congr 1
  funext q
  split
  · rfl
  · rw [Option.map_map]
    rfl

/-- Commands that are queued for the backend that was added last. -/
theorem foldl_modifyCommands (context : String) (values : List (String × ParameterValue))
    {db : Database σ} {routes : List Route} {r : Route}
    (hroutes : db.dispatcher.routes = routes ++ [r])
    (hlength : db.runners.length = routes.length + 1) :
    values.foldl (fun db (name, value) => db.modifyCommands (db.runners.length - 1)
        (·.put (.setParameter context name value))) db =
      { db with dispatcher := { db.dispatcher with
          routes := routes ++ [{ r with
            commands := (values.map fun (name, value) => .setParameter context name value).foldl
              Sink.put r.commands }] } } := by
  induction values generalizing db r with
  | nil =>
    rw [List.foldl_nil, List.map_nil, List.foldl_nil, ← hroutes]
  | cons value rest ih =>
    obtain ⟨name, value⟩ := value
    have hmodified : (db.modifyCommands (db.runners.length - 1)
        (·.put (.setParameter context name value))).dispatcher.routes =
          routes ++ [{ r with commands := r.commands.put (.setParameter context name value) }] := by
      rw [modifyCommands, hlength, Nat.add_sub_cancel]
      simp only [hroutes, modify_append_singleton]
    rw [List.foldl_cons]
    refine (ih hmodified hlength).trans ?_
    rfl

/-- Adding a backend adds its route, with the values that its settings start with. -/
theorem addBackend_eq [Backend σ] {db : Database σ}
    (hlength : db.runners.length = db.dispatcher.routes.length) (info : BackendInfo) (b : σ) :
    db.addBackend info b = { db with
      runners := db.runners ++ [⟨info, .running b⟩]
      dispatcher := { db.dispatcher with
        routes := db.dispatcher.routes ++ [routeWith info
          ((db.dispatcher.persister.startupValues info.name).map
            fun (name, value) => .setParameter info.name name value)] } } := by
  rw [addBackend, foldl_modifyCommands info.name _ rfl]
  · rfl
  · rw [List.length_append, hlength]
    rfl

theorem foldl_addBackend [Backend σ] (l : List (BackendInfo × σ)) {db : Database σ}
    (hlength : db.runners.length = db.dispatcher.routes.length) :
    l.foldl (fun db x => db.addBackend x.1 x.2) db = { db with
      runners := db.runners ++ l.map fun x => ⟨x.1, .running x.2⟩
      dispatcher := { db.dispatcher with
        routes := db.dispatcher.routes ++ l.map fun x => routeWith x.1
          ((db.dispatcher.persister.startupValues x.1.name).map
            fun (name, value) => .setParameter x.1.name name value) } } := by
  induction l generalizing db with
  | nil => rw [List.foldl_nil, List.map_nil, List.append_nil, List.map_nil, List.append_nil]
  | cons first rest ih =>
    obtain ⟨info, b⟩ := first
    rw [List.foldl_cons]
    refine (ih ?_).trans ?_
    · simp only [addBackend_eq hlength, hlength, List.length_append, List.length_singleton]
    · simp only [addBackend_eq hlength, List.map_cons, List.append_assoc, List.singleton_append]

/-! ## The start -/

/-- A dispatcher that begins to work with a persister and some backends. -/
structure Begun (p : Persister) (infos : List BackendInfo) (d : Dispatcher) : Prop where
  path : d.persister.path = p.path
  registry : d.persister.registry = p.registry
  deadline : d.persister.deadline = p.deadline
  /-- Every backend is told the values of its settings. -/
  routes : d.routes = infos.map fun info =>
    routeWith info (startCommands info (p.registry.get? info.name ·))
  /-- The export table has the settings of the library. -/
  follows : d.exports.Follows p.registry

theorem new_spec (catalog : Catalog) (p : Persister) (o : Options) (disk : Disk) :
    ∃ exports server, exports.settings = ExportTable.empty.settings ∧
      Dispatcher.new catalog p o disk = {
        catalog := catalog
        persister := p
        exports := exports
        stations := ⟨o.radioBrowserServer⟩
        server := server
        disk := disk } := by
  rw [Dispatcher.new, Dispatcher.newReading]
  split
  · exact ⟨_, _, rfl, rfl⟩
  · split
    · exact ⟨_, _, rfl, rfl⟩
    · exact ⟨ExportTable.empty.setRootUri _, _, rfl, rfl⟩

/-- The persister of a database, in which the library and the backends have declared their
settings. -/
def declared (p : Persister) (infos : List BackendInfo) : Persister :=
  declareAll (p.register generalContext generalParameters) infos

theorem declared_eq (p : Persister) (infos : List BackendInfo) :
    ∃ schemas, declared p infos = { p with schemas := schemas } := by
  obtain ⟨schemas, heq⟩ := declareAll_eq (p.register generalContext generalParameters) infos
  exact ⟨schemas, heq⟩

theorem schema?_declared_general {p : Persister} {infos : List BackendInfo}
    (hgeneral : generalContext ∉ infos.map (·.name)) :
    (declared p infos).schema? generalContext = some generalParameters := by
  rw [declared, schema?_declareAll_of_not_mem hgeneral, Persister.schema?, Persister.register,
    Dictionary.get?_insert, if_pos rfl]

theorem schema?_declared {p : Persister} {infos : List BackendInfo} {info : BackendInfo}
    (hschemas : p.schemas = .empty) (hdistinct : (infos.map (·.name)).Nodup)
    (hgeneral : generalContext ∉ infos.map (·.name)) (hinfo : info ∈ infos) :
    ((declared p infos).schema? info.name).getD [] = info.parameters := by
  refine schema?_declareAll hdistinct hinfo ?_
  rw [Persister.schema?, Persister.register, Dictionary.get?_insert, if_neg, hschemas]
  · rfl
  · intro hsame
    exact hgeneral (hsame ▸ List.mem_map_of_mem hinfo)

theorem registry_declared (p : Persister) (infos : List BackendInfo) :
    (declared p infos).registry = p.registry := by
  obtain ⟨schemas, heq⟩ := declared_eq p infos
  rw [heq]

/-- What is sent to the backends at the start. -/
theorem routes_declared {p : Persister} {infos : List BackendInfo} {created : List σ}
    (hlength : infos.length ≤ created.length) (hschemas : p.schemas = .empty)
    (hdistinct : (infos.map (·.name)).Nodup) (hgeneral : generalContext ∉ infos.map (·.name)) :
    (infos.zip created).map (fun x => routeWith x.1
        (((declared p infos).startupValues x.1.name).map
          fun (name, value) => .setParameter x.1.name name value)) =
      infos.map fun info => routeWith info (startCommands info (p.registry.get? info.name ·)) := by
  have hsent (info : BackendInfo) (hinfo : info ∈ infos) :
      ((declared p infos).startupValues info.name).map
          (fun (name, value) => .setParameter info.name name value) =
        startCommands info (p.registry.get? info.name ·) := by
    rw [map_startupValues (schema?_declared hschemas hdistinct hgeneral hinfo)]
    simp only [Persister.get?, registry_declared]
  have hroutes : ((infos.zip created).map (·.1)).map (fun info => routeWith info
        (((declared p infos).startupValues info.name).map
          fun (name, value) => .setParameter info.name name value)) =
      infos.map fun info => routeWith info (startCommands info (p.registry.get? info.name ·)) := by
    rw [List.map_fst_zip hlength]
    exact List.map_congr_left fun info hinfo => congrArg (routeWith info) (hsent info hinfo)
  rw [List.map_map] at hroutes
  exact hroutes

/-- The dispatcher with which a database begins to work has the declared settings, their values in
the export table, and a route for each backend. -/
theorem dispatcher_start [Backend σ] (m : Machine) (o : Options) (p : Persister)
    (backends : List σ) {infos : List BackendInfo} (hinfos : backends.map Backend.info = infos) :
    ∃ (created : List σ) (d : Dispatcher), created.length = backends.length ∧
      d.persister = declared p infos ∧ d.disk = m.disk ∧
      d.caches = [⟨"thumbnails", Path.thumbnailsDir (Path.databaseDir o.baseDir)⟩] ∧
      d.exports.settings = ExportTable.empty.settings ∧
      (start m o p backends).2.dispatcher = { d.applyStartupValues with
        routes := (infos.zip created).map fun x => routeWith x.1
          (((declared p infos).startupValues x.1.name).map
            fun (name, value) => .setParameter x.1.name name value) } := by
  obtain ⟨created, m', catalog, hcreated, hlength, hdisk, -⟩ := createBackends_spec
    (Path.databaseDir o.baseDir) o.create backends m .empty
    (p.register generalContext generalParameters)
  rw [hinfos] at hcreated
  obtain ⟨exports, server, hexports, hnew⟩ := new_spec catalog (declared p infos) o m'.disk
  refine ⟨created, { Dispatcher.new catalog (declared p infos) o m'.disk with
    caches := [⟨"thumbnails", Path.thumbnailsDir (Path.databaseDir o.baseDir)⟩]
    exports := exports.add (Path.thumbnailsDir (Path.databaseDir o.baseDir)) }, hlength, ?_, ?_,
    rfl, ?_, ?_⟩
  · rw [hnew]
  · rw [hnew]
    exact hdisk
  · exact (exports.settings_add _).trans hexports
  · rw [declared] at hnew ⊢
    rw [start]
    simp only [hcreated, hnew, hinfos]
    rw [foldl_addBackend _ rfl]
    rfl

/-- Creating backends tells them so one after the other, and the machine keeps a record of it. -/
theorem machine_createBackends [Backend σ] (dir : String) (fresh : Bool) (backends : List σ)
    (m : Machine) (catalog : Catalog) (p : Persister) :
    (createBackends dir fresh backends m catalog p).2.1 = { m with
      record := m.record ++ backends.map fun b => ((Backend.info b).name, .create fresh) } := by
  induction backends generalizing m catalog p with
  | nil => rw [createBackends, List.map_nil, List.append_nil]
  | cons b rest ih =>
    rw [createBackends]
    dsimp only
    rw [ih, Machine.note, List.map_cons]
    simp only [List.append_assoc, List.singleton_append]

/-- A database begins to work with all backends at work, each with a queue of its own. -/
theorem start_backends [Backend σ] (m : Machine) (o : Options) (p : Persister)
    (backends : List σ) :
    ∃ (created : List σ) (sent : BackendInfo → List Command), created.length = backends.length ∧
      (start m o p backends).2.runners =
        ((backends.map Backend.info).zip created).map (fun x => ⟨x.1, .running x.2⟩) ∧
      (start m o p backends).2.dispatcher.routes =
        ((backends.map Backend.info).zip created).map (fun x => routeWith x.1 (sent x.1)) ∧
      (start m o p backends).1 = { m with
        record := m.record ++ backends.map fun b => ((Backend.info b).name, .create o.create) } ∧
      (start m o p backends).2.outlook = .running ∧ (start m o p backends).2.isOpen = true ∧
      (start m o p backends).2.dir = Path.databaseDir o.baseDir ∧
      (start m o p backends).2.endpoint = .new := by
  obtain ⟨created, m', catalog, hcreated, hlength, -⟩ := createBackends_spec
    (Path.databaseDir o.baseDir) o.create backends m .empty
    (p.register generalContext generalParameters)
  obtain ⟨exports, server, -, hnew⟩ := new_spec catalog
    (declared p (backends.map Backend.info)) o m'.disk
  have hmachine := machine_createBackends (Path.databaseDir o.baseDir) o.create backends m .empty
    (p.register generalContext generalParameters)
  rw [hcreated] at hmachine
  refine ⟨created, fun info => ((declared p (backends.map Backend.info)).startupValues
    info.name).map fun (name, value) => .setParameter info.name name value, hlength, ?_⟩
  rw [declared] at hnew ⊢
  rw [start]
  simp only [hcreated, hnew]
  rw [foldl_addBackend _ rfl]
  exact ⟨List.nil_append _, List.nil_append _, hmachine, rfl, rfl, rfl, rfl⟩

theorem persister_start [Backend σ] (m : Machine) (o : Options) (p : Persister)
    (backends : List σ) :
    (start m o p backends).2.dispatcher.persister = declared p (backends.map Backend.info) := by
  obtain ⟨created, d, -, hpersister, -, -, -, hstart⟩ := dispatcher_start m o p backends rfl
  rw [hstart]
  exact hpersister

/-- A database begins to work with the values of the registry, provided that its backends have
distinct names, and other names than the context of the library. -/
theorem begun_start [Backend σ] {m : Machine} {o : Options} {p : Persister} {backends : List σ}
    {infos : List BackendInfo} (hinfos : backends.map Backend.info = infos)
    (hschemas : p.schemas = .empty) (hdistinct : (infos.map (·.name)).Nodup)
    (hgeneral : generalContext ∉ infos.map (·.name)) :
    Begun p infos (start m o p backends).2.dispatcher ∧
      (start m o p backends).2.dispatcher.disk = m.disk ∧
      (start m o p backends).2.dispatcher.caches =
        [⟨"thumbnails", Path.thumbnailsDir (Path.databaseDir o.baseDir)⟩] := by
  obtain ⟨schemas, hdeclared⟩ := declared_eq p infos
  obtain ⟨created, d, hlength, hpersister, hdisk, hcaches, hexports, hstart⟩ :=
    dispatcher_start m o p backends hinfos
  rw [hstart]
  refine ⟨⟨?_, ?_, ?_, ?_, ?_⟩, hdisk, hcaches⟩
  · exact congrArg (·.path) (hpersister.trans hdeclared)
  · exact (congrArg (·.registry) hpersister).trans (registry_declared p infos)
  · exact congrArg (·.deadline) (hpersister.trans hdeclared)
  · exact routes_declared (by rw [hlength, ← hinfos, List.length_map]) hschemas hdistinct hgeneral
  · have hregistry : d.persister.registry = p.registry :=
      (congrArg (·.registry) hpersister).trans (registry_declared p infos)
    rw [← hregistry]
    refine ExportTable.follows_startup ?_ hexports
    rw [hpersister]
    exact schema?_declared_general hgeneral

/-- A database that clears its thumbnails spares its settings file, provided that the path of its
directory goes down only. -/
theorem spared_thumbnails {dir : String} (hup : ".." ∉ Path.components dir) :
    Dispatcher.Spared [⟨"thumbnails", Path.thumbnailsDir dir⟩] (Path.configFile dir) :=
  List.forall_mem_singleton.2 fun _ _ hread => read_purge_thumbnails hup hread "thumbnails"

end Database

end Mediatheque
