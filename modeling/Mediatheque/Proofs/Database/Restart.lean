import Mediatheque.Backend.Scripted
import Mediatheque.Proofs.Database.Opening
import Mediatheque.Proofs.Dispatcher.Duties

/-!
# Settings across a restart

While a database is open its settings change one by one; when it is opened again they are all
taken from the settings file. Both ways lead to the same (`restart_settings`): the settings file
holds the values as soon as they have been written (`Dispatcher.saved_attendAll`), nothing that
is done on the way to the settings file takes it away (`start_of_open?`), and the dispatcher that
begins then has the values of the file (`begun_start`).
-/

namespace Mediatheque

namespace Database

variable {σ : Type}

open Dispatcher

/-- A database that is opened begins to work with the settings that are loaded, and all that
stood on the disk before stands there then. -/
theorem start_of_open? [Backend σ] {m m' : Machine} {o : Options} {backends : List σ}
    {db : Database σ} (hcreate : o.create = false) (h : open? m o backends = (.ok db, m')) :
    ∃ (ready : Disk) (begun : Machine) (p : Persister), m.disk.Keeps ready ∧
      Persister.load (Path.configFile (Path.databaseDir o.baseDir)) o.saveDebounce ready =
        (.ok p, begun.disk) ∧
      db = (start begun o p backends).2 := by
  obtain ⟨ready, begun, p, hgrows, hload, hdb⟩ := begun_of_open? h
  rw [hcreate, if_neg Bool.false_ne_true] at hdb
  cases hdb
  exact ⟨ready, begun, p, hgrows.keeps, hload, rfl⟩

/-! ## The restart -/

/-- A dispatcher that begins with settings: the library applies its own as before, and each
backend is told the values of its own. -/
structure Resumes (infos : List BackendInfo) (value? : String → String → Option ParameterValue)
    (before after : Dispatcher) : Prop where
  exports : after.exports.settings = before.exports.settings
  routes : after.routes =
    infos.map fun info => routeWith info (startCommands info (value? info.name))

/-- What is done with settings is still so when the database is opened again: whatever values
clients and backends give for them, and whenever the settings file is written in between, as
soon as the last write has succeeded. A setting without an accepted value has that of the
settings file with which everything began. -/
theorem restart_settings [Backend σ] (m : Machine) (o : Options) (backends : List σ)
    (duties : List Duty) {infos : List BackendInfo} {disk : Disk} {p : Persister}
    (hinfos : backends.map Backend.info = infos) (hdistinct : (infos.map (·.name)).Nodup)
    (hgeneral : generalContext ∉ infos.map (·.name))
    (hload : Persister.load (Path.configFile (Path.databaseDir o.baseDir)) o.saveDebounce disk =
      (.ok p, m.disk))
    (hsettings : ∀ i ∈ inputsOf duties, i.setting?.isSome)
    (hforeign : ∀ i ∈ inputsOf duties, i.Foreign) :
    let path := Path.configFile (Path.databaseDir o.baseDir)
    let begun := (start m o p backends).2.dispatcher
    ∃ d, begun.attendAll duties = .ok d ∧
      ∀ written q disk', d.persister.flush d.disk = (.ok written, q, disk') →
        d.persister.registry.ReadsBack →
        ∀ (m₁ m₂ : Machine) (o₁ : Options) (backends₁ : List σ) (db₁ : Database σ),
          m₁.disk.read path = disk'.read path → o₁.baseDir = o.baseDir → o₁.create = false →
          backends₁.map Backend.info = infos → open? m₁ o₁ backends₁ = (.ok db₁, m₂) →
          Resumes infos
            (fun context name => (begun.lastAccepted? (inputsOf duties) context name).or
              ((Registry.load path disk).toOption.bind (·.get? context name)))
            d db₁.dispatcher := by
  intro path begun
  obtain ⟨d, hd⟩ : ∃ d, begun.attendAll duties = .ok d := exists_attendAll_eq_ok hsettings
  refine ⟨d, hd, ?_⟩
  intro written q disk' hflush hback m₁ m₂ o₁ backends₁ db₁ hfile hbase hcreate hinfos₁ hopen
  have hp := Persister.eq_of_load hload
  have hvalue (context name : String) : p.registry.get? context name =
      (Registry.load path disk).toOption.bind (·.get? context name) := by
    rw [hp]
    cases Registry.load path disk <;> rfl
  -- The dispatcher begins with what is loaded, and has the last values in the end.
  obtain ⟨hbegun, hdisk, -⟩ :=
    begun_start (m := m) (o := o) hinfos (show p.schemas = .empty by rw [hp]) hdistinct hgeneral
  have hledger := ledger_attendAll hd
  have hfollows := follows_attendAll (hbegun.registry ▸ hbegun.follows) hforeign hd
  have hpath : d.persister.path = path := by
    rw [hledger.path, hbegun.path, hp]
  -- The settings file holds them once they are written.
  have hsaved : d.persister.Saved d.disk := by
    refine saved_attendAll ?_ (.inl hsettings) hd
    refine (Persister.saved_load hload).congr hbegun.path hbegun.registry hbegun.deadline ?_
    rw [hdisk]
  obtain ⟨text, hread, htext⟩ := Persister.read_of_flush (fun _ => hsaved) hflush hback
  -- The database begins again with what the file holds.
  obtain ⟨ready, again, p₁, hkeeps, hload₁, rfl⟩ := start_of_open? hcreate hopen
  rw [hpath, ← hfile] at hread
  rw [hbase, Persister.load_of_read (hkeeps.read hread) htext] at hload₁
  obtain ⟨hagain, -⟩ := begun_start (m := again) (o := o₁) hinfos₁ (p := p₁)
    (by cases hload₁; rfl) hdistinct hgeneral
  have hregistry : p₁.registry = d.persister.registry := by
    cases hload₁
    rfl
  have hvalues (context name : String) : p₁.registry.get? context name =
      (begun.lastAccepted? (inputsOf duties) context name).or
        ((Registry.load path disk).toOption.bind (·.get? context name)) := by
    rw [hregistry, ← hvalue, ← hbegun.registry]
    exact hledger.values context name
  constructor
  · refine ExportTable.settings_eq_of_follows hfollows hagain.follows fun name => ?_
    rw [hregistry]
  · rw [hagain.routes]
    simp only [hvalues]

/-- One value of the settings file, one that a client sets after the backend has reported
another, and one by default; an action is not repeated. -/
theorem restart_settings_scripted :
    let options : Options := {
      baseDir := "/b"
      create := false
      pollInterval := 50
      saveDebounce := 3000
      waitForCreation := true
      creationTimeout := none
      serverUrl := none
      radioBrowserServer := "de1.api.radio-browser.info"
      objectCacheSize := 16 }
    let script : Script := {
      name := "fs"
      parameters := [
        { name := "go", longName := "Go", kind := .button },
        { name := "mode", longName := "Mode", kind := .string },
        { name := "depth", longName := "Depth", kind := .int },
        { name := "width", longName := "Width", kind := .int, default := some (.int 7) }] }
    let disk : Disk := { nodes := .ofList [
      ("/b", .directory), ("/b/medialib", .directory),
      ("/b/medialib/config.toml", .file "[fs]\nmode = \"deep\"\n")] }
    let path := Path.configFile (Path.databaseDir options.baseDir)
    let loaded : Persister := {
      path := path
      registry := Registry.empty.set "fs" "mode" (.string "deep")
      debounce := 3000 }
    let duties : List Duty := [
      .input (.command 0 (.setParameter generalContext "export_media_dirs" (.bool true))),
      .input (.report 5 ⟨"fs", .parameterChanged "depth" (.int 2)⟩),
      .tick 4000,
      .input (.command 5000 (.setParameter "fs" "depth" (.int 3))),
      .input (.command 5000 (.setParameter "fs" "go" (.bool true))),
      .input (.command 6000 (.setParameter "fs" "height" (.int 4)))]
    let backends : List Scripted := [{ script := script }]
    let begun := (start { disk := disk } options loaded backends).2.dispatcher
    ∃ d disk' db m, begun.attendAll duties = .ok d ∧
      (d.persister.flush d.disk).2.2 = disk' ∧
      open? { disk := disk' } options backends = (.ok db, m) ∧
      db.dispatcher.exports.settings = (true, [], []) ∧
      db.dispatcher.routes.map (·.commands.queue) = [[
        .setParameter "fs" "mode" (.string "deep"),
        .setParameter "fs" "depth" (.int 3),
        .setParameter "fs" "width" (.int 7)]] := by
  intro options script disk path loaded duties backends begun
  have hread : disk.read path = .ok "[fs]\nmode = \"deep\"\n" := by decide +kernel
  have htext : Registry.ofText? "[fs]\nmode = \"deep\"\n" = some loaded.registry := by
    decide +kernel
  have hload : Persister.load path options.saveDebounce disk = (.ok loaded, disk) :=
    Persister.load_of_read hread htext
  let d := (begun.attendAll duties).toOption.getD begun
  have hd : begun.attendAll duties = .ok d := rfl
  have hback : d.persister.registry.ReadsBack := by decide +kernel
  have hwritten : (d.persister.flush d.disk).1.isOk := by decide +kernel
  have hopened : (open? { disk := (d.persister.flush d.disk).2.2 } options backends).1.isOk := by
    decide +kernel
  rcases hflush : d.persister.flush d.disk with ⟨error | written, q, disk'⟩
  · rw [hflush] at hwritten
    cases hwritten
  rw [hflush] at hopened
  rcases hopen : open? { disk := disk' } options backends with ⟨error | db, m⟩
  · rw [hopen] at hopened
    cases hopened
  obtain ⟨e, he, hresumes⟩ := restart_settings { disk := disk } options backends duties
    rfl (by decide) (by decide) hload (by decide) (by decide)
  have hsame : e = d := Except.ok.inj (he.symm.trans hd)
  rw [hsame] at hresumes
  have h := hresumes written q disk' hflush hback { disk := disk' } m options backends db
    rfl rfl rfl rfl hopen
  have hsettings : d.exports.settings = (true, [], []) := by decide +kernel
  refine ⟨d, disk', db, m, hd, congrArg (·.2.2) hflush, hopen, h.exports.trans hsettings, ?_⟩
  -- The values are found one by one; with them the commands are a matter of the declarations.
  let value? (name : String) : Option ParameterValue :=
    (begun.lastAccepted? (inputsOf duties) "fs" name).or (loaded.registry.get? "fs" name)
  have hmode : value? "mode" = some (.string "deep") := by decide +kernel
  have hdepth : value? "depth" = some (.int 3) := by decide +kernel
  have hwidth : value? "width" = none := by decide +kernel
  have hsent : startCommands (Backend.info ({ script := script } : Scripted)) value? = [
      .setParameter "fs" "mode" (.string "deep"),
      .setParameter "fs" "depth" (.int 3),
      .setParameter "fs" "width" (.int 7)] := by
    simp [startCommands, Backend.info, script, hmode, hdepth, hwidth]
  have hqueue := queue_routeWith (Backend.info ({ script := script } : Scripted))
    (startCommands (Backend.info ({ script := script } : Scripted)) value?)
  rw [h.routes, Registry.load_of_read hread htext, List.map_map, List.map_map]
  exact congrArg ([·]) (hqueue.trans (congrArg (List.take Sink.defaultCapacity) hsent))

end Database

end Mediatheque
