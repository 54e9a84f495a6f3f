import Mediatheque.CommandLine.Run
import Mediatheque.Proofs.Database.Opening
import Mediatheque.Proofs.Database.Turns
import Mediatheque.Proofs.Dispatcher.Storing

/-!
# Settings that are given on the command line

A setting that is given on the command line is a command that waits in a queue when the database
is closed. Closing puts the command to quit behind it, so that the dispatcher stores the value
before it quits, and then the settings are written.

While the database is open, the settings file is going to hold the registry of the dispatcher with
all that waits in the queue (`AtWork`). It begins with what is found on the disk
(`atWork_open?`); turns of the dispatcher do not change it, however many there are
(`atWork_rounds`), and a command adds its value (`atWork_queued`). When the database has been
closed the file holds it (`load_close`).
-/

namespace Mediatheque

open Dispatcher

/-! ## The registry that is found -/

/-- A registry is found at a path: it is the one of the settings file there, or empty as nothing
stands where the path leads, with `..` taken by what is written. -/
def Registry.FoundAt (r : Registry) (path : String) (disk : Disk) : Prop :=
  Registry.load path disk = .ok r ∨
    (disk.nodeAt? (Path.resolveDots (Path.components path)) = none ∧ r = .empty)

/-- A disk that grows has the same settings: a file that is new is empty. -/
theorem Registry.FoundAt.load_of_grows {r : Registry} {path : String} {disk disk' : Disk}
    (h : r.FoundAt path disk) (hgrows : disk.Grows disk') :
    (Registry.load path disk').toOption.getD .empty = r := by
  rcases h with hload | ⟨hnone, rfl⟩
  · obtain ⟨text, hread, htext⟩ := Registry.load_eq_ok_iff.1 hload
    rw [Registry.load_of_read (hgrows.keeps.read hread) htext]
    rfl
  · cases hread : disk'.read path with
    | error e =>
      rw [Registry.load, hread]
      rfl
    | ok text =>
      obtain ⟨place, hplace, hfile⟩ := Disk.read_eq_ok_iff.1 hread
      rcases hgrows.file hfile with hold | rfl
      · rw [Disk.place_eq hplace, hnone] at hold
        cases hold
      · rw [Registry.load_of_read hread (by decide : Registry.ofText? "" = some .empty)]
        rfl

namespace Database

variable {caches : List DirectoryCache} {path : String} {r : Registry}
  {m m' : Machine} {db db' : Database Empty}

/-! ## A database at work -/

/-- A database without backends whose dispatcher is at work. It will have come to a registry when
it has handled the commands in its queue, which all give the library values for its settings. -/
structure AtWork (caches : List DirectoryCache) (path : String) (r : Registry) (m : Machine)
    (db : Database Empty) : Prop where
  isOpen : db.isOpen
  outlook : db.isRunning = true
  runners : db.runners = []
  reports : db.reports.queue = []
  takes : db.endpoint.commandSink.isOpen
  room : 0 < db.endpoint.commandSink.capacity
  commands : ∀ c ∈ db.endpoint.commandSink.queue, GivesOwn caches path c
  storing : ∃ stored : Registry, stored.told db.endpoint.commandSink.queue = r ∧
    Storing caches path stored { db.dispatcher with disk := m.disk }

/-- What has nothing to do with settings may change. -/
theorem AtWork.of_eq (h : AtWork caches path r m db) (hisOpen : db'.isOpen = db.isOpen)
    (houtlook : db'.outlook = db.outlook) (hrunners : db'.runners = db.runners)
    (hreports : db'.reports = db.reports)
    (hsink : db'.endpoint.commandSink = db.endpoint.commandSink)
    (hcaches : db'.dispatcher.caches = db.dispatcher.caches)
    (hpersister : db'.dispatcher.persister = db.dispatcher.persister)
    (hdisk : m'.disk = m.disk) : AtWork caches path r m' db' := by
  obtain ⟨stored, htold, hstoring⟩ := h.storing
  refine ⟨hisOpen ▸ h.isOpen, ?_, hrunners.trans h.runners, ?_, ?_, ?_, ?_, stored, ?_,
    hstoring.of_eq hcaches hpersister hdisk⟩
  · rw [isRunning, houtlook]
    exact h.outlook
  · rw [hreports, h.reports]
  · rw [hsink]
    exact h.takes
  · rw [hsink]
    exact h.room
  · rw [hsink]
    exact h.commands
  · rw [hsink, htold]

/-- Whoever looks at the events does not change what is to be saved. -/
theorem AtWork.withEvents (h : AtWork caches path r m db) (bus : Bus Event) :
    AtWork caches path r m { db with endpoint := { db.endpoint with eventBus := bus } } :=
  h.of_eq rfl rfl rfl rfl rfl rfl rfl rfl

theorem not_isQuit_of_givesOwn {c : Command} (h : GivesOwn caches path c) :
    BusMessage.isQuit c = false := by
  obtain ⟨name, value, rfl, -⟩ := h
  rfl

/-! ## Turns -/

/-- A turn stores what waits in the queue before a command to quit, and quits with that. -/
theorem storing_dispatcherTurn (hrunning : db.isRunning = true) (hreports : db.reports.queue = [])
    (hcommands : ∀ c ∈ beforeQuit db.endpoint.commandSink.queue, GivesOwn caches path c)
    {stored : Registry}
    (hstoring : Storing caches path stored { db.dispatcher with disk := m.disk }) :
    Storing caches path (stored.told (beforeQuit db.endpoint.commandSink.queue))
        { (dispatcherTurn m db).2.dispatcher with disk := (dispatcherTurn m db).1.disk } ∧
      (dispatcherTurn m db).2.outlook =
        (if db.endpoint.commandSink.queue.any BusMessage.isQuit then .quit else .running) ∧
      (nextTurn m db).commands =
        { db.endpoint.commandSink with queue := behindQuit db.endpoint.commandSink.queue } ∧
      (dispatcherTurn m db).2.reports.queue = [] := by
  obtain ⟨hdispatcher, houtlook, hqueue⟩ := dispatcherTurn_of_running m hrunning
  have hbegins : Storing caches path stored
      { db.dispatcher with disk := m.disk, nextToken := db.endpoint.nextToken } :=
    hstoring.of_eq rfl rfl rfl
  obtain ⟨d, hd, hturn⟩ := storing_turn hbegins hcommands m.now hreports
  have hnext : nextTurn m db = _ := hturn
  rw [hdispatcher, houtlook, hqueue, (machine_dispatcherTurn m hrunning).1, hnext]
  exact ⟨hd.of_eq rfl rfl rfl, rfl, rfl, ite_self _⟩

/-- A turn of the dispatcher handles what waits, and leaves nothing. -/
theorem atWork_dispatcherTurn (h : AtWork caches path r m db) :
    AtWork caches path r (dispatcherTurn m db).1 (dispatcherTurn m db).2 ∧
      (dispatcherTurn m db).2.endpoint.commandSink =
        { db.endpoint.commandSink with queue := [] } := by
  have hnone : ∀ c ∈ db.endpoint.commandSink.queue, BusMessage.isQuit c = false :=
    fun c hc => not_isQuit_of_givesOwn (h.commands c hc)
  obtain ⟨stored, htold, hstoring⟩ := h.storing
  have hbefore := beforeQuit_eq_self hnone
  obtain ⟨hstored, houtlook, hleft, hreports⟩ :=
    storing_dispatcherTurn h.outlook h.reports (hbefore.symm ▸ h.commands) hstoring
  rw [hbefore, htold] at hstored
  have hquit : db.endpoint.commandSink.queue.any BusMessage.isQuit = false := by simpa using hnone
  rw [hquit, if_neg Bool.false_ne_true] at houtlook
  have hsink : (dispatcherTurn m db).2.endpoint.commandSink =
      { db.endpoint.commandSink with queue := [] } := by
    rw [commandSink_dispatcherTurn m h.outlook h.takes,
      ← (dispatcherTurn_of_running m h.outlook).2.1, if_pos houtlook, hleft,
      behindQuit_eq_nil hnone]
  refine ⟨⟨?_, ?_, ?_, hreports, ?_, ?_, ?_, r, ?_, hstored⟩, hsink⟩
  · rw [(machine_dispatcherTurn m h.outlook).2]
    exact h.isOpen
  · rw [isRunning, houtlook]
    rfl
  · rw [runners_dispatcherTurn, h.runners]
  · rw [hsink]
    exact h.takes
  · rw [hsink]
    exact h.room
  · rw [hsink]
    exact List.forall_mem_nil _
  · rw [hsink]
    rfl

theorem atWork_round (h : AtWork caches path r m db) :
    AtWork caches path r (round m db).1 (round m db).2 := by
  rw [round, h.runners]
  exact (atWork_dispatcherTurn h).1.of_eq rfl rfl rfl rfl rfl rfl rfl rfl

/-- Rounds change nothing about what is to be saved. -/
theorem atWork_rounds (h : AtWork caches path r m db) (n : Nat) :
    AtWork caches path r (rounds n m db).1 (rounds n m db).2 := by
  induction n generalizing m db with
  | zero => exact h
  | succ n ih => exact ih (atWork_round h)

/-! ## Commands -/

/-- The database with a command more in the queue of its dispatcher. -/
def queued (db : Database Empty) (c : Command) : Database Empty :=
  { db with
    endpoint := db.endpoint.withCommandSink
      { db.endpoint.commandSink with queue := db.endpoint.commandSink.queue ++ [c] } }

theorem commandSink_queued (h : db.endpoint.commandSink.isOpen) (c : Command) :
    (db.queued c).endpoint.commandSink =
      { db.endpoint.commandSink with queue := db.endpoint.commandSink.queue ++ [c] } :=
  commandSink_withCommandSink h _

/-- There is room for a command, if need be after a turn. -/
theorem sendBlocking_eq (h : AtWork caches path r m db) (c : Command) :
    ∃ m' db', AtWork caches path r m' db' ∧ db.sendBlocking m c = (.ok (), m', db'.queued c) := by
  have hroom : ∃ m' db', AtWork caches path r m' db' ∧ db'.endpoint.commandSink.accepts = true ∧
      (if db.endpoint.commandSink.isFull then dispatcherTurn m db else (m, db)) = (m', db') := by
    split
    · obtain ⟨hturned, hsink⟩ := atWork_dispatcherTurn h
      refine ⟨_, _, hturned, Sink.accepts_eq_true.2 ⟨hturned.takes, ?_⟩, rfl⟩
      rw [hsink]
      exact h.room
    · rename_i hfull
      refine ⟨m, db, h, ?_, rfl⟩
      rw [Sink.accepts, h.takes, Bool.eq_false_iff.2 hfull]
      rfl
  obtain ⟨m', db', h', haccepts, hturned⟩ := hroom
  refine ⟨m', db', h', ?_⟩
  rw [sendBlocking, hturned]
  dsimp only
  rw [Sink.offer_of_accepts haccepts]
  rfl

/-- A command that gives the library a value for one of its settings adds that. -/
theorem atWork_queued (h : AtWork caches path r m db) {c : Command}
    (hc : GivesOwn caches path c) : AtWork caches path (r.told [c]) m (db.queued c) := by
  have hsink := commandSink_queued h.takes c
  obtain ⟨stored, htold, hstoring⟩ := h.storing
  refine ⟨h.isOpen, h.outlook, h.runners, h.reports, ?_, ?_, ?_, stored, ?_, hstoring⟩
  · rw [hsink]
    exact h.takes
  · rw [hsink]
    exact h.room
  · rw [hsink]
    exact List.forall_mem_append.2 ⟨h.commands, List.forall_mem_singleton.2 hc⟩
  · rw [hsink, Registry.told_append, htold]

/-! ## The begin -/

theorem errors_save {registry : Registry} {disk : Disk}
    (h : ∀ e ∈ disk.writeErrors, e = none) :
    ∀ e ∈ (registry.save path disk).2.writeErrors, e = none := by
  have hdisk : (registry.save path disk).2 = (disk.write path registry.text).2 := by
    rw [Registry.save]
    split
    · rename_i hwrite
      rw [hwrite]
    · rename_i hwrite
      rw [hwrite]
  rw [hdisk, Disk.writeErrors_write]
  exact fun e he => h e (List.mem_of_mem_tail he)

/-- Settings are loaded from a file that can be written, as it can be read or has just been. -/
theorem rewritable_load {debounce : Nat} {disk disk' : Disk} {p : Persister}
    (h : Persister.load path debounce disk = (.ok p, disk'))
    (herrors : ∀ e ∈ disk.writeErrors, e = none) : disk'.Rewritable path := by
  have hp := Persister.eq_of_load h
  obtain ⟨text, hread, -⟩ := Persister.saved_load h (by rw [hp])
  rw [hp] at hread
  refine ⟨⟨text, hread⟩, ?_⟩
  rw [Persister.load] at h
  split at h
  · cases h
    exact herrors
  · split at h
    · rename_i hsave
      cases h
      rw [show disk' = (Registry.empty.save path disk).2 by rw [hsave]]
      exact errors_save herrors
    · cases h

/-- A database begins to work with the registry that has been loaded. -/
theorem atWork_start {o : Options} {p : Persister} {disk : Disk}
    (hload : Persister.load (Path.configFile (Path.databaseDir o.baseDir)) o.saveDebounce disk =
      (.ok p, m.disk)) (herrors : ∀ e ∈ disk.writeErrors, e = none) :
    AtWork [⟨"thumbnails", Path.thumbnailsDir (Path.databaseDir o.baseDir)⟩]
      (Path.configFile (Path.databaseDir o.baseDir)) p.registry
      (start m o p ([] : List Empty)).1 (start m o p ([] : List Empty)).2 := by
  have hp := Persister.eq_of_load hload
  have hschemas : p.schemas = .empty := by rw [hp]
  have hnames : generalContext ∉ ([] : List BackendInfo).map (·.name) := List.not_mem_nil
  have hinfos : ([] : List Empty).map Backend.info = [] := rfl
  obtain ⟨hbegun, -, hcaches⟩ :=
    begun_start (m := m) (o := o) (p := p) hinfos hschemas List.nodup_nil hnames
  have hpath : (start m o p ([] : List Empty)).2.dispatcher.persister.path =
      Path.configFile (Path.databaseDir o.baseDir) := by
    rw [hbegun.path, hp]
  have hroom : 0 < Sink.defaultCapacity := by decide
  refine ⟨rfl, rfl, rfl, rfl, rfl, hroom, List.forall_mem_nil _, p.registry, rfl,
    hcaches, hpath, hbegun.registry, ?_, ?_, ?_⟩
  · dsimp only
    rw [persister_start]
    exact schema?_declared_general hnames
  · exact (Persister.saved_load hload).congr hbegun.path hbegun.registry hbegun.deadline rfl
  · dsimp only
    rw [hpath]
    exact rewritable_load hload herrors

theorem atWork_beginCreation (h : AtWork caches path r m db) :
    AtWork caches path r m db.beginCreation.2 := by
  have hd : (db.dispatcher.beginCreation db.creators).caches = db.dispatcher.caches ∧
      (db.dispatcher.beginCreation db.creators).persister = db.dispatcher.persister := by
    rw [Dispatcher.beginCreation]
    split <;> exact ⟨rfl, rfl⟩
  exact h.of_eq rfl rfl rfl rfl (commandSink_foldl_publish _ _) hd.1 hd.2 rfl

/-- Rounds in which someone looks at the events change nothing about what is to be saved. -/
theorem atWork_await {s : Subscription} {deadline : Option Nat} (n : Nat) {seen seen' : Bool}
    (h : AtWork caches path r m db)
    (hawait : await (lookForCreation s) id deadline n seen m db = (seen', m', db')) :
    AtWork caches path r m' db' := by
  induction n generalizing seen m db with
  | zero =>
    cases hawait
    exact h.withEvents _
  | succ n ih =>
    have hlooked : AtWork caches path r m (lookForCreation s seen db).2 := h.withEvents _
    rw [await] at hawait
    dsimp only at hawait
    split at hawait
    · cases hawait
      exact hlooked
    · exact ih (atWork_round hlooked) hawait

theorem atWork_complete {o : Options} (h : AtWork caches path r m db)
    (hcomplete : db.complete m o = (.ok db', m')) : AtWork caches path r m' db' := by
  have hbegun := atWork_beginCreation h
  rw [complete] at hcomplete
  dsimp only at hcomplete
  split at hcomplete
  · cases hcomplete
    exact hbegun.withEvents _
  · split at hcomplete
    · rename_i hawait
      cases hcomplete
      exact (atWork_await _ hbegun hawait).withEvents _
    · cases hcomplete

/-- A database that is opened begins to work with the registry that is found. -/
theorem atWork_open? {o : Options} (hopen : open? m o ([] : List Empty) = (.ok db, m'))
    (hfound : r.FoundAt (Path.configFile (Path.databaseDir o.baseDir)) m.disk)
    (herrors : ∀ e ∈ m.disk.writeErrors, e = none) :
    AtWork [⟨"thumbnails", Path.thumbnailsDir (Path.databaseDir o.baseDir)⟩]
      (Path.configFile (Path.databaseDir o.baseDir)) r m' db := by
  obtain ⟨ready, begun, p, hgrows, hload, hdb⟩ := begun_of_open? hopen
  have hr : p.registry = r := by
    rw [Persister.eq_of_load hload]
    exact hfound.load_of_grows hgrows
  rw [← hgrows.writeErrors] at herrors
  have hstart := atWork_start hload herrors
  rw [hr] at hstart
  split at hdb
  · exact atWork_complete hstart hdb
  · cases hdb
    exact hstart

/-! ## The end -/

/-- When the dispatcher is told to quit it stores what waits before that. -/
theorem load_stopDispatcher (h : AtWork caches path r m db) (hback : r.ReadsBack) :
    Registry.load path (stopDispatcher m db).1.disk = .ok r := by
  obtain ⟨m₁, db₁, h₁, hsend⟩ := sendBlocking_eq h .quit
  obtain ⟨stored, htold, hstoring⟩ := h₁.storing
  have hqueue : (db₁.queued .quit).endpoint.commandSink.queue =
      db₁.endpoint.commandSink.queue ++ [.quit] :=
    congrArg Sink.queue (commandSink_queued h₁.takes .quit)
  have hbefore : beforeQuit (db₁.queued .quit).endpoint.commandSink.queue =
      db₁.endpoint.commandSink.queue := by
    rw [hqueue, beforeQuit_append fun c hc => not_isQuit_of_givesOwn (h₁.commands c hc)]
    exact List.append_nil _
  have hrunning : (db₁.queued .quit).isRunning = true := h₁.outlook
  obtain ⟨hstored, houtlook, -⟩ :=
    storing_dispatcherTurn hrunning h₁.reports (hbefore.symm ▸ h₁.commands) hstoring
  have hquit : (db₁.queued .quit).endpoint.commandSink.queue.any BusMessage.isQuit = true := by
    rw [hqueue, List.any_append]
    exact Bool.or_true _
  rw [hbefore, htold] at hstored
  rw [hquit, if_pos rfl] at houtlook
  rw [stopDispatcher, hsend]
  dsimp only
  rw [if_pos houtlook]
  exact load_flush hstored hback

/-- When the database has been closed the settings file holds all that has been stored. -/
theorem load_close (h : AtWork caches path r m db) (hback : r.ReadsBack) :
    Registry.load path (db.close m).1.disk = .ok r := by
  have hpositions : List.range db.runners.length = [] := by rw [h.runners]; rfl
  have hdisk : (db.close m).1.disk = (stopDispatcher m db).1.disk := by
    rw [close, h.isOpen, hpositions]
    simp only [List.foldl_nil]
    rfl
  rw [hdisk]
  exact load_stopDispatcher h hback

end Database

/-! ## Invocations -/

namespace Invocation

/-- Carries out an invocation while the dispatcher takes some turns before the request, and some
after it until the database is closed. -/
def runAmidTurns (i : Invocation) (s : Surroundings) (m : Machine) (before after : Nat) :
    Except RunError (List Event) × Machine :=
  match i.settings s m.disk with
  | .error e => (.error e, m)
  | .ok settings =>
    match Database.open? m (i.databaseOptions s settings m.disk) ([] : List Empty) with
    | (.error e, m) => (.error (.database e), m)
    | (.ok db, m) =>
      let (m, db) := Database.rounds before m db
      let (answers, m, db) := i.ask m db
      let (m, db) := Database.rounds after m db
      (answers.mapError .bus, (db.close m).1)

theorem run_eq_runAmidTurns (i : Invocation) (s : Surroundings) (m : Machine) :
    i.run s m = i.runAmidTurns s m 0 0 := rfl

theorem load_runAmidTurns {i : Invocation} {s : Surroundings} {m m' : Machine} {settings : Settings}
    {name value dir : String} {r : Registry} {before after : Nat} {answers : List Event}
    (hrequest : i.request = .set generalContext name value)
    (hsettings : i.settings s m.disk = .ok settings)
    (hdir : Path.databaseDir (i.databaseOptions s settings m.disk).baseDir = dir)
    (hfound : r.FoundAt (Path.configFile dir) m.disk)
    (herrors : ∀ e ∈ m.disk.writeErrors, e = none)
    (hspared : name = rescanParameter →
      Spared [⟨"thumbnails", Path.thumbnailsDir dir⟩] (Path.configFile dir))
    (hback : (r.setOwn name (.ofArgument value)).ReadsBack)
    (hrun : i.runAmidTurns s m before after = (.ok answers, m')) :
    Registry.load (Path.configFile dir) m'.disk = .ok (r.setOwn name (.ofArgument value)) := by
  subst hdir
  rw [runAmidTurns, hsettings] at hrun
  dsimp only at hrun
  split at hrun
  · cases hrun
  · rename_i db m₁ hopen
    have hopened := Database.atWork_rounds (Database.atWork_open? hopen hfound herrors) before
    rw [ask, hrequest] at hrun
    obtain ⟨m₂, db₂, h₂, hsend⟩ := Database.sendBlocking_eq hopened
      (.setParameter generalContext name (.ofArgument value))
    dsimp only at hrun
    rw [hsend] at hrun
    have hasked := Database.atWork_rounds
      (Database.atWork_queued h₂ ⟨name, .ofArgument value, rfl, hspared⟩) after
    cases hrun
    exact Database.load_close hasked hback

/-- A setting that is given on the command line is saved. When the invocation is over, however many
turns the dispatcher has taken meanwhile, the settings file holds the registry that was found
there with the value, if the library has the setting, and no other value has changed. Writes meet
no error of their own for that, nor does clearing the thumbnails before the write take away the
way to the file, and what is written can be read back. -/
theorem setting_saved {i : Invocation} {s : Surroundings} {m : Machine} {settings : Settings}
    {name value dir : String} {r : Registry}
    (hrequest : i.request = .set generalContext name value)
    (hsettings : i.settings s m.disk = .ok settings)
    (hdir : Path.databaseDir (i.databaseOptions s settings m.disk).baseDir = dir)
    (hfound : r.FoundAt (Path.configFile dir) m.disk)
    (herrors : ∀ e ∈ m.disk.writeErrors, e = none)
    (hspared : name = rescanParameter →
      Spared [⟨"thumbnails", Path.thumbnailsDir dir⟩] (Path.configFile dir))
    (hback : (r.setOwn name (.ofArgument value)).ReadsBack) :
    (∀ answers m', i.run s m = (.ok answers, m') →
      Registry.load (Path.configFile dir) m'.disk = .ok (r.setOwn name (.ofArgument value))) ∧
    (∀ before after answers m', i.runAmidTurns s m before after = (.ok answers, m') →
      Registry.load (Path.configFile dir) m'.disk = .ok (r.setOwn name (.ofArgument value))) ∧
    ∀ context other, (r.setOwn name (.ofArgument value)).get? context other =
      if generalParameters.any (·.name = name) ∧ context = generalContext ∧ other = name then
        some (.ofArgument value)
      else r.get? context other := by
  refine ⟨fun answers m' hrun => ?_, fun before after answers m' hrun => ?_,
    r.get?_setOwn name (.ofArgument value)⟩
  · rw [run_eq_runAmidTurns] at hrun
    exact load_runAmidTurns hrequest hsettings hdir hfound herrors hspared hback hrun
  · exact load_runAmidTurns hrequest hsettings hdir hfound herrors hspared hback hrun

/-- A switch of an old database, the action of a new one, and a setting that there is not. -/
theorem setting_saved_three :
    let surroundings : Surroundings := { userSettings := none, dataDir := "/data" }
    let path := Path.configFile "/b/medialib"
    let old : Machine := { disk := { nodes := .ofList [
      ("/b", .directory), ("/b/medialib", .directory), (path, .file "[fs]\ndepth = 3\n")] } }
    let stored := Registry.empty.set "fs" "depth" (.int 3)
    let set (create : Bool) (name value : String) : Invocation :=
      { baseDir := some "/b", create := create, request := .set generalContext name value }
    (∃ answers m,
      (set false "export_media_dirs" "true").run surroundings old = (.ok answers, m) ∧
        Registry.load path m.disk =
          .ok (stored.set generalContext "export_media_dirs" (.bool true))) ∧
    (∃ answers m, (set true rescanParameter "now").run surroundings {} = (.ok answers, m) ∧
      Registry.load path m.disk =
        .ok (Registry.empty.set generalContext rescanParameter (.string "now"))) ∧
    ∃ answers m, (set false "colour" "3").run surroundings old = (.ok answers, m) ∧
      Registry.load path m.disk = .ok stored := by
  intro surroundings path old stored set
  have hdir : Path.databaseDir "/b" = "/b/medialib" := by decide +kernel
  have hspared : Spared [⟨"thumbnails", Path.thumbnailsDir "/b/medialib"⟩] path :=
    Database.spared_thumbnails (by decide +kernel)
  have hsaved (create : Bool) (name value : String) {m : Machine} {r : Registry}
      (hok : ((set create name value).run surroundings m).1.isOk)
      (hfound : r.FoundAt path m.disk) (herrors : m.disk.writeErrors = [])
      (hback : (r.setOwn name (.ofArgument value)).ReadsBack) :
      ∃ answers m', (set create name value).run surroundings m = (.ok answers, m') ∧
        Registry.load path m'.disk = .ok (r.setOwn name (.ofArgument value)) := by
    rcases hrun : (set create name value).run surroundings m with ⟨error | answers, m'⟩
    · rw [hrun] at hok
      cases hok
    · have hnone : ∀ e ∈ m.disk.writeErrors, e = none := by
        rw [herrors]
        exact List.forall_mem_nil _
      exact ⟨answers, m', rfl, (setting_saved (i := set create name value) rfl rfl hdir hfound hnone
        (fun _ => hspared) hback).1 answers m' hrun⟩
  have hold : stored.FoundAt path old.disk := .inl (by decide +kernel)
  have hnew : Registry.empty.FoundAt path {} := .inr ⟨by decide +kernel, rfl⟩
  have hswitch : stored.setOwn "export_media_dirs" (.ofArgument "true") =
      stored.set generalContext "export_media_dirs" (.bool true) := by decide +kernel
  have haction : Registry.empty.setOwn rescanParameter (.ofArgument "now") =
      Registry.empty.set generalContext rescanParameter (.string "now") := by decide +kernel
  have hnothing : stored.setOwn "colour" (.ofArgument "3") = stored := by decide +kernel
  rw [← hswitch, ← haction]
  refine ⟨hsaved false _ _ (by decide +kernel) hold rfl (by decide +kernel),
    hsaved true _ _ (by decide +kernel) hnew rfl (by decide +kernel), ?_⟩
  have hcolour := hsaved false "colour" "3" (by decide +kernel) hold rfl (by decide +kernel)
  rwa [hnothing] at hcolour

end Invocation

end Mediatheque
