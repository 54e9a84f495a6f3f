import Mediatheque.Proofs.Database.Opening
import Mediatheque.Proofs.Database.Work
import Mediatheque.Proofs.Dispatcher.Reach

/-!
# What a database leaves as it is

Whoever works for a database leaves the locks of the machine alone, and the directory of the
database where it is, with the lock in it (`Stays`). This is so of every turn (`stays_runnerTurn`,
`stays_dispatcherTurn`), and so of waiting in rounds. Closing the database gives up its lock and
does no more than that (`closed_close`), be it that whoever opened it did not see it complete in
time (`completed_complete`).
-/

namespace Mediatheque

open Dispatcher

namespace Database

variable {σ : Type} {dir : String}

/-- A database in a directory clears its images at most, and those only if that spares the
directory. -/
structure Tame (dir : String) (db : Database σ) : Prop where
  place : db.dir = dir
  caches : db.dispatcher.caches = [⟨"thumbnails", Path.thumbnailsDir dir⟩]
  commands : db.isRunning = true →
    ∀ c ∈ db.endpoint.commandSink.queue, c.AsksRescan → Disk.Sparing dir

/-- The directory of a tame database stays where it is, and so do the locks of the machine. -/
structure Stays (dir : String) (x y : Machine × Database σ) : Prop where
  tame : Tame dir y.2
  isOpen : y.2.isOpen = x.2.isOpen
  locked : y.1.locked = x.1.locked
  disk : x.1.disk.Sustains dir y.1.disk

variable {x y z : Machine × Database σ}

theorem Stays.refl (h : Tame dir x.2) : Stays dir x x := ⟨h, rfl, rfl, .refl dir _⟩

theorem Stays.trans (hxy : Stays dir x y) (hyz : Stays dir y z) : Stays dir x z :=
  ⟨hyz.tame, hyz.isOpen.trans hxy.isOpen, hyz.locked.trans hxy.locked, hxy.disk.trans hyz.disk⟩

/-- A change that has nothing to do with the directory, the caches, and the commands. -/
theorem Stays.of_eq (h : Tame dir x.2) (hdisk : y.1.disk = x.1.disk)
    (hlocked : y.1.locked = x.1.locked) (hisOpen : y.2.isOpen = x.2.isOpen)
    (hdir : y.2.dir = x.2.dir) (hcaches : y.2.dispatcher.caches = x.2.dispatcher.caches)
    (houtlook : y.2.outlook = x.2.outlook)
    (hcommands : y.2.endpoint.commandSink = x.2.endpoint.commandSink) : Stays dir x y where
  tame := by
    refine ⟨hdir.trans h.place, hcaches.trans h.caches, ?_⟩
    rw [isRunning, houtlook, hcommands]
    exact h.commands
  isOpen := hisOpen
  locked := hlocked
  disk := by
    rw [hdisk]
    exact .refl dir _

/-- What each of some positions keeps, all of them keep one after the other. -/
theorem stays_foldl {f : Machine × Database σ → Nat → Machine × Database σ}
    (hf : ∀ x i, Tame dir x.2 → Stays dir x (f x i)) (positions : List Nat) (h : Tame dir x.2) :
    Stays dir x (positions.foldl f x) := by
  induction positions generalizing x with
  | nil => exact .refl h
  | cons i rest ih => exact (hf x i h).trans (ih (hf x i h).tame)

/-! ## Turns -/

theorem stays_runnerTurn [Backend σ] (i : Nat) (x : Machine × Database σ) (h : Tame dir x.2) :
    Stays dir x (runnerTurn i x.1 x.2) := by
  by_cases hrunning : ∃ info b, x.2.runners[i]? = some ⟨info, .running b⟩
  · obtain ⟨info, b, hrunner⟩ := hrunning
    cases hroute : x.2.dispatcher.routes[i]? with
    | none =>
      have hsame : runnerTurn i x.1 x.2 = x := by rw [runnerTurn, hrunner, hroute]
      rw [hsame]
      exact .refl h
    | some route =>
      obtain ⟨handled, state, commands, cache, reports, -, hturn⟩ :=
        runnerTurn_of_running x.1 hrunner hroute
      rw [hturn]
      exact .of_eq h rfl rfl rfl rfl rfl rfl rfl
  · rw [runnerTurn_of_not_running x.1 fun info b hrunner => hrunning ⟨info, b, hrunner⟩]
    exact .refl h

theorem mem_queue_withCommandSink {endpoint : Endpoint} {s : Sink Command} {c : Command}
    (h : c ∈ (endpoint.withCommandSink s).commandSink.queue) : c ∈ s.queue := by
  have hsink : (endpoint.withCommandSink s).commandSink =
      if endpoint.commands = endpoint.commands ∧
        endpoint.commands < endpoint.commandBus.sinks.length then s
      else endpoint.commandSink := Bus.sink_setSink ..
  rw [hsink] at h
  split at h
  · exact h
  · rename_i hnot
    rw [Endpoint.commandSink, Bus.sink_of_not_lt fun hlt => hnot ⟨rfl, hlt⟩] at h
    cases h

/-- A dispatcher that goes on after its turn has left no command in its queue. -/
theorem not_mem_queue_dispatcherTurn (m : Machine) {db : Database σ} (h : db.isRunning = true)
    (hgoes : (nextTurn m db).outlook = .running) (c : Command) :
    c ∉ (dispatcherTurn m db).2.endpoint.commandSink.queue := by
  have hsink : (dispatcherTurn m db).2.endpoint.commandSink =
      (db.endpoint.withCommandSink (if (nextTurn m db).outlook = .running then
        (nextTurn m db).commands else (nextTurn m db).commands.close)).commandSink := by
    rw [dispatcherTurn, h]
    exact commandSink_foldl_publish _ _
  rw [hsink, if_pos hgoes, (nextTurn_of_goesOn hgoes).2]
  exact fun hc => List.not_mem_nil (mem_queue_withCommandSink hc)

theorem stays_dispatcherTurn (x : Machine × Database σ) (h : Tame dir x.2) :
    Stays dir x (dispatcherTurn x.1 x.2) := by
  obtain ⟨m, db⟩ := x
  cases hrunning : db.isRunning with
  | false =>
    rw [dispatcherTurn_of_not_running m hrunning]
    exact .refl h
  | true =>
    obtain ⟨hdispatcher, houtlook, -⟩ := dispatcherTurn_of_running m hrunning
    obtain ⟨hmachine, hisOpen⟩ := machine_dispatcherTurn m hrunning
    have hreaches := reaches_turn
      { db.dispatcher with disk := m.disk, nextToken := db.endpoint.nextToken } m.now
      db.endpoint.commandSink db.reports
    have hdir : (dispatcherTurn m db).2.dir = db.dir := by
      rw [dispatcherTurn, hrunning]
      rfl
    refine ⟨⟨hdir.trans h.place, ?_, fun hgoes c hc => ?_⟩, hisOpen, ?_, ?_⟩
    · rw [hdispatcher]
      exact hreaches.caches.trans h.caches
    · exact absurd hc (not_mem_queue_dispatcherTurn m hrunning
        (houtlook.symm.trans (isRunning_iff.1 hgoes)) c)
    · rw [hmachine]
    · rw [hmachine]
      refine hreaches.disk dir fun hsome e => ?_
      obtain ⟨c, hc, hasks⟩ := hsome
      have hspares := h.commands hrunning c ((List.takeWhile_subset _) hc) hasks
      show e.Sustains dir (db.dispatcher.caches.foldl (fun disk cache => cache.purge disk) e)
      rw [show db.dispatcher.caches = _ from h.caches]
      exact hspares e

/-! ## Rounds -/

theorem stays_foldl_runnerTurn [Backend σ] (positions : List Nat) (x : Machine × Database σ)
    (h : Tame dir x.2) :
    Stays dir x (positions.foldl (fun (m, db) i => runnerTurn i m db) (x.1, x.2)) :=
  stays_foldl (fun x i hx => stays_runnerTurn i x hx) positions h

theorem stays_round [Backend σ] (x : Machine × Database σ) (h : Tame dir x.2) :
    Stays dir x (round x.1 x.2) := by
  have hruns := stays_foldl_runnerTurn (List.range x.2.runners.length) x h
  rw [round]
  generalize List.foldl _ _ _ = y at hruns ⊢
  have hturn := hruns.trans (stays_dispatcherTurn y hruns.tame)
  dsimp only
  generalize dispatcherTurn y.1 y.2 = z at hturn ⊢
  exact hturn.trans (.of_eq hturn.tame rfl rfl rfl rfl rfl rfl rfl)

/-- A database stays as it is while someone waits for something of it. -/
theorem stays_await [Backend σ] {α : Type} {look : α → Database σ → α × Database σ}
    (hlook : ∀ a m db, Tame dir db → Stays dir (m, db) (m, (look a db).2)) (enough : α → Bool)
    (deadline : Option Nat) (n : Nat) (a : α) (h : Tame dir x.2) :
    Stays dir x (await look enough deadline n a x.1 x.2).2 := by
  induction n generalizing a x with
  | zero => exact hlook a x.1 x.2 h
  | succ n ih =>
    have hlooked := hlook a x.1 x.2 h
    rw [await]
    dsimp only
    split
    · exact hlooked
    · have hround := stays_round _ hlooked.tame
      exact (hlooked.trans hround).trans (ih _ hround.tame)

/-! ## Closing -/

theorem stays_send (x : Machine × Database σ) (h : Tame dir x.2) {c : Command}
    (hc : c.AsksRescan → Disk.Sparing dir) : Stays dir x (x.1, x.2.send c) := by
  refine ⟨⟨h.place, h.caches, fun hrunning d hd => ?_⟩, rfl, rfl, .refl dir _⟩
  rw [commandSink_send] at hd
  rcases Sink.mem_queue_put hd with hd | rfl
  · exact h.commands hrunning d hd
  · exact hc

theorem stays_note (x : Machine × Database σ) (h : Tame dir x.2) (name : String) (asked : Asked)
    (i : Nat) (state : RunnerState σ) :
    Stays dir x (x.1.note name asked, x.2.setState i state) :=
  .of_eq h rfl rfl rfl rfl rfl rfl rfl

theorem stays_stopBackend [Backend σ] (i : Nat) (x : Machine × Database σ) (h : Tame dir x.2) :
    Stays dir x (stopBackend i x.1 x.2) := by
  rw [stopBackend]
  dsimp only
  generalize hready : (if (x.2.dispatcher.routes[i]?).any (·.commands.isFull) then
    runnerTurn i x.1 x.2 else (x.1, x.2)) = y
  have hwaits : Stays dir x y := by
    rw [← hready]
    split
    · exact stays_runnerTurn i x h
    · exact .refl h
  have htold : Stays dir y (y.1, y.2.modifyCommands i (·.put .quit)) :=
    .of_eq hwaits.tame rfl rfl rfl rfl rfl rfl rfl
  have hjoins := hwaits.trans (htold.trans (stays_runnerTurn i _ htold.tame))
  split
  · exact hjoins.trans (stays_note _ hjoins.tame _ _ _ _)
  · exact hjoins

theorem stays_destroyBackend [Backend σ] (i : Nat) (x : Machine × Database σ)
    (h : Tame dir x.2) : Stays dir x (destroyBackend i x.1 x.2) := by
  rw [destroyBackend]
  split
  · exact stays_note x h _ _ _ _
  · exact .refl h

theorem stays_stopDispatcher [Backend σ] (x : Machine × Database σ) (h : Tame dir x.2) :
    Stays dir x (stopDispatcher x.1 x.2) := by
  have hquit : Command.quit.AsksRescan → Disk.Sparing dir := False.elim
  have hsent : Stays dir x (x.2.sendBlocking x.1 .quit).2 := by
    rw [sendBlocking_snd]
    split
    · have hturn := stays_dispatcherTurn x h
      exact hturn.trans (stays_send _ hturn.tame hquit)
    · exact stays_send x h hquit
  rw [stopDispatcher]
  generalize x.2.sendBlocking x.1 .quit = sent at hsent ⊢
  have hturn := hsent.trans (stays_dispatcherTurn _ hsent.tame)
  dsimp only
  generalize dispatcherTurn sent.2.1 sent.2.2 = turned at hturn ⊢
  obtain ⟨m, db⟩ := turned
  dsimp only
  split
  · refine hturn.trans ⟨⟨hturn.tame.place, hturn.tame.caches, hturn.tame.commands⟩, rfl, rfl, ?_⟩
    exact (db.dispatcher.persister.retains_flush m.disk).sustains dir
  · exact hturn

/-- A database that is closed gives up its lock, and leaves the directory where it is. -/
structure Closed (dir : String) (x y : Machine × Database σ) : Prop where
  tame : Tame dir y.2
  isOpen : y.2.isOpen = false
  locked : y.1.locked = x.1.locked.erase dir
  disk : x.1.disk.Sustains dir y.1.disk

theorem stays_foldl_stopBackend [Backend σ] (positions : List Nat) (x : Machine × Database σ)
    (h : Tame dir x.2) :
    Stays dir x (positions.foldl (fun (m, db) i => stopBackend i m db) (x.1, x.2)) :=
  stays_foldl (fun x i hx => stays_stopBackend i x hx) positions h

theorem stays_foldl_destroyBackend [Backend σ] (positions : List Nat) (x : Machine × Database σ)
    (h : Tame dir x.2) :
    Stays dir x (positions.foldl (fun (m, db) i => destroyBackend i m db) (x.1, x.2)) :=
  stays_foldl (fun x i hx => stays_destroyBackend i x hx) positions h

theorem closed_close [Backend σ] (x : Machine × Database σ) (h : Tame dir x.2)
    (hopen : x.2.isOpen = true) : Closed dir x (close x.1 x.2) := by
  have hstops := stays_foldl_stopBackend (List.range x.2.runners.length) x h
  rw [close, hopen, Bool.not_true, if_neg Bool.false_ne_true]
  dsimp only
  generalize List.foldl _ (x.1, x.2) _ = y at hstops ⊢
  have hdispatcher := hstops.trans (stays_stopDispatcher _ hstops.tame)
  generalize stopDispatcher y.1 y.2 = z at hdispatcher ⊢
  have hdestroys := hdispatcher.trans
    (stays_foldl_destroyBackend (List.range x.2.runners.length) z hdispatcher.tame)
  generalize List.foldl _ (z.1, z.2) _ = w at hdestroys ⊢
  refine ⟨⟨hdestroys.tame.place, hdestroys.tame.caches, hdestroys.tame.commands⟩, rfl, ?_,
    hdestroys.disk⟩
  show w.1.locked.erase w.2.dir = x.1.locked.erase dir
  rw [hdestroys.tame.place, hdestroys.locked]

/-! ## Opening -/

theorem stays_lookForCreation (s : Subscription) (seen : Bool) (m : Machine) (db : Database σ)
    (h : Tame dir db) : Stays dir (m, db) (m, (lookForCreation s seen db).2) :=
  .of_eq h rfl rfl rfl rfl rfl rfl rfl

theorem stays_beginCreation (x : Machine × Database σ) (h : Tame dir x.2) :
    Stays dir x (x.1, x.2.beginCreation.2) := by
  refine .of_eq h rfl rfl rfl rfl ?_ rfl (commandSink_foldl_publish _ _)
  show (x.2.dispatcher.beginCreation x.2.creators).caches = _
  rw [Dispatcher.beginCreation]
  split <;> rfl

theorem stays_unsubscribe (x : Machine × Database σ) (h : Tame dir x.2) (s : Subscription) :
    Stays dir x (x.1, { x.2 with endpoint := x.2.endpoint.unsubscribe s }) :=
  .of_eq h rfl rfl rfl rfl rfl rfl rfl

/-- A new database is complete, or else it is closed since that has taken too long. -/
theorem completed_complete [Backend σ] {m m' : Machine} {o : Options} {db : Database σ}
    {r : Except DatabaseError (Database σ)} (h : Tame dir db) (hopen : db.isOpen = true)
    (hr : db.complete m o = (r, m')) :
    (∃ db', r = .ok db' ∧ Stays dir (m, db) (m', db')) ∨
      (∃ ms, r = .error (.creationTimeout ms)) ∧ m'.locked = m.locked.erase dir ∧
        m.disk.Sustains dir m'.disk := by
  have hbegun := stays_beginCreation (m, db) h
  rw [complete] at hr
  dsimp only at hr
  split at hr
  · cases hr
    exact .inl ⟨_, rfl, hbegun.trans (stays_unsubscribe _ hbegun.tame _)⟩
  · have hawaits := hbegun.trans (stays_await (stays_lookForCreation db.beginCreation.1) id
      (o.creationTimeout.map (m.now + ·)) (db.beginCreation.2.patience o.creationTimeout) false
      hbegun.tame)
    split at hr
    · rename_i hawait
      cases hr
      rw [hawait] at hawaits
      exact .inl ⟨_, rfl, hawaits.trans (stays_unsubscribe _ hawaits.tame _)⟩
    · rename_i late db' hawait
      rw [hawait] at hawaits
      have hends := hawaits.trans (stays_unsubscribe _ hawaits.tame db.beginCreation.1)
      have hcloses := closed_close _ hends.tame (hends.isOpen.trans hopen)
      dsimp only at hcloses
      generalize close late
        { db' with endpoint := db'.endpoint.unsubscribe db.beginCreation.1 } = closed at hr hcloses
      cases hr
      refine .inr ?_
      exact ⟨⟨_, rfl⟩, hcloses.locked.trans (congrArg (List.erase · dir) hends.locked),
        hends.disk.trans hcloses.disk⟩

/-- A database begins to work tame, and with the machine as it was but for the record. -/
theorem tame_start [Backend σ] (m : Machine) (o : Options) (p : Persister) (backends : List σ) :
    Tame (Path.databaseDir o.baseDir) (start m o p backends).2 ∧
      (start m o p backends).2.isOpen = true ∧ (start m o p backends).1.locked = m.locked ∧
        (start m o p backends).1.disk = m.disk := by
  obtain ⟨_, _, -, -, -, hmachine, -, hisOpen, hplace, hendpoint⟩ := start_backends m o p backends
  obtain ⟨_, d, -, -, -, hcaches, -, hdispatcher⟩ := dispatcher_start m o p backends rfl
  refine ⟨⟨hplace, ?_, fun _ c hc => ?_⟩, hisOpen, ?_, ?_⟩
  · rw [hdispatcher]
    exact hcaches
  · rw [hendpoint] at hc
    cases hc
  · rw [hmachine]
  · rw [hmachine]

/-! ### On the way to the settings -/

theorem ensureDirs_spec (dirs : List String) (disk : Disk) :
    disk.Grows (ensureDirs disk dirs).2 ∧
      ∀ e, (ensureDirs disk dirs).1 = .error e → ∃ path cause, e = .disk path cause := by
  induction dirs generalizing disk with
  | nil => exact ⟨.refl, nofun⟩
  | cons first rest ih =>
    rw [ensureDirs]
    split
    · rename_i created hcreated
      exact ⟨(Disk.grows_createDirs hcreated).trans (ih created).1, (ih created).2⟩
    · refine ⟨.refl, fun e he => ?_⟩
      cases he
      exact ⟨_, _, rfl⟩

/-- The settings are loaded, or a file operation fails, and nothing is taken away. -/
theorem loadSettings_spec (disk : Disk) (dir : String) (debounce : Nat) :
    disk.Retains (loadSettings disk dir debounce).2 ∧
      ∀ e, (loadSettings disk dir debounce).1 = .error e → ∃ path cause, e = .disk path cause := by
  obtain ⟨hgrows, herror⟩ := ensureDirs_spec [Path.cacheDir dir, Path.thumbnailsDir dir] disk
  rw [loadSettings]
  split
  · rename_i e disk' hdirs
    rw [hdirs] at hgrows herror
    refine ⟨hgrows.keeps.retains, fun e' he => ?_⟩
    cases he
    exact herror e rfl
  · rename_i ready hdirs
    rw [hdirs] at hgrows
    have hwrite := Disk.retains_write ready (Path.configFile dir) Registry.empty.text
    rw [Persister.load]
    split
    · refine ⟨hgrows.keeps.retains, fun e he => ?_⟩
      cases he
    · rw [Registry.save]
      generalize ready.write (Path.configFile dir) Registry.empty.text = written at hwrite ⊢
      obtain ⟨e | done, disk'⟩ := written
      · refine ⟨hgrows.keeps.retains.trans hwrite, fun e he => ?_⟩
        cases he
        exact ⟨_, _, rfl⟩
      · refine ⟨hgrows.keeps.retains.trans hwrite, fun e he => ?_⟩
        cases he

/-- A directory that has been locked was not locked before, and is there with its lock. -/
theorem lockDir_ok {m m' : Machine} (hdir : dir.isEmpty = false)
    (h : lockDir m dir = (.ok (), m')) :
    dir ∉ m.locked ∧ m'.locked = dir :: m.locked ∧ m'.disk.isDir dir = true ∧
      m'.disk.IsFile (Path.lockFile dir) := by
  rw [lockDir, ensureDirs] at h
  split at h
  · cases h
  · rename_i disk hdirs
    split at hdirs
    · rename_i created hcreated
      cases hdirs
      dsimp only at h
      split at h
      · cases h
      · cases h
      · rename_i locked hlock
        cases h
        obtain ⟨touched, htouch, hlocked⟩ := Fault.bind_eq_ok_iff.1 hlock
        split at hlocked
        · cases hlocked
        · rename_i hfree
          cases hlocked
          have hthere := Disk.isDir_of_createDirs hcreated hdir
          exact ⟨hfree, rfl, (Disk.grows_touch htouch).keeps.retains.isDir hthere,
            Disk.isFile_of_touch htouch⟩
    · cases hdirs

/-- A directory that is there is not locked if it is locked already, and stays as it is. -/
theorem lockDir_of_locked {m : Machine} (hdir : m.disk.isDir dir = true)
    (hlock : m.disk.IsFile (Path.lockFile dir)) (hlocked : dir ∈ m.locked) :
    lockDir m dir = (.error (.locked dir), m) := by
  rw [lockDir, ensureDirs, Disk.createDirs_of_isDir hdir]
  simp only [ensureDirs, Machine.lock?, Disk.touch_of_isFile hlock, bind, Except.bind,
    if_pos hlocked]

/-- A directory is not locked since it is locked already, or since a file operation fails. -/
theorem lockDir_error {m m' : Machine} {e : DatabaseError}
    (h : lockDir m dir = (.error e, m')) :
    m'.locked = m.locked ∧ m.disk.Grows m'.disk ∧
      (e = .locked dir ∧ dir ∈ m.locked ∧ (m.disk.isDir dir = true → m' = m) ∨
        ∃ path cause, e = .disk path cause) := by
  obtain ⟨hgrows, herror⟩ := ensureDirs_spec [dir] m.disk
  rw [lockDir] at h
  split at h
  · rename_i e' disk hdirs
    rw [hdirs] at hgrows herror
    cases h
    exact ⟨rfl, hgrows, .inr (herror _ rfl)⟩
  · rename_i disk hdirs
    rw [hdirs] at hgrows
    dsimp only at h
    split at h
    · cases h
      exact ⟨rfl, hgrows, .inr ⟨_, _, rfl⟩⟩
    · rename_i hlock
      cases h
      obtain ⟨touched, -, hlocked⟩ := Fault.bind_eq_ok_iff.1 hlock
      split at hlocked
      · rename_i hmem
        refine ⟨rfl, hgrows, .inl ⟨rfl, hmem, fun hthere => ?_⟩⟩
        rw [ensureDirs, Disk.createDirs_of_isDir hthere] at hdirs
        cases hdirs
        rfl
      · cases hlocked
    · cases h

end Database

end Mediatheque
