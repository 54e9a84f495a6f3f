import Mediatheque.Proofs.Dispatcher.Turn

/-!
# Values of the library on their way to the disk

The library is told values for settings of its own (`Registry.setOwn`, `Registry.told`), and the
dispatcher stores those that have been declared. It stays able to write them: its settings file
can be read, and a file that can be read can be written as long as no write meets an error of its
own (`Storing`). That is kept by each value (`storing_handleCommand`), though the action among the
settings clears caches, by a turn with any number of them (`storing_turn`), and by a write, after
which the settings file holds what the dispatcher does (`load_flush`).
-/

namespace Mediatheque

/-! ## The registry -/

namespace Registry

/-- The registry when the library has been given a value for a setting, if it has the setting. -/
def setOwn (r : Registry) (name : String) (value : ParameterValue) : Registry :=
  if generalParameters.any (·.name = name) then r.set generalContext name value else r

/-- The registry when the library has been told some commands. -/
def told (r : Registry) (commands : List Command) : Registry :=
  commands.foldl (fun r c =>
    match c with
    | .setParameter _ name value => r.setOwn name value
    | _ => r) r

theorem told_append (r : Registry) (commands rest : List Command) :
    r.told (commands ++ rest) = (r.told commands).told rest := List.foldl_append

/-- The library gets the value if it has the setting, and no other value changes. -/
theorem get?_setOwn (r : Registry) (name : String) (value : ParameterValue) (c n : String) :
    (r.setOwn name value).get? c n =
      if generalParameters.any (·.name = name) ∧ c = generalContext ∧ n = name then some value
      else r.get? c n := by
  rw [setOwn]
  split
  · rename_i hdeclared
    simp only [get?_set, hdeclared, true_and]
  · rename_i hdeclared
    rw [if_neg fun h => hdeclared h.1]

end Registry

/-! ## Writes -/

namespace Disk

/-- A file can be read, and no write to come meets an error of its own. -/
structure Rewritable (d : Disk) (path : String) : Prop where
  file : ∃ text, d.read path = .ok text
  errors : ∀ e ∈ d.writeErrors, e = none

theorem writeErrors_clearDir (d : Disk) (path : String) :
    (d.clearDir path).writeErrors = d.writeErrors := by
  rw [clearDir]
  split
  · split <;> rfl
  · rfl

theorem writeErrors_purgeAll (caches : List DirectoryCache) (d : Disk) :
    (caches.foldl (fun disk cache => cache.purge disk) d).writeErrors = d.writeErrors := by
  induction caches generalizing d with
  | nil => rfl
  | cons cache rest ih =>
    rw [List.foldl_cons, ih]
    exact writeErrors_clearDir d cache.dir

/-- The file stays when caches that spare it are cleared. -/
theorem Rewritable.purgeAll {d : Disk} {path : String} (h : d.Rewritable path)
    {caches : List DirectoryCache} (hspared : Dispatcher.Spared caches path) :
    (caches.foldl (fun disk cache => cache.purge disk) d).Rewritable path := by
  obtain ⟨text, hread⟩ := h.file
  refine ⟨⟨text, Dispatcher.read_purgeAll hspared hread⟩, ?_⟩
  rw [writeErrors_purgeAll]
  exact h.errors

end Disk

/-- Whatever is pending is written to a file that can be. -/
theorem Persister.flush_of_rewritable {p : Persister} {disk : Disk}
    (h : disk.Rewritable p.path) :
    ∃ written disk', p.flush disk = (.ok written, { p with deadline := none }, disk') ∧
      disk'.Rewritable p.path := by
  cases hd : p.deadline with
  | none =>
    have hsame : { p with deadline := none } = p := by rw [← hd]
    refine ⟨false, disk, ?_, h⟩
    rw [hsame, flush, hd]
    rfl
  | some deadline =>
    obtain ⟨text, hread⟩ := h.file
    obtain ⟨disk', hwrite, herrors⟩ := Disk.write_of_read p.registry.text hread h.errors
    refine ⟨true, disk', ?_, ⟨_, Disk.read_write hwrite⟩, herrors⟩
    rw [flush, hd, Registry.save, hwrite]
    rfl

namespace Dispatcher

variable {caches : List DirectoryCache} {path : String} {r : Registry} {d d' : Dispatcher}

/-! ## Storing -/

/-- A dispatcher that holds a registry, can write it, and writes it as soon as it is pending no
more. -/
structure Storing (caches : List DirectoryCache) (path : String) (r : Registry)
    (d : Dispatcher) : Prop where
  caches : d.caches = caches
  path : d.persister.path = path
  registry : d.persister.registry = r
  schema : d.persister.schema? generalContext = some generalParameters
  saved : d.persister.Saved d.disk
  writable : d.disk.Rewritable d.persister.path

/-- A command gives the library a value for one of its own settings. Caches that the action among
them clears have to spare the settings file. -/
def GivesOwn (caches : List DirectoryCache) (path : String) (c : Command) : Prop :=
  ∃ name value, c = .setParameter generalContext name value ∧
    (name = rescanParameter → Spared caches path)

theorem Storing.of_eq (h : Storing caches path r d) (hcaches : d'.caches = d.caches)
    (hpersister : d'.persister = d.persister) (hdisk : d'.disk = d.disk) :
    Storing caches path r d' := by
  refine ⟨hcaches.trans h.caches, ?_, ?_, ?_, ?_, ?_⟩
  · rw [hpersister, h.path]
  · rw [hpersister, h.registry]
  · rw [hpersister, h.schema]
  · rw [hpersister, hdisk]
    exact h.saved
  · rw [hpersister, hdisk]
    exact h.writable

theorem Storing.declares_iff (h : Storing caches path r d) (name : String) :
    d.persister.declares generalContext name = generalParameters.any (·.name = name) := by
  rw [Persister.declares, h.schema]
  rfl

/-! ## Writing -/

theorem storing_flush (h : Storing caches path r d) :
    Storing caches path r d.flush ∧ d.flush.persister.deadline = none := by
  obtain ⟨written, disk, hflush, hwritable⟩ :=
    Persister.flush_of_rewritable h.writable
  have hsaved := Persister.saved_flush h.saved hflush
  rw [flush, hflush]
  exact ⟨⟨h.caches, h.path, h.registry, h.schema, hsaved, hwritable⟩, rfl⟩

theorem storing_tick (h : Storing caches path r d) (now : Nat) :
    Storing caches path r (d.tick now) := by
  have htick : d.tick now = if d.persister.deadline.any (· ≤ now) then d.flush else d := by
    rw [tick, Persister.poll_eq]
    by_cases hdue : d.persister.deadline.any (· ≤ now)
    · rw [if_pos hdue, if_pos hdue]
      rfl
    · rw [if_neg hdue, if_neg hdue]
  rw [htick]
  split
  · exact (storing_flush h).1
  · exact h

/-- When it has been written the settings file holds the registry, provided that it is read back. -/
theorem load_flush (h : Storing caches path r d) (hback : r.ReadsBack) :
    Registry.load path d.flush.disk = .ok r := by
  obtain ⟨hflushed, hdeadline⟩ := storing_flush h
  have hload := Persister.load_of_saved hflushed.saved hdeadline (hflushed.registry ▸ hback)
  rwa [hflushed.path, hflushed.registry] at hload

/-! ## Values -/

/-- A rescan does to the disk no more than to clear the caches. -/
theorem disk_startRescan (d : Dispatcher) (token : Token) :
    (d.startRescan token).2.disk = d.disk ∨ (d.startRescan token).2.disk = d.purge.disk := by
  rcases d.startRescan_cases token with ⟨_, _, -, h⟩ | ⟨-, -, h⟩ | ⟨-, -, h⟩
  · rw [h]
    exact .inl rfl
  · rw [h]
    exact .inr rfl
  · rw [h]
    exact .inr rfl

theorem disk_setOwnParameter (d : Dispatcher) (now : Nat) (name : String)
    (value : ParameterValue) :
    (d.setOwnParameter now name value).2.disk = d.disk ∨
      (name = rescanParameter ∧ (d.setOwnParameter now name value).2.disk = d.purge.disk) := by
  rw [setOwnParameter]
  split
  · exact .inl rfl
  · dsimp only
    split
    · rename_i hname
      exact (disk_startRescan _ _).imp_right fun h => ⟨hname, h⟩
    · exact .inl rfl

theorem storing_setOwnParameter (h : Storing caches path r d) {name : String}
    (hspared : name = rescanParameter → Spared caches path) (now : Nat) (value : ParameterValue) :
    Storing caches path (r.setOwn name value) (d.setOwnParameter now name value).2 := by
  rw [Registry.setOwn, ← h.declares_iff]
  rcases d.setOwnParameter_cases now name value with ⟨hd, hsame⟩ | ⟨hd, hkeeps⟩
  · rw [if_neg hd, hsame]
    exact h
  · rw [if_pos hd]
    have hpersister : (d.setOwnParameter now name value).2.persister =
        d.persister.stored generalContext name value now := hkeeps.persister
    refine ⟨hkeeps.caches.trans h.caches, ?_, ?_, ?_, ?_, ?_⟩
    · rw [hpersister]
      exact h.path
    · rw [hpersister, ← h.registry]
      rfl
    · rw [hpersister]
      exact h.schema
    · rw [hpersister]
      exact .of_isSome rfl _
    · have hpath : (d.setOwnParameter now name value).2.persister.path = d.persister.path := by
        rw [hpersister]
        rfl
      rw [hpath]
      rcases d.disk_setOwnParameter now name value with hdisk | ⟨hname, hdisk⟩
      · rw [hdisk]
        exact h.writable
      · rw [hdisk, purge, h.caches]
        refine h.writable.purgeAll ?_
        rw [h.path]
        exact hspared hname

theorem storing_handleCommand (h : Storing caches path r d) {c : Command}
    (hc : GivesOwn caches path c) (now : Nat) :
    ∃ d', passCommand now d c = .ok d' ∧ Storing caches path (r.told [c]) d' := by
  obtain ⟨name, value, rfl, hspared⟩ := hc
  refine ⟨(d.setParameter now generalContext name value).2, rfl, ?_⟩
  rw [setParameter, if_pos rfl]
  exact storing_setOwnParameter h hspared now value

theorem storing_foldlM (h : Storing caches path r d) {commands : List Command}
    (hcommands : ∀ c ∈ commands, GivesOwn caches path c) (now : Nat) :
    ∃ d', commands.foldlM (passCommand now) d = .ok d' ∧
      Storing caches path (r.told commands) d' := by
  induction commands generalizing r d with
  | nil => exact ⟨d, rfl, h⟩
  | cons c rest ih =>
    obtain ⟨hc, hrest⟩ := List.forall_mem_cons.1 hcommands
    obtain ⟨e, he, hstoring⟩ := storing_handleCommand h hc now
    obtain ⟨d', hd', hlast⟩ := ih hstoring hrest
    refine ⟨d', ?_, hlast⟩
    rw [List.foldlM_cons, he]
    exact hd'

/-! ## Turns -/

/-- A turn stores the values that have queued up before a command to quit, and takes them off the
queue. -/
theorem storing_turn (h : Storing caches path r d) {commands : Sink Command}
    (hcommands : ∀ c ∈ beforeQuit commands.queue, GivesOwn caches path c) (now : Nat)
    {reports : Sink BackendMessage} (hreports : reports.queue = []) :
    ∃ d', Storing caches path (r.told (beforeQuit commands.queue)) d' ∧
      d.turn now commands reports =
        ⟨if commands.queue.any BusMessage.isQuit then .quit else .running, d',
          { commands with queue := behindQuit commands.queue }, { reports with queue := [] }⟩ := by
  rcases turn_cases d now commands reports with
    ⟨d', hd', hturn⟩ | ⟨done, i, -, hi, hdone, htold, -⟩
  · refine ⟨d', ?_, hturn⟩
    rw [turnDuties, attendAll_append_eq_ok_iff, hreports] at hd'
    obtain ⟨e, he, htick⟩ := hd'
    rw [attendAll_map_input, run_given_eq_ok_iff] at he
    obtain ⟨f, hf, hnone⟩ := he
    cases hnone
    cases htick
    obtain ⟨g, hg, hstoring⟩ := storing_foldlM h hcommands now
    cases hf.symm.trans hg
    exact storing_tick hstoring now
  · -- No report is there, and no command of the queue meets a fault.
    cases i with
    | command time c =>
      have hc : c ∈ commandsOf (done ++ [.command time c]) := by
        rw [commandsOf_append]
        exact List.mem_append_right _ (List.mem_singleton.2 rfl)
      obtain ⟨name, value, rfl, -⟩ := hcommands c (hdone.subset hc)
      exact absurd rfl (hi _)
    | report time m =>
      rw [hreports, reportsOf_append] at htold
      exact absurd (List.append_eq_nil_iff.1 (List.prefix_nil.1 htold)).2 (List.cons_ne_nil m [])

end Dispatcher

end Mediatheque
