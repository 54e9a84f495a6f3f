import Mediatheque.Proofs.Bus.Hub
import Mediatheque.Proofs.Dispatcher.Creation
import Mediatheque.Database.Opening

/-!
# Turns, and what they report

A turn of a backend puts reports into the queue of the dispatcher and has nothing to do with what
the dispatcher waits for (`runnerTurned_runnerTurn`). A turn of the dispatcher handles what is in
that queue (`awaits_dispatcherTurn`), and publishes its events on the bus
(`eventBus_dispatcherTurn`).
-/

namespace Mediatheque

open Dispatcher

namespace Database

variable {σ : Type}

/-! ## Turns of backends -/

/-- No backend publishes by itself that a new database is filled. -/
def DiscreetBackends (σ : Type) [Backend σ] : Prop :=
  (∀ (b : σ) context, .publish .creationDone ∉ (Backend.ping b context).reports) ∧
    ∀ (b : σ) c context, .publish .creationDone ∉ (Backend.handle b c context).reports

/-- Reports of backends have been put into a queue, which may have lost some. -/
def Heard (before after : Sink BackendMessage) : Prop :=
  ∃ reports : List BackendMessage, (∀ m ∈ reports, m.Discreet) ∧
    after = reports.foldl Sink.put before

theorem Heard.refl (s : Sink BackendMessage) : Heard s s := ⟨[], by simp, rfl⟩

theorem Heard.trans {r s t : Sink BackendMessage} (hrs : Heard r s) (hst : Heard s t) :
    Heard r t := by
  obtain ⟨reports, hreports, rfl⟩ := hrs
  obtain ⟨more, hmore, rfl⟩ := hst
  exact ⟨reports ++ more, List.forall_mem_append.2 ⟨hreports, hmore⟩, List.foldl_append.symm⟩

theorem heard_after (w : Work σ) (name : String) {r : Reaction σ}
    (h : .publish .creationDone ∉ r.reports) : Heard w.reports (w.after name r).reports := by
  refine ⟨r.reports.map (⟨name, ·⟩), ?_, ?_⟩
  · intro m hm
    obtain ⟨e, he, rfl⟩ := List.mem_map.1 hm
    exact fun hpublished => h (hpublished ▸ he)
  · rw [Work.after, List.foldl_map]

theorem heard_handle [Backend σ] (hdiscreet : DiscreetBackends σ) (dir : String) (now : Nat)
    (name : String) (w : Work σ) (c : Command) :
    Heard w.reports (w.handle dir now name c).1.reports := by
  rw [Work.handle]
  split
  · exact .refl _
  · rename_i b _
    have hafter := heard_after w name (hdiscreet.2 b c ⟨dir, w.cache, now⟩)
    dsimp only
    split
    · exact hafter
    · exact hafter

/-- A turn of a backend queues its reports, and has nothing to do with the wait. -/
structure RunnerTurned (db db' : Database σ) : Prop where
  infos : db'.runners.map (·.info) = db.runners.map (·.info)
  outlook : db'.outlook = db.outlook
  endpoint : db'.endpoint = db.endpoint
  creation : db'.dispatcher.creation = db.dispatcher.creation
  published : db'.dispatcher.published = db.dispatcher.published
  reports : Heard db.reports db'.reports

theorem RunnerTurned.refl (db : Database σ) : RunnerTurned db db :=
  ⟨rfl, rfl, rfl, rfl, rfl, .refl _⟩

/-- The end of a turn: the backend has a new state, and its queue a new content. -/
theorem runnerTurned_of_heard {db : Database σ} {reports : Sink BackendMessage}
    (h : Heard db.reports reports) (cache : ObjectCache) (i : Nat) (state : RunnerState σ)
    (f : Sink Command → Sink Command) :
    RunnerTurned db
      (({ db with cache := cache, reports := reports }.setState i state).modifyCommands i f) where
  infos := map_modify_of_eq fun _ _ => rfl
  outlook := rfl
  endpoint := rfl
  creation := rfl
  published := rfl
  reports := h

theorem runnerTurned_runnerTurn [Backend σ] (hdiscreet : DiscreetBackends σ) (i : Nat)
    (m : Machine) (db : Database σ) : RunnerTurned db (runnerTurn i m db).2 := by
  rw [runnerTurn]
  split
  · rename_i info b route _ _
    dsimp only
    have hping := heard_after { backend := some b, cache := db.cache, reports := db.reports }
      info.name (hdiscreet.1 b ⟨db.dir, db.cache, m.now⟩)
    generalize Work.after _ info.name _ = work at hping ⊢
    have hpass := Sink.pass_preserves (p := fun w : Work σ => Heard db.reports w.reports)
      (fun w c hw => hw.trans (heard_handle hdiscreet db.dir m.now info.name w c)) hping
      route.commands
    have hpassed : Heard db.reports (if work.backend.isSome then
        route.commands.pass (Work.handle db.dir m.now info.name) work
      else (⟨0, false⟩, work, route.commands)).2.1.reports := by
      split
      · exact hpass
      · exact hping
    generalize (if work.backend.isSome then _ else _) = passed at hpassed ⊢
    obtain ⟨pass, worked, commands⟩ := passed
    dsimp only at hpassed ⊢
    split
    · exact runnerTurned_of_heard hpassed worked.cache i .failed fun _ => commands.close
    · rename_i b' _
      split
      · exact runnerTurned_of_heard hpassed worked.cache i (.running b') fun _ => commands
      · exact runnerTurned_of_heard hpassed worked.cache i (.ended b') fun _ => commands.close
  · exact .refl db

/-! ## Turns of the dispatcher -/

/-- The next turn of the dispatcher, if it is at work. -/
def nextTurn (m : Machine) (db : Database σ) : Turn :=
  { db.dispatcher with disk := m.disk, nextToken := db.endpoint.nextToken }.turn m.now
    db.endpoint.commandSink db.reports

/-- The events that the next turn of the dispatcher publishes. -/
def dispatcherEvents (m : Machine) (db : Database σ) : List Event :=
  if db.isRunning then (nextTurn m db).dispatcher.published else []

theorem runners_dispatcherTurn (m : Machine) (db : Database σ) :
    (dispatcherTurn m db).2.runners = db.runners := by
  rw [dispatcherTurn]
  split <;> rfl

theorem dispatcherTurn_of_not_running (m : Machine) {db : Database σ}
    (h : db.isRunning = false) : dispatcherTurn m db = (m, db) := by
  rw [dispatcherTurn, h]
  rfl

/-- What a turn of the dispatcher does to a database, apart from the bus. -/
theorem dispatcherTurn_of_running (m : Machine) {db : Database σ} (h : db.isRunning = true) :
    (dispatcherTurn m db).2.dispatcher =
        { (nextTurn m db).dispatcher with published := [] } ∧
      (dispatcherTurn m db).2.outlook = (nextTurn m db).outlook ∧
      (dispatcherTurn m db).2.reports.queue =
        if (nextTurn m db).outlook = .running then (nextTurn m db).reports.queue else [] := by
  rw [dispatcherTurn, h]
  exact ⟨rfl, rfl, apply_ite Sink.queue ..⟩

/-- Of the machine a turn of the dispatcher changes the disk alone, and it closes nothing. -/
theorem machine_dispatcherTurn (m : Machine) {db : Database σ} (h : db.isRunning = true) :
    (dispatcherTurn m db).1 = { m with disk := (nextTurn m db).dispatcher.disk } ∧
      (dispatcherTurn m db).2.isOpen = db.isOpen := by
  rw [dispatcherTurn, h]
  exact ⟨rfl, rfl⟩

theorem commandSink_foldl_publish (events : List Event) (endpoint : Endpoint) :
    (events.foldl Endpoint.publish endpoint).commandSink = endpoint.commandSink := by
  induction events generalizing endpoint with
  | nil => rfl
  | cons e events ih => exact ih (endpoint.publish e)

/-- A sink for commands that takes some is there. -/
theorem commandSink_withCommandSink {endpoint : Endpoint} (h : endpoint.commandSink.isOpen)
    (s : Sink Command) : (endpoint.withCommandSink s).commandSink = s := by
  have hlt : endpoint.commands < endpoint.commandBus.sinks.length := by
    by_contra hnot
    rw [Endpoint.commandSink, Bus.sink_of_not_lt hnot] at h
    cases h
  exact (Bus.sink_setSink ..).trans (if_pos ⟨rfl, hlt⟩)

/-- What is left in the queue of commands when a turn of the dispatcher is over. -/
theorem commandSink_dispatcherTurn (m : Machine) {db : Database σ} (h : db.isRunning = true)
    (htakes : db.endpoint.commandSink.isOpen) :
    (dispatcherTurn m db).2.endpoint.commandSink =
      if (nextTurn m db).outlook = .running then (nextTurn m db).commands
      else (nextTurn m db).commands.close := by
  rw [dispatcherTurn, h]
  exact (commandSink_foldl_publish _ _).trans
    ((commandSink_withCommandSink htakes _).trans (ite_congr rfl (fun _ => rfl) fun _ => rfl))

theorem eventBus_foldl_publish (events : List Event) (endpoint : Endpoint) :
    (events.foldl Endpoint.publish endpoint).eventBus =
      events.foldl (fun b e => b.publish endpoint.events e) endpoint.eventBus := by
  induction events generalizing endpoint with
  | nil => rfl
  | cons e events ih => exact ih (endpoint.publish e)

/-- A turn of the dispatcher publishes its events on the bus. -/
theorem eventBus_dispatcherTurn (m : Machine) (db : Database σ) :
    (dispatcherTurn m db).2.endpoint.eventBus =
      (dispatcherEvents m db).foldl (fun b e => b.publish db.endpoint.events e)
        db.endpoint.eventBus := by
  rw [dispatcherTurn, dispatcherEvents]
  cases db.isRunning with
  | false => rfl
  | true => exact eventBus_foldl_publish _ _

/-- A turn of a dispatcher that is at work handles the reports in its queue. It leaves some only
where it ends, and then they are lost. -/
theorem awaits_dispatcherTurn {m : Machine} {db : Database σ} (hrunning : db.isRunning = true)
    {creators : List String} {told : List Event} {handled : List BackendMessage}
    (h : Awaits creators told handled db.dispatcher)
    (hdiscreet : ∀ m ∈ db.reports.queue, m.Discreet) :
    ∃ more, more <+: db.reports.queue ∧
      Awaits creators (told ++ dispatcherEvents m db) (handled ++ more)
        (dispatcherTurn m db).2.dispatcher ∧
      (dispatcherTurn m db).2.dispatcher.published = [] ∧
      (dispatcherTurn m db).2.reports.queue = [] ∧
      ((dispatcherTurn m db).2.isRunning = true → more = db.reports.queue) := by
  obtain ⟨hdispatcher, houtlook, hreports⟩ := dispatcherTurn_of_running m hrunning
  have hevents : dispatcherEvents m db = (nextTurn m db).dispatcher.published := by
    rw [dispatcherEvents, hrunning]
    rfl
  have hbegins : Awaits creators told handled
      { db.dispatcher with disk := m.disk, nextToken := db.endpoint.nextToken } :=
    h.of_eq rfl rfl
  obtain ⟨more, hmore, hawaits, hend⟩ :=
    awaits_turn hbegins m.now db.endpoint.commandSink hdiscreet
  refine ⟨more, hmore, ?_, by rw [hdispatcher], ?_, fun hgoes => ?_⟩
  · rw [hdispatcher, hevents]
    exact hawaits.flush
  · rw [hreports]
    split
    · rename_i hgoes
      rcases hend with hfaulted | ⟨-, hqueue⟩
      · cases hgoes.symm.trans hfaulted
      · exact hqueue
    · rfl
  · have hstays : (nextTurn m db).outlook = .running := by
      rw [← houtlook]
      exact of_decide_eq_true hgoes
    rcases hend with hfaulted | ⟨hall, -⟩
    · cases hstays.symm.trans hfaulted
    · exact hall

theorem mem_queue_foldl_publish {hub q : Nat} {events : List Event} {b : Bus Event} {e : Event}
    (h : e ∈ ((events.foldl (fun b e => b.publish hub e) b).sink q).queue) :
    e ∈ (b.sink q).queue ∨ e ∈ events := by
  induction events generalizing b with
  | nil => exact .inl h
  | cons first rest ih =>
    rcases ih h with hbus | hrest
    · rcases Bus.mem_queue_publish hbus with hold | rfl
      · exact .inl hold
      · exact .inr List.mem_cons_self
    · exact .inr (List.mem_cons_of_mem first hrest)

/-- What waits for a subscriber is not lost when more is published. -/
theorem mem_queue_foldl_publish_of_mem {hub q : Nat} (events : List Event) {b : Bus Event}
    {e : Event} (h : e ∈ (b.sink q).queue) :
    e ∈ ((events.foldl (fun b e => b.publish hub e) b).sink q).queue := by
  induction events generalizing b with
  | nil => exact h
  | cons first rest ih => exact ih (Bus.mem_queue_publish_of_mem first h)

end Database

end Mediatheque
