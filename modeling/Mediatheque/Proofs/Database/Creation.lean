import Mediatheque.Proofs.Database.Opening
import Mediatheque.Proofs.Database.Turns

/-!
# Filling a new database

A new database is complete once all backends that fill it have reported so. They may report from
the moment at which they begin to work, which is before the dispatcher does (`Opening.Step`):
what they report waits in the queue until the dispatcher has begun to wait for them, with a
subscription that was made before that. What holds at any time (`Opening.Sound`) every step keeps
(`Opening.sound_step`), and so it holds of every run (`Opening.sound_runs`).
-/

namespace Mediatheque

open Dispatcher

namespace Database

variable {σ : Type}

/-! ## Openings -/

/-- The names of the backends that fill a new database. -/
def creatorNames (infos : List BackendInfo) : List String :=
  (infos.filter (·.capabilities.creationDone)).map (·.name)

theorem creators_eq (db : Database σ) : db.creators = creatorNames (db.runners.map (·.info)) := by
  rw [creators, creatorNames, List.filter_map, List.map_map]
  rfl

/-- A new database while it is opened, and what has happened so far. -/
structure Opening (σ : Type) where
  machine : Machine
  db : Database σ
  /-- The subscription that is to see the end, once the dispatcher waits for it. -/
  subscription : Option Subscription := none
  /-- Whether the end has been seen. -/
  seen : Bool := false
  /-- Whether the database has been handed out. -/
  opened : Bool := false
  /-- The reports that the queue of the dispatcher has taken, in this order. -/
  sent : List BackendMessage := []
  /-- The events that the dispatcher has published. -/
  told : List Event := []

namespace Opening

/-- The backends have been created, and everyone is about to begin. -/
def start [Backend σ] (m : Machine) (o : Options) (p : Persister) (backends : List σ) :
    Opening σ where
  machine := (Database.start m o p backends).1
  db := (Database.start m o p backends).2

/-- The dispatcher begins to wait, with a subscription that will see the end. -/
def begin (s : Opening σ) : Opening σ :=
  { s with
    db := s.db.beginCreation.2
    subscription := some s.db.beginCreation.1
    told := s.told ++ (s.db.dispatcher.beginCreation s.db.creators).published }

/-- A report is put into the queue of the dispatcher. -/
def report (s : Opening σ) (m : BackendMessage) : Opening σ :=
  { s with
    db := { s.db with reports := s.db.reports.put m }
    sent := s.sent ++ if s.db.reports.accepts then [m] else [] }

/-- A turn of the backend at a position. -/
def work [Backend σ] (s : Opening σ) (i : Nat) : Opening σ :=
  { s with
    machine := (runnerTurn i s.machine s.db).1
    db := (runnerTurn i s.machine s.db).2
    sent := s.sent ++
      (runnerTurn i s.machine s.db).2.reports.queue.drop s.db.reports.queue.length }

/-- A turn of the dispatcher. -/
def turn (s : Opening σ) : Opening σ :=
  { s with
    machine := (dispatcherTurn s.machine s.db).1
    db := (dispatcherTurn s.machine s.db).2
    told := s.told ++ dispatcherEvents s.machine s.db }

/-- A look at the subscription. -/
def look (s : Opening σ) (subscription : Subscription) : Opening σ :=
  { s with
    seen := (lookForCreation subscription s.seen s.db).1
    db := (lookForCreation subscription s.seen s.db).2 }

/-- The database is handed out, and the subscription ends. -/
def finish (s : Opening σ) (subscription : Subscription) : Opening σ :=
  { s with
    db := { s.db with endpoint := s.db.endpoint.unsubscribe subscription }
    opened := true }

/-- Clients may do with the events whatever they want. -/
def share (s : Opening σ) (bus : Bus Event) : Opening σ :=
  { s with db := { s.db with endpoint := { s.db.endpoint with eventBus := bus } } }

/-- Time passes. -/
def wait (s : Opening σ) (time : Nat) : Opening σ :=
  { s with machine := { s.machine with now := s.machine.now + time } }

/-- What may happen next. Reports may come from outside of the turns of the backends, as long as
they satisfy a test. -/
inductive Step [Backend σ] (o : Options) (outside : BackendMessage → Prop) :
    Opening σ → Opening σ → Prop where
  | report (s : Opening σ) {m : BackendMessage} (hm : outside m) : Step o outside s (s.report m)
  | work (s : Opening σ) (i : Nat) : Step o outside s (s.work i)
  | send (s : Opening σ) (c : Command) : Step o outside s { s with db := s.db.send c }
  /-- The dispatcher begins to wait before it begins to work. -/
  | begin (s : Opening σ) (h : s.subscription = none) : Step o outside s s.begin
  | turn (s : Opening σ) (h : s.subscription.isSome) : Step o outside s s.turn
  | look (s : Opening σ) {subscription : Subscription} (h : s.subscription = some subscription)
      (hopening : s.opened = false) : Step o outside s (s.look subscription)
  /-- If someone waits for the end, the database is not handed out before that has been seen. -/
  | finish (s : Opening σ) {subscription : Subscription} (h : s.subscription = some subscription)
      (hseen : o.waitForCreation = true → s.seen = true) : Step o outside s (s.finish subscription)
  | share (s : Opening σ) (bus : Bus Event) (h : s.opened = true) : Step o outside s (s.share bus)
  | wait (s : Opening σ) (time : Nat) : Step o outside s (s.wait time)

/-- What may come of some opening. -/
abbrev Runs [Backend σ] (o : Options) (outside : BackendMessage → Prop) :
    Opening σ → Opening σ → Prop :=
  Relation.ReflTransGen (Step o outside)

variable {o : Options}

/-! ## The invariant -/

/-- Before the dispatcher waits: it handles nothing, and the reports wait in its queue. -/
structure Before (s : Opening σ) : Prop where
  subscription : s.subscription = none
  eventBus : s.db.endpoint.eventBus = Endpoint.new.eventBus
  events : s.db.endpoint.events = Endpoint.new.events
  creation : s.db.dispatcher.creation = .idle
  sent : s.db.reports.queue = s.sent
  told : s.told = []
  seen : s.seen = false
  opened : s.opened = false

/-- From when the dispatcher waits. Of the reports that its queue has taken it has handled some,
and as long as it works the others are in the queue. -/
structure Since (creators : List String) (s : Opening σ) (sub : Subscription)
    (handled : List BackendMessage) : Prop where
  subscription : s.subscription = some sub
  awaits : Awaits creators s.told handled s.db.dispatcher
  sent : ∀ m ∈ handled, m ∈ s.sent
  running : s.db.isRunning = true → handled ++ s.db.reports.queue = s.sent
  queued : s.opened = false →
    ∀ e ∈ (s.db.endpoint.eventBus.sink sub.sink).queue, e ∈ s.told
  seen : s.seen = true → .creationDone ∈ s.told
  /-- Where there is nothing to wait for, the end is there to be seen. -/
  waits : creators = [] → s.opened = false → s.seen = false →
    .creationDone ∈ (s.db.endpoint.eventBus.sink sub.sink).queue

/-- What holds of an opening at any time. -/
structure Sound (o : Options) (creators : List String) (s : Opening σ) : Prop where
  creators : s.db.creators = creators
  discreet : ∀ m ∈ s.db.reports.queue, m.Discreet
  published : s.db.dispatcher.published = []
  opened : s.opened = true → o.waitForCreation = true → s.seen = true
  phase : s.Before ∨ ∃ sub handled, s.Since s.db.creators sub handled

/-! ### Reports that are queued -/

/-- From one opening to another the queue of the dispatcher has taken some reports, and nothing
else has happened that has to do with the wait. -/
structure Takes (s s' : Opening σ) (reports : List BackendMessage) : Prop where
  infos : s'.db.runners.map (·.info) = s.db.runners.map (·.info)
  outlook : s'.db.outlook = s.db.outlook
  eventBus : s'.db.endpoint.eventBus = s.db.endpoint.eventBus
  events : s'.db.endpoint.events = s.db.endpoint.events
  creation : s'.db.dispatcher.creation = s.db.dispatcher.creation
  published : s'.db.dispatcher.published = s.db.dispatcher.published
  queue : s'.db.reports.queue = s.db.reports.queue ++ reports
  discreet : ∀ m ∈ reports, m.Discreet
  subscription : s'.subscription = s.subscription
  seen : s'.seen = s.seen
  opened : s'.opened = s.opened
  sent : s'.sent = s.sent ++ reports
  told : s'.told = s.told

theorem Sound.takes {creators : List String} {s s' : Opening σ} {reports : List BackendMessage}
    (h : s.Sound o creators) (ht : s.Takes s' reports) : s'.Sound o creators := by
  have hcreators : s'.db.creators = s.db.creators := by
    rw [creators_eq, ht.infos, ← creators_eq]
  refine ⟨hcreators.trans h.creators, ?_, ht.published.trans h.published, ?_, ?_⟩
  · rw [ht.queue]
    exact List.forall_mem_append.2 ⟨h.discreet, ht.discreet⟩
  · rw [ht.opened, ht.seen]
    exact h.opened
  · rcases h.phase with hbefore | ⟨sub, handled, hsince⟩
    · refine .inl ⟨ht.subscription.trans hbefore.subscription, ht.eventBus.trans hbefore.eventBus,
        ht.events.trans hbefore.events, ht.creation.trans hbefore.creation, ?_,
        ht.told.trans hbefore.told, ht.seen.trans hbefore.seen, ht.opened.trans hbefore.opened⟩
      rw [ht.queue, ht.sent, hbefore.sent]
    · refine .inr ⟨sub, handled, ht.subscription.trans hsince.subscription, ?_, ?_, ?_, ?_, ?_,
        ?_⟩
      · rw [hcreators, ht.told]
        exact hsince.awaits.of_eq ht.creation ht.published
      · rw [ht.sent]
        exact fun m hm => List.mem_append_left _ (hsince.sent m hm)
      · intro hrunning
        rw [isRunning, ht.outlook] at hrunning
        rw [ht.queue, ht.sent, ← List.append_assoc, hsince.running hrunning]
      · rw [ht.opened, ht.eventBus, ht.told]
        exact hsince.queued
      · rw [ht.seen, ht.told]
        exact hsince.seen
      · rw [hcreators, ht.opened, ht.seen, ht.eventBus]
        exact hsince.waits

theorem takes_report (s : Opening σ) {m : BackendMessage} (hm : m.Discreet) :
    s.Takes (s.report m) (if s.db.reports.accepts then [m] else []) where
  infos := rfl
  outlook := rfl
  eventBus := rfl
  events := rfl
  creation := rfl
  published := rfl
  queue := by
    rw [report, Sink.put_eq]
    split
    · rfl
    · exact (List.append_nil _).symm
  discreet := by
    split
    · exact List.forall_mem_singleton.2 hm
    · exact List.forall_mem_nil _
  subscription := rfl
  seen := rfl
  opened := rfl
  sent := rfl
  told := rfl

theorem takes_work [Backend σ] (hdiscreet : DiscreetBackends σ) (s : Opening σ) (i : Nat) :
    s.Takes (s.work i)
      ((s.work i).db.reports.queue.drop s.db.reports.queue.length) := by
  have h := runnerTurned_runnerTurn hdiscreet i s.machine s.db
  obtain ⟨reports, hreports, hheard⟩ := h.reports
  obtain ⟨taken, htaken, hqueue⟩ := Sink.exists_queue_foldl_put reports s.db.reports
  rw [← hheard] at hqueue
  have hnew : (s.work i).db.reports.queue.drop s.db.reports.queue.length = taken := by
    rw [work, hqueue, List.drop_left]
  refine ⟨h.infos, h.outlook, congrArg Endpoint.eventBus h.endpoint,
    congrArg Endpoint.events h.endpoint, h.creation, h.published, ?_, ?_, rfl, rfl, rfl, rfl,
    rfl⟩
  · rw [hnew]
    exact hqueue
  · rw [hnew]
    exact fun m hm => hreports m (htaken.subset hm)

theorem takes_send (s : Opening σ) (c : Command) :
    s.Takes { s with db := s.db.send c } [] :=
  ⟨rfl, rfl, rfl, rfl, rfl, rfl, (List.append_nil _).symm, List.forall_mem_nil _, rfl, rfl,
    rfl, (List.append_nil _).symm, rfl⟩

theorem takes_wait (s : Opening σ) (time : Nat) : s.Takes (s.wait time) [] :=
  ⟨rfl, rfl, rfl, rfl, rfl, rfl, (List.append_nil _).symm, List.forall_mem_nil _, rfl, rfl,
    rfl, (List.append_nil _).symm, rfl⟩

/-! ### The dispatcher -/

theorem mem_queue_setSink {b : Bus Event} {place q : Nat} {sink : Sink Event} {e : Event}
    (h : e ∈ ((b.setSink place sink).sink q).queue) : e ∈ sink.queue ∨ e ∈ (b.sink q).queue := by
  rw [Bus.sink_setSink] at h
  split at h
  · exact .inl h
  · exact .inr h

/-- Until the dispatcher begins to wait nothing has been handled, so that every report counts. -/
theorem sound_begin {creators : List String} {s : Opening σ} (h : s.Sound o creators)
    (hnone : s.subscription = none) : s.begin.Sound o creators := by
  have hbefore : s.Before := by
    rcases h.phase with hbefore | ⟨sub, handled, hsince⟩
    · exact hbefore
    · cases hnone.symm.trans hsince.subscription
  have hawaits := awaits_beginCreation hbefore.creation h.published s.db.creators
  have hbus : s.begin.db.endpoint.eventBus =
      (s.db.dispatcher.beginCreation s.db.creators).published.foldl
        (fun b e => b.publish s.db.endpoint.events e) s.db.endpoint.subscribe.1.eventBus :=
    eventBus_foldl_publish _ _
  refine ⟨h.creators, h.discreet, rfl, h.opened, .inr ⟨s.db.beginCreation.1, [], rfl, ?_,
    List.forall_mem_nil _, fun _ => hbefore.sent, ?_, ?_, ?_⟩⟩
  · show Awaits s.db.creators (s.told ++ _) [] _
    rw [hbefore.told]
    exact hawaits.flush
  · intro _ e he
    rw [hbus] at he
    rcases mem_queue_foldl_publish he with hold | hnew
    · have hempty : (s.db.endpoint.subscribe.1.eventBus.sink
          s.db.beginCreation.1.sink).queue = [] :=
        congrArg Sink.queue (Bus.sink_subscribe s.db.endpoint.eventBus s.db.endpoint.events)
      rw [hempty] at hold
      cases hold
    · exact List.mem_append_right _ hnew
  · intro hseen
    cases hbefore.seen.symm.trans hseen
  · intro hnil _ _
    have htold : (s.db.dispatcher.beginCreation s.db.creators).published = [.creationDone] := by
      rw [show s.db.creators = [] from hnil, Dispatcher.beginCreation, hbefore.creation]
      exact congrArg (· ++ [Event.creationDone]) h.published
    rw [hbus, htold, beginCreation, Endpoint.subscribe, hbefore.eventBus, hbefore.events]
    exact List.mem_cons_self

/-- A turn handles the reports in the queue, and the dispatcher waits on for the others. -/
theorem sound_turn {creators : List String} {s : Opening σ} (h : s.Sound o creators)
    (hbegun : s.subscription.isSome) : s.turn.Sound o creators := by
  obtain ⟨sub, handled, hsince⟩ : ∃ sub handled, s.Since s.db.creators sub handled := by
    rcases h.phase with hbefore | hsince
    · rw [hbefore.subscription] at hbegun
      cases hbegun
    · exact hsince
  cases hrunning : s.db.isRunning with
  | false =>
    have hsame : s.turn = s := by
      rw [turn, dispatcherTurn_of_not_running _ hrunning, dispatcherEvents, hrunning]
      simp
    rw [hsame]
    exact h
  | true =>
    have hcreators : s.turn.db.creators = s.db.creators := by
      rw [creators_eq, turn, runners_dispatcherTurn, ← creators_eq]
    have hbus := eventBus_dispatcherTurn s.machine s.db
    obtain ⟨more, hmore, hawaits, hpublished, hempty, hall⟩ :=
      awaits_dispatcherTurn (m := s.machine) hrunning hsince.awaits h.discreet
    have hqueue : s.turn.db.reports.queue = [] := hempty
    refine ⟨hcreators.trans h.creators, ?_, hpublished, h.opened, .inr ⟨sub, handled ++ more,
      hsince.subscription, ?_, ?_, ?_, ?_, ?_, ?_⟩⟩
    · rw [hqueue]
      exact List.forall_mem_nil _
    · rw [hcreators]
      exact hawaits
    · intro m hm
      rcases List.mem_append.1 hm with hold | hnew
      · exact hsince.sent m hold
      · show m ∈ s.sent
        rw [← hsince.running hrunning]
        exact List.mem_append_right _ (hmore.subset hnew)
    · intro hgoes
      rw [hqueue, List.append_nil, hall hgoes]
      exact hsince.running hrunning
    · intro hopening e he
      rw [turn, hbus] at he
      rcases mem_queue_foldl_publish he with hold | hnew
      · exact List.mem_append_left _ (hsince.queued hopening e hold)
      · exact List.mem_append_right _ hnew
    · intro hseen
      exact List.mem_append_left _ (hsince.seen hseen)
    · intro hnil hopening hseen
      rw [hcreators] at hnil
      rw [turn, hbus]
      exact mem_queue_foldl_publish_of_mem _ (hsince.waits hnil hopening hseen)

theorem seen_look (s : Opening σ) (sub : Subscription) :
    (s.look sub).seen = true ↔
      s.seen = true ∨ .creationDone ∈ (s.db.endpoint.eventBus.sink sub.sink).queue := by
  rw [look, lookForCreation, Sink.drain]
  simp only [Bool.or_eq_true, List.any_eq_true]
  refine or_congr_right ⟨?_, fun hqueued => ⟨.creationDone, hqueued, rfl⟩⟩
  rintro ⟨e, hqueued, hdone⟩
  split at hdone
  · exact hqueued
  · cases hdone

/-- Whoever looks sees what has been told. -/
theorem sound_look {creators : List String} {s : Opening σ} (h : s.Sound o creators)
    {sub : Subscription} (hsub : s.subscription = some sub) (hopening : s.opened = false) :
    (s.look sub).Sound o creators := by
  refine ⟨h.creators, h.discreet, h.published,
    fun hopened => Bool.noConfusion (hopening.symm.trans hopened), ?_⟩
  rcases h.phase with hbefore | ⟨sub', handled, hsince⟩
  · cases hbefore.subscription.symm.trans hsub
  · obtain rfl : sub' = sub := Option.some.inj (hsince.subscription.symm.trans hsub)
    refine .inr ⟨sub', handled, hsub, hsince.awaits, hsince.sent, hsince.running, ?_, ?_, ?_⟩
    · intro _ e he
      rcases mem_queue_setSink he with hdrained | hold
      · cases hdrained
      · exact hsince.queued hopening e hold
    · intro hseen
      rcases (seen_look s sub').1 hseen with hbefore | hnow
      · exact hsince.seen hbefore
      · exact hsince.queued hopening _ hnow
    · intro hnil _ hseen
      have hlooked : (s.look sub').seen = true := by
        rw [seen_look]
        cases hbefore : s.seen with
        | true => exact .inl rfl
        | false => exact .inr (hsince.waits hnil hopening hbefore)
      cases hlooked.symm.trans hseen

/-- Once the database is handed out nobody looks, whatever becomes of the events. -/
theorem sound_opened {creators : List String} {s s' : Opening σ} (h : s.Sound o creators)
    (hbegun : s.subscription.isSome ∨ s.opened = true)
    (hseen : o.waitForCreation = true → s.seen = true) (endpoint : Endpoint)
    (heq : s' = { s with db := { s.db with endpoint := endpoint }, opened := true }) :
    s'.Sound o creators := by
  subst heq
  refine ⟨h.creators, h.discreet, h.published, fun _ => hseen, ?_⟩
  rcases h.phase with hbefore | ⟨sub, handled, hsince⟩
  · rw [hbefore.subscription, hbefore.opened] at hbegun
    simp at hbegun
  · exact .inr ⟨sub, handled, hsince.subscription, hsince.awaits, hsince.sent, hsince.running,
      nofun, hsince.seen, nofun⟩

theorem sound_finish {creators : List String} {s : Opening σ} (h : s.Sound o creators)
    {sub : Subscription} (hsub : s.subscription = some sub)
    (hseen : o.waitForCreation = true → s.seen = true) : (s.finish sub).Sound o creators :=
  sound_opened h (.inl (Option.isSome_of_eq_some hsub)) hseen _ rfl

theorem sound_share {creators : List String} {s : Opening σ} (h : s.Sound o creators)
    (hopened : s.opened = true) (bus : Bus Event) : (s.share bus).Sound o creators := by
  refine sound_opened h (.inr hopened) (h.opened hopened) { s.db.endpoint with eventBus := bus } ?_
  rw [share, ← hopened]

/-! ### Runs -/

/-- What is there when everyone is about to begin. -/
theorem start_spec [Backend σ] (m : Machine) (o : Options) (p : Persister) (backends : List σ) :
    (Database.start m o p backends).2.runners.map (·.info) = backends.map Backend.info ∧
      (Database.start m o p backends).1.now = m.now ∧
      (Database.start m o p backends).2.endpoint = .new ∧
      (Database.start m o p backends).2.reports = .new ∧
      (Database.start m o p backends).2.dispatcher.creation = .idle ∧
      (Database.start m o p backends).2.dispatcher.published = [] := by
  obtain ⟨created, m', catalog, hcreated, hlength, -, hnow⟩ := createBackends_spec
    (Path.databaseDir o.baseDir) o.create backends m .empty
    (p.register generalContext generalParameters)
  obtain ⟨exports, server, -, hnew⟩ := new_spec catalog
    (declareAll (p.register generalContext generalParameters) (backends.map Backend.info)) o
    m'.disk
  have hinfos : ((backends.map Backend.info).zip created).map (·.1) = backends.map Backend.info :=
    List.map_fst_zip (by rw [List.length_map, hlength])
  rw [Database.start]
  simp only [hcreated, hnew]
  rw [foldl_addBackend _ rfl]
  refine ⟨?_, hnow, rfl, rfl, rfl, rfl⟩
  rw [List.nil_append, List.map_map]
  exact hinfos

theorem sound_start [Backend σ] (m : Machine) (o : Options) (p : Persister) (backends : List σ) :
    (start m o p backends).Sound o (creatorNames (backends.map Backend.info)) := by
  obtain ⟨hinfos, -, hendpoint, hreports, hcreation, hpublished⟩ := start_spec m o p backends
  have hqueue : (start m o p backends).db.reports.queue = [] := congrArg Sink.queue hreports
  refine ⟨?_, ?_, hpublished, nofun, .inl ⟨rfl,
    congrArg Endpoint.eventBus hendpoint, congrArg Endpoint.events hendpoint, hcreation, hqueue,
    rfl, rfl, rfl⟩⟩
  · rw [creators_eq, ← hinfos]
    rfl
  · rw [hqueue]
    exact List.forall_mem_nil _

theorem sound_step [Backend σ] (hbackends : DiscreetBackends σ) {outside : BackendMessage → Prop}
    (houtside : ∀ m, outside m → m.Discreet) {creators : List String} {s s' : Opening σ}
    (h : s.Sound o creators) (hstep : Step o outside s s') : s'.Sound o creators := by
  cases hstep with
  | @report m hm => exact h.takes (takes_report s (houtside m hm))
  | work i => exact h.takes (takes_work hbackends s i)
  | send c => exact h.takes (takes_send s c)
  | begin hnone => exact sound_begin h hnone
  | turn hbegun => exact sound_turn h hbegun
  | look hsub hopening => exact sound_look h hsub hopening
  | finish hsub hseen => exact sound_finish h hsub hseen
  | share bus hopened => exact sound_share h hopened bus
  | wait time => exact h.takes (takes_wait s time)

theorem sound_runs [Backend σ] (hbackends : DiscreetBackends σ) {outside : BackendMessage → Prop}
    (houtside : ∀ m, outside m → m.Discreet) {creators : List String} {s s' : Opening σ}
    (h : s.Sound o creators) (hruns : Runs o outside s s') : s'.Sound o creators := by
  induction hruns with
  | refl => exact h
  | tail _ hstep ih => exact sound_step hbackends houtside ih hstep

/-! ## What is guaranteed -/

/-- The guarantees of an opening, seen from the backends that fill the database: that it is filled
is told once at most, not before all of them have reported so, and as soon as the reports of all
of them have been handled. Whoever waits for that gets the database after it. Where no backend
fills it, that is told when the wait begins, and seen at the first look. -/
structure Guaranteed (o : Options) (creators : List String) (s : Opening σ) : Prop where
  once : tellings s.told ≤ 1
  reported : tellings s.told = 1 → ∀ name ∈ creators, ⟨name, .creationDone⟩ ∈ s.sent
  seen : s.seen = true → tellings s.told = 1
  opened : s.opened = true → o.waitForCreation = true → tellings s.told = 1
  atLast : s.subscription.isSome → s.db.isRunning = true → s.db.reports.queue = [] →
    (∀ name ∈ creators, ⟨name, .creationDone⟩ ∈ s.sent) → tellings s.told = 1
  atOnce : creators = [] → ∀ sub, s.subscription = some sub →
    tellings s.told = 1 ∧ (s.opened = false → (s.look sub).seen = true)

theorem guaranteed_of_before {creators : List String} {s : Opening σ} (h : s.Before) :
    s.Guaranteed o creators := by
  have htold : tellings s.told = 0 := by
    rw [h.told]
    rfl
  have hsome : ¬ s.subscription.isSome := by
    rw [h.subscription]
    exact Bool.false_ne_true
  refine ⟨by omega, fun h1 => by omega, fun hseen => ?_, fun hopened => ?_,
    fun h1 => absurd h1 hsome, fun _ sub hsub => ?_⟩
  · cases h.seen.symm.trans hseen
  · cases h.opened.symm.trans hopened
  · cases h.subscription.symm.trans hsub

theorem guaranteed_of_since {creators : List String} {s : Opening σ} {sub : Subscription}
    {handled : List BackendMessage} (h : s.Since creators sub handled)
    (hpublished : s.db.dispatcher.published = [])
    (hopened : s.opened = true → o.waitForCreation = true → s.seen = true) :
    s.Guaranteed o creators := by
  have htold : tellings s.told = if s.db.dispatcher.creation.waiting = [] then 1 else 0 := by
    rw [← h.awaits.told, hpublished, List.append_nil]
  have hfinished : (∀ name ∈ creators, ⟨name, .creationDone⟩ ∈ handled) ↔
      s.db.dispatcher.creation.waiting = [] := by
    rw [List.eq_nil_iff_forall_not_mem]
    refine forall_congr' fun name => ?_
    rw [h.awaits.waiting, not_and_not_right]
  have hall : tellings s.told = 1 ↔ ∀ name ∈ creators, ⟨name, .creationDone⟩ ∈ handled := by
    rw [htold, hfinished]
    split <;> simp [*]
  have honce (hseen : s.seen = true) : tellings s.told = 1 := by
    have hpos : 0 < tellings s.told :=
      List.countP_pos_iff.2 ⟨.creationDone, h.seen hseen, rfl⟩
    rw [htold] at hpos ⊢
    split
    · rfl
    · rename_i hwaiting
      rw [if_neg hwaiting] at hpos
      cases hpos
  refine ⟨?_, fun hone name hname => ?_, honce, fun h1 hwait => honce (hopened h1 hwait),
    fun _ hrunning hqueue hsent => ?_, fun hnone sub' hsub => ⟨?_, fun hopening => ?_⟩⟩
  · rw [htold]
    split <;> omega
  · exact h.sent _ (hall.1 hone name hname)
  · have hhandled := h.running hrunning
    rw [hqueue, List.append_nil] at hhandled
    rw [hall, hhandled]
    exact hsent
  · rw [hall, hnone]
    exact List.forall_mem_nil _
  · obtain rfl : sub = sub' := Option.some.inj (h.subscription.symm.trans hsub)
    rw [seen_look]
    cases hseen : s.seen with
    | true => exact .inl rfl
    | false => exact .inr (h.waits hnone hopening hseen)

theorem guaranteed_of_sound {creators : List String} {s : Opening σ} (h : s.Sound o creators) :
    s.Guaranteed o creators := by
  rcases h.phase with hbefore | ⟨sub, handled, hsince⟩
  · exact guaranteed_of_before hbefore
  · rw [h.creators] at hsince
    exact guaranteed_of_since hsince h.published h.opened

end Opening

end Database

end Mediatheque
