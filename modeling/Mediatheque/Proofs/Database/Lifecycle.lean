import Mathlib.Logic.Function.Iterate
import Mediatheque.Backend.Scripted
import Mediatheque.Proofs.Database.Closing
import Mediatheque.Proofs.Database.Waiting

/-!
# The lifecycle of backends

Opening a database and closing it are runs of its life. It begins with all backends created
(`sound_start`), and waiting for it to be complete goes on from there (`runs_complete`). Whoever
closes it never waits in vain: a turn makes room in a queue that is full (`ready_work`,
`ready_turn`), and a backend that has been told to quit is not at work after its next turn
(`not_running_work`). So from wherever a database has come to it can be closed (`runs_closed`), and
closing it does that (`runs_close`). What has happened to the backends then is in order, whichever
of them have failed (`backends_lifecycle`).
-/

namespace Mediatheque

open Dispatcher

namespace Database

variable {σ : Type}

namespace Life

/-- The backends have been created, and have been sent the values of their settings. -/
def start [Backend σ] (m : Machine) (o : Options) (p : Persister) (backends : List σ) : Life σ where
  machine := (Database.start m o p backends).1
  db := (Database.start m o p backends).2
  log := (List.range backends.length).map .created ++
    (List.range backends.length).flatMap fun i =>
      ((Database.start m o p backends).2.waiting i).map (.accepted i)

/-- The names of some backends. -/
def namesOf [Backend σ] (backends : List σ) : List String :=
  backends.map fun b => (Backend.info b).name

theorem commands_routeWith (info : BackendInfo) (sent : List Command) :
    ∃ taken, (routeWith info sent).commands =
      { capacity := Sink.defaultCapacity, queue := taken } := by
  obtain ⟨taken, heq, -⟩ := exists_foldl_put_eq sent (.new : Sink Command)
  exact ⟨taken, heq⟩

section Start

variable [Backend σ] (m : Machine) (o : Options) (p : Persister) (backends : List σ)

theorem length_namesOf : (namesOf backends).length = backends.length := List.length_map ..

/-- At first backends have been created and their queues have taken commands, and nothing else has
happened. -/
theorem cases_of_mem_start {x : Happening} (hx : x ∈ (start m o p backends).log) :
    (∃ i < backends.length, x = .created i) ∨
      ∃ i < backends.length, ∃ c, x = .accepted i c := by
  rcases List.mem_append.1 hx with hx | hx
  · obtain ⟨i, hi, rfl⟩ := List.mem_map.1 hx
    exact .inl ⟨i, List.mem_range.1 hi, rfl⟩
  · obtain ⟨i, hi, hmem⟩ := List.mem_flatMap.1 hx
    obtain ⟨c, -, rfl⟩ := List.mem_map.1 hmem
    exact .inr ⟨i, List.mem_range.1 hi, c, rfl⟩

theorem not_mem_start {x : Happening} (hcreated : ∀ i, x ≠ .created i)
    (haccepted : ∀ i c, x ≠ .accepted i c) : x ∉ (start m o p backends).log := by
  intro hmem
  rcases cases_of_mem_start m o p backends hmem with ⟨i, -, rfl⟩ | ⟨i, -, c, rfl⟩
  · exact hcreated i rfl
  · exact haccepted i c rfl

theorem filterMap_start {α : Type} {f : Happening → Option α}
    (hcreated : ∀ i, f (.created i) = none) (haccepted : ∀ i c, f (.accepted i c) = none) :
    (start m o p backends).log.filterMap f = [] := by
  refine List.filterMap_eq_nil_iff.2 fun x hx => ?_
  rcases cases_of_mem_start m o p backends hx with ⟨i, -, rfl⟩ | ⟨i, -, c, rfl⟩
  · exact hcreated i
  · exact haccepted i c

/-- What a queue has taken at first waits in it. -/
theorem acceptedAt_start {i : Nat} (hi : i < backends.length) :
    acceptedAt i (start m o p backends).log = (start m o p backends).db.waiting i := by
  have hcreations : acceptedAt i ((List.range backends.length).map .created) = [] := by
    rw [acceptedAt, List.filterMap_map]
    exact List.filterMap_eq_nil_iff.2 fun _ _ => rfl
  rw [start, acceptedAt_append, hcreations, acceptedAt_flatMap, if_pos hi]
  rfl

theorem stands_start {i : Nat} (hi : i < backends.length) :
    Stands (start m o p backends).log (start m o p backends).db i
      (Backend.info backends[i]).name := by
  obtain ⟨created, sent, hlength, hrunners, hroutes, -⟩ := start_backends m o p backends
  have hpair : ((backends.map Backend.info).zip created)[i]? =
      some (Backend.info backends[i], created[i]) :=
    List.getElem?_zip_eq_some.2 ⟨by simp [hi], by simp [hlength, hi]⟩
  obtain ⟨taken, htaken⟩ := commands_routeWith (Backend.info backends[i])
    (sent (Backend.info backends[i]))
  have hrunner : (start m o p backends).db.runners[i]? =
      some ⟨Backend.info backends[i], .running created[i]⟩ := by
    rw [start, hrunners, List.getElem?_map, hpair]
    rfl
  have hroute : (start m o p backends).db.dispatcher.routes[i]? =
      some (routeWith (Backend.info backends[i]) (sent (Backend.info backends[i]))) := by
    rw [start, hroutes, List.getElem?_map, hpair]
    rfl
  have haccepted : acceptedAt i (start m o p backends).log = taken := by
    rw [acceptedAt_start m o p backends hi, waiting, hroute]
    exact congrArg Sink.queue htaken
  have hhandled : handledAt i (start m o p backends).log = [] :=
    filterMap_start m o p backends (fun _ => rfl) fun _ _ => rfl
  refine ⟨_, _, _, hrunner, rfl, hroute, ?_, .running _ ?_ ?_ ?_ ?_ ?_⟩
  · rw [htaken]
    exact Nat.succ_pos 1023
  · rw [htaken]
  · rw [hhandled, haccepted, htaken]
    rfl
  · rw [hhandled]
    exact List.forall_mem_nil _
  · exact not_mem_start m o p backends (fun _ h => by cases h) fun _ _ h => by cases h
  · exact not_mem_start m o p backends (fun _ h => by cases h) fun _ _ h => by cases h

/-- The record tells in which order the backends have been created. -/
theorem record_start : (start m o p backends).machine.record = m.record ++
    (start m o p backends).log.filterMap (Happening.recorded o.create (namesOf backends)) := by
  obtain ⟨_, _, -, -, -, hmachine, -⟩ := start_backends m o p backends
  have hcreations : ((List.range backends.length).map Happening.created).filterMap
      (Happening.recorded o.create (namesOf backends)) =
        backends.map fun b => ((Backend.info b).name, Asked.create o.create) := by
    rw [List.filterMap_map, ← length_namesOf]
    exact (filterMap_range_getElem? (·, Asked.create o.create) (namesOf backends)).trans
      List.map_map
  have haccepted : ((List.range backends.length).flatMap fun i =>
      ((Database.start m o p backends).2.waiting i).map (Happening.accepted i)).filterMap
        (Happening.recorded o.create (namesOf backends)) = [] := by
    refine List.filterMap_eq_nil_iff.2 fun x hx => ?_
    obtain ⟨i, -, hmem⟩ := List.mem_flatMap.1 hx
    obtain ⟨c, -, rfl⟩ := List.mem_map.1 hmem
    rfl
  rw [start, hmachine, List.filterMap_append, hcreations, haccepted, List.append_nil]

theorem created_start {i : Nat} (hi : i < backends.length) :
    .created i ∈ (start m o p backends).log :=
  List.mem_append_left _ (List.mem_map_of_mem (List.mem_range.2 hi))

theorem orderly_start : Orderly backends.length (start m o p backends).log := by
  refine orderly_accepted (orderly_created _) fun x hx => ?_
  obtain ⟨i, hi, hmem⟩ := List.mem_flatMap.1 hx
  obtain ⟨c, -, rfl⟩ := List.mem_map.1 hmem
  exact ⟨i, c, rfl, fun j hj => List.mem_map_of_mem (List.mem_range.2 hj), List.mem_range.1 hi,
    by simp, by simp⟩

theorem served_start : Served (start m o p backends).db := by
  obtain ⟨_, _, -, -, -, -, houtlook, -, -, hendpoint⟩ := start_backends m o p backends
  refine ⟨iff_of_true ?_ houtlook, fun _ => ?_⟩
  · rw [start, hendpoint]
    rfl
  · rw [start, hendpoint]
    exact Nat.succ_pos 1023

theorem sound_start : (start m o p backends).Sound (namesOf backends) o.create m.record := by
  obtain ⟨created, sent, hlength, hrunners, -, -, houtlook, hisOpen, -, -⟩ :=
    start_backends m o p backends
  have hnames := length_namesOf backends
  exact
    { count := by
        rw [start, hrunners, hnames, List.length_map, List.length_zip, List.length_map, hlength,
          Nat.min_self]
      stands := fun i name hname => by
        obtain ⟨hi, rfl⟩ := List.getElem?_eq_some_iff.1 hname
        rw [hnames] at hi
        simpa only [namesOf, List.getElem_map] using stands_start m o p backends hi
      record := record_start m o p backends
      orderly := hnames ▸ orderly_start m o p backends
      created := fun j hj => created_start m o p backends (hnames ▸ hj)
      finished := iff_of_false (not_mem_start m o p backends nofun nofun) fun hne => hne houtlook
      served := served_start m o p backends
      within := trivial
      waited := fun i hi => absurd hi (Nat.not_lt_zero i)
      stops := filterMap_start m o p backends (fun _ => rfl) fun _ _ => rfl
      destroys := filterMap_start m o p backends (fun _ => rfl) fun _ _ => rfl
      told := nofun
      dismissed := nofun
      after := False.elim
      isOpen := iff_of_true hisOpen nofun }

end Start

/-! ## Closing goes on -/

variable {names : List String} {fresh : Bool} {record : List (String × Asked)} {s : Life σ}
  {i : Nat}

/-- A turn of a backend makes room in its queue. -/
theorem ready_work [Backend σ] (h : s.Sound names fresh record) (hi : i < s.db.runners.length)
    {route : Route} (hroute : (s.work i).db.dispatcher.routes[i]? = some route) :
    Ready route.commands := by
  rw [h.count] at hi
  obtain ⟨info, state, hinfo⟩ := h.exists_runner hi
  obtain ⟨waiting, hwaiting, hcapacity, hstanding⟩ := h.standing hinfo
  by_cases hrunning : ∃ b, state = .running b
  · obtain ⟨b, rfl⟩ := hrunning
    obtain ⟨handled, state, commands, cache, reports, houtcome, hwork⟩ :=
      work_of_running hinfo hwaiting
    have hcommands : route.commands = commands := by
      have hafter : (s.work i).db.dispatcher.routes[i]? =
          some { waiting with commands := commands } := by
        rw [hwork]
        simp [setState, modifyCommands, hwaiting]
      rw [hafter] at hroute
      cases hroute
      rfl
    rw [hcommands]
    cases houtcome with
    | goesOn _ _ => exact fun _ => decide_eq_false (Nat.not_le.2 hcapacity)
    | ends _ _ =>
      intro hopen
      cases hopen
    | fails _ =>
      intro hopen
      cases hopen
  · have hsame : s.work i = s := by
      refine work_of_not_running fun info' b hb => hrunning ⟨b, ?_⟩
      cases hinfo.symm.trans hb
      rfl
    rw [hsame, hwaiting] at hroute
    cases hroute
    cases hstanding with
    | running b => exact absurd ⟨b, rfl⟩ hrunning
    | ended _ hclosed => exact fun hopen => absurd (hclosed.symm.trans hopen) Bool.false_ne_true
    | failed hclosed => exact fun hopen => absurd (hclosed.symm.trans hopen) Bool.false_ne_true

/-- A backend that has been told to quit is not at work after its next turn. -/
theorem not_running_work [Backend σ] (h : s.Sound names fresh record)
    (hphase : s.phase = .joining i) (info : BackendInfo) (b : σ) :
    (s.work i).db.runners[i]? ≠ some ⟨info, .running b⟩ := by
  by_cases hrunning : ∃ info b, s.db.runners[i]? = some ⟨info, .running b⟩
  · obtain ⟨info₀, b₀, hbefore⟩ := hrunning
    obtain ⟨route, hroute, -, hstanding⟩ := h.standing hbefore
    obtain ⟨handled, state, commands, cache, reports, houtcome, hwork⟩ :=
      work_of_running hbefore hroute
    have hquit : .quit ∈ route.commands.queue := by
      have htold := h.told i hphase info₀ b₀ hbefore
      cases hstanding with
      | running _ _ hqueue hhandled =>
        rw [hqueue] at htold
        rcases List.mem_append.1 htold with hmem | hmem
        · cases hhandled _ hmem
        · exact hmem
    intro hafter
    rw [hwork] at hafter
    cases houtcome with
    | goesOn _ hnoquit => cases hnoquit _ hquit
    | ends _ _ => simp [setState, modifyCommands, hbefore] at hafter
    | fails _ => simp [setState, modifyCommands, hbefore] at hafter
  · rw [work_of_not_running fun info b hb => hrunning ⟨info, b, hb⟩]
    exact fun hb => hrunning ⟨info, b, hb⟩

/-- What the end of the wait for a backend makes of the machine and the database. -/
theorem pair_join [Backend σ] (s : Life σ) (i : Nat) :
    ((s.join i).machine, (s.join i).db) =
      match s.db.runners[i]? with
      | some { info, state := .ended b } =>
        (s.machine.note info.name .stop, s.db.setState i (.ended (Backend.stop b)))
      | _ => (s.machine, s.db) := by
  rw [join]
  obtain _ | ⟨info, state⟩ := s.db.runners[i]?
  · rfl
  · cases state <;> rfl

/-- A backend that has been told to quit can be waited for. -/
theorem runs_join [Backend σ] (h : s.Sound names fresh record) (hphase : s.phase = .joining i) :
    Runs s ((s.work i).join i) ∧ ((s.work i).join i).phase = .telling (i + 1) := by
  refine ⟨(Relation.ReflTransGen.single (.work s i)).tail
    (.join (s.work i) hphase (not_running_work h hphase)), ?_⟩
  rw [join]
  split <;> rfl

/-- Each backend in turn can be told to quit and be waited for. -/
theorem runs_stopBackend [Backend σ] (h : s.Sound names fresh record)
    (hphase : s.phase = .telling i) (hi : i < s.db.runners.length) :
    ∃ s', Runs s s' ∧ s'.phase = .telling (i + 1) ∧
      stopBackend i s.machine s.db = (s'.machine, s'.db) := by
  -- Room is made in its queue if there is none.
  obtain ⟨ready, hruns, hready, hturn⟩ : ∃ s₁, Runs s s₁ ∧
      (s₁.Sound names fresh record ∧ s₁.phase = .telling i ∧ i < s₁.db.runners.length ∧
        ∀ route, s₁.db.dispatcher.routes[i]? = some route → Ready route.commands) ∧
      (if (s.db.dispatcher.routes[i]?).any (·.commands.isFull) then runnerTurn i s.machine s.db
        else (s.machine, s.db)) = (s₁.machine, s₁.db) := by
    by_cases hfull : (s.db.dispatcher.routes[i]?).any (·.commands.isFull) = true
    · have hsound := sound_work h i
      refine ⟨s.work i, .single (.work s i), ⟨hsound, hphase, ?_, fun route => ready_work h hi⟩, ?_⟩
      · rwa [hsound.count, ← h.count]
      · rw [if_pos hfull]
        rfl
    · refine ⟨s, .refl, ⟨h, hphase, hi, fun route hroute _ => ?_⟩, if_neg hfull⟩
      rw [hroute, Option.any_some] at hfull
      exact Bool.eq_false_iff.2 hfull
  obtain ⟨hsound, htelling, hlt, hroom⟩ := hready
  have htell : Step ready (ready.tell i) := .tell ready htelling hlt hroom
  obtain ⟨hjoins, hnext⟩ := runs_join (sound_step hsound htell) rfl
  refine ⟨_, (hruns.tail htell).trans hjoins, hnext, ?_⟩
  rw [stopBackend]
  dsimp only
  rw [hturn]
  exact (pair_join ((ready.tell i).work i) i).symm

/-- What each backend is asked in turn comes to what all are asked. -/
theorem runs_stopBackends [Backend σ] (k : Nat) (h : s.Sound names fresh record)
    (hphase : s.phase = .telling i) (hi : i + k = s.db.runners.length) :
    ∃ s', Runs s s' ∧ s'.phase = .telling s'.db.runners.length ∧
      (List.range' i k).foldl (fun (m, db) i => stopBackend i m db) (s.machine, s.db) =
        (s'.machine, s'.db) := by
  induction k generalizing s i with
  | zero =>
    refine ⟨s, .refl, ?_, rfl⟩
    rw [hphase, ← hi, Nat.add_zero]
  | succ k ih =>
    obtain ⟨s₁, hruns, hnext, hstop⟩ := runs_stopBackend h hphase (by omega)
    have hsound := sound_runs h hruns
    obtain ⟨s', hruns', hlast, hstops⟩ := ih hsound hnext (by
      rw [hsound.count, ← h.count]
      omega)
    refine ⟨s', hruns.trans hruns', hlast, ?_⟩
    rw [List.range'_succ, List.foldl_cons]
    dsimp only
    rw [hstop]
    exact hstops

/-- A dispatcher that goes on after a turn has handled all commands in its queue. -/
theorem commandSink_turn (h : s.Sound names fresh record)
    (hgoes : s.turn.db.outlook = .running) :
    s.turn.db.endpoint.commandSink = { s.db.endpoint.commandSink with queue := [] } := by
  cases hrunning : s.db.isRunning with
  | false =>
    have hsame : s.turn.db = s.db := by rw [turn, dispatcherTurn_of_not_running _ hrunning]
    rw [hsame, ← isRunning_iff, hrunning] at hgoes
    cases hgoes
  | true =>
    have hopen := h.served.isOpen.2 (isRunning_iff.1 hrunning)
    obtain ⟨-, houtlook, -⟩ := dispatcherTurn_of_running s.machine hrunning
    have hnext := houtlook.symm.trans hgoes
    have hcommands := commandSink_dispatcherTurn s.machine hrunning hopen
    rw [if_pos hnext, (nextTurn_of_goesOn hnext).2] at hcommands
    exact hcommands

/-- A turn of the dispatcher makes room in its queue. -/
theorem ready_turn (h : s.Sound names fresh record) : Ready s.turn.db.endpoint.commandSink := by
  intro hopen
  have hsound := sound_turn h
  have hgoes := hsound.served.isOpen.1 hopen
  have hcapacity := hsound.served.capacity hgoes
  rw [commandSink_turn h hgoes] at hcapacity ⊢
  exact decide_eq_false (Nat.not_le.2 hcapacity)

/-- What the end of the wait for the dispatcher makes of the machine and the database. -/
theorem pair_flush (s : Life σ) :
    (s.flush.machine, s.flush.db) =
      if s.db.outlook = .quit then
        let d := { s.db.dispatcher with disk := s.machine.disk }.flush
        ({ s.machine with disk := d.disk }, { s.db with dispatcher := d })
      else (s.machine, s.db) := by
  rw [flush]
  by_cases hquit : s.db.outlook = .quit
  · rw [if_pos hquit, if_pos hquit]
  · rw [if_neg hquit, if_neg hquit]

/-- A dispatcher that has been told to quit can be waited for. -/
theorem runs_flush [Backend σ] (h : s.Sound names fresh record) (hphase : s.phase = .finishing) :
    Runs s s.turn.flush ∧ s.turn.flush.phase = .destroying 0 := by
  have hover : s.turn.db.outlook ≠ .running := by
    intro hgoes
    obtain ⟨c, hc, -⟩ := (sound_turn h).dismissed hphase hgoes
    rw [commandSink_turn h hgoes] at hc
    cases hc
  refine ⟨(Relation.ReflTransGen.single (.turn s)).tail (.flush s.turn hphase hover), ?_⟩
  rw [flush]
  split <;> rfl

/-- The dispatcher can be told to quit and be waited for. -/
theorem runs_stopDispatcher [Backend σ] (h : s.Sound names fresh record)
    (hphase : s.phase = .telling s.db.runners.length) :
    ∃ s', Runs s s' ∧ s'.phase = .destroying 0 ∧
      stopDispatcher s.machine s.db = (s'.machine, s'.db) := by
  -- Room is made in its queue if there is none.
  obtain ⟨ready, hruns, ⟨hsound, htelling, hroom⟩, hsend⟩ : ∃ s₁, Runs s s₁ ∧
      (s₁.Sound names fresh record ∧ s₁.phase = .telling s₁.db.runners.length ∧
        Ready s₁.db.endpoint.commandSink) ∧
      (s.db.sendBlocking s.machine .quit).2 = (s₁.machine, s₁.db.send .quit) := by
    rw [sendBlocking_snd]
    by_cases hfull : s.db.endpoint.commandSink.isFull = true
    · have hsound := sound_turn h
      refine ⟨s.turn, .single (.turn s), ⟨hsound, ?_, ready_turn h⟩, if_pos hfull⟩
      rw [hsound.count, ← h.count]
      exact hphase
    · exact ⟨s, .refl, ⟨h, hphase, fun _ => Bool.eq_false_iff.2 hfull⟩, if_neg hfull⟩
  have hdismiss : Step ready ready.dismiss := .dismiss ready htelling hroom
  obtain ⟨hflushes, hnext⟩ := runs_flush (sound_step hsound hdismiss) rfl
  refine ⟨_, (hruns.tail hdismiss).trans hflushes, hnext, ?_⟩
  have hsent : s.db.sendBlocking s.machine .quit =
      ((s.db.sendBlocking s.machine .quit).1, ready.machine, ready.db.send .quit) := by
    rw [← hsend]
  rw [stopDispatcher, hsent]
  exact (pair_flush ready.dismiss.turn).symm

/-- What the end of a backend makes of the machine and the database. -/
theorem pair_destroy [Backend σ] (s : Life σ) (i : Nat) :
    ((s.destroy i).machine, (s.destroy i).db) = destroyBackend i s.machine s.db := by
  rw [destroy, destroyBackend]
  obtain _ | ⟨info, state⟩ := s.db.runners[i]?
  · rfl
  · cases state <;> rfl

theorem phase_destroy [Backend σ] (s : Life σ) (i : Nat) :
    (s.destroy i).phase = .destroying (i + 1) := by
  rw [destroy]
  split <;> rfl

theorem runs_destroyBackends [Backend σ] (k : Nat) (h : s.Sound names fresh record)
    (hphase : s.phase = .destroying i) (hi : i + k = s.db.runners.length) :
    ∃ s', Runs s s' ∧ s'.phase = .destroying s'.db.runners.length ∧
      (List.range' i k).foldl (fun (m, db) i => destroyBackend i m db) (s.machine, s.db) =
        (s'.machine, s'.db) := by
  induction k generalizing s i with
  | zero =>
    refine ⟨s, .refl, ?_, rfl⟩
    rw [hphase, ← hi, Nat.add_zero]
  | succ k ih =>
    have hstep : Step s (s.destroy i) := .destroy s hphase (by omega)
    have hsound := sound_step h hstep
    obtain ⟨s', hruns, hlast, hdestroys⟩ := ih hsound (phase_destroy s i) (by
      rw [hsound.count, ← h.count]
      omega)
    refine ⟨s', .head hstep hruns, hlast, ?_⟩
    rw [List.range'_succ, List.foldl_cons]
    dsimp only
    rw [← pair_destroy]
    exact hdestroys

/-- What closing a database does is a run, which nothing in the way of it stops. -/
theorem runs_close [Backend σ] (h : s.Sound names fresh record) (hphase : s.phase = .working) :
    ∃ s', Runs s s' ∧ s'.phase = .closed ∧ close s.machine s.db = (s'.machine, s'.db) := by
  have hopen : s.db.isOpen = true := h.isOpen.2 (by
    rw [hphase]
    exact nofun)
  have hclose : Step s { s with phase := .telling 0 } := .close s hphase
  obtain ⟨s₁, hstops, htold, hstopsEq⟩ :=
    runs_stopBackends s.db.runners.length (sound_step h hclose) rfl (Nat.zero_add _)
  have hsound₁ := sound_runs (sound_step h hclose) hstops
  obtain ⟨s₂, hfinishes, hdestroying, hfinishesEq⟩ := runs_stopDispatcher hsound₁ htold
  have hsound₂ := sound_runs hsound₁ hfinishes
  obtain ⟨s₃, hdestroys, hlast, hdestroysEq⟩ :=
    runs_destroyBackends s₂.db.runners.length hsound₂ hdestroying (Nat.zero_add _)
  refine ⟨s₃.release,
    .head hclose (hstops.trans (hfinishes.trans (hdestroys.tail (.release s₃ hlast)))), rfl, ?_⟩
  have hcount : s₂.db.runners.length = s.db.runners.length := by rw [hsound₂.count, h.count]
  rw [hcount] at hdestroysEq
  have hstopped : (List.range s.db.runners.length).foldl (fun (m, db) i => stopBackend i m db)
      (s.machine, s.db) = (s₁.machine, s₁.db) := by
    rw [List.range_eq_range']
    exact hstopsEq
  rw [close, hopen, Bool.not_true, if_neg Bool.false_ne_true]
  dsimp only
  rw [hstopped]
  dsimp only
  rw [hfinishesEq]
  dsimp only
  rw [List.range_eq_range', hdestroysEq]
  rfl

/-- Whatever a database has come to, it can be closed from there. -/
theorem runs_closed [Backend σ] (h : s.Sound names fresh record) :
    ∃ s', Runs s s' ∧ s'.phase = .closed := by
  have hdestroying {s : Life σ} {i : Nat} (h : s.Sound names fresh record)
      (hphase : s.phase = .destroying i) : ∃ s', Runs s s' ∧ s'.phase = .closed := by
    have hle : i ≤ s.db.runners.length := by
      have hwithin := h.within
      rwa [hphase, ← h.count] at hwithin
    obtain ⟨s', hruns, hlast, -⟩ :=
      runs_destroyBackends (s.db.runners.length - i) h hphase (by omega)
    exact ⟨s'.release, hruns.tail (.release s' hlast), rfl⟩
  have htelling {s : Life σ} {i : Nat} (h : s.Sound names fresh record)
      (hphase : s.phase = .telling i) : ∃ s', Runs s s' ∧ s'.phase = .closed := by
    have hle : i ≤ s.db.runners.length := by
      have hwithin := h.within
      rwa [hphase, ← h.count] at hwithin
    obtain ⟨s₁, hstops, htold, -⟩ :=
      runs_stopBackends (s.db.runners.length - i) h hphase (by omega)
    have hsound := sound_runs h hstops
    obtain ⟨s₂, hfinishes, hnext, -⟩ := runs_stopDispatcher hsound htold
    obtain ⟨s', hlast, hclosed⟩ := hdestroying (sound_runs hsound hfinishes) hnext
    exact ⟨s', hstops.trans (hfinishes.trans hlast), hclosed⟩
  cases hphase : s.phase with
  | working =>
    obtain ⟨s', hruns, hclosed, -⟩ := runs_close h hphase
    exact ⟨s', hruns, hclosed⟩
  | telling i => exact htelling h hphase
  | joining i =>
    obtain ⟨hruns, hnext⟩ := runs_join h hphase
    obtain ⟨s', hlast, hclosed⟩ := htelling (sound_runs h hruns) hnext
    exact ⟨s', hruns.trans hlast, hclosed⟩
  | finishing =>
    obtain ⟨hruns, hnext⟩ := runs_flush h hphase
    obtain ⟨s', hlast, hclosed⟩ := hdestroying (sound_runs h hruns) hnext
    exact ⟨s', hruns.trans hlast, hclosed⟩
  | destroying i => exact hdestroying h hphase
  | closed => exact ⟨s, .refl, hphase⟩

/-! ## Opening -/

theorem routes_beginCreation (d : Dispatcher) (participants : List String) :
    (d.beginCreation participants).routes = d.routes := by
  rw [Dispatcher.beginCreation]
  split <;> rfl

/-- What an opening has come to, the life of its database may come to. -/
theorem runs_of_opening [Backend σ] {o : Options} {outside : BackendMessage → Prop}
    {a b : Opening σ} (hruns : Opening.Runs o outside a b) {s : Life σ}
    (hmachine : s.machine = a.machine) (hdb : s.db = a.db) :
    ∃ s', Runs s s' ∧ s'.phase = s.phase ∧ s'.machine = b.machine ∧ s'.db = b.db := by
  induction hruns with
  | refl => exact ⟨s, .refl, rfl, hmachine, hdb⟩
  | @tail b c _ hstep ih =>
    obtain ⟨s', hruns, hphase, hm, hd⟩ := ih
    have haside {m : Machine} {db : Database σ} (h : s'.Aside m db) :
        ∃ s'', Runs s s'' ∧ s''.phase = s.phase ∧ s''.machine = m ∧ s''.db = db :=
      ⟨_, hruns.tail (.aside s' h), hphase, rfl, rfl⟩
    obtain ⟨m, db, phase, log⟩ := s'
    cases hm
    cases hd
    cases hstep with
    | report _ => exact haside ⟨rfl, rfl, rfl, rfl, rfl, rfl⟩
    | work i => exact ⟨_, hruns.tail (.work _ i), hphase, rfl, rfl⟩
    | send c => exact ⟨_, hruns.tail (.send _ c), hphase, rfl, rfl⟩
    | begin _ =>
      exact haside ⟨rfl, rfl, routes_beginCreation _ _, rfl, commandSink_foldl_publish _ _, rfl⟩
    | turn _ => exact ⟨_, hruns.tail (.turn _), hphase, rfl, rfl⟩
    | look _ _ => exact haside ⟨rfl, rfl, rfl, rfl, rfl, rfl⟩
    | finish _ _ => exact haside ⟨rfl, rfl, rfl, rfl, rfl, rfl⟩
    | share _ _ => exact haside ⟨rfl, rfl, rfl, rfl, rfl, rfl⟩
    | wait _ => exact haside ⟨rfl, rfl, rfl, rfl, rfl, rfl⟩

/-- A database that nobody waits for any more is closed. -/
theorem runs_giveUp [Backend σ] (h : s.Sound names fresh record) (hphase : s.phase = .working)
    (sub : Subscription) :
    ∃ s', Runs s s' ∧ s'.phase = .closed ∧
      close s.machine { s.db with endpoint := s.db.endpoint.unsubscribe sub } =
        (s'.machine, s'.db) := by
  have hunsubscribe : Step s { s with db := { s.db with
      endpoint := s.db.endpoint.unsubscribe sub } } :=
    .aside s (m := s.machine) ⟨rfl, rfl, rfl, rfl, rfl, rfl⟩
  obtain ⟨s', hcloses, hclosed, hclose⟩ := runs_close (sound_step h hunsubscribe) hphase
  exact ⟨s', .head hunsubscribe hcloses, hclosed, hclose⟩

/-- Completing a new database is a run, at the end of which it is closed if that took too long. -/
theorem runs_complete [Backend σ] (m : Machine) (o : Options) (p : Persister)
    (backends : List σ) {r : Except DatabaseError (Database σ)} {m' : Machine}
    (h : (start m o p backends).db.complete (start m o p backends).machine o = (r, m')) :
    ∃ s, Runs (start m o p backends) s ∧ s.machine = m' ∧
      (∀ db, r = .ok db → s.phase = .working ∧ s.db = db) ∧
      ∀ e, r = .error e → s.phase = .closed := by
  have hbegin : Opening.Runs o (fun _ => False) (Opening.start m o p backends)
      (Opening.start m o p backends).begin := .single (.begin _ rfl)
  rw [complete] at h
  dsimp only at h
  split at h
  · rename_i hwait
    cases h
    obtain ⟨s, hruns, hphase, hmachine, hdb⟩ := runs_of_opening
      (hbegin.tail (.finish _ rfl fun hneed => by simp [hneed] at hwait))
      (s := start m o p backends) rfl rfl
    refine ⟨s, hruns, hmachine, fun db hok => ⟨hphase, ?_⟩, fun e herror => ?_⟩
    · cases hok
      exact hdb
    · cases herror
  · split at h
    · rename_i machine db hawait
      cases h
      obtain ⟨looked, hlooks, hsub, hseen, rfl, rfl⟩ := Opening.runs_await (fun _ => False) _ _
        (s := (Opening.start m o p backends).begin) rfl rfl hawait
      obtain ⟨s, hruns, hphase, hmachine, hdb⟩ := runs_of_opening
        (hbegin.trans (hlooks.tail (.finish looked hsub fun _ => hseen)))
        (s := start m o p backends) rfl rfl
      refine ⟨s, hruns, hmachine, fun db hok => ⟨hphase, ?_⟩, fun e herror => ?_⟩
      · cases hok
        exact hdb
      · cases herror
    · rename_i machine db hawait
      obtain ⟨looked, hlooks, -, -, rfl, rfl⟩ := Opening.runs_await (fun _ => False) _ _
        (s := (Opening.start m o p backends).begin) rfl rfl hawait
      obtain ⟨s, hruns, hphase, hmachine, hdb⟩ := runs_of_opening (hbegin.trans hlooks)
        (s := start m o p backends) rfl rfl
      have hgivenUp := runs_giveUp (sound_runs (sound_start m o p backends) hruns) hphase
        (start m o p backends).db.beginCreation.1
      rw [hmachine, hdb] at hgivenUp
      obtain ⟨s', hcloses, hclosed, hclose⟩ := hgivenUp
      rw [hclose] at h
      dsimp only at h
      cases h
      refine ⟨s', hruns.trans hcloses, rfl, fun db hok => ?_, fun _ _ => hclosed⟩
      cases hok

theorem record_lockDir (m : Machine) (dir : String) : (lockDir m dir).2.record = m.record := by
  rw [lockDir]
  split
  · rfl
  · dsimp only
    split
    · rfl
    · rfl
    · rename_i locked hlocked
      rw [Machine.lock?] at hlocked
      obtain ⟨disk, -, hdisk⟩ := Fault.bind_eq_ok_iff.1 hlocked
      split at hdisk
      · cases hdisk
      · cases hdisk
        rfl

/-- An opening fails before any backend is created, or else it is a run, which has closed the
database if it fails. -/
theorem runs_open? [Backend σ] (m : Machine) (o : Options) (backends : List σ)
    {r : Except DatabaseError (Database σ)} {m' : Machine} (h : open? m o backends = (r, m')) :
    ((∃ e, r = .error e) ∧ m'.record = m.record) ∨
      ∃ begun p s, begun.record = m.record ∧ Runs (start begun o p backends) s ∧ s.machine = m' ∧
        (∀ db, r = .ok db → s.phase = .working ∧ s.db = db) ∧
        ∀ e, r = .error e → s.phase = .closed := by
  have hlocked := record_lockDir m (Path.databaseDir o.baseDir)
  rw [open?] at h
  split at h
  · cases h
    exact .inl ⟨⟨_, rfl⟩, rfl⟩
  · split at h
    · rename_i hlock
      cases h
      rw [hlock] at hlocked
      exact .inl ⟨⟨_, rfl⟩, hlocked⟩
    · rename_i locked hlock
      rw [hlock] at hlocked
      split at h
      · cases h
        exact .inl ⟨⟨_, rfl⟩, hlocked⟩
      · rename_i p disk _
        refine .inr ⟨{ locked with disk := disk }, p, ?_⟩
        dsimp only at h
        split at h
        · obtain ⟨s, hs⟩ := runs_complete _ o p backends h
          exact ⟨s, hlocked, hs⟩
        · cases h
          refine ⟨_, hlocked, .refl, rfl, fun db hok => ⟨rfl, ?_⟩, fun e herror => ?_⟩
          · cases hok
            rfl
          · cases herror

/-! ## The lifecycle -/

theorem survivors_isPrefix {m n : Nat} (h : m ≤ n) (log : List Happening) :
    survivors m log <+: survivors n log := by
  refine List.IsPrefix.filter _ ?_
  rw [← Nat.add_sub_cancel' h, List.range_add]
  exact List.prefix_append _ _

/-- What holds of backends of some names, whatever their database has come to. -/
structure Lifecycle [Backend σ] (names : List String) (fresh : Bool)
    (record : List (String × Asked)) (s : Life σ) : Prop where
  /-- The machine keeps a record of what has happened to the backends. -/
  record : s.machine.record = record ++ s.log.filterMap (Happening.recorded fresh names)
  /-- A backend that is at work has handled the commands that its queue has taken, up to those that
  wait in it. -/
  queued : ∀ i info b, s.db.runners[i]? = some ⟨info, .running b⟩ →
    ∃ route, s.db.dispatcher.routes[i]? = some route ∧
      acceptedAt i s.log = handledAt i s.log ++ route.commands.queue
  ended : ∀ i, .ended i ∈ s.log ↔ ∃ info b, s.db.runners[i]? = some ⟨info, .ended b⟩
  failed : ∀ i, .failed i ∈ s.log ↔ ∃ info, s.db.runners[i]? = some ⟨info, .failed⟩
  finished : .finished ∈ s.log ↔ s.db.outlook ≠ .running
  /-- Everything has happened when it was due. -/
  orderly : Orderly names.length s.log
  /-- First of all the backends are created, in their order and once each. -/
  created : ∃ rest, s.log = (List.range names.length).map .created ++ rest ∧
    ∀ i, .created i ∉ rest
  /-- Then those that have not failed are stopped, and then destroyed. -/
  stops : stops s.log <+: survivors names.length s.log
  destroys : destroys s.log <+: survivors names.length s.log
  spared : ∀ i, .failed i ∈ s.log → .stopped i ∉ s.log ∧ .destroyed i ∉ s.log
  closed : s.phase = .closed → Database.stops s.log = survivors names.length s.log ∧
    Database.destroys s.log = survivors names.length s.log
  /-- Nothing that the backends do keeps the database from being closed. -/
  closes : ∃ s', Runs s s' ∧ s'.phase = .closed
  /-- Closing it, however often, is a run. -/
  close : s.phase = .working → ∃ s', Runs s s' ∧ s'.phase = .closed ∧
    ∀ calls, (fun x : Machine × Database σ => Database.close x.1 x.2)^[calls + 1]
      (s.machine, s.db) = (s'.machine, s'.db)

/-- A database that is closed stays as it is. -/
theorem iterate_close [Backend σ] {m : Machine} {db : Database σ} (h : db.isOpen = false)
    (calls : Nat) :
    (fun x : Machine × Database σ => Database.close x.1 x.2)^[calls] (m, db) = (m, db) := by
  refine Function.iterate_fixed ?_ calls
  rw [close, h, Bool.not_false, if_pos rfl]

theorem ended_iff (h : s.Sound names fresh record) :
    .ended i ∈ s.log ↔ ∃ info b, s.db.runners[i]? = some ⟨info, .ended b⟩ := by
  constructor
  · intro hended
    obtain ⟨past, ⟨hwork, -⟩, -⟩ := h.orderly.due hended
    obtain ⟨info, state, hrunner⟩ := h.exists_runner hwork.lt
    obtain ⟨route, -, -, hstanding⟩ := h.standing hrunner
    cases hstanding with
    | running b _ _ _ hnot _ => exact absurd hended hnot
    | ended b _ _ _ => exact ⟨info, b, hrunner⟩
    | failed _ hfailed => exact absurd hfailed (h.orderly.not_failed hended)
  · rintro ⟨info, b, hrunner⟩
    obtain ⟨route, -, -, hstanding⟩ := h.standing hrunner
    cases hstanding with
    | ended _ _ _ hended => exact hended

theorem failed_iff (h : s.Sound names fresh record) :
    .failed i ∈ s.log ↔ ∃ info, s.db.runners[i]? = some ⟨info, .failed⟩ := by
  constructor
  · intro hfailed
    obtain ⟨past, hdue, -⟩ := h.orderly.due hfailed
    obtain ⟨info, state, hrunner⟩ := h.exists_runner hdue.lt
    obtain ⟨route, -, -, hstanding⟩ := h.standing hrunner
    cases hstanding with
    | running b _ _ _ _ hnot => exact absurd hfailed hnot
    | ended b _ _ hended => exact absurd hfailed (h.orderly.not_failed hended)
    | failed _ _ => exact ⟨info, hrunner⟩
  · rintro ⟨info, hrunner⟩
    obtain ⟨route, -, -, hstanding⟩ := h.standing hrunner
    cases hstanding with
    | failed _ hfailed => exact hfailed

theorem lifecycle_of_sound [Backend σ] (h : s.Sound names fresh record) :
    s.Lifecycle names fresh record := by
  have hjoined {phase : Phase} (hwithin : phase.Within names.length) :
      phase.joined names.length ≤ names.length := by
    cases phase with
    | joining i => exact Nat.le_of_lt hwithin
    | telling i => exact hwithin
    | working => exact Nat.zero_le _
    | _ => exact Nat.le_refl _
  exact
    { record := h.record
      queued := fun i info b hrunner => by
        obtain ⟨route, hroute, -, hstanding⟩ := h.standing hrunner
        cases hstanding with
        | running _ _ hqueue => exact ⟨route, hroute, hqueue⟩
      ended := fun i => ended_iff h
      failed := fun i => failed_iff h
      finished := h.finished
      orderly := h.orderly
      created := h.orderly.created h.created
      stops := by
        rw [h.stops]
        exact survivors_isPrefix (hjoined h.within) s.log
      destroys := by
        rw [h.destroys]
        exact survivors_isPrefix ((released_le_joined h.within).trans (hjoined h.within)) s.log
      spared := fun i hfailed => h.orderly.spared hfailed
      closed := fun hclosed => by
        rw [h.stops, h.destroys, hclosed]
        exact ⟨rfl, rfl⟩
      closes := runs_closed h
      close := fun hphase => by
        obtain ⟨s', hruns, hclosed, hclose⟩ := runs_close h hphase
        have hisOpen : s'.db.isOpen = false := by
          rw [Bool.eq_false_iff, Ne, (sound_runs h hruns).isOpen, hclosed]
          exact fun hne => hne rfl
        refine ⟨s', hruns, hclosed, fun calls => ?_⟩
        rw [Function.iterate_succ_apply, hclose]
        exact iterate_close hisOpen calls }

/-- The lifecycle of backends, whatever they are and whichever of them fail. All are created before
anything else; when the database is closed each in turn is told to quit and stopped once it has
handled what its queue has taken before that; and when the dispatcher has ended too all are
destroyed. Those that have failed are passed over. This is what opening and closing a database
do. -/
theorem backends_lifecycle [Backend σ] (backends : List σ) (o : Options) :
    (∀ m p s, Runs (start m o p backends) s →
      s.Lifecycle (namesOf backends) o.create m.record) ∧
    (∀ m db m', open? m o backends = (.ok db, m') →
      ∃ begun p s, begun.record = m.record ∧ Runs (start begun o p backends) s ∧
        s.phase = .working ∧ s.machine = m' ∧ s.db = db) ∧
    ∀ m e m', open? m o backends = (.error e, m') → m'.record = m.record ∨
      ∃ begun p s, begun.record = m.record ∧ Runs (start begun o p backends) s ∧
        s.phase = .closed ∧ s.machine = m' := by
  refine ⟨fun m p s hruns => ?_, fun m db m' hopen => ?_, fun m e m' hopen => ?_⟩
  · exact lifecycle_of_sound (sound_runs (sound_start m o p backends) hruns)
  · rcases runs_open? m o backends hopen with ⟨⟨e, herror⟩, -⟩ | ⟨begun, p, s, hrecord, hs⟩
    · cases herror
    · obtain ⟨hruns, hmachine, hok, -⟩ := hs
      obtain ⟨hphase, hdb⟩ := hok db rfl
      exact ⟨begun, p, s, hrecord, hruns, hphase, hmachine, hdb⟩
  · rcases runs_open? m o backends hopen with ⟨-, hsame⟩ | ⟨begun, p, s, hrecord, hs⟩
    · exact .inl hsame
    · obtain ⟨hruns, hmachine, -, herror⟩ := hs
      exact .inr ⟨begun, p, s, hrecord, hruns, herror e rfl, hmachine⟩

/-- Of three backends the second fails when it is told to rescan; the others do as they are told,
and get their hooks, and closing the database again changes nothing. A database that is not
complete in time is closed by those who open it. -/
theorem backends_lifecycle_scripted :
    let options : Options := {
      baseDir := "/b"
      create := true
      pollInterval := 10
      saveDebounce := 3000
      waitForCreation := false
      creationTimeout := none
      serverUrl := none
      radioBrowserServer := "de1.api.radio-browser.info"
      objectCacheSize := 16 }
    let rescanning (name : String) (failsOn : Option String) : Scripted :=
      { script := { name := name, capabilities := { rescan := true }, failsOn := failsOn } }
    let backends := [rescanning "fs" none, rescanning "radio" (some "rescan"),
      rescanning "upnp" none]
    let names := ["fs", "radio", "upnp"]
    let hooks (m : Machine) : List (String × String) := m.record.filterMap fun
      | (name, .create _) => some (name, "create")
      | (name, .stop) => some (name, "stop")
      | (name, .destroy) => some (name, "destroy")
      | _ => none
    let hasty := { options with waitForCreation := true, creationTimeout := some 20 }
    let silent : Scripted :=
      { script := { name := "silent", capabilities := { creationDone := true }, silent := true } }
    (∃ opened closed : Life Scripted,
      open? {} options backends = (.ok opened.db, opened.machine) ∧
      let failed := ({ opened with db := opened.db.send (.rescan ⟨7⟩) }.turn).work 1
      failed.Lifecycle names true [] ∧ .failed 1 ∈ failed.log ∧ Runs failed closed ∧
        closed.Lifecycle names true [] ∧ Database.stops closed.log = survivors 3 closed.log ∧
        hooks closed.machine = [("fs", "create"), ("radio", "create"), ("upnp", "create"),
          ("fs", "stop"), ("upnp", "stop"), ("fs", "destroy"), ("upnp", "destroy")] ∧
        (fun x : Machine × Database Scripted => Database.close x.1 x.2)^[2]
          (failed.machine, failed.db) = (closed.machine, closed.db)) ∧
    ∃ closed : Life Scripted, closed.Lifecycle ["silent"] true [] ∧ closed.phase = .closed ∧
      closed.machine = (open? {} hasty [silent]).2 ∧
      hooks closed.machine = [("silent", "create"), ("silent", "stop"), ("silent", "destroy")] := by
  intro options rescanning backends names hooks hasty silent
  obtain ⟨hruns, hopens, -⟩ := backends_lifecycle backends options
  obtain ⟨hwaits, -, hfails⟩ := backends_lifecycle [silent] hasty
  have hworked : (match open? {} options backends with
      | (.ok db, m) =>
        let turned := dispatcherTurn m (db.send (.rescan ⟨7⟩))
        let failed := runnerTurn 1 turned.1 turned.2
        (failed.2.runners[1]?.any fun r => match r.state with | .failed => true | _ => false) &&
          decide (hooks (Database.close failed.1 failed.2).1 = [("fs", "create"),
            ("radio", "create"), ("upnp", "create"), ("fs", "stop"), ("upnp", "stop"),
            ("fs", "destroy"), ("upnp", "destroy")])
      | (.error _, _) => false) = true := by decide +kernel
  have hgivenUp : hooks (open? {} hasty [silent]).2 =
      [("silent", "create"), ("silent", "stop"), ("silent", "destroy")] := by decide +kernel
  have hlate : (open? {} hasty [silent]).1.isOk = false := by decide +kernel
  refine ⟨?_, ?_⟩
  · rcases hopen : open? {} options backends with ⟨error | db, m⟩
    · rw [hopen] at hworked
      cases hworked
    rw [hopen] at hworked
    obtain ⟨begun, p, s, hrecord, hopening, hphase, rfl, rfl⟩ := hopens {} db m hopen
    have hfailed := ((hopening.tail (.send s (.rescan ⟨7⟩))).tail (.turn _)).tail (.work _ 1)
    have hlife := hruns begun p _ hfailed
    obtain ⟨closed, hcloses, hclosed, hclose⟩ := hlife.close hphase
    have hafter := hruns begun p closed (hfailed.trans hcloses)
    rw [hrecord] at hlife hafter
    dsimp only at hworked
    rw [Bool.and_eq_true, decide_eq_true_eq, Option.any_eq_true] at hworked
    obtain ⟨⟨⟨info, state⟩, hrunner, hstate⟩, hhooks⟩ := hworked
    refine ⟨s, closed, rfl, hlife, ?_, hcloses, hafter, (hafter.closed hclosed).1, ?_, hclose 1⟩
    · cases state with
      | failed => exact (hlife.failed 1).2 ⟨info, hrunner⟩
      | _ => cases hstate
    · have honce := hclose 0
      simp only [Nat.zero_add, Function.iterate_one, work, turn] at honce
      rw [honce] at hhooks
      exact hhooks
  · rcases hopen : open? {} hasty [silent] with ⟨error | db, m⟩
    · rw [hopen] at hgivenUp
      rcases hfails {} error m hopen with hsame | ⟨begun, p, s, hrecord, hopening, hclosed, rfl⟩
      · simp only [hooks, hsame, List.filterMap_nil, reduceCtorEq] at hgivenUp
      · have hlife := hwaits begun p s hopening
        rw [hrecord] at hlife
        exact ⟨s, hlife, hclosed, rfl, hgivenUp⟩
    · rw [hopen] at hlate
      cases hlate

end Life

end Database

end Mediatheque
