import Mediatheque.Proofs.Database.Life

/-!
# What holds in the life of a database

Whatever a database has come to, everything has happened to its backends when it was due, and the
record of the machine tells the same (`Life.Sound`). Those that closing has waited for are no
longer at work, and those of them that have not failed have been stopped; and in the end they have
been destroyed. Every step keeps this (`Life.sound_step`), and so it holds of every run.
-/

namespace Mediatheque

open Dispatcher

namespace Database

variable {σ : Type}

/-- What the record of the machine has of a happening, given the names of the backends. -/
def Happening.recorded (fresh : Bool) (names : List String) : Happening → Option (String × Asked)
  | .created i => names[i]?.map (·, .create fresh)
  | .handled i c => names[i]?.map (·, .handle c)
  | .stopped i => names[i]?.map (·, .stop)
  | .destroyed i => names[i]?.map (·, .destroy)
  | _ => none

/-- The dispatcher takes commands as long as it is at work. -/
structure Served (db : Database σ) : Prop where
  isOpen : db.endpoint.commandSink.isOpen = true ↔ db.outlook = .running
  capacity : db.outlook = .running → 0 < db.endpoint.commandSink.capacity

namespace Life

/-- What holds of the life of a database with backends of some names, and with a record of what
was before. -/
structure Sound (names : List String) (fresh : Bool) (record : List (String × Asked))
    (s : Life σ) : Prop where
  count : s.db.runners.length = names.length
  stands : ∀ i name, names[i]? = some name → Stands s.log s.db i name
  record : s.machine.record = record ++ s.log.filterMap (Happening.recorded fresh names)
  orderly : Orderly names.length s.log
  created : ∀ j < names.length, .created j ∈ s.log
  finished : .finished ∈ s.log ↔ s.db.outlook ≠ .running
  served : Served s.db
  within : s.phase.Within names.length
  waited : ∀ i < s.phase.joined names.length, ∀ info b,
    s.db.runners[i]? ≠ some ⟨info, .running b⟩
  stops : stops s.log = survivors (s.phase.joined names.length) s.log
  destroys : destroys s.log = survivors (s.phase.released names.length) s.log
  told : ∀ i, s.phase = .joining i → ∀ info b, s.db.runners[i]? = some ⟨info, .running b⟩ →
    .quit ∈ acceptedAt i s.log
  dismissed : s.phase = .finishing → s.db.outlook = .running →
    ∃ c ∈ s.db.endpoint.commandSink.queue, c.isQuit = true
  after : s.phase.AfterDispatcher → s.db.outlook ≠ .running
  isOpen : s.db.isOpen = true ↔ s.phase ≠ .closed

variable {names : List String} {fresh : Bool} {record : List (String × Asked)} {s s' : Life σ}
  {i : Nat}

theorem Sound.exists_name (h : s.Sound names fresh record) {runner : Runner σ}
    (hrunner : s.db.runners[i]? = some runner) : ∃ name, names[i]? = some name := by
  have hlt : i < s.db.runners.length := (List.getElem?_eq_some_iff.1 hrunner).1
  rw [h.count] at hlt
  exact ⟨names[i], List.getElem?_eq_getElem hlt⟩

theorem Sound.exists_runner (h : s.Sound names fresh record) (hi : i < names.length) :
    ∃ info state, s.db.runners[i]? = some ⟨info, state⟩ := by
  obtain ⟨info, state, _, hinfo, -⟩ := h.stands i _ (List.getElem?_eq_getElem hi)
  exact ⟨info, state, hinfo⟩

/-- A backend stands with its queue as what has happened to it tells. -/
theorem Sound.standing (h : s.Sound names fresh record) {info : BackendInfo}
    {state : RunnerState σ} (hrunner : s.db.runners[i]? = some ⟨info, state⟩) :
    ∃ route, s.db.dispatcher.routes[i]? = some route ∧ 0 < route.commands.capacity ∧
      Standing i s.log route.commands state := by
  obtain ⟨name, hname⟩ := h.exists_name hrunner
  obtain ⟨_, _, route, hinfo, -, hroute, hcapacity, hstanding⟩ := h.stands i name hname
  cases hrunner.symm.trans hinfo
  exact ⟨route, hroute, hcapacity, hstanding⟩

theorem released_le_joined {phase : Phase} {count : Nat} (h : phase.Within count) :
    phase.released count ≤ phase.joined count := by
  cases phase with
  | destroying i => exact h
  | closed => exact Nat.le_refl count
  | _ => exact Nat.zero_le _

/-- As long as no hook is called, and nobody fails that has been waited for, the same have been
stopped and destroyed. -/
theorem Sound.hooks_append (h : s.Sound names fresh record) {more : List Happening}
    (hstops : Database.stops more = []) (hdestroys : Database.destroys more = [])
    (hfailed : ∀ j < s.phase.joined names.length, .failed j ∉ more) :
    Database.stops (s.log ++ more) = survivors (s.phase.joined names.length) (s.log ++ more) ∧
      Database.destroys (s.log ++ more) =
        survivors (s.phase.released names.length) (s.log ++ more) := by
  have hreleased (j : Nat) (hj : j < s.phase.released names.length) : .failed j ∉ more :=
    hfailed j (Nat.lt_of_lt_of_le hj (released_le_joined h.within))
  constructor
  · rw [stops_append, hstops, List.append_nil, survivors_append hfailed]
    exact h.stops
  · rw [destroys_append, hdestroys, List.append_nil, survivors_append hreleased]
    exact h.destroys

/-! ## Turns of backends -/

/-- A backend that is not at work does nothing in its turn. -/
theorem work_of_not_running [Backend σ]
    (h : ∀ info b, s.db.runners[i]? ≠ some ⟨info, .running b⟩) : s.work i = s := by
  have hnone : turnings i s.machine s.machine s.db s.db = [] := by
    rw [turnings]
    split
    · rename_i info b _ _ hrunner _
      exact absurd hrunner (h info b)
    · rfl
  rw [work, runnerTurn_of_not_running _ h]
  simp only [hnone, List.append_nil]

/-- A turn of a backend that is at work comes to one of its ends. -/
theorem work_of_running [Backend σ] {info : BackendInfo} {b : σ} {route : Route}
    (hi : s.db.runners[i]? = some ⟨info, .running b⟩)
    (hr : s.db.dispatcher.routes[i]? = some route) :
    ∃ handled state commands cache reports, Outcome route.commands handled state commands ∧
      s.work i = { s with
        machine := { s.machine with
          record := s.machine.record ++ handled.map fun c => (info.name, .handle c) }
        db := ({ s.db with cache := cache, reports := reports }.setState i state).modifyCommands i
          fun _ => commands
        log := s.log ++ (handled.map (.handled i) ++ endings i state) } := by
  obtain ⟨handled, state, commands, cache, reports, houtcome, hturn⟩ :=
    runnerTurn_of_running s.machine hi hr
  refine ⟨handled, state, commands, cache, reports, houtcome, ?_⟩
  have hafter : (({ s.db with cache := cache, reports := reports }.setState i
      state).modifyCommands i fun _ => commands).runners[i]? = some ⟨info, state⟩ := by
    simp [setState, modifyCommands, hi]
  rw [work, hturn]
  simp only [turnings, hi, hafter, List.drop_left, List.filterMap_map]
  simp only [Function.comp_def, List.filterMap_eq_map']

/-- What happens in a turn of a backend leaves the others alone. -/
theorem leaves_of_turn (handled : List Command) (state : RunnerState σ) {j : Nat} (hj : j ≠ i) :
    ∀ x ∈ handled.map (.handled i) ++ endings i state, x.Leaves j := by
  refine List.forall_mem_append.2 ⟨List.forall_mem_map.2 fun c _ => hj.symm, ?_⟩
  cases state with
  | running b => exact List.forall_mem_nil _
  | ended b => exact List.forall_mem_singleton.2 hj.symm
  | failed => exact List.forall_mem_singleton.2 hj.symm

theorem isQuit_eq_true {c : Command} : c.isQuit = true ↔ c = .quit := by
  cases c <;> simp [Command.isQuit]

theorem handledAt_map_handled (handled : List Command) :
    handledAt i (handled.map (.handled i)) = handled := by
  rw [handledAt, List.filterMap_map, show ((Happening.handled? i ·) ∘ Happening.handled i) = some
    from funext fun c => if_pos rfl]
  exact List.filterMap_some

theorem acceptedAt_map_handled (handled : List Command) :
    acceptedAt i (handled.map (.handled i)) = [] := by
  rw [acceptedAt, List.filterMap_map]
  exact List.filterMap_eq_nil_iff.2 fun c _ => rfl

/-- The end of a turn is due, and the backend stands as that has happened. -/
theorem standing_of_outcome {count : Nat} {log : List Happening} {waiting commands : Sink Command}
    {handled : List Command} {state : RunnerState σ} {b : σ} (hlog : Orderly count log)
    (hcreated : ∀ j < count, .created j ∈ log) (hi : i < count)
    (h : Standing i log waiting (.running b)) (houtcome : Outcome waiting handled state commands) :
    Standing i (log ++ (handled.map (.handled i) ++ endings i state)) commands state ∧
      Orderly count (log ++ (handled.map (.handled i) ++ endings i state)) := by
  cases h with
  | running _ hopen hqueue hbefore hended hfailed =>
    have hall : beforeQuit (acceptedAt i log) = handledAt i log ++ beforeQuit waiting.queue := by
      rw [hqueue, beforeQuit_append hbefore]
    have hfirst : handledAt i log ++ handled <+: beforeQuit (acceptedAt i log) := by
      rw [hall, List.prefix_append_right_inj]
      cases houtcome with
      | goesOn _ hnoquit => exact ⟨[], (List.append_nil _).trans (beforeQuit_eq_self hnoquit).symm⟩
      | ends _ _ => exact List.prefix_rfl
      | fails hhandled => exact hhandled
    have horderly := orderly_handled hlog ⟨hcreated, hi, hended, hfailed⟩ hfirst
    have hactive : Active count (log ++ handled.map (.handled i)) i := by
      refine ⟨fun j hj => List.mem_append_left _ (hcreated j hj), hi, ?_, ?_⟩
      · simpa using hended
      · simpa using hfailed
    have haccepted : acceptedAt i (log ++ handled.map (.handled i)) = acceptedAt i log := by
      rw [acceptedAt_append, acceptedAt_map_handled, List.append_nil]
    have hhandled : handledAt i (log ++ handled.map (.handled i)) = handledAt i log ++ handled := by
      rw [handledAt_append, handledAt_map_handled]
    rw [← List.append_assoc]
    cases houtcome with
    | goesOn b' hnoquit =>
      rw [endings, List.append_nil]
      refine ⟨.running b' hopen ?_ ?_ hactive.ended hactive.failed, horderly⟩
      · rw [haccepted, hhandled, hqueue, List.append_nil]
      · rw [hhandled]
        exact List.forall_mem_append.2 ⟨hbefore, hnoquit⟩
    | ends b' hquit =>
      have hdone : Done (log ++ (beforeQuit waiting.queue).map (.handled i)) i := by
        obtain ⟨c, hc, hisQuit⟩ := hquit
        rw [isQuit_eq_true.1 hisQuit] at hc
        refine ⟨?_, ?_⟩
        · rw [haccepted, hqueue]
          exact List.mem_append_right _ hc
        · rw [hhandled, haccepted, hall]
      refine ⟨.ended b' rfl ?_ (mem_snoc.2 (.inr rfl)), horderly.snoc ⟨hactive, hdone⟩⟩
      rw [Done, endings, acceptedAt_append, handledAt_append]
      exact hdone.imp (List.mem_append_left _)
        fun h => (List.append_nil _).trans (h.trans (congrArg beforeQuit (List.append_nil _).symm))
    | fails _ => exact ⟨.failed rfl (mem_snoc.2 (.inr rfl)), horderly.snoc hactive⟩

/-- In a turn of a backend nobody is stopped or destroyed, and the dispatcher does not end. -/
theorem aside_of_turn (handled : List Command) (state : RunnerState σ) :
    stops (handled.map (.handled i) ++ endings i state) = [] ∧
      destroys (handled.map (.handled i) ++ endings i state) = [] ∧
      .finished ∉ handled.map (.handled i) ++ endings i state := by
  have hends : stops (endings i state) = [] ∧ destroys (endings i state) = [] ∧
      .finished ∉ endings i state := by
    cases state <;> simp [endings, Database.stops, Database.destroys, Happening.stopped?,
      Happening.destroyed?]
  refine ⟨?_, ?_, ?_⟩
  · rw [stops_append, hends.1, List.append_nil, Database.stops, List.filterMap_map]
    exact List.filterMap_eq_nil_iff.2 fun c _ => rfl
  · rw [destroys_append, hends.2.1, List.append_nil, Database.destroys, List.filterMap_map]
    exact List.filterMap_eq_nil_iff.2 fun c _ => rfl
  · rw [List.mem_append, not_or]
    exact ⟨by simp, hends.2.2⟩

theorem recorded_of_turn {name : String} (hname : names[i]? = some name) (fresh : Bool)
    (handled : List Command) (state : RunnerState σ) :
    (handled.map (Happening.handled i) ++ endings i state).filterMap
        (Happening.recorded fresh names) = handled.map fun c => (name, Asked.handle c) := by
  have hends : (endings i state).filterMap (Happening.recorded fresh names) = [] := by
    cases state <;> rfl
  rw [List.filterMap_append, hends, List.append_nil, List.filterMap_map]
  simp only [Function.comp_def, Happening.recorded, hname, Option.map_some, List.filterMap_eq_map']

theorem capacity_of_outcome {waiting commands : Sink Command} {handled : List Command}
    {state : RunnerState σ} (h : Outcome waiting handled state commands) :
    commands.capacity = waiting.capacity := by
  cases h <;> rfl

theorem sound_work [Backend σ] (h : s.Sound names fresh record) (i : Nat) :
    (s.work i).Sound names fresh record := by
  by_cases hrunning : ∃ info b, s.db.runners[i]? = some ⟨info, .running b⟩
  swap
  · rw [work_of_not_running fun info b hi => hrunning ⟨info, b, hi⟩]
    exact h
  obtain ⟨info, b, hi⟩ := hrunning
  obtain ⟨name, hname⟩ := h.exists_name hi
  have hlt : i < names.length := (List.getElem?_eq_some_iff.1 hname).1
  obtain ⟨info', state', route, hi', rfl, hr, hcapacity, hstanding⟩ := h.stands i name hname
  cases hi.symm.trans hi'
  obtain ⟨handled, state, commands, cache, reports, houtcome, hwork⟩ := work_of_running hi hr
  obtain ⟨hstands, horderly⟩ := standing_of_outcome h.orderly h.created hlt hstanding houtcome
  -- A backend that is at work has not been waited for.
  have hbehind {j : Nat} (hj : j < s.phase.joined names.length) : j ≠ i := by
    rintro rfl
    exact h.waited j hj info b hi
  have hsame (j : Nat) (hj : j ≠ i) : (s.work i).db.runners[j]? = s.db.runners[j]? ∧
      (s.work i).db.dispatcher.routes[j]? = s.db.dispatcher.routes[j]? := by
    rw [hwork]
    simp [setState, modifyCommands, hj.symm]
  have hnew : (s.work i).db.runners[i]? = some ⟨info, state⟩ ∧
      (s.work i).db.dispatcher.routes[i]? = some { route with commands := commands } := by
    rw [hwork]
    simp [setState, modifyCommands, hi, hr]
  obtain ⟨hstops, hdestroys, hfinished⟩ := aside_of_turn (i := i) handled state
  obtain ⟨hstopped, hdestroyed⟩ := h.hooks_append hstops hdestroys fun j hj =>
    (not_mem_of_leaves (leaves_of_turn handled state (hbehind hj))).2
  have hrecord := congrArg (· ++ handled.map fun c => (info.name, Asked.handle c)) h.record
  rw [hwork] at hsame hnew ⊢
  exact
    { count := (List.length_modify ..).trans h.count
      stands := fun j other hother => by
        by_cases hj : j = i
        · subst hj
          cases hname.symm.trans hother
          exact ⟨info, state, _, hnew.1, rfl, hnew.2, by rwa [capacity_of_outcome houtcome],
            hstands⟩
        · exact (h.stands j other hother).append (hsame j hj).1 (hsame j hj).2
            (leaves_of_turn handled state hj)
      record := by
        rw [List.filterMap_append, recorded_of_turn hname]
        exact hrecord.trans (List.append_assoc ..)
      orderly := horderly
      created := fun j hj => List.mem_append_left _ (h.created j hj)
      finished := by
        rw [List.mem_append, or_iff_left hfinished]
        exact h.finished
      served := ⟨h.served.isOpen, h.served.capacity⟩
      within := h.within
      waited := fun j hj => by
        rw [(hsame j (hbehind hj)).1]
        exact h.waited j hj
      stops := hstopped
      destroys := hdestroyed
      told := fun j hphase info' b' hrunning => by
        rw [acceptedAt_append]
        refine List.mem_append_left _ ?_
        by_cases hj : j = i
        · subst hj
          exact h.told j hphase info b hi
        · rw [(hsame j hj).1] at hrunning
          exact h.told j hphase info' b' hrunning
      dismissed := h.dismissed
      after := h.after
      isOpen := h.isOpen }

/-! ## Queues that take commands -/

/-- Queues that take commands do nothing else. -/
theorem aside_of_takings (names : List String) (fresh : Bool) (db db' : Database σ) :
    stops (takings db db') = [] ∧ destroys (takings db db') = [] ∧
      (takings db db').filterMap (Happening.recorded fresh names) = [] ∧
      .finished ∉ takings db db' ∧ ∀ j, .failed j ∉ takings db db' := by
  refine ⟨filterMap_takings fun _ _ => rfl, filterMap_takings fun _ _ => rfl,
    filterMap_takings fun _ _ => rfl, fun hmem => ?_, fun j hmem => ?_⟩
  · obtain ⟨j, c, hsame, -⟩ := exists_of_mem_takings hmem
    cases hsame
  · obtain ⟨i, c, hsame, -⟩ := exists_of_mem_takings hmem
    cases hsame

/-- The queues of backends take commands, and the dispatcher may end. -/
structure Takes (s : Life σ) (m : Machine) (db : Database σ) (ends : List Happening) : Prop where
  record : m.record = s.machine.record
  runners : db.runners = s.db.runners
  routes : ∀ j : Nat, ∃ cs : List Command, db.dispatcher.routes[j]? =
    s.db.dispatcher.routes[j]?.map fun r => cs.foldl Route.deliver r
  isOpen : db.isOpen = s.db.isOpen
  ends : ends = [] ∧ db.outlook = s.db.outlook ∨
    ends = [.finished] ∧ s.db.outlook = .running ∧ db.outlook ≠ .running
  served : Served db
  dismissed : s.phase = .finishing → db.outlook = .running →
    ∃ c ∈ db.endpoint.commandSink.queue, c.isQuit = true

/-- The dispatcher ends once, and nothing is said of a backend by that. -/
theorem Takes.leaves {m : Machine} {db : Database σ} {ends : List Happening}
    (ht : s.Takes m db ends) : ∀ x ∈ ends, x = .finished := by
  rcases ht.ends with ⟨rfl, -⟩ | ⟨rfl, -⟩
  · exact List.forall_mem_nil _
  · exact List.forall_mem_singleton.2 rfl

theorem Takes.filterMap_ends {m : Machine} {db : Database σ} {ends : List Happening}
    (ht : s.Takes m db ends) {α : Type} {f : Happening → Option α} (hf : f .finished = none) :
    ends.filterMap f = [] :=
  List.filterMap_eq_nil_iff.2 fun x hx => by rw [ht.leaves x hx, hf]

/-- Every backend stands as before, and those whose queues take commands are at work. -/
theorem Sound.stands_takes (h : s.Sound names fresh record) {m : Machine} {db : Database σ}
    {ends : List Happening} (ht : s.Takes m db ends) {j : Nat} {name : String}
    (hname : names[j]? = some name) :
    Stands (s.log ++ takings s.db db) db j name ∧
      ∀ c, .accepted j c ∈ takings s.db db → .ended j ∉ s.log ∧ .failed j ∉ s.log := by
  obtain ⟨cs, hcs⟩ := ht.routes j
  refine (h.stands j name hname).takes ?_ (by rw [ht.runners]) hcs
  rw [h.count]
  exact (List.getElem?_eq_some_iff.1 hname).1

/-- The dispatcher ends after everything else, and what has happened tells whether it has. -/
theorem Sound.orderly_takes (h : s.Sound names fresh record) {m : Machine} {db : Database σ}
    {ends : List Happening} (ht : s.Takes m db ends) :
    (.finished ∈ s.log ++ takings s.db db ++ ends ↔ db.outlook ≠ .running) ∧
      Orderly names.length (s.log ++ takings s.db db ++ ends) := by
  obtain ⟨-, -, -, hnotFinished, -⟩ := aside_of_takings names fresh s.db db
  have htaken : Orderly names.length (s.log ++ takings s.db db) := by
    refine orderly_accepted h.orderly fun x hx => ?_
    obtain ⟨j, c, rfl, hj, -⟩ := exists_of_mem_takings hx
    rw [h.count] at hj
    obtain ⟨hended, hfailed⟩ := (h.stands_takes ht (List.getElem?_eq_getElem hj)).2 c hx
    exact ⟨j, c, rfl, h.created, hj, hended, hfailed⟩
  rcases ht.ends with ⟨rfl, hsame⟩ | ⟨rfl, hbefore, hafter⟩
  · refine ⟨?_, ?_⟩
    · rw [List.append_nil, List.mem_append, or_iff_left hnotFinished, hsame]
      exact h.finished
    · rwa [List.append_nil]
  · refine ⟨iff_of_true (mem_snoc.2 (.inr rfl)) hafter,
      htaken.snoc ⟨fun j hj => List.mem_append_left _ (h.created j hj), ?_⟩⟩
    rw [List.mem_append, or_iff_left hnotFinished]
    exact fun hfinished => h.finished.1 hfinished hbefore

theorem Sound.takes (h : s.Sound names fresh record) {m : Machine} {db : Database σ}
    {ends : List Happening} (ht : s.Takes m db ends) :
    Sound names fresh record
      { s with machine := m, db := db, log := s.log ++ takings s.db db ++ ends } := by
  have hrunner (j : Nat) : db.runners[j]? = s.db.runners[j]? := by rw [ht.runners]
  obtain ⟨hstops, hdestroys, hrecorded, -, hnotFailed⟩ := aside_of_takings names fresh s.db db
  obtain ⟨hfinished, horderly⟩ := h.orderly_takes ht
  have hleaves (j : Nat) : ∀ x ∈ ends, x.Leaves j := fun x hx => by
    rw [ht.leaves x hx]
    trivial
  have hnoStops : Database.stops (takings s.db db ++ ends) = [] := by
    rw [stops_append, hstops]
    exact ht.filterMap_ends rfl
  have hnoDestroys : Database.destroys (takings s.db db ++ ends) = [] := by
    rw [destroys_append, hdestroys]
    exact ht.filterMap_ends rfl
  obtain ⟨hstopped, hdestroyed⟩ := h.hooks_append hnoStops hnoDestroys fun j _ => by
    rw [List.mem_append, not_or]
    exact ⟨hnotFailed j, (not_mem_of_leaves (hleaves j)).2⟩
  rw [← List.append_assoc] at hstopped hdestroyed
  exact
    { count := (congrArg List.length ht.runners).trans h.count
      stands := fun j name hname => (h.stands_takes ht hname).1.append rfl rfl (hleaves j)
      record := by
        rw [List.filterMap_append, List.filterMap_append, hrecorded, ht.filterMap_ends rfl,
          List.append_nil, List.append_nil]
        exact ht.record.trans h.record
      orderly := horderly
      created := fun j hj => List.mem_append_left _ (List.mem_append_left _ (h.created j hj))
      finished := hfinished
      served := ht.served
      within := h.within
      waited := fun j hj => by
        rw [hrunner j]
        exact h.waited j hj
      stops := hstopped
      destroys := hdestroyed
      told := fun j hphase info b hrunning => by
        rw [hrunner j] at hrunning
        rw [acceptedAt_append, acceptedAt_append]
        exact List.mem_append_left _ (List.mem_append_left _ (h.told j hphase info b hrunning))
      dismissed := ht.dismissed
      after := fun hafter => by
        rcases ht.ends with ⟨-, hsame⟩ | ⟨-, -, hends⟩
        · rw [hsame]
          exact h.after hafter
        · exact hends
      isOpen := by
        rw [ht.isOpen]
        exact h.isOpen }

/-! ## Turns of the dispatcher -/

theorem routes_dispatcherTurn (m : Machine) {db : Database σ} (h : db.isRunning = true) (j : Nat) :
    ∃ cs : List Command, (dispatcherTurn m db).2.dispatcher.routes[j]? =
      db.dispatcher.routes[j]?.map fun r => cs.foldl Route.deliver r := by
  obtain ⟨hdispatcher, -⟩ := dispatcherTurn_of_running m h
  obtain ⟨cs, -, hroute⟩ := (reaches_turn
    { db.dispatcher with disk := m.disk, nextToken := db.endpoint.nextToken } m.now
    db.endpoint.commandSink db.reports).routes j
  rw [hdispatcher]
  exact ⟨cs, hroute⟩

theorem sound_turn (h : s.Sound names fresh record) : s.turn.Sound names fresh record := by
  cases hrunning : s.db.isRunning with
  | false =>
    have hsame : s.turn = { s with log := s.log ++ takings s.db s.db ++ [] } := by
      rw [turn, dispatcherTurn_of_not_running _ hrunning, hrunning]
      rfl
    have houtlook : s.db.outlook ≠ .running := fun houtlook => by
      rw [isRunning_iff.2 houtlook] at hrunning
      cases hrunning
    rw [hsame]
    exact h.takes
      { record := rfl
        runners := rfl
        routes := fun j => ⟨[], Option.map_id'.symm⟩
        isOpen := rfl
        ends := .inl ⟨rfl, rfl⟩
        served := h.served
        dismissed := h.dismissed }
  | true =>
    have houtlook := isRunning_iff.1 hrunning
    obtain ⟨hmachine, hisOpen⟩ := machine_dispatcherTurn s.machine hrunning
    obtain ⟨-, houtlook', -⟩ := dispatcherTurn_of_running s.machine hrunning
    have hopen := h.served.isOpen.2 houtlook
    have hcommands := commandSink_dispatcherTurn s.machine hrunning hopen
    have hgoesOn (hgoes : (dispatcherTurn s.machine s.db).2.outlook = .running) :=
      nextTurn_of_goesOn (houtlook'.symm.trans hgoes)
    have hsink (hgoes : (dispatcherTurn s.machine s.db).2.outlook = .running) :
        (dispatcherTurn s.machine s.db).2.endpoint.commandSink =
          { s.db.endpoint.commandSink with queue := [] } := by
      rw [hcommands, if_pos (houtlook'.symm.trans hgoes), (hgoesOn hgoes).2]
    exact h.takes
      { record := by rw [hmachine]
        runners := runners_dispatcherTurn _ _
        routes := routes_dispatcherTurn _ hrunning
        isOpen := hisOpen
        ends := by
          rw [hrunning, Bool.true_and]
          cases hgoes : (dispatcherTurn s.machine s.db).2.isRunning with
          | true => exact .inl ⟨rfl, (isRunning_iff.1 hgoes).trans houtlook.symm⟩
          | false =>
            refine .inr ⟨rfl, houtlook, fun hsame => ?_⟩
            rw [isRunning_iff.2 hsame] at hgoes
            cases hgoes
        served :=
          { isOpen := by
              refine ⟨fun hstill => ?_, fun hgoes => ?_⟩
              · rw [hcommands] at hstill
                split at hstill
                · rename_i hgoes
                  exact houtlook'.trans hgoes
                · cases hstill
              · rw [hsink hgoes]
                exact hopen
            capacity := fun hgoes => by
              rw [hsink hgoes]
              exact h.served.capacity houtlook }
        dismissed := fun hphase hgoes => by
          -- It has been told to quit.
          obtain ⟨c, hc, hquit⟩ := h.dismissed hphase houtlook
          rw [(hgoesOn hgoes).1 c hc] at hquit
          cases hquit }

/-! ## What leaves the backends alone -/

/-- Queues that are left as they are take nothing. -/
theorem takings_of_routes {db db' : Database σ}
    (h : db'.dispatcher.routes = db.dispatcher.routes) : takings db db' = [] := by
  refine List.flatMap_eq_nil_iff.2 fun i _ => ?_
  rw [waiting, waiting, h, List.drop_length, List.map_nil]

theorem Sound.beside (h : s.Sound names fresh record) {m : Machine} {db : Database σ}
    (hrecord : m.record = s.machine.record) (hrunners : db.runners = s.db.runners)
    (hroutes : db.dispatcher.routes = s.db.dispatcher.routes)
    (houtlook : db.outlook = s.db.outlook) (hisOpen : db.isOpen = s.db.isOpen)
    (hopen : db.endpoint.commandSink.isOpen = s.db.endpoint.commandSink.isOpen)
    (hcapacity : db.endpoint.commandSink.capacity = s.db.endpoint.commandSink.capacity)
    (hqueue : ∀ c ∈ s.db.endpoint.commandSink.queue, c ∈ db.endpoint.commandSink.queue) :
    Sound names fresh record { s with machine := m, db := db } := by
  have htakes : s.Takes m db [] :=
    { record := hrecord
      runners := hrunners
      routes := fun j => ⟨[], by
        rw [hroutes]
        exact Option.map_id'.symm⟩
      isOpen := hisOpen
      ends := .inl ⟨rfl, houtlook⟩
      served :=
        { isOpen := by
            rw [hopen, houtlook]
            exact h.served.isOpen
          capacity := by
            rw [hcapacity, houtlook]
            exact h.served.capacity }
      dismissed := fun hphase hgoes => by
        rw [houtlook] at hgoes
        obtain ⟨c, hc, hquit⟩ := h.dismissed hphase hgoes
        exact ⟨c, hqueue c hc, hquit⟩ }
  have hsound := h.takes htakes
  rwa [takings_of_routes hroutes, List.append_nil, List.append_nil] at hsound

theorem sound_send (h : s.Sound names fresh record) (c : Command) :
    Sound names fresh record { s with db := s.db.send c } := by
  have hsink := commandSink_send s.db c
  rw [Sink.put_eq] at hsink
  split at hsink
  · refine h.beside rfl rfl rfl rfl rfl ?_ ?_ fun d hd => ?_
    · rw [hsink]
    · rw [hsink]
    · rw [hsink]
      exact List.mem_append_left _ hd
  · refine h.beside rfl rfl rfl rfl rfl ?_ ?_ fun d hd => ?_
    · rw [hsink]
    · rw [hsink]
    · rwa [hsink]

theorem sound_aside (h : s.Sound names fresh record) {m : Machine} {db : Database σ}
    (ha : s.Aside m db) : Sound names fresh record { s with machine := m, db := db } := by
  refine h.beside ha.record ha.runners ha.routes ha.outlook ha.isOpen ?_ ?_ fun c hc => ?_
  · rw [ha.commands]
  · rw [ha.commands]
  · rwa [ha.commands]

/-! ## Closing -/

/-- Closing comes to another phase. Those that count as waited for now are not at work, and have
failed unless they counted before. -/
theorem Sound.comes (h : s.Sound names fresh record) {phase : Phase}
    (hwithin : phase.Within names.length)
    (hwaited : ∀ j < phase.joined names.length, ∀ info b,
      s.db.runners[j]? ≠ some ⟨info, .running b⟩)
    (hstops : survivors (s.phase.joined names.length) s.log =
      survivors (phase.joined names.length) s.log)
    (hdestroys : survivors (s.phase.released names.length) s.log =
      survivors (phase.released names.length) s.log)
    (htold : ∀ j, phase = .joining j → ∀ info b, s.db.runners[j]? = some ⟨info, .running b⟩ →
      .quit ∈ acceptedAt j s.log)
    (hdismissed : phase = .finishing → s.db.outlook = .running →
      ∃ c ∈ s.db.endpoint.commandSink.queue, c.isQuit = true)
    (hafter : phase.AfterDispatcher → s.db.outlook ≠ .running)
    (hisOpen : s.phase ≠ .closed ↔ phase ≠ .closed) :
    Sound names fresh record { s with phase := phase } :=
  { h with
    within := hwithin
    waited := hwaited
    stops := h.stops.trans hstops
    destroys := h.destroys.trans hdestroys
    told := htold
    dismissed := hdismissed
    after := hafter
    isOpen := h.isOpen.trans hisOpen }

theorem sound_close (h : s.Sound names fresh record) (hphase : s.phase = .working) :
    Sound names fresh record { s with phase := .telling 0 } := by
  obtain ⟨m, db, phase, log⟩ := s
  cases hphase
  exact h.comes (Nat.zero_le _) h.waited rfl rfl nofun nofun False.elim (iff_of_true nofun nofun)

theorem sound_tell (h : s.Sound names fresh record) (hphase : s.phase = .telling i)
    (hi : i < s.db.runners.length)
    (hready : ∀ route, s.db.dispatcher.routes[i]? = some route → Ready route.commands) :
    (s.tell i).Sound names fresh record := by
  have htakes : s.Takes s.machine (s.db.modifyCommands i (·.put .quit)) [] :=
    { record := rfl
      runners := rfl
      routes := fun j => by
        simp only [modifyCommands, List.getElem?_modify]
        split
        · exact ⟨[.quit], rfl⟩
        · exact ⟨[], rfl⟩
      isOpen := rfl
      ends := .inl ⟨rfl, rfl⟩
      served := ⟨h.served.isOpen, h.served.capacity⟩
      dismissed := h.dismissed }
  obtain ⟨m, db, phase, log⟩ := s
  cases hphase
  have hsound := h.takes htakes
  rw [List.append_nil] at hsound
  rw [h.count] at hi
  refine hsound.comes hi hsound.waited rfl rfl (fun j hj info b hrunning => ?_) nofun False.elim
    (iff_of_true nofun nofun)
  obtain rfl : i = j := by
    cases hj
    rfl
  -- Its queue had room.
  obtain ⟨-, -, route, -, -, hroute, -, -⟩ := h.stands i _ (List.getElem?_eq_getElem hi)
  obtain ⟨info', state, route', hinfo, -, hroute', -, hstanding⟩ :=
    hsound.stands i _ (List.getElem?_eq_getElem hi)
  have hput : route' = { route with commands := route.commands.put .quit } := by
    simpa [modifyCommands, hroute] using hroute'.symm
  have hstate : state = .running b := by
    have hsame : some (⟨info', state⟩ : Runner σ) = some ⟨info, .running b⟩ :=
      hinfo.symm.trans hrunning
    cases hsame
    rfl
  rw [hput, hstate, Sink.put_eq] at hstanding
  cases hstanding with
  | running _ hopen hqueue _ _ _ =>
    have hisOpen : route.commands.isOpen = true := by split at hopen <;> exact hopen
    have haccepts : route.commands.accepts = true := by
      rw [Sink.accepts, hisOpen, hready route hroute hisOpen]
      rfl
    rw [if_pos haccepts] at hqueue
    show .quit ∈ acceptedAt i (log ++ takings db _)
    rw [hqueue]
    exact List.mem_append_right _ (List.mem_append_right _ (List.mem_singleton.2 rfl))

/-- A backend that closing goes past has failed, or has been dealt with. -/
theorem mem_or_failed {k : Nat} {log : List Happening} {positions : List Nat}
    (h : positions = survivors k log) {j : Nat} (hj : j < k) :
    j ∈ positions ∨ .failed j ∈ log := by
  by_cases hfailed : .failed j ∈ log
  · exact .inr hfailed
  · rw [h]
    exact .inl (mem_survivors.2 ⟨hj, hfailed⟩)

/-- A hook is called of a backend that has ended its work. -/
theorem stands_setState {log : List Happening} {db : Database σ} {j : Nat} {name : String}
    {info : BackendInfo} {b b' : σ} (h : Stands log db j name)
    (hi : db.runners[i]? = some ⟨info, .ended b⟩) {x : Happening} (hx : ∀ j, x.Leaves j) :
    Stands (log ++ [x]) (db.setState i (.ended b')) j name := by
  have hx (j : Nat) : ∀ y ∈ [x], y.Leaves j := List.forall_mem_singleton.2 (hx j)
  by_cases hj : j = i
  · subst hj
    obtain ⟨info', state, route, hinfo, hname, hr, hcapacity, hstanding⟩ := h
    cases hi.symm.trans hinfo
    refine ⟨info, .ended b', route, by simp [setState, hi], hname, hr, hcapacity, ?_⟩
    cases hstanding with
    | ended _ hclosed hdone hended => exact (Standing.ended b' hclosed hdone hended).append (hx j)
  · exact h.append (by simp [setState, Ne.symm hj]) rfl (hx j)

/-- A hook that is called does not set a backend to work. -/
theorem not_running_setState {db : Database σ} {j : Nat} {b : σ}
    (h : ∀ info b, db.runners[j]? ≠ some ⟨info, .running b⟩) (info : BackendInfo) (b' : σ) :
    (db.setState i (.ended b)).runners[j]? ≠ some ⟨info, .running b'⟩ := by
  intro hrunning
  simp only [setState, List.getElem?_modify] at hrunning
  obtain ⟨runner, hrunner, heq⟩ := Option.map_eq_some_iff.1 hrunning
  split at heq
  · cases heq
  · exact h info b' (hrunner.trans (congrArg some heq))

/-- A hook is called of a backend that has ended its work, and closing comes to the next phase. -/
theorem Sound.hooked (h : s.Sound names fresh record) {info : BackendInfo} {b : σ} (b' : σ)
    (hi : s.db.runners[i]? = some ⟨info, .ended b⟩) {x : Happening} {asked : Asked} {phase : Phase}
    (hleaves : ∀ j, x.Leaves j) (hnotFinished : x ≠ .finished) (hdue : Due names.length s.log x)
    (hrecorded : Happening.recorded fresh names x = some (info.name, asked))
    (hwithin : phase.Within names.length)
    (hwaited : ∀ j < phase.joined names.length, ∀ info b,
      s.db.runners[j]? ≠ some ⟨info, .running b⟩)
    (hstops : Database.stops (s.log ++ [x]) = survivors (phase.joined names.length) s.log)
    (hdestroys : Database.destroys (s.log ++ [x]) =
      survivors (phase.released names.length) s.log)
    (htold : ∀ j, phase ≠ .joining j) (hdismissed : phase ≠ .finishing)
    (hafter : phase.AfterDispatcher → s.db.outlook ≠ .running)
    (hisOpen : s.phase ≠ .closed ↔ phase ≠ .closed) :
    Sound names fresh record
      { machine := s.machine.note info.name asked
        db := s.db.setState i (.ended b')
        phase := phase
        log := s.log ++ [x] } := by
  have hsurvive (k : Nat) : survivors k (s.log ++ [x]) = survivors k s.log :=
    survivors_append fun j _ => (not_mem_of_leaves (List.forall_mem_singleton.2 (hleaves j))).2
  exact
    { count := (List.length_modify ..).trans h.count
      stands := fun j name hj => stands_setState (h.stands j name hj) hi hleaves
      record := by
        have hlast : [x].filterMap (Happening.recorded fresh names) = [(info.name, asked)] := by
          simp only [List.filterMap_cons, hrecorded, List.filterMap_nil]
        rw [List.filterMap_append, hlast, ← List.append_assoc]
        exact congrArg (· ++ [(info.name, asked)]) h.record
      orderly := h.orderly.snoc hdue
      created := fun j hj => List.mem_append_left _ (h.created j hj)
      finished := by
        rw [mem_snoc, or_iff_left hnotFinished.symm]
        exact h.finished
      served := ⟨h.served.isOpen, h.served.capacity⟩
      within := hwithin
      waited := fun j hj => not_running_setState (hwaited j hj)
      stops := hstops.trans (hsurvive _).symm
      destroys := hdestroys.trans (hsurvive _).symm
      told := fun j hj => absurd hj (htold j)
      dismissed := fun hphase => absurd hphase hdismissed
      after := hafter
      isOpen := h.isOpen.trans hisOpen }

theorem sound_join [Backend σ] (h : s.Sound names fresh record) (hphase : s.phase = .joining i)
    (hover : ∀ info b, s.db.runners[i]? ≠ some ⟨info, .running b⟩) :
    (s.join i).Sound names fresh record := by
  obtain ⟨m, db, phase, log⟩ := s
  cases hphase
  have hlt : i < names.length := h.within
  have hnext (j : Nat) (hj : j < i + 1) : ∀ info b, db.runners[j]? ≠ some ⟨info, .running b⟩ := by
    rcases Nat.lt_succ_iff_lt_or_eq.1 hj with hj | rfl
    · exact h.waited j hj
    · exact hover
  obtain ⟨info, state, route, hi, hname, -, -, hstanding⟩ :=
    h.stands i _ (List.getElem?_eq_getElem hlt)
  rw [join, hi]
  cases hstanding with
  | running b => exact absurd hi (hover info b)
  | failed _ hfailed =>
    exact h.comes hlt hnext (survivors_succ_of_failed hfailed).symm rfl nofun nofun False.elim
      (iff_of_true nofun nofun)
  | ended b _ hdone hended =>
    have hnotFailed : Happening.failed i ∉ log := h.orderly.not_failed hended
    have hnotStopped : Happening.stopped i ∉ log := by
      rw [← mem_stops, h.stops, mem_survivors]
      exact fun hmem => Nat.lt_irrefl i hmem.1
    have hdue : Due names.length log (.stopped i) := by
      refine ⟨hended, hdone, hnotStopped, fun j hj => ?_⟩
      rw [← mem_stops]
      exact mem_or_failed h.stops hj
    have hrecorded : Happening.recorded fresh names (.stopped i) = some (info.name, .stop) := by
      simp [Happening.recorded, List.getElem?_eq_getElem hlt, hname]
    refine h.hooked _ hi (fun _ => trivial) nofun hdue hrecorded hlt hnext ?_ ?_ nofun nofun
      False.elim (iff_of_true nofun nofun)
    · show stops (log ++ [.stopped i]) = survivors (i + 1) log
      rw [survivors_succ_of_not_failed hnotFailed, stops_append, h.stops]
      rfl
    · rw [destroys_append, h.destroys]
      rfl

theorem sound_dismiss (h : s.Sound names fresh record)
    (hphase : s.phase = .telling s.db.runners.length) (hready : Ready s.db.endpoint.commandSink) :
    s.dismiss.Sound names fresh record := by
  obtain ⟨m, db, phase, log⟩ := s
  obtain rfl : phase = .telling db.runners.length := hphase
  have hsound := sound_send h .quit
  have hwaited := hsound.waited
  rw [h.count] at hwaited
  refine hsound.comes trivial hwaited (congrArg (survivors · log) h.count) rfl nofun
    (fun _ hrunning => ?_) False.elim (iff_of_true nofun nofun)
  have hopen := h.served.isOpen.2 hrunning
  have haccepts : db.endpoint.commandSink.accepts = true := by
    rw [Sink.accepts, hopen, hready hopen]
    rfl
  refine ⟨.quit, ?_, rfl⟩
  rw [commandSink_send, Sink.put_eq, if_pos haccepts]
  exact List.mem_append_right _ (List.mem_singleton.2 rfl)

theorem sound_flush (h : s.Sound names fresh record) (hphase : s.phase = .finishing)
    (hover : s.db.outlook ≠ .running) : s.flush.Sound names fresh record := by
  obtain ⟨m, db, phase, log⟩ := s
  cases hphase
  have hwaited : Sound names fresh record ⟨m, db, .destroying 0, log⟩ :=
    h.comes (Nat.zero_le _) h.waited rfl rfl nofun nofun (fun _ => hover) (iff_of_true nofun nofun)
  rw [flush]
  split
  · exact hwaited.beside rfl rfl rfl rfl rfl rfl rfl fun _ hc => hc
  · exact hwaited

theorem sound_destroy [Backend σ] (h : s.Sound names fresh record)
    (hphase : s.phase = .destroying i) (hi : i < s.db.runners.length) :
    (s.destroy i).Sound names fresh record := by
  obtain ⟨m, db, phase, log⟩ := s
  cases hphase
  rw [h.count] at hi
  have hover : db.outlook ≠ .running := h.after trivial
  obtain ⟨info, state, route, hinfo, hname, -, -, hstanding⟩ :=
    h.stands i _ (List.getElem?_eq_getElem hi)
  rw [destroy, hinfo]
  cases hstanding with
  | running b => exact absurd hinfo (h.waited i hi info b)
  | failed _ hfailed =>
    exact h.comes hi h.waited rfl (survivors_succ_of_failed hfailed).symm nofun nofun
      (fun _ => hover) (iff_of_true nofun nofun)
  | ended b _ hdone hended =>
    have hnotFailed : Happening.failed i ∉ log := h.orderly.not_failed hended
    have hstopped (j : Nat) (hj : j < names.length) : .stopped j ∈ log ∨ .failed j ∈ log := by
      rw [← mem_stops]
      exact mem_or_failed h.stops hj
    have hnotDestroyed : Happening.destroyed i ∉ log := by
      rw [← mem_destroys, h.destroys, mem_survivors]
      exact fun hmem => Nat.lt_irrefl i hmem.1
    have hdue : Due names.length log (.destroyed i) := by
      refine ⟨(hstopped i hi).resolve_right hnotFailed, hstopped, h.finished.2 hover,
        hnotDestroyed, fun j hj => ?_⟩
      rw [← mem_destroys]
      exact mem_or_failed h.destroys hj
    have hrecorded :
        Happening.recorded fresh names (.destroyed i) = some (info.name, .destroy) := by
      simp [Happening.recorded, List.getElem?_eq_getElem hi, hname]
    refine h.hooked _ hinfo (fun _ => trivial) nofun hdue hrecorded hi h.waited ?_ ?_ nofun nofun
      (fun _ => hover) (iff_of_true nofun nofun)
    · rw [stops_append, h.stops]
      exact List.append_nil _
    · show destroys (log ++ [.destroyed i]) = survivors (i + 1) log
      rw [survivors_succ_of_not_failed hnotFailed, destroys_append, h.destroys]
      rfl

theorem sound_release (h : s.Sound names fresh record)
    (hphase : s.phase = .destroying s.db.runners.length) :
    s.release.Sound names fresh record := by
  have hover := h.waited
  have hstops := h.stops
  have hdestroys := h.destroys
  have hafter := h.after
  rw [hphase, h.count] at hover hstops hdestroys hafter
  exact { h with
    served := ⟨h.served.isOpen, h.served.capacity⟩
    within := trivial
    waited := hover
    stops := hstops
    destroys := hdestroys
    told := nofun
    dismissed := nofun
    after := hafter
    isOpen := iff_of_false nofun fun hne => hne rfl }

/-! ## Runs -/

theorem sound_step [Backend σ] (h : s.Sound names fresh record) (hstep : Step s s') :
    s'.Sound names fresh record := by
  cases hstep with
  | work i => exact sound_work h i
  | turn => exact sound_turn h
  | send c => exact sound_send h c
  | aside ha => exact sound_aside h ha
  | close hphase => exact sound_close h hphase
  | tell hphase hi hready => exact sound_tell h hphase hi hready
  | join hphase hover => exact sound_join h hphase hover
  | dismiss hphase hready => exact sound_dismiss h hphase hready
  | flush hphase hover => exact sound_flush h hphase hover
  | destroy hphase hi => exact sound_destroy h hphase hi
  | release hphase => exact sound_release h hphase

theorem sound_runs [Backend σ] (h : s.Sound names fresh record) (hruns : Runs s s') :
    s'.Sound names fresh record := by
  induction hruns with
  | refl => exact h
  | tail _ hstep ih => exact sound_step ih hstep

end Life

end Database

end Mediatheque
