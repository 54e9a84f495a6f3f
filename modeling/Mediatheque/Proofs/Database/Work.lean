import Mediatheque.Proofs.Database.Turns

/-!
# What comes of a turn

A backend handles the commands in its queue one after the other, up to the first that tells it to
quit, unless it fails before that (`passUpTo_work`). So a turn comes to one of three ends
(`Outcome`): the backend goes on with an empty queue, it has ended as it was told, or it has
failed (`runnerTurn_of_running`). Of all else a turn changes no more than what backends share. A
dispatcher goes on with an empty queue too, if nothing in it told it to quit
(`nextTurn_of_goesOn`).
-/

namespace Mediatheque

open Dispatcher

namespace Database

variable {σ : Type}

/-- What comes of a turn of a backend with a queue of commands: what it has handled of them, its
state, and its queue. -/
inductive Outcome (waiting : Sink Command) :
    List Command → RunnerState σ → Sink Command → Prop where
  | goesOn (b : σ) (h : ∀ c ∈ waiting.queue, c.isQuit = false) :
    Outcome waiting waiting.queue (.running b) { waiting with queue := [] }
  | ends (b : σ) (h : ∃ c ∈ waiting.queue, c.isQuit = true) :
    Outcome waiting (beforeQuit waiting.queue) (.ended b) waiting.close
  | fails {handled : List Command} (h : handled <+: beforeQuit waiting.queue) :
    Outcome waiting handled .failed waiting.close

/-! ## Passes -/

section

variable [Backend σ] (dir : String) (now : Nat) (name : String)

/-- A backend that is at work either takes a command over, or it fails. -/
theorem handle_cases {w : Work σ} (h : w.backend.isSome) (c : Command) :
    (∃ w', w.handle dir now name c = (w', [], .go) ∧ w'.backend.isSome ∧
        w'.handled = w.handled ++ [c]) ∨
      ∃ w', w.handle dir now name c = (w', [], .stop) ∧ w'.backend = none ∧
        w'.handled = w.handled := by
  obtain ⟨b, hb⟩ := Option.isSome_iff_exists.1 h
  rw [Work.handle, hb]
  dsimp only
  cases hnext : (w.after name (Backend.handle b c ⟨dir, w.cache, now⟩)).backend with
  | some next => exact .inl ⟨_, rfl, rfl, rfl⟩
  | none => exact .inr ⟨_, rfl, hnext, rfl⟩

/-- A pass handles all commands before one to quit, or ends at one on which the backend fails. -/
theorem passUpTo_work (queue : List Command) (capacity : Nat) (isOpen : Bool) {w : Work σ}
    (h : w.backend.isSome) :
    ∃ handled pass w' s',
      Sink.passUpTo (Work.handle dir now name) queue.length w ⟨capacity, queue, isOpen⟩ =
        (pass, w', s') ∧
      w'.handled = w.handled ++ handled ∧ s'.capacity = capacity ∧
      (w'.backend.isSome ∧ handled = beforeQuit queue ∧
          pass.keepRunning = !queue.any BusMessage.isQuit ∧
          s' = ⟨capacity, behindQuit queue, isOpen⟩ ∨
        w'.backend = none ∧ handled <+: beforeQuit queue) := by
  induction queue generalizing w with
  | nil => exact ⟨[], ⟨0, true⟩, w, _, rfl, (List.append_nil _).symm, rfl, .inl ⟨h, rfl, rfl, rfl⟩⟩
  | cons c queue ih =>
    rw [List.length_cons, Sink.passUpTo, beforeQuit_cons, behindQuit_cons, List.any_cons]
    simp only [Sink.next?]
    cases BusMessage.isQuit c with
    | true =>
      exact ⟨[], ⟨1, false⟩, w, _, rfl, (List.append_nil _).symm, rfl, .inl ⟨h, rfl, rfl, rfl⟩⟩
    | false =>
      simp only [Bool.false_eq_true, if_false, Bool.false_or]
      rcases handle_cases dir now name h c with
        ⟨w₁, hw₁, hsome, hhandled⟩ | ⟨w₁, hw₁, hnone, hhandled⟩
      · obtain ⟨handled, pass, w', s', heq, hall, hcapacity, hend⟩ := ih hsome
        rw [hw₁]
        simp only [List.foldl_nil, heq]
        refine ⟨c :: handled, _, w', s', rfl, ?_, hcapacity, hend.imp ?_ ?_⟩
        · rw [hall, hhandled, List.append_assoc]
          rfl
        · rintro ⟨hsome', rfl, hgoes, hs'⟩
          exact ⟨hsome', rfl, hgoes, hs'⟩
        · rintro ⟨hnone', hfirst⟩
          exact ⟨hnone', List.cons_prefix_cons.2 ⟨rfl, hfirst⟩⟩
      · rw [hw₁]
        exact ⟨[], _, w₁, _, rfl, hhandled.trans (List.append_nil _).symm, rfl,
          .inr ⟨hnone, List.nil_prefix⟩⟩

end

/-! ## Turns -/

theorem foldl_note (name : String) (handled : List Command) (m : Machine) :
    handled.foldl (fun m c => m.note name (.handle c)) m =
      { m with record := m.record ++ handled.map fun c => (name, .handle c) } := by
  induction handled generalizing m with
  | nil => rw [List.foldl_nil, List.map_nil, List.append_nil]
  | cons c rest ih =>
    rw [List.foldl_cons, ih, Machine.note, List.map_cons, List.append_assoc]
    rfl

theorem any_isQuit_eq_true {queue : List Command} :
    queue.any BusMessage.isQuit = true ↔ ∃ c ∈ queue, c.isQuit = true := List.any_eq_true

theorem any_isQuit_eq_false {queue : List Command} :
    queue.any BusMessage.isQuit = false ↔ ∀ c ∈ queue, c.isQuit = false := by
  rw [List.any_eq_false]
  exact forall₂_congr fun c _ => iff_of_eq (Bool.not_eq_true _)

/-- A turn of a backend that is at work. -/
theorem runnerTurn_of_running [Backend σ] {i : Nat} (m : Machine) {db : Database σ}
    {info : BackendInfo} {b : σ} {route : Route}
    (hrunner : db.runners[i]? = some ⟨info, .running b⟩)
    (hroute : db.dispatcher.routes[i]? = some route) :
    ∃ handled state commands cache reports, Outcome route.commands handled state commands ∧
      runnerTurn i m db =
        ({ m with record := m.record ++ handled.map fun c => (info.name, .handle c) },
          ({ db with cache := cache, reports := reports }.setState i state).modifyCommands i
            fun _ => commands) := by
  rw [runnerTurn, hrunner, hroute]
  dsimp only
  generalize hwork : Work.after _ info.name _ = work
  have hnothing : work.handled = [] := by
    rw [← hwork]
    rfl
  cases hsome : work.backend.isSome with
  | false =>
    have hnone : work.backend = none :=
      Option.isNone_iff_eq_none.1 (Option.isSome_eq_false_iff.1 hsome)
    refine ⟨[], .failed, route.commands.close, work.cache, work.reports, .fails List.nil_prefix, ?_⟩
    rw [if_neg Bool.false_ne_true]
    simp only [hnone, hnothing, List.foldl_nil, List.map_nil, List.append_nil]
  | true =>
    rw [if_pos rfl]
    obtain ⟨handled, pass, worked, commands, hpass, hall, hcapacity, hend⟩ :=
      passUpTo_work db.dir m.now info.name route.commands.queue route.commands.capacity
        route.commands.isOpen hsome
    rw [hnothing, List.nil_append] at hall
    have hpassed : route.commands.pass (Work.handle db.dir m.now info.name) work =
        (pass, worked, commands) := hpass
    rw [hpassed]
    dsimp only
    rw [hall, foldl_note]
    rcases hend with ⟨hstill, rfl, hgoes, rfl⟩ | ⟨hnone, hfirst⟩
    · obtain ⟨b', hb'⟩ := Option.isSome_iff_exists.1 hstill
      rw [hb']
      dsimp only
      rw [hgoes]
      cases hquit : route.commands.queue.any BusMessage.isQuit with
      | false =>
        have hnoquit := any_isQuit_eq_false.1 hquit
        refine ⟨route.commands.queue, .running b', { route.commands with queue := [] },
          worked.cache, worked.reports, .goesOn b' hnoquit, ?_⟩
        rw [beforeQuit_eq_self hnoquit, behindQuit_eq_nil hnoquit]
        rfl
      | true =>
        exact ⟨_, .ended b', route.commands.close, worked.cache, worked.reports,
          .ends b' (any_isQuit_eq_true.1 hquit), rfl⟩
    · have hclosed : commands.close = route.commands.close := by
        rw [Sink.close, Sink.close, hcapacity]
      refine ⟨handled, .failed, route.commands.close, worked.cache, worked.reports,
        .fails hfirst, ?_⟩
      rw [hnone, ← hclosed]

/-- A turn of a backend that is not at work does nothing. -/
theorem runnerTurn_of_not_running [Backend σ] {i : Nat} (m : Machine) {db : Database σ}
    (h : ∀ info b, db.runners[i]? ≠ some ⟨info, .running b⟩) : runnerTurn i m db = (m, db) := by
  rw [runnerTurn]
  split
  · rename_i info b route hrunner hroute
    exact absurd hrunner (h info b)
  · rfl

/-! ## The queue of the dispatcher -/

/-- A dispatcher goes on after a turn if no command told it to quit, and its queue is empty then. -/
theorem nextTurn_of_goesOn {m : Machine} {db : Database σ}
    (h : (nextTurn m db).outlook = .running) :
    (∀ c ∈ db.endpoint.commandSink.queue, c.isQuit = false) ∧
      (nextTurn m db).commands = { db.endpoint.commandSink with queue := [] } := by
  rw [nextTurn] at h ⊢
  rcases turn_cases { db.dispatcher with disk := m.disk, nextToken := db.endpoint.nextToken } m.now
      db.endpoint.commandSink db.reports with ⟨d, -, hturn⟩ | ⟨_, _, -, -, -, -, hfaulted⟩
  · rw [hturn] at h ⊢
    dsimp only at h
    split at h
    · cases h
    · rename_i hnone
      have hnoquit := any_isQuit_eq_false.1 (Bool.eq_false_iff.2 hnone)
      exact ⟨hnoquit, by rw [behindQuit_eq_nil hnoquit]⟩
  · cases h.symm.trans hfaulted

theorem isRunning_iff {db : Database σ} : db.isRunning = true ↔ db.outlook = .running :=
  decide_eq_true_iff

theorem withCommandSink_commandSink (e : Endpoint) : e.withCommandSink e.commandSink = e := by
  by_cases hlt : e.commands < e.commandBus.sinks.length
  · rw [Endpoint.withCommandSink, Endpoint.commandSink, Bus.setSink_sink hlt]
  · rw [Endpoint.withCommandSink, Bus.setSink, List.set_eq_of_length_le (Nat.not_lt.1 hlt)]

/-- A command that is refused is dropped. -/
theorem offer_snd (m : Machine) (db : Database σ) (c : Command) :
    (match db.endpoint.commandSink.offer c with
      | .ok sink => ((.ok () : Except BusError Unit), m,
        { db with endpoint := db.endpoint.withCommandSink sink })
      | .error e => (.error e, m, db)).2 = (m, db.send c) := by
  rw [send, Endpoint.send, Sink.put]
  cases db.endpoint.commandSink.offer c with
  | ok sink => rfl
  | error e =>
    dsimp only
    rw [withCommandSink_commandSink]

/-- A command that is not to be lost is sent when there is room for it. -/
theorem sendBlocking_snd [Backend σ] (m : Machine) (db : Database σ) (c : Command) :
    (db.sendBlocking m c).2 =
      if db.endpoint.commandSink.isFull then
        ((dispatcherTurn m db).1, (dispatcherTurn m db).2.send c)
      else (m, db.send c) := by
  rw [sendBlocking]
  cases db.endpoint.commandSink.isFull with
  | false => exact offer_snd m db c
  | true => exact offer_snd _ _ c

/-- A command that is sent comes behind those that wait. -/
theorem commandSink_send (db : Database σ) (c : Command) :
    (db.send c).endpoint.commandSink = db.endpoint.commandSink.put c := by
  cases hopen : db.endpoint.commandSink.isOpen with
  | true => exact commandSink_withCommandSink hopen _
  | false =>
    have hput : db.endpoint.commandSink.put c = db.endpoint.commandSink := by
      rw [Sink.put_eq, Sink.accepts, hopen, Bool.false_and, if_neg Bool.false_ne_true]
    rw [send, Endpoint.send, hput, withCommandSink_commandSink]

end Database

end Mediatheque
