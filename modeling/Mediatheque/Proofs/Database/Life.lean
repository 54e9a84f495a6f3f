import Mathlib.Logic.Relation
import Mediatheque.Proofs.Database.Happenings
import Mediatheque.Proofs.Database.Work
import Mediatheque.Proofs.Dispatcher.Reach

/-!
# The life of a database

The backends of a database work side by side, each in turns of its own, and so does the dispatcher.
Whoever closes the database goes from one backend to the next while the others work on, and waits
for each (`Life.Step`). Each backend stands with its queue as what has happened to it tells
(`Standing`), and closing has come as far as its phase says. This holds at any time (`Life.Sound`),
as every step keeps it (`Life.sound_step`).
-/

namespace Mediatheque

open Dispatcher

namespace Database

variable {σ : Type}

/-! ## Lives -/

/-- How far closing has come. -/
inductive Phase where
  /-- Nobody has begun to close. -/
  | working
  /-- The backend at a position is the next to be told to quit, or else the dispatcher is. -/
  | telling (i : Nat)
  /-- The backend has been told, and is waited for. -/
  | joining (i : Nat)
  /-- The dispatcher has been told, and is waited for. -/
  | finishing
  | destroying (i : Nat)
  | closed

/-- How many of the backends have been waited for. -/
def Phase.joined (count : Nat) : Phase → Nat
  | .working => 0
  | .telling i | .joining i => i
  | _ => count

/-- How many of the backends have been looked at for what they hold. -/
def Phase.released (count : Nat) : Phase → Nat
  | .destroying i => i
  | .closed => count
  | _ => 0

/-- The dispatcher has been waited for. -/
def Phase.AfterDispatcher : Phase → Prop
  | .destroying _ | .closed => True
  | _ => False

/-- The backend that is dealt with is one of a number of backends. -/
def Phase.Within (count : Nat) : Phase → Prop
  | .telling i | .destroying i => i ≤ count
  | .joining i => i < count
  | _ => True

/-- A database with its machine, how far closing it has come, and what has happened. -/
structure Life (σ : Type) where
  machine : Machine
  db : Database σ
  phase : Phase := .working
  log : List Happening

/-- The commands in the queue of the backend at a position. -/
def waiting (db : Database σ) (i : Nat) : List Command :=
  (db.dispatcher.routes[i]?).elim [] (·.commands.queue)

/-- What the queues of the backends have taken between two states. -/
def takings (db db' : Database σ) : List Happening :=
  (List.range db.runners.length).flatMap fun i =>
    ((db'.waiting i).drop (db.waiting i).length).map (.accepted i)

/-- How the work of the backend at a position has ended, if it has. -/
def endings (i : Nat) : RunnerState σ → List Happening
  | .running _ => []
  | .ended _ => [.ended i]
  | .failed => [.failed i]

/-- What has happened to the backend at a position between two states. -/
def turnings (i : Nat) (m m' : Machine) (db db' : Database σ) : List Happening :=
  match db.runners[i]?, db'.runners[i]? with
  | some { state := .running _, .. }, some { state := state, .. } =>
    (m'.record.drop m.record.length).filterMap (fun
      | (_, .handle c) => some (.handled i c)
      | _ => none) ++ endings i state
  | _, _ => []

namespace Life

/-- A turn of the backend at a position. -/
def work [Backend σ] (s : Life σ) (i : Nat) : Life σ :=
  let turned := runnerTurn i s.machine s.db
  { s with
    machine := turned.1
    db := turned.2
    log := s.log ++ turnings i s.machine turned.1 s.db turned.2 }

/-- A turn of the dispatcher. -/
def turn (s : Life σ) : Life σ :=
  let turned := dispatcherTurn s.machine s.db
  { s with
    machine := turned.1
    db := turned.2
    log := s.log ++ takings s.db turned.2 ++
      if s.db.isRunning && !turned.2.isRunning then [.finished] else [] }

/-- The backend at a position is told to quit. -/
def tell (s : Life σ) (i : Nat) : Life σ :=
  let db := s.db.modifyCommands i (·.put .quit)
  { s with
    db := db
    phase := .joining i
    log := s.log ++ takings s.db db }

/-- The backend at a position is stopped, unless it has failed. -/
def join [Backend σ] (s : Life σ) (i : Nat) : Life σ :=
  match s.db.runners[i]? with
  | some { info, state := .ended b } =>
    { machine := s.machine.note info.name .stop
      db := s.db.setState i (.ended (Backend.stop b))
      phase := .telling (i + 1)
      log := s.log ++ [.stopped i] }
  | _ => { s with phase := .telling (i + 1) }

/-- The dispatcher is told to quit. -/
def dismiss (s : Life σ) : Life σ := { s with db := s.db.send .quit, phase := .finishing }

/-- The pending settings are written, unless the dispatcher has met a fault. -/
def flush (s : Life σ) : Life σ :=
  if s.db.outlook = .quit then
    let d := { s.db.dispatcher with disk := s.machine.disk }.flush
    { s with
      machine := { s.machine with disk := d.disk }
      db := { s.db with dispatcher := d }
      phase := .destroying 0 }
  else { s with phase := .destroying 0 }

/-- The backend at a position gives up what it holds, unless it has failed. -/
def destroy [Backend σ] (s : Life σ) (i : Nat) : Life σ :=
  match s.db.runners[i]? with
  | some { info, state := .ended b } =>
    { machine := s.machine.note info.name .destroy
      db := s.db.setState i (.ended (Backend.destroy b))
      phase := .destroying (i + 1)
      log := s.log ++ [.destroyed i] }
  | _ => { s with phase := .destroying (i + 1) }

/-- The directory is free again. -/
def release (s : Life σ) : Life σ :=
  { s with
    machine := s.machine.unlock s.db.dir
    db := { s.db with isOpen := false }
    phase := .closed }

/-- The machine and the database have changed in what has to do neither with the work of the
backends nor with that of the dispatcher. -/
structure Aside (s : Life σ) (m : Machine) (db : Database σ) : Prop where
  record : m.record = s.machine.record
  runners : db.runners = s.db.runners
  routes : db.dispatcher.routes = s.db.dispatcher.routes
  outlook : db.outlook = s.db.outlook
  commands : db.endpoint.commandSink = s.db.endpoint.commandSink
  isOpen : db.isOpen = s.db.isOpen

/-- Whoever puts a message into a queue need not wait: there is room, or nobody takes from it. -/
def Ready {α : Type} (s : Sink α) : Prop := s.isOpen = true → s.isFull = false

/-- What may happen next. -/
inductive Step [Backend σ] : Life σ → Life σ → Prop where
  | work (s : Life σ) (i : Nat) : Step s (s.work i)
  | turn (s : Life σ) : Step s s.turn
  /-- Clients send commands. -/
  | send (s : Life σ) (c : Command) : Step s { s with db := s.db.send c }
  | aside (s : Life σ) {m : Machine} {db : Database σ} (h : s.Aside m db) :
    Step s { s with machine := m, db := db }
  | close (s : Life σ) (h : s.phase = .working) : Step s { s with phase := .telling 0 }
  | tell (s : Life σ) {i : Nat} (h : s.phase = .telling i) (hi : i < s.db.runners.length)
    (hready : ∀ route, s.db.dispatcher.routes[i]? = some route → Ready route.commands) :
    Step s (s.tell i)
  | join (s : Life σ) {i : Nat} (h : s.phase = .joining i)
    (hover : ∀ info b, s.db.runners[i]? ≠ some ⟨info, .running b⟩) : Step s (s.join i)
  | dismiss (s : Life σ) (h : s.phase = .telling s.db.runners.length)
    (hready : Ready s.db.endpoint.commandSink) : Step s s.dismiss
  | flush (s : Life σ) (h : s.phase = .finishing) (hover : s.db.outlook ≠ .running) :
    Step s s.flush
  | destroy (s : Life σ) {i : Nat} (h : s.phase = .destroying i) (hi : i < s.db.runners.length) :
    Step s (s.destroy i)
  | release (s : Life σ) (h : s.phase = .destroying s.db.runners.length) : Step s s.release

/-- What may come of some life. -/
abbrev Runs [Backend σ] : Life σ → Life σ → Prop := Relation.ReflTransGen Step

end Life

/-! ## Standing -/

/-- How a backend stands with its queue, by what has happened to it. -/
inductive Standing (i : Nat) (log : List Happening) (commands : Sink Command) :
    RunnerState σ → Prop where
  | running (b : σ) (hopen : commands.isOpen = true)
    (hqueue : acceptedAt i log = handledAt i log ++ commands.queue)
    (hhandled : ∀ c ∈ handledAt i log, c.isQuit = false) (hended : .ended i ∉ log)
    (hfailed : .failed i ∉ log) : Standing i log commands (.running b)
  | ended (b : σ) (hclosed : commands.isOpen = false) (hdone : Done log i)
    (hended : .ended i ∈ log) : Standing i log commands (.ended b)
  | failed (hclosed : commands.isOpen = false) (hfailed : .failed i ∈ log) :
    Standing i log commands .failed

/-- The backend at a position has its name, its route, and stands as has happened to it. -/
def Stands (log : List Happening) (db : Database σ) (i : Nat) (name : String) : Prop :=
  ∃ info state route, db.runners[i]? = some ⟨info, state⟩ ∧ info.name = name ∧
    db.dispatcher.routes[i]? = some route ∧ 0 < route.commands.capacity ∧
    Standing i log route.commands state

/-- A happening has nothing to do with the work of a backend. -/
def Happening.Leaves (i : Nat) : Happening → Prop
  | .accepted j _ | .handled j _ | .ended j | .failed j => j ≠ i
  | _ => True

variable {i j : Nat} {log more : List Happening} {name : String} {commands : Sink Command}
  {state : RunnerState σ} {db db' : Database σ}

theorem acceptedAt_of_leaves (h : ∀ x ∈ more, x.Leaves i) : acceptedAt i more = [] := by
  refine List.filterMap_eq_nil_iff.2 fun x hx => ?_
  cases x with
  | accepted j c => exact if_neg (h _ hx)
  | _ => rfl

theorem handledAt_of_leaves (h : ∀ x ∈ more, x.Leaves i) : handledAt i more = [] := by
  refine List.filterMap_eq_nil_iff.2 fun x hx => ?_
  cases x with
  | handled j c => exact if_neg (h _ hx)
  | _ => rfl

theorem not_mem_of_leaves (h : ∀ x ∈ more, x.Leaves i) :
    .ended i ∉ more ∧ .failed i ∉ more :=
  ⟨fun hmem => h _ hmem rfl, fun hmem => h _ hmem rfl⟩

theorem Standing.append (h : Standing i log commands state) (hmore : ∀ x ∈ more, x.Leaves i) :
    Standing i (log ++ more) commands state := by
  have haccepted : acceptedAt i (log ++ more) = acceptedAt i log := by
    rw [acceptedAt_append, acceptedAt_of_leaves hmore, List.append_nil]
  have hhandled : handledAt i (log ++ more) = handledAt i log := by
    rw [handledAt_append, handledAt_of_leaves hmore, List.append_nil]
  obtain ⟨hnotEnded, hnotFailed⟩ := not_mem_of_leaves hmore
  cases h with
  | running b hopen hqueue hbefore hended hfailed =>
    refine .running b hopen ?_ ?_ ?_ ?_
    · rw [haccepted, hhandled, hqueue]
    · rw [hhandled]
      exact hbefore
    · exact fun hmem => (List.mem_append.1 hmem).elim hended hnotEnded
    · exact fun hmem => (List.mem_append.1 hmem).elim hfailed hnotFailed
  | ended b hclosed hdone hended =>
    refine .ended b hclosed ?_ (List.mem_append_left _ hended)
    rw [Done, haccepted, hhandled]
    exact hdone
  | failed hclosed hfailed => exact .failed hclosed (List.mem_append_left _ hfailed)

theorem Stands.append (h : Stands log db i name) (hrunner : db'.runners[i]? = db.runners[i]?)
    (hroute : db'.dispatcher.routes[i]? = db.dispatcher.routes[i]?)
    (hmore : ∀ x ∈ more, x.Leaves i) : Stands (log ++ more) db' i name := by
  obtain ⟨info, state, route, hi, hname, hr, hcapacity, hstanding⟩ := h
  exact ⟨info, state, route, hrunner.trans hi, hname, hroute.trans hr, hcapacity,
    hstanding.append hmore⟩

/-! ### Commands that are taken -/

/-- Of the messages that are put into a sink its queue takes some, and none if it is closed. -/
theorem exists_foldl_put_eq {α : Type} (messages : List α) (s : Sink α) :
    ∃ taken, messages.foldl Sink.put s = { s with queue := s.queue ++ taken } ∧
      (taken ≠ [] → s.isOpen = true) := by
  induction messages generalizing s with
  | nil => exact ⟨[], by rw [List.append_nil]; rfl, fun h => absurd rfl h⟩
  | cons m rest ih =>
    rw [List.foldl_cons, Sink.put_eq]
    cases haccepts : s.accepts with
    | true =>
      obtain ⟨taken, heq, -⟩ := ih { s with queue := s.queue ++ [m] }
      refine ⟨m :: taken, ?_, fun _ => (Sink.accepts_eq_true.1 haccepts).1⟩
      rw [if_pos rfl, heq]
      simp only [List.append_assoc, List.singleton_append]
    | false => exact ih s

theorem commands_foldl_deliver (cs : List Command) (r : Route) :
    (cs.foldl Route.deliver r).commands = cs.foldl Sink.put r.commands := by
  induction cs generalizing r with
  | nil => rfl
  | cons c rest ih => exact ih (r.deliver c)

theorem acceptedAt_map_accepted (cs : List Command) :
    acceptedAt i (cs.map (.accepted j)) = if j = i then cs else [] := by
  rw [acceptedAt, List.filterMap_map]
  split
  · rename_i hj
    rw [show ((Happening.accepted? i ·) ∘ Happening.accepted j) = some from
      funext fun c => if_pos hj]
    exact List.filterMap_some
  · rename_i hj
    exact List.filterMap_eq_nil_iff.2 fun c _ => if_neg hj

/-- What the queues of some backends take, told of one after the other. -/
theorem acceptedAt_flatMap (f : Nat → List Command) (count : Nat) :
    acceptedAt i ((List.range count).flatMap fun j => (f j).map (.accepted j)) =
      if i < count then f i else [] := by
  induction count with
  | zero => rfl
  | succ n ih =>
    rw [List.range_succ, List.flatMap_append, acceptedAt_append, ih, List.flatMap_singleton,
      acceptedAt_map_accepted]
    rcases Nat.lt_trichotomy i n with hlt | rfl | hgt
    · rw [if_pos hlt, if_neg (Nat.ne_of_gt hlt), if_pos (Nat.lt_succ_of_lt hlt), List.append_nil]
    · rw [if_neg (Nat.lt_irrefl i), if_pos rfl, if_pos (Nat.lt_succ_self i), List.nil_append]
    · rw [if_neg (by omega), if_neg (by omega), if_neg (by omega), List.append_nil]

theorem acceptedAt_takings (hi : i < db.runners.length) :
    acceptedAt i (takings db db') = (db'.waiting i).drop (db.waiting i).length := by
  rw [takings, acceptedAt_flatMap, if_pos hi]

theorem exists_of_mem_takings {x : Happening} (hx : x ∈ takings db db') :
    ∃ i c, x = .accepted i c ∧ i < db.runners.length ∧
      c ∈ (db'.waiting i).drop (db.waiting i).length := by
  obtain ⟨i, hi, hmem⟩ := List.mem_flatMap.1 hx
  obtain ⟨c, hc, rfl⟩ := List.mem_map.1 hmem
  exact ⟨i, c, rfl, List.mem_range.1 hi, hc⟩

/-- What does not tell of commands that are taken has nothing of them. -/
theorem filterMap_takings {α : Type} {f : Happening → Option α}
    (hf : ∀ i c, f (.accepted i c) = none) : (takings db db').filterMap f = [] := by
  refine List.filterMap_eq_nil_iff.2 fun x hx => ?_
  obtain ⟨i, c, rfl, -⟩ := exists_of_mem_takings hx
  exact hf i c

/-- A backend stands as before when its queue has taken some commands more. -/
theorem Stands.takes (h : Stands log db i name) (hi : i < db.runners.length)
    (hrunner : db'.runners[i]? = db.runners[i]?) {cs : List Command}
    (hroute : db'.dispatcher.routes[i]? =
      db.dispatcher.routes[i]?.map fun r => cs.foldl Route.deliver r) :
    Stands (log ++ takings db db') db' i name ∧
      ∀ c, .accepted i c ∈ takings db db' → .ended i ∉ log ∧ .failed i ∉ log := by
  obtain ⟨info, state, route, hinfo, hname, hr, hcapacity, hstanding⟩ := h
  obtain ⟨taken, htaken, hopen⟩ := exists_foldl_put_eq cs route.commands
  rw [← commands_foldl_deliver] at htaken
  rw [hr, Option.map_some] at hroute
  have hnew : acceptedAt i (takings db db') = taken := by
    rw [acceptedAt_takings hi, waiting, waiting, hroute, hr]
    simp only [Option.elim, htaken]
    exact List.drop_left
  have hnothing : handledAt i (takings db db') = [] := filterMap_takings fun _ _ => rfl
  have hhandled : handledAt i (log ++ takings db db') = handledAt i log := by
    rw [handledAt_append, hnothing, List.append_nil]
  have hnot {x : Happening} (hx : ∀ j c, x ≠ .accepted j c) (hlog : x ∉ log) :
      x ∉ log ++ takings db db' := by
    intro hmem
    rcases List.mem_append.1 hmem with hmem | hmem
    · exact hlog hmem
    · obtain ⟨j, c, rfl, -⟩ := exists_of_mem_takings hmem
      exact hx j c rfl
  refine ⟨⟨info, state, _, hrunner.trans hinfo, hname, hroute, ?_, ?_⟩, fun c hc => ?_⟩
  · rw [htaken]
    exact hcapacity
  · rw [htaken]
    cases hstanding with
    | running b hisOpen hqueue hbefore hended hfailed =>
      refine .running b hisOpen ?_ ?_ (hnot nofun hended) (hnot nofun hfailed)
      · rw [acceptedAt_append, hnew, hhandled, hqueue, List.append_assoc]
      · rw [hhandled]
        exact hbefore
    | ended b hclosed hdone hended =>
      have hnone : taken = [] := by
        by_contra hne
        rw [hopen hne] at hclosed
        cases hclosed
      refine .ended b hclosed ?_ (List.mem_append_left _ hended)
      rw [Done, acceptedAt_append, hnew, hnone, hhandled, List.append_nil]
      exact hdone
    | failed hclosed hfailed => exact .failed hclosed (List.mem_append_left _ hfailed)
  · have htakes : c ∈ taken := by
      rw [← hnew]
      exact List.mem_filterMap.2 ⟨_, hc, if_pos rfl⟩
    have hisOpen := hopen (List.ne_nil_of_mem htakes)
    cases hstanding with
    | running b _ _ _ hended hfailed => exact ⟨hended, hfailed⟩
    | ended b hclosed => cases hisOpen.symm.trans hclosed
    | failed hclosed => cases hisOpen.symm.trans hclosed

end Database

end Mediatheque
