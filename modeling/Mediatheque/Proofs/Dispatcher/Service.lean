import Mediatheque.Proofs.Disk.Clearing
import Mediatheque.Proofs.Dispatcher.Faults
import Mediatheque.Proofs.Dispatcher.Turn

/-!
# The work of the dispatcher to its end

The dispatcher takes one turn after the other until it is told to quit or meets a fault, and its
sinks take what is sent to it meanwhile (`Service`, `next`). Each turn handles what the sinks
hold, so as long as the dispatcher is at work nothing waits between the turns, and when it quits
it has handled all commands before the one to quit and all reports, each once and in order
(`done_or_broken_serve`). Nothing but reports that cannot be handled keeps it from that, and the
settings that it has accepted are in the settings file after a last write (`shutdown_iff`).
-/

namespace Mediatheque

namespace Dispatcher

/-! ## Turn after turn -/

/-- A dispatcher at work with its sinks, and all messages that these have accepted. -/
structure Service where
  dispatcher : Dispatcher
  commands : Sink Command := .new
  reports : Sink BackendMessage := .new
  outlook : Outlook := .running
  sent : List Command := []
  told : List BackendMessage := []

/-- What comes in for a turn: the commands until its pass over commands begins, the reports until
its pass over reports begins. What comes in later waits for the next turn. Meanwhile clients take
events and tokens, and backends take commands off their queues. -/
structure Arrivals where
  commands : List Command
  reports : List BackendMessage
  now : Nat
  token : UInt64
  take : Nat → Sink Command → Sink Command

section Offers

variable {α : Type}

/-- Offers messages to a sink, and tells which of them it accepts. -/
def offerAll (s : Sink α) : List α → List α × Sink α
  | [] => ([], s)
  | m :: rest =>
    match s.offer m with
    | .ok taken =>
      let (accepted, s) := offerAll taken rest
      (m :: accepted, s)
    | .error _ => offerAll s rest

/-- Messages that are accepted wait behind those that did before. -/
theorem queue_offerAll (s : Sink α) (messages : List α) :
    (offerAll s messages).2.queue = s.queue ++ (offerAll s messages).1 := by
  induction messages generalizing s with
  | nil => exact (List.append_nil _).symm
  | cons m rest ih =>
    rw [offerAll]
    cases hm : s.offer m with
    | error e => exact ih s
    | ok taken =>
      have htaken : taken.queue = s.queue ++ [m] := by
        rw [Sink.offer] at hm
        split at hm
        · cases hm
        · split at hm
          · cases hm
          · cases hm
            rfl
      simp only [ih taken, htaken, List.append_assoc, List.singleton_append]

end Offers

namespace Service

/-- A dispatcher that begins to work. -/
def new (d : Dispatcher) : Service := { dispatcher := d }

/-- A turn with what comes in for it. -/
def next (s : Service) (a : Arrivals) : Service :=
  match s.outlook with
  | .running =>
    let (sent, commands) := offerAll s.commands a.commands
    let (told, reports) := offerAll s.reports a.reports
    let turn := (s.dispatcher.elapse a.token a.take).turn a.now commands reports
    { dispatcher := turn.dispatcher
      commands := turn.commands
      reports := turn.reports
      outlook := turn.outlook
      sent := s.sent ++ sent
      told := s.told ++ told }
  | _ => s

/-- Turns one after the other. -/
def serve (s : Service) (arrivals : List Arrivals) : Service := arrivals.foldl next s

/-! ## What has been done -/

/-- All is done that was sent before a command to quit, and all that was reported. -/
structure Done (start : Dispatcher) (s : Service) (duties : List Duty) : Prop where
  attended : start.attendAll duties = .ok s.dispatcher
  commands : commandsOf (inputsOf duties) = beforeQuit s.sent
  reports : reportsOf (inputsOf duties) = s.told
  outlook : s.outlook = if s.sent.any BusMessage.isQuit then .quit else .running
  /-- Nothing waits for the next turn. -/
  idle : s.outlook = .running → s.commands.queue = [] ∧ s.reports.queue = []

/-- The first of it is done, and then comes something that cannot be handled. -/
structure Broken (start : Dispatcher) (s : Service) (duties : List Duty) (i : Input) : Prop where
  attended : start.attendAll duties = .ok s.dispatcher
  fault : ∀ d, s.dispatcher.handle i ≠ .ok d
  commands : commandsOf (inputsOf duties ++ [i]) <+: beforeQuit s.sent
  reports : reportsOf (inputsOf duties ++ [i]) <+: s.told
  outlook : s.outlook = .faulted

end Service

open Service

variable {start : Dispatcher} {s : Service}

theorem inputsOf_append_meanwhile (duties rest : List Duty) (token : UInt64)
    (take : Nat → Sink Command → Sink Command) :
    inputsOf (duties ++ .meanwhile token take :: rest) = inputsOf duties ++ inputsOf rest :=
  List.filterMap_append

theorem eq_false_of_running {told : Bool}
    (h : (if told then Outlook.quit else .running) = .running) : told = false := by
  cases told with
  | false => rfl
  | true => cases h

/-- A turn leaves nothing undone, unless it is broken off. -/
theorem done_or_broken_next {duties : List Duty} (h : Done start s duties) (a : Arrivals) :
    (∃ duties, Done start (s.next a) duties) ∨ ∃ duties i, Broken start (s.next a) duties i := by
  cases hs : s.outlook with
  | quit =>
    refine .inl ⟨duties, ?_⟩
    rw [next, hs]
    exact h
  | faulted =>
    refine .inl ⟨duties, ?_⟩
    rw [next, hs]
    exact h
  | running =>
    obtain ⟨hcommands, hreports⟩ := h.idle hs
    have hquit := eq_false_of_running (h.outlook.symm.trans hs)
    have hnone : ∀ c ∈ s.sent, BusMessage.isQuit c = false := by simpa using hquit
    have hsent := queue_offerAll s.commands a.commands
    have htold := queue_offerAll s.reports a.reports
    rw [hcommands, List.nil_append] at hsent
    rw [hreports, List.nil_append] at htold
    rw [next, hs]
    generalize offerAll s.commands a.commands = commands at hsent
    generalize offerAll s.reports a.reports = reports at htold
    obtain ⟨sent, commands⟩ := commands
    obtain ⟨told, reports⟩ := reports
    dsimp only at hsent htold ⊢
    have hbefore : beforeQuit (s.sent ++ sent) = s.sent ++ beforeQuit sent :=
      beforeQuit_append hnone sent
    have hdone : beforeQuit s.sent = s.sent := beforeQuit_eq_self hnone
    rcases turn_cases (s.dispatcher.elapse a.token a.take) a.now commands reports with
      ⟨d, hd, hturn⟩ | ⟨done, i, hd, hi, hcommands, hreports, houtlook⟩
    · rw [hturn]
      refine .inl ⟨duties ++ .meanwhile a.token a.take ::
        turnDuties a.now (beforeQuit commands.queue) reports.queue, ?_, ?_, ?_, ?_, ?_⟩
      · exact attendAll_append_eq_ok_iff.2 ⟨s.dispatcher, h.attended, hd⟩
      · rw [inputsOf_append_meanwhile, inputsOf_turnDuties, commandsOf_append,
          commandsOf_given, h.commands, hdone, hbefore, hsent]
      · rw [inputsOf_append_meanwhile, inputsOf_turnDuties, reportsOf_append,
          reportsOf_given, h.reports, htold]
      · rw [List.any_append, hquit, Bool.false_or, hsent]
      · intro hrunning
        have hnone := eq_false_of_running hrunning
        exact ⟨behindQuit_eq_nil (by simpa using hnone), rfl⟩
    · refine .inr ⟨duties ++ .meanwhile a.token a.take :: done.map .input, i, ?_, hi, ?_, ?_,
        houtlook⟩
      · refine attendAll_append_eq_ok_iff.2 ⟨s.dispatcher, h.attended, ?_⟩
        exact (attendAll_map_input _ _).trans hd
      · rw [inputsOf_append_meanwhile, inputsOf_map_input, List.append_assoc,
          commandsOf_append, h.commands, hdone, hbefore, ← hsent]
        exact List.prefix_append_right_inj _ |>.2 hcommands
      · rw [inputsOf_append_meanwhile, inputsOf_map_input, List.append_assoc,
          reportsOf_append, h.reports, ← htold]
        exact List.prefix_append_right_inj _ |>.2 hreports

/-- What is broken off stays so. -/
theorem broken_next {duties : List Duty} {i : Input} (h : Broken start s duties i) (a : Arrivals) :
    Broken start (s.next a) duties i := by
  rw [next, h.outlook]
  exact h

/-- At any time all is done that has come in, or it is broken off. -/
theorem done_or_broken_serve (start : Dispatcher) (arrivals : List Arrivals) :
    (∃ duties, Done start ((Service.new start).serve arrivals) duties) ∨
      ∃ duties i, Broken start ((Service.new start).serve arrivals) duties i := by
  induction arrivals using List.reverseRecOn with
  | nil => exact .inl ⟨[], rfl, rfl, rfl, rfl, fun _ => ⟨rfl, rfl⟩⟩
  | append_singleton arrivals a ih =>
    rw [serve, List.foldl_concat]
    rcases ih with ⟨duties, h⟩ | ⟨duties, i, h⟩
    · exact done_or_broken_next h a
    · exact .inr ⟨duties, i, broken_next h a⟩

/-! ## The end -/

/-- A dispatcher that has handled some commands and some reports to the end, from a start on. -/
structure Concluded (start : Dispatcher) (commands : List Command) (reports : List BackendMessage)
    (duties : List Duty) (d : Dispatcher) : Prop where
  attended : start.attendAll duties = .ok d
  /-- The commands are handled each once, and in order. -/
  commands : commandsOf (inputsOf duties) = commands
  reports : reportsOf (inputsOf duties) = reports
  /-- It holds the last value that it has accepted of each setting. -/
  values : ∀ context name, d.persister.get? context name =
    (start.lastAccepted? (inputsOf duties) context name).or (start.persister.get? context name)
  /-- Once they are written the settings file has all of them. If nothing was left to be written
  then, it has them from before, provided that no cache has taken it away. -/
  file : ∀ written q disk, d.persister.flush d.disk = (.ok written, q, disk) →
    (written = false →
      start.persister.Saved start.disk ∧ Spared start.caches start.persister.path) →
    d.persister.registry.ReadsBack →
    Registry.load start.persister.path disk = .ok d.persister.registry

theorem concluded_of_attendAll {d : Dispatcher} {duties : List Duty}
    (h : start.attendAll duties = .ok d) :
    Concluded start (commandsOf (inputsOf duties)) (reportsOf (inputsOf duties)) duties d := by
  have hledger := ledger_attendAll h
  refine ⟨h, rfl, rfl, hledger.values, ?_⟩
  intro written q disk hflush hfile hback
  have hsaved (hwritten : written = false) : d.persister.Saved d.disk := by
    obtain ⟨hsaved, hspared⟩ := hfile hwritten
    exact saved_attendAll hsaved (.inr hspared) h
  obtain ⟨text, hread, htext⟩ := Persister.read_of_flush hsaved hflush hback
  rw [hledger.path] at hread
  exact Registry.load_of_read hread htext

theorem sliceable_of_handle {d d' : Dispatcher} {i : Input} (h : d.handle i = .ok d') :
    i.Sliceable := by
  cases i with
  | command now c => trivial
  | report now m => exact (handleReport_ok_iff d now m).1 ⟨d', h⟩

theorem sliceable_of_attendAll {d : Dispatcher} {duties : List Duty}
    (h : start.attendAll duties = .ok d) : ∀ i ∈ inputsOf duties, i.Sliceable := by
  induction duties using List.reverseRecOn generalizing d with
  | nil => exact fun i hi => by cases hi
  | append_singleton duties duty ih =>
    obtain ⟨e, he, hduty⟩ := attendAll_append_eq_ok_iff.1 h
    rw [attendAll_singleton] at hduty
    rw [inputsOf_append_singleton, List.forall_mem_append]
    refine ⟨ih he, fun i hi => ?_⟩
    rcases attend_cases hduty with ⟨j, rfl, hj⟩ | ⟨hnone, -⟩
    · rw [List.mem_singleton.1 hi]
      exact sliceable_of_handle hj
    · rw [hnone] at hi
      cases hi

theorem mem_reportsOf {m : BackendMessage} {inputs : List Input} :
    m ∈ reportsOf inputs ↔ ∃ now, .report now m ∈ inputs := by
  rw [reportsOf, List.mem_filterMap]
  constructor
  · rintro ⟨i, hi, hm⟩
    cases i with
    | command now c => cases hm
    | report now n =>
      cases hm
      exact ⟨now, hi⟩
  · rintro ⟨now, hm⟩
    exact ⟨_, hm, rfl⟩

/-- A dispatcher that is told to quit handles all commands before that and all reports, provided
that all reports can be handled; if one of them cannot, it is broken off. -/
theorem shutdown_iff {arrivals : List Arrivals} {before behind : List Command}
    (hs : (Service.new start).serve arrivals = s) (hsent : s.sent = before ++ .quit :: behind)
    (hbefore : ∀ c ∈ before, c.isQuit = false) (hfits : s.dispatcher.catalog.Fits) :
    ((s.outlook = .quit ∧ ∃ duties, Concluded start before s.told duties s.dispatcher) ↔
        ∀ m ∈ s.told, SliceableFields m.event) ∧
      (s.outlook = .quit ∨ ∃ duties i, Broken start s duties i) := by
  have hcut : beforeQuit s.sent = before := by
    rw [hsent, beforeQuit_append hbefore, beforeQuit_cons]
    exact List.append_nil _
  have hserved := done_or_broken_serve start arrivals
  rw [hs] at hserved
  rcases hserved with ⟨duties, h⟩ | ⟨duties, i, h⟩
  · have hquit : s.outlook = .quit := by
      rw [h.outlook, if_pos]
      rw [hsent, List.any_append, List.any_cons]
      exact Bool.or_true _
    have hconcluded := concluded_of_attendAll h.attended
    rw [h.commands, h.reports, hcut] at hconcluded
    refine ⟨iff_of_true ⟨hquit, duties, hconcluded⟩ fun m hm => ?_, .inl hquit⟩
    rw [← h.reports, mem_reportsOf] at hm
    obtain ⟨now, hm⟩ := hm
    exact sliceable_of_attendAll h.attended _ hm
  · refine ⟨iff_of_false ?_ ?_, .inr ⟨duties, i, h⟩⟩
    · rintro ⟨hquit, -⟩
      rw [h.outlook] at hquit
      cases hquit
    · intro hall
      have hi : i.Sliceable := by
        cases i with
        | command now c => trivial
        | report now m =>
          exact hall m (h.reports.subset (mem_reportsOf.2 ⟨now, by simp⟩))
      obtain ⟨d, hd⟩ := (handle_ok_iff hfits i).2 hi
      exact h.fault d hd

/-- A setting that is set twice, another that is reported twice, and a rescan between that clears
the cache beside the settings file. All is written before the dispatcher quits. -/
theorem shutdown_rescanned :
    let start : Dispatcher := {
      routes := [⟨"fs", {}, .new⟩]
      persister := {
        path := Path.configFile "/b"
        registry := Registry.empty.set "fs" "depth" (.int 1)
        schemas := .ofList [("fs", [
          { name := "depth", longName := "Depth", kind := .int },
          { name := "mode", longName := "Mode", kind := .string }])]
        debounce := 0 }
      stations := ⟨"de1.api.radio-browser.info"⟩
      caches := [⟨"thumbnails", Path.thumbnailsDir "/b"⟩]
      disk := { nodes := .ofList [
        ("/b", .directory), ("/b/thumbnails", .directory),
        ("/b/config.toml", .file "[fs]\ndepth = 1\n")] } }
    let depth (n : Int64) : Command := .setParameter "fs" "depth" (.int n)
    let mode (text : String) : BackendMessage := ⟨"fs", .parameterChanged "mode" (.string text)⟩
    let arrivals : List Arrivals := [
      ⟨[depth 2], [mode "a"], 0, 1, fun _ s => s⟩,
      ⟨[.rescan ⟨1⟩], [], 50, 2, fun _ s => s⟩,
      ⟨[depth 3, .quit, depth 9], [mode "b"], 100, 2, fun _ s => s⟩]
    let s := (Service.new start).serve arrivals
    s.outlook = .quit ∧
      (∃ duties, Concluded start [depth 2, .rescan ⟨1⟩, depth 3] [mode "a", mode "b"] duties
        s.dispatcher) ∧
      Registry.load (Path.configFile "/b") (s.dispatcher.persister.flush s.dispatcher.disk).2.2 =
        .ok s.dispatcher.persister.registry ∧
      s.dispatcher.persister.registry.text = "[fs]\ndepth = 3\nmode = \"b\"\n" := by
  intro start depth mode arrivals
  generalize hs : (Service.new start).serve arrivals = s
  have hsent : s.sent = [depth 2, .rescan ⟨1⟩, depth 3] ++ .quit :: [depth 9] := by
    rw [← hs]
    rfl
  have htold : s.told = [mode "a", mode "b"] := by
    rw [← hs]
    rfl
  have hbefore : ∀ c ∈ [depth 2, .rescan ⟨1⟩, depth 3], c.isQuit = false := by
    simp [depth, Command.isQuit]
  have hreports : ∀ m ∈ s.told, SliceableFields m.event := by
    rw [htold]
    simp [mode, SliceableFields]
  have hempty : s.dispatcher.catalog.children.isEmpty := by
    rw [← hs]
    decide +kernel
  have hback : s.dispatcher.persister.registry.ReadsBack := by
    rw [← hs]
    decide +kernel
  have htext : s.dispatcher.persister.registry.text = "[fs]\ndepth = 3\nmode = \"b\"\n" := by
    rw [← hs]
    decide +kernel
  have hwritten : (s.dispatcher.persister.flush s.dispatcher.disk).1.isOk := by
    rw [← hs]
    decide +kernel
  have hend := (shutdown_iff hs hsent hbefore (Catalog.fits_of_isEmpty hempty)).1
  obtain ⟨hquit, duties, hconcluded⟩ := hend.2 hreports
  rw [htold] at hconcluded
  refine ⟨hquit, ⟨duties, hconcluded⟩, ?_, htext⟩
  rcases hflush : s.dispatcher.persister.flush s.dispatcher.disk with ⟨error | written, q, disk⟩
  · rw [hflush] at hwritten
    cases hwritten
  · refine hconcluded.file written q disk hflush (fun _ => ⟨fun _ => ?_, ?_⟩) hback
    · exact ⟨"[fs]\ndepth = 1\n", by decide +kernel, .inr (by decide +kernel)⟩
    · refine List.forall_mem_singleton.2 fun disk text hread => ?_
      exact read_purge_thumbnails (by decide +kernel) hread "thumbnails"

/-- A report that cannot be handled keeps the dispatcher from those that come after it. -/
theorem not_shutdown :
    ¬ ∀ (start : Dispatcher) (arrivals : List Arrivals) (s : Service)
        (before behind : List Command),
      (Service.new start).serve arrivals = s → s.sent = before ++ .quit :: behind →
      (∀ c ∈ before, c.isQuit = false) → s.dispatcher.catalog.Fits →
      ∃ duties, Concluded start before s.told duties s.dispatcher := by
  intro h
  let start : Dispatcher := {
    routes := [⟨"fs", {}, .new⟩]
    persister := {
      path := "/b/config.toml"
      schemas := .ofList [("fs", [{ name := "p", longName := "P", kind := .int }])]
      debounce := 3000 }
    stations := ⟨"de1.api.radio-browser.info"⟩
    disk := {} }
  let reports : List BackendMessage := [
    ⟨"fs", .parameterChanged "p" (.int 1)⟩,
    ⟨"fs", .publish (.objectChanged "" .empty)⟩,
    ⟨"fs", .parameterChanged "p" (.int 2)⟩]
  obtain ⟨duties, hconcluded⟩ := h start [⟨[.quit], reports, 0, 1, fun _ s => s⟩] _ [] []
    rfl rfl (by simp) (Catalog.fits_of_isEmpty (by decide +kernel))
  have hreport : (⟨"fs", .publish (.objectChanged "" .empty)⟩ : BackendMessage) ∈
      reportsOf (inputsOf duties) := by
    rw [hconcluded.reports]
    exact .tail _ (.head _)
  obtain ⟨now, hinput⟩ := mem_reportsOf.1 hreport
  obtain ⟨c, hc, -⟩ := sliceable_of_attendAll hconcluded.attended _ hinput
  cases hc

end Dispatcher

end Mediatheque
