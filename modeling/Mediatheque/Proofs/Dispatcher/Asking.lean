import Mediatheque.Proofs.Dispatcher.Rescan
import Mediatheque.Proofs.Dispatcher.Turn

/-!
# Whom a rescan waits for

A rescan that begins is put into the queues of all backends that take part, and waits for all of
them (`begun_handleCommand`). A queue without room or without its backend loses it, and is waited
for all the same. So a rescan waits for none but backends that were asked exactly if all those
queues take it (`allAsked_iff`). A backend that was not asked, and so reports nothing, keeps the
rescan under way and every other one from beginning (`due_run`).
-/

namespace Mediatheque

namespace Route

/-- A rescan has been taken up by a queue, behind the commands that waited there before. -/
def Asked (before after : Route) (t : Token) : Prop :=
  after.commands.queue = before.commands.queue ++ [.rescan t]

/-- The queue takes commands: it has a backend, and room. -/
def Takes (r : Route) : Prop :=
  r.commands.isOpen = true ∧ r.commands.queue.length < r.commands.capacity

theorem accepts_iff (r : Route) : r.commands.accepts = true ↔ r.Takes := by
  simp [Sink.accepts, Takes, Sink.isFull]

theorem asked_deliver_iff (r : Route) (t : Token) :
    r.Asked (r.deliver (.rescan t)) t ↔ r.Takes := by
  rw [← accepts_iff, Asked, deliver, Sink.put_eq]
  split
  · rename_i haccepts
    exact iff_of_true rfl haccepts
  · rename_i haccepts
    refine iff_of_false (fun h => ?_) haccepts
    simpa using congrArg List.length h

end Route

namespace Dispatcher

variable {d d' : Dispatcher} {now : Nat} {c : Command} {t : Token}

/-- A rescan that is accepted and not done at once is sent to all that take part, and waits for
all of them. -/
theorem begun_handleCommand (hc : d.rescanRequest? c = some t)
    (h : d.handleCommand now c = .ok (.ok (), d')) (hpending : d'.rescan.isPending = true) :
    d'.rescan = .pending t d.scanners.eraseDups ∧
      d'.routes = d.routes.map fun r =>
        if r.capabilities.rescan then r.deliver (.rescan t) else r := by
  rcases handleCommand_of_request hc h with ⟨e, he, -⟩ | ⟨persister, nextToken, hs⟩
  · cases he
  · rcases startRescan_cases { d with persister := persister, nextToken := nextToken } t with
      ⟨_, _, -, hrefused⟩ | ⟨hidle, -, hdone⟩ | ⟨-, -, hbegun⟩
    · rw [hrefused] at hs
      cases hs
    · rw [hdone] at hs
      cases hs
      have hnone : d.rescan.isPending = true := hpending
      rw [hidle] at hnone
      cases hnone
    · rw [hbegun] at hs
      cases hs
      exact ⟨rfl, rfl⟩

/-- What is due from a backend stays so through all that is not its report. -/
theorem due_handle {i : Input} {name : String} (hdue : t ∈ d.rescan.due name)
    (h : d.handle i = .ok d') (hreport : i.report? ≠ some ⟨name, .rescanComplete⟩) :
    t ∈ d'.rescan.due name := by
  cases i with
  | command now c =>
    obtain ⟨⟨r, e⟩, hc, rfl⟩ := Fault.map_eq_ok_iff.1 h
    obtain ⟨hname, htag⟩ := Barrier.mem_due_iff.1 hdue
    cases hd : d.rescan with
    | idle =>
      rw [hd] at htag
      cases htag
    | pending tag waiting =>
      rw [rescan_handleCommand_of_pending hd hc, ← hd]
      exact hdue
  | report now m =>
    rcases rescan_handleReport h with hsame | ⟨hm, hcomplete⟩
    · rw [hsame]
      exact hdue
    · obtain ⟨backend, event⟩ := m
      cases hm
      rw [hcomplete]
      refine Barrier.mem_due_complete_of_ne hdue fun hname => hreport ?_
      rw [hname]
      rfl

/-- What is due from a backend stays so until it reports. -/
theorem due_run {inputs : List Input} {name : String} (hdue : t ∈ d.rescan.due name)
    (h : d.run inputs = .ok d') (hreport : ⟨name, .rescanComplete⟩ ∉ reportsOf inputs) :
    t ∈ d'.rescan.due name := by
  induction inputs generalizing d with
  | nil =>
    cases h
    exact hdue
  | cons i inputs ih =>
    obtain ⟨d₁, hi, h⟩ := Fault.bind_eq_ok_iff.1 h
    refine ih (due_handle hdue hi fun hm => hreport ?_) h fun hmem => hreport ?_
    · exact List.mem_filterMap.2 ⟨i, List.mem_cons_self, hm⟩
    · obtain ⟨j, hj, hm⟩ := List.mem_filterMap.1 hmem
      exact List.mem_filterMap.2 ⟨j, List.mem_cons_of_mem i hj, hm⟩

/-- All backends that a rescan waits for have been asked. -/
def AllAsked (d d' : Dispatcher) (t : Token) : Prop :=
  ∀ (i : Nat) (before after : Route), d.routes[i]? = some before → d'.routes[i]? = some after →
    before.capabilities.rescan = true → before.name ∈ d'.rescan.waiting → before.Asked after t

/-- What comes of a rescan that has begun. It waits for the backends that take part, and those
are asked whose queues take it. Until a backend reports the rescan stays under way, and others
are refused. -/
structure Underway (d d' : Dispatcher) (t : Token) : Prop where
  awaited : ∀ name, name ∈ d'.rescan.waiting ↔
    ∃ r ∈ d.routes, r.capabilities.rescan = true ∧ r.name = name
  asked : ∀ (i : Nat) (before after : Route), d.routes[i]? = some before →
    d'.routes[i]? = some after → before.capabilities.rescan = true →
      (before.Asked after t ↔ before.Takes)
  stays : ∀ name ∈ d'.rescan.waiting, ∀ inputs e, d'.run inputs = .ok e →
    ⟨name, .rescanComplete⟩ ∉ reportsOf inputs →
      name ∈ e.rescan.waiting ∧ e.rescan.tag? = some t ∧
        ∀ now u, e.handleCommand now (.rescan u) = .ok (.error .rescanPending, e)

theorem mem_scanners {name : String} :
    name ∈ d.scanners ↔ ∃ r ∈ d.routes, r.capabilities.rescan = true ∧ r.name = name := by
  simp [scanners, and_assoc]

theorem underway_of_begun (hrescan : d'.rescan = .pending t d.scanners.eraseDups)
    (hroutes : d'.routes = d.routes.map fun r =>
      if r.capabilities.rescan then r.deliver (.rescan t) else r) : Underway d d' t where
  awaited name := by
    rw [hrescan, ← mem_scanners]
    exact List.mem_eraseDups
  asked i before after hbefore hafter hcap := by
    rw [hroutes, List.getElem?_map, hbefore, Option.map_some, if_pos hcap] at hafter
    rw [← Option.some.inj hafter]
    exact before.asked_deliver_iff t
  stays name hname inputs e hrun hreport := by
    have hdue : t ∈ d'.rescan.due name := by
      refine Barrier.mem_due_iff.2 ⟨hname, ?_⟩
      rw [hrescan]
      rfl
    obtain ⟨hwaiting, htag⟩ := Barrier.mem_due_iff.1 (due_run hdue hrun hreport)
    exact ⟨hwaiting, htag, Exchange.handleCommand_rescan_of_tag htag⟩

/-- A rescan that has begun waits for none but backends that were asked if all that take part
can be asked, and only then. -/
theorem allAsked_iff (hc : d.rescanRequest? c = some t)
    (h : d.handleCommand now c = .ok (.ok (), d')) (hpending : d'.rescan.isPending = true) :
    Underway d d' t ∧
      (AllAsked d d' t ↔ ∀ r ∈ d.routes, r.capabilities.rescan = true → r.Takes) := by
  obtain ⟨hrescan, hroutes⟩ := begun_handleCommand hc h hpending
  have hunderway := underway_of_begun hrescan hroutes
  refine ⟨hunderway, fun hall r hr hcap => ?_, fun htakes i before after hi hi' hcap _ => ?_⟩
  · obtain ⟨i, hi⟩ := List.mem_iff_getElem?.1 hr
    have hi' : d'.routes[i]? = some (r.deliver (.rescan t)) := by
      rw [hroutes, List.getElem?_map, hi, Option.map_some, if_pos hcap]
    have hwaiting := (hunderway.awaited r.name).2 ⟨r, hr, hcap, rfl⟩
    exact (hunderway.asked i _ _ hi hi' hcap).1 (hall i _ _ hi hi' hcap hwaiting)
  · exact (hunderway.asked i _ _ hi hi' hcap).2 (htakes before (List.mem_of_getElem? hi) hcap)

/-- A dispatcher with two backends that take part in rescans. -/
def withTwo (first second : Sink Command) : Dispatcher :=
  { (default : Dispatcher) with
    routes := [⟨"files", { rescan := true }, first⟩, ⟨"discs", { rescan := true }, second⟩] }

/-- A rescan of two backends that keep up has been sent to both. -/
theorem allAsked_listening :
    ∃ d', (withTwo .new .new).handleCommand 0 (.rescan ⟨1⟩) = .ok (.ok (), d') ∧
      Underway (withTwo .new .new) d' ⟨1⟩ ∧ AllAsked (withTwo .new .new) d' ⟨1⟩ := by
  have hcommand : (withTwo .new .new).handleCommand 0 (.rescan ⟨1⟩) = .ok (.ok (), _) := rfl
  obtain ⟨hunderway, hall⟩ := allAsked_iff rfl hcommand rfl
  refine ⟨_, hcommand, hunderway, hall.2 ?_⟩
  simp [withTwo, Route.Takes, Sink.new, Sink.defaultCapacity]

/-- A rescan waits for a backend that is gone, and for one whose queue is full. -/
theorem not_allAsked :
    (¬ ∀ d d' now c t, d.rescanRequest? c = some t → d.handleCommand now c = .ok (.ok (), d') →
        d'.rescan.isPending = true → AllAsked d d' t) ∧
      ∃ d', (withTwo .new { capacity := 1, queue := [.quit] }).handleCommand 0 (.rescan ⟨1⟩) =
          .ok (.ok (), d') ∧ d'.rescan.isPending = true ∧
        ¬ AllAsked (withTwo .new { capacity := 1, queue := [.quit] }) d' ⟨1⟩ := by
  constructor
  · intro h
    have hall := h (withTwo .new (Sink.close .new)) _ 0 (.rescan ⟨1⟩) ⟨1⟩ rfl rfl rfl
    have hlost := hall 1 _ _ rfl rfl rfl (by decide)
    exact absurd (congrArg List.length hlost) (by decide)
  · refine ⟨_, rfl, rfl, fun hall => ?_⟩
    have hlost := hall 1 _ _ rfl rfl rfl (by decide)
    exact absurd (congrArg List.length hlost) (by decide)

end Dispatcher

end Mediatheque
