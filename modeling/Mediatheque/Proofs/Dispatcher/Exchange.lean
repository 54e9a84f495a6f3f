import Mediatheque.Proofs.Bus.Sink
import Mediatheque.Proofs.Dispatcher.Requests
import Mediatheque.Proofs.List

/-!
# Rescans between clients, the dispatcher and the backends

Clients put commands into the sink of the dispatcher, the dispatcher puts some of them into
the sinks of backends, and backends put reports into the other sink of the dispatcher, all
in any order and without regard to whether a sink has room (`Exchange.Step`). The report of
a complete rescan does not say which rescan that is. The exchange keeps a record of it, and
of what has happened so far, which nobody in it sees.

What the steps of the dispatcher mean for rescans shows in what is left of its state without
all else (`View`): a command may begin one (`view_handleCommand`), and a report may tell of
its end at one backend (`view_handleReport`).
-/

namespace Mediatheque

/-! ## Rescans in events, commands and queues -/

/-- The rescan whose end an event tells. -/
def Event.rescanDone? : Event → Option Token
  | .rescanDone token => some token
  | _ => none

/-- The rescan that a command starts at a backend. -/
def Command.rescan? : Command → Option Token
  | .rescan token => some token
  | _ => none

/-- The rescans that wait for a backend to take them. -/
def Route.rescans (r : Route) : List Token := r.commands.queue.filterMap Command.rescan?

/-- What a rescan goes by at a backend: its name, its capabilities, and the rescans that wait
for it. -/
structure Profile where
  name : String
  capabilities : Capabilities
  rescans : List Token

def Route.profile (r : Route) : Profile := ⟨r.name, r.capabilities, r.rescans⟩

theorem Route.rescans_deliver {c : Command} (h : c.rescan? = none) (r : Route) :
    (r.deliver c).rescans = r.rescans := by
  rw [rescans, rescans]
  rcases Sink.queue_put r.commands c with hq | hq
  · rw [deliver, hq]
  · rw [deliver, hq, List.filterMap_append, List.filterMap_cons_none h, List.filterMap_nil,
      List.append_nil]

theorem Route.profile_deliver {c : Command} (h : c.rescan? = none) (r : Route) :
    (r.deliver c).profile = r.profile := by
  rw [profile, rescans_deliver h]
  rfl

/-! ## What rescans go by -/

/-- What rescans go by at the dispatcher: the backends, the rescan under way, and the tokens
of the rescans that it has told clients to be done. -/
structure View where
  profiles : List Profile
  rescan : Barrier Token
  done : List Token

namespace View

/-- The backends that take part in a rescan. -/
def scanners (v : View) : List String :=
  (v.profiles.filter (·.capabilities.rescan)).map (·.name)

/-- A rescan begins. Without anybody to take part it is done, and else the backends that take
part get it, unless they do not keep up. -/
inductive Begins (v : View) (token : Token) : View → Prop where
  | nobody (hidle : v.rescan = .idle) (hnone : v.scanners = []) :
    Begins v token { v with done := v.done ++ [token] }
  | somebody {profiles : List Profile} (hidle : v.rescan = .idle)
    (hkeys : profiles.map (fun p => (p.name, p.capabilities)) =
      v.profiles.map fun p => (p.name, p.capabilities))
    (hgot : ∀ p ∈ profiles, ∃ q ∈ v.profiles, p.name = q.name ∧ p.capabilities = q.capabilities ∧
      (p.rescans = q.rescans ∨ p.rescans = q.rescans ++ [token])) :
    Begins v token { v with
      profiles := profiles, rescan := .pending token v.scanners.eraseDups }

/-- A rescan ends at one backend. -/
def completes (v : View) (backend : String) : View :=
  { v with
    rescan := (v.rescan.complete backend).1
    done := v.done ++ v.rescan.finishes backend }

theorem scanners_congr {v w : View} (h : w.profiles.map (fun p => (p.name, p.capabilities)) =
    v.profiles.map fun p => (p.name, p.capabilities)) : w.scanners = v.scanners := by
  have key (v : View) : v.scanners = ((v.profiles.map fun p => (p.name, p.capabilities)).filter
      (·.2.rescan)).map (·.1) := by
    rw [scanners, List.filter_map, List.map_map]
    rfl
  rw [key, h, ← key]

/-- The beginning of a rescan leaves who takes part. -/
theorem Begins.scanners_eq {v w : View} {token : Token} (h : v.Begins token w) :
    w.scanners = v.scanners := by
  cases h with
  | nobody _ _ => rfl
  | somebody _ hkeys _ => exact scanners_congr hkeys

theorem mem_scanners_iff {v : View} {name : String} :
    name ∈ v.scanners ↔ ∃ p ∈ v.profiles, p.capabilities.rescan = true ∧ p.name = name := by
  simp [scanners, and_assoc]

end View

namespace Dispatcher

/-- What rescans go by. -/
def view (d : Dispatcher) : View :=
  ⟨d.routes.map Route.profile, d.rescan, d.published.filterMap Event.rescanDone?⟩

theorem scanners_view (d : Dispatcher) : d.view.scanners = d.scanners := by
  rw [View.scanners, view, List.filter_map, List.map_map]
  rfl

/-- What has nothing to do with rescans. -/
def Effect.SparesRescans : Effect → Prop
  | .tell e => e.rescanDone? = none
  | .hand c => c.rescan? = none
  | .rescan => False
  | _ => True

theorem view_edit {d d' : Dispatcher} {e : Effect} (he : e.SparesRescans) (h : Edit d e d') :
    d'.view = d.view := by
  cases h with
  | tell e =>
    rw [view, publish, List.filterMap_append, List.filterMap_cons_none he, List.filterMap_nil,
      List.append_nil, view]
  | forward c i => rw [view, map_modify_of_eq fun r _ => Route.profile_deliver he r, view]
  | broadcast c takesPart =>
    rw [view, view, broadcast, List.map_map]
    refine congrArg (View.mk · _ _) (List.map_congr_left fun r _ => ?_)
    rw [Function.comp_apply]
    split
    · exact Route.profile_deliver he r
    · rfl
  | rescan rescan => cases he
  | _ => rfl

theorem Edits.view_eq {d d' : Dispatcher} (h : Edits Effect.SparesRescans d d') :
    d'.view = d.view :=
  h.all (R := fun d d' => d'.view = d.view) (fun _ => rfl) (fun hab hbc => hbc.trans hab) view_edit

/-! ## Commands -/

/-- The rescan that is accepted with an answer to a request for one. -/
def acceptedBy (request : Option Token) : Except DispatchError Unit → List Token
  | .ok () => request.toList
  | .error _ => []

theorem rescans_deliver_rescan (r : Route) (token : Token) :
    (r.deliver (.rescan token)).rescans = r.rescans ∨
      (r.deliver (.rescan token)).rescans = r.rescans ++ [token] := by
  rw [Route.rescans, Route.deliver]
  rcases Sink.queue_put r.commands (.rescan token) with h | h
  · rw [h]
    exact .inl rfl
  · rw [h, List.filterMap_append]
    exact .inr rfl

/-- A rescan that the dispatcher is asked for is refused or begins. -/
theorem view_startRescan {d d' : Dispatcher} {token : Token} {r : Except DispatchError Unit}
    (h : d.startRescan token = (r, d')) :
    (d' = d ∧ r = .error .rescanPending) ∨ (r = .ok () ∧ d.view.Begins token d'.view) := by
  rcases d.startRescan_cases token with ⟨_, _, -, hs⟩ | ⟨hidle, hnone, hs⟩ | ⟨hidle, -, hs⟩
  · rw [hs] at h
    cases h
    exact .inl ⟨rfl, rfl⟩
  · rw [hs] at h
    cases h
    refine .inr ⟨rfl, ?_⟩
    have hv : (d.purge.publish (.rescanDone token)).view =
        { d.view with done := d.view.done ++ [token] } := by
      rw [view, view]
      simp only [publish, purge, List.filterMap_append]
      rfl
    rw [hv]
    exact .nobody hidle ((scanners_view d).trans hnone)
  · rw [hs] at h
    cases h
    refine .inr ⟨rfl, ?_⟩
    rw [← scanners_view]
    refine .somebody hidle ?_ ?_
    · rw [view, List.map_map, List.map_map]
      simp only [purge, broadcast, List.map_map]
      refine List.map_congr_left fun r _ => ?_
      rw [Function.comp_apply, Function.comp_apply, Function.comp_apply]
      split <;> rfl
    · intro p hp
      simp only [purge, broadcast, List.map_map, List.mem_map] at hp
      obtain ⟨r, hr, rfl⟩ := hp
      refine ⟨r.profile, List.mem_map_of_mem hr, ?_⟩
      rw [Function.comp_apply]
      split
      · exact ⟨rfl, rfl, rescans_deliver_rescan r token⟩
      · exact ⟨rfl, rfl, .inl rfl⟩

/-- A command accepts no rescan, or begins the one that it asks for. -/
theorem view_handleCommand {d d' : Dispatcher} {now : Nat} {c : Command}
    {r : Except DispatchError Unit} (h : d.handleCommand now c = .ok (r, d')) :
    (d'.view = d.view ∧ acceptedBy (d.rescanRequest? c) r = []) ∨
      ∃ token, d.rescanRequest? c = some token ∧ acceptedBy (d.rescanRequest? c) r = [token] ∧
        d.view.Begins token d'.view := by
  cases hc : d.rescanRequest? c with
  | none =>
    have hspares (e : Effect) (he : c.May e) : e.SparesRescans := by
      cases he with
      | hand _ =>
        cases c with
        | rescan token => cases hc
        | _ => rfl
      | rescan hasks _ => exact absurd hasks (not_asksRescan hc)
      | missing | object | page | added | removed => rfl
      | store | apply | enlist | strike => trivial
    refine .inl ⟨((edits_handleCommand h).mono hspares).view_eq, ?_⟩
    rcases r with _ | ⟨⟩ <;> rfl
  | some token =>
    rcases handleCommand_of_request hc h with ⟨e, rfl, rfl⟩ | ⟨persister, nextToken, hs⟩
    · exact .inl ⟨rfl, rfl⟩
    · rcases view_startRescan hs with ⟨rfl, rfl⟩ | ⟨rfl, hb⟩
      · exact .inl ⟨rfl, rfl⟩
      · exact .inr ⟨token, rfl, rfl, hb⟩

/-! ## Reports -/

/-- What clients see of an event tells of the same ends of rescans. -/
theorem rescanDone?_presentEvent (d : Dispatcher) (e : Event) :
    (d.presentEvent e).rescanDone? = e.rescanDone? := by
  cases e <;> rfl

/-- A report tells of the end of a rescan at its backend, or is of no matter to rescans. -/
theorem view_handleReport {d d' : Dispatcher} {now : Nat} {m : BackendMessage}
    (hm : ∀ e, m.event = .publish e → e.rescanDone? = none)
    (h : d.handleReport now m = .ok d') :
    (m.event = .rescanComplete ∧ d'.view = d.view.completes m.backend) ∨
      (m.event ≠ .rescanComplete ∧ d'.view = d.view) := by
  by_cases he : m.event = .rescanComplete
  · refine .inl ⟨he, ?_⟩
    obtain ⟨backend, event⟩ := m
    cases he
    cases h
    rw [completeRescan_eq, view, View.completes, List.filterMap_append, List.filterMap_map]
    have hsome : (Event.rescanDone? ∘ Event.rescanDone) = some := rfl
    rw [hsome, List.filterMap_some]
    rfl
  · refine .inr ⟨he, ((edits_handleReport h).mono fun e hmay => ?_).view_eq⟩
    generalize m.event = r at hm he hmay
    cases hmay with
    | relay d e => exact (rescanDone?_presentEvent d e).trans (hm e rfl)
    | rescan | rescanned => exact absurd rfl he
    | splice | created | setting => rfl
    | merge | add | replace | delete | exported | unexported | creation | store => trivial

end Dispatcher

/-! ## The exchange -/

/-- A report on its way to the dispatcher, and the rescan whose end it tells. -/
structure Posted where
  message : BackendMessage
  answers : Option Token

/-- The dispatcher between clients and backends, and what has happened so far. -/
structure Exchange where
  dispatcher : Dispatcher
  /-- The commands of clients on their way to the dispatcher. -/
  commands : Sink Command
  /-- The reports of backends on their way to the dispatcher. -/
  reports : Sink Posted
  /-- The rescans that backends have taken and still have to report complete. -/
  owed : List (String × Token) := []
  /-- The tokens of the requests for a rescan. -/
  issued : List Token := []
  /-- The rescans that the dispatcher has accepted, in this order. -/
  accepted : List Token := []
  /-- The rescans that backends have taken. -/
  taken : List (String × Token) := []
  /-- The rescans of which the dispatcher has handled the end at a backend. -/
  completed : List (String × Token) := []

namespace Exchange

/-- The rescans among the commands on their way to the dispatcher. -/
def queued (s : Exchange) : List Token := s.commands.queue.filterMap Command.rescan?

/-- The rescans that the dispatcher has told clients to be done. -/
def done (s : Exchange) : List Token := s.dispatcher.view.done

/-- The rescans that the dispatcher has accepted and not told to be done. -/
def underway (s : Exchange) : List Token := s.accepted.filter (· ∉ s.done)

/-- What may happen next. A message is lost where its sink has no room for it. -/
inductive Step : Exchange → Exchange → Prop where
  /-- A client sends a command; a rescan has a token of its own. -/
  | send (s : Exchange) {c : Command} (hfresh : ∀ t, c.rescan? = some t → t ∉ s.issued) :
    Step s { s with commands := s.commands.put c, issued := c.rescan?.toList ++ s.issued }
  /-- The dispatcher handles the next command. The button among the settings that asks for a
  rescan gets a token of its own. -/
  | command (s : Exchange) (now : Nat) {c : Command} {rest : Sink Command}
    {r : Except DispatchError Unit} {d : Dispatcher}
    (hnext : s.commands.next? = (some c, rest))
    (hfresh : ∀ t, c.rescan? = none → s.dispatcher.rescanRequest? c = some t → t ∉ s.issued)
    (h : s.dispatcher.handleCommand now c = .ok (r, d)) :
    Step s { s with
      dispatcher := d
      commands := rest
      issued := (s.dispatcher.rescanRequest? c).toList ++ s.issued
      accepted := s.accepted ++ Dispatcher.acceptedBy (s.dispatcher.rescanRequest? c) r }
  /-- A backend takes the next command from its sink. -/
  | take (s : Exchange) {i : Nat} {route : Route} {c : Command} {rest : Sink Command}
    (hroute : s.dispatcher.routes[i]? = some route)
    (hnext : route.commands.next? = (some c, rest)) :
    Step s { s with
      dispatcher := { s.dispatcher with
        routes := s.dispatcher.routes.set i { route with commands := rest } }
      owed := s.owed ++ c.rescan?.toList.map (route.name, ·)
      taken := s.taken ++ c.rescan?.toList.map (route.name, ·) }
  /-- A backend reports a rescan complete that it has taken, once. -/
  | complete (s : Exchange) {name : String} {t : Token} (howed : (name, t) ∈ s.owed) :
    Step s { s with
      owed := s.owed.erase (name, t)
      reports := s.reports.put ⟨⟨name, .rescanComplete⟩, some t⟩ }
  /-- Something else is reported. Only what takes no part in rescans reports one complete at
  will, and no backend tells by itself that a rescan is done. -/
  | report (s : Exchange) {m : BackendMessage}
    (hquiet : ∀ e, m.event = .publish e → e.rescanDone? = none)
    (hcomplete : m.event = .rescanComplete → m.backend ∉ s.dispatcher.scanners) :
    Step s { s with reports := s.reports.put ⟨m, none⟩ }
  /-- The dispatcher handles the next report. -/
  | handle (s : Exchange) (now : Nat) {p : Posted} {rest : Sink Posted} {d : Dispatcher}
    (hnext : s.reports.next? = (some p, rest))
    (h : s.dispatcher.handleReport now p.message = .ok d) :
    Step s { s with
      dispatcher := d
      reports := rest
      completed := s.completed ++ p.answers.toList.map (p.message.backend, ·) }

/-- Where an exchange starts: the backends have names of their own, and there has been no
rescan yet. -/
structure Start (s : Exchange) : Prop where
  names : (s.dispatcher.routes.map (·.name)).Nodup
  idle : s.dispatcher.rescan = .idle
  done : s.done = []
  commands : s.queued = []
  routes : ∀ r ∈ s.dispatcher.routes, r.rescans = []
  reports : s.reports.queue = []
  owed : s.owed = []
  accepted : s.accepted = []

/-- What may come of an exchange. -/
inductive Reachable : Exchange → Prop where
  | start {s : Exchange} (h : Start s) : Reachable s
  | step {s s' : Exchange} (h : Reachable s) (hs : Step s s') : Reachable s'

end Exchange

end Mediatheque
