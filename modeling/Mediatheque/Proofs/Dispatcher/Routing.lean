import Mediatheque.Proofs.Bus.Sink
import Mediatheque.Proofs.Catalog.Merge
import Mediatheque.Proofs.Dispatcher.Requests

/-!
# Where commands for objects go

A command for an object goes to one place, which the catalog tells (`Destination`): it is
answered at once, handed to the backend that owns the object, passed over, or refused. The
answer looks its object up once more and finds the same one (`serveObject_eq`,
`serveChildren_eq`), so that no client is left waiting. Nothing but the events for the clients
and the queue of one backend changes (`handleCommand_meets`).
-/

namespace Mediatheque

open Container (heading heading_finalize)

/-! ## Destinations -/

/-- The request that a command for an object makes, if it asks for the object or its
children. -/
def Command.request? : Command → Option Token
  | .browseChildren token _ _ _ _ | .browseObject token _ => some token
  | _ => none

/-- Where a command for an object goes. -/
inductive Destination where
  /-- It is answered from the catalog. -/
  | client (token : Token) (node : Container)
  | backend (name : String)
  /-- It is passed over: objects of the catalog itself do not change on demand. -/
  | nobody
  /-- There is no such object. -/
  | nowhere

/-- Where a command goes, by who answers for its target. A node that delegates is shown by the
catalog, but its children are not. -/
def Command.destination (c : Command) : Resolution → Destination
  | .served node =>
    match c.request? with
    | some token => .client token node
    | none => .nobody
  | .delegated name node exact =>
    match c, exact with
    | .browseObject token _, true => .client token node
    | _, _ => .backend name
  | .missing => .nowhere

/-- Whether an event holds what a command asks for: the object itself, or the window of its
children. -/
def Command.Asks (c : Command) (node : Container) : Event → Prop
  | .object _ object => (∃ token id, c = .browseObject token id) ∧ heading object = heading node
  | .spliceChildren _ id _ index delete items =>
    ∃ token start count oneAnswer, c = .browseChildren token id start count oneAnswer ∧
      index = start ∧ delete = 0 ∧
      items.map heading = ((node.children.drop start.toNat).take
        (windowCount start.toNat (count.map (·.toNat)) node.children.length)).map heading
  | _ => False

namespace Dispatcher

/-- The queue of one backend gets a command, unless it is full or nobody takes from it. -/
def Queues (d : Dispatcher) (name : String) (c : Command) (d' : Dispatcher) : Prop :=
  ∃ before route after, d.routes = before ++ route :: after ∧ route.name = name ∧
    (∀ other ∈ before ++ after, other.name ≠ name) ∧
    d'.routes = before ++ { route with
      commands := if route.commands.accepts then
        { route.commands with queue := route.commands.queue ++ [c] } else route.commands } :: after

/-- What a command for an object comes to at its destination. -/
def Meets (d : Dispatcher) (c : Command) (id : String) (r : Except DispatchError Unit)
    (d' : Dispatcher) : Destination → Prop
  | .client token node => r = .ok () ∧ d'.routes = d.routes ∧
    ∃ e, d'.published = d.published ++ [e] ∧ e.token? = some token ∧
      e.completes token = true ∧ c.Asks node e
  | .backend name => d'.published = d.published ∧
    (r = .ok () ∧ d.Queues name c d' ∨
      r = .error (.unknownBackend name) ∧ d'.routes = d.routes ∧
        ∀ route ∈ d.routes, route.name ≠ name)
  | .nobody => r = .ok () ∧ d' = d
  | .nowhere => r = .error (.notFound id) ∧ d'.routes = d.routes ∧
    d'.published = d.published ++ [.notFound c.request? id]

/-- The dispatcher `d'` is `d` but for the queues of backends and the events for clients. -/
def Relays (d d' : Dispatcher) : Prop :=
  d' = { d with routes := d'.routes, published := d'.published }

/-! ## Answers -/

theorem heading_present (d : Dispatcher) (c : Container) : heading (d.present c) = heading c := by
  rw [present, Container.addExternalUris]
  rfl

theorem heading_presented (d : Dispatcher) (node : Container) :
    heading (d.presented node) = heading node := by
  unfold presented
  split
  · rw [heading_present, heading_finalize]
  · rw [heading_present, heading_finalize]

/-- An object that the catalog answers with is found once more. -/
theorem serveObject_eq {d : Dispatcher} {token : Token} {id : String} {node : Container}
    (h : (d.catalog.resolve id).node? = some node) :
    d.serveObject token id = d.publish (.object token (d.presented node)) := by
  have hget : d.catalog.get? id = some node := h
  rw [serveObject, hget]

theorem map_heading_finalizePage {start total : UInt64} {page items : List Container}
    (h : finalizePage start total page = .ok items) : items.map heading = page.map heading := by
  rw [finalizePage] at h
  split at h
  · cases h
    refine List.ext_getElem (by simp) fun i _ _ => ?_
    simp [heading_finalize]
  · cases h

/-- The children of a node that the catalog serves are found, and the page is their window. -/
theorem serveChildren_eq {d : Dispatcher} (hd : d.catalog.Fits) (token : Token) {id : String}
    {node : Container} (h : d.catalog.resolve id = .served node) (start : UInt64)
    (count : Option UInt64) :
    ∃ items, d.serveChildren token id start count =
        .ok (d.publish (.spliceChildren (some token) id true start 0 items)) ∧
      items.map heading = ((node.children.drop start.toNat).take
        (windowCount start.toNat (count.map (·.toNat)) node.children.length)).map heading := by
  obtain ⟨page, hpage⟩ := Catalog.finalizePage_ok start (count.map (·.toNat))
    (hd.served id node h) rfl (.ofNat node.children.length)
  refine ⟨page.map d.present, ?_, ?_⟩
  · rw [serveChildren, Catalog.browse, h]
    simp only [hpage, bind, Except.bind]
  · have hpresent : heading ∘ d.present = heading := funext d.heading_present
    rw [List.map_map, hpresent, map_heading_finalizePage hpage]

/-! ## Backends -/

/-- The place of a backend divides the backends into others before and behind it. -/
theorem split_of_routeIndex? {d : Dispatcher} (hroutes : (d.routes.map (·.name)).Nodup)
    {name : String} {i : Nat} (h : d.routeIndex? name = some i) :
    ∃ hlt : i < d.routes.length, d.routes[i].name = name ∧
      d.routes = d.routes.take i ++ d.routes[i] :: d.routes.drop (i + 1) ∧
      ∀ other ∈ d.routes.take i ++ d.routes.drop (i + 1), other.name ≠ name := by
  obtain ⟨hlt, hi, -⟩ := List.findIdx?_eq_some_iff_getElem.1 h
  have hname : d.routes[i].name = name := by simpa using hi
  have hsplit : d.routes = d.routes.take i ++ d.routes[i] :: d.routes.drop (i + 1) := by
    rw [List.getElem_cons_drop, List.take_append_drop]
  refine ⟨hlt, hname, hsplit, fun other hother he => ?_⟩
  rw [hsplit, List.map_append, List.map_cons, List.nodup_middle, List.nodup_cons,
    ← List.map_append] at hroutes
  exact hroutes.1 (List.mem_map.2 ⟨other, hother, he.trans hname.symm⟩)

theorem forward_meets {d : Dispatcher} (hroutes : (d.routes.map (·.name)).Nodup) (name : String)
    (c : Command) (id : String) :
    d.Relays (d.forward name c).2 ∧
      d.Meets c id (d.forward name c).1 (d.forward name c).2 (.backend name) := by
  rw [forward]
  cases hi : d.routeIndex? name with
  | some i =>
    obtain ⟨hlt, hname, hsplit, hothers⟩ := split_of_routeIndex? hroutes hi
    refine ⟨rfl, rfl, .inl ⟨rfl, _, _, _, hsplit, hname, hothers, ?_⟩⟩
    show d.routes.modify i (·.deliver c) = _
    rw [List.modify_eq_take_cons_drop hlt, Route.deliver, Sink.put_eq]
  | none =>
    refine ⟨rfl, rfl, .inr ⟨rfl, rfl, fun route hroute => ?_⟩⟩
    simpa using List.findIdx?_eq_none_iff.1 hi route hroute

/-! ## Commands -/

theorem reportMissing_meets (d : Dispatcher) (c : Command) {token : Option Token}
    (h : c.request? = token) (id : String) :
    d.Relays (d.reportMissing token id).2 ∧
      d.Meets c id (d.reportMissing token id).1 (d.reportMissing token id).2 .nowhere := by
  rw [← h]
  exact ⟨rfl, rfl, rfl, rfl⟩

theorem serveObject_meets (d : Dispatcher) (token : Token) (id : String) {node : Container}
    (h : (d.catalog.resolve id).node? = some node) :
    d.Relays (d.serveObject token id) ∧
      d.Meets (.browseObject token id) id (.ok ()) (d.serveObject token id)
        (.client token node) := by
  rw [serveObject_eq h]
  refine ⟨rfl, rfl, rfl, _, rfl, rfl, ?_, ⟨token, id, rfl⟩, d.heading_presented node⟩
  simp [Event.completes, Event.token?]

theorem changeObject_meets {d : Dispatcher} (hroutes : (d.routes.map (·.name)).Nodup)
    (id : String) {c : Command} (hc : c.request? = none) :
    d.Relays (d.changeObject id c).2 ∧
      d.Meets c id (d.changeObject id c).1 (d.changeObject id c).2
        (c.destination (d.catalog.resolve id)) := by
  rw [changeObject]
  cases d.catalog.resolve id with
  | served node =>
    rw [Command.destination, hc]
    exact ⟨rfl, rfl, rfl⟩
  | delegated name node exact =>
    have hbackend : c.destination (.delegated name node exact) = .backend name := by
      cases c <;> first | rfl | cases hc
    rw [hbackend]
    exact forward_meets hroutes name c id
  | missing => exact reportMissing_meets d c hc id

/-- A command for an object goes where the catalog tells, and changes nothing else. -/
theorem handleCommand_meets {d : Dispatcher} {c : Command} {id : String}
    (hc : c.targetId? = some id) (hroutes : (d.routes.map (·.name)).Nodup)
    (hd : d.catalog.Fits) (now : Nat) :
    ∃ answer, d.handleCommand now c = .ok answer ∧ d.Relays answer.2 ∧
      d.Meets c id answer.1 answer.2 (c.destination (d.catalog.resolve id)) := by
  cases c with
  | browseObject token target =>
    cases hc
    rw [handleCommand]
    cases hr : d.catalog.resolve id with
    | served node =>
      have hmeets := d.serveObject_meets token id (congrArg Resolution.node? hr)
      exact ⟨_, rfl, hmeets⟩
    | delegated name node exact =>
      cases exact with
      | true =>
        have hmeets := d.serveObject_meets token id (congrArg Resolution.node? hr)
        exact ⟨_, rfl, hmeets⟩
      | false => exact ⟨_, rfl, forward_meets hroutes name _ id⟩
    | missing => exact ⟨_, rfl, reportMissing_meets d (.browseObject token id) rfl id⟩
  | browseChildren token target start count oneAnswer =>
    cases hc
    rw [handleCommand]
    cases hr : d.catalog.resolve id with
    | served node =>
      obtain ⟨items, hserve, hitems⟩ := serveChildren_eq hd token hr start count
      simp only [hserve, bind, Except.bind]
      refine ⟨_, rfl, rfl, rfl, rfl, _, rfl, rfl, ?_,
        token, start, count, oneAnswer, rfl, rfl, rfl, hitems⟩
      simp [Event.completes]
    | delegated name node exact => exact ⟨_, rfl, forward_meets hroutes name _ id⟩
    | missing =>
      exact ⟨_, rfl,
        reportMissing_meets d (.browseChildren token id start count oneAnswer) rfl id⟩
  | spliceChildren target index delete items =>
    cases hc
    exact ⟨_, rfl, changeObject_meets hroutes id rfl⟩
  | sort target =>
    cases hc
    exact ⟨_, rfl, changeObject_meets hroutes id rfl⟩
  | saveLocal target =>
    cases hc
    exact ⟨_, rfl, changeObject_meets hroutes id rfl⟩
  | _ => cases hc

/-- A request for an object below a container of a backend goes to the queue of that backend,
and clients are told nothing yet. -/
theorem handleCommand_below_claimed :
    let dirs := { Container.new "/dirs" "Directories" .directory with backend := some "files" }
    let d : Dispatcher := { (default : Dispatcher) with
      catalog := (Catalog.empty.add dirs).1
      routes := [⟨"radio", {}, .new⟩, ⟨"files", {}, .new⟩] }
    ∃ d', d.handleCommand 0 (.browseObject ⟨7⟩ "/dirs/a") = .ok (.ok (), d') ∧
      d'.published = [] ∧ d.Queues "files" (.browseObject ⟨7⟩ "/dirs/a") d' := by
  intro dirs d
  have hfits : d.catalog.Fits := Catalog.fits_of_sizeOf (by decide)
  obtain ⟨⟨r, d'⟩, hhandle, -, hmeets⟩ := handleCommand_meets
    (rfl : Command.targetId? (.browseObject ⟨7⟩ "/dirs/a") = some "/dirs/a")
    (by decide : (d.routes.map (·.name)).Nodup) hfits 0
  have hdestination : Command.destination (.browseObject ⟨7⟩ "/dirs/a")
      (d.catalog.resolve "/dirs/a") = .backend "files" := rfl
  rw [hdestination] at hmeets
  obtain ⟨hpublished, ⟨hr, hqueues⟩ | ⟨-, -, hnone⟩⟩ := hmeets
  · cases hr
    exact ⟨d', hhandle, hpublished, hqueues⟩
  · exact absurd rfl (hnone ⟨"files", {}, .new⟩ (by simp [d]))

end Dispatcher

end Mediatheque
