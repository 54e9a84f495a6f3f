import Mediatheque.Proofs.Catalog.Parts
import Mediatheque.Proofs.Dispatcher.Mirror
import Mediatheque.Proofs.Dispatcher.Routing

/-!
# What clients get to see of internal fields

Objects reach clients in two ways. A backend hands on an event of its own, which gets addresses
and is published as it is for the rest (`Input.relayed`); or the dispatcher shows an object of
the catalog, which it finalizes first (`shown`). So the internal fields of an object itself are
seen only if a backend hands them on, and those of parts are seen wherever the parts are
(`discloses_handle`).

Over a run, everything is clean exactly if all that is handed on is, and the parts of all that
is shown (`clean_run_iff`). That is so if backends hand on clean objects and add containers
with clean parts, since the catalog has no other source of parts (`tidy_handle`).
-/

namespace Mediatheque

open Container (CleanParts)

/-- The objects in an event. -/
def Event.objects : Event → List Container
  | .spliceChildren _ _ _ _ _ items => items
  | .object _ c => [c]
  | _ => []

namespace Dispatcher

/-! ## What is shown -/

/-- The objects that a backend hands on. -/
def Input.relayed : Input → List Container
  | .report _ ⟨_, .publish e⟩ => e.objects
  | _ => []

/-- The objects that the dispatcher shows by itself when it handles an input. -/
def shown (d : Dispatcher) : Input → List Container
  | .command _ (.browseObject _ id) => (d.catalog.get? id).toList
  | .command _ (.browseChildren _ id start count _) =>
    match d.catalog.resolve id with
    | .served node => (node.children.drop start.toNat).take
        (windowCount start.toNat (count.map (·.toNat)) node.children.length)
    | _ => []
  | .report _ ⟨_, .addRootContainer container⟩ => [container]
  | .report _ ⟨_, .publish (.objectChanged id fields)⟩ =>
    match d.catalog.merge id fields with
    | .ok (catalog, .moved _ target) => catalog.children[target]?.toList
    | _ => []
  | _ => []

/-- What `d'` has told clients beyond `d` is as bare as what was handed on, and as clean as
that and the parts of what was shown. -/
def Discloses (d d' : Dispatcher) (relayed shown : List Container) : Prop :=
  ∃ events, d'.published = d.published ++ events ∧
    ((∀ e ∈ events, ∀ c ∈ e.objects, c.Bare) ↔ ∀ c ∈ relayed, c.Bare) ∧
    ((∀ e ∈ events, ∀ c ∈ e.objects, c.Clean) ↔
      (∀ c ∈ relayed, c.Clean) ∧ ∀ c ∈ shown, c.CleanParts)

theorem Discloses.trans {a b c : Dispatcher} {relayed relayed' shown shown' : List Container}
    (hab : Discloses a b relayed shown) (hbc : Discloses b c relayed' shown') :
    Discloses a c (relayed ++ relayed') (shown ++ shown') := by
  obtain ⟨es, hes, hbare, hclean⟩ := hab
  obtain ⟨fs, hfs, hbare', hclean'⟩ := hbc
  refine ⟨es ++ fs, by rw [hfs, hes, List.append_assoc], ?_, ?_⟩
  · rw [List.forall_mem_append, List.forall_mem_append, hbare, hbare']
  · rw [List.forall_mem_append, List.forall_mem_append, List.forall_mem_append, hclean, hclean']
    exact and_and_and_comm

/-- The dispatcher `d'` has told clients nothing of objects beyond `d`. -/
def Quiet (d d' : Dispatcher) : Prop := Discloses d d' [] []

theorem Quiet.of_eq {d d' : Dispatcher} (h : d'.published = d.published) : Quiet d d' :=
  ⟨[], by rw [h, List.append_nil], by simp, by simp⟩

theorem quiet_publish (d : Dispatcher) {e : Event} (h : e.objects = []) :
    Quiet d (d.publish e) :=
  ⟨[e], rfl, by simp [h], by simp [h]⟩

theorem Quiet.trans {a b c : Dispatcher} (hab : Quiet a b) (hbc : Quiet b c) : Quiet a c :=
  Discloses.trans hab hbc

/-- What shows clients no objects. -/
def Effect.ShowsNothing : Effect → Prop
  | .tell e => e.objects = []
  | _ => True

theorem Edits.quiet {d d' : Dispatcher} (h : Edits Effect.ShowsNothing d d') : Quiet d d' := by
  refine h.all (fun _ => .of_eq rfl) .trans fun he hedit => ?_
  cases hedit with
  | tell e => exact quiet_publish _ he
  | _ => exact .of_eq rfl

/-- Objects are shown bare, and as clean as the parts of what they were made from. -/
theorem discloses_publish (d : Dispatcher) {e : Event} {shown : List Container}
    (hbare : ∀ c ∈ e.objects, c.Bare)
    (hclean : (∀ c ∈ e.objects, c.Clean) ↔ ∀ c ∈ shown, c.CleanParts) :
    Discloses d (d.publish e) [] shown := by
  refine ⟨[e], rfl, ?_, ?_⟩
  · rw [List.forall_mem_singleton]
    exact iff_of_true hbare (by simp)
  · rw [List.forall_mem_singleton, hclean]
    simp

/-! ## Objects as clients see them -/

theorem bare_present_iff (d : Dispatcher) (c : Container) : (d.present c).Bare ↔ c.Bare :=
  Container.bare_addExternalUris_iff ..

theorem clean_present_iff (d : Dispatcher) (c : Container) : (d.present c).Clean ↔ c.Clean :=
  Container.clean_addExternalUris_iff ..

theorem bare_presented (d : Dispatcher) (node : Container) : (d.presented node).Bare := by
  unfold presented
  split
  · exact (bare_present_iff d _).2 (node.bare_finalize _ _)
  · exact (bare_present_iff d _).2 (node.bare_finalize _ _)

theorem clean_presented_iff (d : Dispatcher) (node : Container) :
    (d.presented node).Clean ↔ node.CleanParts := by
  unfold presented
  split
  · rw [clean_present_iff, Container.clean_finalize_iff]
  · rw [clean_present_iff, Container.clean_finalize_iff]

theorem bare_of_finalizePage {start total : UInt64} {page items : List Container}
    (h : finalizePage start total page = .ok items) : ∀ c ∈ items, c.Bare := by
  rw [finalizePage] at h
  split at h
  · cases h
    intro c hc
    obtain ⟨i, _, rfl⟩ := List.mem_mapIdx.1 hc
    exact Container.bare_finalize ..
  · cases h

theorem clean_finalizePage_iff {start total : UInt64} {page items : List Container}
    (h : finalizePage start total page = .ok items) :
    (∀ c ∈ items, c.Clean) ↔ ∀ c ∈ page, c.CleanParts := by
  rw [finalizePage] at h
  split at h
  · cases h
    simp only [List.forall_mem_iff_forall_getElem, List.length_mapIdx, List.getElem_mapIdx,
      Container.clean_finalize_iff]
  · cases h

/-- An event of a backend is told as the backend hands it on. -/
theorem discloses_presentEvent (d : Dispatcher) (e : Event) :
    Discloses d (d.publish (d.presentEvent e)) e.objects [] := by
  have hobjects : (d.presentEvent e).objects = e.objects.map d.present := by
    cases e <;> rfl
  refine ⟨[d.presentEvent e], rfl, ?_, ?_⟩
  · simp only [List.forall_mem_singleton, hobjects, List.forall_mem_map, bare_present_iff]
  · simp only [List.forall_mem_singleton, hobjects, List.forall_mem_map, clean_present_iff]
    simp

/-! ## Commands -/

theorem quiet_forward {d d' : Dispatcher} {name : String} {c : Command}
    {r : Except DispatchError Unit}
    (h : (.ok (d.forward name c) : Except Fault _) = .ok (r, d')) : Quiet d d' := by
  have hedits : Edits Effect.ShowsNothing d (d.forward name c).2 := edits_forward d name trivial
  exact (hedits.of_ok h).quiet

theorem quiet_reportMissing {d d' : Dispatcher} {token : Option Token} {id : String}
    {r : Except DispatchError Unit}
    (h : (.ok (d.reportMissing token id) : Except Fault _) = .ok (r, d')) : Quiet d d' := by
  cases h
  exact quiet_publish d rfl

/-- A command that does not browse shows no objects. -/
theorem quiet_handleCommand {d d' : Dispatcher} {now : Nat} {c : Command}
    {r : Except DispatchError Unit} (h : d.handleCommand now c = .ok (r, d'))
    (hc : c.request? = none) : Quiet d d' := by
  refine ((edits_handleCommand h).mono fun e hmay => ?_).quiet
  cases hmay with
  | object | page => cases hc
  | missing | added | removed => rfl
  | rescan _ he =>
    cases he with
    | tell token => rfl
    | _ => trivial
  | hand | store | apply | enlist | strike => trivial

theorem discloses_serveObject (d : Dispatcher) (token : Token) (id : String) :
    Discloses d (d.serveObject token id) [] (d.catalog.get? id).toList := by
  rw [serveObject]
  cases d.catalog.get? id with
  | some node =>
    refine discloses_publish d ?_ ?_
    · simpa [Event.objects] using d.bare_presented node
    · simp [Event.objects, clean_presented_iff]
  | none => exact Quiet.of_eq rfl

theorem discloses_serveChildren {d d' : Dispatcher} {token : Token} {id : String}
    {start : UInt64} {count : Option UInt64} {node : Container}
    (hnode : d.catalog.resolve id = .served node)
    (h : d.serveChildren token id start count = .ok d') :
    Discloses d d' [] ((node.children.drop start.toNat).take
      (windowCount start.toNat (count.map (·.toNat)) node.children.length)) := by
  rw [serveChildren, Catalog.browse, hnode] at h
  obtain ⟨r, hr, h⟩ := Fault.bind_eq_ok_iff.1 h
  obtain ⟨items, hitems, hr⟩ := Fault.bind_eq_ok_iff.1 hr
  cases hr
  cases h
  refine discloses_publish d ?_ ?_
  · simpa only [Event.objects, List.forall_mem_map, bare_present_iff] using
      bare_of_finalizePage hitems
  · simpa only [Event.objects, List.forall_mem_map, clean_present_iff] using
      clean_finalizePage_iff hitems

theorem discloses_browseObject {d d' : Dispatcher} {now : Nat} {token : Token} {id : String}
    {r : Except DispatchError Unit}
    (h : d.handleCommand now (.browseObject token id) = .ok (r, d')) :
    Discloses d d' [] (d.catalog.get? id).toList := by
  rw [handleCommand] at h
  rw [Catalog.get?]
  have hserve := discloses_serveObject d token id
  rw [Catalog.get?] at hserve
  cases hr : d.catalog.resolve id with
  | served node =>
    rw [hr] at h hserve
    cases h
    exact hserve
  | delegated backend node exact =>
    rw [hr] at h hserve
    cases exact with
    | true =>
      cases h
      exact hserve
    | false => exact quiet_forward h
  | missing =>
    rw [hr] at h
    exact quiet_reportMissing h

theorem discloses_browseChildren {d d' : Dispatcher} {now : Nat} {token : Token} {id : String}
    {start : UInt64} {count : Option UInt64} {oneAnswer : Bool} {r : Except DispatchError Unit}
    (h : d.handleCommand now (.browseChildren token id start count oneAnswer) = .ok (r, d')) :
    Discloses d d' []
      (d.shown (.command now (.browseChildren token id start count oneAnswer))) := by
  rw [handleCommand] at h
  rw [shown]
  cases hr : d.catalog.resolve id with
  | served node =>
    rw [hr] at h
    obtain ⟨d₁, hserve, h⟩ := Fault.bind_eq_ok_iff.1 h
    cases h
    exact discloses_serveChildren hr hserve
  | delegated backend node exact =>
    rw [hr] at h
    exact quiet_forward h
  | missing =>
    rw [hr] at h
    exact quiet_reportMissing h

theorem discloses_handleCommand {d d' : Dispatcher} {now : Nat} {c : Command}
    {r : Except DispatchError Unit} (h : d.handleCommand now c = .ok (r, d')) :
    Discloses d d' [] (d.shown (.command now c)) := by
  cases c with
  | browseObject token id => exact discloses_browseObject h
  | browseChildren token id start count oneAnswer => exact discloses_browseChildren h
  | _ => exact quiet_handleCommand h rfl

/-! ## Reports -/

theorem quiet_deleteContainer (d : Dispatcher) (id : String) :
    Quiet d (d.deleteContainer id) := by
  rw [deleteContainer]
  split
  · exact Quiet.trans (.of_eq rfl) (quiet_publish _ rfl)
  · exact .of_eq rfl

/-- A container that is put into the listing of the root is shown. -/
theorem discloses_publishInsertion (d : Dispatcher) (index : Nat) (container : Container) :
    Discloses d (d.publishInsertion index container) [] [container] := by
  refine discloses_publish d ?_ ?_
  · rw [Event.objects, List.forall_mem_singleton]
    exact Container.bare_finalize ..
  · rw [Event.objects, List.forall_mem_singleton, List.forall_mem_singleton]
    exact Container.clean_finalize_iff ..

theorem discloses_addContainer (d : Dispatcher) (container : Container) :
    Discloses d (d.addContainer container) [] [container] := by
  have hquiet := quiet_deleteContainer d container.id
  have hadded : Quiet (d.deleteContainer container.id)
      { d.deleteContainer container.id with
        catalog := ((d.deleteContainer container.id).catalog.add container).1 } := .of_eq rfl
  exact Discloses.trans (hquiet.trans hadded) (discloses_publishInsertion _ _ container)

/-- A container that has moved in the listing of the root is shown at its new place. -/
theorem discloses_publishMove (d : Dispatcher) (source target : Nat) :
    Discloses d (d.publishMove source target) [] d.catalog.children[target]?.toList := by
  rw [publishMove]
  cases d.catalog.children[target]? with
  | none => exact Quiet.of_eq rfl
  | some node =>
    have hquiet : Quiet d (d.publishRemoval source false) := quiet_publish d rfl
    exact Discloses.trans hquiet (discloses_publishInsertion _ target node)

/-- Of changed fields clients see no object unless one moves in the listing of the root. -/
theorem discloses_relayFields {d d' : Dispatcher} {now : Nat} {backend id : String}
    {fields : Dictionary Json} (h : d.relay (.objectChanged id fields) = .ok d') :
    Discloses d d' [] (d.shown (.report now ⟨backend, .publish (.objectChanged id fields)⟩)) := by
  rw [relay] at h
  obtain ⟨⟨catalog, merge⟩, hm, h⟩ := Fault.bind_eq_ok_iff.1 h
  have hquiet : Quiet d ({ d with catalog := catalog }.publish (.objectChanged id fields)) :=
    ⟨[_], rfl, by simp [Event.objects], by simp [Event.objects]⟩
  simp only [shown, hm]
  cases merge with
  | moved source target =>
    cases h
    exact Discloses.trans hquiet (discloses_publishMove _ source target)
  | inPlace =>
    cases h
    exact hquiet
  | missing =>
    cases h
    exact hquiet

theorem discloses_relay {d d' : Dispatcher} {now : Nat} {backend : String} {e : Event}
    (h : d.relay e = .ok d') :
    Discloses d d' e.objects (d.shown (.report now ⟨backend, .publish e⟩)) := by
  cases e with
  | objectChanged id fields => exact discloses_relayFields h
  | _ =>
    cases h
    exact discloses_presentEvent d _

/-- A report that neither hands on an event nor changes the catalog shows no objects. -/
theorem quiet_handleReport {d d' : Dispatcher} {now : Nat} {m : BackendMessage}
    (h : d.handleReport now m = .ok d') (hm : m.event.Aside) : Quiet d d' := by
  refine ((edits_handleReport h).mono fun e hmay => ?_).quiet
  generalize m.event = r at hm hmay
  cases hmay with
  | relay | merge | add | replace | delete => cases hm
  | splice hlists => exact absurd hlists hm.not_relists
  | rescanned | created | setting => rfl
  | exported | unexported | rescan | creation | store => trivial

theorem discloses_handleReport {d d' : Dispatcher} {now : Nat} {m : BackendMessage}
    (h : d.handleReport now m = .ok d') :
    Discloses d d' (Input.relayed (.report now m)) (d.shown (.report now m)) := by
  obtain ⟨backend, event⟩ := m
  cases event with
  | publish e => exact discloses_relay h
  | addRootContainer container =>
    cases h
    exact discloses_addContainer d container
  | deleteRootContainer id =>
    cases h
    exact quiet_deleteContainer d id
  | _ => exact quiet_handleReport h trivial

/-- What handling an input tells clients comes from what is handed on and what is shown. -/
theorem discloses_handle {d d' : Dispatcher} {i : Input} (h : d.handle i = .ok d') :
    Discloses d d' i.relayed (d.shown i) := by
  cases i with
  | command now c =>
    obtain ⟨⟨r, e⟩, hr, rfl⟩ := Fault.map_eq_ok_iff.1 h
    exact discloses_handleCommand hr
  | report now m => exact discloses_handleReport h

/-! ## Clean inputs -/

/-- The objects that a backend hands on are clean, and the containers that it adds have clean
parts throughout. -/
def Input.Tidy : Input → Prop
  | .report _ ⟨_, .publish e⟩ => ∀ c ∈ e.objects, c.Clean
  | .report _ ⟨_, .addRootContainer container⟩ => container.Tidy
  | _ => True

theorem Input.Tidy.relayed {i : Input} (h : i.Tidy) : ∀ c ∈ i.relayed, c.Clean := by
  unfold Input.relayed
  split
  · exact h
  · exact List.forall_mem_nil _

/-- The catalog stays tidy. -/
theorem tidy_handle {d d' : Dispatcher} {i : Input} (hd : d.catalog.Tidy) (hi : i.Tidy)
    (h : d.handle i = .ok d') : d'.catalog.Tidy := by
  refine (edits_handle h).all (R := fun d d' => d.catalog.Tidy → d'.catalog.Tidy)
    (fun _ hd => hd) (fun hab hbc hd => hbc (hab hd)) (fun hmay hedit hd => ?_) hd
  cases hedit with
  | delete id => exact Catalog.tidy_delete hd id
  | add container =>
    refine Catalog.tidy_add hd ?_
    cases i with
    | command now c =>
      cases hmay with
      | rescan _ he => cases he
    | report now m =>
      obtain ⟨backend, event⟩ := m
      cases hmay with
      | add => exact hi
  | merge hm => exact Catalog.tidy_merge hd hm
  | _ => exact hd

/-- What a tidy catalog has to show has clean parts. -/
theorem cleanParts_of_shown {d : Dispatcher} {i : Input} (hd : d.catalog.Tidy) (hi : i.Tidy) :
    ∀ c ∈ d.shown i, c.CleanParts := by
  intro c hc
  unfold shown at hc
  split at hc
  · exact (Catalog.tidy_of_node? hd (Option.mem_toList.1 hc)).cleanParts
  · split at hc
    · rename_i hr
      have hnode := Catalog.tidy_of_node? hd (congrArg Resolution.node? hr)
      exact (hnode.children c (List.mem_of_mem_drop (List.mem_of_mem_take hc))).cleanParts
    · cases hc
  · cases List.mem_singleton.1 hc
    exact Container.Tidy.cleanParts hi
  · split at hc
    · rename_i hm
      have hmerged := Catalog.tidy_merge hd hm
      exact (hmerged.children c (List.mem_of_getElem? (Option.mem_toList.1 hc))).cleanParts
    · cases hc
  · cases hc

/-! ## Runs -/

/-- The objects that the dispatcher shows by itself over a run. -/
def shownAlong (d : Dispatcher) : List Input → List Container
  | [] => []
  | i :: rest =>
    d.shown i ++
      match d.handle i with
      | .ok e => e.shownAlong rest
      | .error _ => []

/-- What a run tells clients comes from what is handed on and what is shown along it. -/
theorem discloses_run {d d' : Dispatcher} {inputs : List Input} (h : d.run inputs = .ok d') :
    Discloses d d' (inputs.flatMap Input.relayed) (d.shownAlong inputs) := by
  induction inputs generalizing d with
  | nil =>
    cases h
    exact Quiet.of_eq rfl
  | cons i rest ih =>
    obtain ⟨e, hi, hrest⟩ := Fault.bind_eq_ok_iff.1 h
    rw [List.flatMap_cons, shownAlong, hi]
    exact (discloses_handle hi).trans (ih hrest)

theorem cleanParts_of_shownAlong {d : Dispatcher} {inputs : List Input} (hd : d.catalog.Tidy)
    (hin : ∀ i ∈ inputs, i.Tidy) : ∀ c ∈ d.shownAlong inputs, c.CleanParts := by
  induction inputs generalizing d with
  | nil => exact List.forall_mem_nil _
  | cons i rest ih =>
    obtain ⟨hi, hin⟩ := List.forall_mem_cons.1 hin
    rw [shownAlong]
    refine List.forall_mem_append.2 ⟨cleanParts_of_shown hd hi, ?_⟩
    cases hh : d.handle i with
    | ok e => exact ih (tidy_handle hd hi hh) hin
    | error fault => exact List.forall_mem_nil _

/-- Over a run, clients see internal fields of an object itself exactly if a backend hands one
on with them, and they see those of parts exactly if such an object is handed on or shown. They
see none if the catalog is tidy and all inputs are. -/
theorem clean_run_iff {d d' : Dispatcher} {inputs : List Input} (h : d.run inputs = .ok d') :
    ∃ events, d'.published = d.published ++ events ∧
      ((∀ e ∈ events, ∀ c ∈ e.objects, c.Bare) ↔ ∀ i ∈ inputs, ∀ c ∈ i.relayed, c.Bare) ∧
      ((∀ e ∈ events, ∀ c ∈ e.objects, c.Clean) ↔
        (∀ i ∈ inputs, ∀ c ∈ i.relayed, c.Clean) ∧
          ∀ c ∈ d.shownAlong inputs, c.CleanParts) ∧
      (d.catalog.Tidy → (∀ i ∈ inputs, i.Tidy) → ∀ e ∈ events, ∀ c ∈ e.objects, c.Clean) := by
  obtain ⟨events, hp, hbare, hclean⟩ := discloses_run h
  rw [List.forall_mem_flatMap] at hbare hclean
  refine ⟨events, hp, hbare, hclean, fun hd hin => hclean.2 ⟨fun i hi => ?_, ?_⟩⟩
  · exact (hin i hi).relayed
  · exact cleanParts_of_shownAlong hd hin

/-- A container is added with internal fields, and asked for. -/
theorem clean_run_added :
    let streams : Container :=
      { Container.new "/streams" "Streams" .rootStreams with
        backend := some "radio"
        children := [.new "/streams/1" "One" .container]
        streams := some .null }
    let inputs : List Input := [
      .report 0 ⟨"radio", .addRootContainer streams⟩,
      .command 0 (.browseObject ⟨1⟩ "/streams"),
      .command 0 (.browseChildren ⟨2⟩ "/" 0 none true)]
    ∃ d', (default : Dispatcher).run inputs = .ok d' ∧
      (d'.published.flatMap Event.objects).length = 3 ∧
      ∀ e ∈ d'.published, ∀ c ∈ e.objects, c.Clean := by
  intro streams inputs
  have hrun : ∃ d', (default : Dispatcher).run inputs = .ok d' := ⟨_, rfl⟩
  obtain ⟨d', hrun⟩ := hrun
  obtain ⟨events, hp, -, -, hclean⟩ := clean_run_iff hrun
  have hstreams : streams.Tidy := by
    refine ⟨nofun, fun c hc => ?_⟩
    rw [List.mem_singleton.1 hc]
    exact ⟨nofun, nofun⟩
  have hin : ∀ i ∈ inputs, i.Tidy := by
    intro i hi
    simp only [inputs, List.mem_cons, List.not_mem_nil, or_false] at hi
    rcases hi with rfl | rfl | rfl
    · exact hstreams
    · trivial
    · trivial
  refine ⟨d', hrun, ?_, ?_⟩
  · cases hrun
    decide
  · rw [hp]
    exact hclean Catalog.tidy_empty hin

/-- An object that a backend hands on with its streams reaches clients with them. -/
theorem not_clean_run :
    ¬ ∀ persister options disk inputs d',
      (new .empty persister options disk).run inputs = .ok d' →
      ∀ e ∈ d'.published, ∀ c ∈ e.objects, c.Clean := by
  intro h
  have hclean := h default default default
    [.report 0 ⟨"files", .publish (.object ⟨1⟩
      { Container.new "/f/1" "One" .movie with streams := some .null })⟩] _ rfl
    _ (List.mem_singleton.2 rfl) _ (List.mem_singleton.2 rfl)
  have hstreams := ((bare_present_iff _ _).1 (Container.clean_iff.1 hclean).1).streams
  exact Option.some_ne_none _ hstreams

end Dispatcher

end Mediatheque
