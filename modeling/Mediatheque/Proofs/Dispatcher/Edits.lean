import Mathlib.Logic.Relation
import Mediatheque.Proofs.Dispatcher.Run

/-!
# What handling is made up of

Whatever the dispatcher handles comes to small changes, one after the other: clients are told of
an event, backends are handed a command, or one part of the dispatcher becomes another (`Edit`).
Which effects a command, a report and so an input may have is said once (`Command.May`,
`BackendEvent.May`, `Input.May`), and `edits_handle` says that there are no others.

So what no effect of an input touches is left alone by all of its handling. Which effects spare a
part of the dispatcher is a matter of `Edit`, constructor by constructor; which inputs have only
such effects is one of `May`.
-/

namespace Mediatheque

namespace Dispatcher

/-! ## Effects -/

/-- What handling may do to the dispatcher. -/
inductive Effect where
  /-- Clients are told of an event. -/
  | tell (e : Event)
  /-- Backends are handed a command. -/
  | hand (c : Command)
  | delete (id : String)
  | add (container : Container)
  | merge (id : String) (fields : Dictionary Json)
  /-- A value of a setting is stored. -/
  | store
  /-- A value is applied to the export table. -/
  | apply
  /-- A directory is exported, or no longer is. -/
  | expose
  /-- The list of devices changes. -/
  | enlist
  /-- A token is handed out. -/
  | number
  /-- A rescan begins, or ends at a backend. -/
  | rescan
  /-- The creation of a database ends at a backend. -/
  | creation
  /-- The caches are cleared. -/
  | purge

/-- A change of one part of the dispatcher, with its effect. -/
inductive Edit (d : Dispatcher) : Effect → Dispatcher → Prop where
  | tell (e : Event) : Edit d (.tell e) (d.publish e)
  | forward (c : Command) (i : Nat) :
    Edit d (.hand c) { d with routes := d.routes.modify i (·.deliver c) }
  | broadcast (c : Command) (takesPart : Capabilities → Bool) :
    Edit d (.hand c) (d.broadcast takesPart c)
  | delete (id : String) : Edit d (.delete id) { d with catalog := (d.catalog.delete id).1 }
  | add (container : Container) :
    Edit d (.add container) { d with catalog := (d.catalog.add container).1 }
  | merge {id : String} {fields : Dictionary Json} {catalog : Catalog} {result : Catalog.Merge}
    (h : d.catalog.merge id fields = .ok (catalog, result)) :
    Edit d (.merge id fields) { d with catalog := catalog }
  | store (persister : Persister) : Edit d .store { d with persister := persister }
  | apply (name : String) (value : ParameterValue) :
    Edit d .apply { d with exports := (d.exports.setParameter name value).1 }
  | exported (path : String) : Edit d .expose { d with exports := d.exports.add path }
  | unexported (path : String) : Edit d .expose { d with exports := d.exports.delete path }
  | enlist (devices : List RemoteDevice) : Edit d .enlist { d with devices := devices }
  | number (nextToken : UInt64) : Edit d .number { d with nextToken := nextToken }
  | rescan (rescan : Barrier Token) : Edit d .rescan { d with rescan := rescan }
  | creation (creation : Barrier Unit) : Edit d .creation { d with creation := creation }
  | purge : Edit d .purge d.purge

/-- Edits one after the other, with effects of some kind. -/
abbrev Edits (may : Effect → Prop) : Dispatcher → Dispatcher → Prop :=
  Relation.ReflTransGen fun d d' => ∃ e, may e ∧ Edit d e d'

namespace Edits

variable {may more : Effect → Prop} {d d' d'' : Dispatcher} {e : Effect}

theorem refl (d : Dispatcher) : Edits may d d := Relation.ReflTransGen.refl

theorem single (h : Edit d e d') (he : may e) : Edits may d d' :=
  Relation.ReflTransGen.single ⟨e, he, h⟩

theorem andThen (h : Edits may d d') (h' : Edit d' e d'') (he : may e) : Edits may d d'' :=
  Relation.ReflTransGen.tail h ⟨e, he, h'⟩

theorem mono (h : Edits may d d') (hmore : ∀ e, may e → more e) : Edits more d d' :=
  Relation.ReflTransGen.mono (fun _ _ ⟨e, he, hedit⟩ => ⟨e, hmore e he, hedit⟩) _ _ h

/-- An answer that comes of edits. -/
theorem of_ok {r : Except DispatchError Unit} {p : Except DispatchError Unit × Dispatcher}
    (hp : Edits may d p.2) (h : (.ok p : Except Fault _) = .ok (r, d')) : Edits may d d' := by
  cases h
  exact hp

/-- What every edit leaves between the dispatchers before and after is so of all together. -/
theorem all {R : Dispatcher → Dispatcher → Prop} (h : Edits may d d') (hrefl : ∀ d, R d d)
    (htrans : ∀ {a b c}, R a b → R b c → R a c)
    (hedit : ∀ {a b e}, may e → Edit a e b → R a b) : R d d' := by
  induction h with
  | refl => exact hrefl d
  | tail _ hlast ih =>
    obtain ⟨e, he, hlast⟩ := hlast
    exact htrans ih (hedit he hlast)

end Edits

/-! ## Effects of commands -/

/-- The effects of a rescan that is asked for. -/
inductive Effect.OfRescan : Effect → Prop where
  | number : OfRescan .number
  | rescan : OfRescan .rescan
  | purge : OfRescan .purge
  | hand (token : Token) : OfRescan (.hand (.rescan token))
  | tell (token : Token) : OfRescan (.tell (.rescanDone token))

end Dispatcher

/-- A command may start a rescan, which clears the caches. -/
def Command.AsksRescan : Command → Prop
  | .rescan _ => True
  | .setParameter context name _ => context = generalContext ∧ name = rescanParameter
  | _ => False

open Dispatcher (Effect) in
/-- The effects that a command may have. -/
inductive Command.May : Command → Effect → Prop where
  | hand {c : Command} (h : c.isQuit = false) : May c (.hand c)
  | missing {c : Command} {id : String} (h : c.targetId? = some id) (token : Option Token) :
    May c (.tell (.notFound token id))
  | object (token : Token) (id : String) (object : Container) :
    May (.browseObject token id) (.tell (.object token object))
  | page (token : Token) (id : String) (start : UInt64) (count : Option UInt64)
    (oneAnswer : Bool) (items : List Container) :
    May (.browseChildren token id start count oneAnswer)
      (.tell (.spliceChildren (some token) id true start 0 items))
  | store (context name : String) (value : ParameterValue) :
    May (.setParameter context name value) .store
  | apply (name : String) (value : ParameterValue) :
    May (.setParameter generalContext name value) .apply
  | rescan {c : Command} {e : Effect} (h : c.AsksRescan) (he : e.OfRescan) : May c e
  | enlist (device : RemoteDevice) : May (.remoteDeviceAdded device) .enlist
  | added (device : RemoteDevice) : May (.remoteDeviceAdded device) (.tell (.backendAdded device))
  | strike (uri : String) : May (.remoteDeviceRemoved uri) .enlist
  | removed (uri : String) : May (.remoteDeviceRemoved uri) (.tell (.backendRemoved uri))

/-! ## Effects of reports -/

/-- A report may change the catalog. -/
def BackendEvent.Relists : BackendEvent → Prop
  | .publish (.objectChanged ..) | .addRootContainer _ | .deleteRootContainer _ => True
  | _ => False

/-- A report neither changes the catalog nor is an event to hand on. -/
def BackendEvent.Aside : BackendEvent → Prop
  | .publish _ | .addRootContainer _ | .deleteRootContainer _ => False
  | _ => True

theorem BackendEvent.Aside.not_relists {r : BackendEvent} (h : r.Aside) : ¬ r.Relists := by
  intro hlists
  cases r with
  | publish | addRootContainer | deleteRootContainer => exact h
  | _ => exact hlists

open Dispatcher (Effect) in
/-- The effects that a report may have. -/
inductive BackendEvent.May : BackendEvent → Effect → Prop where
  | relay (d : Dispatcher) (e : Event) : May (.publish e) (.tell (d.presentEvent e))
  | merge (id : String) (fields : Dictionary Json) :
    May (.publish (.objectChanged id fields)) (.merge id fields)
  | add (container : Container) : May (.addRootContainer container) (.add container)
  | replace (container : Container) : May (.addRootContainer container) (.delete container.id)
  | delete (id : String) : May (.deleteRootContainer id) (.delete id)
  | splice {r : BackendEvent} (h : r.Relists) (last : Bool) (index delete : UInt64)
    (items : List Container) : May r (.tell (.spliceChildren none "/" last index delete items))
  | exported (path : String) : May (.exportMediaDir path) .expose
  | unexported (path : String) : May (.unexportMediaDir path) .expose
  | rescan : May .rescanComplete .rescan
  | rescanned (token : Token) : May .rescanComplete (.tell (.rescanDone token))
  | creation : May .creationDone .creation
  | created : May .creationDone (.tell .creationDone)
  | store (name : String) (value : ParameterValue) : May (.parameterChanged name value) .store
  | setting (context name : String) (value : ParameterValue) :
    May (.parameterChanged name value) (.tell (.parameterChanged context name value))

namespace Dispatcher

variable {may : Effect → Prop} {d d' : Dispatcher}

/-! ## Commands -/

theorem edits_forward (d : Dispatcher) (name : String) {c : Command} (hc : may (.hand c)) :
    Edits may d (d.forward name c).2 := by
  rw [forward]
  split
  · exact .single (.forward c _) hc
  · exact .refl d

theorem edits_changeObject (d : Dispatcher) {id : String} {c : Command}
    (hid : c.targetId? = some id) (hc : c.isQuit = false) :
    Edits c.May d (d.changeObject id c).2 := by
  rw [changeObject]
  split
  · exact .refl d
  · exact edits_forward d _ (.hand hc)
  · exact .single (.tell _) (.missing hid none)

theorem edits_browseObject {now : Nat} {token : Token} {id : String}
    {r : Except DispatchError Unit}
    (h : d.handleCommand now (.browseObject token id) = .ok (r, d')) :
    Edits (Command.browseObject token id).May d d' := by
  have hserve : Edits (Command.browseObject token id).May d (d.serveObject token id) := by
    rw [serveObject]
    split
    · exact .single (.tell _) (.object token id _)
    · exact .refl d
  rw [handleCommand] at h
  split at h
  · exact hserve.of_ok h
  · exact hserve.of_ok h
  · exact (edits_forward d _ (.hand rfl)).of_ok h
  · exact (Edits.single (.tell _) (.missing rfl (some token))).of_ok h

theorem edits_browseChildren {now : Nat} {token : Token} {id : String} {start : UInt64}
    {count : Option UInt64} {oneAnswer : Bool} {r : Except DispatchError Unit}
    (h : d.handleCommand now (.browseChildren token id start count oneAnswer) = .ok (r, d')) :
    Edits (Command.browseChildren token id start count oneAnswer).May d d' := by
  rw [handleCommand] at h
  split at h
  · obtain ⟨served, hserve, h⟩ := Fault.bind_eq_ok_iff.1 h
    obtain ⟨page, -, hserve⟩ := Fault.bind_eq_ok_iff.1 hserve
    cases h
    cases page with
    | none =>
      cases hserve
      exact .refl d
    | some page =>
      cases hserve
      exact .single (.tell _) (.page token id start count oneAnswer _)
  · exact (edits_forward d _ (.hand rfl)).of_ok h
  · exact (Edits.single (.tell _) (.missing rfl (some token))).of_ok h

theorem edits_startRescan (d : Dispatcher) (token : Token) :
    Edits Effect.OfRescan d (d.startRescan token).2 := by
  have hbegin (rescan : Barrier Token) : Edits Effect.OfRescan d { d with rescan := rescan } :=
    .single (.rescan rescan) .rescan
  rw [startRescan]
  split
  · exact .refl d
  · exact ((hbegin _).andThen .purge .purge).andThen (.tell _) (.tell _)
  · exact ((hbegin _).andThen (.broadcast (.rescan token) (·.rescan)) (.hand token)).andThen
      .purge .purge

theorem edits_setParameter (d : Dispatcher) (now : Nat) (context name : String)
    (value : ParameterValue) :
    Edits (Command.setParameter context name value).May d
      (d.setParameter now context name value).2 := by
  have hstore (persister : Persister) : Edits (Command.setParameter context name value).May d
      { d with persister := persister } :=
    .single (.store persister) (.store context name value)
  rw [setParameter]
  split
  · rename_i hcontext
    subst hcontext
    rw [setOwnParameter]
    split
    · exact .refl d
    · rename_i persister _
      dsimp only
      split
      · rename_i hname
        have hasks : (Command.setParameter generalContext name value).AsksRescan := ⟨rfl, hname⟩
        exact ((hstore persister).andThen (.number _) (.rescan hasks .number)).trans
          ((edits_startRescan _ _).mono fun _ => .rescan hasks)
      · exact (hstore persister).andThen (.apply name value) (.apply name value)
  · split
    · exact .refl d
    · split
      · exact .refl d
      · exact (hstore _).trans (edits_forward _ _ (.hand rfl))

theorem edits_addDevice (d : Dispatcher) (device : RemoteDevice) :
    Edits (Command.remoteDeviceAdded device).May d (d.addDevice device) := by
  rw [addDevice]
  split
  · exact .refl d
  · exact ((Edits.single (.broadcast _ _) (.hand rfl)).andThen (.enlist _)
      (.enlist device)).andThen (.tell _) (.added device)

theorem edits_removeDevice (d : Dispatcher) (uri : String) :
    Edits (Command.remoteDeviceRemoved uri).May d (d.removeDevice uri) :=
  ((Edits.single (.enlist _) (.strike uri)).andThen (.broadcast _ _) (.hand rfl)).andThen
    (.tell _) (.removed uri)

/-- A command has no effects but those that it may have. -/
theorem edits_handleCommand {now : Nat} {c : Command} {r : Except DispatchError Unit}
    (h : d.handleCommand now c = .ok (r, d')) : Edits c.May d d' := by
  cases c with
  | browseObject token id => exact edits_browseObject h
  | browseChildren token id start count oneAnswer => exact edits_browseChildren h
  | spliceChildren id index delete items => exact (edits_changeObject d rfl rfl).of_ok h
  | sort id => exact (edits_changeObject d rfl rfl).of_ok h
  | saveLocal id => exact (edits_changeObject d rfl rfl).of_ok h
  | rescan token =>
    exact ((edits_startRescan d token).mono fun _ => .rescan trivial).of_ok h
  | setParameter context name value => exact (edits_setParameter d now context name value).of_ok h
  | remoteDeviceAdded device => exact (edits_addDevice d device).of_ok h
  | remoteDeviceRemoved uri => exact (edits_removeDevice d uri).of_ok h
  | volumeAdded id volume => exact (Edits.single (.broadcast _ _) (.hand rfl)).of_ok h
  | volumeRemoved id => exact (Edits.single (.broadcast _ _) (.hand rfl)).of_ok h
  | quit => exact (Edits.refl d).of_ok h

/-! ## Reports -/

theorem edits_deleteContainer (d : Dispatcher) {r : BackendEvent} (hr : r.Relists) {id : String}
    (hid : r.May (.delete id)) : Edits r.May d (d.deleteContainer id) := by
  have hdelete : Edits r.May d { d with catalog := (d.catalog.delete id).1 } :=
    .single (.delete id) hid
  rw [deleteContainer]
  split
  · rename_i heq
    rw [heq] at hdelete
    exact hdelete.andThen (.tell _) (.splice hr _ _ _ _)
  · exact .refl d

theorem edits_addContainer (d : Dispatcher) (container : Container) :
    Edits (BackendEvent.addRootContainer container).May d (d.addContainer container) := by
  have hlists : (BackendEvent.addRootContainer container).Relists := trivial
  exact ((edits_deleteContainer d hlists (.replace container)).andThen (.add container)
    (.add container)).andThen (.tell _) (.splice hlists _ _ _ _)

/-- Handing on an event: changed fields are merged, which may move a top-level container, and
any other event is handed on as clients see it. -/
theorem relay_cases {e : Event} (h : d.relay e = .ok d') :
    d' = d.publish (d.presentEvent e) ∨
      ∃ id fields catalog merge, e = .objectChanged id fields ∧
        d.catalog.merge id fields = .ok (catalog, merge) ∧
        (((∀ source target, merge ≠ .moved source target) ∧
            d' = { d with catalog := catalog }.publish e) ∨
          ∃ source target, merge = .moved source target ∧
            d' = ({ d with catalog := catalog }.publish e).publishMove source target) := by
  cases e with
  | objectChanged id fields =>
    obtain ⟨⟨catalog, merge⟩, hm, h⟩ := Fault.bind_eq_ok_iff.1 h
    refine .inr ⟨id, fields, catalog, merge, rfl, hm, ?_⟩
    cases merge with
    | moved source target => exact .inr ⟨source, target, rfl, (Except.ok.inj h).symm⟩
    | missing => exact .inl ⟨by simp, (Except.ok.inj h).symm⟩
    | inPlace => exact .inl ⟨by simp, (Except.ok.inj h).symm⟩
  | _ => exact .inl (Except.ok.inj h).symm

theorem edits_relay {e : Event} (h : d.relay e = .ok d') :
    Edits (BackendEvent.publish e).May d d' := by
  rcases relay_cases h with
    rfl | ⟨id, fields, catalog, merge, rfl, hm, ⟨-, rfl⟩ | ⟨source, target, -, rfl⟩⟩
  · exact .single (.tell _) (.relay d e)
  · exact (Edits.single (.merge hm) (.merge id fields)).andThen (.tell _) (.relay d _)
  · have hmerged : Edits (BackendEvent.publish (.objectChanged id fields)).May d
        ({ d with catalog := catalog }.publish (.objectChanged id fields)) :=
      (Edits.single (.merge hm) (.merge id fields)).andThen (.tell _) (.relay d _)
    have hlists : (BackendEvent.publish (.objectChanged id fields)).Relists := trivial
    rw [publishMove]
    split
    · exact hmerged
    · exact (hmerged.andThen (.tell _) (.splice hlists _ _ _ _)).andThen (.tell _)
        (.splice hlists _ _ _ _)

theorem edits_completeRescan (d : Dispatcher) (backend : String) :
    Edits BackendEvent.rescanComplete.May d (d.completeRescan backend) := by
  rw [completeRescan]
  split
  · exact (Edits.single (.rescan _) .rescan).andThen (.tell _) (.rescanned _)
  · exact .single (.rescan _) .rescan

theorem edits_completeCreation (d : Dispatcher) (backend : String) :
    Edits BackendEvent.creationDone.May d (d.completeCreation backend) := by
  rw [completeCreation]
  split
  · exact (Edits.single (.creation _) .creation).andThen (.tell _) .created
  · exact .single (.creation _) .creation

theorem edits_noteParameter (d : Dispatcher) (now : Nat) (backend name : String)
    (value : ParameterValue) :
    Edits (BackendEvent.parameterChanged name value).May d
      (d.noteParameter now backend name value) := by
  rw [noteParameter]
  refine Edits.andThen ?_ (.tell _) (.setting backend name value)
  split
  · exact .single (.store _) (.store name value)
  · exact .refl d

/-- A report has no effects but those that it may have. -/
theorem edits_handleReport {now : Nat} {m : BackendMessage} (h : d.handleReport now m = .ok d') :
    Edits m.event.May d d' := by
  obtain ⟨backend, event⟩ := m
  cases event with
  | publish e => exact edits_relay h
  | addRootContainer container =>
    cases h
    exact edits_addContainer d container
  | deleteRootContainer id =>
    cases h
    exact edits_deleteContainer (r := .deleteRootContainer id) d trivial (.delete id)
  | exportMediaDir path =>
    cases h
    exact .single (.exported path) (.exported path)
  | unexportMediaDir path =>
    cases h
    exact .single (.unexported path) (.unexported path)
  | rescanComplete =>
    cases h
    exact edits_completeRescan d backend
  | creationDone =>
    cases h
    exact edits_completeCreation d backend
  | parameterChanged name value =>
    cases h
    exact edits_noteParameter d now backend name value

/-! ## Inputs -/

/-- The effects that an input may have. -/
def Input.May : Input → Effect → Prop
  | .command _ c => c.May
  | .report _ m => m.event.May

/-- An input has no effects but those that it may have. -/
theorem edits_handle {i : Input} (h : d.handle i = .ok d') : Edits i.May d d' := by
  cases i with
  | command now c =>
    obtain ⟨⟨r, e⟩, hc, rfl⟩ := Fault.map_eq_ok_iff.1 h
    exact edits_handleCommand hc
  | report now m => exact edits_handleReport h

end Dispatcher

end Mediatheque
