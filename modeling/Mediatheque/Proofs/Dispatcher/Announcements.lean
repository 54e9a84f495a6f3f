import Mediatheque.Proofs.Dispatcher.Answers
import Mediatheque.Proofs.Dispatcher.Mirror
import Mediatheque.Proofs.Export.Addresses

/-!
# Announced top-level containers

Clients are told of a top-level container that is new or has moved, and may ask for all of them
afterwards. The root stays one that the catalog serves itself (`rooted_run`), so that the second
is answered with its listing. What is told stands at its place in that listing, with the position
and the number of siblings that it has there, but without the addresses that clients can fetch:
those are given to what clients ask for, and to the events of backends, but not to what the
dispatcher tells by itself (`listed_announcement`). So both are the same object exactly if no
address is due for it.
-/

namespace Mediatheque

open Container (heading heading_finalize)

/-- The item that an event puts into the listing of the root for all clients, and its place. -/
def Event.insertion? : Event → Option (UInt64 × Container)
  | .spliceChildren none id _ index _ [item] => if id = "/" then some (index, item) else none
  | _ => none

theorem insertion?_of_not_splicesRoot {e : Event} (h : ¬ e.SplicesRoot) : e.insertion? = none := by
  unfold Event.insertion?
  split
  · exact if_neg h
  · rfl

namespace Catalog

/-! ## The root -/

theorem resolve_slash {c : Catalog} (h : c.Rooted) : c.resolve "/" = .served c.root := by
  have hid : ObjectId.normalize "/" = "/" := by decide
  rw [resolve, Container.resolve, if_pos (by decide), hid]
  exact Container.walk_of_answerAt
    (Container.answerAt_eq_served_iff.2 ⟨rfl, h.backend_root, h.id_root⟩) _

end Catalog

namespace Dispatcher

/-! ## What is left of the root -/

theorem rooted_edit {d d' : Dispatcher} {e : Effect} (hd : d.catalog.Rooted) (h : Edit d e d') :
    d'.catalog.Rooted := by
  cases h with
  | delete id => exact hd.delete id
  | add container => exact hd.add container
  | merge hm => exact hd.merge hm
  | _ => exact hd

theorem rooted_handle {d d' : Dispatcher} (hd : d.catalog.Rooted) {i : Input}
    (h : d.handle i = .ok d') : d'.catalog.Rooted :=
  (edits_handle h).all (R := fun d d' => d.catalog.Rooted → d'.catalog.Rooted) (fun _ hd => hd)
    (fun hab hbc hd => hbc (hab hd)) (fun _ hedit hd => rooted_edit hd hedit) hd

/-- Whatever is handled, the catalog goes on serving the root itself. -/
theorem rooted_run {d d' : Dispatcher} (hd : d.catalog.Rooted) {inputs : List Input}
    (h : d.run inputs = .ok d') : d'.catalog.Rooted := by
  induction inputs using List.reverseRecOn generalizing d' with
  | nil =>
    cases h
    exact hd
  | append_singleton inputs i ih =>
    obtain ⟨e, hrun, hlast⟩ := run_append_singleton_eq_ok_iff.1 h
    exact rooted_handle (ih hrun) hlast

/-! ## Announcements -/

/-- A container as clients are told of it, with its place in the listing of the root. -/
def announcement (d : Dispatcher) (index : Nat) (node : Container) : UInt64 × Container :=
  (.ofNat index, node.finalize (some (.ofNat index)) (.ofNat d.catalog.children.length))

/-- The dispatcher `d'` has told more events than `d`, which put items into the listing of the
root. -/
def Announces (d d' : Dispatcher) (told : List (UInt64 × Container)) : Prop :=
  ∃ events, d'.published = d.published ++ events ∧ events.filterMap Event.insertion? = told

namespace Announces

theorem of_eq {d d' : Dispatcher} (h : d'.published = d.published) : Announces d d' [] :=
  ⟨[], by rw [h, List.append_nil], rfl⟩

theorem of_unmoved {d d' : Dispatcher} (h : Unmoved d d') : Announces d d' [] := by
  obtain ⟨events, hp, he⟩ := h.published
  exact ⟨events, hp,
    List.filterMap_eq_nil_iff.2 fun e hm => insertion?_of_not_splicesRoot (he e hm)⟩

theorem trans {a b c : Dispatcher} {told told' : List (UInt64 × Container)}
    (hab : Announces a b told) (hbc : Announces b c told') : Announces a c (told ++ told') := by
  obtain ⟨es, hes, rfl⟩ := hab
  obtain ⟨fs, hfs, rfl⟩ := hbc
  exact ⟨es ++ fs, by rw [hfs, hes, List.append_assoc], List.filterMap_append⟩

end Announces

theorem announces_publish (d : Dispatcher) (e : Event) :
    Announces d (d.publish e) e.insertion?.toList := by
  refine ⟨[e], rfl, ?_⟩
  cases h : e.insertion? with
  | none => exact List.filterMap_cons_none h
  | some p => exact List.filterMap_cons_some h

theorem announces_publishInsertion (d : Dispatcher) (index : Nat) (node : Container) :
    Announces d (d.publishInsertion index node) [d.announcement index node] :=
  announces_publish d _

theorem announces_deleteContainer (d : Dispatcher) (id : String) :
    Announces d (d.deleteContainer id) [] := by
  rw [deleteContainer]
  split
  · exact announces_publish _ _
  · exact .of_eq rfl

/-- Of a container that is added clients are told at the place where it stands. -/
theorem announces_addContainer (d : Dispatcher) (x : Container) :
    ∃ index, (d.addContainer x).catalog.children[index]? = some x ∧
      Announces d (d.addContainer x) [(d.addContainer x).announcement index x] :=
  ⟨_, (d.deleteContainer x.id).catalog.getElem?_add x,
    (announces_deleteContainer d x.id).trans (announces_publishInsertion _ _ x)⟩

/-- Of a container that has moved clients are told at the place where it stands. -/
theorem announces_publishMove {d : Dispatcher} (source : Nat) {target : Nat} {node : Container}
    (hnode : d.catalog.children[target]? = some node) :
    Announces d (d.publishMove source target) [d.announcement target node] := by
  rw [publishMove, hnode]
  exact (announces_publish d _).trans (announces_publishInsertion _ target node)

/-- What clients are told of stands where they are told. -/
def Locates (d : Dispatcher) (told : List (UInt64 × Container)) : Prop :=
  ∀ p ∈ told, ∃ index node, d.catalog.children[index]? = some node ∧ p = d.announcement index node

theorem locates_nil (d : Dispatcher) : d.Locates [] := nofun

theorem locates_singleton {d : Dispatcher} (index : Nat) (node : Container)
    (hnode : d.catalog.children[index]? = some node) : d.Locates [d.announcement index node] :=
  List.forall_mem_singleton.2 ⟨index, node, hnode, rfl⟩

/-- Changed fields are told of, and then the container that they move. -/
theorem announces_relay {d d' : Dispatcher} {e : Event} (he : ¬ e.SplicesRoot)
    (h : d.relay e = .ok d') : ∃ told, Announces d d' told ∧ d'.Locates told := by
  rcases relay_cases h with
    rfl | ⟨id, fields, catalog, merge, rfl, hm, ⟨-, rfl⟩ | ⟨source, target, rfl, rfl⟩⟩
  · have hp : ¬ (d.presentEvent e).SplicesRoot := mt (splicesRoot_presentEvent d e).1 he
    exact ⟨[], .of_unmoved ⟨rfl, [_], rfl, by simpa using hp⟩, locates_nil _⟩
  · exact ⟨[], announces_publish _ _, locates_nil _⟩
  · obtain ⟨-, ⟨node, hnode, -⟩, -⟩ := Catalog.tells_merge hm
    have hcatalog := catalog_publishMove
      ({ d with catalog := catalog }.publish (.objectChanged id fields)) source target
    refine ⟨_, ?_, locates_singleton target node ?_⟩
    · rw [announcement, hcatalog]
      exact (announces_publish _ _).trans (announces_publishMove source hnode)
    · rw [hcatalog]
      exact hnode

/-- Whatever a backend reports, clients are told of top-level containers at the places where
they stand, and of one that is added at any rate. -/
theorem announces_handleReport {d d' : Dispatcher} {now : Nat} {m : BackendMessage}
    (hm : ∀ e, m.event = .publish e → ¬ e.SplicesRoot) (h : d.handleReport now m = .ok d') :
    ∃ told, Announces d d' told ∧ d'.Locates told ∧
      ∀ x, m.event = .addRootContainer x → ∃ p ∈ told, heading p.2 = heading x := by
  obtain ⟨backend, event⟩ := m
  cases event with
  | publish e =>
    obtain ⟨told, ha, hl⟩ := announces_relay (hm e rfl) h
    exact ⟨told, ha, hl, nofun⟩
  | addRootContainer x =>
    cases h
    obtain ⟨index, hx, ha⟩ := announces_addContainer d x
    refine ⟨_, ha, locates_singleton _ _ hx, ?_⟩
    rintro _ ⟨⟩
    exact ⟨_, List.mem_singleton_self _, heading_finalize x _ _⟩
  | deleteRootContainer id =>
    cases h
    exact ⟨[], announces_deleteContainer d id, locates_nil _, nofun⟩
  | _ => exact ⟨[], .of_unmoved (unmoved_handleReport h trivial), locates_nil d', nofun⟩

/-- An announced container stands at its place in the listing that clients are shown, where it
has its addresses. -/
theorem getElem?_listing_announcement {d : Dispatcher} (hd : d.catalog.Fits) {index : Nat}
    {node : Container} (hnode : d.catalog.children[index]? = some node) :
    (d.listing d.catalog.root)[(d.announcement index node).1.toNat]? =
      some (d.present (d.announcement index node).2) := by
  obtain ⟨hlt, -⟩ := List.getElem?_eq_some_iff.1 hnode
  have hsize := hd.children
  have hindex : (d.announcement index node).1.toNat = index :=
    UInt64.toNat_ofNat_of_lt' (by omega)
  rw [hindex]
  exact getElem?_listing hnode

/-- After any run from a catalog that serves its root, a report of a backend makes the dispatcher
tell clients of top-level containers; a report of a new one always does. A client that then asks
for all of them finds each at the place that was told, with the addresses that it can fetch. It
finds the object that was told exactly if that misses no address that is due for it. -/
theorem listed_announcement {start d d' : Dispatcher} (hstart : start.catalog.Rooted)
    {inputs : List Input} (hrun : start.run inputs = .ok d) {now : Nat} {m : BackendMessage}
    (hm : ∀ e, m.event = .publish e → ¬ e.SplicesRoot) (h : d.handleReport now m = .ok d')
    (hfits : d'.catalog.Fits) (now' : Nat) (token : Token) (oneAnswer : Bool) :
    ∃ events items,
      d'.published = d.published ++ events ∧
      d'.handleCommand now' (.browseChildren token "/" 0 none oneAnswer) =
        .ok (.ok (), d'.publish (.spliceChildren (some token) "/" true 0 0 items)) ∧
      (∀ x, m.event = .addRootContainer x → ∃ index item,
        (index, item) ∈ events.filterMap Event.insertion? ∧ heading item = heading x) ∧
      ∀ index item, (index, item) ∈ events.filterMap Event.insertion? →
        items[index.toNat]? = some (d'.present item) ∧
        (items[index.toNat]? = some item ↔
          item.Addressed d'.exports d'.disk.canonical? (some d'.stations)) := by
  have hroot := rooted_handle (i := .report now m) (rooted_run hstart hrun) h
  obtain ⟨told, ⟨events, hp, htold⟩, hlocates, hadded⟩ := announces_handleReport hm h
  refine ⟨events, d'.listing d'.catalog.root, hp,
    handleCommand_all hfits (Catalog.resolve_slash hroot) now' token oneAnswer, ?_, ?_⟩
  · intro x hx
    obtain ⟨⟨index, item⟩, hmem, hitem⟩ := hadded x hx
    exact ⟨index, item, htold ▸ hmem, hitem⟩
  · intro index item hmem
    obtain ⟨i, node, hnode, hitem⟩ := hlocates _ (htold ▸ hmem)
    have hlisted := getElem?_listing_announcement hfits hnode
    rw [← hitem] at hlisted
    refine ⟨hlisted, ?_⟩
    rw [hlisted, Option.some_inj]
    exact Container.addExternalUris_eq_self_iff

/-- A station that comes behind another container: clients are told of it, and find it with its
addresses at the place that was told. -/
theorem listed_announcement_station :
    let station : Container :=
      { Container.new "/r" "R" .directory with
        sources := { src := some [{ uri := "radiobrowser:///7" }] } }
    let start : Dispatcher := { (default : Dispatcher) with stations := ⟨"radio.test"⟩ }
    ∃ d d' events items index item,
      start.run [.report 0 ⟨"fs", .addRootContainer (.new "/b" "B" .directory)⟩] = .ok d ∧
      d.handleReport 0 ⟨"fs", .addRootContainer station⟩ = .ok d' ∧
      d'.published = d.published ++ events ∧
      d'.handleCommand 0 (.browseChildren ⟨1⟩ "/" 0 none false) =
        .ok (.ok (), d'.publish (.spliceChildren (some ⟨1⟩) "/" true 0 0 items)) ∧
      (index, item) ∈ events.filterMap Event.insertion? ∧ heading item = heading station ∧
      items[index.toNat]? = some (d'.present item) := by
  intro station start
  obtain ⟨d, d', hrun, hadd⟩ : ∃ d d',
      start.run [.report 0 ⟨"fs", .addRootContainer (.new "/b" "B" .directory)⟩] = .ok d ∧
      d.handleReport 0 ⟨"fs", .addRootContainer station⟩ = .ok d' := ⟨_, _, rfl, rfl⟩
  have hfits : d'.catalog.Fits := by
    cases hrun
    cases hadd
    exact Catalog.fits_of_sizeOf (by decide)
  obtain ⟨events, items, hp, hbrowse, hadded, hlisted⟩ :=
    listed_announcement Catalog.rooted_empty hrun (by simp) hadd hfits 0 ⟨1⟩ false
  obtain ⟨index, item, hmem, hitem⟩ := hadded station rfl
  exact ⟨d, d', events, items, index, item, hrun, hadd, hp, hbrowse, hmem, hitem,
    (hlisted index item hmem).1⟩

/-- A new dispatcher tells of a station without its playlist, and then lists it with that. -/
theorem not_announced_as_listed :
    ¬ ∀ (start d d' : Dispatcher) (inputs : List Input) (now : Nat) (m : BackendMessage)
        (events : List Event) (items : List Container),
      start.catalog = .empty → start.run inputs = .ok d → d.ids.Nodup →
      (∃ x, m.event = .addRootContainer x) ∨
        (∃ id fields, m.event = .publish (.objectChanged id fields)) →
      d.handleReport now m = .ok d' → d'.published = d.published ++ events →
      d'.handleCommand now (.browseChildren ⟨1⟩ "/" 0 none false) =
        .ok (.ok (), d'.publish (.spliceChildren (some ⟨1⟩) "/" true 0 0 items)) →
      ∀ index item, (index, item) ∈ events.filterMap Event.insertion? →
        items[index.toNat]? = some item := by
  intro h
  let station : Container :=
    { Container.new "/r" "R" .directory with
      sources := { src := some [{ uri := "radiobrowser:///x" }] } }
  let start : Dispatcher := { (default : Dispatcher) with stations := ⟨"radio.test"⟩ }
  have hitem := h start start _ [] 0 ⟨"fs", .addRootContainer station⟩ [_] [_] rfl rfl
    List.nodup_nil (.inl ⟨station, rfl⟩) rfl rfl rfl 0 _ (List.mem_singleton_self _)
  have haddressed := Container.addExternalUris_eq_self_iff.1 (Option.some.inj hitem)
  obtain ⟨source, hsource, huri⟩ := (Container.addressed_iff.1 haddressed).1.playlist
    "https://radio.test/m3u/url/x" (by decide)
  rw [List.mem_singleton.1 hsource] at huri
  revert huri
  decide

end Dispatcher

end Mediatheque
