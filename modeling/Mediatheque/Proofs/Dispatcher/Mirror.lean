import Mediatheque.Proofs.Catalog.Listing
import Mediatheque.Proofs.Dispatcher.Requests
import Mediatheque.Proofs.List

/-!
# The listing of the root as clients know it

A client that knows the ids of the top-level containers keeps up with the catalog by the
changes of the listing that it is told of (`mirror`). Whatever the dispatcher handles, the
positions it tells of lie within the listing that the client has so far, and the client ends
up with the ids of the catalog (`tells_handle`), so that it does after a whole run
(`keepsUp_run`, `mirror_run`).

Two things are needed for this: that the ids of the top-level containers are distinct, which
every input leaves so, and that no backend tells of changes of the listing by itself.
-/

namespace Mediatheque

open Container (heading heading_finalize)

/-! ## A client's listing -/

/-- Whether an event tells every client of a change of the root listing. -/
def Event.SplicesRoot : Event → Prop
  | .spliceChildren none id _ _ _ _ => id = "/"
  | _ => False

/-- What a client makes of an event. It does not know how to take away or to put in items
beyond the end of its listing. -/
def mirrorEvent (ids : List String) : Event → Option (List String)
  | .spliceChildren none id _ index delete items =>
    if id = "/" then
      if index.toNat + delete.toNat ≤ ids.length then
        some (ids.take index.toNat ++ items.map (·.id) ++ ids.drop (index.toNat + delete.toNat))
      else none
    else some ids
  | _ => some ids

/-- What a client makes of events. -/
def mirror (ids : List String) (events : List Event) : Option (List String) :=
  events.foldlM mirrorEvent ids

/-- The items that an event puts into the listing of the root are those of a listing, by id,
label and class. -/
def Event.Carries (listing : List Container) : Event → Prop
  | .spliceChildren none id _ index _ items =>
    id = "/" → ∀ j item, items[j]? = some item →
      ∃ node, listing[index.toNat + j]? = some node ∧ heading item = heading node
  | _ => True

theorem mirrorEvent_of_not_splicesRoot {e : Event} (h : ¬ e.SplicesRoot) (ids : List String) :
    mirrorEvent ids e = some ids := by
  cases e with
  | spliceChildren token id last index delete items =>
    cases token with
    | none => exact if_neg h
    | some token => rfl
  | _ => rfl

theorem carries_of_not_splicesRoot {e : Event} (h : ¬ e.SplicesRoot)
    (listing : List Container) : e.Carries listing := by
  cases e with
  | spliceChildren token id last index delete items =>
    cases token with
    | none => exact fun hid => absurd hid h
    | some token => trivial
  | _ => trivial

theorem mirror_append (ids : List String) (es fs : List Event) :
    mirror ids (es ++ fs) = mirror ids es >>= fun ids => mirror ids fs :=
  List.foldlM_append

theorem mirror_singleton (ids : List String) (e : Event) :
    mirror ids [e] = mirrorEvent ids e := by
  rw [mirror, List.foldlM_cons]
  cases mirrorEvent ids e <;> rfl

theorem mirror_of_not_splicesRoot {es : List Event} (h : ∀ e ∈ es, ¬ e.SplicesRoot)
    (ids : List String) : mirror ids es = some ids := by
  induction es with
  | nil => rfl
  | cons e es ih =>
    obtain ⟨he, hes⟩ := List.forall_mem_cons.1 h
    rw [mirror, List.foldlM_cons, mirrorEvent_of_not_splicesRoot he]
    exact ih hes

/-- A removal that a client is told of. -/
theorem mirrorEvent_removal {ids : List String} {i : Nat} (hi : i < ids.length)
    (hfit : ids.length < UInt64.size) (last : Bool) :
    mirrorEvent ids (.spliceChildren none "/" last (.ofNat i) 1 []) = some (ids.eraseIdx i) := by
  have hn : (UInt64.ofNat i).toNat = i := UInt64.toNat_ofNat_of_lt' (by omega)
  have h1 : (1 : UInt64).toNat = 1 := rfl
  rw [mirrorEvent, if_pos rfl, hn, h1, if_pos (by omega), List.map_nil, List.append_nil,
    List.eraseIdx_eq_take_drop_succ]

/-- An insertion that a client is told of. -/
theorem mirrorEvent_insertion {ids : List String} {i : Nat} (hi : i ≤ ids.length)
    (hfit : ids.length < UInt64.size) (item : Container) :
    mirrorEvent ids (.spliceChildren none "/" true (.ofNat i) 0 [item]) =
      some (ids.insertIdx i item.id) := by
  have hn : (UInt64.ofNat i).toNat = i := UInt64.toNat_ofNat_of_lt' (by omega)
  have h0 : (0 : UInt64).toNat = 0 := rfl
  rw [mirrorEvent, if_pos rfl, hn, h0, if_pos (by omega), List.map_singleton, Nat.add_zero,
    insertIdx_eq_take_cons_drop hi, List.append_assoc, List.singleton_append]

/-- An insertion tells the heading of the container at its place. -/
theorem carries_insertion {listing : List Container} {i : Nat} {item node : Container}
    (hnode : listing[i]? = some node) (hi : i < UInt64.size) (hitem : heading item = heading node) :
    Event.Carries listing (.spliceChildren none "/" true (.ofNat i) 0 [item]) := by
  intro _ j x hx
  obtain ⟨rfl, rfl⟩ : j = 0 ∧ item = x := by
    cases j with
    | zero => exact ⟨rfl, by simpa using hx⟩
    | succ j => simp at hx
  have hn : (UInt64.ofNat i).toNat = i := UInt64.toNat_ofNat_of_lt' hi
  exact ⟨node, by rw [hn, Nat.add_zero, hnode], hitem⟩

theorem carries_removal (listing : List Container) (last : Bool) (index : UInt64) :
    Event.Carries listing (.spliceChildren none "/" last index 1 []) := by
  intro _ j item hitem
  cases hitem

namespace Dispatcher

/-- The ids of the top-level containers, in the order of the listing. -/
def ids (d : Dispatcher) : List String := d.catalog.children.map (·.id)

/-- The dispatcher `d'` has told more events than `d`, by which a client gets from the one
listing to the other. -/
def Tells (d d' : Dispatcher) : Prop :=
  ∃ events, d'.published = d.published ++ events ∧ mirror d.ids events = some d'.ids ∧
    ∀ e ∈ events, e.Carries d'.catalog.children

/-- The dispatcher `d'` has the catalog of `d`, and has told nothing of the listing. -/
structure Unmoved (d d' : Dispatcher) : Prop where
  catalog : d'.catalog = d.catalog
  published : ∃ events, d'.published = d.published ++ events ∧ ∀ e ∈ events, ¬ e.SplicesRoot

namespace Unmoved

theorem of_eq {d d' : Dispatcher} (hc : d'.catalog = d.catalog)
    (hp : d'.published = d.published) : Unmoved d d' :=
  ⟨hc, [], by rw [hp, List.append_nil], by simp⟩

theorem refl (d : Dispatcher) : Unmoved d d := .of_eq rfl rfl

theorem trans {a b c : Dispatcher} (hab : Unmoved a b) (hbc : Unmoved b c) : Unmoved a c := by
  obtain ⟨es, hes, has⟩ := hab.published
  obtain ⟨fs, hfs, haf⟩ := hbc.published
  refine ⟨hbc.catalog.trans hab.catalog, es ++ fs, ?_, ?_⟩
  · rw [hfs, hes, List.append_assoc]
  · exact List.forall_mem_append.2 ⟨has, haf⟩

/-- Nothing is told of the listing if it stays. -/
theorem tells {d d' : Dispatcher} (h : Unmoved d d') (hids : d.ids.Nodup) :
    d'.ids.Nodup ∧ Tells d d' := by
  obtain ⟨events, hp, he⟩ := h.published
  have hsame : d'.ids = d.ids := by rw [ids, h.catalog, ids]
  refine ⟨hsame ▸ hids, events, hp, ?_, fun e hm => carries_of_not_splicesRoot (he e hm) _⟩
  rw [mirror_of_not_splicesRoot he, hsame]

end Unmoved

/-- What has nothing to do with the listing. -/
def Effect.SparesListing : Effect → Prop
  | .tell e => ¬ e.SplicesRoot
  | .delete _ | .add _ | .merge _ _ => False
  | _ => True

theorem Edits.unmoved {d d' : Dispatcher} (h : Edits Effect.SparesListing d d') :
    Unmoved d d' := by
  refine h.all .refl .trans fun he hedit => ?_
  cases hedit with
  | tell e => exact ⟨rfl, [e], rfl, List.forall_mem_singleton.2 he⟩
  | delete | add | merge => cases he
  | _ => exact .of_eq rfl rfl

/-- Nothing is told of the listing at a command. -/
theorem unmoved_handleCommand {d d' : Dispatcher} {now : Nat} {c : Command}
    {r : Except DispatchError Unit} (h : d.handleCommand now c = .ok (r, d')) : Unmoved d d' := by
  refine ((edits_handleCommand h).mono fun e hmay => ?_).unmoved
  cases hmay with
  | missing | object | page | added | removed => exact not_false
  | rescan _ he =>
    cases he with
    | tell token => exact not_false
    | _ => trivial
  | hand | store | apply | enlist | strike => trivial

/-- Nothing is told of the listing at a report that has nothing to do with it. -/
theorem unmoved_handleReport {d d' : Dispatcher} {now : Nat} {m : BackendMessage}
    (h : d.handleReport now m = .ok d') (hm : m.event.Aside) : Unmoved d d' := by
  refine ((edits_handleReport h).mono fun e hmay => ?_).unmoved
  generalize m.event = r at hm hmay
  cases hmay with
  | relay | merge | add | replace | delete => cases hm
  | splice hlists => exact absurd hlists hm.not_relists
  | rescanned | created | setting => exact not_false
  | exported | unexported | rescan | creation | store => trivial

theorem length_ids (d : Dispatcher) : d.ids.length = d.catalog.children.length :=
  List.length_map _

/-! ## Deletion and addition -/

theorem mem_ids_iff {d : Dispatcher} {id : String} :
    id ∈ d.ids ↔ d.catalog.root.childIndex? id ≠ none := by
  rw [Container.childIndex?, Ne, List.findIdx?_eq_none_iff, ids, List.mem_map]
  simp [Catalog.children]

/-- What is told of a deletion holds whatever becomes of the listing later. -/
theorem tells_deleteContainer {d : Dispatcher} (hd : d.catalog.Fits) (hids : d.ids.Nodup)
    (id : String) :
    (d.deleteContainer id).ids.Nodup ∧ id ∉ (d.deleteContainer id).ids ∧
      ∃ events, (d.deleteContainer id).published = d.published ++ events ∧
        mirror d.ids events = some (d.deleteContainer id).ids ∧
        ∀ e ∈ events, ∀ listing, e.Carries listing := by
  rw [deleteContainer]
  rcases d.catalog.delete_cases id with ⟨hi, h⟩ | ⟨position, node, hi, hnode, hid, h⟩
  · rw [h]
    exact ⟨hids, fun hm => mem_ids_iff.1 hm hi, [], by simp, rfl, by simp⟩
  · rw [h]
    have hlt : position < d.ids.length := by
      rw [length_ids]
      exact (List.getElem?_eq_some_iff.1 hnode).1
    have hat : d.ids[position]? = some id := by
      rw [ids, List.getElem?_map, hnode, Option.map_some, hid]
    have hrest :
        ({ d with
          catalog := d.catalog.withChildren (d.catalog.children.eraseIdx position)
        }.publishRemoval position true).ids = d.ids.eraseIdx position :=
      (List.eraseIdx_map ..).symm
    refine ⟨?_, ?_, [_], rfl, ?_, ?_⟩
    · rw [hrest]
      exact hids.eraseIdx position
    · rw [hrest]
      exact not_mem_eraseIdx hids hat
    · rw [mirror_singleton, mirrorEvent_removal hlt (length_ids d ▸ hd.children), hrest]
    · intro e he listing
      rw [List.mem_singleton.1 he]
      exact carries_removal listing true _

/-- What is told of an addition, where no container has the id. -/
theorem tells_insertion {d : Dispatcher} (hids : d.ids.Nodup) {x : Container} (hx : x.id ∉ d.ids)
    (hfit : (d.catalog.insertChild x).1.Fits) :
    let d' := { d with catalog := (d.catalog.insertChild x).1 }.publishInsertion
      (d.catalog.insertChild x).2 x
    d'.ids.Nodup ∧ Tells d d' := by
  intro d'
  have hle : Catalog.insertPosition x d.catalog.children ≤ d.ids.length := by
    rw [length_ids]
    exact Catalog.insertPosition_le x d.catalog.children
  have hd' : d'.ids = d.ids.insertIdx (Catalog.insertPosition x d.catalog.children) x.id :=
    List.map_insertIdx ..
  have hlen : d'.ids.length = d.ids.length + 1 := by
    rw [hd', List.length_insertIdx_of_le_length hle]
  have hsize : d'.ids.length < UInt64.size := by
    rw [length_ids]
    exact hfit.children
  refine ⟨?_, [_], rfl, ?_, ?_⟩
  · rw [hd', (List.perm_insertIdx x.id d.ids hle).nodup_iff]
    exact List.nodup_cons.2 ⟨hx, hids⟩
  · rw [mirror_singleton]
    refine (mirrorEvent_insertion hle (by omega) _).trans ?_
    rw [hd', (Container.heading_eq_iff.1 (heading_finalize x _ _)).1]
  · intro e he
    rw [List.mem_singleton.1 he]
    refine carries_insertion (d.catalog.getElem?_insertChild x) ?_ (heading_finalize x _ _)
    show Catalog.insertPosition x d.catalog.children < UInt64.size
    omega

theorem tells_addContainer {d : Dispatcher} (hd : d.catalog.Fits) (hids : d.ids.Nodup)
    (x : Container) (hfit : (d.addContainer x).catalog.Fits) :
    (d.addContainer x).ids.Nodup ∧ Tells d (d.addContainer x) := by
  obtain ⟨hrest, hx, before, hp, hm, hc⟩ := tells_deleteContainer hd hids x.id
  have hadd : (d.deleteContainer x.id).catalog.add x =
      (d.deleteContainer x.id).catalog.insertChild x := by
    have hi : (d.deleteContainer x.id).catalog.root.childIndex? x.id = none := by
      by_contra h
      exact hx (mem_ids_iff.2 h)
    rw [Catalog.add, hi]
  rw [addContainer, hadd] at hfit ⊢
  obtain ⟨hn, events, hp', hm', hc'⟩ := tells_insertion hrest hx hfit
  refine ⟨hn, before ++ events, ?_, ?_, fun e he => ?_⟩
  · rw [hp', hp, List.append_assoc]
  · rw [mirror_append, hm]
    exact hm'
  · rcases List.mem_append.1 he with he | he
    · exact hc e he _
    · exact hc' e he

/-! ## Moves -/

theorem catalog_publishMove (d : Dispatcher) (source target : Nat) :
    (d.publishMove source target).catalog = d.catalog := by
  rw [publishMove]
  split <;> rfl

/-- What is told of a container that moved in the listing, to a client that does not know
of it yet. -/
theorem tells_publishMove {d : Dispatcher} {ids : List String} {source target : Nat}
    {node : Container} (hsource : source < ids.length) (hsize : ids.length < UInt64.size)
    (hnode : d.catalog.children[target]? = some node)
    (hrest : d.ids.eraseIdx target = ids.eraseIdx source) :
    ∃ events, (d.publishMove source target).published = d.published ++ events ∧
      mirror ids events = some d.ids ∧ ∀ e ∈ events, e.Carries d.catalog.children := by
  obtain ⟨htarget, hat⟩ := List.getElem?_eq_some_iff.1 hnode
  rw [← length_ids] at htarget
  have hlen := congrArg List.length hrest
  rw [List.length_eraseIdx_of_lt htarget, List.length_eraseIdx_of_lt hsource] at hlen
  have hback : (ids.eraseIdx source).insertIdx target node.id = d.ids := by
    have hid : d.ids[target] = node.id := by
      rw [← hat]
      exact List.getElem_map _
    rw [← hrest, ← hid, List.insertIdx_eraseIdx_getElem htarget]
  have hle : target ≤ (ids.eraseIdx source).length := by
    rw [List.length_eraseIdx_of_lt hsource]
    omega
  have hmove : d.publishMove source target =
      (d.publishRemoval source false).publishInsertion target node := by
    rw [publishMove, hnode]
  rw [hmove]
  refine ⟨[_, _], List.append_assoc .., ?_, ?_⟩
  · rw [mirror, List.foldlM_cons, mirrorEvent_removal hsource hsize]
    refine (mirror_singleton _ _).trans ((mirrorEvent_insertion hle ?_ _).trans ?_)
    · rw [List.length_eraseIdx_of_lt hsource]
      omega
    · rw [(Container.heading_eq_iff.1 (heading_finalize node _ _)).1, hback]
  · intro e he
    rcases List.mem_pair.1 he with rfl | rfl
    · exact carries_removal _ false _
    · exact carries_insertion hnode (by omega) (heading_finalize node _ _)

theorem eraseIdx_ids_of_headings {l l' : List Container} {i j : Nat}
    (h : (l'.eraseIdx j).map heading = (l.eraseIdx i).map heading) :
    (l'.map (·.id)).eraseIdx j = (l.map (·.id)).eraseIdx i := by
  have hids := congrArg (List.map Prod.fst) h
  rw [List.map_map, List.map_map] at hids
  rw [List.eraseIdx_map, List.eraseIdx_map]
  exact hids

theorem nodup_of_eraseIdx_eq {l l' : List String} {i j : Nat} {a : String} (hl : l.Nodup)
    (hi : l[i]? = some a) (hj : l'[j]? = some a) (h : l'.eraseIdx j = l.eraseIdx i) :
    l'.Nodup := by
  obtain ⟨hlt, rfl⟩ := List.getElem?_eq_some_iff.1 hj
  have hle : j ≤ (l'.eraseIdx j).length := by
    rw [List.length_eraseIdx_of_lt hlt]
    omega
  rw [← List.insertIdx_eraseIdx_getElem hlt, (List.perm_insertIdx _ _ hle).nodup_iff, h]
  exact List.nodup_cons.2 ⟨not_mem_eraseIdx hl hi, hl.eraseIdx i⟩

/-- What is told of changed fields that move a top-level container, the event itself first. -/
theorem tells_moved {d merged : Dispatcher} (hd : d.catalog.Fits) (hids : d.ids.Nodup)
    {e : Event} (he : ¬ e.SplicesRoot) (hp : merged.published = d.published ++ [e])
    {id : String} {fields : Dictionary Json} {source target : Nat}
    (h : Catalog.Tells d.catalog merged.catalog (.merge id fields)
      (.merged (.moved source target))) :
    (merged.publishMove source target).ids.Nodup ∧
      Tells d (merged.publishMove source target) := by
  obtain ⟨hs, ⟨node, hnode, hid⟩, hheads⟩ := h
  obtain ⟨old, hold, hoid⟩ := Container.getElem?_of_childIndex? hs
  have hrest : merged.ids.eraseIdx target = d.ids.eraseIdx source :=
    eraseIdx_ids_of_headings hheads
  have hat : d.ids[source]? = some (ObjectId.normalize id) := by
    show (d.catalog.root.children.map (·.id))[source]? = _
    rw [List.getElem?_map, hold, Option.map_some, hoid]
  have hat' : merged.ids[target]? = some (ObjectId.normalize id) := by
    rw [ids, List.getElem?_map, hnode, Option.map_some, hid]
  have hcat := catalog_publishMove merged source target
  have hids' : (merged.publishMove source target).ids = merged.ids := by rw [ids, hcat, ids]
  obtain ⟨events, hp', hm, hc⟩ := tells_publishMove (List.getElem?_eq_some_iff.1 hat).1
    (length_ids d ▸ hd.children) hnode hrest
  refine ⟨hids' ▸ nodup_of_eraseIdx_eq hids hat hat' hrest, e :: events, ?_, ?_, ?_⟩
  · rw [hp', hp, List.append_assoc, List.singleton_append]
  · rw [mirror, List.foldlM_cons, mirrorEvent_of_not_splicesRoot he, hids']
    exact hm
  · rw [hcat]
    exact List.forall_mem_cons.2 ⟨carries_of_not_splicesRoot he _, hc⟩

theorem splicesRoot_presentEvent (d : Dispatcher) (e : Event) :
    (d.presentEvent e).SplicesRoot ↔ e.SplicesRoot := by
  cases e with
  | spliceChildren token id last index delete items => cases token <;> rfl
  | _ => rfl

/-- What is told of an event of a backend. -/
theorem tells_relay {d d' : Dispatcher} (hd : d.catalog.Fits) (hids : d.ids.Nodup) {e : Event}
    (he : ¬ e.SplicesRoot) (h : d.relay e = .ok d') : d'.ids.Nodup ∧ Tells d d' := by
  rcases relay_cases h with
    rfl | ⟨id, fields, catalog, merge, rfl, hm, ⟨hstays, rfl⟩ | ⟨source, target, rfl, rfl⟩⟩
  · have hp : ¬ (d.presentEvent e).SplicesRoot := mt (splicesRoot_presentEvent d e).1 he
    exact Unmoved.tells ⟨rfl, [_], rfl, by simpa using hp⟩ hids
  · have ht := Catalog.tells_merge hm
    have hsame :
        ids ({ d with catalog := catalog }.publish (.objectChanged id fields)) = d.ids := by
      cases merge with
      | missing => exact congrArg (fun c : Catalog => c.children.map (·.id)) ht
      | inPlace => exact ht
      | moved source target => exact absurd rfl (hstays source target)
    refine ⟨hsame ▸ hids, [_], rfl, ?_, ?_⟩
    · rw [mirror_singleton, mirrorEvent_of_not_splicesRoot he, hsame]
    · intro e' he'
      rw [List.mem_singleton.1 he']
      exact carries_of_not_splicesRoot he _
  · exact tells_moved hd hids he rfl (Catalog.tells_merge hm)

/-! ## Inputs -/

/-- What a backend may report: it tells of no change of the root listing by itself, and
changes fields of objects only whose ids start with a slash. -/
def Input.Admissible : Input → Prop
  | .command _ _ => True
  | .report _ m => RootedFields m.event ∧ ∀ e, m.event = .publish e → ¬ e.SplicesRoot

theorem tells_handleReport {d d' : Dispatcher} (hd : d.catalog.Fits) (hids : d.ids.Nodup)
    {now : Nat} {m : BackendMessage} (hm : ∀ e, m.event = .publish e → ¬ e.SplicesRoot)
    (h : d.handleReport now m = .ok d') (hfit : d'.catalog.Fits) :
    d'.ids.Nodup ∧ Tells d d' := by
  obtain ⟨backend, event⟩ := m
  cases event with
  | publish e => exact tells_relay hd hids (hm e rfl) h
  | addRootContainer x =>
    cases h
    exact tells_addContainer hd hids x hfit
  | deleteRootContainer id =>
    cases h
    obtain ⟨hn, -, events, hp, hmir, hc⟩ := tells_deleteContainer hd hids id
    exact ⟨hn, events, hp, hmir, fun e he => hc e he _⟩
  | _ => exact (unmoved_handleReport h trivial).tells hids

/-- Whatever is handled, a client gets from the one listing to the other, and the ids stay
distinct. -/
theorem tells_handle {d d' : Dispatcher} (hd : d.catalog.Fits) (hids : d.ids.Nodup) {i : Input}
    (hi : i.Admissible) (h : d.handle i = .ok d') (hfit : d'.catalog.Fits) :
    d'.ids.Nodup ∧ Tells d d' := by
  cases i with
  | command now c =>
    obtain ⟨⟨r, e⟩, hc, rfl⟩ := Fault.map_eq_ok_iff.1 h
    exact (unmoved_handleCommand hc).tells hids
  | report now m => exact tells_handleReport hd hids hi.2 h hfit

theorem handle_ok {d : Dispatcher} (hd : d.catalog.Fits) {i : Input} (hi : i.Admissible) :
    ∃ d', d.handle i = .ok d' := by
  cases i with
  | command now c =>
    obtain ⟨r, hr⟩ := handleCommand_ok hd now c
    exact ⟨r.2, by rw [handle, hr]; rfl⟩
  | report now m => exact handleReport_ok d now hi.1

/-! ## Runs -/

/-- A client that knows the listing of `start`, and is told all events since, knows that
of `d`. -/
def KeepsUp (start d : Dispatcher) : Prop :=
  ∃ events, d.published = start.published ++ events ∧ mirror start.ids events = some d.ids

theorem KeepsUp.refl (d : Dispatcher) : KeepsUp d d := ⟨[], by simp, rfl⟩

theorem KeepsUp.tells {a b c : Dispatcher} (hab : KeepsUp a b) (hbc : Tells b c) :
    KeepsUp a c := by
  obtain ⟨es, hes, hms⟩ := hab
  obtain ⟨fs, hfs, hmf, -⟩ := hbc
  refine ⟨es ++ fs, by rw [hfs, hes, List.append_assoc], ?_⟩
  rw [mirror_append, hms]
  exact hmf

theorem keepsUp_run {d : Dispatcher} {inputs : List Input} (hids : d.ids.Nodup)
    (hin : ∀ i ∈ inputs, i.Admissible)
    (hfit : ∀ done e, done <+: inputs → d.run done = .ok e → e.catalog.Fits) :
    ∃ d', d.run inputs = .ok d' ∧ d'.ids.Nodup ∧ KeepsUp d d' := by
  induction inputs using List.reverseRecOn with
  | nil => exact ⟨d, rfl, hids, .refl d⟩
  | append_singleton inputs i ih =>
    obtain ⟨hin, hi⟩ := List.forall_mem_append.1 hin
    have hi := hi i (List.mem_singleton.2 rfl)
    obtain ⟨d₁, hd₁, hids₁, hup⟩ :=
      ih hin fun done e hdone he => hfit done e (hdone.trans (List.prefix_append _ _)) he
    have hfit₁ := hfit inputs d₁ (List.prefix_append _ _) hd₁
    obtain ⟨d₂, hd₂⟩ := handle_ok hfit₁ hi
    have hrun : d.run (inputs ++ [i]) = .ok d₂ := by
      rw [run_append, hd₁]
      exact (run_singleton d₁ i).trans hd₂
    obtain ⟨hids₂, ht⟩ := tells_handle hfit₁ hids₁ hi hd₂ (hfit _ d₂ List.prefix_rfl hrun)
    exact ⟨d₂, hrun, hids₂, hup.tells ht⟩

/-- A client that mirrors the listing of the root never diverges from the catalog, provided
that its top-level containers start with distinct ids and that the numbers of children stay
within what a machine holds: no input meets a fault, after each the client has the ids of the
catalog, and what is put in has the headings of the containers at its places. -/
theorem mirror_run {d : Dispatcher} {inputs : List Input} (hids : d.ids.Nodup)
    (hin : ∀ i ∈ inputs, i.Admissible)
    (hfit : ∀ done e, done <+: inputs → d.run done = .ok e → e.catalog.Fits) :
    ∃ d₁ before, d.run inputs = .ok d₁ ∧ d₁.published = d.published ++ before ∧
      mirror d.ids before = some d₁.ids ∧
      ∀ i : Input, i.Admissible → ∃ d₂, d₁.handle i = .ok d₂ ∧
        (d₂.catalog.Fits → ∃ events, d₂.published = d₁.published ++ events ∧
          mirror d.ids (before ++ events) = some d₂.ids ∧
          ∀ e ∈ events, e.Carries d₂.catalog.children) := by
  obtain ⟨d₁, hd₁, hids₁, before, hp, hm⟩ := keepsUp_run hids hin hfit
  refine ⟨d₁, before, hd₁, hp, hm, fun i hi => ?_⟩
  have hfit₁ := hfit inputs d₁ List.prefix_rfl hd₁
  obtain ⟨d₂, hd₂⟩ := handle_ok hfit₁ hi
  refine ⟨d₂, hd₂, fun hfit₂ => ?_⟩
  obtain ⟨-, events, hp', hm', hc⟩ := tells_handle hfit₁ hids₁ hi hd₂ hfit₂
  refine ⟨events, hp', ?_, hc⟩
  rw [mirror_append, hm]
  exact hm'

/-- A container that is added before another, and then gets a label that belongs behind it. -/
theorem mirror_relabelled :
    let d : Dispatcher :=
      { (default : Dispatcher) with catalog := (Catalog.empty.add (.new "/b" "B" .directory)).1 }
    ∃ d₁ d₂ events,
      d.run [.report 0 ⟨"files", .addRootContainer (.new "/a" "A" .directory)⟩] = .ok d₁ ∧
      d₁.handle (.report 0 ⟨"files", .publish (.objectChanged "/a"
        (Dictionary.empty.insert "label" (.str "C")))⟩) = .ok d₂ ∧
      d₂.published = d.published ++ events ∧ mirror ["/b"] events = some ["/b", "/a"] := by
  intro d
  have hfit : ∀ done e,
      done <+: [.report 0 ⟨"files", .addRootContainer (.new "/a" "A" .directory)⟩] →
        d.run done = .ok e → e.catalog.Fits := by
    intro done e hdone he
    rcases List.prefix_cons_iff.1 hdone with rfl | ⟨rest, rfl, hrest⟩
    · cases he
      exact Catalog.fits_of_sizeOf (by decide)
    · obtain rfl := List.prefix_nil.1 hrest
      cases he
      exact Catalog.fits_of_sizeOf (by decide)
  obtain ⟨d₁, before, hrun, hp, hm, next⟩ := mirror_run (d := d) (by decide)
    (by simp [Input.Admissible, RootedFields]) hfit
  obtain ⟨d₂, hd₂, told⟩ := next (.report 0 ⟨"files", .publish (.objectChanged "/a"
    (Dictionary.empty.insert "label" (.str "C")))⟩)
      ⟨(by decide : "/a".toList.head? = some '/'), by simp [Event.SplicesRoot]⟩
  cases hrun
  cases hd₂
  obtain ⟨events, hp', hm', -⟩ := told (Catalog.fits_of_sizeOf (by decide))
  refine ⟨_, _, before ++ events, rfl, rfl, ?_, hm'⟩
  rw [hp', hp, List.append_assoc]

end Dispatcher

end Mediatheque
