import Mathlib.Data.List.InsertIdx
import Mediatheque.Catalog.Basic
import Mediatheque.Proofs.List
import Mediatheque.Proofs.ObjectId.Prefixes

/-!
# What merging changed fields does to the root listing

Changed fields reach one node, of which they change the label, the class and the metadata
(`redressed_applyFields`). A top-level container is known to the listing by its id, label and
class, its `heading`. So the fields change the heading of one top-level container at most,
the first with the id (`MergedInto`), and it is that one which is then put to a new place
(`merge_cases`).
-/

namespace Mediatheque

namespace Container

/-- What the listing of the root goes by: the id, the label and the class. -/
def heading (c : Container) : String × String × MediaClass := (c.id, c.label, c.mediaClass)

theorem heading_eq_iff {c d : Container} :
    c.heading = d.heading ↔ c.id = d.id ∧ c.label = d.label ∧ c.mediaClass = d.mediaClass := by
  simp [heading]

/-- Clients see an object under the heading that it has in the catalog. -/
theorem heading_finalize (c : Container) (idx : Option UInt64) (total : UInt64) :
    (c.finalize idx total).heading = c.heading := by
  rw [finalize, withHint]
  split <;> rfl

/-! ## Changes along a way -/

/-- Replacing the first item is a change at its position, and none if there is no such item. -/
theorem replaceFirst_eq_modify (test : Container → Bool) (f : Container → Container)
    (l : List Container) : replaceFirst test f l = l.modify (l.findIdx test) f := by
  induction l with
  | nil => rfl
  | cons c l ih =>
    rw [replaceFirst, List.findIdx_cons]
    cases test c with
    | true => rfl
    | false => simp [ih]

theorem modifyAlong_cons (f : Container → Container) (node : Container) (step : String)
    (rest : List String) :
    node.modifyAlong f (step :: rest) =
      { node with
        children := node.children.modify (node.children.findIdx (·.id = step))
          fun child => child.modifyAlong f rest } := by
  rw [modifyAlong, replaceFirst_eq_modify]

theorem child?_eq_getElem? (c : Container) (id : String) :
    c.child? id = c.children[c.children.findIdx (·.id = id)]? :=
  List.find?_eq_getElem?_findIdx

theorem findIdx_of_childIndex? {c : Container} {id : String} {i : Nat}
    (h : c.childIndex? id = some i) : c.children.findIdx (·.id = id) = i := by
  obtain ⟨-, h⟩ := List.findIdx?_eq_some_iff_findIdx_eq.1 h
  exact h

/-- Where the first child with an id stands shows in the ids of the children. -/
theorem childIndex?_congr {a b : Container} (h : a.children.map (·.id) = b.children.map (·.id))
    (id : String) : a.childIndex? id = b.childIndex? id := by
  have key (c : Container) :
      c.childIndex? id = (c.children.map (·.id)).findIdx? fun i => decide (i = id) := by
    rw [List.findIdx?_map]
    rfl
  rw [key, h, ← key]

/-- The first child with an id. -/
theorem getElem?_of_childIndex? {c : Container} {id : String} {i : Nat}
    (h : c.childIndex? id = some i) : ∃ d, c.children[i]? = some d ∧ d.id = id := by
  obtain ⟨hi, hid, -⟩ := List.findIdx?_eq_some_iff_getElem.1 h
  exact ⟨_, List.getElem?_eq_getElem hi, by simpa using hid⟩

end Container

namespace Catalog

open Container (heading)

/-! ## Fields -/

/-- Whether a node is another but for the label, the class and the metadata. -/
def Redressed (a b : Container) : Prop :=
  ∃ label mediaClass metadata,
    b = { a with label := label, mediaClass := mediaClass, metadata := metadata }

theorem Redressed.refl (a : Container) : Redressed a a :=
  ⟨a.label, a.mediaClass, a.metadata, by cases a; rfl⟩

theorem Redressed.trans {a b c : Container} (hab : Redressed a b) (hbc : Redressed b c) :
    Redressed a c := by
  obtain ⟨_, _, _, rfl⟩ := hab
  obtain ⟨label, mediaClass, metadata, rfl⟩ := hbc
  exact ⟨label, mediaClass, metadata, rfl⟩

theorem redressed_applyField (node : Container) (field : String × Json) :
    Redressed node (applyField node field) := by
  unfold applyField
  split <;> exact ⟨_, _, _, rfl⟩

/-- Changed fields change the label, the class and the metadata of a node. -/
theorem redressed_applyFields (node : Container) (fields : Dictionary Json) :
    Redressed node (applyFields node fields) := by
  rw [applyFields]
  generalize fields.entries = entries
  induction entries generalizing node with
  | nil => exact .refl node
  | cons field rest ih =>
    rw [List.foldl_cons]
    exact (redressed_applyField node field).trans (ih _)

theorem id_modifyAlong (node : Container) (fields : Dictionary Json) (way : List String) :
    (node.modifyAlong (applyFields · fields) way).id = node.id := by
  cases way with
  | nil =>
    obtain ⟨_, _, _, h⟩ := redressed_applyFields node fields
    rw [Container.modifyAlong, h]
  | cons step rest => rw [Container.modifyAlong_cons]

/-- Fields that change a descendant leave the heading of the node itself. -/
theorem heading_modifyAlong_cons (node : Container) (f : Container → Container) (step : String)
    (rest : List String) : heading (node.modifyAlong f (step :: rest)) = heading node := by
  rw [Container.modifyAlong_cons]
  rfl

/-! ## The way of the fields -/

theorem wayTo_cases {id : List Char} {way : List String} (h : wayTo id = .ok way) :
    way = [] ∨ way = ObjectId.prefixes id := by
  unfold wayTo at h
  split at h
  · cases h
  · split at h
    · cases h
      exact .inl rfl
    · split at h <;> cases h
      exact .inr rfl

theorem wayTo_of_head? {id : List Char} (h : id.head? = some '/') :
    wayTo id = .ok (if id = ['/'] then [] else ObjectId.prefixes id) := by
  obtain ⟨rest, rfl⟩ := List.head?_eq_some_iff.1 h
  by_cases hslash : ('/' :: rest : List Char) = ['/']
  · rw [wayTo, if_pos hslash, if_pos hslash]
  · rw [wayTo, if_neg hslash, if_pos (by decide), if_neg hslash]

/-- A way of a single step leads to the top-level container that has the id itself. -/
theorem eq_of_wayTo_singleton {id step : String} (h : wayTo id.toList = .ok [step]) :
    step = id := by
  rcases wayTo_cases h with h | h
  · cases h
  · cases hid : id.toList with
    | nil => rw [hid] at h; cases h
    | cons c rest =>
      have hl := ObjectId.getLast?_prefixesFrom [c] rest
      rw [hid, ObjectId.prefixes] at h
      have := congrArg List.getLast? h
      rw [List.getLast?_map, hl] at this
      rw [← String.ofList_toList (s := id), hid]
      simpa using this

/-! ## The root with changed fields -/

/-- What changed fields for an id make of a root: the ids of its children stay, and of their
headings all but that of the first child with the id. -/
structure MergedInto (id : String) (before after : Container) : Prop where
  id_eq : after.id = before.id
  backend_eq : after.backend = before.backend
  numChildren_eq : after.numChildren = before.numChildren
  numContainerChildren_eq : after.numContainerChildren = before.numContainerChildren
  numItemChildren_eq : after.numItemChildren = before.numItemChildren
  ids_eq : after.children.map (·.id) = before.children.map (·.id)
  headings_of_none : before.childIndex? id = none →
    after.children.map heading = before.children.map heading
  headings_of_some {i : Nat} : before.childIndex? id = some i →
    (after.children.eraseIdx i).map heading = (before.children.eraseIdx i).map heading

theorem mergedInto_modifyAlong (root : Container) {id : String} {way : List String}
    (hway : wayTo id.toList = .ok way) (fields : Dictionary Json) :
    MergedInto id root (root.modifyAlong (applyFields · fields) way) := by
  cases way with
  | nil =>
    obtain ⟨_, _, _, h⟩ := redressed_applyFields root fields
    rw [Container.modifyAlong, h]
    exact ⟨rfl, rfl, rfl, rfl, rfl, rfl, fun _ => rfl, fun _ => rfl⟩
  | cons step rest =>
    rw [Container.modifyAlong_cons]
    refine ⟨rfl, rfl, rfl, rfl, rfl,
      map_modify_of_eq fun c _ => id_modifyAlong c fields rest, fun h => ?_, fun {i} h => ?_⟩
    · cases rest with
      | nil =>
        -- No child has the id, so that there is none to change.
        rw [eq_of_wayTo_singleton hway, List.modify_eq_self]
        exact Nat.le_of_eq (List.findIdx?_eq_none_iff_findIdx_eq.1 h).symm
      | cons s rest => exact map_modify_of_eq fun c _ => heading_modifyAlong_cons c _ s rest
    · cases rest with
      | nil =>
        rw [eq_of_wayTo_singleton hway, Container.findIdx_of_childIndex? h,
          List.eraseIdx_modify_of_eq]
      | cons s rest =>
        rw [← List.eraseIdx_map, ← List.eraseIdx_map,
          map_modify_of_eq fun c _ => heading_modifyAlong_cons c _ s rest]

/-- Fields that leave the label and the class of their node leave all headings. -/
theorem headings_modifyAlong {root node : Container} {way : List String} {fields : Dictionary Json}
    (hnode : root.follow? way = some node)
    (h : (applyFields node fields).label = node.label ∧
      (applyFields node fields).mediaClass = node.mediaClass) :
    (root.modifyAlong (applyFields · fields) way).children.map heading =
      root.children.map heading := by
  cases way with
  | nil =>
    obtain ⟨_, _, _, hr⟩ := redressed_applyFields root fields
    rw [Container.modifyAlong, hr]
  | cons step rest =>
    rw [Container.modifyAlong_cons]
    refine map_modify_of_eq fun c hc => ?_
    cases rest with
    | nil =>
      rw [Container.follow?, Container.child?_eq_getElem?, hc] at hnode
      obtain rfl : c = node := by simpa [Container.follow?] using hnode
      obtain ⟨_, _, _, hr⟩ := redressed_applyFields c fields
      rw [Container.modifyAlong, Container.heading_eq_iff]
      exact ⟨by rw [hr], h⟩
    | cons s rest => exact heading_modifyAlong_cons c _ s rest

/-! ## Merging -/

/-- Putting a top-level container to its new place: nothing happens where there is none, and
else the first with the id is taken out and put in again at its place. -/
theorem resort_cases (c : Catalog) (id : String) :
    (c.root.childIndex? id = none ∧ c.resort id = (c, .inPlace)) ∨
      ∃ source node, c.root.childIndex? id = some source ∧ c.children[source]? = some node ∧
        node.id = id ∧
        c.resort id =
          (c.withChildren ((c.children.eraseIdx source).insertIdx
            (insertPosition node (c.children.eraseIdx source)) node),
          if source = insertPosition node (c.children.eraseIdx source) then .inPlace
          else .moved source (insertPosition node (c.children.eraseIdx source))) := by
  cases h : c.root.childIndex? id with
  | none => exact .inl ⟨rfl, by rw [resort, h]⟩
  | some source =>
    obtain ⟨node, hnode, hid⟩ := Container.getElem?_of_childIndex? h
    refine .inr ⟨source, node, rfl, hnode, hid, ?_⟩
    have hc : c.children[source]? = some node := hnode
    rw [resort, h]
    simp only [hc]
    rfl

/-- What a merge does: there is no node with the id, or fields reach one. In that case the
headings stay, or the first top-level container with the id is put to its place. -/
theorem merge_cases {c c' : Catalog} {id : String} {fields : Dictionary Json} {m : Merge}
    (h : c.merge id fields = .ok (c', m)) :
    (c' = c ∧ m = .missing) ∨
      ∃ root, MergedInto (ObjectId.normalize id) c.root root ∧
        ((root.children.map heading = c.root.children.map heading ∧ c' = ⟨root⟩ ∧ m = .inPlace) ∨
          ∃ source node, c.root.childIndex? (ObjectId.normalize id) = some source ∧
            root.children[source]? = some node ∧ node.id = ObjectId.normalize id ∧
            c' = (⟨root⟩ : Catalog).withChildren ((root.children.eraseIdx source).insertIdx
              (insertPosition node (root.children.eraseIdx source)) node) ∧
            m = if source = insertPosition node (root.children.eraseIdx source) then .inPlace
              else .moved source (insertPosition node (root.children.eraseIdx source))) := by
  unfold merge at h
  simp only [bind, Except.bind] at h
  split at h
  · cases h
  · rename_i way hway
    split at h
    · cases h
      exact .inl ⟨rfl, rfl⟩
    · rename_i node hnode
      have hm := mergedInto_modifyAlong c.root hway fields
      refine .inr ⟨_, hm, ?_⟩
      split at h
      · rename_i hsame
        cases h
        exact .inl ⟨headings_modifyAlong hnode hsame, rfl, rfl⟩
      · rcases resort_cases ⟨c.root.modifyAlong (applyFields · fields) way⟩
          (ObjectId.normalize id) with ⟨hi, hr⟩ | ⟨source, node, hi, hat, hid, hr⟩
        · rw [hr] at h
          cases h
          rw [Container.childIndex?_congr hm.ids_eq] at hi
          exact .inl ⟨hm.headings_of_none hi, rfl, rfl⟩
        · rw [hr] at h
          cases h
          rw [Container.childIndex?_congr hm.ids_eq] at hi
          exact .inr ⟨source, node, hi, hat, hid, rfl, rfl⟩

end Catalog

end Mediatheque
