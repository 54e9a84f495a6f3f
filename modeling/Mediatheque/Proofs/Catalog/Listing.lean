import Mediatheque.Proofs.Catalog.Merge
import Mediatheque.Proofs.Catalog.Order

/-!
# The listing of the root under change

The calls that change a catalog (`Change`), done one after the other (`performAll`) from the
root alone. Every call leaves a listing in order whose numbers agree with it (`Settled`),
and tells positions at which the containers in question stand (`Tells`):

* `settled_perform`: one call;
* `settled_performAll`: all calls, and what the next one tells.

Order and numbers go by the headings of the top-level containers alone
(`pairwise_inOrder_congr`, `CountsAgree.congr`), so that changes below them do no harm.
-/

namespace Mediatheque

namespace Catalog

open Container (heading)

/-! ## Calls and what they tell -/

/-- A call that changes the catalog. -/
inductive Change where
  /-- The top-level container of a class is asked for, and `touch` is what becomes of it. -/
  | ensure (mediaClass : MediaClass) (touch : Container → Container)
  | add (container : Container)
  | delete (id : String)
  | merge (id : String) (fields : Dictionary Json)

/-- Whoever asks for a top-level container leaves its id, label and class. -/
def Change.Keeps : Change → Prop
  | .ensure _ touch => ∀ node, heading (touch node) = heading node
  | _ => True

/-- What a call tells. -/
inductive Reply where
  | position (position : Nat)
  | removed (former : Option (Nat × Container))
  | merged (merge : Merge)

/-- Does a call. -/
def perform (c : Catalog) : Change → Except Fault (Catalog × Reply)
  | .ensure mediaClass touch =>
    .ok ((c.ensure mediaClass).1.modifyChild (c.ensure mediaClass).2 touch,
      .position (c.ensure mediaClass).2)
  | .add container => .ok ((c.add container).1, .position (c.add container).2)
  | .delete id => .ok ((c.delete id).1, .removed (c.delete id).2)
  | .merge id fields => do
    let (merged, outcome) ← c.merge id fields
    .ok (merged, .merged outcome)

/-- Does calls one after the other. -/
def performAll (c : Catalog) (changes : List Change) : Except Fault Catalog :=
  changes.foldlM (fun c change => Prod.fst <$> c.perform change) c

/-- The cached numbers of children are those of the children. -/
structure CountsAgree (node : Container) : Prop where
  numChildren : node.numChildren = .ofNat node.children.length
  numContainerChildren :
    node.numContainerChildren = .ofNat (node.children.countP fun c => c.mediaClass.isContainer)
  numItemChildren :
    node.numItemChildren = .ofNat (node.children.countP fun c => !c.mediaClass.isContainer)

/-- The listing of the root is in order, and its numbers agree with it. -/
structure Settled (c : Catalog) : Prop where
  inOrder : c.children.Pairwise InOrder
  counts : CountsAgree c.root

/-- What a call tells holds of the listings before and after it. -/
def Tells (before after : Catalog) : Change → Reply → Prop
  | .ensure mediaClass touch, .position p =>
    ∃ node, after.children[p]? = some (touch node) ∧ node.mediaClass = mediaClass ∧
      (before.children.find? (·.mediaClass = mediaClass)).getD (.ofRootClass mediaClass) = node
  | .add container, .position p => after.children[p]? = some container
  | .delete id, .removed none => after = before ∧ ∀ node ∈ before.children, node.id ≠ id
  | .delete id, .removed (some (p, node)) =>
    before.children[p]? = some node ∧ node.id = id ∧
      after.children = before.children.eraseIdx p
  | .merge _ _, .merged .missing => after = before
  | .merge _ _, .merged .inPlace => after.children.map (·.id) = before.children.map (·.id)
  | .merge id _, .merged (.moved source target) =>
    before.root.childIndex? (ObjectId.normalize id) = some source ∧
      (∃ node, after.children[target]? = some node ∧ node.id = ObjectId.normalize id) ∧
      (after.children.eraseIdx target).map heading = (before.children.eraseIdx source).map heading
  | _, _ => False

/-! ## Headings -/

/-- Whether a listing is in order shows in its headings. -/
theorem pairwise_inOrder_congr {l l' : List Container} (h : l'.map heading = l.map heading) :
    l'.Pairwise InOrder ↔ l.Pairwise InOrder := by
  have key (l : List Container) : l.Pairwise InOrder ↔ (l.map heading).Pairwise fun a b =>
      InOrder (.new a.1 a.2.1 a.2.2) (.new b.1 b.2.1 b.2.2) := by
    rw [List.pairwise_map]
    rfl
  rw [key, h, ← key]

/-- What is counted by class shows in the headings. -/
theorem countP_congr {l l' : List Container} (h : l'.map heading = l.map heading)
    (test : MediaClass → Bool) :
    l'.countP (fun c => test c.mediaClass) = l.countP fun c => test c.mediaClass := by
  have key (l : List Container) :
      l.countP (fun c => test c.mediaClass) = (l.map heading).countP fun a => test a.2.2 := by
    rw [List.countP_map]
    rfl
  rw [key, h, ← key]

theorem length_congr {l l' : List Container} (h : l'.map heading = l.map heading) :
    l'.length = l.length := by
  rw [← List.length_map (f := heading), h, List.length_map]

/-- The numbers go by the headings of the children. -/
theorem CountsAgree.congr {a b : Container} (hc : CountsAgree a)
    (h : b.children.map heading = a.children.map heading) (hn : b.numChildren = a.numChildren)
    (hnc : b.numContainerChildren = a.numContainerChildren)
    (hni : b.numItemChildren = a.numItemChildren) : CountsAgree b := by
  refine ⟨?_, ?_, ?_⟩
  · rw [hn, hc.numChildren, length_congr h]
  · rw [hnc, hc.numContainerChildren, countP_congr h]
  · rw [hni, hc.numItemChildren, countP_congr h fun k => !k.isContainer]

theorem Settled.congr {c c' : Catalog} (hs : Settled c)
    (h : c'.children.map heading = c.children.map heading)
    (hn : c'.root.numChildren = c.root.numChildren)
    (hnc : c'.root.numContainerChildren = c.root.numContainerChildren)
    (hni : c'.root.numItemChildren = c.root.numItemChildren) : Settled c' :=
  ⟨(pairwise_inOrder_congr h).2 hs.inOrder, hs.counts.congr h hn hnc hni⟩

/-! ## New listings -/

/-- Recomputed numbers agree with the children. -/
theorem countsAgree_updateChildCounts (node : Container) :
    CountsAgree node.updateChildCounts := by
  refine ⟨rfl, rfl, ?_⟩
  have h := List.length_eq_countP_add_countP
    (fun c : Container => c.mediaClass.isContainer) (l := node.children)
  have e : node.children.length - node.children.countP (·.mediaClass.isContainer) =
      node.children.countP fun c => !c.mediaClass.isContainer := by
    simp only [Bool.not_eq_true, Bool.decide_eq_false] at h
    omega
  exact congrArg UInt64.ofNat e

theorem settled_withChildren (c : Catalog) {l : List Container} (h : l.Pairwise InOrder) :
    Settled (c.withChildren l) :=
  ⟨h, countsAgree_updateChildCounts _⟩

/-- A listing in order, to which a container is added at its place. -/
theorem settled_insertChild {c : Catalog} (h : c.children.Pairwise InOrder) (x : Container) :
    Settled (c.insertChild x).1 :=
  settled_withChildren c (inOrder_insertIdx x h)

theorem getElem?_insertChild (c : Catalog) (x : Container) :
    (c.insertChild x).1.children[(c.insertChild x).2]? = some x := by
  show (c.children.insertIdx _ x)[insertPosition x c.children]? = some x
  rw [List.getElem?_insertIdx_self, if_pos (insertPosition_le x c.children)]

/-! ## One call -/

/-- What a deletion does: there is no container with the id, or the first with the id is
taken out. -/
theorem delete_cases (c : Catalog) (id : String) :
    (c.root.childIndex? id = none ∧ c.delete id = (c, none)) ∨
      ∃ position node, c.root.childIndex? id = some position ∧
        c.children[position]? = some node ∧ node.id = id ∧
        c.delete id = (c.withChildren (c.children.eraseIdx position), some (position, node)) := by
  cases h : c.root.childIndex? id with
  | none => exact .inl ⟨rfl, by rw [delete, h]⟩
  | some position =>
    obtain ⟨node, hnode, hid⟩ := Container.getElem?_of_childIndex? h
    have hc : c.children[position]? = some node := hnode
    refine .inr ⟨position, node, rfl, hc, hid, ?_⟩
    rw [delete, h]
    simp only [hc, Option.map_some]

theorem settled_delete {c : Catalog} (hs : Settled c) (id : String) :
    Settled (c.delete id).1 := by
  rcases delete_cases c id with ⟨-, h⟩ | ⟨position, node, -, -, -, h⟩
  · rw [h]
    exact hs
  · rw [h]
    exact settled_withChildren c (hs.inOrder.eraseIdx position)

theorem tells_delete (c : Catalog) (id : String) :
    Tells c (c.delete id).1 (.delete id) (.removed (c.delete id).2) := by
  rcases delete_cases c id with ⟨hi, h⟩ | ⟨position, node, -, hc, hid, h⟩
  · rw [h]
    exact ⟨rfl, fun node hn => by simpa using List.findIdx?_eq_none_iff.1 hi node hn⟩
  · rw [h]
    exact ⟨hc, hid, rfl⟩

/-- To add a container is to delete the one with its id and to put it in. -/
theorem add_eq_insertChild (c : Catalog) (x : Container) :
    c.add x = (c.delete x.id).1.insertChild x := by
  rw [add, delete]
  cases c.root.childIndex? x.id <;> rfl

theorem settled_add {c : Catalog} (hs : Settled c) (x : Container) : Settled (c.add x).1 := by
  rw [add_eq_insertChild]
  exact settled_insertChild (settled_delete hs x.id).inOrder x

theorem getElem?_add (c : Catalog) (x : Container) :
    (c.add x).1.children[(c.add x).2]? = some x := by
  rw [add_eq_insertChild]
  exact getElem?_insertChild _ x

/-- The class of a new top-level container is the one it was made for. -/
theorem mediaClass_ofRootClass (k : MediaClass) : (Container.ofRootClass k).mediaClass = k := by
  unfold Container.ofRootClass
  split <;> rfl

theorem settled_ensure {c : Catalog} (hs : Settled c) (k : MediaClass) :
    Settled (c.ensure k).1 := by
  unfold ensure
  split
  · exact hs
  · exact settled_insertChild hs.inOrder _

/-- The position of the container of a class is that of the first there was, or else of a
new one. -/
theorem getElem?_ensure (c : Catalog) (k : MediaClass) :
    (c.ensure k).1.children[(c.ensure k).2]? =
      some ((c.children.find? (·.mediaClass = k)).getD (.ofRootClass k)) := by
  unfold ensure
  cases h : c.children.findIdx? (·.mediaClass = k) with
  | none =>
    have hf : c.children.find? (·.mediaClass = k) = none := by
      simpa using h
    rw [hf]
    exact getElem?_insertChild c _
  | some position =>
    obtain ⟨hlt, hi⟩ := List.findIdx?_eq_some_iff_findIdx_eq.1 h
    rw [List.find?_eq_getElem?_findIdx, hi]
    show c.children[position]? = _
    rw [List.getElem?_eq_getElem hlt]
    rfl

theorem mediaClass_ensured (c : Catalog) (k : MediaClass) :
    ((c.children.find? (·.mediaClass = k)).getD (.ofRootClass k)).mediaClass = k := by
  cases h : c.children.find? (·.mediaClass = k) with
  | none => exact mediaClass_ofRootClass k
  | some node => simpa using List.find?_some h

/-- A container that keeps its heading may change in its place. -/
theorem settled_modifyChild {c : Catalog} (hs : Settled c) (position : Nat)
    {touch : Container → Container} (ht : ∀ node, heading (touch node) = heading node) :
    Settled (c.modifyChild position touch) :=
  hs.congr (map_modify_of_eq fun node _ => ht node) rfl rfl rfl

theorem settled_merge {c c' : Catalog} {id : String} {fields : Dictionary Json} {m : Merge}
    (hs : Settled c) (h : c.merge id fields = .ok (c', m)) : Settled c' := by
  rcases merge_cases h with ⟨rfl, -⟩ | ⟨root, hm, ⟨hh, rfl, -⟩ | ⟨source, node, hi, -, -, rfl, -⟩⟩
  · exact hs
  · exact hs.congr hh hm.numChildren_eq hm.numContainerChildren_eq hm.numItemChildren_eq
  · refine settled_withChildren _ (inOrder_insertIdx node ?_)
    exact (pairwise_inOrder_congr (hm.headings_of_some hi)).2 (hs.inOrder.eraseIdx source)

theorem tells_merge {c c' : Catalog} {id : String} {fields : Dictionary Json} {m : Merge}
    (h : c.merge id fields = .ok (c', m)) : Tells c c' (.merge id fields) (.merged m) := by
  rcases merge_cases h with
    ⟨rfl, rfl⟩ | ⟨root, hm, ⟨-, rfl, rfl⟩ | ⟨source, node, hi, hat, hid, rfl, rfl⟩⟩
  · rfl
  · exact hm.ids_eq
  · obtain ⟨hlt, hnode⟩ := List.getElem?_eq_some_iff.1 hat
    split
    · rename_i hst
      -- The container is put in where it was taken out.
      show ((root.children.eraseIdx source).insertIdx
        (insertPosition node (root.children.eraseIdx source)) node).map _ = _
      rw [← hst, ← hnode, List.insertIdx_eraseIdx_getElem hlt]
      exact hm.ids_eq
    · refine ⟨hi, ⟨node, ?_, hid⟩, ?_⟩
      · exact getElem?_insertChild ⟨{ root with children := root.children.eraseIdx source }⟩ node
      · show (((root.children.eraseIdx source).insertIdx _ node).eraseIdx _).map heading = _
        rw [List.eraseIdx_insertIdx_self]
        exact hm.headings_of_some hi

/-- A merge that is done tells what became of the fields. -/
theorem perform_merge_eq_ok {c c' : Catalog} {id : String} {fields : Dictionary Json}
    {reply : Reply} (h : c.perform (.merge id fields) = .ok (c', reply)) :
    ∃ m, c.merge id fields = .ok (c', m) ∧ reply = .merged m := by
  obtain ⟨⟨merged, m⟩, hm, hr⟩ := Fault.bind_eq_ok_iff.1 h
  cases hr
  exact ⟨m, hm, rfl⟩

theorem settled_perform {c c' : Catalog} {change : Change} {reply : Reply} (hs : Settled c)
    (hk : change.Keeps) (h : c.perform change = .ok (c', reply)) : Settled c' := by
  cases change with
  | ensure k touch =>
    cases h
    exact settled_modifyChild (settled_ensure hs k) _ hk
  | add x =>
    cases h
    exact settled_add hs x
  | delete id =>
    cases h
    exact settled_delete hs id
  | merge id fields =>
    obtain ⟨m, hm, -⟩ := perform_merge_eq_ok h
    exact settled_merge hs hm

theorem tells_perform {c c' : Catalog} {change : Change} {reply : Reply}
    (h : c.perform change = .ok (c', reply)) : Tells c c' change reply := by
  cases change with
  | ensure k touch =>
    cases h
    refine ⟨_, ?_, mediaClass_ensured c k, rfl⟩
    show ((c.ensure k).1.children.modify _ touch)[(c.ensure k).2]? = _
    rw [List.getElem?_modify, getElem?_ensure]
    simp
  | add x =>
    cases h
    exact getElem?_add c x
  | delete id =>
    cases h
    exact tells_delete c id
  | merge id fields =>
    obtain ⟨m, hm, rfl⟩ := perform_merge_eq_ok h
    exact tells_merge hm

/-! ## The root -/

/-- The root has its own id, and the catalog serves it. -/
structure Rooted (c : Catalog) : Prop where
  id_root : c.root.id = "/"
  backend_root : c.root.backend = none

theorem rooted_empty : empty.Rooted := ⟨rfl, rfl⟩

theorem Rooted.withChildren {c : Catalog} (h : c.Rooted) (l : List Container) :
    (c.withChildren l).Rooted := ⟨h.id_root, h.backend_root⟩

theorem Rooted.insertChild {c : Catalog} (h : c.Rooted) (x : Container) :
    (c.insertChild x).1.Rooted := h.withChildren _

theorem Rooted.delete {c : Catalog} (h : c.Rooted) (id : String) : (c.delete id).1.Rooted := by
  rcases delete_cases c id with ⟨-, hc⟩ | ⟨position, node, -, -, -, hc⟩
  · rw [hc]
    exact h
  · rw [hc]
    exact h.withChildren _

theorem Rooted.add {c : Catalog} (h : c.Rooted) (x : Container) : (c.add x).1.Rooted := by
  rw [add_eq_insertChild]
  exact (h.delete x.id).insertChild x

theorem Rooted.merge {c c' : Catalog} (h : c.Rooted) {id : String} {fields : Dictionary Json}
    {m : Merge} (hm : c.merge id fields = .ok (c', m)) : c'.Rooted := by
  rcases merge_cases hm with
    ⟨rfl, -⟩ | ⟨root, hinto, ⟨-, rfl, -⟩ | ⟨source, node, -, -, -, rfl, -⟩⟩
  · exact h
  · exact ⟨hinto.id_eq.trans h.id_root, hinto.backend_eq.trans h.backend_root⟩
  · have hroot : (⟨root⟩ : Catalog).Rooted :=
      ⟨hinto.id_eq.trans h.id_root, hinto.backend_eq.trans h.backend_root⟩
    exact hroot.withChildren _

theorem Rooted.ensure {c : Catalog} (h : c.Rooted) (k : MediaClass) : (c.ensure k).1.Rooted := by
  unfold Catalog.ensure
  split
  · exact h
  · exact h.insertChild _

theorem Rooted.perform {c c' : Catalog} {change : Change} {reply : Reply} (h : c.Rooted)
    (hp : c.perform change = .ok (c', reply)) : c'.Rooted := by
  cases change with
  | ensure k touch =>
    cases hp
    exact ⟨(h.ensure k).id_root, (h.ensure k).backend_root⟩
  | add x =>
    cases hp
    exact h.add x
  | delete id =>
    cases hp
    exact h.delete id
  | merge id fields =>
    obtain ⟨m, hm, -⟩ := perform_merge_eq_ok hp
    exact h.merge hm

/-! ## All calls -/

theorem settled_empty : Settled empty := ⟨List.Pairwise.nil, rfl, rfl, rfl⟩

theorem performAll_cons (c : Catalog) (change : Change) (changes : List Change) :
    c.performAll (change :: changes) =
      (Prod.fst <$> c.perform change) >>= fun c => c.performAll changes :=
  List.foldlM_cons

/-- What every single call keeps is kept by all of them. -/
theorem performAll_preserves {p : Catalog → Prop} {changes : List Change}
    (hstep : ∀ change ∈ changes, ∀ c c' reply, p c → c.perform change = .ok (c', reply) → p c')
    {c c' : Catalog} (hc : p c) (h : c.performAll changes = .ok c') : p c' := by
  induction changes generalizing c with
  | nil =>
    cases h
    exact hc
  | cons change changes ih =>
    obtain ⟨hfirst, hrest⟩ := List.forall_mem_cons.1 hstep
    rw [performAll_cons] at h
    obtain ⟨c₁, hc₁, h⟩ := Fault.bind_eq_ok_iff.1 h
    obtain ⟨r, hr, rfl⟩ := Fault.map_eq_ok_iff.1 hc₁
    exact ih hrest (hfirst _ _ _ hc hr) h

theorem settled_of_performAll {c c' : Catalog} {changes : List Change} (hs : Settled c)
    (hk : ∀ change ∈ changes, change.Keeps) (h : c.performAll changes = .ok c') : Settled c' :=
  performAll_preserves (fun change hchange _ _ _ hs => settled_perform hs (hk change hchange)) hs h

/-- Whatever calls are done, the root keeps its id and is served by the catalog. -/
theorem Rooted.performAll {c c' : Catalog} {changes : List Change} (hc : c.Rooted)
    (h : c.performAll changes = .ok c') : c'.Rooted :=
  performAll_preserves (fun _ _ _ _ _ hc => hc.perform) hc h

/-- After any calls the listing of the root is in order and its numbers agree with it, and
what the next call tells holds of the listings before and after it. -/
theorem settled_performAll {changes : List Change} {c : Catalog}
    (hk : ∀ change ∈ changes, change.Keeps) (h : empty.performAll changes = .ok c) :
    Settled c ∧ ∀ change c' reply, change.Keeps → c.perform change = .ok (c', reply) →
      Settled c' ∧ Tells c c' change reply := by
  have hs := settled_of_performAll settled_empty hk h
  exact ⟨hs, fun _ _ _ hk h => ⟨settled_perform hs hk h, tells_perform h⟩⟩

/-- Two containers, of which the first gets a label that belongs behind the other's. -/
theorem settled_relabelled :
    ∃ c c', empty.performAll [.ensure .rootSongs id, .add (.new "/b" "B" .directory),
        .add (.new "/a" "A" .directory), .delete "/songs"] = .ok c ∧
      c.perform (.merge "/a/" (Dictionary.empty.insert "label" (.str "C"))) =
        .ok (c', .merged (.moved 0 1)) ∧
      Settled c ∧ Settled c' := by
  obtain ⟨c, c', hc, hm⟩ : ∃ c c', empty.performAll [.ensure .rootSongs id,
      .add (.new "/b" "B" .directory), .add (.new "/a" "A" .directory), .delete "/songs"] = .ok c ∧
      c.perform (.merge "/a/" (Dictionary.empty.insert "label" (.str "C"))) =
        .ok (c', .merged (.moved 0 1)) := ⟨_, _, rfl, rfl⟩
  obtain ⟨hs, next⟩ := settled_performAll (by simp [Change.Keeps]) hc
  exact ⟨c, c', hc, hm, hs, (next (.merge _ _) _ _ trivial hm).1⟩

end Catalog

end Mediatheque
