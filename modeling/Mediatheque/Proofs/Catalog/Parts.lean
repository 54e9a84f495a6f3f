import Mediatheque.Proofs.Catalog.Listing
import Mediatheque.Proofs.Catalog.Walk
import Mediatheque.Proofs.Media.Bare

/-!
# The parts of the objects of a catalog

The catalog takes the parts of its objects from the containers that are added to it, and no
call changes them. So a catalog whose objects all have clean parts (`Tidy`) stays so as long as
such containers are added (`tidy_add`, `tidy_delete`, `tidy_merge`), and whatever is looked up in
it has clean parts (`tidy_of_node?`).
-/

namespace Mediatheque

namespace Container

/-- The parts of a node are clean, and those of all nodes below it. -/
inductive Tidy : Container → Prop where
  | mk {c : Container} (hparts : c.CleanParts) (hchildren : ∀ d ∈ c.children, d.Tidy) : c.Tidy

/-- A node answers with itself. -/
theorem eq_of_answerAt {id : String} {node x : Container} {r : Resolution}
    (h : answerAt id node = some r) (hx : r.node? = some x) : node = x := by
  cases r with
  | served y =>
    cases hx
    exact (answerAt_eq_served_iff.1 h).1
  | delegated backend y exact =>
    cases exact with
    | true =>
      cases hx
      exact (answerAt_eq_delegated_iff.1 h).1
    | false => cases hx
  | missing => cases hx

namespace Tidy

theorem cleanParts {c : Container} : c.Tidy → c.CleanParts
  | ⟨hparts, _⟩ => hparts

theorem children {c : Container} : c.Tidy → ∀ d ∈ c.children, d.Tidy
  | ⟨_, hchildren⟩ => hchildren

/-- A node with other children. -/
theorem of_parts_eq {c d : Container} (h : c.Tidy) (hparts : d.parts = c.parts)
    (hchildren : ∀ x ∈ d.children, x.Tidy) : d.Tidy := by
  refine ⟨?_, hchildren⟩
  rw [CleanParts, hparts]
  exact h.cleanParts

/-- A change of one descendant. -/
theorem modifyAlong {f : Container → Container} (hf : ∀ c : Container, c.Tidy → (f c).Tidy)
    {node : Container} (h : node.Tidy) (way : List String) : (node.modifyAlong f way).Tidy := by
  induction way generalizing node with
  | nil => exact hf node h
  | cons step rest ih =>
    rw [modifyAlong_cons]
    exact h.of_parts_eq rfl (forall_mem_modify h.children fun d hd => ih (h.children d hd))

/-- What a walk comes to. -/
theorem of_walk {id : String} {node x : Container} {steps : List String} (h : node.Tidy)
    (hx : (node.walk id steps).node? = some x) : x.Tidy := by
  induction steps generalizing node with
  | nil =>
    cases ha : answerAt id node with
    | some r =>
      rw [walk_of_answerAt ha] at hx
      exact eq_of_answerAt ha hx ▸ h
    | none =>
      rw [walk_nil_of_none ha] at hx
      cases hx
  | cons step steps ih =>
    cases ha : answerAt id node with
    | some r =>
      rw [walk_of_answerAt ha] at hx
      exact eq_of_answerAt ha hx ▸ h
    | none =>
      rw [walk_cons_of_none ha] at hx
      cases hc : node.child? step with
      | some child =>
        rw [hc] at hx
        exact ih (h.children child (List.mem_of_find?_eq_some hc)) hx
      | none =>
        rw [hc] at hx
        cases hx

end Tidy

end Container

namespace Catalog

/-- All objects of a catalog have clean parts. -/
def Tidy (c : Catalog) : Prop := c.root.Tidy

theorem Tidy.children {c : Catalog} (h : c.Tidy) : ∀ d ∈ c.children, d.Tidy :=
  Container.Tidy.children h

theorem tidy_empty : empty.Tidy := ⟨nofun, nofun⟩

/-! ## Looking up -/

theorem tidy_of_node? {c : Catalog} (h : c.Tidy) {id : String} {node : Container}
    (hnode : (c.resolve id).node? = some node) : node.Tidy := by
  rw [resolve, Container.resolve] at hnode
  split at hnode
  · exact h.of_walk hnode
  · cases hnode

/-! ## Changes -/

theorem tidy_withChildren {c : Catalog} (h : c.Tidy) {l : List Container}
    (hl : ∀ d ∈ l, d.Tidy) : (c.withChildren l).Tidy :=
  Container.Tidy.of_parts_eq h rfl hl

theorem tidy_insertChild {c : Catalog} (h : c.Tidy) {x : Container} (hx : x.Tidy) :
    (c.insertChild x).1.Tidy := by
  refine tidy_withChildren h fun d hd => ?_
  rcases List.eq_or_mem_of_mem_insertIdx hd with rfl | hd
  · exact hx
  · exact h.children d hd

theorem tidy_delete {c : Catalog} (h : c.Tidy) (id : String) : (c.delete id).1.Tidy := by
  rcases delete_cases c id with ⟨-, hd⟩ | ⟨position, node, -, -, -, hd⟩
  · rw [hd]
    exact h
  · rw [hd]
    exact tidy_withChildren h fun d hd => h.children d (List.mem_of_mem_eraseIdx hd)

theorem tidy_add {c : Catalog} (h : c.Tidy) {x : Container} (hx : x.Tidy) :
    (c.add x).1.Tidy := by
  rw [add_eq_insertChild]
  exact tidy_insertChild (tidy_delete h x.id) hx

theorem tidy_resort {c : Catalog} (h : c.Tidy) (id : String) : (c.resort id).1.Tidy := by
  rcases resort_cases c id with ⟨-, hr⟩ | ⟨source, node, -, hnode, -, hr⟩
  · rw [hr]
    exact h
  · rw [hr]
    refine tidy_withChildren h fun d hd => ?_
    rcases List.eq_or_mem_of_mem_insertIdx hd with rfl | hd
    · exact h.children _ (List.mem_of_getElem? hnode)
    · exact h.children d (List.mem_of_mem_eraseIdx hd)

/-- Changed fields are not about parts. -/
theorem tidy_applyFields {node : Container} (h : node.Tidy) (fields : Dictionary Json) :
    (applyFields node fields).Tidy := by
  obtain ⟨_, _, _, hr⟩ := redressed_applyFields node fields
  rw [hr]
  exact h.of_parts_eq rfl h.children

theorem tidy_merge {c c' : Catalog} {id : String} {fields : Dictionary Json} {m : Merge}
    (h : c.Tidy) (hm : c.merge id fields = .ok (c', m)) : c'.Tidy := by
  obtain ⟨way, -, hm⟩ := Fault.bind_eq_ok_iff.1 hm
  have hmerged : (⟨c.root.modifyAlong (applyFields · fields) way⟩ : Catalog).Tidy :=
    Container.Tidy.modifyAlong (fun _ hc => tidy_applyFields hc fields) h way
  split at hm
  · cases hm
    exact h
  · dsimp only at hm
    split at hm
    · cases hm
      exact hmerged
    · have hresort := tidy_resort hmerged (ObjectId.normalize id)
      rw [Except.ok.inj hm] at hresort
      exact hresort

end Catalog

end Mediatheque
