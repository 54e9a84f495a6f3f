import Mediatheque.Proofs.Catalog.Editing
import Mediatheque.Proofs.Catalog.Fields
import Mediatheque.Proofs.Catalog.Naming

/-!
# What a merge leaves alone

In a catalog whose ids follow the tree, changed fields reach the node that has the id, wherever it
stands, and no other:

* `modifyAlong_eq_redress`: to go along the way of an id is to look for the id in the whole tree,
  as what is off the way stands below an id that is not on it;
* `merge_eq_ok`: the fields change the label, the class and the metadata of the node with the id
  (`Container.redress`), and the root may then list it at another place (`Relisted`);
* `alike_resolve`: so whoever answered for an id still does;
* `merge_of_dressed`: a node that bears the fields already is left as it is, and where it is.

Together they make up what a merge does and does not do (`merge_redresses`).
-/

namespace Mediatheque

namespace ObjectId

variable {grand parent id : String} {text : List Char}

theorem IsChild.length_lt (h : IsChild parent id) : parent.toList.length < id.toList.length := by
  obtain ⟨component, hc, -, hid⟩ := h
  have hpos := List.length_pos_iff.2 hc
  rw [hid, List.length_append, List.length_cons, stem]
  split
  · rename_i hroot
    rw [hroot]
    show 1 < 0 + (component.length + 1)
    omega
  · omega

theorem stem_of_isChild (h : IsChild parent id) : stem id = id.toList := by
  refine if_neg fun hroot => ?_
  obtain ⟨component, hc, -, hid⟩ := h
  have hpos := List.length_pos_iff.2 hc
  have hlength := congrArg List.length hid
  rw [hroot, List.length_append, List.length_cons] at hlength
  have hone : "/".toList.length = 1 := rfl
  omega

/-- What is on the way to a text stands below what is on it. -/
theorem IsPathPrefix.of_isChild (hparent : IsChild grand parent) (h : IsChild parent id)
    (hp : IsPathPrefix text id.toList) : IsPathPrefix text parent.toList := by
  refine ⟨fun hnil => ?_, .inr (List.IsPrefix.trans ?_ hp.isPrefix)⟩
  · have hlt := hparent.length_lt
    rw [hnil] at hlt
    exact Nat.not_lt_zero _ hlt
  · obtain ⟨component, -, -, hid⟩ := h
    rw [stem_of_isChild hparent] at hid
    exact ⟨component, by rw [hid, List.append_assoc, List.singleton_append]⟩

/-- A child that is on the way to a text is the next step from its parent. -/
theorem isNextPrefix_of_isChild (h : IsChild parent id) (hp : IsPathPrefix text id.toList) :
    IsNextPrefix text (stem parent).length id.toList := by
  obtain ⟨component, -, hs, hid⟩ := h
  have hlength : id.toList.length = (stem parent).length + (component.length + 1) := by
    rw [hid, List.length_append, List.length_cons]
  refine ⟨hp, by omega, fun q hq hlt => ?_⟩
  by_contra hshort
  -- A path prefix in between would end before a slash of the component.
  rcases hq.2 with rfl | hslash
  · exact hshort hp.isPrefix.length_le
  have hwithin : q ++ ['/'] <+: id.toList := by
    refine List.prefix_of_prefix_length_le hslash hp.isPrefix ?_
    rw [List.length_append, List.length_singleton]
    omega
  obtain ⟨t, ht⟩ := hwithin
  have hget : (stem parent ++ '/' :: component)[q.length]? = some '/' := by
    rw [← hid, ← ht, List.append_assoc, List.getElem?_append_right (Nat.le_refl _), Nat.sub_self]
    rfl
  obtain ⟨k, hk⟩ : ∃ k, q.length = (stem parent).length + (k + 1) :=
    ⟨q.length - (stem parent).length - 1, by omega⟩
  rw [hk, List.getElem?_append_right (Nat.le_add_right _ _), Nat.add_sub_cancel_left,
    List.getElem?_cons_succ] at hget
  exact hs (List.mem_of_getElem? hget)

end ObjectId

namespace Resolution

/-- Two answers for an id are of one sort, with one backend and the node of one id. -/
inductive Alike : Resolution → Resolution → Prop where
  | served {a b : Container} (hid : b.id = a.id) : Alike (.served a) (.served b)
  | delegated {a b : Container} (backend : String) (exact : Bool) (hid : b.id = a.id) :
    Alike (.delegated backend a exact) (.delegated backend b exact)
  | missing : Alike .missing .missing

end Resolution

namespace Container

open Catalog (applyFields redressed_applyFields)
open ObjectId (Ahead IsChild IsPathPrefix stem)

variable {c : Container} {fields : Dictionary Json} {id : String}

/-! ## The node with an id -/

/-- The tree with fields at the node that has an id: its label, its class and its metadata are other
ones, and nothing else. -/
def redress (id : String) (fields : Dictionary Json) (c : Container) : Container :=
  let changed := if c.id = id then applyFields c fields else c
  { c with
    label := changed.label
    mediaClass := changed.mediaClass
    metadata := changed.metadata
    children := c.children.map fun d => d.redress id fields }
termination_by sizeOf c
decreasing_by exact sizeOf_lt_of_mem_children ‹_›

theorem redress_of_eq (h : c.id = id) :
    c.redress id fields =
      { applyFields c fields with children := c.children.map fun d => d.redress id fields } := by
  obtain ⟨_, _, _, hchanged⟩ := redressed_applyFields c fields
  rw [redress]
  simp only [if_pos h]
  rw [hchanged]

theorem redress_of_ne (h : c.id ≠ id) :
    c.redress id fields =
      { c with children := c.children.map fun d => d.redress id fields } := by
  rw [redress]
  simp only [if_neg h]

theorem id_redress (c : Container) : (c.redress id fields).id = c.id := by
  rw [redress]

theorem backend_redress (c : Container) : (c.redress id fields).backend = c.backend := by
  rw [redress]

theorem children_redress (c : Container) :
    (c.redress id fields).children = c.children.map fun d => d.redress id fields := by
  rw [redress]

theorem ids_redress (c : Container) :
    (c.redress id fields).children.map (·.id) = c.children.map (·.id) := by
  rw [children_redress, List.map_map]
  exact List.map_congr_left fun d _ => id_redress d

/-- The child with an id is the former one, redressed. -/
theorem child?_redress (c : Container) (step : String) :
    (c.redress id fields).child? step =
      (c.child? step).map fun d => d.redress id fields := by
  rw [child?, children_redress, List.find?_map, child?]
  congr 2
  funext d
  exact congrArg (fun i => decide (i = step)) (id_redress d)

theorem named_redress (h : c.Named) : (c.redress id fields).Named := by
  induction h with
  | @mk c hids hdistinct hchildren ih =>
    refine ⟨fun d hd => ?_, ids_redress c ▸ hdistinct, fun d hd => ?_⟩
    · rw [children_redress] at hd
      obtain ⟨e, he, rfl⟩ := List.mem_map.1 hd
      rw [id_redress, id_redress]
      exact hids e he
    · rw [children_redress] at hd
      obtain ⟨e, he, rfl⟩ := List.mem_map.1 hd
      exact ih e he

/-! ## The way to the node -/

/-- No node below an id that is not on the way has the id that the way leads to. -/
theorem redress_of_not_isPathPrefix {parent : String} (hid : id ≠ "") (hnamed : c.Named)
    (hchild : IsChild parent c.id) (hoff : ¬ IsPathPrefix id.toList c.id.toList) :
    c.redress id fields = c := by
  induction hnamed generalizing parent with
  | @mk c hids hdistinct hchildren ih =>
    have hne : c.id ≠ id := fun h =>
      hoff ⟨fun hnil => hid (h ▸ String.toList_eq_nil_iff.1 hnil), .inl (by rw [h])⟩
    have hsame : c.children.map (fun d => d.redress id fields) = c.children :=
      map_eq_self_iff.2 fun d hd => ih d hd (hids d hd) fun hp =>
        hoff (hp.of_isChild hchild (hids d hd))
    rw [redress_of_ne hne, hsame]
    exact eta c

/-- No node below the one with the id has it, too. -/
theorem redress_eq_applyFields (hid : id ≠ "") (hnamed : c.Named) (h : c.id = id) :
    c.redress id fields = applyFields c fields := by
  have hsame : c.children.map (fun d => d.redress id fields) = c.children := by
    refine map_eq_self_iff.2 fun d hd => ?_
    have hchild := hnamed.isChild d hd
    refine redress_of_not_isPathPrefix hid (hnamed.children d hd) hchild fun hp => ?_
    have hlt := hchild.length_lt
    rw [h] at hlt
    exact absurd hp.isPrefix.length_le (Nat.not_le_of_lt hlt)
  obtain ⟨_, _, _, hchanged⟩ := redressed_applyFields c fields
  rw [redress_of_eq h, hsame, hchanged]

/-- Where siblings have distinct ids, the first with an id is the only one. -/
theorem replaceFirst_eq_map {step : String} {f : Container → Container} {l : List Container}
    (hdistinct : (l.map (·.id)).Nodup) :
    replaceFirst (·.id = step) f l = l.map fun d => if d.id = step then f d else d := by
  induction l with
  | nil => rfl
  | cons d l ih =>
    obtain ⟨hd, hl⟩ := List.nodup_cons.1 hdistinct
    rw [replaceFirst, List.map_cons]
    by_cases hstep : d.id = step
    · rw [if_pos hstep, if_pos (decide_eq_true hstep)]
      have hothers : l.map (fun e => if e.id = step then f e else e) = l := by
        refine map_eq_self_iff.2 fun e he => if_neg fun heq => hd ?_
        exact List.mem_map.2 ⟨e, he, heq.trans hstep.symm⟩
      rw [hothers]
    · rw [if_neg hstep, ih hl]
      exact if_neg (by simpa using hstep)

/-- A change along the way of an id is one of the node with the id, if there is one, and none
else. -/
theorem modifyAlong_eq_redress {steps : List (List Char)} (hid : id ≠ "") (hroot : id ≠ "/")
    (hnamed : c.Named) (hway : c.id = "/" ∨ IsPathPrefix id.toList c.id.toList)
    (ha : Ahead id.toList (stem c.id).length steps) :
    c.modifyAlong (applyFields · fields) (steps.map String.ofList) = c.redress id fields := by
  have hself : IsPathPrefix id.toList id.toList :=
    ⟨fun hnil => hid (String.toList_eq_nil_iff.1 hnil), .inl rfl⟩
  induction steps generalizing c with
  | nil =>
    -- The id itself does not lie ahead, so that it has been reached.
    have hreached : id.toList.length ≤ (stem c.id).length := by
      by_contra hlt
      exact List.not_mem_nil ((ha.mem_iff id.toList).2 ⟨hself, Nat.lt_of_not_le hlt⟩)
    have hpos : 0 < id.toList.length := List.length_pos_iff.2 hself.1
    have hne : c.id ≠ "/" := by
      intro h
      rw [h, stem, if_pos rfl, List.length_nil] at hreached
      omega
    rw [stem, if_neg hne] at hreached
    have hp := hway.resolve_left hne
    have heq := hp.eq_of_length hself (Nat.le_antisymm hp.isPrefix.length_le hreached)
    exact (redress_eq_applyFields hid hnamed (String.toList_inj.1 heq)).symm
  | cons p steps ih =>
    have hnext := ha.isNextPrefix
    have hne : c.id ≠ id := by
      intro h
      have hlt := hnext.2.1
      rw [h, stem, if_neg hroot] at hlt
      exact Nat.not_lt_of_le hnext.1.isPrefix.length_le hlt
    rw [List.map_cons, modifyAlong, replaceFirst_eq_map hnamed.distinct, redress_of_ne hne]
    congr 1
    refine List.map_congr_left fun d hd => ?_
    have hchild := hnamed.isChild d hd
    by_cases hstep : d.id = String.ofList p
    · have hp : d.id.toList = p := by rw [hstep, String.toList_ofList]
      rw [if_pos hstep]
      refine ih (hnamed.children d hd) (.inr (hp ▸ hnext.1)) ?_
      rw [ObjectId.stem_of_isChild hchild, hp]
      exact ha.tail
    · rw [if_neg hstep]
      refine (redress_of_not_isPathPrefix hid (hnamed.children d hd) hchild fun hp => hstep ?_).symm
      rw [← ha.isNextPrefix_iff.1 (ObjectId.isNextPrefix_of_isChild hchild hp),
        String.ofList_toList]

/-- What is replaced by itself in a tree that stays. -/
theorem Replaces.eq_of_eq {f : Container → Container} {passed : List Container}
    {node tree tree' : Container} (h : Replaces f passed node tree tree') (heq : tree' = tree) :
    f node = node := by
  induction h with
  | here => exact heq
  | @inChild tree child child' node passed before after hchildren _ _ ih =>
    have hlists := congrArg Container.children heq
    rw [hchildren] at hlists
    exact ih (List.cons.inj (List.append_cancel_left hlists)).1

/-- Nothing changes along a way that leads nowhere. -/
theorem modifyAlong_of_follow?_eq_none {way : List String} (h : c.follow? way = none)
    (f : Container → Container) : c.modifyAlong f way = c := by
  induction way generalizing c with
  | nil => cases h
  | cons step rest ih =>
    rw [follow?, child?_eq_getElem?] at h
    have hsame : (c.children.modify (c.children.findIdx (·.id = step))
        fun d => d.modifyAlong f rest).map (fun d => d) = c.children.map fun d => d :=
      map_modify_of_eq fun d hd => ih (by rw [hd] at h; exact h)
    rw [List.map_id', List.map_id'] at hsame
    rw [modifyAlong_cons, hsame]
    exact eta c

/-! ## The same fields again -/

/-- All nodes of a tree that have the id bear the fields. -/
inductive Dressed (id : String) (fields : Dictionary Json) : Container → Prop where
  | mk {c : Container} (hself : c.id = id → ∀ field ∈ fields.entries, c.Bears field)
      (hchildren : ∀ d ∈ c.children, Dressed id fields d) : Dressed id fields c

theorem dressed_redress (c : Container) : Dressed id fields (c.redress id fields) := by
  refine ⟨fun h field hfield => ?_, fun d hd => ?_⟩
  · rw [id_redress] at h
    rw [redress_of_eq h]
    exact (bears_congr rfl rfl rfl field).2 (bears_applyFields c hfield)
  · rw [children_redress] at hd
    obtain ⟨e, he, rfl⟩ := List.mem_map.1 hd
    exact dressed_redress e
termination_by sizeOf c
decreasing_by exact sizeOf_lt_of_mem_children he

theorem Dressed.redress_eq (h : Dressed id fields c) : c.redress id fields = c := by
  induction h with
  | @mk c hself hchildren ih =>
    have hsame : c.children.map (fun d => d.redress id fields) = c.children :=
      map_eq_self_iff.2 ih
    by_cases hid : c.id = id
    · rw [redress_of_eq hid, hsame, applyFields_of_bears (hself hid)]
      exact eta c
    · rw [redress_of_ne hid, hsame]
      exact eta c

/-! ## Another place in the listing of the root -/

/-- A root lists the same containers as another, those with other ids than the one in question in
the same order, and it differs in nothing else than the numbers of its children. -/
structure Relisted (id : String) (root root' : Container) : Prop where
  perm : root'.children.Perm root.children
  order : root'.children.filter (·.id ≠ id) = root.children.filter (·.id ≠ id)
  rest : root' = { root with
    children := root'.children
    numChildren := root'.numChildren
    numContainerChildren := root'.numContainerChildren
    numItemChildren := root'.numItemChildren }

variable {root root' : Container}

theorem Relisted.refl (id : String) (root : Container) : Relisted id root root :=
  ⟨.refl _, rfl, (eta root).symm⟩

theorem Relisted.id_eq (h : Relisted id root root') : root'.id = root.id := by
  rw [h.rest]

theorem Relisted.backend_eq (h : Relisted id root root') : root'.backend = root.backend := by
  rw [h.rest]

theorem Relisted.named (h : Relisted id root root') (hnamed : root.Named) : root'.Named := by
  refine ⟨fun d hd => ?_, ?_, fun d hd => hnamed.children d (h.perm.mem_iff.1 hd)⟩
  · rw [h.id_eq]
    exact hnamed.isChild d (h.perm.mem_iff.1 hd)
  · exact (h.perm.map (·.id)).nodup_iff.2 hnamed.distinct

theorem Relisted.dressed {fields : Dictionary Json} {i : String} (h : Relisted id root root')
    (hdressed : Dressed i fields root) : Dressed i fields root' := by
  obtain ⟨hself, hchildren⟩ := hdressed
  refine ⟨fun hid field hfield => ?_, fun d hd => hchildren d (h.perm.mem_iff.1 hd)⟩
  rw [h.id_eq] at hid
  rw [h.rest]
  exact (bears_congr rfl rfl rfl field).2 (hself hid field hfield)

/-- With distinct ids it does not matter where a child is listed. -/
theorem Relisted.child?_eq (h : Relisted id root root')
    (hdistinct : (root.children.map (·.id)).Nodup) (step : String) :
    root'.child? step = root.child? step := by
  cases hchild : root.child? step with
  | some d =>
    have hmem := h.perm.mem_iff.2 (List.mem_of_find?_eq_some hchild)
    have hstep : d.id = step := by simpa using List.find?_some hchild
    obtain ⟨i, hi⟩ := List.mem_iff_getElem?.1 hmem
    rw [← hstep]
    exact child?_of_nodup ((h.perm.map (·.id)).nodup_iff.2 hdistinct) hi
  | none =>
    refine List.find?_eq_none.2 fun d hd => ?_
    exact List.find?_eq_none.1 hchild d (h.perm.mem_iff.1 hd)

/-! ## Who answers -/

/-- A tree whose nodes have been redressed answers as before, wherever its root lists them. -/
theorem alike_walk {i : String} {a b : Container} (hid : b.id = a.id) (hb : b.backend = a.backend)
    (hchild : ∀ step, b.child? step = (a.child? step).map fun d => d.redress id fields)
    (steps : List String) : (a.walk i steps).Alike (b.walk i steps) := by
  induction steps generalizing a b with
  | nil =>
    rw [walk, walk, hb, hid]
    cases a.backend with
    | some backend => exact .delegated backend _ hid
    | none =>
      by_cases hself : a.id = i
      · simp only [if_pos hself]
        exact .served hid
      · simp only [if_neg hself]
        exact .missing
  | cons step rest ih =>
    rw [walk, walk, hb, hid, hchild]
    cases a.backend with
    | some backend => exact .delegated backend _ hid
    | none =>
      by_cases hself : a.id = i
      · simp only [if_pos hself]
        exact .served hid
      · simp only [if_neg hself]
        cases a.child? step with
        | none => exact .missing
        | some d => exact ih (id_redress d) (backend_redress d) (child?_redress d)

theorem alike_resolve (hnamed : root.Named) (h : Relisted id (root.redress id fields) root')
    (i : String) : (root.resolve i).Alike (root'.resolve i) := by
  have hchild (step : String) :
      root'.child? step = (root.child? step).map fun d => d.redress id fields := by
    rw [h.child?_eq (named_redress hnamed).distinct, child?_redress]
  rw [resolve, resolve]
  split
  · exact alike_walk (h.id_eq.trans (id_redress root)) (h.backend_eq.trans (backend_redress root))
      hchild _
  · exact .missing

end Container

namespace Catalog

open Container (Dressed Relisted Replaces)
open ObjectId (normalize)

variable {c c' : Catalog} {id : String} {fields : Dictionary Json}

theorem relisted_of_putInPlace (h : PutInPlace id c c') : Relisted id c.root c'.root := by
  have hperm := h.perm
  obtain ⟨before, container, after, hchildren, hid, -, rfl⟩ := h
  refine ⟨hperm, ?_, rfl⟩
  have hself : decide (container.id ≠ id) = false := by simp [hid]
  have hinsert := filter_insertIdx_of_false (p := fun d : Container => decide (d.id ≠ id)) hself
    (insertPosition_le container (before ++ after))
  have hlisted : c.root.children = before ++ container :: after := hchildren
  refine hinsert.trans ?_
  rw [hlisted, List.filter_append, List.filter_append, List.filter_cons, hself, if_neg (by simp)]

section

variable (hc : c.Named) (hid : (normalize id).toList.head? = some '/')
include hc hid

/-- The change along the way of the fields is one of the node with the id. -/
theorem modifyAlong_wayTo (fields : Dictionary Json) {way : List String}
    (hway : wayTo (normalize id).toList = .ok way) :
    c.root.modifyAlong (applyFields · fields) way = c.root.redress (normalize id) fields := by
  obtain ⟨rest, hrest⟩ := List.head?_eq_some_iff.1 hid
  have hne : normalize id ≠ "" := by
    intro h
    rw [h] at hrest
    cases hrest
  rw [wayTo_of_head? hid] at hway
  obtain rfl := Except.ok.inj hway
  by_cases hslash : (normalize id).toList = ['/']
  · have hroot : c.root.id = normalize id := by
      rw [hc.root, ← String.ofList_toList (s := normalize id), hslash]
    rw [if_pos hslash, Container.modifyAlong,
      Container.redress_eq_applyFields hne hc.named hroot]
  · have hroot : normalize id ≠ "/" := fun h => hslash (by rw [h]; rfl)
    have ha := Container.ahead_of_toList hrest
    rw [if_neg hslash, hrest, ObjectId.prefixes]
    refine Container.modifyAlong_eq_redress hne hroot hc.named (.inl hc.root) ?_
    rw [hc.root]
    exact ha

/-- The fields find the one node that has the id, or there is none to be redressed. -/
theorem redress_cases (fields : Dictionary Json) :
    ∃ way, wayTo (normalize id).toList = .ok way ∧
      ((c.root.follow? way = none ∧ c.root.redress (normalize id) fields = c.root) ∨
        ∃ passed node, c.root.follow? way = some node ∧ node.id = normalize id ∧
          Replaces (applyFields · fields) passed node c.root
            (c.root.redress (normalize id) fields)) := by
  obtain ⟨way, hway, ⟨hfollow, -⟩ | ⟨passed, node, hfollow, -, hnode, hreplaces⟩⟩ :=
    exists_wayTo hc.root hid (applyFields · fields)
  · refine ⟨way, hway, .inl ⟨hfollow, ?_⟩⟩
    rw [← modifyAlong_wayTo hc hid fields hway,
      Container.modifyAlong_of_follow?_eq_none hfollow]
  · refine ⟨way, hway, .inr ⟨passed, node, hfollow, hnode, ?_⟩⟩
    rw [← modifyAlong_wayTo hc hid fields hway]
    exact hreplaces

/-- Changed fields are done with, and the node with the id is redressed. -/
theorem merge_eq_ok (fields : Dictionary Json) :
    ∃ c' m, c.merge id fields = .ok (c', m) ∧
      Relisted (normalize id) (c.root.redress (normalize id) fields) c'.root := by
  obtain ⟨way, hway, ⟨hfollow, hsame⟩ | ⟨passed, node, hfollow, -, -⟩⟩ :=
    redress_cases hc hid fields
  · refine ⟨c, .missing, merge_of_follow?_eq_none fields hway hfollow, ?_⟩
    rw [hsame]
    exact .refl _ _
  · obtain ⟨c', m, hmerge, -, hplace⟩ := merge_of_follow? hway hfollow
    rw [modifyAlong_wayTo hc hid fields hway] at hplace
    refine ⟨c', m, hmerge, ?_⟩
    rcases hplace with rfl | ⟨-, hplace⟩
    · exact .refl _ _
    · exact relisted_of_putInPlace hplace

/-- Where the node with the id bears the fields, nothing changes. -/
theorem merge_of_dressed (hdressed : Dressed (normalize id) fields c.root) :
    ∃ m, c.merge id fields = .ok (c, m) ∧ ∀ source target, m ≠ .moved source target := by
  obtain ⟨way, hway, ⟨hfollow, -⟩ | ⟨passed, node, hfollow, -, hreplaces⟩⟩ :=
    redress_cases hc hid fields
  · exact ⟨.missing, merge_of_follow?_eq_none fields hway hfollow,
      fun _ _ => Merge.noConfusion⟩
  · have hsame := hdressed.redress_eq
    have hnode := hreplaces.eq_of_eq hsame
    rw [← modifyAlong_wayTo hc hid fields hway] at hsame
    refine ⟨.inPlace, ?_, fun _ _ => Merge.noConfusion⟩
    simp only [merge, hway, bind, Except.bind, hfollow, hnode, hsame, and_self, if_true]

end

theorem Named.of_relisted (hc : c.Named)
    (h : Relisted id (c.root.redress id fields) c'.root) : c'.Named :=
  ⟨h.id_eq.trans ((Container.id_redress c.root).trans hc.root),
    h.named (Container.named_redress hc.named)⟩

/-- For every catalog whose ids follow the tree, every id with a slash in front and all fields: the
node with the id, if there is one, gets another label, class and metadata, which bear the fields,
and nothing else changes but its place in the listing of the root and the numbers of the root's
children. Every id is answered for as before, and the same fields once more change nothing and move
nothing. -/
theorem merge_redresses (hc : c.Named) (hid : id.toList.head? = some '/')
    (fields : Dictionary Json) :
    ∃ c' m, c.merge id fields = .ok (c', m) ∧
      (c.root.redress (normalize id) fields = c.root ∨ ∃ passed node, node.id = normalize id ∧
        Replaces (applyFields · fields) passed node c.root
          (c.root.redress (normalize id) fields)) ∧
      Relisted (normalize id) (c.root.redress (normalize id) fields) c'.root ∧
      Dressed (normalize id) fields c'.root ∧ (∀ i, (c.resolve i).Alike (c'.resolve i)) ∧
      ∃ again, c'.merge id fields = .ok (c', again) ∧
        ∀ source target, again ≠ .moved source target := by
  have hhead := ObjectId.head?_normalize hid
  obtain ⟨c', m, hmerge, hrelisted⟩ := merge_eq_ok hc hhead fields
  have hdressed := hrelisted.dressed (Container.dressed_redress c.root)
  refine ⟨c', m, hmerge, ?_, hrelisted, hdressed,
    Container.alike_resolve hc.named hrelisted,
    merge_of_dressed (hc.of_relisted hrelisted) hhead hdressed⟩
  obtain ⟨way, -, ⟨-, hsame⟩ | ⟨passed, node, -, hnode, hreplaces⟩⟩ :=
    redress_cases hc hhead fields
  · exact .inl hsame
  · exact .inr ⟨passed, node, hnode, hreplaces⟩

/-- Two top-level containers, of which the second is a backend's. -/
def shelves : Catalog :=
  ⟨{ Container.root with
    children := [.new "/a" "A" .directory,
      { Container.new "/b" "B" .directory with backend := some "disk" }]
    numChildren := 2
    numContainerChildren := 2 }⟩

theorem named_shelves : shelves.Named := by
  refine ⟨rfl, ⟨fun d hd => ?_, by decide, fun d hd => ?_⟩⟩
  · rcases List.mem_pair.1 hd with rfl | rfl
    · exact ⟨['a'], by decide, by decide, by decide⟩
    · exact ⟨['b'], by decide, by decide, by decide⟩
  · rcases List.mem_pair.1 hd with rfl | rfl
    · exact ⟨nofun, .nil, nofun⟩
    · exact ⟨nofun, .nil, nofun⟩

/-- A label that belongs behind the other container's, with a class of the wrong type. -/
theorem merge_redresses_moved :
    ∃ c', shelves.merge "/a/" ((Dictionary.empty.insert "label" (.str "C")).insert "class" .null) =
        .ok (c', .moved 0 1) ∧
      (∀ i, (shelves.resolve i).Alike (c'.resolve i)) ∧
      ∃ again, c'.merge "/a/"
          ((Dictionary.empty.insert "label" (.str "C")).insert "class" .null) = .ok (c', again) ∧
        ∀ source target, again ≠ .moved source target := by
  have hid : "/a/".toList.head? = some '/' := by decide
  obtain ⟨c', m, hmerge, -, -, -, halike, hagain⟩ := merge_redresses named_shelves hid
    ((Dictionary.empty.insert "label" (.str "C")).insert "class" .null)
  obtain ⟨c₁, hmoved⟩ : ∃ c₁, shelves.merge "/a/"
      ((Dictionary.empty.insert "label" (.str "C")).insert "class" .null) =
        .ok (c₁, .moved 0 1) := ⟨_, rfl⟩
  rw [hmoved] at hmerge
  obtain ⟨rfl, rfl⟩ := Prod.mk.inj (Except.ok.inj hmerge)
  exact ⟨c₁, hmoved, halike, hagain⟩

end Catalog

end Mediatheque
