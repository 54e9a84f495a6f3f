import Mathlib.Data.List.Nodup
import Mediatheque.Catalog.Basic
import Mediatheque.Proofs.Catalog.Walk

/-!
# Catalogs whose ids follow the tree

In a well-kept catalog the id of a child is its parent's with one more component, and siblings
have distinct ids (`Container.Named`). The parent can then be read off the id of a child
(`ObjectId.parent?_of_isChild`), and the way to a child is the way to its parent with one step
more (`resolve_of_isChild`). So every child of a node that the catalog serves is found by its
id, whoever owns it (`Catalog.get?_child`), and at its position (`childIndex?_of_nodup`).
-/

namespace Mediatheque

namespace ObjectId

/-- The id that a component goes behind: that of the root has its slash already. -/
def stem (parent : String) : List Char := if parent = "/" then [] else parent.toList

/-- Whether an id is another with one component behind it, which is not empty. -/
def IsChild (parent id : String) : Prop :=
  ∃ component, component ≠ [] ∧ '/' ∉ component ∧ id.toList = stem parent ++ '/' :: component

theorem IsChild.ne {parent id : String} (h : IsChild parent id) : parent ≠ id := by
  rintro rfl
  obtain ⟨component, hc, hs, hid⟩ := h
  rw [stem] at hid
  split at hid
  · rename_i hroot
    rw [hroot] at hid
    exact hc (List.cons.inj hid).2.symm
  · have hl := congrArg List.length hid
    rw [List.length_append, List.length_cons] at hl
    omega

/-! ## Parents -/

theorem beforeLastSlash?_of_not_mem {s : List Char} (h : '/' ∉ s) : beforeLastSlash? s = none := by
  induction s with
  | nil => rfl
  | cons c s ih =>
    obtain ⟨hc, hs⟩ := not_or.1 (mt List.mem_cons.2 h)
    rw [beforeLastSlash?, ih hs]
    exact if_neg (Ne.symm hc)

theorem beforeLastSlash?_append {t : List Char} (h : '/' ∉ t) (s : List Char) :
    beforeLastSlash? (s ++ '/' :: t) = some s := by
  induction s with
  | nil =>
    rw [List.nil_append, beforeLastSlash?, beforeLastSlash?_of_not_mem h]
    exact if_pos rfl
  | cons c s ih => rw [List.cons_append, beforeLastSlash?, ih]

/-- The parent of a child is the id that its component stands behind. -/
theorem parent?_of_isChild {parent id : String} (hne : parent ≠ "") (h : IsChild parent id) :
    parent? id = some parent := by
  obtain ⟨component, hc, hs, hid⟩ := h
  have hlong : id.toList ≠ ['/'] := by
    rw [hid]
    intro e
    have hl := congrArg List.length e
    have hpos := List.length_pos_iff.2 hc
    simp only [List.length_append, List.length_cons, List.length_nil] at hl
    omega
  rw [parent?, parentChars?, if_neg hlong, hid, beforeLastSlash?_append hs]
  by_cases hp : parent = "/"
  · rw [stem, if_pos hp, hp]
    rfl
  · have htext : parent.toList ≠ [] := fun e => hne (String.toList_eq_nil_iff.1 e)
    rw [stem, if_neg hp]
    cases htl : parent.toList with
    | nil => exact absurd htl htext
    | cons c s =>
      show some (String.ofList (c :: s)) = some parent
      rw [← htl, String.ofList_toList]

/-! ## Trimmed ids -/

theorem normalize_of_getLast? {id : String} {c : Char} (h : id.toList.getLast? = some c)
    (hc : c ≠ '/') : normalize id = id := by
  have htrim := normalizeChars_append_of_getLast? h hc []
  rw [List.append_nil] at htrim
  rw [normalize, htrim, dropTrailing, List.append_nil, String.ofList_toList]

theorem getLast?_of_isChild {parent id : String} (h : IsChild parent id) :
    ∃ c, id.toList.getLast? = some c ∧ c ≠ '/' := by
  obtain ⟨component, hc, hs, hid⟩ := h
  refine ⟨component.getLast hc, ?_, fun e => hs (e ▸ List.getLast_mem hc)⟩
  rw [hid, List.getLast?_append, List.getLast?_cons, List.getLast?_eq_some_getLast hc]
  rfl

theorem normalize_of_isChild {parent id : String} (h : IsChild parent id) : normalize id = id := by
  obtain ⟨c, hlast, hc⟩ := getLast?_of_isChild h
  exact normalize_of_getLast? hlast hc

theorem normalize_normalize (id : String) : normalize (normalize id) = normalize id := by
  have htrim := isTrimmed_normalizeChars id.toList
  have hchars : (normalize id).toList = normalizeChars id.toList := String.toList_ofList
  by_cases hs : OnlySlashes id.toList
  · have hroot : normalize id = "/" := by rw [normalize, htrim.1 hs]
    rw [hroot]
    rfl
  · cases hlast : (normalize id).toList.getLast? with
    | none =>
      have hnil : normalize id = "" := by
        rw [← String.ofList_toList (s := normalize id), List.getLast?_eq_none_iff.1 hlast]
      rw [hnil]
      rfl
    | some c =>
      refine normalize_of_getLast? hlast fun e => ?_
      rw [e, hchars] at hlast
      exact (htrim.2 hs).2 hlast

end ObjectId

namespace Container

open ObjectId (IsChild stem normalize prefixesFrom)

/-- The ids of the children of a node, and of all nodes below it, are those of their parents
with a component behind them, and siblings have distinct ids. -/
inductive Named : Container → Prop where
  | mk {c : Container} (hids : ∀ d ∈ c.children, IsChild c.id d.id)
      (hdistinct : (c.children.map (·.id)).Nodup) (hchildren : ∀ d ∈ c.children, d.Named) : c.Named

namespace Named

variable {c : Container}

theorem isChild : c.Named → ∀ d ∈ c.children, IsChild c.id d.id
  | ⟨hids, _, _⟩ => hids

theorem distinct : c.Named → (c.children.map (·.id)).Nodup
  | ⟨_, hdistinct, _⟩ => hdistinct

theorem children : c.Named → ∀ d ∈ c.children, d.Named
  | ⟨_, _, hchildren⟩ => hchildren

/-- What a walk is served by is as well named as where it starts. -/
theorem of_walk {id : String} {node x : Container} {steps : List String} (h : node.Named)
    (hx : node.walk id steps = .served x) : x.Named := by
  induction steps generalizing node with
  | nil =>
    cases ha : answerAt id node with
    | some r =>
      rw [walk_of_answerAt ha] at hx
      exact (answerAt_eq_served_iff.1 (hx ▸ ha)).1 ▸ h
    | none =>
      rw [walk_nil_of_none ha] at hx
      cases hx
  | cons step steps ih =>
    cases ha : answerAt id node with
    | some r =>
      rw [walk_of_answerAt ha] at hx
      exact (answerAt_eq_served_iff.1 (hx ▸ ha)).1 ▸ h
    | none =>
      rw [walk_cons_of_none ha] at hx
      cases hc : node.child? step with
      | some child =>
        rw [hc] at hx
        exact ih (h.children child (List.mem_of_find?_eq_some hc)) hx
      | none =>
        rw [hc] at hx
        cases hx

theorem of_resolve {root node : Container} (h : root.Named) {id : String}
    (hnode : root.resolve id = .served node) : node.Named := by
  rw [resolve] at hnode
  split at hnode
  · exact h.of_walk hnode
  · cases hnode

end Named

/-! ## Positions of children -/

section

variable {c d : Container} {i : Nat} (hdistinct : (c.children.map (·.id)).Nodup)
  (hd : c.children[i]? = some d)
include hdistinct hd

/-- A child stands first among those with its id. -/
theorem childIndex?_of_nodup : c.childIndex? d.id = some i := by
  obtain ⟨hi, rfl⟩ := List.getElem?_eq_some_iff.1 hd
  refine List.findIdx?_eq_some_iff_getElem.2 ⟨hi, by simp, fun j hj => ?_⟩
  have hne := List.pairwise_iff_getElem.1 hdistinct j i
    (by rw [List.length_map]; omega) (by rwa [List.length_map]) hj
  rw [List.getElem_map, List.getElem_map] at hne
  simpa using hne

theorem child?_of_nodup : c.child? d.id = some d := by
  have hindex := childIndex?_of_nodup hdistinct hd
  rw [child?, List.find?_eq_getElem?_findIdx,
    (List.findIdx?_eq_some_iff_findIdx_eq.1 hindex).2, hd]

end

/-! ## One step more -/

/-- A walk that is served at its last step goes on from there for an id that it does not
meet. -/
theorem walk_append_of_served {id id' : String} {node last : Container} {steps : List String}
    (hid : node.id ≠ id) (hid' : node.id ≠ id') (hs : ∀ s ∈ steps, s ≠ id ∧ s ≠ id')
    (h : node.walk id (steps ++ [id]) = .served last) (more : List String) :
    node.walk id' (steps ++ id :: more) = last.walk id' more := by
  induction steps generalizing node with
  | nil =>
    cases ha : answerAt id node with
    | some r =>
      rw [walk_of_answerAt ha] at h
      exact absurd (answerAt_eq_served_iff.1 (h ▸ ha)).2.2 hid
    | none =>
      have hb := (answerAt_eq_none_iff.1 ha).1
      rw [List.nil_append, walk_cons_of_none ha] at h
      rw [List.nil_append, walk_cons_of_none (answerAt_eq_none_iff.2 ⟨hb, hid'⟩)]
      cases hc : node.child? id with
      | none =>
        rw [hc] at h
        cases h
      | some child =>
        rw [hc] at h
        cases hl : answerAt id child with
        | some r =>
          simp only [walk_of_answerAt hl] at h
          have hself := (answerAt_eq_served_iff.1 (h ▸ hl)).1
          simp only [hself]
        | none =>
          simp only [walk_nil_of_none hl] at h
          cases h
  | cons step steps ih =>
    cases ha : answerAt id node with
    | some r =>
      rw [walk_of_answerAt ha] at h
      exact absurd (answerAt_eq_served_iff.1 (h ▸ ha)).2.2 hid
    | none =>
      have hb := (answerAt_eq_none_iff.1 ha).1
      rw [List.cons_append, walk_cons_of_none ha] at h
      rw [List.cons_append, walk_cons_of_none (answerAt_eq_none_iff.2 ⟨hb, hid'⟩)]
      obtain ⟨⟨hstep, hstep'⟩, hs⟩ := List.forall_mem_cons.1 hs
      cases hc : node.child? step with
      | none =>
        rw [hc] at h
        cases h
      | some child =>
        rw [hc] at h
        have hchild : child.id = step := by simpa using List.find?_some hc
        exact ih (hchild ▸ hstep) (hchild ▸ hstep') hs h

/-- The way to an id ends with the id, and is shorter before. -/
theorem map_prefixesFrom_eq_append {id : String} {rest : List Char} (h : id.toList = '/' :: rest) :
    ∃ init : List String, (prefixesFrom ['/'] rest).map String.ofList = init ++ [id] ∧
      ∀ s ∈ init, s.toList.length < id.toList.length := by
  have hlast := ObjectId.getLast?_prefixesFrom ['/'] rest
  obtain ⟨init, hinit⟩ := List.getLast?_eq_some_iff.1 hlast
  refine ⟨init.map String.ofList, ?_, fun s hs => ?_⟩
  · rw [hinit, List.map_append, List.map_singleton, List.singleton_append, ← h,
      String.ofList_toList]
  · obtain ⟨p, hp, rfl⟩ := List.mem_map.1 hs
    have hpair := ObjectId.pairwise_prefixesFrom ['/'] rest
    rw [hinit] at hpair
    have hlt := (List.pairwise_append.1 hpair).2.2 p hp _ (List.mem_singleton.2 rfl)
    rw [List.singleton_append] at hlt
    rwa [String.toList_ofList, h]

/-- A node that the catalog serves has the id, and belongs to no backend. -/
theorem served_cases {root node : Container} {id : String} (h : root.resolve id = .served node) :
    (normalize id).toList.head? = some '/' ∧ node.backend = none ∧ node.id = normalize id := by
  have hhead : (normalize id).toList.head? = some '/' := by
    by_contra hne
    rw [resolve_of_head?_ne hne] at h
    cases h
  exact ⟨hhead, ((resolve_eq_served_iff hhead).1 h).2⟩

/-- The way to a child of a node that the catalog serves leads over that node. -/
theorem resolve_of_isChild {root node : Container} (hroot : root.id = "/") {id id' : String}
    (h : root.resolve id = .served node) (hid' : IsChild node.id id') :
    root.resolve id' = node.walk id' [id'] := by
  obtain ⟨hhead, -, hnode⟩ := served_cases h
  obtain ⟨rest, hrest⟩ := List.head?_eq_some_iff.1 hhead
  have htrim := ObjectId.normalize_of_isChild hid'
  obtain ⟨component, hc, hs, hchild⟩ := hid'
  rw [resolve_of_toList hrest] at h
  by_cases hr : rest = []
  · -- The node is the root, since that has the id itself.
    have hslash : normalize id = "/" := by
      rw [← String.ofList_toList (s := normalize id), hrest, hr]
    have hself : root = node := by
      cases ha : answerAt (normalize id) root with
      | some r =>
        rw [walk_of_answerAt ha] at h
        exact (answerAt_eq_served_iff.1 (h ▸ ha)).1
      | none => exact absurd (hroot.trans hslash.symm) (answerAt_eq_none_iff.1 ha).2
    rw [stem, if_pos (hnode.trans hslash), List.nil_append] at hchild
    rw [resolve_of_toList (htrim.symm ▸ hchild), htrim, hself,
      ObjectId.prefixesFrom_of_not_mem hs, List.map_singleton, List.singleton_append, ← hchild,
      String.ofList_toList]
  · have hne : normalize id ≠ "/" := by
      intro e
      rw [e] at hrest
      exact hr (List.cons.inj hrest).2.symm
    rw [stem, if_neg (hnode ▸ hne), hnode, hrest, List.cons_append] at hchild
    obtain ⟨init, hinit, hshort⟩ := map_prefixesFrom_eq_append hrest
    have hlong : (normalize id).toList.length < id'.toList.length := by
      rw [hrest, hchild, List.length_cons, List.length_cons, List.length_append, List.length_cons]
      omega
    have hlast : prefixesFrom (['/'] ++ rest ++ ['/']) component = [id'.toList] := by
      rw [ObjectId.prefixesFrom_of_not_mem hs, hchild]
      simp
    rw [hinit] at h
    rw [resolve_of_toList (htrim.symm ▸ hchild), htrim, ObjectId.prefixesFrom_append_slash,
      List.map_append, hinit, hlast, List.map_singleton, String.ofList_toList, List.append_assoc]
    refine walk_append_of_served (hroot ▸ Ne.symm hne) ?_ (fun s hs => ⟨?_, ?_⟩) h [id']
    · rintro rfl
      rw [hroot, hrest, List.length_cons] at hlong
      exact absurd (Nat.lt_of_succ_lt_succ hlong) (Nat.not_lt_zero _)
    · rintro rfl
      exact absurd (hshort _ hs) (Nat.lt_irrefl _)
    · rintro rfl
      exact absurd (hshort _ hs) (Nat.not_lt_of_lt hlong)

end Container

namespace Catalog

/-- A catalog whose ids follow the tree, from the id of the root on. -/
structure Named (c : Catalog) : Prop where
  root : c.root.id = "/"
  named : c.root.Named

variable {c : Catalog} {id : String} {node child : Container} {i : Nat}

/-- A child of a node that the catalog serves is resolved to itself, for the backend that it
belongs to or for the catalog. -/
theorem resolve_child (hc : c.Named) (hnode : c.resolve id = .served node)
    (hchild : node.children[i]? = some child) :
    c.resolve child.id = match child.backend with
      | some backend => .delegated backend child true
      | none => .served child := by
  have hnamed := hc.named.of_resolve hnode
  have hmem := List.mem_of_getElem? hchild
  have hid := hnamed.isChild child hmem
  have hanswer : Container.answerAt child.id node = none :=
    Container.answerAt_eq_none_iff.2 ⟨(Container.served_cases hnode).2.1, hid.ne⟩
  have hstep : c.resolve child.id = child.walk child.id [] := by
    rw [resolve, Container.resolve_of_isChild hc.root hnode hid,
      Container.walk_cons_of_none hanswer, Container.child?_of_nodup hnamed.distinct hchild]
  rw [hstep]
  cases hb : child.backend with
  | some backend =>
    rw [Container.walk_of_answerAt (Container.answerAt_of_some hb)]
    simp
  | none =>
    rw [Container.walk_of_answerAt (Container.answerAt_eq_served_iff.2 ⟨rfl, hb, rfl⟩)]

/-- A child of a node that the catalog serves is found by its id, whoever owns it. -/
theorem get?_child (hc : c.Named) (hnode : c.resolve id = .served node)
    (hchild : node.children[i]? = some child) : c.get? child.id = some child := by
  rw [get?, resolve_child hc hnode hchild]
  cases child.backend <;> rfl

/-- A node that the catalog serves is found by its own id. -/
theorem get?_self (hnode : c.resolve id = .served node) : c.get? node.id = some node := by
  obtain ⟨-, -, hid⟩ := Container.served_cases hnode
  have hself : c.resolve node.id = c.resolve id :=
    Container.resolve_congr (by rw [hid, ObjectId.normalize_normalize]) c.root
  rw [get?, hself, hnode]
  rfl

end Catalog

end Mediatheque
