import Mediatheque.Proofs.Catalog.Listing
import Mediatheque.Proofs.Catalog.Slices
import Mediatheque.Proofs.Catalog.Walk

/-!
# Which node changed fields reach

Reading an id stops at the first node of its chain that carries a backend's name, whereas changed
fields follow the chain without regard to backends, up to the node with the id:

* `get?_eq_some_iff`: what is read is the node with the id at the end of a chain that passes no
  backend's node;
* `merge_cases_of_chain`: what is edited is the node with the id at the end of any chain, it
  alone (`Replaces`), and there is no such node if the fields are refused.

So reading and editing agree for the ids that are not handed away to a backend further up
(`agrees_iff`), and a node below a backend's is edited though it cannot be read.
-/

namespace Mediatheque

namespace Container

open ObjectId (Ahead IsPathPrefix IsNextPrefix normalize prefixesFrom)

variable {id : String} {n : Nat} {node x y : Container} {passed passed' : List Container}
  {steps : List (List Char)} {f : Container → Container}

/-! ## One node in place of another -/

/-- In a tree the node below the nodes `passed` is replaced, and nothing else. Of several siblings
with one id it is the first that is meant. -/
inductive Replaces (f : Container → Container) :
    List Container → Container → Container → Container → Prop where
  | here (node : Container) : Replaces f [] node node (f node)
  | inChild {tree child child' node : Container} {passed before after : List Container}
      (hchildren : tree.children = before ++ child :: after)
      (hfirst : ∀ other ∈ before, other.id ≠ child.id)
      (rest : Replaces f passed node child child') :
      Replaces f (tree :: passed) node tree { tree with children := before ++ child' :: after }

theorem replaceFirst_append_cons {test : Container → Bool} {before after : List Container}
    (hbefore : ∀ other ∈ before, test other = false) (hx : test x = true) :
    replaceFirst test f (before ++ x :: after) = before ++ f x :: after := by
  induction before with
  | nil =>
    rw [List.nil_append, replaceFirst, if_pos hx]
    rfl
  | cons c before ih =>
    obtain ⟨hc, hbefore⟩ := List.forall_mem_cons.1 hbefore
    rw [List.cons_append, replaceFirst, hc, ih hbefore]
    rfl

/-- A change along a way is one below the child at its first step. -/
theorem Replaces.modifyAlong_cons {step : String} (hx : node.child? step = some x)
    {way : List String} (h : Replaces f passed y x (x.modifyAlong f way)) :
    Replaces f (node :: passed) y node (node.modifyAlong f (step :: way)) := by
  obtain ⟨hid, before, after, hchildren, hbefore⟩ := List.find?_eq_some_iff_append.1 hx
  have hstep : x.id = step := of_decide_eq_true hid
  have hother : ∀ other ∈ before, other.id ≠ step := fun other hmem => by
    simpa using hbefore other hmem
  rw [modifyAlong, hchildren,
    replaceFirst_append_cons (fun other hmem => decide_eq_false (hother other hmem)) hid]
  exact .inChild hchildren (fun other hmem => hstep ▸ hother other hmem) h

/-- What a way leads to is what a change along it replaces. -/
theorem replaces_of_follow? {way : List String} (h : node.follow? way = some x)
    (f : Container → Container) :
    ∃ passed, passed.length = way.length ∧ Replaces f passed x node (node.modifyAlong f way) := by
  induction way generalizing node with
  | nil =>
    obtain rfl : node = x := Option.some.inj h
    exact ⟨[], rfl, .here node⟩
  | cons step way ih =>
    obtain ⟨child, hchild, h⟩ := Option.bind_eq_some_iff.1 h
    obtain ⟨passed, hlength, hreplaces⟩ := ih h
    exact ⟨node :: passed, congrArg Nat.succ hlength, .modifyAlong_cons hchild hreplaces⟩

/-! ## Following a chain to its end -/

/-- There is one chain to a node that has the id. -/
theorem Chain.unique (h : Chain id n node passed x) (hx : x.id = id)
    (h' : Chain id n node passed' y) (hy : y.id = id) : passed = passed' ∧ x = y := by
  induction h generalizing passed' with
  | here n node =>
    cases h' with
    | here => exact ⟨rfl, rfl⟩
    | step hid _ _ _ => exact absurd hx hid
  | step hid hp hc rest ih =>
    cases h' with
    | here => exact absurd hy hid
    | step _ hp' hc' rest' =>
      obtain rfl := hp.unique hp'
      rw [hc] at hc'
      obtain rfl := Option.some.inj hc'
      obtain ⟨rfl, rfl⟩ := ih hx rest'
      exact ⟨rfl, rfl⟩

/-- Nothing lies ahead of the text itself. -/
theorem eq_nil_of_ahead {text : List Char} (ha : Ahead text text.length steps) : steps = [] := by
  refine List.eq_nil_iff_forall_not_mem.2 fun p hp => ?_
  obtain ⟨hbegins, hlt⟩ := (ha.mem_iff p).1 hp
  exact absurd hbegins.isPrefix.length_le (Nat.not_le_of_lt hlt)

/-- The child that is reached by the last path prefix has the id, and no other. -/
theorem id_eq_iff_of_child? {p : List Char} (hx : node.child? (String.ofList p) = some x) :
    x.id = id ↔ p = id.toList := by
  have hid : x.id = String.ofList p := by simpa using List.find?_some hx
  rw [hid, ← String.toList_inj, String.toList_ofList]

/-- The chain leads to the node with the id that is found along the path prefixes. -/
theorem follow?_of_chain (ha : Ahead id.toList n steps) (hid : node.id ≠ id)
    (h : Chain id n node passed x) (hx : x.id = id) :
    node.follow? (steps.map String.ofList) = some x := by
  induction steps generalizing n node passed with
  | nil =>
    cases h with
    | here => exact absurd hx hid
    | step _ hp _ _ => exact absurd hp ha.not_isNextPrefix
  | cons p steps ih =>
    rcases (chain_iff_of_none ha hid).1 h with ⟨-, rfl⟩ | ⟨child, rest, hc, -, hrest⟩
    · exact absurd hx hid
    rw [List.map_cons, follow?, hc]
    by_cases hchild : child.id = id
    · cases hrest with
      | here =>
        have htail := ha.tail
        rw [(id_eq_iff_of_child? hc).1 hchild] at htail
        rw [eq_nil_of_ahead htail]
        rfl
      | step hne _ _ _ => exact absurd hchild hne
    · exact ih ha.tail hchild hrest

/-- What is found along the path prefixes has the id, stands at the end of the chain, and is what a
change along them replaces. -/
theorem exists_chain_of_follow? (ha : Ahead id.toList n steps) (hid : node.id ≠ id)
    (hn : n < id.toList.length) (f : Container → Container)
    (h : node.follow? (steps.map String.ofList) = some x) :
    ∃ passed, Chain id n node passed x ∧ x.id = id ∧
      Replaces f passed x node (node.modifyAlong f (steps.map String.ofList)) := by
  have hself : IsPathPrefix id.toList id.toList :=
    ⟨List.ne_nil_of_length_pos (Nat.zero_lt_of_lt hn), .inl rfl⟩
  induction steps generalizing n node with
  | nil =>
    have hmem := (ha.mem_iff id.toList).2 ⟨hself, hn⟩
    cases hmem
  | cons p steps ih =>
    rw [List.map_cons, follow?] at h
    obtain ⟨child, hc, h⟩ := Option.bind_eq_some_iff.1 h
    by_cases hchild : child.id = id
    · have htail := ha.tail
      rw [(id_eq_iff_of_child? hc).1 hchild] at htail
      obtain rfl := eq_nil_of_ahead htail
      obtain rfl : child = x := Option.some.inj h
      exact ⟨[node], .step hid ha.isNextPrefix hc (.here _ child), hchild,
        .modifyAlong_cons hc (.here child)⟩
    · have hp : p.length < id.toList.length := by
        have hbegins := ((ha.mem_iff p).1 List.mem_cons_self).1
        refine Nat.lt_of_le_of_ne hbegins.isPrefix.length_le fun hlen => hchild ?_
        exact (id_eq_iff_of_child? hc).2 (hbegins.eq_of_length hself hlen)
      obtain ⟨passed, hchain, hx, hreplaces⟩ := ih ha.tail hchild hp h
      exact ⟨node :: passed, .step hid ha.isNextPrefix hc hchain, hx,
        .modifyAlong_cons hc hreplaces⟩

end Container

namespace Catalog

open Container (Chain Replaces Untagged heading)
open ObjectId (normalize)

variable {c c' : Catalog} {id : String} {node : Container} {fields : Dictionary Json}

/-! ## The root -/

/-- Every call leaves the id of the root. -/
theorem id_root_perform {change : Change} {reply : Reply}
    (h : c.perform change = .ok (c', reply)) : c'.root.id = c.root.id := by
  cases change with
  | ensure mediaClass touch =>
    cases h
    show (c.ensure mediaClass).1.root.id = c.root.id
    unfold ensure
    split <;> rfl
  | add container =>
    cases h
    show (c.add container).1.root.id = c.root.id
    unfold add
    split <;> rfl
  | delete id =>
    cases h
    show (c.delete id).1.root.id = c.root.id
    unfold delete
    split <;> rfl
  | merge id fields =>
    obtain ⟨m, hm, -⟩ := perform_merge_eq_ok h
    rcases merge_cases hm with
      ⟨rfl, -⟩ | ⟨root, hinto, ⟨-, rfl, -⟩ | ⟨source, node, -, -, -, rfl, -⟩⟩
    · rfl
    · exact hinto.id_eq
    · exact hinto.id_eq

theorem id_root_performAll {changes : List Change} (h : c.performAll changes = .ok c') :
    c'.root.id = c.root.id := by
  induction changes generalizing c with
  | nil =>
    cases h
    rfl
  | cons change changes ih =>
    rw [performAll_cons] at h
    obtain ⟨c₁, hc₁, h⟩ := Fault.bind_eq_ok_iff.1 h
    obtain ⟨r, hr, rfl⟩ := Fault.map_eq_ok_iff.1 hc₁
    exact (ih h).trans (id_root_perform hr)

/-! ## Reading -/

/-- What is read of an id is the node that has it at the end of a chain without backends. -/
theorem get?_eq_some_iff (hid : (normalize id).toList.head? = some '/') :
    c.get? id = some node ↔
      ∃ passed, Chain (normalize id) 0 c.root passed node ∧ Untagged passed ∧
        node.id = normalize id := by
  rw [get?, resolve]
  constructor
  · intro h
    cases hr : c.root.resolve id with
    | served served =>
      rw [hr] at h
      obtain rfl := Option.some.inj h
      obtain ⟨⟨passed, hchain, huntagged⟩, -, hnode⟩ := (Container.resolve_eq_served_iff hid).1 hr
      exact ⟨passed, hchain, huntagged, hnode⟩
    | delegated backend last exact =>
      rw [hr] at h
      obtain ⟨⟨passed, hchain, huntagged⟩, -, hexact⟩ :=
        (Container.resolve_eq_delegated_iff hid).1 hr
      cases exact with
      | true =>
        obtain rfl := Option.some.inj h
        exact ⟨passed, hchain, huntagged, of_decide_eq_true hexact.symm⟩
      | false => cases h
    | missing =>
      rw [hr] at h
      cases h
  · rintro ⟨passed, hchain, huntagged, hnode⟩
    cases hb : node.backend with
    | none =>
      rw [(Container.resolve_eq_served_iff hid).2 ⟨⟨passed, hchain, huntagged⟩, hb, hnode⟩]
      rfl
    | some backend =>
      rw [(Container.resolve_eq_delegated_iff hid).2
        ⟨⟨passed, hchain, huntagged⟩, hb, (decide_eq_true hnode).symm⟩]
      rfl

/-! ## Editing -/

/-- The first top-level container with an id is taken out of the listing of the root and put in
again at its place. -/
def PutInPlace (id : String) (c c' : Catalog) : Prop :=
  ∃ before container after, c.children = before ++ container :: after ∧ container.id = id ∧
    (∀ other ∈ before, other.id ≠ id) ∧
    c' = ((c.withChildren (before ++ after)).insertChild container).1

/-- The listing is made of the same containers. -/
theorem PutInPlace.perm (h : PutInPlace id c c') : c'.children.Perm c.children := by
  obtain ⟨before, container, after, hchildren, -, -, rfl⟩ := h
  have hinsert := List.perm_insertIdx container (before ++ after)
    (insertPosition_le container (before ++ after))
  rw [hchildren]
  exact hinsert.trans List.perm_middle.symm

/-- One node of a catalog has got changed fields, and none else. If that changed the label or the
class of the node, the top-level container with its id may have been put to its new place. -/
def Edited (id : String) (fields : Dictionary Json) (passed : List Container) (node : Container)
    (c c' : Catalog) : Prop :=
  ∃ tree, Replaces (applyFields · fields) passed node c.root tree ∧
    (c' = ⟨tree⟩ ∨ heading (applyFields node fields) ≠ heading node ∧ PutInPlace id ⟨tree⟩ c')

theorem putInPlace_resort (c : Catalog) (id : String) :
    (c.resort id).2 ≠ .missing ∧ ((c.resort id).1 = c ∨ PutInPlace id c (c.resort id).1) := by
  rcases resort_cases c id with ⟨-, h⟩ | ⟨source, container, hindex, hsource, hid, h⟩
  · rw [h]
    exact ⟨Merge.noConfusion, .inl rfl⟩
  · rw [h]
    refine ⟨?_, .inr ?_⟩
    · dsimp only
      split <;> exact Merge.noConfusion
    · obtain ⟨hlt, -, hbefore⟩ := List.findIdx?_eq_some_iff_getElem.1 hindex
      obtain ⟨hlt, hget⟩ := List.getElem?_eq_some_iff.1 hsource
      refine ⟨c.children.take source, container, c.children.drop (source + 1), ?_, hid, ?_, ?_⟩
      · rw [← hget, List.getElem_cons_drop, List.take_append_drop]
      · intro other hother
        obtain ⟨i, hi, rfl⟩ := List.mem_take_iff_getElem.1 hother
        exact fun hsame => hbefore i (by omega) (decide_eq_true hsame)
      · rw [← List.eraseIdx_eq_take_drop_succ]
        rfl

/-- Fields that have found no node are refused. -/
theorem merge_of_follow?_eq_none {way : List String} (fields : Dictionary Json)
    (hway : wayTo (normalize id).toList = .ok way) (hfollow : c.root.follow? way = none) :
    c.merge id fields = .ok (c, .missing) := by
  simp only [merge, hway, bind, Except.bind, hfollow]

/-- Fields that have found their node change it, and may move it in the listing of the root. -/
theorem merge_of_follow? {way : List String} (hway : wayTo (normalize id).toList = .ok way)
    (hfollow : c.root.follow? way = some node) :
    ∃ c' m, c.merge id fields = .ok (c', m) ∧ m ≠ .missing ∧
      (c' = ⟨c.root.modifyAlong (applyFields · fields) way⟩ ∨
        heading (applyFields node fields) ≠ heading node ∧
          PutInPlace (normalize id) ⟨c.root.modifyAlong (applyFields · fields) way⟩ c') := by
  by_cases hheading : heading (applyFields node fields) = heading node
  · have hsame := (Container.heading_eq_iff.1 hheading).2
    refine ⟨_, .inPlace, ?_, Merge.noConfusion, .inl rfl⟩
    simp only [merge, hway, bind, Except.bind, hfollow, if_pos hsame]
  · have hchanged : ¬ ((applyFields node fields).label = node.label ∧
        (applyFields node fields).mediaClass = node.mediaClass) := by
      obtain ⟨_, _, _, hredressed⟩ := redressed_applyFields node fields
      exact fun hsame => hheading (Container.heading_eq_iff.2 ⟨by rw [hredressed], hsame⟩)
    obtain ⟨hfound, hplace⟩ := putInPlace_resort
      ⟨c.root.modifyAlong (applyFields · fields) way⟩ (normalize id)
    refine ⟨(resort ⟨c.root.modifyAlong (applyFields · fields) way⟩ (normalize id)).1, _, ?_,
      hfound, hplace.imp_right fun h => ⟨hheading, h⟩⟩
    simp only [merge, hway, bind, Except.bind, hfollow, if_neg hchanged]

/-- The way that fields take leads to the node with the id at the end of the chain, if there is
one. -/
theorem exists_wayTo (hroot : c.root.id = "/") (hid : (normalize id).toList.head? = some '/')
    (f : Container → Container) :
    ∃ way, wayTo (normalize id).toList = .ok way ∧
      ((c.root.follow? way = none ∧ ∀ passed node, Chain (normalize id) 0 c.root passed node →
          node.id ≠ normalize id) ∨
        ∃ passed node, c.root.follow? way = some node ∧
          Chain (normalize id) 0 c.root passed node ∧ node.id = normalize id ∧
          Replaces f passed node c.root (c.root.modifyAlong f way)) := by
  obtain ⟨rest, hrest⟩ := List.head?_eq_some_iff.1 hid
  by_cases hslash : rest = []
  · have hself : c.root.id = normalize id := by
      rw [hroot, ← String.ofList_toList (s := normalize id), hrest, hslash]
    refine ⟨[], ?_, .inr ⟨[], c.root, rfl, .here 0 c.root, hself, .here c.root⟩⟩
    rw [hrest, hslash]
    rfl
  · have hne : c.root.id ≠ normalize id := by
      intro hself
      rw [← hself, hroot] at hrest
      exact hslash (List.cons.inj hrest).2.symm
    have hlong : ('/' :: rest : List Char) ≠ ['/'] := fun h => hslash (List.cons.inj h).2
    have ha := Container.ahead_of_toList hrest
    refine ⟨(ObjectId.prefixesFrom ['/'] rest).map String.ofList, ?_, ?_⟩
    · rw [hrest, wayTo, if_neg hlong, if_pos (by decide), ObjectId.prefixes]
    · cases hfollow : c.root.follow? ((ObjectId.prefixesFrom ['/'] rest).map String.ofList) with
      | none =>
        refine .inl ⟨rfl, fun passed node hchain hnode => ?_⟩
        rw [Container.follow?_of_chain ha hne hchain hnode] at hfollow
        cases hfollow
      | some node =>
        have hlt : 0 < (normalize id).toList.length := by
          rw [hrest]
          exact Nat.succ_pos _
        obtain ⟨passed, hchain, hnode, hreplaces⟩ :=
          Container.exists_chain_of_follow? ha hne hlt f hfollow
        exact .inr ⟨passed, node, rfl, hchain, hnode, hreplaces⟩

/-- Changed fields reach the node with the id at the end of the chain, whoever it belongs to; they
are refused if there is none. -/
theorem merge_cases_of_chain (hroot : c.root.id = "/")
    (hid : (normalize id).toList.head? = some '/') (fields : Dictionary Json) :
    (c.merge id fields = .ok (c, .missing) ∧
      ∀ passed node, Chain (normalize id) 0 c.root passed node → node.id ≠ normalize id) ∨
    ∃ passed node c' m, Chain (normalize id) 0 c.root passed node ∧ node.id = normalize id ∧
      c.merge id fields = .ok (c', m) ∧ m ≠ .missing ∧
      Edited (normalize id) fields passed node c c' := by
  obtain ⟨way, hway, ⟨hfollow, hnone⟩ | ⟨passed, node, hfollow, hchain, hnode, hreplaces⟩⟩ :=
    exists_wayTo hroot hid (applyFields · fields)
  · exact .inl ⟨merge_of_follow?_eq_none fields hway hfollow, hnone⟩
  · obtain ⟨c', m, hmerge, hm, hplace⟩ := merge_of_follow? hway hfollow
    exact .inr ⟨passed, node, c', m, hchain, hnode, hmerge, hm, _, hreplaces, hplace⟩

/-! ## Agreement -/

/-- Reading and editing agree on an id: fields for it are refused, and change nothing, if nothing is
read, and else they change the node that is read, and none else. -/
def Agrees (c : Catalog) (id : String) (fields : Dictionary Json) : Prop :=
  match c.get? id with
  | none => c.merge id fields = .ok (c, .missing)
  | some node => ∃ passed c' m, Chain (normalize id) 0 c.root passed node ∧
      node.id = normalize id ∧ c.merge id fields = .ok (c', m) ∧ m ≠ .missing ∧
      Edited (normalize id) fields passed node c c'

/-- The catalog has a node with an id below a node that it has handed to a backend. -/
def HandedAway (c : Catalog) (id : String) : Prop :=
  ∃ passed node, Chain (normalize id) 0 c.root passed node ∧ node.id = normalize id ∧
    ¬ Untagged passed

/-- Whatever calls made a catalog, and for every id with a slash in front: reading and editing agree
on the id exactly if it is not handed away. A node whose id is handed away is not read, and is
edited all the same. -/
theorem agrees_iff {changes : List Change} (hc : empty.performAll changes = .ok c)
    (hid : id.toList.head? = some '/') (fields : Dictionary Json) :
    (c.Agrees id fields ↔ ¬ c.HandedAway id) ∧
    (c.HandedAway id → c.get? id = none ∧
      ∃ passed node c' m, Chain (normalize id) 0 c.root passed node ∧ node.id = normalize id ∧
        c.merge id fields = .ok (c', m) ∧ m ≠ .missing ∧
        Edited (normalize id) fields passed node c c') := by
  have hroot : c.root.id = "/" := id_root_performAll hc
  have hhead : (normalize id).toList.head? = some '/' := by
    rw [Container.toList_normalize, ObjectId.head?_normalizeChars]
    exact hid
  -- Of a node that is handed away, nothing is read, as there is one chain to it.
  have hunread : c.HandedAway id → c.get? id = none := by
    rintro ⟨passed, node, hchain, hnode, htagged⟩
    refine Option.eq_none_iff_forall_ne_some.2 fun other hread => htagged ?_
    obtain ⟨passed', hchain', huntagged, hother⟩ := (get?_eq_some_iff hhead).1 hread
    rw [(hchain.unique hnode hchain' hother).1]
    exact huntagged
  rcases merge_cases_of_chain hroot hhead fields with
    ⟨hmissing, hnone⟩ | ⟨passed, node, c', m, hchain, hnode, hmerge, hm, hedited⟩
  · have haway : ¬ c.HandedAway id := fun ⟨passed, node, hchain, hnode, _⟩ =>
      hnone passed node hchain hnode
    have hread : c.get? id = none := Option.eq_none_iff_forall_ne_some.2 fun node hread => by
      obtain ⟨passed, hchain, -, hnode⟩ := (get?_eq_some_iff hhead).1 hread
      exact hnone passed node hchain hnode
    refine ⟨iff_of_true ?_ haway, fun h => absurd h haway⟩
    rw [Agrees, hread]
    exact hmissing
  · refine ⟨?_, fun h => ⟨hunread h, passed, node, c', m, hchain, hnode, hmerge, hm, hedited⟩⟩
    by_cases huntagged : Untagged passed
    · have hread := (get?_eq_some_iff hhead).2 ⟨passed, hchain, huntagged, hnode⟩
      refine iff_of_true ?_ fun h => ?_
      · rw [Agrees, hread]
        exact ⟨passed, c', m, hchain, hnode, hmerge, hm, hedited⟩
      · rw [hunread h] at hread
        cases hread
    · have haway : c.HandedAway id := ⟨passed, node, hchain, hnode, huntagged⟩
      refine iff_of_false (fun h => ?_) (not_not_intro haway)
      rw [Agrees, hunread haway, hmerge] at h
      exact hm (Prod.mk.inj (Except.ok.inj h)).2

/-- A top-level container of a backend that has listed a child of it. -/
def handing : Change :=
  .ensure .rootSongs fun songs =>
    { songs with backend := some "sql", children := [.new "/songs/1" "One" .song] }

/-- The container itself is read and edited, though it is a backend's. -/
theorem agrees_handed :
    ∃ c, empty.performAll [.add (.new "/tapes" "Tapes" .directory), handing] = .ok c ∧
      c.Agrees "/songs//" (Dictionary.empty.insert "label" (.str "All songs")) := by
  obtain ⟨c, hc, node, hread⟩ : ∃ c,
      empty.performAll [.add (.new "/tapes" "Tapes" .directory), handing] = .ok c ∧
      ∃ node, c.get? "/songs//" = some node := ⟨_, rfl, _, rfl⟩
  have hid : "/songs//".toList.head? = some '/' := by decide
  obtain ⟨hagrees, haway⟩ := agrees_iff hc hid (Dictionary.empty.insert "label" (.str "All songs"))
  refine ⟨c, hc, hagrees.2 fun h => ?_⟩
  rw [(haway h).1] at hread
  cases hread

/-- Its child cannot be read, and is edited. -/
theorem not_agrees :
    ¬ ∀ (changes : List Change) (c : Catalog) (id : String) (fields : Dictionary Json),
      empty.performAll changes = .ok c → id.toList.head? = some '/' → c.Agrees id fields := by
  intro h
  obtain ⟨c, hc, hread, c', hmerge⟩ : ∃ c, empty.performAll [handing] = .ok c ∧
      c.get? "/songs/1" = none ∧ ∃ c', c.merge "/songs/1"
        (Dictionary.empty.insert "label" (.str "Two")) = .ok (c', .inPlace) :=
    ⟨_, rfl, rfl, _, rfl⟩
  have hagrees := h _ _ "/songs/1" (Dictionary.empty.insert "label" (.str "Two")) hc (by decide)
  rw [Agrees, hread, hmerge] at hagrees
  exact Merge.noConfusion (Prod.mk.inj (Except.ok.inj hagrees)).2

end Catalog

end Mediatheque
