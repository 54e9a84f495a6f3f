import Mediatheque.Proofs.Catalog.Distinct
import Mediatheque.Proofs.Catalog.Naming
import Mediatheque.Proofs.ObjectId.Ancestors

/-!
# Where a top-level container is felt

The way to an id leaves the root by the first path prefix of the id, and every path prefix of an id
lies above it (`ObjectId.isAncestor_of_isPathPrefix`). So a container that comes to the root or goes
from it makes no difference to an id that is not below its own: the root has the same child to step
to (`resolve_eq_of_child?`, `child?_add_of_ne`, `child?_delete_of_ne`).

At its own id a container is found after it has been added, and nothing is found there or below
after it has been deleted, provided that no other had its id and that the id is one component behind
the slash of the root (`resolve_add_delete`). All this rests on the root being what it is whatever
is done to the catalog (`Rooted.performAll`).
-/

namespace Mediatheque

namespace ObjectId

/-- An id lies above or at what it is on the way to. -/
theorem isAncestor_of_isPathPrefix {id : String} {p : List Char}
    (h : IsPathPrefix (normalize id).toList p) : isAncestor (String.ofList p) id = true := by
  rw [normalize, String.toList_ofList] at h
  rw [isAncestor, String.toList_ofList]
  obtain ⟨hslashes, htrim⟩ := isTrimmed_normalizeChars id.toList
  by_cases hs : OnlySlashes id.toList
  · -- The one path prefix of a slash is the slash.
    rw [hslashes hs] at h
    obtain rfl : p = ['/'] := by
      obtain ⟨hne, rfl | hlong⟩ := h
      · rfl
      · have hlength := hlong.length_le
        rw [List.length_append, List.length_singleton] at hlength
        exact absurd (List.length_eq_zero_iff.1 (by omega)) hne
    rfl
  · obtain ⟨⟨k, hk⟩, -⟩ := htrim hs
    rw [hk]
    rcases h.2 with rfl | ⟨t, ht⟩
    · refine isAncestorChars_append ?_
      cases k with
      | zero => exact .inl rfl
      | succ k => exact .inr rfl
    · rw [← ht, List.append_assoc, List.append_assoc]
      exact isAncestorChars_append (.inr rfl)

theorem isAncestor_self (id : String) : isAncestor id id = true := isAncestorChars_self id.toList

end ObjectId

namespace Container

open ObjectId (IsChild IsPathPrefix normalize normalizeChars prefixesFrom stem)

/-- Two roots that have the same child on the way to an id answer for it alike. -/
theorem resolve_eq_of_child? {root root' : Container} {id : String} (hid : normalize id ≠ "/")
    (hroot : root.id = "/" ∧ root.backend = none) (hroot' : root'.id = "/" ∧ root'.backend = none)
    (h : ∀ p, IsPathPrefix (normalize id).toList p →
      root'.child? (String.ofList p) = root.child? (String.ofList p)) :
    root'.resolve id = root.resolve id := by
  by_cases hhead : (normalize id).toList.head? = some '/'
  · obtain ⟨rest, hrest⟩ := List.head?_eq_some_iff.1 hhead
    have ha := ahead_of_toList hrest
    have hnone : answerAt (normalize id) root = none :=
      answerAt_eq_none_iff.2 ⟨hroot.2, fun he => hid (he.symm.trans hroot.1)⟩
    have hnone' : answerAt (normalize id) root' = none :=
      answerAt_eq_none_iff.2 ⟨hroot'.2, fun he => hid (he.symm.trans hroot'.1)⟩
    rw [resolve_of_toList hrest, resolve_of_toList hrest]
    cases hsteps : prefixesFrom ['/'] rest with
    | nil => rw [List.map_nil, walk_nil_of_none hnone, walk_nil_of_none hnone']
    | cons p steps =>
      rw [hsteps] at ha
      rw [List.map_cons, walk_cons_of_none hnone, walk_cons_of_none hnone',
        h p ((ha.mem_iff p).1 List.mem_cons_self).1]
  · rw [resolve_of_head?_ne hhead, resolve_of_head?_ne hhead]

/-- The way to what is at or below a child's id is not at its end in the root, and leads by that
id first. -/
theorem resolve_eq_walk_of_isAncestor (root : Container) {id id' : String} (h : IsChild "/" id)
    (ha : ObjectId.isAncestor id id' = true) :
    normalize id' ≠ "/" ∧ ∃ steps, root.resolve id' = root.walk (normalize id') (id :: steps) := by
  obtain ⟨c, hlast, hc⟩ := ObjectId.getLast?_of_isChild h
  have htrim := ObjectId.normalize_of_isChild h
  obtain ⟨component, hne, hs, hid⟩ := h
  have hlong {s : List Char} (hn : (normalize id').toList = '/' :: (component ++ s)) :
      normalize id' ≠ "/" := by
    intro hslash
    rw [hslash] at hn
    exact hne (List.append_eq_nil_iff.1 (List.cons.inj hn).2.symm).1
  rw [stem, if_pos rfl, List.nil_append] at hid
  have hself : normalizeChars id.toList = id.toList := by
    rw [← toList_normalize, htrim]
  have hfirst : prefixesFrom ['/'] component = [id.toList] := by
    rw [ObjectId.prefixesFrom_of_not_mem hs, List.singleton_append, ← hid]
  rcases normalizeChars_of_isAncestor (k := 0) (by rw [hself]; exact (List.append_nil _).symm)
      (hself.symm ▸ hlast) hc ha with hn | ⟨u, hu⟩
  · rw [hself, hid, ← toList_normalize] at hn
    refine ⟨hlong (s := []) (by rw [hn, List.append_nil]), [], ?_⟩
    rw [resolve_of_toList hn, hfirst, List.map_singleton, String.ofList_toList]
  · rw [hself, hid, ← toList_normalize, List.cons_append] at hu
    refine ⟨hlong hu, (prefixesFrom (['/'] ++ component ++ ['/']) u).map String.ofList, ?_⟩
    rw [resolve_of_toList hu, ObjectId.prefixesFrom_append_slash, hfirst, List.singleton_append,
      List.map_cons, String.ofList_toList]

end Container

namespace Catalog

open Container (answerAt_eq_none_iff answerAt_eq_served_iff answerAt_of_some walk_cons_of_none
  walk_of_answerAt)
open ObjectId (IsChild isAncestor normalize)

variable {c : Catalog} {id step : String} {x : Container}

/-! ## Children of the root -/

theorem child?_congr {a b : Container} (h : a.children.filter (·.id = step) =
    b.children.filter (·.id = step)) : a.child? step = b.child? step := by
  rw [Container.child?, ← List.head?_filter, h, List.head?_filter, Container.child?]

/-- A container that is put in is met by its own id only. -/
theorem child?_insertChild_of_ne (c : Catalog) (h : step ≠ x.id) :
    (c.insertChild x).1.root.child? step = c.root.child? step :=
  child?_congr (filter_insertIdx_of_false (decide_eq_false (Ne.symm h))
    (insertPosition_le x c.children))

theorem child?_delete_of_ne (c : Catalog) (h : step ≠ id) :
    (c.delete id).1.root.child? step = c.root.child? step := by
  rcases delete_cases c id with ⟨-, hd⟩ | ⟨position, node, -, hnode, hid, hd⟩
  · rw [hd]
  · rw [hd]
    refine child?_congr ?_
    obtain ⟨hlt, rfl⟩ := List.getElem?_eq_some_iff.1 hnode
    -- To take the container out undoes putting it in.
    have hput := List.insertIdx_eraseIdx_getElem hlt
    have hfilter := filter_insertIdx_of_false (p := fun d : Container => d.id = step)
      (a := c.children[position]) (l := c.children.eraseIdx position) (i := position)
      (decide_eq_false (hid ▸ Ne.symm h)) (by rw [List.length_eraseIdx_of_lt hlt]; omega)
    rw [hput] at hfilter
    exact hfilter.symm

theorem child?_add_of_ne (c : Catalog) (h : step ≠ x.id) :
    (c.add x).1.root.child? step = c.root.child? step := by
  rw [add_eq_insertChild, child?_insertChild_of_ne _ h, child?_delete_of_ne c h]

/-! ## Who answers -/

/-- A root that has the same children for all steps but one answers alike for all ids that are not
at or below that. -/
theorem resolve_eq_of_child?_ne {c' : Catalog} (hc : c.Rooted) (hc' : c'.Rooted)
    (h : ∀ step, step ≠ x.id → c'.root.child? step = c.root.child? step)
    (hid : normalize id ≠ "/") (hx : isAncestor x.id id = false) :
    c'.resolve id = c.resolve id := by
  refine Container.resolve_eq_of_child? hid ⟨hc.id_root, hc.backend_root⟩
    ⟨hc'.id_root, hc'.backend_root⟩ fun p hp => h _ ?_
  intro he
  rw [← he, ObjectId.isAncestor_of_isPathPrefix hp] at hx
  cases hx

/-- A child of the root is resolved to itself, for the backend that it belongs to or for the
catalog. -/
theorem resolve_of_child? (hc : c.Rooted) (hid : IsChild "/" x.id)
    (hchild : c.root.child? x.id = some x) :
    c.resolve x.id = match x.backend with
      | some backend => .delegated backend x true
      | none => .served x := by
  have hnone : Container.answerAt x.id c.root = none :=
    answerAt_eq_none_iff.2 ⟨hc.backend_root, fun he => hid.ne (hc.id_root.symm.trans he)⟩
  obtain ⟨-, steps, hsteps⟩ :=
    Container.resolve_eq_walk_of_isAncestor c.root hid (ObjectId.isAncestor_self x.id)
  rw [ObjectId.normalize_of_isChild hid, walk_cons_of_none hnone, hchild] at hsteps
  rw [resolve, hsteps]
  cases hb : x.backend with
  | some backend =>
    dsimp only
    rw [walk_of_answerAt (answerAt_of_some hb), decide_eq_true rfl]
  | none => exact walk_of_answerAt (answerAt_eq_served_iff.2 ⟨rfl, hb, rfl⟩) steps

/-- Nobody answers at or below an id that no child of the root has. -/
theorem resolve_of_not_mem {id' : String} (hc : c.Rooted) (hid : IsChild "/" id)
    (hnone : id ∉ c.ids) (ha : isAncestor id id' = true) : c.resolve id' = .missing := by
  obtain ⟨hslash, steps, hsteps⟩ :=
    Container.resolve_eq_walk_of_isAncestor c.root hid ha
  rw [resolve, hsteps]
  have hchild : c.root.child? id = none := List.find?_eq_none.2 fun node hnode hn =>
    hnone (List.mem_map.2 ⟨node, hnode, of_decide_eq_true hn⟩)
  have hroot : c.root.id ≠ normalize id' := fun he => hslash (he.symm.trans hc.id_root)
  rw [walk_cons_of_none (answerAt_eq_none_iff.2 ⟨hc.backend_root, hroot⟩), hchild]

/-- For every catalog and every container: to add it, or to delete the one with its id, changes
nothing for the ids that are neither the root's nor at or below its own. With distinct ids in the
root, and an id that is one component behind a slash, the container answers for its id once it has
been added, and nobody does for that id and all below it once it has been deleted. -/
theorem resolve_add_delete (hc : c.Rooted) (k : Container) :
    (∀ id, normalize id ≠ "/" → isAncestor k.id id = false →
      (c.add k).1.resolve id = c.resolve id ∧ (c.delete k.id).1.resolve id = c.resolve id) ∧
    (c.ids.Nodup → IsChild "/" k.id →
      ((c.add k).1.resolve k.id = match k.backend with
        | some backend => .delegated backend k true
        | none => .served k) ∧
      (c.delete k.id).1.resolve k.id = .missing ∧
      ∀ id, isAncestor k.id id = true → (c.delete k.id).1.resolve id = .missing) := by
  refine ⟨fun id hid hk => ⟨?_, ?_⟩, fun hids hk => ⟨?_, ?_⟩⟩
  · exact resolve_eq_of_child?_ne hc (hc.add k) (fun _ h => child?_add_of_ne c h) hid hk
  · exact resolve_eq_of_child?_ne hc (hc.delete k.id) (fun _ h => child?_delete_of_ne c h) hid hk
  · exact resolve_of_child? (hc.add k) hk
      (Container.child?_of_nodup (nodup_add hids k) (getElem?_add c k))
  · have hgone := (nodup_delete hids k.id).2
    have hmissing (id : String) (h : isAncestor k.id id = true) :=
      resolve_of_not_mem (hc.delete k.id) hk hgone h
    exact ⟨hmissing k.id (ObjectId.isAncestor_self k.id), hmissing⟩

/-- A container that has a backend takes the place of one that has none, beside a container whose
id begins with its own and is not below it. -/
theorem resolve_add_delete_beside :
    ∃ c : Catalog, c.ids = ["/a", "/ab"] ∧
      (∃ node, c.resolve "/ab//x" = .delegated "shelf" node false ∧
        (c.add { Container.new "/a" "Z" .podcast with backend := some "deck" }).1.resolve "/ab//x" =
          .delegated "shelf" node false ∧
        (c.delete "/a").1.resolve "/ab//x" = .delegated "shelf" node false) ∧
      (c.add { Container.new "/a" "Z" .podcast with backend := some "deck" }).1.resolve "/a" =
        .delegated "deck" { Container.new "/a" "Z" .podcast with backend := some "deck" } true ∧
      (c.delete "/a").1.resolve "/a/b" = .missing := by
  obtain ⟨c, hc, hids, node, hnode⟩ : ∃ c, empty.performAll [.add (.new "/a" "A" .directory),
      .add { Container.new "/ab" "B" .directory with backend := some "shelf" }] = .ok c ∧
      c.ids = ["/a", "/ab"] ∧ ∃ node, c.resolve "/ab//x" = .delegated "shelf" node false :=
    ⟨_, rfl, rfl, _, rfl⟩
  obtain ⟨hframe, hself⟩ := resolve_add_delete (rooted_empty.performAll hc)
    { Container.new "/a" "Z" .podcast with backend := some "deck" }
  obtain ⟨hadd, -, hdelete⟩ := hself (by rw [hids]; decide) ⟨['a'], by decide, by decide, by decide⟩
  obtain ⟨hx, hx'⟩ := hframe "/ab//x" (by decide +kernel) (by decide +kernel)
  exact ⟨c, hids, ⟨node, hnode, hx.trans hnode, hx'.trans hnode⟩, hadd, hdelete "/a/b" (by decide)⟩

end Catalog

end Mediatheque
