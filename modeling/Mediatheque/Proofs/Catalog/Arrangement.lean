import Mathlib.Data.List.Dedup
import Mediatheque.Proofs.Catalog.Distinct
import Mediatheque.Proofs.Media.Lossless

/-!
# Catalogs that are the same in the end

The children of the root stand by rank and label. Two listings in order of the same containers are
one listing, if no two containers have both in common (`Arranged.eq_of_perm`), and a catalog that
has been made by calls for top-level containers is given by its listing (`Arranged`).

So it makes no difference in which order containers are added that have distinct ids
(`perm_children_addAll`), nor in which order and how often containers are asked for by their
classes: a class that is there already is found again (`perm_children_ensureAll`), and two classes
differ in the rank or in the label of their containers (`sortKey_ofRootClass_injective`), unless one
of them is kept by a name of the table. The two are put together in `addAll_ensureAll_eq`.
-/

namespace Mediatheque

/-! ## Ranks and labels -/

/-- What the place of a top-level container goes by. -/
def Container.sortKey (c : Container) : Nat × String := (c.mediaClass.sortRank, c.label)

/-- Two containers that may stand in either order have the same rank and label. -/
theorem sortKey_eq_of_inOrder {a b : Container} (hab : InOrder a b) (hba : InOrder b a) :
    a.sortKey = b.sortKey := by
  rw [inOrder_iff, ← Bool.not_eq_true, rootOrder_iff, not_or, not_and] at hab hba
  have hrank : a.mediaClass.sortRank = b.mediaClass.sortRank := by omega
  exact Prod.ext hrank (String.le_antisymm (hab.2 hrank.symm) (hba.2 hrank))

namespace RootFolder

theorem nodup_ranks : (table.map (·.rank)).Nodup := by decide

theorem of_ofClass?_eq_some {k : MediaClass} {f : RootFolder} (h : ofClass? k = some f) :
    f ∈ table ∧ f.mediaClass = k :=
  ⟨List.mem_of_find?_eq_some h, of_decide_eq_true (List.find?_some (p := fun f : RootFolder =>
    f.mediaClass = k) h)⟩

end RootFolder

/-- A root folder is known by its rank. -/
theorem MediaClass.eq_of_rootRank? {k k' : MediaClass} {r : Nat} (h : k.rootRank? = some r)
    (h' : k'.rootRank? = some r) : k = k' := by
  obtain ⟨f, hf, rfl⟩ := Option.map_eq_some_iff.1 h
  obtain ⟨f', hf', hrank⟩ := Option.map_eq_some_iff.1 h'
  obtain ⟨hmem, rfl⟩ := RootFolder.of_ofClass?_eq_some hf
  obtain ⟨hmem', rfl⟩ := RootFolder.of_ofClass?_eq_some hf'
  rw [List.inj_on_of_nodup_map RootFolder.nodup_ranks hmem hmem' hrank.symm]

theorem label_ofRootClass_of_none {k : MediaClass} (h : k.rootRank? = none) :
    (Container.ofRootClass k).label = k.name := by
  rw [Container.ofRootClass, Option.map_eq_none_iff.1 h]
  rfl

/-- The containers of two classes differ in their rank or label. -/
theorem sortKey_ofRootClass_injective {k k' : MediaClass} (hk : k.Reduced) (hk' : k'.Reduced)
    (h : (Container.ofRootClass k).sortKey = (Container.ofRootClass k').sortKey) : k = k' := by
  obtain ⟨hrank, hlabel⟩ := Prod.ext_iff.1 h
  simp only [Container.sortKey, Catalog.mediaClass_ofRootClass] at hrank hlabel
  cases hr : k.rootRank? with
  | some r =>
    cases hr' : k'.rootRank? with
    | some r' =>
      rw [sortRank_of_some hr, sortRank_of_some hr'] at hrank
      exact MediaClass.eq_of_rootRank? hr (hrank ▸ hr')
    | none =>
      rw [sortRank_of_some hr, sortRank_of_none hr'] at hrank
      exact absurd (rootRank?_lt hr) (hrank ▸ Nat.lt_irrefl _)
  | none =>
    cases hr' : k'.rootRank? with
    | some r' =>
      rw [sortRank_of_none hr, sortRank_of_some hr'] at hrank
      exact absurd (rootRank?_lt hr') (hrank ▸ Nat.lt_irrefl _)
    | none =>
      rw [label_ofRootClass_of_none hr, label_ofRootClass_of_none hr'] at hlabel
      rw [← MediaClass.ofName_name hk, hlabel, MediaClass.ofName_name hk']

namespace Catalog

variable {c c' : Catalog} {x : Container} {k : MediaClass}

/-! ## Catalogs made of their listing -/

/-- Nothing has happened to the root but that it has got children, and these are in order. -/
structure Arranged (c : Catalog) : Prop where
  made : c = empty.withChildren c.children
  inOrder : c.children.Pairwise InOrder

theorem arranged_empty : empty.Arranged := ⟨rfl, List.Pairwise.nil⟩

theorem Arranged.settled (h : c.Arranged) : Settled c :=
  h.made ▸ settled_withChildren empty h.inOrder

theorem Arranged.withChildren (h : c.Arranged) {l : List Container} (hl : l.Pairwise InOrder) :
    (c.withChildren l).Arranged := by
  refine ⟨?_, hl⟩
  rw [h.made]
  rfl

theorem Arranged.insertChild (h : c.Arranged) (x : Container) : (c.insertChild x).1.Arranged :=
  h.withChildren (inOrder_insertIdx x h.inOrder)

theorem Arranged.delete (h : c.Arranged) (id : String) : (c.delete id).1.Arranged := by
  rcases delete_cases c id with ⟨-, hd⟩ | ⟨position, node, -, -, -, hd⟩
  · rw [hd]
    exact h
  · rw [hd]
    exact h.withChildren (h.inOrder.eraseIdx position)

theorem Arranged.add (h : c.Arranged) (x : Container) : (c.add x).1.Arranged := by
  rw [add_eq_insertChild]
  exact (h.delete x.id).insertChild x

/-- Two of them with the same children are the same, if no two children share rank and label. -/
theorem Arranged.eq_of_perm (h : c.Arranged) (h' : c'.Arranged)
    (hp : c'.children.Perm c.children) (hkeys : (c.children.map (·.sortKey)).Nodup) : c' = c := by
  have hchildren : c'.children = c.children :=
    List.Perm.eq_of_pairwise (fun a b ha hb hab hba => List.inj_on_of_nodup_map hkeys
      (hp.subset ha) hb (sortKey_eq_of_inOrder hab hba)) h'.inOrder h.inOrder hp
  rw [h'.made, hchildren, ← h.made]

theorem perm_children_insertChild (c : Catalog) (x : Container) :
    (c.insertChild x).1.children.Perm (x :: c.children) :=
  List.perm_insertIdx x c.children (insertPosition_le x c.children)

/-! ## Containers that are added -/

/-- Adds top-level containers one after the other. -/
def addAll (c : Catalog) (l : List Container) : Catalog := l.foldl (fun c x => (c.add x).1) c

theorem Arranged.addAll (h : c.Arranged) (l : List Container) : (c.addAll l).Arranged := by
  induction l generalizing c with
  | nil => exact h
  | cons x l ih => exact ih (h.add x)

/-- A container with an id of its own comes beside the others. -/
theorem perm_children_add (h : x.id ∉ c.ids) : (c.add x).1.children.Perm (x :: c.children) := by
  have hd : (c.delete x.id).1 = c := by
    rcases delete_cases c x.id with ⟨-, hd⟩ | ⟨position, node, -, hnode, hid, -⟩
    · rw [hd]
    · exact absurd (List.mem_map.2 ⟨node, List.mem_of_getElem? hnode, hid⟩) h
  rw [add_eq_insertChild, hd]
  exact perm_children_insertChild c x

/-- Containers with distinct ids come beside those that there were and beside each other. -/
theorem perm_children_addAll {l : List Container} (h : (l.map (·.id)).Nodup)
    (hc : ∀ x ∈ l, x.id ∉ c.ids) : (c.addAll l).children.Perm (l ++ c.children) := by
  induction l generalizing c with
  | nil => exact List.Perm.refl _
  | cons x l ih =>
    obtain ⟨hx, hl⟩ := List.nodup_cons.1 h
    obtain ⟨hxc, hc⟩ := List.forall_mem_cons.1 hc
    have hadd := perm_children_add hxc
    have hfresh (y : Container) (hy : y ∈ l) : y.id ∉ (c.add x).1.ids := by
      rw [ids, (hadd.map (·.id)).mem_iff, List.map_cons, List.mem_cons, not_or]
      exact ⟨fun he => hx (List.mem_map.2 ⟨y, hy, he⟩), hc y hy⟩
    calc ((c.add x).1.addAll l).children
      _ |>.Perm (l ++ (c.add x).1.children) := ih hl hfresh
      _ |>.Perm (l ++ x :: c.children) := hadd.append_left l
      _ |>.Perm (x :: l ++ c.children) := List.perm_middle

/-! ## Containers that are asked for -/

/-- Asks for the top-level containers of classes, one after the other. -/
def ensureAll (c : Catalog) (l : List MediaClass) : Catalog :=
  l.foldl (fun c k => (c.ensure k).1) c

/-- Who asks for a class finds its container or gets a new one. -/
theorem ensure_cases (c : Catalog) (k : MediaClass) :
    (k ∈ c.children.map (·.mediaClass) ∧ (c.ensure k).1 = c) ∨
      (k ∉ c.children.map (·.mediaClass) ∧
        (c.ensure k).1 = (c.insertChild (.ofRootClass k)).1) := by
  cases hf : c.children.findIdx? (·.mediaClass = k) with
  | some position =>
    obtain ⟨hlt, hk, -⟩ := List.findIdx?_eq_some_iff_getElem.1 hf
    refine .inl ⟨List.mem_map.2 ⟨_, List.getElem_mem hlt, of_decide_eq_true hk⟩, ?_⟩
    rw [ensure, hf]
  | none =>
    refine .inr ⟨fun hm => ?_, by rw [ensure, hf]⟩
    obtain ⟨node, hnode, hk⟩ := List.mem_map.1 hm
    have hne := List.findIdx?_eq_none_iff.1 hf node hnode
    rw [decide_eq_true hk] at hne
    cases hne

theorem Arranged.ensure (h : c.Arranged) (k : MediaClass) : (c.ensure k).1.Arranged := by
  rcases ensure_cases c k with ⟨-, he⟩ | ⟨-, he⟩
  · rw [he]
    exact h
  · rw [he]
    exact h.insertChild _

theorem Arranged.ensureAll (h : c.Arranged) (l : List MediaClass) : (c.ensureAll l).Arranged := by
  induction l generalizing c with
  | nil => exact h
  | cons k l ih => exact ih (h.ensure k)

theorem map_mediaClass_ofRootClass (ks : List MediaClass) :
    (ks.map Container.ofRootClass).map (·.mediaClass) = ks := by
  rw [List.map_map]
  exact List.map_id'' mediaClass_ofRootClass ks

/-- Where every child is the container of its class, and no class has two, it stays so when others
are asked for, and those are there then. -/
theorem perm_children_ensureAll {ks : List MediaClass} (l : List MediaClass) (hks : ks.Nodup)
    (hc : c.children.Perm (ks.map .ofRootClass)) :
    ∃ ks' : List MediaClass, ks'.Nodup ∧ (∀ k, k ∈ ks' ↔ k ∈ l ∨ k ∈ ks) ∧
      (c.ensureAll l).children.Perm (ks'.map .ofRootClass) := by
  induction l generalizing c ks with
  | nil => exact ⟨ks, hks, fun k => by simp, hc⟩
  | cons k l ih =>
    have hmem : k ∈ c.children.map (·.mediaClass) ↔ k ∈ ks := by
      rw [(hc.map (·.mediaClass)).mem_iff, map_mediaClass_ofRootClass]
    rcases ensure_cases c k with ⟨hk, he⟩ | ⟨hk, he⟩
    · obtain ⟨ks', hks', hall, hp⟩ := ih hks (he.symm ▸ hc)
      refine ⟨ks', hks', fun k' => ?_, hp⟩
      rw [hall, List.mem_cons]
      refine ⟨fun h => h.imp_left .inr, ?_⟩
      rintro ((rfl | h) | h)
      · exact .inr (hmem.1 hk)
      · exact .inl h
      · exact .inr h
    · have hnew : (c.ensure k).1.children.Perm ((k :: ks).map .ofRootClass) :=
        he ▸ (perm_children_insertChild c _).trans (hc.cons _)
      obtain ⟨ks', hks', hall, hp⟩ := ih (List.nodup_cons.2 ⟨mt hmem.2 hk, hks⟩) hnew
      refine ⟨ks', hks', fun k' => ?_, hp⟩
      rw [hall, List.mem_cons, List.mem_cons, or_left_comm, or_assoc]

/-- From the root alone, there is one container for every class that has been asked for. -/
theorem perm_children_ensureAll_empty (l : List MediaClass) :
    (empty.ensureAll l).children.Perm (l.dedup.map .ofRootClass) := by
  obtain ⟨ks, hks, hall, hp⟩ :=
    perm_children_ensureAll l List.nodup_nil (List.Perm.refl empty.children)
  refine hp.trans (List.Perm.map _ ?_)
  refine (List.perm_ext_iff_of_nodup hks l.nodup_dedup).2 fun k => ?_
  rw [hall, List.mem_dedup, or_iff_left List.not_mem_nil]

theorem nodup_sortKeys_ofRootClass {ks : List MediaClass} (hks : ks.Nodup)
    (hreduced : ∀ k ∈ ks, k.Reduced) : ((ks.map Container.ofRootClass).map (·.sortKey)).Nodup := by
  rw [List.map_map]
  exact hks.map_on fun k hk k' hk' h =>
    sortKey_ofRootClass_injective (hreduced k hk) (hreduced k' hk') h

/-! ## Any order -/

/-- The catalog that calls lead to from the root alone does not depend on their order. Containers
with distinct ids, of which no two share rank and label, are the children whatever the order is in
which they are added. Of classes that are asked for, in any order and as often as one likes, every
one has one container, provided that none is kept by a name of the table. -/
theorem addAll_ensureAll_eq :
    (∀ l l' : List Container, (l.map (·.id)).Nodup → (l.map (·.sortKey)).Nodup → l'.Perm l →
      empty.addAll l' = empty.addAll l ∧ (empty.addAll l).children.Perm l ∧
        Settled (empty.addAll l)) ∧
    (∀ l l' : List MediaClass, (∀ k ∈ l, k.Reduced) → (∀ k, k ∈ l' ↔ k ∈ l) →
      empty.ensureAll l' = empty.ensureAll l ∧
        (empty.ensureAll l).children.Perm (l.dedup.map .ofRootClass) ∧
        ((empty.ensureAll l).children.map (·.mediaClass)).Perm l.dedup ∧
        Settled (empty.ensureAll l)) := by
  constructor
  · intro l l' hids hkeys hp
    have hnone (x : Container) : x.id ∉ empty.ids := List.not_mem_nil
    have hl := perm_children_addAll (c := empty) hids fun x _ => hnone x
    have hl' := perm_children_addAll (c := empty) ((hp.map (·.id)).nodup_iff.2 hids)
      fun x _ => hnone x
    rw [show empty.children = [] from rfl, List.append_nil] at hl hl'
    have harranged := arranged_empty.addAll l
    refine ⟨?_, hl, harranged.settled⟩
    exact harranged.eq_of_perm (arranged_empty.addAll l') (hl'.trans (hp.trans hl.symm))
      ((hl.map (·.sortKey)).nodup_iff.2 hkeys)
  · intro l l' hreduced hmem
    have hl := perm_children_ensureAll_empty l
    have hl' := perm_children_ensureAll_empty l'
    have hdedup : l'.dedup.Perm l.dedup := (List.perm_ext_iff_of_nodup l'.nodup_dedup
      l.nodup_dedup).2 fun k => by rw [List.mem_dedup, List.mem_dedup, hmem]
    have hkeys := nodup_sortKeys_ofRootClass l.nodup_dedup fun k hk =>
      hreduced k (List.mem_dedup.1 hk)
    have harranged := arranged_empty.ensureAll l
    refine ⟨?_, hl, ?_, harranged.settled⟩
    · exact harranged.eq_of_perm (arranged_empty.ensureAll l')
        (hl'.trans ((hdedup.map _).trans hl.symm)) ((hl.map (·.sortKey)).nodup_iff.2 hkeys)
    · exact (hl.map (·.mediaClass)).trans (.of_eq (map_mediaClass_ofRootClass l.dedup))

/-- Two directories and the folder of songs, and three classes of which one is asked for twice. -/
theorem addAll_ensureAll_eq_reverse :
    empty.addAll [.new "/songs" "Songs" .rootSongs, .new "/b" "B" .directory,
        .new "/a" "A" .directory] =
      empty.addAll [.new "/a" "A" .directory, .new "/b" "B" .directory,
        .new "/songs" "Songs" .rootSongs] ∧
    (empty.addAll [.new "/a" "A" .directory, .new "/b" "B" .directory,
        .new "/songs" "Songs" .rootSongs]).ids = ["/songs", "/a", "/b"] ∧
    empty.ensureAll [.other "tapes", .rootSongs, .rootLibrary] =
      empty.ensureAll [.rootLibrary, .rootSongs, .other "tapes", .rootSongs] ∧
    (empty.ensureAll [.rootLibrary, .rootSongs, .other "tapes", .rootSongs]).ids =
      ["/library", "/songs", "/tapes"] := by
  obtain ⟨hadd, hensure⟩ := addAll_ensureAll_eq
  have hids := hadd [.new "/a" "A" .directory, .new "/b" "B" .directory,
    .new "/songs" "Songs" .rootSongs] _ (by decide) (by decide) (List.reverse_perm _)
  have hclasses := hensure [.rootLibrary, .rootSongs, .other "tapes", .rootSongs]
    [.other "tapes", .rootSongs, .rootLibrary]
    (by simp [MediaClass.Reduced, MediaClass.known, MediaClass.name])
    (fun k => by simp only [List.mem_cons, List.not_mem_nil, or_false]; tauto)
  exact ⟨hids.1, by decide +kernel, hclasses.1, by decide +kernel⟩

end Catalog

end Mediatheque
