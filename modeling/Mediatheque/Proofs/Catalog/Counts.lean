import Mediatheque.Proofs.Catalog.Editing

/-!
# The numbers of children below the root

The numbers that a node caches of its children go by the kinds of those: whether they are
containers or items. A child that takes the place of another leaves the numbers right exactly if
it is of the same kind (`countsAgree_replaceChild_iff`), so that with one node of a tree replaced
there is one node whose numbers are at stake, the parent (`counted_children_iff_of_replaces`).

Changed fields may make a node one of the other kind, and the numbers that are recomputed then are
those of the root. So a tree all of whose numbers are right stays one (`Container.Counted`) unless
the node stands deeper than the listing of the root (`counted_merge_iff`).
-/

namespace Mediatheque

open Catalog (CountsAgree applyFields redressed_applyFields)
open ObjectId (normalize)

namespace Container

/-- The numbers of children are right at every node of a tree. -/
inductive Counted : Container → Prop where
  | mk {c : Container} (counts : CountsAgree c) (hchildren : ∀ d ∈ c.children, d.Counted) :
    c.Counted

theorem counted_iff {c : Container} :
    c.Counted ↔ CountsAgree c ∧ ∀ d ∈ c.children, d.Counted :=
  ⟨fun ⟨counts, hchildren⟩ => ⟨counts, hchildren⟩, fun ⟨counts, hchildren⟩ => ⟨counts, hchildren⟩⟩

/-- Whether a node counts among the containers or among the items. -/
def kind (c : Container) : Bool := c.mediaClass.isContainer

variable {fields : Dictionary Json} {node child child' tree tree' : Container}
  {passed before after : List Container}

theorem ofNat_succ_ne (n : Nat) : UInt64.ofNat (n + 1) ≠ UInt64.ofNat n := by
  intro h
  have hn := congrArg UInt64.toNat h
  rw [UInt64.toNat_ofNat', UInt64.toNat_ofNat'] at hn
  omega

/-- A child in place of another leaves the numbers right if it is of the same kind, and only
then. -/
theorem countsAgree_replaceChild_iff (hchildren : tree.children = before ++ child :: after)
    (hc : CountsAgree tree) :
    CountsAgree { tree with children := before ++ child' :: after } ↔ child'.kind = child.kind := by
  constructor
  · intro h
    have hcontainers := h.numContainerChildren.symm.trans hc.numContainerChildren
    rw [hchildren] at hcontainers
    simp only [List.countP_append, List.countP_cons] at hcontainers
    rw [kind, kind]
    cases hk : child.mediaClass.isContainer <;> cases hk' : child'.mediaClass.isContainer
    · rfl
    · rw [hk, hk'] at hcontainers
      exact absurd hcontainers (ofNat_succ_ne _)
    · rw [hk, hk'] at hcontainers
      exact absurd hcontainers.symm (ofNat_succ_ne _)
    · rfl
  · intro h
    have hkind : child'.mediaClass.isContainer = child.mediaClass.isContainer := h
    refine ⟨?_, ?_, ?_⟩
    · rw [hc.numChildren, hchildren, List.length_append, List.length_append, List.length_cons,
        List.length_cons]
    · rw [hc.numContainerChildren, hchildren, List.countP_append, List.countP_append,
        List.countP_cons, List.countP_cons, hkind]
    · rw [hc.numItemChildren, hchildren, List.countP_append, List.countP_append,
        List.countP_cons, List.countP_cons, hkind]

theorem countsAgree_applyFields (hc : CountsAgree node) :
    CountsAgree (applyFields node fields) := by
  obtain ⟨_, _, _, h⟩ := redressed_applyFields node fields
  rw [h]
  exact ⟨hc.numChildren, hc.numContainerChildren, hc.numItemChildren⟩

/-- With one node redressed, the numbers of the top of the tree are right unless it is a child of
the top that changed its kind. -/
theorem countsAgree_iff_of_replaces (h : Replaces (applyFields · fields) passed node tree tree')
    (hc : CountsAgree tree) :
    CountsAgree tree' ↔ passed.length = 1 → (applyFields node fields).kind = node.kind := by
  cases h with
  | here =>
    exact iff_of_true (countsAgree_applyFields hc) fun hlength => Nat.noConfusion hlength
  | inChild hchildren hfirst rest =>
    rw [countsAgree_replaceChild_iff hchildren hc]
    cases rest with
    | here => simp
    | inChild hgrand _ _ => simp [kind]

/-- All numbers below the top are right unless it is a node further down that changed its kind. -/
theorem counted_children_iff_of_replaces
    (h : Replaces (applyFields · fields) passed node tree tree') (hc : tree.Counted) :
    (∀ d ∈ tree'.children, d.Counted) ↔
      2 ≤ passed.length → (applyFields node fields).kind = node.kind := by
  induction h with
  | here node =>
    obtain ⟨_, _, _, h⟩ := redressed_applyFields node fields
    rw [h]
    exact iff_of_true (counted_iff.1 hc).2 fun hlength => absurd hlength (by decide)
  | @inChild tree child child' node passed before after hchildren hfirst rest ih =>
    have hall := (counted_iff.1 hc).2
    rw [hchildren] at hall
    have hchild := hall child (by simp)
    have hothers : (∀ d ∈ before ++ child' :: after, d.Counted) ↔ child'.Counted := by
      refine ⟨fun h => h child' (by simp), fun h d hd => ?_⟩
      rcases List.mem_append.1 hd with hbefore | hcons
      · exact hall d (List.mem_append_left _ hbefore)
      · rcases List.mem_cons.1 hcons with rfl | hafter
        · exact h
        · exact hall d (by simp [hafter])
    rw [hothers, counted_iff, countsAgree_iff_of_replaces rest (counted_iff.1 hchild).1, ih hchild,
      List.length_cons]
    constructor
    · rintro ⟨hone, hmore⟩ hlength
      rcases Nat.lt_or_ge passed.length 2 with hshort | hlong
      · exact hone (by omega)
      · exact hmore hlong
    · intro h
      exact ⟨fun hone => h (by omega), fun hmore => h (by omega)⟩

end Container

namespace Catalog

open Container (Counted Replaces counted_iff)

variable {c c' : Catalog} {id : String} {fields : Dictionary Json}

/-- The numbers of the root's children are right after fields have been changed. -/
theorem countsAgree_merge {m : Merge} (hc : CountsAgree c.root)
    (h : c.merge id fields = .ok (c', m)) : CountsAgree c'.root := by
  rcases merge_cases h with
    ⟨rfl, -⟩ | ⟨root, hinto, ⟨hheadings, rfl, -⟩ | ⟨source, node, -, -, -, rfl, -⟩⟩
  · exact hc
  · exact hc.congr hheadings hinto.numChildren_eq hinto.numContainerChildren_eq
      hinto.numItemChildren_eq
  · exact countsAgree_updateChildCounts _

/-- Changed fields reach a node that is not in the listing of the root but below it, and make an
item of a container or a container of an item. -/
def Misfiles (c : Catalog) (id : String) (fields : Dictionary Json) : Prop :=
  ∃ way node, wayTo (normalize id).toList = .ok way ∧ c.root.follow? way = some node ∧
    2 ≤ way.length ∧ (applyFields node fields).kind ≠ node.kind

/-- For every catalog whose numbers of children are right at all nodes, every id with a slash in
front and all fields: the numbers of the root stay right, and those of all nodes do exactly if the
fields do not change the kind of a node below the listing of the root. -/
theorem counted_merge_iff (hc : c.root.Counted) (hid : id.toList.head? = some '/')
    (fields : Dictionary Json) :
    ∃ c' m, c.merge id fields = .ok (c', m) ∧ CountsAgree c'.root ∧
      (c'.root.Counted ↔ ¬ c.Misfiles id fields) := by
  have hway := wayTo_of_head? (ObjectId.head?_normalize hid)
  generalize (if (normalize id).toList = ['/'] then []
    else ObjectId.prefixes (normalize id).toList) = way at hway
  cases hfollow : c.root.follow? way with
  | none =>
    refine ⟨c, .missing, merge_of_follow?_eq_none fields hway hfollow, (counted_iff.1 hc).1,
      iff_of_true hc ?_⟩
    rintro ⟨way', node, hway', hnode, -, -⟩
    obtain rfl : way = way' := Except.ok.inj (hway.symm.trans hway')
    rw [hfollow] at hnode
    cases hnode
  | some node =>
    obtain ⟨c', m, hmerge, -, hplace⟩ := merge_of_follow? hway hfollow
    obtain ⟨passed, hlength, hreplaces⟩ :=
      Container.replaces_of_follow? hfollow (applyFields · fields)
    have hcounts := countsAgree_merge (counted_iff.1 hc).1 hmerge
    have hlisted : c'.root.children.Perm
        (c.root.modifyAlong (applyFields · fields) way).children := by
      rcases hplace with rfl | ⟨-, hplace⟩
      · exact .refl _
      · exact hplace.perm
    have hbelow := Container.counted_children_iff_of_replaces hreplaces hc
    rw [hlength] at hbelow
    refine ⟨c', m, hmerge, hcounts, ?_⟩
    rw [counted_iff, and_iff_right hcounts]
    constructor
    · rintro hall ⟨way', node', hway', hnode', hdeep, hkind⟩
      obtain rfl : way = way' := Except.ok.inj (hway.symm.trans hway')
      obtain rfl : node = node' := Option.some.inj (hfollow.symm.trans hnode')
      exact hkind (hbelow.1 (fun d hd => hall d (hlisted.mem_iff.2 hd)) hdeep)
    · intro h d hd
      refine hbelow.2 (fun hdeep => ?_) d (hlisted.mem_iff.1 hd)
      by_contra hkind
      exact h ⟨way, node, hway, hfollow, hdeep, hkind⟩

/-- A listing with a song below its one container. -/
def songs : Catalog :=
  ⟨{ Container.root with
    children := [{ Container.new "/songs" "Songs" .rootSongs with
      children := [.new "/songs/1" "One" .song]
      numChildren := 1
      numItemChildren := 1 }]
    numChildren := 1
    numContainerChildren := 1 }⟩

theorem counted_songs : songs.root.Counted := by
  refine ⟨⟨rfl, rfl, rfl⟩, fun d hd => ?_⟩
  obtain rfl := List.mem_singleton.1 hd
  refine ⟨⟨rfl, rfl, rfl⟩, fun d hd => ?_⟩
  obtain rfl := List.mem_singleton.1 hd
  exact ⟨⟨rfl, rfl, rfl⟩, fun d hd => absurd hd List.not_mem_nil⟩

/-- The song becomes a movie, which is an item as well. -/
theorem counted_merge_movie :
    ∃ c' m, songs.merge "/songs/1/" (Dictionary.empty.insert "class" (.str "movie")) =
      .ok (c', m) ∧ CountsAgree c'.root ∧ c'.root.Counted := by
  have hid : "/songs/1/".toList.head? = some '/' := by decide
  obtain ⟨c', m, hmerge, hcounts, hcounted⟩ :=
    counted_merge_iff counted_songs hid (Dictionary.empty.insert "class" (.str "movie"))
  refine ⟨c', m, hmerge, hcounts, hcounted.2 ?_⟩
  rintro ⟨way, node, hway, hnode, -, hkind⟩
  obtain rfl : ["/songs", "/songs/1"] = way := Except.ok.inj hway
  obtain rfl : Container.new "/songs/1" "One" .song = node := Option.some.inj hnode
  exact hkind rfl

/-- The song becomes an album, and its parent still counts an item. -/
theorem not_counted_merge :
    ¬ ∀ (c : Catalog) (id : String) (fields : Dictionary Json), c.root.Counted →
      id.toList.head? = some '/' →
      ∃ c' m, c.merge id fields = .ok (c', m) ∧ c'.root.Counted := by
  intro h
  obtain ⟨c', m, hmerge, hcounted⟩ := h songs "/songs/1"
    (Dictionary.empty.insert "class" (.str "music-album")) counted_songs (by decide)
  obtain ⟨parent, hlisted, hitems⟩ : ∃ parent, c'.root.children = [parent] ∧
      ¬ CountsAgree parent := by
    cases hmerge
    refine ⟨_, rfl, fun hagree => ?_⟩
    have hitems := hagree.numItemChildren
    revert hitems
    decide
  exact hitems (counted_iff.1 ((counted_iff.1 hcounted).2 parent (by simp [hlisted]))).1

end Catalog

end Mediatheque
