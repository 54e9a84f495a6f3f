import Mediatheque.Proofs.Catalog.Naming
import Mediatheque.Proofs.Dispatcher.Routing

/-!
# One object, one answer

A client learns of a child of a node in two ways: it asks for the child itself, or for all the
children of the node. The first answer looks the child up by its id, and its position by its
parent; the second numbers the children as they stand (`listing`). In a catalog whose ids
follow the tree both answers show the same object (`handleCommand_same_object`), since the
child is found by its id, the parent is read off that, and the child stands first among those
with its id (`presented_child`).
-/

namespace Mediatheque

open Container (heading heading_finalize)

namespace Dispatcher

/-! ## All children of a node -/

/-- The children of a node as clients see them. -/
def listing (d : Dispatcher) (node : Container) : List Container :=
  (node.children.mapIdx fun i child =>
    child.finalize (some (.ofNat i)) (.ofNat node.children.length)).map d.present

theorem length_listing (d : Dispatcher) (node : Container) :
    (d.listing node).length = node.children.length := by
  rw [listing, List.length_map, List.length_mapIdx]

theorem getElem?_listing {d : Dispatcher} {node child : Container} {i : Nat}
    (h : node.children[i]? = some child) :
    (d.listing node)[i]? =
      some (d.present (child.finalize (some (.ofNat i)) (.ofNat node.children.length))) := by
  rw [listing, List.getElem?_map, List.getElem?_mapIdx, h, Option.map_some, Option.map_some]

theorem windowCount_none (total : Nat) : windowCount 0 none total = total := by
  rw [windowCount]
  split
  · rename_i h
    exact (Nat.le_zero.1 h).symm
  · exact Nat.sub_zero total

/-- A page without bounds holds all children. -/
theorem finalizePage_all {l : List Container} (h : l.length < UInt64.size) (total : UInt64) :
    finalizePage 0 total ((l.drop (0 : UInt64).toNat).take
        (windowCount (0 : UInt64).toNat ((none : Option UInt64).map (·.toNat)) l.length)) =
      .ok (l.mapIdx fun i child => child.finalize (some (.ofNat i)) total) := by
  have hzero : (0 : UInt64).toNat = 0 := rfl
  rw [hzero, Option.map_none, windowCount_none, List.drop_zero, List.take_length, finalizePage,
    hzero, if_pos (by omega)]
  simp only [Nat.zero_add]

/-- A request for all children of a node that the catalog serves is answered with them. -/
theorem handleCommand_all {d : Dispatcher} (hd : d.catalog.Fits) {id : String} {node : Container}
    (hnode : d.catalog.resolve id = .served node) (now : Nat) (token : Token) (oneAnswer : Bool) :
    d.handleCommand now (.browseChildren token id 0 none oneAnswer) =
      .ok (.ok (), d.publish (.spliceChildren (some token) id true 0 0 (d.listing node))) := by
  rw [handleCommand, hnode]
  simp only [serveChildren, Catalog.browse, hnode, finalizePage_all (hd.served id node hnode),
    bind, Except.bind]
  rfl

/-! ## One of them -/

/-- A child of a node that the catalog serves is shown by itself as among its siblings. -/
theorem presented_child {d : Dispatcher} (hd : d.catalog.Named) {id : String}
    {node child : Container} {i : Nat} (hnode : d.catalog.resolve id = .served node)
    (hchild : node.children[i]? = some child) :
    d.presented child =
      d.present (child.finalize (some (.ofNat i)) (.ofNat node.children.length)) := by
  have hnamed := hd.named.of_resolve hnode
  have hid := hnamed.isChild child (List.mem_of_getElem? hchild)
  have hslash := (Container.served_cases hnode).1
  have hne : node.id ≠ "" := by
    intro e
    rw [← (Container.served_cases hnode).2.2, e] at hslash
    cases hslash
  have hposition : d.position? child = some (i, node.children.length) := by
    rw [position?, ObjectId.parent?_of_isChild hne hid]
    simp only [Option.bind_eq_bind, Option.bind_some, Catalog.get?_self hnode,
      Container.childIndex?_of_nodup hnamed.distinct hchild]
  rw [presented, hposition]

/-- A request for a child of a node that the catalog serves is answered with it, whoever it
belongs to. -/
theorem handleCommand_child {d : Dispatcher} (hd : d.catalog.Named) {id : String}
    {node child : Container} {i : Nat} (hnode : d.catalog.resolve id = .served node)
    (hchild : node.children[i]? = some child) (now : Nat) (token : Token) :
    d.handleCommand now (.browseObject token child.id) =
      .ok (.ok (), d.publish (.object token (d.presented child))) := by
  have hget := Catalog.get?_child hd hnode hchild
  rw [← serveObject_eq hget, handleCommand, Catalog.resolve_child hd hnode hchild]
  cases child.backend <;> rfl

/-- In a catalog whose ids follow the tree, a client that asks for a child of a node that the
catalog serves is shown the same object as one that asks for all the children of the node, at
the child's position, as long as the numbers of children are those that a machine holds. Both
are answered at once, and the object tells its position and the number of its siblings. -/
theorem handleCommand_same_object {d : Dispatcher} (hnamed : d.catalog.Named)
    (hfits : d.catalog.Fits) {id : String} {node child : Container} {i : Nat}
    (hnode : d.catalog.resolve id = .served node) (hchild : node.children[i]? = some child)
    (now now' : Nat) (token token' : Token) (oneAnswer : Bool) :
    ∃ object items,
      d.handleCommand now (.browseObject token child.id) =
        .ok (.ok (), d.publish (.object token object)) ∧
      d.handleCommand now' (.browseChildren token' id 0 none oneAnswer) =
        .ok (.ok (), d.publish (.spliceChildren (some token') id true 0 0 items)) ∧
      items.length = node.children.length ∧ items[i]? = some object ∧
      heading object = heading child ∧ object.idx = some (.ofNat i) ∧
      object.total = some (.ofNat node.children.length) := by
  have hshown := presented_child hnamed hnode hchild
  refine ⟨d.presented child, d.listing node, handleCommand_child hnamed hnode hchild now token,
    handleCommand_all hfits hnode now' token' oneAnswer, d.length_listing node, ?_,
    d.heading_presented child, ?_, ?_⟩
  · rw [getElem?_listing hchild, hshown]
  · rw [hshown, present, Container.addExternalUris]
    rfl
  · have hsize := hfits.served id node hnode
    obtain ⟨hi, -⟩ := List.getElem?_eq_some_iff.1 hchild
    have hpos : UInt64.ofNat node.children.length ≠ 0 := by
      intro e
      have hn := congrArg UInt64.toNat e
      rw [UInt64.toNat_ofNat_of_lt' hsize] at hn
      have hzero : (0 : UInt64).toNat = 0 := rfl
      omega
    rw [hshown, present, Container.addExternalUris]
    exact if_neg hpos

/-- An album of a backend with a station for its source, below a folder of the catalog. -/
theorem handleCommand_same_object_claimed :
    let album : Container :=
      { Container.new "/albums/x" "X" .musicAlbum with
        backend := some "sql"
        sources := { src := some [{ uri := "radiobrowser:///7" }] } }
    let albums : Container :=
      { Container.new "/albums" "Albums" .rootMusicAlbums with
        children := [.new "/albums/w" "W" .musicAlbum, album] }
    let d : Dispatcher := { (default : Dispatcher) with catalog := (Catalog.empty.add albums).1 }
    ∃ object items,
      d.handleCommand 0 (.browseObject ⟨1⟩ "/albums/x") =
        .ok (.ok (), d.publish (.object ⟨1⟩ object)) ∧
      d.handleCommand 0 (.browseChildren ⟨2⟩ "/albums/" 0 none false) =
        .ok (.ok (), d.publish (.spliceChildren (some ⟨2⟩) "/albums/" true 0 0 items)) ∧
      items.length = 2 ∧ items[1]? = some object ∧ object.idx = some 1 := by
  intro album albums d
  have hleaf (id label : String) (k : MediaClass) : (Container.new id label k).Named :=
    ⟨nofun, .nil, nofun⟩
  have halbum : album.Named := ⟨nofun, .nil, nofun⟩
  have halbums : albums.Named := by
    refine ⟨?_, by decide, ?_⟩
    · exact List.forall_mem_cons.2 ⟨⟨['w'], by decide, by decide, by decide⟩,
        List.forall_mem_singleton.2 ⟨['x'], by decide, by decide, by decide⟩⟩
    · exact List.forall_mem_cons.2 ⟨hleaf _ _ _, List.forall_mem_singleton.2 halbum⟩
  have hnamed : d.catalog.Named := by
    refine ⟨rfl, ⟨?_, by decide, List.forall_mem_singleton.2 halbums⟩⟩
    exact List.forall_mem_singleton.2 ⟨"albums".toList, by decide, by decide, by decide⟩
  obtain ⟨object, items, hobject, hitems, hlength, hat, -, hidx, -⟩ :=
    handleCommand_same_object hnamed (Catalog.fits_of_sizeOf (by decide))
      (rfl : d.catalog.resolve "/albums/" = .served albums) (rfl : albums.children[1]? = some album)
      0 0 ⟨1⟩ ⟨2⟩ false
  exact ⟨object, items, hobject, hitems, hlength, hat, hidx⟩

end Dispatcher

end Mediatheque
