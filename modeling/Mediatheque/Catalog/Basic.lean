import Mediatheque.Catalog.Folder
import Mediatheque.Catalog.Resolution
import Mediatheque.Media.Presentation

/-!
# The catalog

A small tree of its own: the root and the top-level containers that backends hang
their objects below. The children of the root are listed by rank and label, and the
cached numbers of the root's children follow every change.

* `Catalog.ensure`: the top-level container of a class, added if there is none;
* `Catalog.add`, `Catalog.delete`: whole top-level containers;
* `Catalog.browse`: a page of children;
* `Catalog.merge`: changed fields of a node.
-/

namespace Mediatheque

/-- The tree of top-level containers. -/
structure Catalog where
  root : Container := .root
deriving Inhabited

namespace Catalog

/-- The catalog of the root alone. -/
def empty : Catalog := {}

/-- The listing of the root. -/
def children (c : Catalog) : List Container := c.root.children

/-- The catalog with another listing of the root, its numbers recomputed. -/
def withChildren (c : Catalog) (children : List Container) : Catalog :=
  ⟨{ c.root with children := children }.updateChildCounts⟩

/-- Who answers for an id. -/
def resolve (c : Catalog) (id : String) : Resolution := c.root.resolve id

/-- The node of the catalog with an id, whoever serves what is below it. -/
def get? (c : Catalog) (id : String) : Option Container := (c.resolve id).node?

/-! ## Top-level containers -/

/-- The place of a container in a listing: before the first that has to stand behind it. -/
def insertPosition (container : Container) (listing : List Container) : Nat :=
  listing.findIdx (rootOrder container)

/-- Puts a container at its place in the listing of the root, and tells the place. -/
def insertChild (c : Catalog) (container : Container) : Catalog × Nat :=
  let position := insertPosition container c.children
  (c.withChildren (c.children.insertIdx position container), position)

/-- The position of the top-level container of a class, which is added when there is
none. -/
def ensure (c : Catalog) (mediaClass : MediaClass) : Catalog × Nat :=
  match c.children.findIdx? (·.mediaClass = mediaClass) with
  | some position => (c, position)
  | none => c.insertChild (.ofRootClass mediaClass)

/-- Changes the top-level container at a position, without regard to its place. -/
def modifyChild (c : Catalog) (position : Nat) (f : Container → Container) : Catalog :=
  ⟨{ c.root with children := c.children.modify position f }⟩

/-- Adds a top-level container in place of the one with its id, and tells its position. -/
def add (c : Catalog) (container : Container) : Catalog × Nat :=
  match c.root.childIndex? container.id with
  | some old => (c.withChildren (c.children.eraseIdx old)).insertChild container
  | none => c.insertChild container

/-- Removes a top-level container, and tells the position it had. -/
def delete (c : Catalog) (id : String) : Catalog × Option (Nat × Container) :=
  match c.root.childIndex? id with
  | none => (c, none)
  | some position =>
    (c.withChildren (c.children.eraseIdx position), c.children[position]?.map (position, ·))

/-! ## Pages -/

/-- A page of the children of a node that the catalog serves, and the number of all of
them. -/
def browse (c : Catalog) (id : String) (start : UInt64) (count : Option UInt64) :
    Except Fault (Option (List Container × UInt64)) :=
  match c.resolve id with
  | .served node => do
    let total := node.children.length
    let n := windowCount start.toNat (count.map (·.toNat)) total
    let page := (node.children.drop start.toNat).take n
    let page ← finalizePage start (.ofNat total) page
    .ok (some (page, .ofNat total))
  | _ => .ok none

/-! ## Changed fields -/

/-- What became of changed fields. -/
inductive Merge where
  /-- The catalog has no node with the id. -/
  | missing
  | inPlace
  /-- A top-level container moved from one position to another. -/
  | moved (source target : Nat)
deriving DecidableEq, Inhabited

/-- Applies a changed field: texts for the label and the class are taken for those, and
everything else for metadata. -/
def applyField (node : Container) (field : String × Json) : Container :=
  match field with
  | ("label", .str label) => { node with label := label }
  | ("class", .str name) => { node with mediaClass := .ofName name }
  | (key, value) => { node with metadata := node.metadata.insert key value }

/-- Applies changed fields in turn. -/
def applyFields (node : Container) (fields : Dictionary Json) : Container :=
  fields.entries.foldl applyField node

/-- The way that changed fields take to their node. The first character of the id is
passed over unseen, so that there has to be one, of a single byte. -/
def wayTo (id : List Char) : Except Fault (List String) :=
  match id with
  | [] => .error .outOfRange
  | c :: _ =>
    if id = ['/'] then .ok []
    else if c.utf8Size = 1 then .ok (ObjectId.prefixes id)
    else .error .insideCharacter

/-- Puts a top-level container whose label or class has changed to its new place. -/
def resort (c : Catalog) (id : String) : Catalog × Merge :=
  match c.root.childIndex? id with
  | none => (c, .inPlace)
  | some source =>
    match c.children[source]? with
    | none => (c, .inPlace)
    | some node =>
      let rest : Catalog := ⟨{ c.root with children := c.children.eraseIdx source }⟩
      let (sorted, target) := rest.insertChild node
      (sorted, if source = target then .inPlace else .moved source target)

/-- Merges changed fields into the node with an id. -/
def merge (c : Catalog) (id : String) (fields : Dictionary Json) :
    Except Fault (Catalog × Merge) := do
  let id := ObjectId.normalize id
  let way ← wayTo id.toList
  match c.root.follow? way with
  | none => .ok (c, .missing)
  | some node =>
    let changed := applyFields node fields
    let merged : Catalog := ⟨c.root.modifyAlong (applyFields · fields) way⟩
    if changed.label = node.label ∧ changed.mediaClass = node.mediaClass then
      .ok (merged, .inPlace)
    else .ok (merged.resort id)

end Catalog

end Mediatheque
