import Mediatheque.Dictionary
import Mediatheque.Json.Value
import Mediatheque.Media.Class
import Mediatheque.Media.Source

/-!
# Containers

The nodes of the catalog. Containers and items are of one type: an item is a
node of a class that has no children. Besides its own fields a node caches how
many children it has, and how many of those are containers.

* `Container.child?`, `Container.childIndex?`: the first child with an id;
* `Container.updateChildCounts`: the caches agree with the children again.
-/

namespace Mediatheque

/-- A node of the catalog. -/
structure Container where
  id : String
  label : String
  mediaClass : MediaClass
  children : List Container := []
  metadata : Dictionary Json := .empty
  /-- The backend that owns this node and all below it. -/
  backend : Option String := none
  editable : Bool := false
  /-- Patterns of the child classes that the node accepts. -/
  childClasses : Option (List String) := none
  numChildren : UInt64 := 0
  numContainerChildren : UInt64 := 0
  numItemChildren : UInt64 := 0
  sources : SourceTable := {}
  /-- The stream layout that a backend reported, kept for the library alone. -/
  streams : Option Json := none
  /-- The files or discs that an object consists of. -/
  parts : List Container := []
  /-- The position in the list of the parent's children, on a published object. -/
  idx : Option UInt64 := none
  /-- The number of the parent's children, on a published object. -/
  total : Option UInt64 := none
  childClass : Option MediaClass := none
  tooltip : Option String := none
deriving Inhabited

namespace Container

/-- A node without children, sources or further fields. -/
def new (id label : String) (mediaClass : MediaClass) : Container :=
  { id := id, label := label, mediaClass := mediaClass }

/-- The node at the top of the catalog, without children. -/
def root : Container := new "/" "Root" .root

/-- The first child with an id. -/
def child? (c : Container) (id : String) : Option Container := c.children.find? (·.id = id)

/-- The position of the first child with an id. -/
def childIndex? (c : Container) (id : String) : Option Nat := c.children.findIdx? (·.id = id)

/-- Recomputes the cached numbers of children. -/
def updateChildCounts (c : Container) : Container :=
  let containers := c.children.countP (·.mediaClass.isContainer)
  { c with
    numChildren := .ofNat c.children.length
    numContainerChildren := .ofNat containers
    numItemChildren := .ofNat (c.children.length - containers) }

/-- Appends a source to a role. -/
def addSource (c : Container) (role : UriRole) (source : Source) : Container :=
  { c with sources := c.sources.add role source }

/-- A metadata value that is text. -/
def metadataText? (c : Container) (key : String) : Option String :=
  match c.metadata.get? key with
  | some (.str s) => some s
  | _ => none

/-! ## Nesting -/

theorem sizeOf_lt_of_mem_children {c d : Container} (h : d ∈ c.children) :
    sizeOf d < sizeOf c := by
  have := List.sizeOf_lt_of_mem h
  cases c
  simp only [Container.mk.sizeOf_spec]
  simp only at this
  omega

theorem sizeOf_lt_of_mem_parts {c p : Container} (h : p ∈ c.parts) : sizeOf p < sizeOf c := by
  have := List.sizeOf_lt_of_mem h
  cases c
  simp only [Container.mk.sizeOf_spec]
  simp only at this
  omega

end Container

end Mediatheque
