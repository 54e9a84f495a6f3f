import Mediatheque.Media.Container
import Mediatheque.ObjectId

/-!
# Resolving ids

Who answers for an id. The way to an object leads from the root to the first child
whose id is the next beginning of the id, one component at a time. A node on the
way that carries a backend's name hands everything at and below it to that backend.

* `Container.resolve`: who answers for an id below a node;
* `Container.follow?`, `Container.modifyAlong`: the node at the end of a way.
-/

namespace Mediatheque

/-- Who answers for an id. -/
inductive Resolution where
  /-- A node that the catalog serves itself. -/
  | served (node : Container)
  /-- All at and below `node` belongs to `backend`, and `exact` tells that the id is
  the node's own. -/
  | delegated (backend : String) (node : Container) (exact : Bool)
  | missing
deriving Inhabited

namespace Resolution

/-- The node of the catalog that has the resolved id. -/
def node? : Resolution → Option Container
  | served node => some node
  | delegated _ node true => some node
  | _ => none

end Resolution

namespace Container

/-- Walks from a node along the ids of its descendants, and stops at the first that
delegates or has the id in question. -/
def walk (id : String) (node : Container) : List String → Resolution
  | [] =>
    match node.backend with
    | some backend => .delegated backend node (node.id = id)
    | none => if node.id = id then .served node else .missing
  | step :: rest =>
    match node.backend with
    | some backend => .delegated backend node (node.id = id)
    | none =>
      if node.id = id then .served node
      else
        match node.child? step with
        | some child => child.walk id rest
        | none => .missing

/-- Who answers for an id below a root. Ids that do not start with a slash are nobody's. -/
def resolve (root : Container) (id : String) : Resolution :=
  let id := ObjectId.normalize id
  if id.toList.head? = some '/' then root.walk id (ObjectId.prefixes id.toList) else .missing

/-! ## Following a way without regard to backends -/

/-- The descendant at the end of a way of ids. -/
def follow? (node : Container) : List String → Option Container
  | [] => some node
  | step :: rest => node.child? step >>= fun child => child.follow? rest

/-- Replaces the first item that satisfies a test. -/
def replaceFirst (test : Container → Bool) (f : Container → Container) :
    List Container → List Container
  | [] => []
  | c :: rest => if test c then f c :: rest else c :: replaceFirst test f rest

/-- Changes the descendant at the end of a way of ids. -/
def modifyAlong (f : Container → Container) (node : Container) : List String → Container
  | [] => f node
  | step :: rest =>
    { node with
      children := replaceFirst (·.id = step) (fun child => child.modifyAlong f rest)
        node.children }

end Container

end Mediatheque
