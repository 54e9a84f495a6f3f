import Mediatheque.Catalog.Basic
import Mediatheque.Media.Container.Json

/-!
# The catalog in messages

* `RootFolder.toJson`: a folder of the root;
* `Resolution.toJson`: who answers for an id;
* `Catalog.summary`: the listing of the root and its numbers.
-/

namespace Mediatheque

def RootFolder.toJson (f : RootFolder) : Json :=
  Json.object [("class", f.mediaClass.toJson), ("label", .str f.label),
    ("id", Json.ofOption .str f.id), ("rank", Json.nat f.rank)]

def Resolution.toJson : Resolution → Json
  | served node => Json.object [("kind", .str "local"), ("node", .str node.id),
      ("label", .str node.label), ("backend", .null)]
  | delegated backend node exact => Json.object [("kind", .str "delegated"),
      ("node", .str node.id), ("backend", .str backend), ("exact", .bool exact)]
  | missing => Json.object [("kind", .str "not_found"), ("backend", .null)]

/-- The listing of the root and its numbers. -/
def Catalog.summary (c : Catalog) : Json :=
  let row (d : Container) : Json :=
    .arr [.str d.id, .str d.label, d.mediaClass.toJson, Json.ofOption .str d.backend]
  let counts := [c.root.numChildren, c.root.numContainerChildren, c.root.numItemChildren]
  Json.object [("children", .arr (c.children.map row)), ("counts", .arr (counts.map Json.uint64)),
    ("len", Json.nat c.children.length), ("empty", .bool c.children.isEmpty)]

end Mediatheque
