import Mediatheque.Json.Record
import Mediatheque.Media.Container

/-!
# Containers in JSON

Objects travel as records. Lists, maps and optional fields that are empty or
absent are left out when an object is written, and may be missing when it is
read; the cached numbers of children are always written.

* `Container.ofJson?`, `Container.toJson`;
* `Source.ofJson?`, `Source.toJson`;
* `SourceTable.ofJson?`, `SourceTable.toJson`.
-/

namespace Mediatheque

namespace MediaClass

def ofJson? (v : Json) : Option MediaClass := v.string?.map ofName

def toJson (c : MediaClass) : Json := .str c.name

end MediaClass

namespace Source

def ofJson? (v : Json) : Option Source := do
  let fields ← v.fields? ["uri", "mimetype", "mtime"]
  let uri ← Json.required fields "uri" Json.string?
  let mimetype ← Json.optional fields "mimetype" Json.string?
  let mtime ← Json.optional fields "mtime" Json.int64?
  some ⟨uri, mimetype, mtime⟩

def toJson (s : Source) : Json :=
  .obj (Json.field? "mimetype" Json.str s.mimetype ++ Json.field? "mtime" Json.int64 s.mtime ++
    [("uri", .str s.uri)])

end Source

namespace UriRole

def ofJson? : Json → Option UriRole := Json.name? ofName?

end UriRole

namespace SourceTable

/-- Reads the fields of an object in turn, each a role and its list. -/
def ofFields? (table : SourceTable) : List (String × Json) → Option SourceTable
  | [] => some table
  | (name, v) :: rest => do
    let role ← UriRole.ofName? name
    let sources ← Json.list? Source.ofJson? v
    ofFields? (table.set sources role) rest

def ofJson? : Json → Option SourceTable
  | .obj fields => ofFields? {} fields
  | _ => none

def isEmpty (t : SourceTable) : Bool := t.entries.isEmpty

def toJson (t : SourceTable) : Json :=
  let list (sources : List Source) : Json := .arr (sources.map Source.toJson)
  .obj (Json.field? "cover" list t.cover ++ Json.field? "icon" list t.icon ++
    Json.field? "poster" list t.poster ++ Json.field? "src" list t.src ++
    Json.field? "wallpaper" list t.wallpaper)

end SourceTable

namespace Json

mutual

/-- How deep lists and objects are nested in a value. -/
def depth : Json → Nat
  | arr items => depthItems items + 1
  | obj fields => depthFields fields + 1
  | _ => 0

def depthItems : List Json → Nat
  | [] => 0
  | v :: vs => max (depth v) (depthItems vs)

def depthFields : List (String × Json) → Nat
  | [] => 0
  | (_, v) :: fs => max (depth v) (depthFields fs)

end

end Json

namespace Container

/-- The fields of a container in their declared order. -/
def fieldNames : List String :=
  ["id", "label", "class", "children", "metadata", "backend", "editable", "child_classes",
    "num_children", "num_container_children", "num_item_children", "sources", "streams", "parts",
    "idx", "total", "child_class", "tooltip"]

/-- Reads a container whose children and parts are nested at most `depth` deep. -/
def read? : Nat → Json → Option Container
  | 0, _ => none
  | depth + 1, v => do
    let fields ← v.fields? fieldNames
    let id ← Json.required fields "id" Json.string?
    let label ← Json.required fields "label" Json.string?
    let mediaClass ← Json.required fields "class" MediaClass.ofJson?
    let children ← Json.withDefault fields "children" [] (Json.list? (read? depth))
    let metadata ← Json.withDefault fields "metadata" .empty Json.dictionary?
    let backend ← Json.optional fields "backend" Json.string?
    let editable ← Json.withDefault fields "editable" false Json.bool?
    let childClasses ← Json.optional fields "child_classes" (Json.list? Json.string?)
    let numChildren ← Json.withDefault fields "num_children" 0 Json.uint64?
    let numContainers ← Json.withDefault fields "num_container_children" 0 Json.uint64?
    let numItems ← Json.withDefault fields "num_item_children" 0 Json.uint64?
    let sources ← Json.withDefault fields "sources" {} SourceTable.ofJson?
    let streams ← Json.optional fields "streams" some
    let parts ← Json.withDefault fields "parts" [] (Json.list? (read? depth))
    let idx ← Json.optional fields "idx" Json.uint64?
    let total ← Json.optional fields "total" Json.uint64?
    let childClass ← Json.optional fields "child_class" MediaClass.ofJson?
    let tooltip ← Json.optional fields "tooltip" Json.string?
    some {
      id := id, label := label, mediaClass := mediaClass, children := children
      metadata := metadata, backend := backend, editable := editable
      childClasses := childClasses, numChildren := numChildren
      numContainerChildren := numContainers, numItemChildren := numItems
      sources := sources, streams := streams, parts := parts, idx := idx
      total := total, childClass := childClass, tooltip := tooltip }

/-- The container that a JSON value writes. -/
def ofJson? (v : Json) : Option Container := read? (v.depth + 1) v

/-! ## Writing -/

/-- A list of containers as a field, left out when it is empty. -/
def listField (name : String) : List Json → List (String × Json)
  | [] => []
  | items => [(name, .arr items)]

/-- The JSON value that writes a container. -/
def toJson (c : Container) : Json :=
  .obj (Json.field? "backend" Json.str c.backend ++
    Json.field? "child_class" MediaClass.toJson c.childClass ++
    Json.field? "child_classes" Json.strings c.childClasses ++
    listField "children" (c.children.map fun d => d.toJson) ++
    [("class", c.mediaClass.toJson), ("editable", .bool c.editable), ("id", .str c.id)] ++
    Json.field? "idx" Json.uint64 c.idx ++
    [("label", .str c.label)] ++
    (if c.metadata.isEmpty then [] else [("metadata", .obj c.metadata.entries)]) ++
    [("num_children", Json.uint64 c.numChildren),
      ("num_container_children", Json.uint64 c.numContainerChildren),
      ("num_item_children", Json.uint64 c.numItemChildren)] ++
    listField "parts" (c.parts.map fun p => p.toJson) ++
    (if c.sources.isEmpty then [] else [("sources", c.sources.toJson)]) ++
    Json.field? "streams" (fun v => v) c.streams ++
    Json.field? "tooltip" Json.str c.tooltip ++
    Json.field? "total" Json.uint64 c.total)
termination_by c
decreasing_by
  · exact sizeOf_lt_of_mem_children ‹_›
  · exact sizeOf_lt_of_mem_parts ‹_›

end Container

end Mediatheque
