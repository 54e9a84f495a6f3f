import Mediatheque.Backend.Behaviour
import Mediatheque.Media.Container.Json

/-!
# Claims

A claim asks for the top-level container of a class: for a backend, or for all to
share. It may set some fields of the container.

* `Claim.apply`: the catalog after a claim, and the position of the container.
-/

namespace Mediatheque

/-- What is asked of a top-level container. -/
structure Claim where
  mediaClass : MediaClass
  /-- Whether the container is to belong to the backend that claims it. -/
  exclusive : Bool := true
  /-- The backend it belongs to in the end, if that is another one. -/
  backend : Option String := none
  editable : Option Bool := none
  children : Option (List Container) := none
deriving Inhabited

namespace Claim

/-- Sets the fields that a claim has. -/
def assign (c : Claim) (d : Container) : Container :=
  let d := { d with
    backend := c.backend <|> d.backend
    editable := c.editable.getD d.editable }
  match c.children with
  | some l => { d with children := l }.updateChildCounts
  | none => d

/-- The catalog after a claim of a backend, and the position of the container. -/
def apply (c : Claim) (backend : String) (catalog : Catalog) : Catalog × Nat :=
  let (catalog, position) :=
    if c.exclusive then catalog.claim backend c.mediaClass else catalog.ensure c.mediaClass
  (catalog.modifyChild position c.assign, position)

/-- The claim that a JSON value writes. -/
def ofJson? (v : Json) : Option Claim := do
  let fields ← v.fields? ["class", "claim", "backend", "editable", "children"]
  let mediaClass ← Json.required fields "class" MediaClass.ofJson?
  let exclusive ← Json.optional fields "claim" Json.bool?
  let backend ← Json.optional fields "backend" Json.string?
  let editable ← Json.optional fields "editable" Json.bool?
  let children ← Json.optional fields "children" (Json.list? Container.ofJson?)
  some ⟨mediaClass, exclusive.getD true, backend, editable, children⟩

end Claim

end Mediatheque
