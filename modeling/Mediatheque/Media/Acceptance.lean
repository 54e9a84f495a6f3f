import Mediatheque.Media.Container
import Mediatheque.Text.Glob

/-!
# What a container accepts

Whether a child of some class may be added to a container depends on the container
alone: on its editable mark and on its list of allowed classes. The list holds
patterns, and a text that is no pattern allows the class of that very name.
Directories are added to the folders of photos and directories, and to no other.

* `Container.accepts`: whether a child of a class may be added;
* `Container.setEditable`, `Container.allowChildClass`, `Container.clearEditable`.
-/

namespace Mediatheque

/-- Whether a pattern names a class. A text that is no pattern names itself. -/
def patternNamesClass (pattern name : String) : Bool :=
  match Glob.ofChars? pattern.toList with
  | some tokens => Glob.matchesText tokens name.toList
  | none => pattern = name

namespace Container

/-- Whether a child of the class with a name may be added to a container. -/
def accepts (c : Container) (name : String) : Bool :=
  if !c.editable then false
  else if name = MediaClass.directory.name then
    c.mediaClass = .rootPhotos ∨ c.mediaClass = .rootDirectories
  else
    match c.childClasses with
    | none => true
    | some patterns => patterns.any (patternNamesClass · name)

def setEditable (c : Container) : Container := { c with editable := true }

/-- Allows children of the classes that a pattern names, beside those allowed before. -/
def allowChildClass (c : Container) (pattern : String) : Container :=
  let allowed := c.childClasses.getD []
  { c with childClasses := some (if pattern ∈ allowed then allowed else allowed ++ [pattern]) }

/-- Takes back the editable mark together with the list of allowed classes. -/
def clearEditable (c : Container) : Container := { c with editable := false, childClasses := none }

end Container

end Mediatheque
