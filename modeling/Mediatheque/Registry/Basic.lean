import Mediatheque.Dictionary
import Mediatheque.Media.Parameter
import Mediatheque.Settings.Basic
import Mediatheque.Toml.Printer

/-!
# The registry

The settings that a database keeps: a section for each context, with the values of
its settings by name. The file of a registry has a table for each section, and in it
plain values alone.

* `Registry.get?`, `Registry.set`: one value;
* `Registry.text`, `Registry.ofText?`: the settings file.
-/

namespace Mediatheque

/-- The values of settings by their context and name. -/
structure Registry where
  sections : Dictionary (Dictionary ParameterValue) := .empty
deriving DecidableEq, Inhabited

namespace Registry

def empty : Registry := {}

def section? (r : Registry) (context : String) : Option (Dictionary ParameterValue) :=
  r.sections.get? context

def get? (r : Registry) (context name : String) : Option ParameterValue :=
  r.section? context >>= (·.get? name)

def set (r : Registry) (context name : String) (value : ParameterValue) : Registry :=
  ⟨r.sections.insert context (((r.section? context).getD .empty).insert name value)⟩

/-! ## The settings file -/

/-- The value that a TOML value writes. -/
def valueOfToml? : Toml → Option ParameterValue
  | .boolean b => some (.bool b)
  | .integer i => some (.int i)
  | .float x => some (.float x)
  | .string s => some (.string s)
  | .array items => (items.mapM Toml.string?).map .stringList
  | _ => none

/-- The section that a TOML value writes. -/
def sectionOfToml? (t : Toml) : Option (Dictionary ParameterValue) := do
  let entries ← t.entries?
  let values ← entries.mapM fun (name, v) => (valueOfToml? v).map (name, ·)
  some (.ofList values)

/-- The registry that a document writes. -/
def ofDocument? (document : List (String × Toml)) : Option Registry :=
  (document.mapM fun ((name, v) : String × Toml) => (sectionOfToml? v).map (name, ·)).map
    fun sections => ⟨.ofList sections⟩

/-- The registry that a settings file holds. -/
def ofText? (text : String) : Option Registry := Toml.read? text >>= ofDocument?

/-- The text of a value in a style. -/
def writeValue (style : Toml.Style) : ParameterValue → List Char
  | .bool true => ['t', 'r', 'u', 'e']
  | .bool false => ['f', 'a', 'l', 's', 'e']
  | .int i => intText i.toInt
  | .float x => Toml.writeFloat x
  | .string s => Toml.writeText style s.toList
  | .stringList items => Toml.writeTexts style items

/-- The settings file of a registry in a style. -/
def textIn (style : Toml.Style) (r : Registry) : String :=
  String.ofList (Toml.writeTables (r.sections.entries.map fun (name, values) =>
    (name, values.entries.map fun (key, v) => (key, writeValue style v))))

/-- The settings file of a registry. -/
def text (r : Registry) : String := r.textIn .quotesFirst

/-- Equality of registries, with floating-point numbers compared by their numeric value. -/
def same (r s : Registry) : Bool :=
  let sameValues (d e : Dictionary ParameterValue) : Bool :=
    d.keys = e.keys && (d.entries.zip e.entries).all fun (a, b) => a.2.same b.2
  r.sections.keys = s.sections.keys &&
    (r.sections.entries.zip s.sections.entries).all fun (a, b) => sameValues a.2 b.2

end Registry

end Mediatheque
