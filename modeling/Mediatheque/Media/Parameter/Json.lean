import Mediatheque.Json.Record
import Mediatheque.Media.Parameter

/-!
# Parameters in JSON

A value of a setting is written as the plain value it is, so that its kind has
to be told from the value: a truth value, an integer that fits into 64 bits with
a sign, any other number, text, or a list of text, tried in this order.

* `ParameterValue.ofJson?`, `ParameterValue.toJson`;
* `ParameterInfo.ofJson?`, `ParameterInfo.toJson`.
-/

namespace Mediatheque

namespace ParameterValue

/-- The number nearest to an integer. -/
def floatOfInt (i : Int) : Binary64 := Binary64.ofRatio (i < 0) i.natAbs 1

/-- The value that a JSON value writes. -/
def ofJson? : Json → Option ParameterValue
  | .bool b => some (.bool b)
  | .int i =>
    match Json.int64? (.int i) with
    | some n => some (.int n)
    | none => some (.float (floatOfInt i))
  | .float x => some (.float x)
  | .str s => some (.string s)
  | .arr items => (Json.list? Json.string? (.arr items)).map stringList
  | _ => none

/-- The JSON value that writes a value; a number that is not finite has none but
`null`. -/
def toJson : ParameterValue → Json
  | bool b => .bool b
  | int i => Json.int64 i
  | float x => if x.isFinite then .float x else .null
  | string s => .str s
  | stringList items => Json.strings items

end ParameterValue

namespace ParameterKind

def ofJson? : Json → Option ParameterKind := Json.name? ofName?

def toJson (k : ParameterKind) : Json := .str k.name

end ParameterKind

namespace ParameterInfo

def ofJson? (v : Json) : Option ParameterInfo := do
  let fields ← v.fields? ["name", "long_name", "kind", "default", "help"]
  let name ← Json.required fields "name" Json.string?
  let longName ← Json.required fields "long_name" Json.string?
  let kind ← Json.required fields "kind" ParameterKind.ofJson?
  let default ← Json.optional fields "default" ParameterValue.ofJson?
  let help ← Json.optional fields "help" Json.string?
  some ⟨name, longName, kind, default, help⟩

def toJson (p : ParameterInfo) : Json :=
  .obj (Json.field? "default" ParameterValue.toJson p.default ++
    Json.field? "help" Json.str p.help ++
    [("kind", p.kind.toJson), ("long_name", .str p.longName), ("name", .str p.name)])

end ParameterInfo

end Mediatheque
