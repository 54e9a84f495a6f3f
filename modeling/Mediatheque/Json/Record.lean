import Mediatheque.Json.Value

/-!
# Records in JSON

How the fields of a record are found in a value. A record is an object whose
unknown fields are ignored, or the list of its fields in their declared order. A
required field has to be there, an optional one may be missing or `null`, and a
field with a default may be missing.

* `Json.fields?`: the fields of a record;
* `Json.required`, `Json.optional`, `Json.withDefault`: one field of it;
* `Json.variant?`: the tag of a message and the value its fields are in.
-/

namespace Mediatheque

namespace Json

/-- The fields of a record with the given names. A list gives them in that order. -/
def fields? (names : List String) : Json → Option (List (String × Json))
  | obj fields => some fields
  | arr items => if items.length ≤ names.length then some (names.zip items) else none
  | _ => none

/-- A field that has to be there. -/
def required {α : Type} (fields : List (String × Json)) (name : String)
    (read : Json → Option α) : Option α :=
  fields.lookup name >>= read

/-- A field that may be missing or `null`. -/
def optional {α : Type} (fields : List (String × Json)) (name : String)
    (read : Json → Option α) : Option (Option α) :=
  match fields.lookup name with
  | none | some null => some none
  | some v => (read v).map some

/-- A field that may be missing, but not `null` unless its reader takes that. -/
def withDefault {α : Type} (fields : List (String × Json)) (name : String) (default : α)
    (read : Json → Option α) : Option α :=
  match fields.lookup name with
  | none => some default
  | some v => read v

/-! ## Plain values -/

def bool? : Json → Option Bool
  | bool b => some b
  | _ => none

def string? : Json → Option String
  | str s => some s
  | _ => none

/-- An integer that fits into 64 bits with a sign. -/
def int64? : Json → Option Int64
  | int i =>
    if Int64.minValue.toInt ≤ i ∧ i ≤ Int64.maxValue.toInt then some (Int64.ofInt i) else none
  | _ => none

/-- A natural number that fits into 64 bits. -/
def uint64? : Json → Option UInt64
  | int i => if 0 ≤ i ∧ i < UInt64.size then some (UInt64.ofNat i.toNat) else none
  | _ => none

/-- A list, each of whose items is read alike. -/
def list? {α : Type} (read : Json → Option α) : Json → Option (List α)
  | arr items => items.mapM read
  | _ => none

/-- An object as a dictionary. -/
def dictionary? : Json → Option (Dictionary Json)
  | obj fields => some (Dictionary.ofList fields)
  | _ => none

/-- One of a set of names: the name itself, or an object whose only field it is,
with nothing in it. -/
def name? {α : Type} (named? : String → Option α) : Json → Option α
  | str s => named? s
  | obj [(s, null)] => named? s
  | _ => none

/-- The tag of a tagged record and the value that holds its other fields. -/
def variant? : Json → Option (String × Json)
  | obj fields => do
    let tag ← fields.lookup "type" >>= string?
    some (tag, obj fields)
  | arr (tag :: rest) => do
    let tag ← string? tag
    some (tag, arr rest)
  | _ => none

/-! ## Writing -/

/-- An unsigned number as a value. -/
def uint64 (n : UInt64) : Json := int n.toNat

/-- A signed number as a value. -/
def int64 (n : Int64) : Json := int n.toInt

/-- The field of an optional value, left out when it is absent. -/
def field? {α : Type} (name : String) (write : α → Json) : Option α → List (String × Json)
  | none => []
  | some a => [(name, write a)]

end Json

end Mediatheque
