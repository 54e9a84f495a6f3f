import Mediatheque.Json.Record

/-!
# Looking into values

Fields of a value by their name, where a field that is missing or of another kind counts
as one that says nothing.
-/

namespace Mediatheque

namespace Json

/-- A field of an object, `null` where there is none. -/
def get (v : Json) (name : String) : Json :=
  match v with
  | .obj fields => (fields.lookup name).getD .null
  | _ => .null

def textAt? (v : Json) (name : String) : Option String := (v.get name).string?

def textAt (v : Json) (name : String) : String := (v.textAt? name).getD ""

def flagAt (v : Json) (name : String) : Bool := (v.get name).bool?.getD false

def numberAt? (v : Json) (name : String) : Option UInt64 := (v.get name).uint64?

def numberAt (v : Json) (name : String) : UInt64 := (v.numberAt? name).getD 0

/-- The items of a list. -/
def itemsAt (v : Json) (name : String) : List Json :=
  match v.get name with
  | .arr items => items
  | _ => []

/-- The texts among the items of a list. -/
def textsAt (v : Json) (name : String) : List String := (v.itemsAt name).filterMap string?

/-- The fields of an object. -/
def fieldsAt (v : Json) (name : String) : List (String × Json) :=
  match v.get name with
  | .obj fields => fields
  | _ => []

end Json

end Mediatheque
