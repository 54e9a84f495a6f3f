import Mediatheque.Dictionary
import Mediatheque.Number.Binary64

/-!
# JSON values

The values that messages, objects and settings are written in. Integers and
floating-point numbers are told apart: `1` and `1.0` are different values.

* `Json.object`: an object from its fields, in the order of their keys;
* `Json.same`: equality of values, with floating-point numbers compared by
  their numeric value.
-/

namespace Mediatheque

/-- A JSON value. The fields of an object stand in ascending order of their keys. -/
inductive Json where
  | null
  | bool (b : Bool)
  | int (i : Int)
  | float (x : Binary64)
  | str (s : String)
  | arr (items : List Json)
  | obj (fields : List (String × Json))
deriving Inhabited

namespace Json

/-- The object with some fields: of two with one key the later wins. -/
def object (fields : List (String × Json)) : Json := obj (Dictionary.ofList fields).entries

def strings (items : List String) : Json := arr (items.map str)

/-- A natural number as a value. -/
def nat (n : Nat) : Json := int n

/-- An optional value, `null` when it is absent. -/
def ofOption {α : Type} (write : α → Json) : Option α → Json
  | none => null
  | some a => write a

mutual

/-- Equality of values, with floating-point numbers compared by their numeric value. -/
def same : Json → Json → Bool
  | null, null => true
  | bool a, bool b => a == b
  | int a, int b => a == b
  | float a, float b => a.numEq b
  | str a, str b => a == b
  | arr a, arr b => sameItems a b
  | obj a, obj b => sameFields a b
  | _, _ => false

/-- Equality item by item. -/
def sameItems : List Json → List Json → Bool
  | [], [] => true
  | a :: as, b :: bs => same a b && sameItems as bs
  | _, _ => false

/-- Equality field by field, keys included. -/
def sameFields : List (String × Json) → List (String × Json) → Bool
  | [], [] => true
  | (k, a) :: as, (l, b) :: bs => k == l && same a b && sameFields as bs
  | _, _ => false

end

end Json

end Mediatheque
