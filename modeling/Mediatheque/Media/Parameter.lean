import Mediatheque.Number.Binary64

/-!
# Parameters

The settings that a context accepts, and their values. A value is of one of
five kinds; a truth value and an integer can stand in for one another.

* `ParameterValue`: the value of a setting;
* `ParameterInfo`: what a context declares of one of its settings.
-/

namespace Mediatheque

/-- The value of a setting. -/
inductive ParameterValue where
  | bool (b : Bool)
  | int (i : Int64)
  | float (x : Binary64)
  | string (s : String)
  | stringList (items : List String)
deriving DecidableEq, Inhabited

namespace ParameterValue

/-- A truth value, or whether an integer is not zero. -/
def asBool? : ParameterValue → Option Bool
  | bool b => some b
  | int i => some (i ≠ 0)
  | _ => none

/-- An integer, or one or zero for a truth value. -/
def asInt? : ParameterValue → Option Int64
  | int i => some i
  | bool b => some (if b then 1 else 0)
  | _ => none

def asString? : ParameterValue → Option String
  | string s => some s
  | _ => none

def asList? : ParameterValue → Option (List String)
  | stringList items => some items
  | _ => none

/-- Equality of values, with floating-point numbers compared by their numeric value. -/
def same : ParameterValue → ParameterValue → Bool
  | float x, float y => x.numEq y
  | v, w => v = w

end ParameterValue

/-- How a setting is presented. -/
inductive ParameterKind where
  /-- An action: its value is kept only for the record. -/
  | button
  | checkbox
  | int
  | float
  | string
  | dirList
deriving DecidableEq, Inhabited

namespace ParameterKind

def all : List ParameterKind := [button, checkbox, int, float, string, dirList]

def name : ParameterKind → String
  | button => "button"
  | checkbox => "checkbox"
  | int => "int"
  | float => "float"
  | string => "string"
  | dirList => "dir-list"

def ofName? (s : String) : Option ParameterKind := all.find? (·.name = s)

end ParameterKind

/-- What a context declares of one of its settings. -/
structure ParameterInfo where
  name : String
  longName : String
  kind : ParameterKind
  default : Option ParameterValue := none
  help : Option String := none
deriving DecidableEq, Inhabited

namespace ParameterInfo

/-- The setting with a default value. -/
def withDefault (p : ParameterInfo) (value : ParameterValue) : ParameterInfo :=
  { p with default := some value }

/-- The setting with a text that explains it. -/
def withHelp (p : ParameterInfo) (help : String) : ParameterInfo := { p with help := some help }

/-- Equality of declarations, with floating-point numbers compared by their numeric value. -/
def same (p q : ParameterInfo) : Bool :=
  p.name = q.name && p.longName = q.longName && p.kind = q.kind && p.help = q.help &&
    match p.default, q.default with
    | none, none => true
    | some v, some w => v.same w
    | _, _ => false

end ParameterInfo

end Mediatheque
