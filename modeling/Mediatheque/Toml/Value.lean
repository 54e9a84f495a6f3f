import Mediatheque.Number.Binary64

/-!
# TOML values

The values of a settings file. A date is kept as its text, since no setting takes one;
where a table is asked for, it counts as a table with that text in it.

* `Toml.entries?`: the entries of a table, or of what counts as one.
-/

namespace Mediatheque

/-- A TOML value. The keys of a table stand in the order in which they were given. -/
inductive Toml where
  | string (s : String)
  | integer (i : Int64)
  | float (x : Binary64)
  | boolean (b : Bool)
  | date (text : String)
  | array (items : List Toml)
  | table (entries : List (String × Toml))
deriving Inhabited

namespace Toml

/-- The key of the text of a date that counts as a table. -/
def dateKey : String := "$__toml_private_datetime"

/-- The entries of a table. -/
def entries? : Toml → Option (List (String × Toml))
  | table entries => some entries
  | date text => some [(dateKey, string text)]
  | _ => none

end Toml

end Mediatheque
