import Mediatheque.Toml.Value

/-!
# Tables under construction

A TOML document names its tables in several ways, and each may be defined in one
place only. While a document is read, every table remembers how it came about:

* a table with a header of its own takes no keys by a dotted key from elsewhere;
* a table that only a longer header has named may still get its own header;
* a table that a dotted key has made may get further dotted keys, but no header.

A table array takes its keys in its last element.

* `Draft.insert?`: a value under a dotted key;
* `Draft.openTable?`, `Draft.openElement?`: what a header does;
* `Draft.values`: the finished tables.
-/

namespace Mediatheque

namespace Toml

/-- How a table came about. -/
inductive Origin where
  /-- By a header of its own, or as the table of all. -/
  | explicit
  /-- By a longer header alone. -/
  | implied
  /-- By a dotted key. -/
  | dotted
deriving DecidableEq, Inhabited

/-- What stands under a key while a document is read. -/
inductive Draft where
  | leaf (value : Toml)
  | table (origin : Origin) (entries : List (String × Draft))
  | elements (tables : List (List (String × Draft)))
deriving Inhabited

namespace Draft

/-- The entries of a table. -/
abbrev Entries := List (String × Draft)

/-- Sets what stands under a key, behind all others if the key is new. -/
def set (key : String) (d : Draft) : Entries → Entries
  | [] => [(key, d)]
  | (k, e) :: rest => if k = key then (k, d) :: rest else (k, e) :: set key d rest

/-- Goes down a path of keys and changes the table at its end. Tables that are missing
are made; by a dotted key they may not be entered when they have a header. -/
def alter? (byDottedKey : Bool) (change : Origin → Entries → Option Entries) :
    List String → Origin → Entries → Option Entries
  | [], origin, entries => change origin entries
  | key :: path, _, entries =>
    match entries.lookup key with
    | none => do
      let origin := if byDottedKey then .dotted else .implied
      let changed ← alter? byDottedKey change path origin []
      some (set key (table origin changed) entries)
    | some (leaf _) => none
    | some (table origin inner) => do
      if byDottedKey ∧ origin = .explicit then none
      let changed ← alter? byDottedKey change path origin inner
      some (set key (table origin changed) entries)
    | some (elements tables) => do
      let last ← tables.getLast?
      let changed ← alter? byDottedKey change path .explicit last
      some (set key (elements (tables.dropLast ++ [changed])) entries)

/-- Puts a value under a dotted key. A key is given once, and a table that a dotted key
has made takes no others. -/
def insert? (path : List String) (key : String) (value : Toml) (origin : Origin)
    (entries : Entries) : Option Entries :=
  alter? true (fun origin entries =>
    if decide (origin = .dotted) = path.isEmpty then none
    else
      match entries.lookup key with
      | some _ => none
      | none => some (entries ++ [(key, leaf value)])) path origin entries

/-- Opens the table of a header. -/
def openTable? (path : List String) (key : String) (root : Entries) : Option Entries :=
  alter? false (fun _ entries =>
    match entries.lookup key with
    | none => some (entries ++ [(key, table .explicit [])])
    | some (table .implied inner) => some (set key (table .explicit inner) entries)
    | some _ => none) path .explicit root

/-- Opens another element of the table array of a header. -/
def openElement? (path : List String) (key : String) (root : Entries) : Option Entries :=
  alter? false (fun _ entries =>
    match entries.lookup key with
    | none => some (entries ++ [(key, elements [[]])])
    | some (elements tables) => some (set key (elements (tables ++ [[]])) entries)
    | some _ => none) path .explicit root

/-- Puts a value under a dotted key of the table that the last header has opened. -/
def insertBelow? (header path : List String) (key : String) (value : Toml) (root : Entries) :
    Option Entries :=
  alter? false (insert? path key value) header .explicit root

mutual

/-- The finished value. -/
def value : Draft → Toml
  | leaf v => v
  | table _ entries => .table (values entries)
  | elements tables => .array (tableValues tables)

/-- The finished entries of a table. -/
def values : List (String × Draft) → List (String × Toml)
  | [] => []
  | (k, d) :: rest => (k, d.value) :: values rest

/-- The finished tables of a table array. -/
def tableValues : List (List (String × Draft)) → List Toml
  | [] => []
  | t :: rest => .table (values t) :: tableValues rest

end

end Draft

end Toml

end Mediatheque
