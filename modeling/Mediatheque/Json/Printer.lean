import Mediatheque.Json.Value
import Mediatheque.Number.Shortest
import Mediatheque.Text.Digits

/-!
# Writing JSON

The text of a value, either compact or with a line for every item and every
field. Control characters are escaped, all others stand for themselves; a number
that is not finite has no text of its own and is written as `null`.

* `Json.write`: the characters of a value;
* `Json.text`: the same as a string;
* `Json.prettyText`: the text with line ends, for people.
-/

namespace Mediatheque

namespace Json

/-- The characters that stand for one character of a string. -/
def escapeChar (c : Char) : List Char :=
  if c = '"' then ['\\', '"']
  else if c = '\\' then ['\\', '\\']
  else if c = '\n' then ['\\', 'n']
  else if c = '\r' then ['\\', 'r']
  else if c = '\t' then ['\\', 't']
  else if c = '\x08' then ['\\', 'b']
  else if c = '\x0c' then ['\\', 'f']
  else if c.toNat < 0x20 then ['\\', 'u', '0', '0'] ++ hexByte c.toUInt8
  else [c]

/-- A string between quotes. -/
def quote (s : List Char) : List Char := '"' :: (s.flatMap escapeChar ++ ['"'])

mutual

/-- The characters of a value. -/
def write : Json → List Char
  | null => ['n', 'u', 'l', 'l']
  | bool true => ['t', 'r', 'u', 'e']
  | bool false => ['f', 'a', 'l', 's', 'e']
  | int i => intText i
  | float x => if x.isFinite then x.scientificText.toList else ['n', 'u', 'l', 'l']
  | str s => quote s.toList
  | arr items => '[' :: (writeItems items ++ [']'])
  | obj fields => '\x7b' :: (writeFields fields ++ ['\x7d'])

/-- The items of a list, separated by commas. -/
def writeItems : List Json → List Char
  | [] => []
  | [v] => write v
  | v :: vs => write v ++ ',' :: writeItems vs

/-- The fields of an object, separated by commas. -/
def writeFields : List (String × Json) → List Char
  | [] => []
  | [(k, v)] => quote k.toList ++ ':' :: write v
  | (k, v) :: fs => quote k.toList ++ ':' :: (write v ++ ',' :: writeFields fs)

end

/-- The compact text of a value. -/
def text (v : Json) : String := String.ofList (write v)

/-! ## With line ends -/

/-- A line end, and two blanks for every list or object around. -/
def newLine (depth : Nat) : List Char := '\n' :: List.replicate (2 * depth) ' '

mutual

/-- The characters of a value of which every item and every field has its own line. -/
def writePretty (depth : Nat) : Json → List Char
  | arr (v :: vs) => '[' :: (writePrettyItems (depth + 1) (v :: vs) ++ newLine depth ++ [']'])
  | obj (f :: fs) =>
    '\x7b' :: (writePrettyFields (depth + 1) (f :: fs) ++ newLine depth ++ ['\x7d'])
  | v => write v

/-- The items of a list, each on its own line. -/
def writePrettyItems (depth : Nat) : List Json → List Char
  | [] => []
  | [v] => newLine depth ++ writePretty depth v
  | v :: vs => newLine depth ++ writePretty depth v ++ ',' :: writePrettyItems depth vs

/-- The fields of an object, each on its own line. -/
def writePrettyFields (depth : Nat) : List (String × Json) → List Char
  | [] => []
  | [(k, v)] => newLine depth ++ quote k.toList ++ [':', ' '] ++ writePretty depth v
  | (k, v) :: fs =>
    newLine depth ++ quote k.toList ++ [':', ' '] ++ writePretty depth v ++
      ',' :: writePrettyFields depth fs

end

/-- The text of a value for people. -/
def prettyText (v : Json) : String := String.ofList (writePretty 0 v)

example : (obj [("a", arr [int 1, null]), ("b", arr [])]).prettyText =
    "\x7b\n  \"a\": [\n    1,\n    null\n  ],\n  \"b\": []\n\x7d" := by decide +kernel

end Json

end Mediatheque
