import Mediatheque.Number.Shortest
import Mediatheque.Text.Digits
import Mediatheque.Toml.Reader

/-!
# Writing TOML

The text of tables of plain values: a header and one line per entry for each table,
with an empty line between tables. A list of two or more items has a line for each.
Texts stand between quotes or, as they are, between apostrophes; three of either hold
line ends, and one or two of the same in a row. Which of these forms a text gets is a
matter of style.

* `Toml.writeText`: a text in a style;
* `Toml.writeTables`: the text of a document.
-/

namespace Mediatheque

namespace Toml

/-- The characters that stand for one character between quotes. -/
def escapeChar (c : Char) : List Char :=
  if c = '"' then ['\\', '"']
  else if c = '\\' then ['\\', '\\']
  else if c = '\n' then ['\\', 'n']
  else if c = '\r' then ['\\', 'r']
  else if c = '\t' then ['\\', 't']
  else if c = '\x08' then ['\\', 'b']
  else if c = '\x0c' then ['\\', 'f']
  else if c.toNat < 0x20 ∨ c.toNat = 0x7f then
    ['\\', 'u', '0', '0'] ++ (hexByte c.toUInt8).map Char.toUpper
  else [c]

/-! ## Keys -/

/-- Whether a text on one line is written as it is: it holds a quote or a backslash, and
nothing that may not stand between apostrophes. -/
def prefersLiteral (s : List Char) : Bool :=
  s.any (fun c => c = '"' ∨ c = '\\') && s.all fun c => c ≠ '\'' ∧ isPrintable c

/-- A text on one line. -/
def writeShort (s : List Char) : List Char :=
  if prefersLiteral s then '\'' :: (s ++ ['\'']) else '"' :: (s.flatMap escapeChar ++ ['"'])

/-- A key: a bare word where it is one, a text on one line otherwise. -/
def writeKey (key : List Char) : List Char :=
  if !key.isEmpty && key.all isBareKeyChar then key else writeShort key

/-! ## Texts -/

/-- The forms of a text. -/
inductive Form where
  /-- Between quotes, with escapes. -/
  | basic
  /-- Between apostrophes, as it is. -/
  | literal
  /-- Between three quotes, with escapes. -/
  | basicLines
  /-- Between three apostrophes, as it is. -/
  | literalLines
deriving DecidableEq, Inhabited

/-- The form with escapes, on as many lines as a text has. -/
def Form.escaped (s : List Char) : Form := if s.contains '\n' then .basicLines else .basic

/-- The greatest number of times that a character stands in a row. -/
def longestRun (q : Char) : List Char → Nat
  | [] => 0
  | c :: s => max ((c :: s).takeWhile (· = q)).length (longestRun q s)

/-- Whether a text holds a control character, which stands for itself in no form. -/
def needsEscape (s : List Char) : Bool := s.any fun c => !isPrintable c && c ≠ '\n'

/-- What writers of texts go by. -/
inductive Style where
  /-- Quotes around all that needs no escapes then, and otherwise apostrophes. -/
  | quotesFirst
  /-- Apostrophes around all that would need escapes between quotes. -/
  | apostrophesFirst
deriving DecidableEq, Inhabited

namespace Style

/-- The form that a text gets. -/
def form (style : Style) (s : List Char) : Form :=
  if needsEscape s then .escaped s
  else
    match style with
    | quotesFirst =>
      if !s.contains '\\' && !s.contains '"' && !s.contains '\n' then .basic
      else if !s.contains '\'' && !s.contains '\n' then .literal
      else if !s.contains '\\' && longestRun '"' s ≤ 2 then .basicLines
      else if longestRun '\'' s ≤ 2 then .literalLines
      else .escaped s
    | apostrophesFirst =>
      if (s.contains '\\' || s.contains '"') && longestRun '\'' s ≤ 2 &&
          s.getLast? ≠ some '\'' then
        if s.contains '\n' || s.contains '\'' then .literalLines else .literal
      else .escaped s

/-- How many quotes in a row stand for themselves between three quotes. -/
def bareQuotes : Style → Nat
  | quotesFirst => 2
  | apostrophesFirst => 0

end Style

/-- The characters between three quotes, behind `run` of them that stand for themselves.
Line ends stand for themselves too, and up to `bare` quotes in a row. -/
def escapeLines (bare : Nat) : Nat → List Char → List Char
  | _, [] => []
  | run, c :: s =>
    if c = '\n' then '\n' :: escapeLines bare 0 s
    else if c = '"' ∧ run < bare then '"' :: escapeLines bare (run + 1) s
    else escapeChar c ++ escapeLines bare 0 s

/-- What stands between three of a mark: a text of several lines starts on a new one. -/
def writeLines (mark : Char) (s body : List Char) : List Char :=
  let open_ := if s.contains '\n' then ['\n'] else []
  [mark, mark, mark] ++ open_ ++ body ++ [mark, mark, mark]

/-- A text in the form that a style has for it. -/
def writeText (style : Style) (s : List Char) : List Char :=
  match style.form s with
  | .basic => '"' :: (s.flatMap escapeChar ++ ['"'])
  | .literal => '\'' :: (s ++ ['\''])
  | .basicLines => writeLines '"' s (escapeLines style.bareQuotes 0 s)
  | .literalLines => writeLines '\'' s s

/-! ## Documents -/

/-- A floating-point number, with a point if it is finite. -/
def writeFloat (x : Binary64) : List Char :=
  if x.isFinite then x.positionalText.toList
  else
    (if x.isNegative then ['-'] else []) ++
      (if x.isNaN then ['n', 'a', 'n'] else ['i', 'n', 'f'])

/-- The items of a list, each behind an indent and before a comma, on lines of their own. -/
def writeItemLines (items : List (List Char)) : List Char :=
  items.flatMap fun item => [' ', ' ', ' ', ' '] ++ item ++ [',', '\n']

/-- A list of texts. -/
def writeTexts (style : Style) (items : List String) : List Char :=
  match items.map fun s => writeText style s.toList with
  | [] => ['[', ']']
  | [item] => '[' :: (item ++ [']'])
  | items => ['[', '\n'] ++ writeItemLines items ++ [']']

/-- A line with a key and the text of its value. -/
def writeEntry (key : String) (value : List Char) : List Char :=
  writeKey key.toList ++ [' ', '=', ' '] ++ value ++ ['\n']

/-- A table: its header, and a line for each entry. -/
def writeTable (name : String) (entries : List (String × List Char)) : List Char :=
  ['['] ++ writeKey name.toList ++ [']', '\n'] ++ entries.flatMap fun e => writeEntry e.1 e.2

/-- Tables with an empty line between them. -/
def writeTables : List (String × List (String × List Char)) → List Char
  | [] => []
  | [(name, entries)] => writeTable name entries
  | (name, entries) :: rest => writeTable name entries ++ '\n' :: writeTables rest

end Toml

end Mediatheque
