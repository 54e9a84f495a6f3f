import Mediatheque.Toml.Draft
import Mediatheque.Toml.Moment

/-!
# Reading TOML

Settings files are TOML 1.0 documents. A reader for each symbol of the grammar takes
the characters that remain, and answers its value with the rest of them or nothing.

* `Toml.read?`: the entries of a whole document.
-/

namespace Mediatheque

namespace Toml

/-! ## Blanks, comments and line ends -/

def isBlank (c : Char) : Bool := c = ' ' ∨ c = '\t'

def skipBlank (s : List Char) : List Char := s.dropWhile isBlank

/-- A character that a comment or a string may hold as it is. -/
def isPrintable (c : Char) : Bool := c = '\t' ∨ (0x20 ≤ c.toNat ∧ c.toNat ≠ 0x7f)

/-- The text behind a line end. -/
def lineEnd? : List Char → Option (List Char)
  | '\n' :: s => some s
  | '\r' :: '\n' :: s => some s
  | _ => none

/-- The text behind a comment, if there is one. -/
def skipComment : List Char → List Char
  | '#' :: s => s.dropWhile isPrintable
  | s => s

/-- The text behind the rest of a line, which holds nothing but a comment. -/
def restOfLine? (s : List Char) : Option (List Char) :=
  match skipComment (skipBlank s) with
  | [] => some []
  | s => lineEnd? s

/-- Skips blanks, line ends and comments that end with their line, at most `fuel` of
them. -/
def skipLines : Nat → List Char → List Char
  | 0, s => s
  | fuel + 1, s =>
    let s := skipBlank s
    match lineEnd? (skipComment s) with
    | some rest => skipLines fuel rest
    | none => s

def skipAllLines (s : List Char) : List Char := skipLines (s.length + 1) s

/-! ## Strings -/

/-- The character of a short escape. -/
def shortEscape? : Char → Option Char
  | 'b' => some '\x08'
  | 't' => some '\t'
  | 'n' => some '\n'
  | 'f' => some '\x0c'
  | 'r' => some '\r'
  | '"' => some '"'
  | '\\' => some '\\'
  | _ => none

/-- The character with a code in hexadecimal digits; surrogates and codes beyond the
last character have none. -/
def codedChar? (digits : List Char) : Option Char := do
  let n ← (digitValues? hexDigit? digits).map (numberOf 16)
  if h : n.isValidChar then some (Char.ofNatAux n h) else none

/-- The character behind a backslash, and the text behind it. -/
def readEscape : List Char → Option (Char × List Char)
  | 'u' :: a :: b :: c :: d :: s => (codedChar? [a, b, c, d]).map (·, s)
  | 'U' :: a :: b :: c :: d :: e :: f :: g :: h :: s =>
    (codedChar? [a, b, c, d, e, f, g, h]).map (·, s)
  | c :: s => (shortEscape? c).map (·, s)
  | [] => none

/-- A string with escapes, behind its opening quote. -/
def readBasic : Nat → List Char → Option (List Char × List Char)
  | 0, _ => none
  | _ + 1, [] => none
  | fuel + 1, c :: s =>
    if c = '"' then some ([], s)
    else if c = '\\' then do
      let (x, s) ← readEscape s
      (readBasic fuel s).map fun (t, r) => (x :: t, r)
    else if isPrintable c then (readBasic fuel s).map fun (t, r) => (c :: t, r)
    else none

/-- A string as it stands, behind its opening quote. -/
def readLiteral : List Char → Option (List Char × List Char)
  | [] => none
  | c :: s =>
    if c = '\'' then some ([], s)
    else if isPrintable c then (readLiteral s).map fun (t, r) => (c :: t, r)
    else none

/-- The quotes that end a string of several lines: three of them, behind at most two
that belong to the string. -/
def closing? (quote : Char) (s : List Char) : Option (List Char × List Char) :=
  let run := (s.takeWhile (· = quote)).length
  if run < 3 then none
  else some (List.replicate (min run 5 - 3) quote, s.drop (min run 5))

/-- Skips blanks and at most `fuel` line ends. -/
def skipEmptyLines : Nat → List Char → List Char
  | 0, s => s
  | fuel + 1, s =>
    match lineEnd? (skipBlank s) with
    | some rest => skipEmptyLines fuel rest
    | none => skipBlank s

/-- The text behind a backslash that ends a line, and behind the blanks and line ends
that follow it. -/
def continued? (s : List Char) : Option (List Char) :=
  (lineEnd? (skipBlank s)).map fun rest => skipEmptyLines (rest.length + 1) rest

/-- A string of several lines with escapes, behind its opening quotes. -/
def readBasicLines : Nat → List Char → Option (List Char × List Char)
  | 0, _ => none
  | _ + 1, [] => none
  | fuel + 1, c :: s =>
    match closing? '"' (c :: s) with
    | some ending => some ending
    | none =>
      match lineEnd? (c :: s) with
      | some rest => (readBasicLines fuel rest).map fun (t, r) => ('\n' :: t, r)
      | none =>
        if c = '\\' then
          match continued? s with
          | some rest => readBasicLines fuel rest
          | none => do
            let (x, s) ← readEscape s
            (readBasicLines fuel s).map fun (t, r) => (x :: t, r)
        else if isPrintable c then (readBasicLines fuel s).map fun (t, r) => (c :: t, r)
        else none

/-- A string of several lines as it stands, behind its opening quotes. -/
def readLiteralLines : Nat → List Char → Option (List Char × List Char)
  | 0, _ => none
  | _ + 1, [] => none
  | fuel + 1, c :: s =>
    match closing? '\'' (c :: s) with
    | some ending => some ending
    | none =>
      match lineEnd? (c :: s) with
      | some rest => (readLiteralLines fuel rest).map fun (t, r) => ('\n' :: t, r)
      | none =>
        if isPrintable c then (readLiteralLines fuel s).map fun (t, r) => (c :: t, r)
        else none

/-- The text behind a line end that directly follows the opening quotes. -/
def skipFirstLineEnd (s : List Char) : List Char := (lineEnd? s).getD s

/-- A string of any kind. -/
def readString : List Char → Option (List Char × List Char)
  | '"' :: '"' :: '"' :: s => readBasicLines (s.length + 1) (skipFirstLineEnd s)
  | '\'' :: '\'' :: '\'' :: s => readLiteralLines (s.length + 1) (skipFirstLineEnd s)
  | '"' :: s => readBasic (s.length + 1) s
  | '\'' :: s => readLiteral s
  | _ => none

/-! ## Keys -/

def isBareKeyChar (c : Char) : Bool :=
  ('a' ≤ c ∧ c ≤ 'z') ∨ ('A' ≤ c ∧ c ≤ 'Z') ∨ isDigit c ∨ c = '_' ∨ c = '-'

/-- How deep values and keys may be nested. -/
def depthLimit : Nat := 80

/-- A part of a key: a bare word, or a string of a single line. -/
def readKeyPart (s : List Char) : Option (String × List Char) :=
  match s with
  | '"' :: s => (readBasic (s.length + 1) s).map fun (t, r) => (String.ofList t, r)
  | '\'' :: s => (readLiteral s).map fun (t, r) => (String.ofList t, r)
  | s =>
    match s.takeWhile isBareKeyChar with
    | [] => none
    | word => some (String.ofList word, s.drop word.length)

/-- The parts of a key between dots, with blanks around each. -/
def readKeyParts : Nat → List Char → Option (List String × List Char)
  | 0, _ => none
  | fuel + 1, s => do
    let (part, s) ← readKeyPart (skipBlank s)
    match skipBlank s with
    | '.' :: s => (readKeyParts fuel s).map fun (parts, r) => (part :: parts, r)
    | s => some ([part], s)

/-- A key: the parts before the last, and the last. -/
def readKey (s : List Char) : Option (List String × String × List Char) := do
  let (parts, s) ← readKeyParts (depthLimit - 1) s
  let last ← parts.getLast?
  some (parts.dropLast, last, s)

/-! ## Numbers -/

/-- Digits with an underscore between some of them, as their values. -/
def readDigits (digit? : Char → Option Nat) : List Char → Option (List Nat × List Char)
  | [] => none
  | c :: s => do
    let d ← digit? c
    match s with
    | '_' :: r =>
      match readDigits digit? r with
      | some (ds, r) => some (d :: ds, r)
      | none => none
    | s =>
      match readDigits digit? s with
      | some (ds, r) => some (d :: ds, r)
      | none => if (s.head?.bind digit?).isSome then none else some ([d], s)

/-- Whether a minus sign stands here, and the text behind a sign of either kind. -/
def readSign : List Char → Bool × List Char
  | '-' :: s => (true, s)
  | '+' :: s => (false, s)
  | s => (false, s)

/-- The digits before a point, without a zero in front of another digit. -/
def readWhole (s : List Char) : Option (List Nat × List Char) :=
  match s with
  | '0' :: s => some ([0], s)
  | s => readDigits decimalDigit? s

/-- An integer that fits into 64 bits with a sign. -/
def int64Of? (negative : Bool) (n : Nat) : Option Int64 :=
  let i : Int := if negative then -(n : Int) else n
  if Int64.minValue.toInt ≤ i ∧ i ≤ Int64.maxValue.toInt then some (Int64.ofInt i) else none

/-- The digit values of a base up to eight. -/
def digitBelow? (base : Nat) (c : Char) : Option Nat :=
  (decimalDigit? c).filter (· < base)

def readInteger (s : List Char) : Option (Int64 × List Char) :=
  let prefixed (base : Nat) (digit? : Char → Option Nat) (s : List Char) := do
    let (ds, r) ← readDigits digit? s
    let n ← int64Of? false (numberOf base ds)
    some (n, r)
  match s with
  | '0' :: 'x' :: s => prefixed 16 hexDigit? s
  | '0' :: 'o' :: s => prefixed 8 (digitBelow? 8) s
  | '0' :: 'b' :: s => prefixed 2 (digitBelow? 2) s
  | s => do
    let (negative, s) := readSign s
    let (ds, r) ← readWhole s
    let n ← int64Of? negative (numberOf 10 ds)
    some (n, r)

/-- The digits behind a point, if there is one. -/
def readFraction : List Char → Option (Option (List Nat) × List Char)
  | '.' :: s => (readDigits decimalDigit? s).map fun (ds, r) => (some ds, r)
  | s => some (none, s)

/-- The exponent behind an `e`, if there is one. -/
def readExponent : List Char → Option (Option Int × List Char)
  | c :: s =>
    if c = 'e' ∨ c = 'E' then do
      let (negative, s) := readSign s
      let (ds, r) ← readDigits decimalDigit? s
      let n : Int := numberOf 10 ds
      some (some (if negative then -n else n), r)
    else some (none, c :: s)
  | [] => some (none, [])

/-- A number with a point or an exponent, or both. One that is too large in the positive
direction is none. -/
def readFiniteFloat (s : List Char) : Option (Binary64 × List Char) := do
  let (negative, s) := readSign s
  let (whole, s) ← readWhole s
  let (fraction, s) ← readFraction s
  let (exponent, s) ← readExponent s
  if fraction.isNone ∧ exponent.isNone then none
  let digits := fraction.getD []
  let x := Binary64.ofScientific negative (numberOf 10 (whole ++ digits))
    (exponent.getD 0 - digits.length)
  if x.isInfinite ∧ !negative then none
  some (x, s)

def readFloat (s : List Char) : Option (Binary64 × List Char) :=
  match readFiniteFloat s with
  | some r => some r
  | none =>
    let (negative, s) := readSign s
    match s with
    | 'i' :: 'n' :: 'f' :: s => some (.infinity negative, s)
    | 'n' :: 'a' :: 'n' :: s => some (.nan negative, s)
    | _ => none

/-! ## Values -/

/-- A value that does not hold others. -/
def readScalar (s : List Char) : Option (Toml × List Char) :=
  match s with
  | '"' :: _ | '\'' :: _ => (readString s).map fun (t, r) => (.string (String.ofList t), r)
  | 't' :: 'r' :: 'u' :: 'e' :: r => some (.boolean true, r)
  | 'f' :: 'a' :: 'l' :: 's' :: 'e' :: r => some (.boolean false, r)
  | s =>
    match readMoment s with
    | some (t, r) => some (.date (String.ofList t), r)
    | none =>
      match readFloat s with
      | some (x, r) => some (.float x, r)
      | none => (readInteger s).map fun (i, r) => (.integer i, r)

mutual

/-- The value at the start of a text, nested at most `depth` deep. -/
def readValue : Nat → Nat → List Char → Option (Toml × List Char)
  | 0, _, _ => none
  | fuel + 1, depth, s =>
    match s with
    | '[' :: s =>
      if depth + 1 < depthLimit then
        (readItems fuel (depth + 1) (skipAllLines s)).map fun (vs, r) => (.array vs, r)
      else none
    | '\x7b' :: s =>
      if depth + 1 < depthLimit then
        match skipBlank s with
        | '\x7d' :: s => some (.table [], s)
        | s => (readInline fuel (depth + 1) [] s).map fun (t, r) => (.table (Draft.values t), r)
      else none
    | s => readScalar s

/-- The items of an array up to its closing bracket, behind blanks and line ends. -/
def readItems : Nat → Nat → List Char → Option (List Toml × List Char)
  | 0, _, _ => none
  | fuel + 1, depth, s =>
    match s with
    | ']' :: s => some ([], s)
    | s => do
      let (v, s) ← readValue fuel depth s
      match skipAllLines s with
      | ',' :: s =>
        (readItems fuel depth (skipAllLines s)).map fun (vs, r) => (v :: vs, r)
      | ']' :: s => some ([v], s)
      | _ => none

/-- The entries of an inline table up to its closing brace, after those read before. -/
def readInline : Nat → Nat → Draft.Entries → List Char → Option (Draft.Entries × List Char)
  | 0, _, _, _ => none
  | fuel + 1, depth, entries, s => do
    let (path, key, s) ← readKey s
    let s ← expect '=' s
    let (v, s) ← readValue fuel depth (skipBlank s)
    let entries ← Draft.insert? path key v .explicit entries
    match skipBlank s with
    | ',' :: s => readInline fuel depth entries s
    | '\x7d' :: s => some (entries, s)
    | _ => none

end

/-! ## Documents -/

/-- A document as far as it has been read: its tables, and the last header. -/
structure Progress where
  root : Draft.Entries := []
  header : List String := []

/-- A header behind its brackets, up to the end of its line. -/
def readHeader (p : Progress) (s : List Char) : Option (Progress × List Char) :=
  match s with
  | '[' :: '[' :: s => do
    let (path, key, s) ← readKey s
    let s ← expect ']' s
    let s ← expect ']' s
    let s ← restOfLine? s
    let root ← Draft.openElement? path key p.root
    some (⟨root, path ++ [key]⟩, s)
  | '[' :: s => do
    let (path, key, s) ← readKey s
    let s ← expect ']' s
    let s ← restOfLine? s
    let root ← Draft.openTable? path key p.root
    some (⟨root, path ++ [key]⟩, s)
  | _ => none

/-- A key with its value, up to the end of the line. -/
def readEntry (p : Progress) (s : List Char) : Option (Progress × List Char) := do
  let (path, key, s) ← readKey s
  let s ← expect '=' s
  let (v, s) ← readValue (s.length + 1) 0 (skipBlank s)
  let s ← restOfLine? s
  let root ← Draft.insertBelow? p.header path key v p.root
  some ({ p with root := root }, s)

/-- The lines of a document, at most `fuel` of them. -/
def readLines : Nat → Progress → List Char → Option Progress
  | 0, _, _ => none
  | fuel + 1, p, s =>
    match skipBlank s with
    | [] => some p
    | c :: s =>
      if c = '#' ∨ c = '\n' ∨ c = '\r' then restOfLine? (c :: s) >>= readLines fuel p
      else if c = '[' then readHeader p (c :: s) >>= fun (p, s) => readLines fuel p s
      else readEntry p (c :: s) >>= fun (p, s) => readLines fuel p s

/-- A document behind the mark of byte order, if it has one. -/
def skipMark : List Char → List Char
  | c :: s => if c.toNat = 0xFEFF then s else c :: s
  | [] => []

/-- The entries of a whole document. Each line takes at least one character. -/
def read? (document : String) : Option (List (String × Toml)) :=
  let s := skipMark document.toList
  (readLines (s.length + 1) {} s).map fun p => Draft.values p.root

end Toml

end Mediatheque
