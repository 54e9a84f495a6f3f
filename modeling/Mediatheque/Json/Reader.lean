import Mediatheque.Json.Value
import Mediatheque.Text.Digits

/-!
# Reading JSON

A reader for each symbol of the grammar takes the characters that remain and
answers its value with the rest of them, or nothing. Integers keep their value
between `-2 ^ 63` and `2 ^ 64 - 1`. Every other number becomes a floating-point
number from at most the leading digits that 64 bits hold: these are rounded
once, and their product with a power of ten once more. A number too large to be
finite is refused.

* `Json.read?`: the value of a whole text;
* `Json.readValue`: the value at the start of a text.
-/

namespace Mediatheque

namespace Json

/-- Spaces, tabs and line ends separate the symbols. -/
def isBlank (c : Char) : Bool := c = ' ' ∨ c = '\t' ∨ c = '\n' ∨ c = '\r'

def skipBlank (s : List Char) : List Char := s.dropWhile isBlank

/-! ## Numbers -/

/-- The parts of a number as written: sign, digits before and after the point, and
the power of ten. -/
structure NumberText where
  negative : Bool
  whole : List Nat
  fraction : Option (List Nat)
  exponent : Option Int

/-- The values of the leading decimal digits, and what follows them. -/
def spanDigits : List Char → List Nat × List Char
  | [] => ([], [])
  | c :: rest =>
    match decimalDigit? c with
    | some d => let (ds, r) := spanDigits rest; (d :: ds, r)
    | none => ([], c :: rest)

/-- The digits after a point, if one follows. At least one digit has to. -/
def readFraction : List Char → Option (Option (List Nat) × List Char)
  | '.' :: s =>
    match spanDigits s with
    | ([], _) => none
    | (ds, r) => some (some ds, r)
  | s => some (none, s)

/-- The digits of an exponent behind its sign. -/
def readExponentDigits (negative : Bool) (s : List Char) : Option (Option Int × List Char) :=
  match spanDigits s with
  | ([], _) => none
  | (ds, r) =>
    let n : Int := numberOf 10 ds
    some (some (if negative then -n else n), r)

/-- The exponent behind an `e`, if one follows. At least one digit has to. -/
def readExponent : List Char → Option (Option Int × List Char)
  | 'e' :: '-' :: s | 'E' :: '-' :: s => readExponentDigits true s
  | 'e' :: '+' :: s | 'E' :: '+' :: s => readExponentDigits false s
  | 'e' :: s | 'E' :: s => readExponentDigits false s
  | s => some (none, s)

/-- A number behind its sign. A zero is not followed by another digit. -/
def readUnsigned (negative : Bool) (s : List Char) : Option (NumberText × List Char) :=
  match spanDigits s with
  | ([], _) => none
  | (0 :: _ :: _, _) => none
  | (whole, r) => do
    let (fraction, r) ← readFraction r
    let (exponent, r) ← readExponent r
    some (⟨negative, whole, fraction, exponent⟩, r)

def readNumberText : List Char → Option (NumberText × List Char)
  | '-' :: s => readUnsigned true s
  | s => readUnsigned false s

/-- Appends a digit to a significand if 64 bits still hold it. -/
def appendDigit? (significand digit : Nat) : Option Nat :=
  let n := significand * 10 + digit
  if n < UInt64.size then some n else none

/-- The significand of the leading digits that 64 bits hold, and how many digits
follow those. -/
def leadingDigits (significand : Nat) : List Nat → Nat × Nat
  | [] => (significand, 0)
  | d :: rest =>
    match appendDigit? significand d with
    | some n => leadingDigits n rest
    | none => (significand, rest.length + 1)

/-- A significand times a power of ten, rounded after each step; nothing if it is
too large. A power below all finite ones is applied in two steps. -/
def scaleByTen : Nat → Binary64 → Int → Option Binary64
  | 0, _, _ => none
  | fuel + 1, x, e =>
    if e.natAbs ≤ 308 then
      let power := Binary64.ofScientific false 1 e.natAbs
      if 0 ≤ e then
        let y := x.mul power
        if y.isInfinite then none else some y
      else some (x.div power)
    else if x.isZero then some x
    else if 0 ≤ e then none
    else scaleByTen fuel (x.div (Binary64.ofScientific false 1 308)) (e + 308)

/-- The floating-point value of a number as written. -/
def NumberText.float? (t : NumberText) : Option Binary64 :=
  let fraction := t.fraction.getD []
  let (m, surplus) := leadingDigits 0 t.whole
  let (m, unread) := leadingDigits m fraction
  let e : Int := (surplus : Int) - ((fraction.length - unread : Nat) : Int) + t.exponent.getD 0
  (scaleByTen 4 (Binary64.ofNat m) e).map fun x => if t.negative then x.neg else x

/-- The value of a number as written: an integer where it is one in range, and not
the negative zero. -/
def NumberText.value? (t : NumberText) : Option Json :=
  let n := numberOf 10 t.whole
  if t.fraction.isNone ∧ t.exponent.isNone ∧
      (if t.negative then n ≠ 0 ∧ Int64.minValue.toInt ≤ -(n : Int) else n < UInt64.size) then
    some (int (if t.negative then -(n : Int) else n))
  else t.float?.map float

/-! ## Strings -/

/-- The number of four hexadecimal digits. -/
def hex4? (a b c d : Char) : Option Nat := (digitValues? hexDigit? [a, b, c, d]).map (numberOf 16)

/-- The character that one of the short escapes stands for. -/
def shortEscape? : Char → Option Char
  | '"' => some '"'
  | '\\' => some '\\'
  | '/' => some '/'
  | 'b' => some '\x08'
  | 'f' => some '\x0c'
  | 'n' => some '\n'
  | 'r' => some '\r'
  | 't' => some '\t'
  | _ => none

/-- The character of a pair of surrogates. -/
def pairedChar (high low : Nat) : Char :=
  Char.ofNat (0x10000 + (high - 0xD800) * 0x400 + (low - 0xDC00))

/-- The characters of a string behind its opening quote, and the text behind its
closing quote. Surrogates come in pairs, and control characters are escaped. -/
def readString : List Char → Option (List Char × List Char)
  | [] => none
  | '"' :: s => some ([], s)
  | '\\' :: 'u' :: a :: b :: c :: d :: s =>
    match hex4? a b c d with
    | none => none
    | some u =>
      if 0xD800 ≤ u ∧ u < 0xDC00 then
        match s with
        | '\\' :: 'u' :: e :: f :: g :: h :: r =>
          match hex4? e f g h with
          | none => none
          | some v =>
            if 0xDC00 ≤ v ∧ v < 0xE000 then
              (readString r).map fun (t, r) => (pairedChar u v :: t, r)
            else none
        | _ => none
      else if 0xDC00 ≤ u ∧ u < 0xE000 then none
      else (readString s).map fun (t, r) => (Char.ofNat u :: t, r)
  | '\\' :: c :: s =>
    match shortEscape? c with
    | none => none
    | some x => (readString s).map fun (t, r) => (x :: t, r)
  | c :: s =>
    if c = '\\' ∨ c.toNat < 0x20 then none
    else (readString s).map fun (t, r) => (c :: t, r)

/-! ## Values -/

/-- The value of a word that stands for itself. -/
def readWord : List Char → Option (Json × List Char)
  | 't' :: 'r' :: 'u' :: 'e' :: s => some (bool true, s)
  | 'f' :: 'a' :: 'l' :: 's' :: 'e' :: s => some (bool false, s)
  | 'n' :: 'u' :: 'l' :: 'l' :: s => some (null, s)
  | s => do
    let (t, r) ← readNumberText s
    let v ← t.value?
    some (v, r)

mutual

/-- The value at the start of a text, at most `fuel` symbols deep. -/
def readValue : Nat → List Char → Option (Json × List Char)
  | 0, _ => none
  | fuel + 1, s =>
    match skipBlank s with
    | '"' :: r => (readString r).map fun (t, r) => (str (String.ofList t), r)
    | '[' :: r =>
      match skipBlank r with
      | ']' :: r => some (arr [], r)
      | r => (readItems fuel r).map fun (vs, r) => (arr vs, r)
    | '\x7b' :: r =>
      match skipBlank r with
      | '\x7d' :: r => some (obj [], r)
      | r => (readFields fuel r).map fun (fs, r) => (object fs, r)
    | r => readWord r

/-- The items of a list that is not empty, up to its closing bracket. -/
def readItems : Nat → List Char → Option (List Json × List Char)
  | 0, _ => none
  | fuel + 1, s => do
    let (v, r) ← readValue fuel s
    match skipBlank r with
    | ',' :: r => (readItems fuel r).map fun (vs, r) => (v :: vs, r)
    | ']' :: r => some ([v], r)
    | _ => none

/-- The fields of an object that is not empty, up to its closing brace. -/
def readFields : Nat → List Char → Option (List (String × Json) × List Char)
  | 0, _ => none
  | fuel + 1, s =>
    match skipBlank s with
    | '"' :: r => do
      let (k, r) ← readString r
      match skipBlank r with
      | ':' :: r => do
        let (v, r) ← readValue fuel r
        match skipBlank r with
        | ',' :: r => (readFields fuel r).map fun (fs, r) => ((String.ofList k, v) :: fs, r)
        | '\x7d' :: r => some ([(String.ofList k, v)], r)
        | _ => none
      | _ => none
    | _ => none

end

/-- The value of a whole text. Each symbol takes at least one character, so the
length of the text bounds their number. -/
def readChars? (s : List Char) : Option Json := do
  let (v, r) ← readValue (s.length + 1) s
  if (skipBlank r).isEmpty then some v else none

/-- The value of a whole text. -/
def read? (s : String) : Option Json := readChars? s.toList

end Json

end Mediatheque
