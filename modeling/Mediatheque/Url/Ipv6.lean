import Mediatheque.Url.Ipv4

/-!
# Internet addresses of eight pieces

An address is written as eight pieces of up to four hexadecimal digits with colons
between them, where two colons stand for one or more pieces of zero, once. The last
two pieces may be written as four decimal numbers.

* `Ipv6.read?`, `Ipv6.text`: the address.
-/

namespace Mediatheque

namespace Ipv6

/-- The text in front of the first double colon and the one behind it. -/
def splitDoubleColon : List Char → List Char × Option (List Char)
  | ':' :: ':' :: rest => ([], some rest)
  | [] => ([], none)
  | c :: rest =>
    let (front, back) := splitDoubleColon rest
    (c :: front, back)

/-- The value of a piece of one to four hexadecimal digits. -/
def piece? (piece : List Char) : Option Nat :=
  if 1 ≤ piece.length ∧ piece.length ≤ 4 then (digitValues? hexDigit? piece).map (numberOf 16)
  else none

/-- A decimal number below 256 without a zero in front. -/
def byte? (digits : List Char) : Option Nat :=
  match digits with
  | [] => none
  | '0' :: _ :: _ => none
  | digits => do
    let n ← (digitValues? decimalDigit? digits).map (numberOf 10)
    if n < 256 then some n else none

/-- The two pieces that four decimal numbers write. -/
def bytes? (cs : List Char) : Option (List Nat) :=
  match (splitAt (· = '.') cs).mapM byte? with
  | some [a, b, c, d] => some [256 * a + b, 256 * c + d]
  | _ => none

/-- The pieces between colons; `atEnd` tells that the address ends with them. -/
def pieces? (atEnd : Bool) (cs : List Char) : Option (List Nat) :=
  if cs.isEmpty then some []
  else
    let parts := splitAt (· = ':') cs
    match parts.getLast? with
    | none => none
    | some last => do
      let firsts ← parts.dropLast.mapM piece?
      let tail ← if atEnd && last.any (· = '.') then bytes? last else (piece? last).map ([·])
      some (firsts ++ tail)

/-- The eight pieces of the address that a text writes. -/
def read? (cs : List Char) : Option (List Nat) :=
  match splitDoubleColon cs with
  | (all, none) => do
    let pieces ← pieces? true all
    if pieces.length = 8 then some pieces else none
  | (front, some back) => do
    let front ← pieces? false front
    let back ← pieces? true back
    let given := front.length + back.length
    if given < 8 then some (front ++ List.replicate (8 - given) 0 ++ back) else none

/-- The start and the length of the first of the longest runs of two or more zeros. -/
def zeroRun? (pieces : List Nat) : Option (Nat × Nat) :=
  let runs := [8, 7, 6, 5, 4, 3, 2].flatMap fun length =>
    (List.range (9 - length)).map fun start => (start, length)
  runs.find? fun (start, length) => ((pieces.drop start).take length).all (· = 0)

/-- Pieces with colons between them. -/
def piecesText (pieces : List Nat) : List Char :=
  joinWith [':'] (pieces.map (Nat.toDigits 16))

/-- An address with its longest run of zeros shortened. -/
def text (pieces : List Nat) : List Char :=
  match zeroRun? pieces with
  | none => piecesText pieces
  | some (start, length) =>
    piecesText (pieces.take start) ++ [':', ':'] ++ piecesText (pieces.drop (start + length))

end Ipv6

end Mediatheque
