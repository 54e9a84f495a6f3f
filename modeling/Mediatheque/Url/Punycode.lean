import Mediatheque.Text.Digits

/-!
# Punycode

Names of hosts in ASCII (RFC 3492). The characters beyond ASCII are inserted into the
others in ascending order, and each insertion is written as the number of places and
characters that were passed over since the last one, in digits whose base adapts.

* `Punycode.encode`, `Punycode.decode?`.
-/

namespace Mediatheque

namespace Punycode

/-- The digit with a value below 36: letters first. -/
def digitOf (n : Nat) : Char :=
  if n < 26 then Char.ofNat ('a'.toNat + n) else Char.ofNat ('0'.toNat + (n - 26))

/-- The value of a digit, in either case. -/
def digit? (c : Char) : Option Nat :=
  if 'a' ≤ c ∧ c ≤ 'z' then some (c.toNat - 'a'.toNat)
  else if 'A' ≤ c ∧ c ≤ 'Z' then some (c.toNat - 'A'.toNat)
  else (decimalDigit? c).map (· + 26)

/-- The digit values from which on more digits follow, at a position that grows by 36. -/
def threshold (position bias : Nat) : Nat := min (max (position - bias) 1) 26

/-- Divides by 35 until a number is small, and counts 36 for every division. -/
def shrink : Nat → Nat → Nat → Nat × Nat
  | 0, delta, k => (delta, k)
  | fuel + 1, delta, k => if 455 < delta then shrink fuel (delta / 35) (k + 36) else (delta, k)

/-- The bias after an insertion. -/
def adapt (delta points : Nat) (first : Bool) : Nat :=
  let delta := if first then delta / 700 else delta / 2
  let (delta, k) := shrink delta (delta + delta / points) 0
  k + 36 * delta / (delta + 38)

/-- The digits of a number. -/
def encodeNumber (bias : Nat) : Nat → Nat → Nat → List Char
  | 0, _, _ => []
  | fuel + 1, position, n =>
    let t := threshold position bias
    if n < t then [digitOf n]
    else digitOf (t + (n - t) % (36 - t)) ::
      encodeNumber bias fuel (position + 36) ((n - t) / (36 - t))

/-- What encoding has come to: the digits written, the number of places passed over, the
bias and how many characters are in place. -/
structure Progress where
  digits : List Char := []
  delta : Nat := 0
  bias : Nat := 72
  points : Nat
  first : Bool := true

/-- Passes over a character, or inserts it when its turn has come. -/
def encodeAt (turn : Nat) (p : Progress) (c : Char) : Progress :=
  if c.toNat < turn then { p with delta := p.delta + 1 }
  else if c.toNat = turn then
    { digits := p.digits ++ encodeNumber p.bias (p.delta + 1) 36 p.delta
      delta := 0
      bias := adapt p.delta (p.points + 1) p.first
      points := p.points + 1
      first := false }
  else p

/-- Inserts all characters with the next of some code points in ascending order. -/
def encodeTurns (label : List Char) : List Nat → Nat → Progress → Progress
  | [], _, p => p
  | turn :: turns, last, p =>
    let p := { p with delta := p.delta + (turn - last) * (p.points + 1) }
    let p := label.foldl (encodeAt turn) p
    encodeTurns label turns (turn + 1) { p with delta := p.delta + 1 }

/-- A label in ASCII characters, without the mark that tells so. -/
def encode (label : List Char) : List Char :=
  let basic := label.filter (·.toNat < 0x80)
  let turns := ((label.filter (0x80 ≤ ·.toNat)).map Char.toNat).mergeSort.eraseDups
  let start := if basic.isEmpty then [] else basic ++ ['-']
  start ++ (encodeTurns label turns 0x80 { points := basic.length }).digits

/-- The number at the start of some digits, and what follows it. -/
def decodeNumber? (bias : Nat) : List Char → Nat → Nat → Nat → Option (Nat × List Char)
  | [], _, _, _ => none
  | c :: rest, position, weight, n => do
    let d ← digit? c
    let t := threshold position bias
    if d < t then some (n + d * weight, rest)
    else decodeNumber? bias rest (position + 36) (weight * (36 - t)) (n + d * weight)

/-- Inserts the characters that digits write into a label: each from a place on that grows
by one with it, and the next code point once the places of the label are used up. -/
def insertAll? : Nat → List Char → Nat → Nat → Nat → List Char → Option (List Char)
  | 0, digits, _, _, _, label => if digits.isEmpty then some label else none
  | fuel + 1, digits, turn, place, bias, label =>
    if digits.isEmpty then some label
    else do
      let (n, rest) ← decodeNumber? bias digits 36 1 place
      let points := label.length + 1
      let turn := turn + n / points
      let bias := adapt (n - place) points (place = 0)
      if turn.isValidChar then
        insertAll? fuel rest turn (n % points + 1) bias
          (label.take (n % points) ++ [Char.ofNat turn] ++ label.drop (n % points))
      else none

/-- The label that some ASCII characters stand for. -/
def decode? (cs : List Char) : Option (List Char) :=
  let digits := (cs.reverse.takeWhile (· ≠ '-')).reverse
  let basic := (cs.take (cs.length - digits.length)).dropLast
  insertAll? digits.length digits 0x80 0 72 basic

end Punycode

end Mediatheque
